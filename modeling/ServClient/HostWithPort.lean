/-
A host and its port as one text.

`SetHostWithPort` splits the text where it stands, so the text is memory that can be written.
What is undefined has no result: an `int` that overflows, and `atoi` of a number out of range.
-/
import ServClient.Lib.CText
import ServClient.SocketConfig

namespace ServClient

namespace SocketConfig

/-- `":"`. -/
def colon : List UInt8 := [58]

/-- `" \n\t"`. -/
def blanks : List UInt8 := [32, 10, 9]

/-- `SetPortNumber`. -/
def setPortNumber (c : SocketConfig) (value : Int32) : SocketConfig :=
  { c with portNumber := value }

/-- The string behind a pointer into memory. -/
def textAt (memory : List UInt8) (start : Nat) : Option CString := CString.read (memory.drop start)

/-- `GetHostWithPort`: the host, a colon and the port. -/
def getHostWithPort (c : SocketConfig) : CString where
  bytes := c.hostNumber.bytes ++ (colon ++ CText.ofInt c.portNumber.toInt)
  noNul := fun h => by
    rcases List.mem_append.mp h with h | h
    · exact c.hostNumber.noNul h
    · rcases List.mem_append.mp h with h | h
      · exact absurd h (by decide)
      · exact CText.zero_notMem_ofInt _ h

/-- The first token goes to `SetHostNumber`. -/
def takeHost (c : SocketConfig) (memory : List UInt8) (findResult : Option Nat) :
    Option SocketConfig :=
  match findResult with
  | some start => (textAt memory start).map fun host => c.setHostNumber (some host)
  | none => some c

/-- The second one is the port. -/
def takePort (c : SocketConfig) (memory : List UInt8) (findResult : Option Nat) :
    Option SocketConfig :=
  match findResult with
  | some start => do
      let port ← CText.atoi (← textAt memory start).bytes
      return c.setPortNumber port
  | none => some c

/-- `SetHostWithPort`, on a copy of the text that `strtok` writes to. -/
def setHostWithPort (c : SocketConfig) (hostport : Option CString) : Option SocketConfig :=
  match hostport with
  | none => some c
  | some text =>
      let lenHostPort := castInt text.bytes.length
      if 0 < lenHostPort then
        -- `new char[lenHostPort + 2]`
        if intMax < lenHostPort + 2 then none
        else do
          let (findResult, memory) ← CText.strtok colon (text.bytes ++ [0])
          let c ← c.takeHost memory findResult
          let (findResult, memory) ← CText.strtok blanks memory
          c.takePort memory findResult
      else some c

end SocketConfig

end ServClient
