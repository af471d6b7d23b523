/-
`XLAcceptorThread`: the first connection is accepted in `XLSocket::Start`, the others in the loop
of `RunProgram`.

What the system answers, and when another thread calls `Stop`, are inputs of a run.
-/
import ServClient.Socket

namespace ServClient

/-- The acceptor, less what the thread it is needs. -/
structure XLAcceptorThread where
  /-- `m_pSocket`. -/
  socket : Option XLSocket
  exit : Bool
  nConnection : Int

/-- What happens to one run from outside. -/
structure AcceptorInputs where
  start : SocketAnswers
  /-- What `accept` returns in the turns of the loop. -/
  accepts : Nat → Int
  /-- `Stop` has set `m_bExit` since the last time the loop looked at it. -/
  stopped : Nat → Bool

namespace XLAcceptorThread

/-- The constructor. -/
def new (socket : Option XLSocket) (num : Int) : XLAcceptorThread :=
  { socket := socket, exit := false, nConnection := num }

/-- The loop from turn `k` on, with so many turns left until `itr` is `m_iNConnection`. -/
def acceptLoop (i : AcceptorInputs) : Nat → Nat → XLSocket → Bool → XLSocket × Bool
  | 0, _, s, exit => (s, exit)
  | left + 1, k, s, exit =>
      if exit || i.stopped k then (s, true)
      else
        let (s, accepted) := s.acceptConnection { i.start with accept := i.accepts k }
        acceptLoop i left (k + 1) s (!accepted)

/-- What `Start` returns is not looked at. -/
def runProgram (t : XLAcceptorThread) (i : AcceptorInputs) : XLAcceptorThread :=
  match t.socket with
  | none => t
  | some s =>
      let (s, exit) := acceptLoop i (t.nConnection - 1).toNat 0 (s.start i.start).1 t.exit
      { t with socket := some s, exit := exit }

/-- The calls of the run. -/
def calls (t : XLAcceptorThread) (i : AcceptorInputs) : List SocketCall :=
  match t.socket, (t.runProgram i).socket with
  | some s, some s' => s'.log.drop s.log.length
  | _, _ => []

end XLAcceptorThread

/-- What `accept` has returned, -1 where it has failed. -/
def SocketCall.acceptResult : SocketCall → Option Int
  | accept result => some result
  | adopt _ | socket _ | connect _ | bind _ | listen | onAccept _ | close _ => none

/-- The descriptor of a client socket that the listener gets. -/
def SocketCall.announced : SocketCall → Option Int
  | onAccept sock => some sock
  | adopt _ | socket _ | connect _ | bind _ | listen | accept _ | close _ => none

end ServClient
