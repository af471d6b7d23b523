/-
The comparison operators of `XLSharedSmPtr`.

What a handle is compared by is the counter its `m_pData` points to, if there is one, and what that
counter points to.  The order of `T` is that of the addresses of its objects, and null is an
address below all of them.
-/
import ServClient.AutoPtr
import Mathlib.Order.Lattice

namespace ServClient

variable {T : Type}

/-- The counter behind an `m_pData`. -/
def PtrHeap.block (h : PtrHeap T) (p : Option Nat) : Option (RefCounter T) :=
  p.bind fun b => h.counters[b]?.join

section

variable [LinearOrder T]

/-- `p < q` of two `T*`. -/
def ptrLt : Option T → Option T → Bool
  | _, none => false
  | none, some _ => true
  | some a, some b => decide (a < b)

/-- `p <= q` of two `T*`. -/
def ptrLe : Option T → Option T → Bool
  | none, _ => true
  | some _, none => false
  | some a, some b => decide (a ≤ b)

end

namespace XLSharedSmPtr

/-- `GetConstData`: the object behind the counter, null where there is no counter. -/
def getConstData (a : Option (RefCounter T)) : Option T :=
  match a with
  | some c => c.pData
  | none => none

section

variable [LinearOrder T]

/-- `operator<`, of handles with these counters. -/
def lt (a b : Option (RefCounter T)) : Bool :=
  match a, b with
  | some c, some d => ptrLt c.pData d.pData
  | none, some d => ptrLt none d.pData
  | some c, none => ptrLt c.pData none
  | none, none => false

/-- `operator>`. -/
def gt (a b : Option (RefCounter T)) : Bool :=
  match a, b with
  | some c, some d => ptrLt d.pData c.pData
  | none, some d => ptrLt d.pData none
  | some c, none => ptrLt none c.pData
  | none, none => false

/-- `operator<=`. -/
def le (a b : Option (RefCounter T)) : Bool :=
  match a, b with
  | some c, some d => ptrLe c.pData d.pData
  | none, some d => ptrLe none d.pData
  | some c, none => ptrLe c.pData none
  | none, none => true

/-- `operator>=`. -/
def ge (a b : Option (RefCounter T)) : Bool :=
  match a, b with
  | some c, some d => ptrLe d.pData c.pData
  | none, some d => ptrLe d.pData none
  | some c, none => ptrLe none c.pData
  | none, none => true

/-- `operator==`. -/
def eq (a b : Option (RefCounter T)) : Bool :=
  match a, b with
  | some c, some d => decide (c.pData = d.pData)
  | none, some _ => false
  | some _, none => false
  | none, none => true

end

end XLSharedSmPtr

end ServClient
