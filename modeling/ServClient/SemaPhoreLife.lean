/-
A semaphore that is destroyed while others may be in their calls.

`Destroy` does not take `m_Mut` and notifies nobody.  It tests `mbCreated` and then writes
`mSemCount`, `mMaxCount` and `mbCreated` one after the other, and the steps of the other calls may
come between.  One thread calls it.  Nobody calls `Create` again.
-/
import ServClient.SemaPhore

namespace ServClient

/-- Where the call of `Destroy` is. -/
inductive SemDestroyPc
  | idle
  /-- `mSemCount` is 0. -/
  | counted
  /-- `mMaxCount` is 0. -/
  | bounded
deriving DecidableEq, Repr

/-- A semaphore with its calls, and where its `Destroy` is. -/
structure SemaPhoreLife where
  monitor : Monitor
  destroy : SemDestroyPc
deriving DecidableEq, Repr

/-- A step of one of the calls, or of `Destroy`. -/
inductive SemaPhoreLifeStep
  /-- Some thread calls `Take` or `Give`, or such a call goes on. -/
  | call (l : SemStep)
  /-- `Destroy` is called, or goes on. -/
  | destroy
deriving DecidableEq, Repr

namespace SemaPhoreLife

/-- A semaphore nobody has called yet. -/
def ofSem (s : XLSemaPhore) : SemaPhoreLife := { monitor := Monitor.ofSem s, destroy := .idle }

/-- One of the writes of `Destroy`. -/
def setSem (s : SemaPhoreLife) (sem : XLSemaPhore) (pc : SemDestroyPc) : SemaPhoreLife :=
  { monitor := { s.monitor with sem := sem }, destroy := pc }

/-- `Destroy` goes on: `mSemCount`, `mMaxCount` and `mCreated`, one after the other. -/
def destroyStep (s : SemaPhoreLife) : SemaPhoreLife :=
  match s.destroy with
  | .idle =>
      if s.monitor.sem.created then s.setSem { s.monitor.sem with semCount := 0 } .counted else s
  | .counted => s.setSem { s.monitor.sem with maxCount := 0 } .bounded
  | .bounded => s.setSem { s.monitor.sem with created := false } .idle

/-- One step; `Destroy` takes no lock and can always go on. -/
def next (s : SemaPhoreLife) : SemaPhoreLifeStep → Option SemaPhoreLife
  | .call l => (s.monitor.next l).map fun monitor => { s with monitor := monitor }
  | .destroy => some s.destroyStep

end SemaPhoreLife

end ServClient
