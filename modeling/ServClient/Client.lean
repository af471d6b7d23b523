/-
`XLClient`, and the gate its calls go through.

`OnStart` is called by `XLClientThread::Start` whether or not the event thread could be created,
`OnEnd` by `XLClientThread::Stop` if it was; whether it was is part of the step.  `XLClientThread`
is otherwise the subject of `ServClient/ClientThread.lean`.  A call that has to wait for the gate
is two steps, and others may come in between.  The sockets library and the configuration are
left out.
-/
import ServClient.SemaPhore

namespace ServClient

/-- A client, with the gate that its `Start` and its destructor go through. -/
structure XLClient where
  /-- `m_Client`, and whether its event thread is created. -/
  client : Option Bool
  gatekeeper : XLSemaPhore
deriving DecidableEq, Repr

namespace XLClient

/-- The constructor, if it is given the semaphore. -/
def ofGate (gatekeeper : XLSemaPhore) : XLClient := { client := none, gatekeeper := gatekeeper }

/-- A client as it is constructed; the gate is made with `Create(1, 1)`. -/
def new : XLClient := ofGate (XLSemaPhore.new.create 1 1)

/-- `Start` up to the `Take` of `OnStart`; false where it does nothing. -/
def start (c : XLClient) (created : Bool) : XLClient × Bool :=
  match c.client with
  | none => ({ c with client := some created }, true)
  | some _ => (c, false)

/-- `OnStart`, which takes the permit; `none` while it has to wait. -/
def onStart (c : XLClient) : Option XLClient :=
  c.gatekeeper.take.map fun gatekeeper => { c with gatekeeper := gatekeeper }

/-- `OnEnd`, which gives it back. -/
def onEnd (c : XLClient) : XLClient := { c with gatekeeper := c.gatekeeper.give }

/-- `Stop`: the client's thread is stopped, and deleted. -/
def stop (c : XLClient) : XLClient :=
  match c.client with
  | some created =>
      let c := if created then c.onEnd else c
      { c with client := none }
  | none => c

/-- The destructor; `none` while it has to wait. -/
def destroy (c : XLClient) : Option XLClient :=
  c.gatekeeper.take.map fun gatekeeper => { c with gatekeeper := gatekeeper.destroy }

end XLClient

/-- A client, and the calls made on it. -/
structure GateRun where
  object : XLClient
  /-- How many calls of `Start` are in `OnStart`. -/
  starting : Nat
  /-- The destructor is called. -/
  destroying : Bool
  /-- It has returned. -/
  gone : Bool
deriving DecidableEq, Repr

/-- A call, or a `Take` in one that finds its permit. -/
inductive GateStep
  | start (created : Bool)
  /-- The `Take` of a call of `Start` finds a permit. -/
  | onStart
  | stop
  | destroy
  /-- The `Take` of the destructor finds one. -/
  | destroyed
deriving DecidableEq, Repr

namespace GateRun

/-- A client that is given the semaphore, with no call in progress. -/
def ofGate (gatekeeper : XLSemaPhore) : GateRun :=
  { object := XLClient.ofGate gatekeeper, starting := 0, destroying := false, gone := false }

/-- A client as it is constructed, with no call in progress. -/
def new : GateRun := ofGate (XLSemaPhore.new.create 1 1)

/-- No call is in progress. -/
def idle (r : GateRun) : Bool := decide (r.starting = 0) && !r.destroying && !r.gone

/-- One step; calls of a client that is being destroyed are not made. -/
def next (r : GateRun) : GateStep → Option GateRun
  | .start created =>
      if r.destroying || r.gone then none
      else
        let (object, takes) := r.object.start created
        some { r with
          object := object, starting := if takes then r.starting + 1 else r.starting }
  | .onStart =>
      if r.starting = 0 then none
      else
        r.object.onStart.map fun object =>
          { r with object := object, starting := r.starting - 1 }
  | .stop =>
      if r.destroying || r.gone then none else some { r with object := r.object.stop }
  | .destroy => if r.idle then some { r with destroying := true } else none
  | .destroyed =>
      if r.destroying then
        r.object.destroy.map fun object =>
          { r with object := object, destroying := false, gone := true }
      else none

end GateRun

end ServClient
