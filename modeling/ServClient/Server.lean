/-
`XLServer` and its services.

An `XLCService` is its place in the order in which they were made, and has the address of
its `XLServingThread`, which is its id.  A `long long` id and the pointer it is cast to have
the same 64 bits, so an id is an address here.  The memory of a deleted service may be used
for a later one.

A step is one call of the server's owner, or a step of the threads of one service
(`ServClient/ServingThread.lean`).  To work on a deleted service has no meaning: nothing is
done, and `fault` is set.

A message is posted when the service's event queue has it.  The queue drops what it has no room for,
and what comes before it is created, and nobody looks at what `Put` returns.

The callbacks of `ServingThreadListener` only print, and `m_iMaxServices` is not read.
`Start` and `Stop` are those of the library (`ServClient/LibraryInterface.lean`) and not among the
steps, and the destructor is what may follow a run.
-/
import ServClient.ServingThread
import ServClient.Lib.Registry

namespace ServClient

/-- `XLCService`, with the serving thread `Service` points to. -/
structure XLCService where
  /-- The address of the serving thread. -/
  id : UInt64
  service : XLServingThread
  gate : XLSemaPhore
  deleted : Bool
  /-- The events the loop of the service has taken out of its queue, in order. -/
  taken : List XLThreadEvent

namespace XLCService

/-- The constructor, with a new serving thread whose listener is set. -/
def new (id : UInt64) : XLCService where
  id := id
  service := XLServingThread.new true
  gate := XLSemaPhore.new.create 0 1
  deleted := false
  taken := []

/-- `GetService()->Start()`. -/
def start (created : Bool) (socket : Option UInt64) (o : XLCService) : XLCService :=
  { o with service := o.service.start created socket }

/-- `GetService()->Stop()`. -/
def stop (o : XLCService) : XLCService := { o with service := o.service.stop }

/-- `GetService()->Broadcast(msg, len)`. -/
def broadcast (msg : Option (List UInt8)) (len : Int) (o : XLCService) : XLCService :=
  { o with service := o.service.put (XLServingThread.broadcastEvent msg len) }

/-- The threads of the service make a step. -/
def next (o : XLCService) (l : ServingStep) : Option XLCService :=
  (o.service.next l).map fun service =>
    { o with
      service := service
      taken :=
        match l with
        | .event => o.taken ++ (o.service.nextEvent.map Prod.snd).toList
        | _ => o.taken }

/-- The messages its queue has had: the loop has taken them, or they are still in it. -/
def posted (o : XLCService) : List XLThreadEvent :=
  (o.taken ++ o.service.events.pending).filter fun e => e.iType = XLServingThread.usrMsgBdcst

/-- Its queue is created and not full. -/
def hasRoom (o : XLCService) : Bool :=
  o.service.created && o.service.events.pending.length < o.service.events.maxSize

/-- `GetGate().Give()`. -/
def giveGate (o : XLCService) : XLCService := { o with gate := o.gate.give }

/-- The destructor. -/
def delete (o : XLCService) : XLCService :=
  { o with service := o.service.stop.destroy, gate := o.gate.destroy, deleted := true }

end XLCService

/-- The server: its registry of services, and the services it has ever made. -/
structure XLServer where
  /-- `m_ClientServices`, in the order of its keys: an id and the place of its `XLCService`. -/
  clientServices : List (UInt64 × Nat)
  /-- Every `XLCService` made. -/
  objects : List XLCService
  fault : Bool

/-- One call of the owner, or a step of the threads of one service. -/
inductive ServerStep
  /-- The new serving thread is at `id`; `created` and `socket` are for its `Start`. -/
  | startAService (id : UInt64) (created : Bool) (socket : Option UInt64)
  | stopAService (id : UInt64)
  | broadcastTo (msg : Option (List UInt8)) (len : Int) (id : UInt64)
  | broadcast (msg : Option (List UInt8)) (len : Int)
  | service (i : Nat) (l : ServingStep)

/-- The steps of a serving thread's acceptor, alarm and event loop. -/
def ServingStep.isOwn : ServingStep → Bool
  | accept _ | acceptSSL _ _ | event => true
  | sendSelfEvent e => e.iType = XLServingThread.lifeBeat
  | start _ _ | stop | destroy => false

namespace XLServer

/-- A server as it is constructed. -/
def new : XLServer := { clientServices := [], objects := [], fault := false }

/-- The keys of `m_ClientServices`. -/
def keys (s : XLServer) : List UInt64 := s.clientServices.map Prod.fst

/-- `m_ClientServices.find`. -/
def find (s : XLServer) (id : UInt64) : Option (UInt64 × Nat) :=
  s.clientServices.find? fun r => r.1 = id

/-- `m_ClientServices.insert`. -/
def insert (s : XLServer) (id : UInt64) (i : Nat) : XLServer :=
  if (s.find id).isSome then s
  else
    { s with
      clientServices := s.clientServices.orderedInsert (fun a b => a.1 ≤ b.1) (id, i) }

/-- Object `i` exists and has not been deleted. -/
def isAlive (s : XLServer) (i : Nat) : Bool := s.objects[i]?.any fun o => !o.deleted

/-- Something is done with object `i`. -/
def use (s : XLServer) (i : Nat) (f : XLCService → XLCService) : XLServer :=
  if s.isAlive i then { s with objects := s.objects.modify i f } else { s with fault := true }

/-- `none` while `Take` has to wait. -/
def startAService (s : XLServer) (id : UInt64) (created : Bool) (socket : Option UInt64) :
    Option XLServer :=
  let i := s.objects.length
  let s := { s with objects := s.objects ++ [XLCService.new id] }
  let s := (s.insert id i).use i (.start created socket)
  (s.objects[i]?.bind fun o => o.gate.take).map fun gate =>
    s.use i fun o => { o with gate := gate }

/-- The entry stays in the map. -/
def stopAService (s : XLServer) (id : UInt64) : XLServer :=
  match s.find id with
  | some (_, i) => ((s.use i .stop).use i .delete).use i .giveGate
  | none => s

/-- `Broadcast(msg, len, id)`. -/
def broadcastTo (s : XLServer) (msg : Option (List UInt8)) (len : Int) (id : UInt64) : XLServer :=
  match s.find id with
  | some (_, i) => s.use i (.broadcast msg len)
  | none => s

/-- `Broadcast(msg, len)`. -/
def broadcast (s : XLServer) (msg : Option (List UInt8)) (len : Int) : XLServer :=
  s.clientServices.foldl (fun s r => s.use r.2 (.broadcast msg len)) s

/-- A new serving thread is at an address where there is none. -/
def isNew (s : XLServer) (id : UInt64) : Bool :=
  id ≠ 0 && s.objects.all fun o => o.deleted || o.id ≠ id

/-- One call of the server's owner; `none` where the id or the socket is none it could pass. -/
def next (s : XLServer) : ServerStep → Option XLServer
  | .startAService id created socket =>
      if s.isNew id && socket.all (XLServingThread.new true).isNew then
        s.startAService id created socket
      else none
  | .stopAService id => some (s.stopAService id)
  | .broadcastTo msg len id => some (s.broadcastTo msg len id)
  | .broadcast msg len => some (s.broadcast msg len)
  | .service i l =>
      match s.objects[i]? with
      | some o =>
          if !o.deleted && l.isOwn then
            (o.next l).map fun o => { s with objects := s.objects.set i o }
          else none
      | none => none

/-- `itr->second->GetGate().Take()`, of the destructor. -/
def takeGate (s : XLServer) (i : Nat) : Option XLServer :=
  if s.isAlive i then
    (s.objects[i]?.bind fun o => o.gate.take).map fun gate =>
      s.use i fun o => { o with gate := gate }
  else some { s with fault := true }

/-- The destructor up to its `Stop`; `none` while a `Take` has to wait.  `fault` is then what the
destructor has done, whatever happened before. -/
def destroy (s : XLServer) : Option XLServer :=
  s.clientServices.foldlM (fun s r => s.takeGate r.2) { s with fault := false }

end XLServer

end ServClient
