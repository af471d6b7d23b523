/-
`XLServingThread` with its acceptor thread, its clients and its queue of new sockets.

A `BASE_SOCKET_PTR` is the block its `m_pData` points to; the blocks are on one heap.  A
socket is its address, which no later socket gets again.  Wherever the source passes a raw
pointer for a `BASE_SOCKET_PTR` the conversion makes a block for it, temporaries
included, and that block is made here too.

A socket that has been deleted is no object to call: a `Send` on one writes nothing and sets
`fault`, and so does the `delete` of an address that no socket is at.  What the program does after
a fault is not defined; here it goes on without the call.

A step is one call: of the owner, of the thread that accepts connections, of the alarm,
or of the event loop.  The alarm itself, the ping setting and the mapping type do not
touch a socket and are left out.
-/
import ServClient.AutoPtr
import ServClient.EventThread
import Mathlib.Data.List.Sort

namespace ServClient

namespace PtrHeap

variable {T : Type}

/-- The destructor of an `XLSharedSmPtr`. -/
def drop (h : PtrHeap T) (p : Option Nat) : PtrHeap T := h.releaseData .delete p

/-- The destructors of several, in this order. -/
def dropAll (h : PtrHeap T) (ps : List (Option Nat)) : PtrHeap T := ps.foldl drop h

end PtrHeap

/-- The serving thread, with the blocks that own its sockets. -/
structure XLServingThread where
  /-- `mCreated`, of the thread and of its queue. -/
  created : Bool
  /-- `mExit`. -/
  exit : Bool
  /-- The queue of `XLEventQueue`. -/
  events : XLLFQ XLThreadEvent
  /-- The blocks of the sockets. -/
  heap : PtrHeap UInt64
  /-- `m_pSocket`. -/
  pSocket : Option Nat
  /-- `m_ClientIDs`, in the order of the set. -/
  clientIDs : List (Option Nat)
  incomingQueue : XLLFQ (Option Nat)
  /-- The `m_pSocket` of `m_AcceptorThread`, where there is one. -/
  acceptorThread : Option (Option Nat)
  /-- Whether `m_Listener` is set. -/
  listener : Bool
  /-- The calls of `Send`, with the socket and the bytes. -/
  sends : List (UInt64 × List UInt8)
  /-- A socket that is not there has been called or deleted. -/
  fault : Bool
  destroyed : Bool

namespace XLServingThread

/-- `START_THREAD`. -/
def startThread : Int := eventThreadEventTypeMax + 1
/-- `ACCEPT_INCOMING`. -/
def acceptIncoming : Int := startThread + 1
/-- `LIFE_BEAT`. -/
def lifeBeat : Int := acceptIncoming + 1
/-- `USR_MSG_BDCST`. -/
def usrMsgBdcst : Int := lifeBeat + 1
/-- `USR_MSG`. -/
def usrMsg : Int := usrMsgBdcst + 1

/-- The constructor, and `SetListener`.  `m_pSocket(0)` makes a block. -/
def new (listener : Bool) : XLServingThread where
  created := false
  exit := false
  events := XLLFQ.new
  heap := PtrHeap.empty.adopt none
  pSocket := some 0
  clientIDs := []
  incomingQueue := XLLFQ.new
  acceptorThread := none
  listener := listener
  sends := []
  fault := false
  destroyed := false

/-- The event of `Broadcast(msg, len)`. -/
def broadcastEvent (msg : Option (List UInt8)) (len : Int) : XLThreadEvent :=
  (XLThreadEvent.new.setData msg len).setType usrMsgBdcst

/-- The event of `Send(id, msg, len)`; what its two calls of `Write` return is not looked at. -/
def sendEvent (id : Int) (msg : Option (List UInt8)) (len : Int) : Option XLThreadEvent :=
  (XLThreadEvent.new.write 0 (Bytes.ofInt 4 id)).bind fun (e, _) =>
    (e.writeBlock 4 msg len).map fun (e, _) => e.setType usrMsg

/-- The event of `OnAccept`. -/
def acceptEvent : XLThreadEvent := XLThreadEvent.new.setType acceptIncoming

/-- The event of `Start`. -/
def startEvent : XLThreadEvent := XLThreadEvent.new.setType startThread

/-- The event of `OnAlarm`. -/
def alarmEvent : XLThreadEvent := XLThreadEvent.new.setType lifeBeat

/-- `XLEventQueue::Put`. -/
def put (t : XLServingThread) (e : XLThreadEvent) : XLServingThread :=
  if t.created then { t with events := (t.events.push e).1 } else t

/-- `Start`: whether `XLEventThread::Create` succeeds, and the socket the factory makes. -/
def start (t : XLServingThread) (created : Bool) (socket : Option UInt64) : XLServingThread :=
  if t.created then t
  else if created then
    let t := { t with
      created := true
      events := t.events.setMaxSize eventQueueConfigMaxSize }
    if (t.heap.getData t.pSocket).isNone then
      let heap := t.heap.drop t.pSocket
      { t with
        heap := heap.adopt socket
        pSocket := some heap.counters.length }.put (XLThreadEvent.new.setType startThread)
    else t
  else t

/-- `m_IncomingQueue.push`: the nodes it erases let go of their sockets. -/
def pushIncoming (t : XLServingThread) (p : Option Nat) : XLServingThread :=
  let heap := t.heap.dropAll (t.incomingQueue.nodes.take t.incomingQueue.head)
  let (q, pushed) := t.incomingQueue.push p
  { t with heap := if pushed then heap.share p else heap, incomingQueue := q }

/-- `OnAccept`, its parameter a handle with `m_pData = p`.  The listener takes the socket by
value and keeps nothing. -/
def onAccept (t : XLServingThread) (p : Option Nat) : XLServingThread :=
  let t := (t.pushIncoming p).put (XLThreadEvent.new.setType acceptIncoming)
  if t.listener then { t with heap := (t.heap.share p).drop p } else t

/-- `XLSocket::AcceptConnection`: the raw pointer becomes the parameter of `OnAccept`. -/
def acceptConnection (t : XLServingThread) (clientSock : UInt64) : XLServingThread :=
  let p := some t.heap.counters.length
  let t := { t with heap := t.heap.adopt (some clientSock) }.onAccept p
  { t with heap := t.heap.drop p }

/-- `XLSSLSocket::AcceptConnection`: a handle of its own, passed on if the peer is accepted. -/
def acceptSSLConnection (t : XLServingThread) (clientSock : UInt64) (accepted : Bool) :
    XLServingThread :=
  let p := some t.heap.counters.length
  let t := { t with heap := t.heap.adopt (some clientSock) }
  let t :=
    if accepted then
      let t := { t with heap := t.heap.share p }.onAccept p
      { t with heap := t.heap.drop p }
    else t
  { t with heap := t.heap.drop p }

/-- What `Send(s, e->WritableSize())` sends, with `s = e->ConvertIntoCharBuffer()`. -/
def frame (e : XLThreadEvent) : List UInt8 :=
  (e.convertIntoCharBuffer.getD []).take e.writableSize.toNat

/-- The socket behind a handle, if there still is one. -/
def socketAt (h : PtrHeap UInt64) (p : Option Nat) : Option UInt64 :=
  (h.getData p).filter fun socket => h.timesDeleted socket = 0

/-- `Send` on each of these sockets. -/
def send (t : XLServingThread) (ps : List (Option Nat)) (e : XLThreadEvent) : XLServingThread :=
  { t with
    sends := t.sends ++ ps.filterMap fun p => (socketAt t.heap p).map (·, frame e)
    fault := t.fault || ps.any fun p => (socketAt t.heap p).isNone }

/-- The order of `m_ClientIDs`, null first. -/
def key (h : PtrHeap UInt64) (p : Option Nat) : UInt64 := (h.getData p).getD 0

/-- `m_ClientIDs.insert`. -/
def insert (t : XLServingThread) (p : Option Nat) : XLServingThread :=
  if t.clientIDs.any (fun c => t.heap.getData c = t.heap.getData p) then t
  else
    { t with
      heap := t.heap.share p
      clientIDs := t.clientIDs.orderedInsert (fun a b => key t.heap a ≤ key t.heap b) p }

/-- The pointer `Read(0, id)` gives, if it is not null. -/
def usrMsgID (e : XLThreadEvent) : Option UInt64 :=
  (e.read 0 8).bind fun bytes =>
    let id := UInt64.ofNat (Bytes.toNat bytes)
    if id = 0 then none else some id

/-- `t_OnEvent`. -/
def tOnEvent (t : XLServingThread) (e : XLThreadEvent) : XLServingThread :=
  if e.iType = startThread then
    match t.acceptorThread, t.heap.getData t.pSocket with
    | none, some socket =>
        -- `XLAcceptorThread` takes an `XLBaseSocket*`
        { t with
          heap := t.heap.adopt (some socket)
          acceptorThread := some (some t.heap.counters.length) }
    | _, _ => t
  else if e.iType = acceptIncoming then
    if (t.heap.getData t.pSocket).isSome then
      match t.incomingQueue.pop with
      | some (q, id) =>
          let t := { t with heap := t.heap.share id, incomingQueue := q }
          let t := if (t.heap.getData id).isSome then (t.insert id).send [id] e else t
          { t with heap := t.heap.drop id }
      | none => t
    else t
  else if e.iType = lifeBeat then
    if (t.heap.getData t.pSocket).isSome then t.send t.clientIDs e else t
  else if e.iType = usrMsgBdcst then t.send t.clientIDs e
  else if e.iType = usrMsg then
    match usrMsgID e with
    | some id =>
        -- the argument of `find` is a temporary `BASE_SOCKET_PTR`, which deletes what is at `id`
        let p := some t.heap.counters.length
        let itr := t.clientIDs.find? fun c => t.heap.getData c = some id
        let t := { t with
          heap := (t.heap.adopt (some id)).drop p
          fault := t.fault || !(some id ∈ t.heap.adopted && t.heap.timesDeleted id = 0) }
        t.send itr.toList e
    | none => t
  else t

/-- `XLEventThread::OnEvent`, which keeps `EXIT` for itself. -/
def onEvent (t : XLServingThread) (e : XLThreadEvent) : XLServingThread :=
  if e.iType = eventThreadEventTypeExit then { t with exit := true } else t.tOnEvent e

/-- The event the loop of `RunProgram` gets next; `none` where it waits or has ended. -/
def nextEvent (t : XLServingThread) : Option (XLLFQ XLThreadEvent × XLThreadEvent) :=
  if t.created && !t.exit then t.events.pop else none

/-- `Stop`.  Deleting the acceptor thread destroys its handle. -/
def stop (t : XLServingThread) : XLServingThread :=
  if t.created then
    let t :=
      match t.acceptorThread with
      | some p => { t with heap := t.heap.drop p, acceptorThread := none }
      | none => t
    t.put (XLThreadEvent.new.setType eventThreadEventTypeExit)
  else t

/-- The destructor: the members go, last first.  `m_AcceptorThread` is a raw pointer and stays. -/
def destroy (t : XLServingThread) : XLServingThread :=
  { t with
    heap := t.heap.dropAll (t.incomingQueue.nodes ++ t.clientIDs ++ [t.pSocket])
    incomingQueue := XLLFQ.new
    clientIDs := []
    pSocket := none
    created := false
    destroyed := true }

end XLServingThread

/-- One call. -/
inductive ServingStep
  | start (created : Bool) (socket : Option UInt64)
  /-- `SendSelfEvent`, called by `Send`, `Broadcast` and `OnAlarm`. -/
  | sendSelfEvent (e : XLThreadEvent)
  /-- The acceptor thread accepts a connection; `acceptSSL` over SSL. -/
  | accept (clientSock : UInt64)
  | acceptSSL (clientSock : UInt64) (accepted : Bool)
  /-- The event loop takes an event. -/
  | event
  | stop
  | destroy
deriving Repr

namespace XLServingThread

/-- A new socket is at an address that no block has been made for. -/
def isNew (t : XLServingThread) (socket : UInt64) : Bool :=
  socket ≠ 0 && some socket ∉ t.heap.adopted

/-- The acceptor thread runs, and what it has accepted is a new socket. -/
def accepts (t : XLServingThread) (clientSock : UInt64) : Bool :=
  t.acceptorThread.isSome && t.isNew clientSock

/-- One call; nothing more is done once the thread is destroyed. -/
def next (t : XLServingThread) (l : ServingStep) : Option XLServingThread :=
  if t.destroyed then none
  else
    match l with
    | .start created socket =>
        if socket.all t.isNew then some (t.start created socket) else none
    | .sendSelfEvent e => some (t.put e)
    | .accept clientSock =>
        if t.accepts clientSock then some (t.acceptConnection clientSock) else none
    | .acceptSSL clientSock accepted =>
        if t.accepts clientSock then some (t.acceptSSLConnection clientSock accepted) else none
    | .event => t.nextEvent.map fun r => { t with events := r.1 }.onEvent r.2
    | .stop => some t.stop
    | .destroy => some t.destroy

/-- Every handle there is, between two calls. -/
def held (t : XLServingThread) : List (Option Nat) :=
  t.pSocket :: (t.clientIDs ++ t.incomingQueue.nodes ++ t.acceptorThread.toList)

end XLServingThread

end ServClient
