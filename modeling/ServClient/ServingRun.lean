/-
A started `XLServingThread` with its threads: the one that calls `Start`, the acceptor
thread in `OnAccept`, any threads that post events, and the event loop.

`ServClient/ServingThread.lean` has a call as one step.  Here the event thread is
`XLEventThread` with every step of its `Put` and `Get` calls, and `OnAccept` is three: the
push to `m_IncomingQueue`, the `Put` of the event, and what follows it.  The handler of an
event is one step, and so is each use of `m_IncomingQueue`.

The handlers and `m_pSocket`, `m_ClientIDs` and the rest are those of `XLServingThread`;
its `created`, `exit` and `events` are not used, since the event thread has its own.
`Stop` is not among the steps.
-/
import ServClient.ServingThread

namespace ServClient

namespace XLServingThread

/-- The assignment to `m_pSocket` in `Start`. -/
def setSocket (t : XLServingThread) (socket : Option UInt64) : XLServingThread :=
  let heap := t.heap.drop t.pSocket
  { t with heap := heap.adopt socket, pSocket := some heap.counters.length }

end XLServingThread

/-- Where the call of `Start` is. -/
inductive StartPc
  | fresh
  /-- In `XLEventThread::Create`. -/
  | creating
  /-- `m_pSocket` is set. -/
  | assigned
  /-- `START_THREAD` is posted, or will not be. -/
  | started
deriving DecidableEq, Repr

/-- Where the acceptor thread is.  `p` is the socket it has accepted. -/
inductive AcceptPc
  | idle
  /-- In `OnAccept`, past `m_IncomingQueue.push`. -/
  | pushed (p : Option Nat) (ssl : Bool)
  /-- In `Put` call `i`. -/
  | posting (p : Option Nat) (ssl : Bool) (i : Nat)
deriving DecidableEq, Repr

namespace AcceptPc

/-- The handles on the stack of the acceptor thread.  `XLSSLSocket` keeps one besides the
parameter of `OnAccept`. -/
def handles : AcceptPc → List (Option Nat)
  | idle => []
  | pushed p ssl | posting p ssl _ => if ssl then [p, p] else [p]

end AcceptPc

/-- The serving thread in its event thread, and where `Start` and the acceptor are. -/
structure ServingRun where
  thread : XLEventThread XLServingThread
  start : StartPc
  acceptor : AcceptPc
  /-- The sockets passed to `OnAccept`, in order. -/
  offered : List UInt64
  /-- The handles put into `m_ClientIDs`, each with the number of events handled before. -/
  registered : List (Option Nat × Nat)

/-- What can happen next in any of the threads. -/
inductive ServingRunStep
  /-- Some thread calls `Start`. -/
  | start
  /-- `XLEventThread::Create` goes on. -/
  | create
  /-- `m_pSocket` is assigned the socket from the factory. -/
  | assign (socket : UInt64)
  | postStart
  /-- `SendSelfEvent`, called by `Broadcast` and `OnAlarm`. -/
  | post (e : XLThreadEvent)
  /-- `OnAccept` up to the push, from `XLSocket` or `XLSSLSocket`. -/
  | accept (clientSock : UInt64) (ssl : Bool)
  /-- A peer `XLSSLSocket` does not accept. -/
  | reject (clientSock : UInt64)
  | postAccept
  /-- `Put` has returned; the rest of `OnAccept`, and of `AcceptConnection`. -/
  | acceptDone
  | loop
  | queue (l : QueueStep XLThreadEvent)

namespace ServingRun

open XLServingThread (tOnEvent)

/-- A serving thread nobody has started. -/
def new (listener : Bool) : ServingRun where
  thread := XLEventThread.new (XLServingThread.new listener)
  start := .fresh
  acceptor := .idle
  offered := []
  registered := []

/-- The serving thread less its event thread. -/
def serving (s : ServingRun) : XLServingThread := s.thread.self

/-- The fields of `XLServingThread` are written. -/
def setServing (s : ServingRun) (t : XLServingThread) : ServingRun :=
  { s with thread := { s.thread with self := t } }

/-- Some thread calls `Put(&e)`. -/
def put (s : ServingRun) (e : XLThreadEvent) : ServingRun :=
  { s with thread := { s.thread with queue := s.thread.queue.callPut e } }

/-- `OnAccept` up to the push. -/
def accept (s : ServingRun) (clientSock : UInt64) (ssl : Bool) : ServingRun :=
  let p := some s.serving.heap.counters.length
  let heap := s.serving.heap.adopt (some clientSock)
  let t := { s.serving with heap := if ssl then heap.share p else heap }.pushIncoming p
  { s.setServing t with acceptor := .pushed p ssl, offered := s.offered ++ [clientSock] }

/-- The rest of `OnAccept`: the listener's copy, then the acceptor's own handles. -/
def acceptDone (s : ServingRun) : ServingRun :=
  let t := s.serving
  let heap :=
    match s.acceptor with
    | .posting p _ _ => if t.listener then (t.heap.share p).drop p else t.heap
    | _ => t.heap
  { s.setServing { t with heap := heap.dropAll s.acceptor.handles } with acceptor := .idle }

/-- What the loop has put into `m_ClientIDs` by this step. -/
def newClients (t t' : XLServingThread) : List (Option Nat) :=
  t'.clientIDs.filter fun p => p ∉ t.clientIDs

/-- `posts` are the types of the events other threads post. -/
def next (posts : Int → Bool) (s : ServingRun) : ServingRunStep → Option ServingRun
  | .start =>
      if s.start = .fresh then
        (s.thread.next tOnEvent .create).map fun thread =>
          { s with thread := thread, start := .creating }
      else none
  | .create =>
      if s.start = .creating then
        (s.thread.next tOnEvent .owner).map fun thread => { s with thread := thread }
      else none
  | .assign socket =>
      if s.start = .creating ∧ s.thread.owner = .idle ∧ s.thread.created = true ∧
          s.serving.isNew socket = true then
        if (s.serving.heap.getData s.serving.pSocket).isNone then
          some { s.setServing (s.serving.setSocket (some socket)) with start := .assigned }
        else some { s with start := .started }
      else none
  | .postStart =>
      if s.start = .assigned then
        some { s.put XLServingThread.startEvent with start := .started }
      else none
  | .post e => if posts e.iType then some (s.put e) else none
  | .accept clientSock ssl =>
      if s.acceptor = .idle ∧ s.serving.accepts clientSock = true then
        some (s.accept clientSock ssl)
      else none
  | .reject clientSock =>
      if s.acceptor = .idle ∧ s.serving.accepts clientSock = true then
        let p := some s.serving.heap.counters.length
        some (s.setServing
          { s.serving with heap := (s.serving.heap.adopt (some clientSock)).drop p })
      else none
  | .postAccept =>
      match s.acceptor with
      | .pushed p ssl =>
          some { s.put XLServingThread.acceptEvent with
            acceptor := .posting p ssl s.thread.queue.puts.length }
      | _ => none
  | .acceptDone =>
      match s.acceptor with
      | .posting _ _ i =>
          match s.thread.queue.puts[i]? with
          | some ⟨_, .returned _⟩ => some s.acceptDone
          | _ => none
      | _ => none
  | .loop =>
      (s.thread.next tOnEvent .loop).map fun thread =>
        { s with
          thread := thread
          registered := s.registered ++
            (newClients s.serving thread.self).map fun p => (p, s.thread.dispatched.length) }
  | .queue l =>
      if l.inside then
        (s.thread.next tOnEvent (.queue l)).map fun thread => { s with thread := thread }
      else none

end ServingRun

end ServClient
