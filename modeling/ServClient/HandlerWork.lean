/-
A handler and its queue, which nobody else posts to: the work that is in a queue of messages.

A step takes the next event from the queue and handles it, and there is no step where `Get` would
wait.  What `t_OnEvent` posts goes to the end of the queue, if there is room.  `next` gives every
event to `t_OnEvent`; `loopNext` is `RunProgram`, which looks at `mExit` and at the type first.
-/
import ServClient.ServerClientHandler
import ServClient.Proofs.LockFreeQueue

namespace ServClient

/-- A handler with its queue, which never has more than it has room for. -/
structure HandlerWork where
  handler : XLServerClientHandler
  queue : XLLFQ XLThreadEvent
  fits : queue.pending.length ≤ queue.maxSize
  exit : Bool

namespace HandlerWork

/-- The queue is empty. -/
def new (handler : XLServerClientHandler) : HandlerWork where
  handler := handler
  queue := XLLFQ.new.setMaxSize eventQueueConfigMaxSize
  fits := by decide
  exit := false

/-- `Put`, whose result nobody looks at. -/
def put (w : HandlerWork) (e : XLThreadEvent) : HandlerWork :=
  { w with queue := (w.queue.push e).1, fits := XLLFQ.push_fits w.fits e }

/-- `t_OnEvent`. -/
def handle (w : HandlerWork) (e : XLThreadEvent) : HandlerWork :=
  match w.handler.tOnEventFront e with
  | (handler, none) => { w with handler := handler }
  | (handler, some post) =>
      { { w with handler := handler }.put post with handler := handler.tOnEventBack e.iType }

/-- `Get`, where it need not wait. -/
def get (w : HandlerWork) : Option (HandlerWork × XLThreadEvent) :=
  match h : w.queue.pop with
  | none => none
  | some (queue, e) => some ({ w with queue := queue, fits := XLLFQ.pop_fits h w.fits }, e)

/-- An event is taken from the queue, and `t_OnEvent` is called with it. -/
def next (w : HandlerWork) (_ : Unit) : Option HandlerWork := do
  let (w, e) ← w.get
  some (w.handle e)

/-- The body of the loop in `RunProgram`. -/
def loopNext (w : HandlerWork) (_ : Unit) : Option HandlerWork := do
  if w.exit then none
  else
    let (w, e) ← w.get
    if e.iType = eventThreadEventTypeExit then some { w with exit := true }
    else some (w.handle e)

end HandlerWork

end ServClient
