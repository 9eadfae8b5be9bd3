import TaskPool.Machine.Begin

/-!
# Taking a turn

A frame on top of a stack takes its turn: it looks at the world and at the signal that reached it,
makes one indivisible change and says what comes next. A frame that has to wait takes no turn. The
rules of the frames are separate functions; `Frame.resume` only tells them apart.

A `waiting` frame is the loop of `wait_with` or `try_wait_with` of `TaskSetBase`, a `closing` frame
is the drop of `ThreadPool`, and a `worker` frame is `run_worker_loop` of `PoolShared`.
-/

namespace TaskPool

namespace Frame

/-- The end of a wait. Whether the barrier is clear is looked up before the pending failure is
delivered, and a failure is reported whether or not the barrier is clear. -/
def finishWaiting (b : BatchId) (goal : Goal) (w : World) : Turn :=
  let clear := (w.system.batch b).barrier.isClear
  match goal with
  | .close =>
    let (system, notices) := w.system.closeBatch b
    { Turn.reply { w with system } .nothing with events := Event.ofNotices notices }
  | .wait | .tryWait =>
    let (failure, system) := w.system.deliver b
    let reply : Reply := match failure, goal with
      | some failure, _ => .failed failure
      | none, .tryWait => .flag clear
      | none, _ => .finished
    { Turn.reply { w with system } reply with events := [.delivered b failure] }

/-- The loop of a wait. It ends when the barrier is clear or the budget is used up. Otherwise it
runs the next job; if there is none, a wait with a budget ends too, and a wait without one has to
wait for other threads. -/
def resumeWaiting (ctx : Context) (b : BatchId) (budget : Option Nat) (goal : Goal) (w : World) :
    Option Turn :=
  if (w.system.batch b).barrier.isClear ∨ budget = some 0 then
    some (finishWaiting b goal w)
  else
    match (w.system.sourceOf b).runNext ctx w, budget with
    | some turn, _ => some (turn.above [.waiting b (budget.map (· - 1)) goal])
    | none, some _ => some (finishWaiting b goal w)
    | none, none => none

/-- The most jobs that one sweep runs. -/
def maxSweep : Nat := 10000

/-- The loop of a sweep. The batch, if there is one, is shared for each job anew. -/
def resumeSweep (ctx : Context) (source : Source) (batch : Option BatchId) (count : Nat)
    (w : World) : Turn :=
  if batch.any w.isAwaited then
    Turn.reply w (.refused .busy)
  else if count < maxSweep then
    match source.runNext ctx (w.lend (batch.toList.map (⟨.batch ·, .share⟩))) with
    | some turn => turn.above [.sweep source batch (count + 1)]
    | none => Turn.reply w (.number count)
  else
    Turn.reply w (.number count)

/-- The closing of a pool: the workers stop first, then what is left runs here. -/
def resumeClosing (ctx : Context) (p : PoolId) (ran : Nat) (w : World) : Option Turn :=
  if 0 < (w.system.pool p).working then
    none
  else
    match (Source.pool p).runNext ctx w with
    | some turn => some (turn.above [.closing p ran])
    | none =>
      let (system, notices) := w.system.closePool p ran
      some { Turn.reply { w with system } .nothing with events := Event.ofNotices notices }

/-- The loop of a worker. It stops when the pool is closing, runs the next job if there is one, and
else falls asleep until there is one. -/
def resumeWorker (ctx : Context) (p : PoolId) (asleep : Bool) (w : World) : Option Turn :=
  let awake (w : World) : World :=
    if asleep then
      { w with system := w.system.modifyPool p fun pool => { pool with asleep := pool.asleep - 1 } }
    else w
  if (w.system.pool p).stage ≠ .live then
    let w := awake w
    some
      { world :=
          { w with
            system := w.system.modifyPool p fun pool => { pool with working := pool.working - 1 } }
        signal := .returned .nothing }
  else
    match (Source.pool p).runNext ctx (awake w) with
    | some turn => some (turn.above [.worker p false])
    | none =>
      if asleep then none
      else
        some
          { world :=
              { w with
                system :=
                  w.system.modifyPool p fun pool => { pool with asleep := pool.asleep + 1 } }
            push := [.worker p true] }

def holds (w : World) : Condition → Bool
  | .counted counter atLeast => atLeast ≤ w.count counter
  | .arrived gate arrivals => arrivals ≤ (w.gate gate).arrivals
  | .opened gate => (w.gate gate).isOpen

/-- A thread awaits a condition until it holds, or until the time for it is over. -/
def resumeAwait (condition : Condition) (deadline : Nat) (w : World) : Option Turn :=
  if holds w condition then some (Turn.reply w .nothing)
  else if deadline ≤ w.clock then some (Turn.reply w (.refused .timeout))
  else none

/-- The next object that the clean-up drops: batches before tokens before pools, and the least name
first. -/
def nextToDrop (w : World) : Option String :=
  w.names.leastName? (fun | .batch _ => true | _ => false) <|>
    w.names.leastName? (fun | .token _ => true | _ => false) <|>
    w.names.leastName? Object.isPool

/-- The clean-up drops the next object as soon as no operation holds it. Before a pool is dropped,
all gates are opened, even if the pool is still held: a job that waits at a gate may be what holds
it. -/
def resumeCleanup (ctx : Context) (w : World) : Option Turn :=
  match nextToDrop w with
  | none => some (Turn.reply w .nothing)
  | some name =>
    let next := w.names.find? name
    if next.any Object.isPool && w.hasClosedGate then
      some { world := w.openAllGates, push := [.cleanup] }
    else if next.any w.isBusy then
      none
    else
      some (((Op.drop (.given name)).perform ctx w true).above [.cleanup])

/-- The outcome of an operation leaves it: what it held is given back first, and then the outcome is
a reply or a panic. A panic is caught here if the operation says so. -/
def leaveCall (onFailure : OnFailure) (caught : Bool) (signal : Signal) (w : World) : Turn :=
  let raise (payload : Payload) : Turn :=
    { world := w
      signal := if caught then .returned (.panicked payload) else .raised payload }
  match signal with
  | .raised payload => raise payload
  | .proceed => Turn.reply w .nothing
  | .returned (.failed failure) =>
    match onFailure with
    | .report => Turn.reply w (.failed failure)
    | .rethrow => raise failure.payload
    | .raiseFailure => raise failure.toPayload
    | .raiseText => raise (.ownedText failure.describe)
  | .returned reply => Turn.reply w reply

def resumeBody (ctx : Context) (job : JobId) (label : String) (next : Nat) (rest : List Op)
    (onBatch : Option String) (w : World) (signal : Signal) : Turn :=
  match signal with
  | .proceed =>
    match rest with
    | [] => { Turn.reply w .nothing with events := [.ended job label] }
    | op :: rest => (op.perform ctx w false).above [.body job label next rest onBatch]
  | .returned reply =>
    { world := w
      events := [.replied job label next reply]
      push := [.body job label (next + 1) rest onBatch] }
  | .raised payload =>
    { world := w, events := [.unwound job label payload], signal := .raised payload }

def resumeProgram (ctx : Context) (rest : List Op) (w : World) (signal : Signal) : Turn :=
  match signal, rest with
  | .proceed, [] => { world := w }
  | .proceed, op :: rest =>
    (op.perform { ctx with topLevel := true } w true).above [.program rest]
  | .returned reply, rest =>
    { world := w, events := [.answered reply w.snapshot], push := [.program rest] }
  | .raised payload, rest =>
    { world := w, events := [.answered (.panicked payload) w.snapshot], push := [.program rest] }

/-- The script of another thread goes on with its next operation, or hands over its replies. -/
def resumeStrand (ctx : Context) (rest : List Op) (replies : List Reply) (w : World)
    (signal : Signal) : Turn :=
  match signal, rest with
  | .proceed, [] =>
    { world := { w with deliveries := w.deliveries ++ [(ctx.thread, replies)] } }
  | .proceed, op :: rest => (op.perform ctx w true).above [.strand rest replies]
  | .returned reply, rest => { world := w, push := [.strand rest (replies ++ [reply])] }
  | .raised payload, rest =>
    { world := w, push := [.strand rest (replies ++ [.panicked payload])] }

/-- The end of a job is reported to the batch that it is wrapped for. Its panic goes no further. -/
def resumeSettle (job : JobId) (b : BatchId) (w : World) (signal : Signal) : Turn :=
  let panicked := match signal with
    | .raised payload => some payload
    | _ => none
  let (system, notices) := w.system.settle b job panicked
  { Turn.reply { w with system } .nothing with events := Event.ofNotices notices }

/-- The panic of a job taken from a queue goes no further than the pool that was asked for it. -/
def resumeContain (job : JobId) (p : PoolId) (w : World) (signal : Signal) : Turn :=
  match signal with
  | .raised _ =>
    { Turn.reply w .nothing with
      events := [.logged (.jobPanicked job p (w.system.pool p).name)] }
  | _ => Turn.reply w .nothing

def collect (w : World) (threads : List ThreadId) : Option (List (List Reply)) :=
  threads.mapM fun thread => w.deliveries.lookup thread

/-- A thread that waits for others gets their replies when all of them are finished. -/
def resumeJoining (threads : List ThreadId) (w : World) : Option Turn :=
  (collect w threads).map fun replies =>
    Turn.reply
      { w with deliveries := w.deliveries.filter (!threads.contains ·.1) } (.replies replies)

/-- A batch gets its name back when the thread that waited for it is finished. -/
def resumeReclaim (name : String) (b : BatchId) (thread : ThreadId) (w : World) : Option Turn :=
  (w.deliveries.lookup thread).map fun replies =>
    Turn.reply
      ({ w with deliveries := w.deliveries.filter (·.1 ≠ thread) }.bind name (.batch b))
      (replies.headD .nothing)

/-- A frame takes its turn. Without an answer the thread is blocked. A panic passes every frame that
has no rule for it. -/
def resume (ctx : Context) (w : World) (signal : Signal) : Frame → Option Turn
  | program rest => some (resumeProgram ctx rest w signal)
  | cleanup => resumeCleanup ctx w
  | strand rest replies => some (resumeStrand ctx rest replies w signal)
  | handOver =>
    match signal with
    | .returned reply =>
      some { world := { w with deliveries := w.deliveries ++ [(ctx.thread, [reply])] } }
    | _ => some { world := w }
  | worker p asleep => resumeWorker ctx p asleep w
  | body job label next rest onBatch =>
    some (resumeBody ctx job label next rest onBatch w signal)
  | call loans onFailure caught =>
    some (leaveCall onFailure caught signal (w.giveBack loans))
  | settle job b => some (resumeSettle job b w signal)
  | contain job p => some (resumeContain job p w signal)
  | executed =>
    match signal with
    | .raised payload => some { world := w, signal := .raised payload }
    | _ => some (Turn.reply w (.flag true))
  | sweep source batch count =>
    let finished := batch.toList.map (⟨.batch ·, .share⟩)
    match signal with
    | .raised payload => some { world := w.giveBack finished, signal := .raised payload }
    | .returned _ => some (resumeSweep ctx source batch count (w.giveBack finished))
    | .proceed => some (resumeSweep ctx source batch count w)
  | waiting b budget goal =>
    match signal with
    | .raised payload => some { world := w, signal := .raised payload }
    | _ => resumeWaiting ctx b budget goal w
  | closing p ran =>
    match signal with
    | .raised payload => some { world := w, signal := .raised payload }
    | .returned _ => resumeClosing ctx p (ran + 1) w
    | .proceed => resumeClosing ctx p ran w
  | await condition deadline => resumeAwait condition deadline w
  | nap deadline => if deadline ≤ w.clock then some (Turn.reply w .nothing) else none
  | joining threads => resumeJoining threads w
  | reclaim name b thread => resumeReclaim name b thread w

end Frame

/-- The result of a turn: the world, the thread, what happened, and the threads that were started.
-/
structure Step where
  world : World
  thread : Thread
  events : List Event
  spawn : List Thread

/-- A thread takes a turn, unless it is finished or blocked. -/
def Thread.step (w : World) (thread : Thread) : Option Step :=
  match thread.frames with
  | [] => none
  | frame :: below =>
    let ctx : Context := { thread := thread.id, batches := Frame.batchNames thread.frames }
    (frame.resume ctx w thread.signal).map fun turn =>
      { world := turn.world
        thread := { thread with frames := turn.push ++ below, signal := turn.signal }
        events := turn.events
        spawn := turn.spawn }

/-- The instant at which a blocked thread can go on whatever the others do. -/
def Thread.wakesAt? (thread : Thread) : Option Nat :=
  match thread.frames with
  | .await _ deadline :: _ | .nap deadline :: _ => some deadline
  | _ => none

end TaskPool
