import TaskPool.Machine.Launch

/-!
# Beginning an operation

To begin an operation is to make its checks in their order and then its first indivisible change. An
operation that passes its checks holds what it uses until it returns.
-/

namespace TaskPool

/-- An operation that passed its checks: its first turn, what it holds from before that turn until
it returns, and what becomes of a failure that it delivers. -/
structure Begun extends Turn where
  loans : List Loan := []
  onFailure : OnFailure := .report

def Begun.reply (w : World) (reply : Reply) : Begun := { Turn.reply w reply with }

/-- The threads of the workers of a pool. -/
def PoolId.crew (p : PoolId) (workers : List Nat) : List Thread :=
  workers.map fun index => { id := .worker p index, frames := [.worker p false] }

namespace Begun

/-- Starts a pool. The host says how many workers a script may ask for, and which of them get a
thread. -/
def startPool (ctx : Context) (w : World) (id : Arg String) (threads : Arg Nat)
    (name : Arg String) (multiplier idleMs : Arg Nat) : Except Refusal Begun := do
  let id ← id.require
  w.checkFresh ctx.thread id
  let workers ← threads.orDefault 0
  Refusal.unless (workers ≤ w.host.maxThreads) .badOp
  let name ← name.orDefault id
  let standard := PoolConfig.standard w.host.cores
  let multiplier ← multiplier.orDefault standard.multiplier
  let idleMs ← idleMs.orDefault standard.idleMs
  let config : PoolConfig := { name, workers, multiplier, idleMs }
  let (p, system, notices) := w.system.startPool w.reasons config
  let crew := p.crew (config.started w.reasons)
  let w := { w with system }.bind id (.pool p)
  .ok
    { Begun.reply w (w.poolState p) with
      events := Event.ofNotices notices
      spawn := crew }

/-- The pool that the whole process shares, started when it is asked for first. It outlives the
script, which may as well find it running: nothing is logged of its start, and all of its workers
run. -/
def commonPool (w : World) : PoolId × World × List Thread :=
  match w.common with
  | some p => (p, w, [])
  | none =>
    let config := { PoolConfig.standard w.host.cores with name := "taskset-global" }
    let reasons : Nat → Option String := fun _ => none
    let (p, system, _) := w.system.startPool reasons config
    (p, { w with system, common := some p }, p.crew (config.started reasons))

def nameCommonPool (ctx : Context) (w : World) (id : Arg String) : Except Refusal Begun := do
  let id ← id.require
  w.checkFresh ctx.thread id
  let (p, w, spawn) := commonPool w
  let (again, _, _) := commonPool w
  let w := w.bind id (.commonPool p)
  let pool := w.system.pool p
  .ok { Begun.reply w (.commonPool pool.name (0 < pool.workers) (again = p)) with spawn }

def issueToken (ctx : Context) (w : World) (id pool : Arg String) : Except Refusal Begun := do
  let id ← id.require
  w.checkFresh ctx.thread id
  let p ← w.resolvePool ctx.thread (← pool.require)
  let (t, system, notices) := w.system.issueToken p
  .ok
    { Begun.reply ({ w with system }.bind id (.token t)) .nothing with
      events := Event.ofNotices notices }

def makeBatch (ctx : Context) (w : World) (id pool : Arg String) (multiplier : Arg Nat)
    (single : Arg Bool) : Except Refusal Begun := do
  let id ← id.require
  w.checkFresh ctx.thread id
  let p ← w.resolvePool ctx.thread (← pool.require)
  let multiplier ← multiplier.orDefault Batch.standardMultiplier
  let single ← single.require
  let (b, system, notices) := w.system.makeBatch p single multiplier
  let w := { w with system }.bind id (.batch b)
  .ok { Begun.reply w (w.batchState b) with events := Event.ofNotices notices }

/-- Drops an object. It is gone by name before its closing starts. -/
def drop (ctx : Context) (w : World) (id : Arg String) : Except Refusal Begun := do
  let id ← id.require
  Refusal.unless (ctx.thread == .driver) .wrongThread
  Refusal.unless (!ctx.batches.contains id) .wouldDeadlock
  let object ← w.resolve ctx.thread id
  Refusal.unless (!w.isBusy object) .busy
  let w := w.unbind id
  match object with
  | .commonPool _ => .ok (Begun.reply w .nothing)
  | .token t =>
    let (system, notices) := w.system.releaseToken t
    .ok { Begun.reply { w with system } .nothing with events := Event.ofNotices notices }
  | .batch b =>
    .ok
      { world := { w with system := w.system.beginClosingBatch b }
        push := [.waiting b none .close] }
  | .pool p =>
    let (system, notices) := w.system.beginClosingPool p
    .ok
      { world := { w with system }
        events := Event.ofNotices notices
        push := [.closing p 0] }

/-- The entry point that an operation means, by the kinds of the objects that it names. -/
def entryPoint (w : World) (on : Object) (via : Via) (token : Option Object) :
    Except Refusal Entry :=
  match on, token, via with
  | .pool p, none, .plain | .commonPool p, none, .plain => .ok (.pool p false)
  | .pool p, none, .forced | .commonPool p, none, .forced => .ok (.pool p true)
  | .pool p, some (.token t), .plain | .commonPool p, some (.token t), .plain =>
    .ok (.token p t false)
  | .pool p, some (.token t), .forced | .commonPool p, some (.token t), .forced =>
    .ok (.token p t true)
  | .batch b, none, .plain => .ok (.batch b .checked)
  | .batch b, none, .forced => .ok (.batch b .forced)
  | .batch b, none, .skip =>
    match (w.system.batch b).kind with
    | .multi => .ok (.batch b .ownCheck)
    | .single _ => .error .unsupported
  | _, _, _ => .error .unsupported

def taskBody (w : World) : TaskSource Op → Except Refusal (String × List Op)
  | .own label body => .ok (label, body)
  | .named name =>
    match w.bodies.find? name with
    | some body => .ok (name, body)
    | none => .error .noSuchTask

def resolveOptional (ctx : Context) (w : World) : Option String → Except Refusal (Option Object)
  | none => .ok none
  | some name => some <$> w.resolve ctx.thread name

/-- What an operation holds that names an object and perhaps a token. -/
def held (on : Object) (token : Option Object) (hold : Hold) : List Loan :=
  match on with
  | .batch _ => [⟨on, hold⟩]
  | _ => ⟨on, .use⟩ :: token.toList.map (⟨·, .use⟩)

/-- Refuses to share a batch that somebody waits for. -/
def checkShared (w : World) : Object → Except Refusal Unit
  | .batch b => Refusal.unless (!w.isAwaited b) .busy
  | _ => .ok ()

/-- Submits a task. If it is not queued it runs before the operation returns. -/
def schedule (ctx : Context) (w : World) (on : Arg String) (task : Arg (TaskSource Op))
    (via : Arg Via) (token : Arg String) : Except Refusal Begun := do
  let name ← on.require
  let (label, body) ← taskBody w (← task.require)
  let via ← via.orDefault .plain
  let token ← token.optional
  let on ← w.resolve ctx.thread name
  let token ← resolveOptional ctx w token
  let entry ← entryPoint w on via token
  checkShared w on
  let onBatch := match on with
    | .batch _ => some name
    | _ => none
  let submission := w.system.submit entry (.body label body onBatch)
  let w := { w with system := submission.system }
  let turn : Turn :=
    if submission.route.runsNow then submission.job.launch ctx w else Turn.reply w .nothing
  let events := Event.ofNotices submission.notices ++
    [.submitted submission.job.id submission.job.batch submission.route]
  .ok { turn.after events with loans := held on token .share }

/-- Where an operation looks for a job, by the kinds of the objects that it names. -/
def sourceOf (w : World) (on : Object) (token : Option Object) : Except Refusal Source :=
  match on, token with
  | .pool p, none | .commonPool p, none => .ok (.pool p)
  | .pool p, some (.token t) | .commonPool p, some (.token t) => .ok (.lane p t)
  | .batch b, none => .ok (w.system.sourceOf b)
  | _, _ => .error .unsupported

def exec (ctx : Context) (w : World) (on token : Arg String) : Except Refusal Begun := do
  let name ← on.require
  let token ← token.optional
  let on ← w.resolve ctx.thread name
  let token ← resolveOptional ctx w token
  let source ← sourceOf w on token
  checkShared w on
  let loans := held on token .share
  match source.runNext ctx w with
  | some turn => .ok { turn.above [.executed] with loans }
  | none => .ok { Begun.reply w (.flag false) with loans }

def execAll (ctx : Context) (w : World) (on token : Arg String) : Except Refusal Begun := do
  let name ← on.require
  let token ← token.optional
  let on ← w.resolve ctx.thread name
  let token ← resolveOptional ctx w token
  let source ← sourceOf w on token
  let batch := match on with
    | .batch b => some b
    | _ => none
  .ok { world := w, push := [.sweep source batch 0], loans := held on token .use }

def asBatch : Object → Except Refusal BatchId
  | .batch b => .ok b
  | _ => .error .unsupported

/-- Waits until all tasks of a batch are finished. A batch with a single producer may be moved to a
thread of its own for the wait; until it comes back it has no name. That a task does not wait for
the batch it belongs to is a rule of scripts: a batch itself does not look who waits for it, and
such a wait would never return. -/
def wait (ctx : Context) (w : World) (on : Arg String) (onFailure : OnFailure)
    (elsewhere : Bool) : Except Refusal Begun := do
  let name ← on.require
  let on ← w.resolve ctx.thread name
  Refusal.unless (!ctx.batches.contains name) .wouldDeadlock
  let b ← asBatch on
  let moves := elsewhere && w.isLocal on
  Refusal.unless (ctx.topLevel || !moves) .unsupported
  Refusal.unless (!w.inUse on) .busy
  if moves then
    let helper : ThreadId := .spawned w.spawned
    .ok
      { world := { w.unbind name with spawned := w.spawned + 1 }
        push := [.reclaim name b helper]
        spawn := [{ id := helper, frames := [.waiting b none .wait, .handOver] }]
        onFailure }
  else
    .ok { world := w, push := [.waiting b none .wait], loans := [⟨on, .exclude⟩], onFailure }

/-- Runs jobs until the barrier of a batch is clear or a number of jobs is reached. -/
def tryWait (ctx : Context) (w : World) (on : Arg String) (max : Arg Nat)
    (onFailure : OnFailure) : Except Refusal Begun := do
  let max ← max.require
  let name ← on.require
  let on ← w.resolve ctx.thread name
  let b ← asBatch on
  Refusal.unless (!w.inUse on) .busy
  .ok { world := w, push := [.waiting b (some max) .tryWait], loans := [⟨on, .exclude⟩], onFailure }

def stat (ctx : Context) (w : World) (on : Arg String) : Except Refusal Begun := do
  let name ← on.require
  match ← w.resolve ctx.thread name with
  | .pool p => .ok (Begun.reply w (w.poolState p))
  | .commonPool p => .ok (Begun.reply w (.commonPoolState (w.system.pool p).name))
  | .token _ => .error .unsupported
  | .batch b => do
    Refusal.unless (!w.isAwaited b) .busy
    .ok (Begun.reply w (w.batchState b))

/-- Occupies workers of a pool: each of them runs a job that waits at the gate. The operation
returns when the gate has had that many arrivals in all, so it does not wait for its own jobs if
others came to the gate before. -/
def hold (ctx : Context) (w : World) (on gate : Arg String) (workers : Arg Nat) :
    Except Refusal Begun := do
  let name ← on.require
  let p ← w.resolvePool ctx.thread name
  let gate ← gate.require
  let workers ← workers.orDefault 1
  Refusal.unless (workers ≤ (w.system.pool p).workers) .badOp
  let (system, events) := (List.range workers).foldl
    (fun (system, events) _ =>
      let submission := system.submit (.pool p true) (.park gate)
      (submission.system,
        events ++ [.submitted submission.job.id submission.job.batch submission.route]))
    (w.system, ([] : List Event))
  .ok
    { Turn.await { w with system } (.arrived gate workers) with
      events
      loans := [⟨.pool p, .use⟩] }

/-- Runs several scripts, each on a thread of its own, and waits for all of them. -/
def producers (ctx : Context) (w : World) (threads : Arg (List (List Op))) :
    Except Refusal Begun := do
  Refusal.unless ctx.topLevel .badOp
  let scripts ← threads.require
  Refusal.unless (scripts.length ≤ w.host.maxThreads) .badOp
  let strands := scripts.mapIdx fun i ops =>
    ({ id := .spawned (w.spawned + i), frames := [.strand ops []] } : Thread)
  .ok
    { world := { w with spawned := w.spawned + scripts.length }
      push := [.joining (strands.map (·.id))]
      spawn := strands }

def ofOp (ctx : Context) (w : World) : Op → Except Refusal Begun
  | .malformed | .catching _ => .error .badOp
  | .defaults =>
    let config := PoolConfig.standard w.host.cores
    .ok (Begun.reply w (.defaults config.name config.multiplier config.idleMs (1 ≤ config.workers)
      Batch.standardMultiplier))
  | .pool id threads name multiplier idleMs =>
    Begun.startPool ctx w id threads name multiplier idleMs
  | .commonPool id => Begun.nameCommonPool ctx w id
  | .token id pool => Begun.issueToken ctx w id pool
  | .batch id pool multiplier single => Begun.makeBatch ctx w id pool multiplier single
  | .drop id => Begun.drop ctx w id
  | .schedule on task via token => Begun.schedule ctx w on task via token
  | .exec on token => Begun.exec ctx w on token
  | .execAll on token => Begun.execAll ctx w on token
  | .wait on onFailure elsewhere => Begun.wait ctx w on onFailure elsewhere
  | .tryWait on max onFailure => Begun.tryWait ctx w on max onFailure
  | .stat on => Begun.stat ctx w on
  | .panic payload => do
    let payload ← payload.require
    .ok { world := w, signal := .raised payload }
  | .note value => .ok (Begun.reply w (.value value))
  | .thread => .ok (Begun.reply w (.text (w.threadName ctx.thread)))
  | .sleep ms => do
    let ms ← ms.require
    .ok { Turn.sleep w ms with }
  | .add counter amount => do
    let counter ← counter.require
    let amount ← amount.orDefault 1
    .ok (Begun.reply (w.add counter amount) .nothing)
  | .count counter => do
    let counter ← counter.require
    .ok (Begun.reply w (.number (w.count counter)))
  | .awaitCount counter atLeast => do
    let counter ← counter.require
    let atLeast ← atLeast.orDefault 1
    .ok { Turn.await w (.counted counter atLeast) with }
  | .openGate gate => do
    let gate ← gate.require
    .ok (Begun.reply (w.openGate gate) .nothing)
  | .block gate => do
    let gate ← gate.require
    .ok { Turn.block ctx w gate with }
  | .awaitArrived gate arrivals => do
    let gate ← gate.require
    let arrivals ← arrivals.orDefault 1
    .ok { Turn.await w (.arrived gate arrivals) with }
  | .hold on gate workers => Begun.hold ctx w on gate workers
  | .producers threads => Begun.producers ctx w threads

end Begun

/-- Begins an operation on a stack. A refusal is a reply like any other; otherwise the operation
stays on the stack, with what it holds, until it returns. -/
def Op.perform (ctx : Context) (w : World) (catchAll : Bool) (op : Op) : Turn :=
  let (caught, op) := op.uncaught
  match Begun.ofOp ctx w op with
  | .error reason => Turn.reply w (.refused reason)
  | .ok begun =>
    { begun.toTurn.above [.call begun.loans begun.onFailure (caught || catchAll)] with
      world := begun.world.lend begun.loans }

end TaskPool
