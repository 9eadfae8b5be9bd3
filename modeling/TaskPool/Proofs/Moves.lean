import TaskPool.Proofs.SoloRuns

/-!
# What a turn can do

`Scene.Moves` lists every change that one turn of a solo run can make, together with the guards
under which it is made. Every invariant is proved by cases on it, and no proof about runs opens the
rules of the frames again.

Most turns begin an operation. What an operation does when it begins is an `Opening`, and
`Scene.Opens` lists the openings.
-/

namespace TaskPool

/-- What an operation does when it begins, besides staying on the stack until it returns. -/
structure Opening where
  system : System Work
  names : Table Object
  loans : List Loan := []
  push : List Frame := []
  signal : Signal := .proceed
  events : List Event := []

namespace Scene

def Named (σ : Scene) (object : Object) : Prop := ∃ name, σ.names.find? name = some object

/-- Whether an operation may hold what it wants to hold: only what has a name, no batch for itself
alone, and no share in a batch that somebody waits for. -/
def Lends (σ : Scene) (loans : List Loan) : Prop :=
  ∀ loan ∈ loans, σ.Named loan.object ∧ loan.hold ≠ .exclude ∧
    (loan.hold = .share → ⟨loan.object, .exclude⟩ ∉ σ.loans)

def Free (σ : Scene) (object : Object) : Prop := ∀ loan ∈ σ.loans, loan.object ≠ object

/-- The loans that are left when a sweep has its batch back. -/
def freed (σ : Scene) (batch : Option BatchId) : List Loan :=
  match σ.signal with
  | .proceed => σ.loans
  | _ => (Frame.shares batch).foldl List.erase σ.loans

def WaitIsOver (σ : Scene) (b : BatchId) (budget : Option Nat) : Prop :=
  (σ.system.batch b).barrier.isClear = true ∨ budget = some 0 ∨
    (budget ≠ none ∧ σ.system.take (σ.system.sourceOf b) = none)

inductive Opens (σ : Scene) : Opening → Prop where
  /-- Pools, tokens, batches and names stay as they are, and no job starts. -/
  | rests {loans signal} (lent : σ.Lends loans) (outcome : signal.isOutcome) :
      Opens σ { system := σ.system, names := σ.names, loans, signal }
  /-- An operation waits for something outside of pools. -/
  | pauses {loans pause} (lent : σ.Lends loans) (kind : pause.isPause) :
      Opens σ { system := σ.system, names := σ.names, loans, push := [pause] }
  | waits {name b} (named : σ.names.find? name = some (.batch b)) (free : σ.Free (.batch b))
      (apart : name ∉ Frame.batchNames σ.frames) :
      Opens σ
        { system := σ.system, names := σ.names, loans := [⟨.batch b, .exclude⟩],
          push := [.waiting b none .wait] }
  | triesToWait {name b max} (named : σ.names.find? name = some (.batch b))
      (free : σ.Free (.batch b)) :
      Opens σ
        { system := σ.system, names := σ.names, loans := [⟨.batch b, .exclude⟩],
          push := [.waiting b (some max) .tryWait] }
  | startsPool {name reasons config reply} (unknown : σ.names.find? name = none)
      (alone : config.started reasons = []) :
      Opens σ
        { system := (σ.system.startPool reasons config).2.1,
          names := σ.names.put name (.pool (σ.system.startPool reasons config).1),
          signal := .returned reply,
          events := Event.ofNotices (σ.system.startPool reasons config).2.2 }
  | issuesToken {name p reply} (unknown : σ.names.find? name = none)
      (named : σ.Named (.pool p)) :
      Opens σ
        { system := (σ.system.issueToken p).2.1,
          names := σ.names.put name (.token (σ.system.issueToken p).1),
          signal := .returned reply,
          events := Event.ofNotices (σ.system.issueToken p).2.2 }
  | makesBatch {name p single multiplier reply} (unknown : σ.names.find? name = none)
      (named : σ.Named (.pool p)) :
      Opens σ
        { system := (σ.system.makeBatch p single multiplier).2.1,
          names := σ.names.put name (.batch (σ.system.makeBatch p single multiplier).1),
          signal := .returned reply,
          events := Event.ofNotices (σ.system.makeBatch p single multiplier).2.2 }
  | dropsToken {name t reply} (named : σ.names.find? name = some (.token t))
      (free : σ.Free (.token t)) :
      Opens σ
        { system := (σ.system.releaseToken t).1, names := σ.names.remove name,
          signal := .returned reply, events := Event.ofNotices (σ.system.releaseToken t).2 }
  | dropsBatch {name b} (named : σ.names.find? name = some (.batch b)) (free : σ.Free (.batch b))
      (apart : name ∉ Frame.batchNames σ.frames) :
      Opens σ
        { system := σ.system.beginClosingBatch b, names := σ.names.remove name,
          push := [.waiting b none .close] }
  | dropsPool {name p} (named : σ.names.find? name = some (.pool p)) (free : σ.Free (.pool p))
      (independent : σ.system.dependsOnPool p = false) :
      Opens σ
        { system := (σ.system.beginClosingPool p).1, names := σ.names.remove name,
          push := [.closing p 0],
          events := Event.ofNotices (σ.system.beginClosingPool p).2 }
  | queues {entry : Entry} {work reply} {task : Task} {made : Submission Work}
      (lent : σ.Lends (entry.target.loans .share)) (submits : σ.system.submit entry work = made)
      (job : made.job = task.job) (later : made.route.runsNow = false) :
      Opens σ
        { system := made.system, names := σ.names, loans := entry.target.loans .share,
          signal := .returned reply,
          events := Event.ofNotices made.notices ++ [.submitted task.id task.batch made.route] }
  | runsInline {entry : Entry} {work} {task : Task} {made : Submission Work}
      (lent : σ.Lends (entry.target.loans .share)) (submits : σ.system.submit entry work = made)
      (job : made.job = task.job) (now : made.route.runsNow = true) :
      Opens σ
        { system := made.system, names := σ.names, loans := entry.target.loans .share,
          push := task.frames,
          events := Event.ofNotices made.notices ++
            [.submitted task.id task.batch made.route, task.started] }
  | executes {target : Target} {task : Task} {system} (lent : σ.Lends (target.loans .share))
      (taken : σ.system.take (target.source σ.system) = some (task.job, system)) :
      Opens σ
        { system, names := σ.names, loans := target.loans .share,
          push := task.frames ++
            [.contain task.id (target.source σ.system).receiver, .executed],
          events := [task.started] }
  | sweeps {target : Target} (lent : σ.Lends (target.loans .use)) :
      Opens σ
        { system := σ.system, names := σ.names, loans := target.loans .use,
          push := [.sweep (target.source σ.system) target.batch? 0] }

/-- The changes that one turn can make. -/
inductive Moves (σ : Scene) : Scene → Prop where
  /-- A script goes on without beginning an operation: it takes note of a reply, or is refused. -/
  | advances {frame frame' below signal events} (top : σ.frames = frame :: below)
      (on : frame.Continues frame') (quiet : ∀ event ∈ events, event.isScript) :
      Moves σ { σ with frames := frame' :: below, signal, history := σ.history ++ events }
  | opens {frame frame' below opening onFailure caught} (top : σ.frames = frame :: below)
      (on : frame.Continues frame') (opens : σ.Opens opening) :
      Moves σ
        { system := opening.system, names := opening.names,
          loans := opening.loans ++ σ.loans,
          frames := opening.push ++ .call opening.loans onFailure caught :: frame' :: below,
          signal := opening.signal, history := σ.history ++ opening.events }
  | leaves {loans onFailure caught below signal}
      (top : σ.frames = .call loans onFailure caught :: below) (outcome : signal.isOutcome) :
      Moves σ { σ with loans := loans.foldl List.erase σ.loans, frames := below, signal }
  /-- A frame that did its work goes away. -/
  | passes {frame below signal} (top : σ.frames = frame :: below)
      (kind : frame.isPause ∨ frame = .executed ∨ frame = .cleanup) (outcome : signal.isOutcome) :
      Moves σ { σ with frames := below, signal }
  | finishes {below} (top : σ.frames = .program [] :: below) :
      Moves σ { σ with frames := below, signal := .proceed }
  | ends {job label next onBatch below}
      (top : σ.frames = .body job label next [] onBatch :: below) :
      Moves σ
        { σ with
          frames := below, signal := .returned .nothing,
          history := σ.history ++ [.ended job label] }
  | unwinds {job label next rest onBatch below payload}
      (top : σ.frames = .body job label next rest onBatch :: below)
      (raised : σ.signal = .raised payload) :
      Moves σ
        { σ with frames := below, history := σ.history ++ [.unwound job label payload] }
  | settles {job b below} (top : σ.frames = .settle job b :: below) :
      Moves σ
        { σ with
          system := (σ.system.settle b job σ.signal.panic?).1,
          frames := below, signal := .returned .nothing,
          history := σ.history ++
            Event.ofNotices (σ.system.settle b job σ.signal.panic?).2 }
  | contains {job p below} (top : σ.frames = .contain job p :: below) :
      Moves σ
        { σ with
          frames := below, signal := .returned .nothing,
          history := σ.history ++ σ.signal.panic?.toList.map fun _ =>
            .logged (.jobPanicked job p (σ.system.pool p).name) }
  | sweeps {source batch count count' below system} {task : Task}
      (top : σ.frames = .sweep source batch count :: below)
      (open' : ∀ b, batch = some b → ⟨.batch b, .exclude⟩ ∉ σ.freed batch)
      (taken : σ.system.take source = some (task.job, system)) :
      Moves σ
        { σ with
          system, loans := Frame.shares batch ++ σ.freed batch,
          frames := task.frames ++
            .contain task.id source.receiver :: .sweep source batch count' :: below,
          signal := .proceed, history := σ.history ++ [task.started] }
  | sweepEnds {source batch count below signal}
      (top : σ.frames = .sweep source batch count :: below) (outcome : signal.isOutcome) :
      Moves σ { σ with loans := σ.freed batch, frames := below, signal }
  | helps {b budget goal below system} {task : Task}
      (top : σ.frames = .waiting b budget goal :: below)
      (unclear : (σ.system.batch b).barrier.isClear = false) (left : budget ≠ some 0)
      (taken : σ.system.take (σ.system.sourceOf b) = some (task.job, system)) :
      Moves σ
        { σ with
          system,
          frames := task.frames ++ .contain task.id (σ.system.sourceOf b).receiver ::
            .waiting b (budget.map (· - 1)) goal :: below,
          signal := .proceed, history := σ.history ++ [task.started] }
  | delivers {b budget goal below} (top : σ.frames = .waiting b budget goal :: below)
      (asked : goal ≠ .close) (finished : σ.WaitIsOver b budget) :
      Moves σ
        { σ with
          system := (σ.system.deliver b).2,
          frames := below,
          signal := .returned
            (goal.answer (σ.system.batch b).barrier.isClear (σ.system.deliver b).1),
          history := σ.history ++ [.delivered b (σ.system.deliver b).1] }
  | closesBatch {b budget below} (top : σ.frames = .waiting b budget .close :: below)
      (finished : σ.WaitIsOver b budget) :
      Moves σ
        { σ with
          system := (σ.system.closeBatch b).1,
          frames := below, signal := .returned .nothing,
          history := σ.history ++ Event.ofNotices (σ.system.closeBatch b).2 }
  | drains {p ran ran' below system} {task : Task} (top : σ.frames = .closing p ran :: below)
      (taken : σ.system.take (.pool p) = some (task.job, system)) :
      Moves σ
        { σ with
          system,
          frames := task.frames ++ .contain task.id p :: .closing p ran' :: below,
          signal := .proceed, history := σ.history ++ [task.started] }
  | closesPool {p ran ran' below} (top : σ.frames = .closing p ran :: below)
      (empty : σ.system.take (.pool p) = none) :
      Moves σ
        { σ with
          system := (σ.system.closePool p ran').1,
          frames := below, signal := .returned .nothing,
          history := σ.history ++ Event.ofNotices (σ.system.closePool p ran').2 }

end Scene

end TaskPool
