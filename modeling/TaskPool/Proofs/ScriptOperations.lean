import TaskPool.Proofs.Executing
import TaskPool.Proofs.ObjectChanges

/-!
# Operations in the scripts of any thread

The script of the driver thread, the scripts of other threads and the bodies of tasks carry out
their operations in the same way. A course is any of these, without the operations that are left of
it. Here the operations that submit a task or run a queued job are followed into their first turn,
for every course and on every thread.
-/

namespace TaskPool

open TaskPool.System

/-- A script without the operations that are left of it. -/
inductive Course where
  | program
  | strand (before : List Reply)
  | body (job : JobId) (label : String) (first : Nat) (onBatch : Option String)

namespace Course

def frame (course : Course) (replies : List Reply) (ops : List Op) : Frame :=
  match course with
  | program => .program ops
  | strand before => .strand ops (before ++ replies)
  | body job label first onBatch => .body job label (first + replies.length) ops onBatch

def catchesAll : Course → Bool
  | program | strand _ => true
  | body .. => false

def note (course : Course) (replies : List Reply) (reply : Reply) (w : World) : List Event :=
  match course with
  | program => [.answered reply w.snapshot]
  | strand _ => []
  | body job label first _ => [.replied job label (first + replies.length) reply]

variable {course : Course} {replies : List Reply} {ops : List Op} {ctx : Context} {w : World}

theorem resume_proceed (course : Course) (replies : List Reply) (op : Op) (ops : List Op)
    (ctx : Context) (w : World) :
    ∃ ctx' : Context, ctx'.thread = ctx.thread ∧ ctx'.batches = ctx.batches ∧
      (course.frame replies (op :: ops)).resume ctx w .proceed =
        some ((op.perform ctx' w course.catchesAll).above [course.frame replies ops]) := by
  cases course with
  | program => exact ⟨{ ctx with topLevel := true }, rfl, rfl, rfl⟩
  | strand | body => exact ⟨ctx, rfl, rfl, rfl⟩

theorem resume_returned {reply : Reply} :
    (course.frame replies ops).resume ctx w (.returned reply) =
      some { world := w, events := course.note replies reply w,
             push := [course.frame (replies ++ [reply]) ops] } := by
  cases course with
  | program => rfl
  | strand before =>
      simp only [frame, ← List.append_assoc]
      rfl
  | body job label first onBatch =>
      simp only [frame, List.length_append, List.length_singleton, ← Nat.add_assoc]
      rfl

end Course

/-! ## Operations on what they name -/

/-- The operation submits work at the entry point. -/
inductive World.Submits (w : World) (thread : ThreadId) (on : Object) (token : Option Object) :
    Entry → Work → Op → Prop where
  | schedule {name : String} {arg : Arg String} {task : TaskSource Op} {label : String}
      {ops : List Op} {via : Arg Via} {way : Via} {entry : Entry}
      (finds : w.Finds thread name on arg token) (body : Begun.taskBody w task = .ok (label, ops))
      (asked : via.orDefault .plain = .ok way)
      (point : Begun.entryPoint w on way token = .ok entry)
      (free : Begun.checkShared w on = .ok ()) :
      Submits w thread on token entry (.body label ops (on.knownAs name))
        (.schedule (.given name) (.given task) via arg)
  | catching {entry work op} (submits : Submits w thread on token entry work op) :
      Submits w thread on token entry work (.catching op)

inductive World.Fetches (w : World) (thread : ThreadId) (on : Object) (token : Option Object) :
    Source → Op → Prop where
  | exec {name : String} {arg : Arg String} {source : Source}
      (finds : w.Finds thread name on arg token)
      (found : Begun.sourceOf w on token = .ok source)
      (free : Begun.checkShared w on = .ok ()) :
      Fetches w thread on token source (.exec (.given name) arg)
  | catching {source op} (fetches : Fetches w thread on token source op) :
      Fetches w thread on token source (.catching op)

/-- The objects that an operation names are a target. -/
inductive Object.Means : Object → Option Object → Target → Prop where
  | pool {on p} (is : Object.pool? on = some p) : Means on none (.pool p)
  | token {on p t} (is : Object.pool? on = some p) : Means on (some (.token t)) (.token p t)
  | batch {b} : Means (.batch b) none (.batch b)

/-- The turn of an operation that holds what it uses until it returns. -/
def Turn.holding (loans : List Loan) (caught : Bool) (turn : Turn) : Turn :=
  { turn.above [.call loans .report caught] with world := turn.world.lend loans }

section

variable {ctx : Context} {w : World} {thread : ThreadId} {name : String} {arg : Arg String}
  {on : Object} {token : Option Object} {entry : Entry} {work : Work} {source : Source} {op : Op}

theorem World.Finds.resolved (finds : w.Finds ctx.thread name on arg token) :
    w.resolve ctx.thread name = .ok on ∧
      ∃ other, arg.optional = .ok other ∧ Begun.resolveOptional ctx w other = .ok token := by
  cases finds with
  | alone found => exact ⟨found, none, rfl, rfl⟩
  | through found found' =>
      refine ⟨found, some _, rfl, ?_⟩
      rw [Begun.resolveOptional, found']
      rfl

theorem World.Finds.listed (finds : w.Finds thread name on arg token) {frames : List Frame}
    (ledger : Ledger w frames) :
    w.system.Listed on ∧ ∀ object, token = some object → w.system.Listed object := by
  cases finds with
  | alone found => exact ⟨ledger.listed (find_of_resolve found), nofun⟩
  | through found found' =>
      refine ⟨ledger.listed (find_of_resolve found), ?_⟩
      rintro _ ⟨⟩
      exact ledger.listed (find_of_resolve found')

theorem Begun.means_of_entryPoint {via : Via}
    (point : Begun.entryPoint w on via token = .ok entry) : on.Means token entry.target := by
  unfold Begun.entryPoint at point
  split at point <;> first | cases point | (split at point <;> cases point)
  all_goals first | exact .pool rfl | exact .token rfl | exact .batch

theorem World.Submits.means (submits : w.Submits thread on token entry work op)
    {frames : List Frame} (ledger : Ledger w frames) :
    on.Means token entry.target ∧ w.system.Listed on ∧
      ∀ object, token = some object → w.system.Listed object := by
  induction submits with
  | schedule finds _ _ point => exact ⟨Begun.means_of_entryPoint point, finds.listed ledger⟩
  | catching _ ih => exact ih

theorem World.giveBack_lend (loans : List Loan) (w : World) : (w.lend loans).giveBack loans = w :=
  congrArg ({ w with loans := · }) (Scene.foldl_erase_append loans w.loans)

theorem World.Submits.perform (submits : w.Submits ctx.thread on token entry work op)
    (catchAll : Bool) :
    op.perform ctx w catchAll =
      (work.submitted ctx entry w).holding (Begun.held on token .share)
        (op.uncaught.1 || catchAll) := by
  have accepted : Begun.ofOp ctx w op.uncaught.2 = .ok
      { work.submitted ctx entry w with loans := Begun.held on token .share } := by
    induction submits with
    | schedule finds body asked point free =>
        obtain ⟨found, other, given, found'⟩ := finds.resolved
        simp only [Op.uncaught, Begun.ofOp, Begun.schedule, Arg.require, body, asked, given, found,
          found', point, free, Bind.bind, Except.bind]
        rfl
    | catching _ ih => exact ih
  simp only [Op.perform, accepted, Turn.holding]

theorem World.Fetches.perform (fetches : w.Fetches ctx.thread on token source op)
    (catchAll : Bool) :
    op.perform ctx w catchAll =
      (source.executed ctx w).holding (Begun.held on token .share)
        (op.uncaught.1 || catchAll) := by
  have accepted : Begun.ofOp ctx w op.uncaught.2 = .ok
      { source.executed ctx w with loans := Begun.held on token .share } := by
    induction fetches with
    | exec finds point free =>
        obtain ⟨found, other, given, found'⟩ := finds.resolved
        simp only [Op.uncaught, Begun.ofOp, Begun.exec, Arg.require, given, found, found', point,
          free, Bind.bind, Except.bind, Source.executed]
        cases Source.runNext ctx _ w <;> rfl
    | catching _ ih => exact ih
  simp only [Op.perform, accepted, Turn.holding]

end

namespace Machine

variable {m : Machine} {course : Course} {replies : List Reply} {op : Op} {below : List Frame}
  {on : Object} {token : Option Object} {entry : Entry} {work : Work} {source : Source}

/-- The script is on top of the stack and carries out its next operation now. -/
structure At (m : Machine) (course : Course) (replies : List Reply) (ops : List Op)
    (below : List Frame) : Prop where
  top : m.driver.frames = course.frame replies ops :: below
  proceed : m.driver.signal = .proceed

/-- The first turn of an operation. The operation knows nothing of what is left of the script. -/
theorem At.first {ops : List Op} (at_ : m.At course replies (op :: ops) below) :
    ∃ ctx : Context, ctx.thread = m.driver.id ∧
      ctx.batches = Frame.batchNames m.driver.frames ∧
      ∀ turn, op.perform ctx m.world course.catchesAll = turn →
        m.run 1 =
          { world := turn.world
            driver :=
              { m.driver with
                frames := turn.push ++ course.frame replies ops :: below
                signal := turn.signal }
            others := m.others ++ turn.spawn
            journal := record m.driver.id turn.events m.journal } := by
  obtain ⟨ctx, thread, batches, resumes⟩ := course.resume_proceed replies op ops
    { thread := m.driver.id
      batches := Frame.batchNames (course.frame replies (op :: ops) :: below) }
    m.world
  refine ⟨ctx, thread, batches.trans (at_.top ▸ rfl), ?_⟩
  rintro _ rfl
  rw [run_one (step_of_resume at_.top (at_.proceed ▸ resumes))]
  simp only [Turn.above, List.append_assoc, List.singleton_append]

/-- The first turn of an operation that stays on the stack and holds what it uses. -/
structure Enters (m : Machine) (turn : Turn) (loans : List Loan) (caught : Bool)
    (base : List Frame) : Prop where
  world : (m.run 1).world = turn.world.lend loans
  frames : (m.run 1).driver.frames = turn.push ++ .call loans .report caught :: base
  signal : (m.run 1).driver.signal = turn.signal
  thread : (m.run 1).driver.id = m.driver.id
  others : (m.run 1).others = m.others ++ turn.spawn
  history : (m.run 1).history = m.history ++ turn.events

theorem At.enters {ops : List Op} (at_ : m.At course replies (op :: ops) below) :
    ∃ ctx : Context, ctx.thread = m.driver.id ∧ ∀ turn loans caught,
      op.perform ctx m.world course.catchesAll = Turn.holding loans caught turn →
        m.Enters turn loans caught (course.frame replies ops :: below) := by
  obtain ⟨ctx, thread, _, turns⟩ := at_.first
  refine ⟨ctx, thread, fun turn loans caught performed => ?_⟩
  have turned := turns _ performed
  exact
    { world := congrArg (·.world) turned
      frames := (congrArg (·.driver.frames) turned).trans (List.append_assoc ..)
      signal := congrArg (·.driver.signal) turned
      thread := congrArg (·.driver.id) turned
      others := congrArg (·.others) turned
      history := (congrArg (·.history) turned).trans (record_events ..) }

theorem At.submitted {ops : List Op} (at_ : m.At course replies (op :: ops) below)
    (submits : m.world.Submits m.driver.id on token entry work op) :
    ∃ ctx : Context, ctx.thread = m.driver.id ∧
      m.Enters (work.submitted ctx entry m.world) (Begun.held on token .share)
        (op.uncaught.1 || course.catchesAll) (course.frame replies ops :: below) := by
  obtain ⟨ctx, thread, enters⟩ := at_.enters
  exact ⟨ctx, thread, enters _ _ _ (World.Submits.perform (thread ▸ submits) course.catchesAll)⟩

theorem At.fetched {ops : List Op} (at_ : m.At course replies (op :: ops) below)
    (fetches : m.world.Fetches m.driver.id on token source op) :
    ∃ ctx : Context, ctx.thread = m.driver.id ∧
      m.Enters (source.executed ctx m.world) (Begun.held on token .share)
        (op.uncaught.1 || course.catchesAll) (course.frame replies ops :: below) := by
  obtain ⟨ctx, thread, enters⟩ := at_.enters
  exact ⟨ctx, thread, enters _ _ _ (World.Fetches.perform (thread ▸ fetches) course.catchesAll)⟩

/-- An operation on top of the stack returns what it was told, and gives back what it held. -/
theorem call_returns {loans : List Loan} {caught : Bool} {base : List Frame} {reply : Reply}
    (top : m.driver.frames = .call loans .report caught :: base)
    (told : m.driver.signal = .returned reply) :
    (m.run 1).driver.frames = base ∧ (m.run 1).driver.signal = .returned reply ∧
      (m.run 1).others = m.others ∧ (m.run 1).world = m.world.giveBack loans ∧
      (m.run 1).history = m.history := by
  obtain ⟨back, signal, others, world, history⟩ := run_one_leave top
  rw [told] at signal
  refine ⟨back, signal.trans ?_, others, world, history⟩
  cases reply <;> rfl

theorem At.finds_none (at_ : m.At course replies (op :: ops) below)
    (fetches : m.world.Fetches m.driver.id on token source op)
    (none : m.world.system.take source = .none) :
    m.Span (course.frame replies ops :: below) 2 (.returned (.flag false)) ∧
      (m.run 2).world = m.world ∧ (∀ k ≤ 2, (m.run k).others = m.others) ∧
      (m.run 2).history = m.history := by
  obtain ⟨ctx, _, enters⟩ := at_.fetched fetches
  have idle : source.executed ctx m.world = Turn.reply m.world (.flag false) := by
    rw [Source.executed, Source.runNext, none]
    rfl
  rw [idle] at enters
  obtain ⟨back, told, others, world, history⟩ := call_returns enters.frames enters.signal
  rw [← run_add] at back told others world history
  refine ⟨Span.pop (.one enters.frames enters.signal) back told, ?_, ?_, ?_⟩
  · rw [world, enters.world]
    exact World.giveBack_lend ..
  · have others' : (m.run 1).others = m.others := enters.others.trans (List.append_nil _)
    intro k few
    rcases Nat.lt_or_eq_of_le few with fewer | rfl
    · rcases Nat.le_one_iff_eq_zero_or_eq_one.mp (Nat.le_of_lt_succ fewer) with rfl | rfl
      · rfl
      · exact others'
    · exact others.trans others'
  · rw [history, enters.history]
    exact List.append_nil _

theorem At.finds (at_ : m.At course replies (op :: ops) below)
    (fetches : m.world.Fetches m.driver.id on token source op) {task : Task} {s' : System Work}
    (taken : m.world.system.take source = some (task.job, s')) :
    ∃ loans caught, (m.run 1).driver.frames = task.frames ++ .contain task.id source.receiver ::
        .executed :: .call loans .report caught :: course.frame replies ops :: below ∧
      (m.run 1).world.system = s' ∧ (m.run 1).history = m.history ++ [task.started] := by
  obtain ⟨ctx, _, enters⟩ := at_.fetched fetches
  have runs : source.executed ctx m.world =
      ((task.job.launch ctx { m.world with system := s' }).above
        [.contain task.job.id source.receiver]).above [.executed] := by
    rw [Source.executed, Source.runNext, taken]
    rfl
  rw [runs, Task.launch_job] at enters
  refine ⟨Begun.held on token .share, op.uncaught.1 || course.catchesAll,
    enters.frames.trans ?_, ?_, enters.history⟩
  · simp only [Turn.above, List.append_assoc, List.cons_append, List.nil_append]
    rfl
  · rw [enters.world]
    rfl

theorem noted {ops : List Op} {reply : Reply}
    (top : m.driver.frames = course.frame replies ops :: below)
    (told : m.driver.signal = .returned reply) :
    (m.run 1).At course (replies ++ [reply]) ops below ∧ (m.run 1).world = m.world ∧
      (m.run 1).others = m.others := by
  have stepped := step_of_resume top (told ▸ Course.resume_returned)
  rw [run_one stepped]
  exact ⟨⟨rfl, rfl⟩, rfl, List.append_nil _⟩

end Machine

end TaskPool
