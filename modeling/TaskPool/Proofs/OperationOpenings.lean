import TaskPool.Proofs.AcceptedOperations
import TaskPool.Proofs.WaitingJobs

/-!
# How operations begin

Every operation that passes its checks and starts no thread begins with one of the openings. What it
holds it may have, since all of it has a name, and nothing that has a name is being closed.
-/

namespace TaskPool

open TaskPool.System

def World.scene (w : World) (frames : List Frame) (signal : Signal) (history : List Event) :
    Scene where
  system := w.system
  names := w.names
  loans := w.loans
  frames := frames
  signal := signal
  history := history

def Begun.opening (begun : Begun) : Opening where
  system := begun.world.system
  names := begun.world.names
  loans := begun.loans
  push := begun.push
  signal := begun.signal
  events := begun.events

/-- An operation begins with an opening, and lends nothing before it is on the stack. -/
structure Begins (σ : Scene) (begun : Begun) : Prop where
  opens : σ.Opens begun.opening
  loans : begun.world.loans = σ.loans
  common : begun.world.common = none

section

variable {ctx : Context} {w : World} {frames : List Frame} {signal : Signal}
  {history : List Event} {begun : Begun}

/-! ## Names and checks -/

theorem World.find_of_resolvePool (registry : Registry w.system w.names) {thread : ThreadId}
    {name : String} {p : PoolId} (found : w.resolvePool thread name = .ok p) :
    w.names.find? name = some (.pool p) := by
  simp only [resolvePool, bind_eq_ok] at found
  obtain ⟨object, resolved, kind⟩ := found
  have known := find_of_resolve resolved
  cases object with
  | pool q =>
      cases kind
      exact known
  | commonPool q => exact (registry.named _ _ (Table.mem_of_find? known)).elim
  | token | batch => cases kind

theorem World.free_of_unused {object : Object} (unused : w.inUse object = false) :
    (w.scene frames signal history).Free object := by
  intro loan member same
  have used : w.inUse object = true := by
    simp only [inUse, List.any_eq_true, decide_eq_true_eq]
    exact ⟨loan, member, same⟩
  rw [used] at unused
  cases unused

/-! ## Openings that leave everything alone -/

theorem Begins.rests (system : begun.world.system = w.system) (names : begun.world.names = w.names)
    (loans : begun.world.loans = w.loans) (common : begun.world.common = none)
    (lent : (w.scene frames signal history).Lends begun.loans)
    (push : begun.push = []) (events : begun.events = []) (outcome : begun.signal.isOutcome) :
    Begins (w.scene frames signal history) begun where
  opens := by
    simp only [Begun.opening, system, names, push, events]
    exact .rests lent outcome
  loans := loans
  common := common

theorem Begins.pauses {pause : Frame} (system : begun.world.system = w.system)
    (names : begun.world.names = w.names) (loans : begun.world.loans = w.loans)
    (common : begun.world.common = none)
    (lent : (w.scene frames signal history).Lends begun.loans) (push : begun.push = [pause])
    (kind : pause.isPause) (events : begun.events = []) (proceed : begun.signal = .proceed) :
    Begins (w.scene frames signal history) begun where
  opens := by
    simp only [Begun.opening, system, names, push, events, proceed]
    exact .pauses lent kind
  loans := loans
  common := common

theorem Scene.lends_nil {σ : Scene} : σ.Lends [] := fun _ member => nomatch member

/-! ## Submitting and running tasks -/

inductive Asked : Object → Option Object → Target → Prop where
  | pool {p} : Asked (.pool p) none (.pool p)
  | token {p t} : Asked (.pool p) (some (.token t)) (.token p t)
  | batch {b} : Asked (.batch b) none (.batch b)

theorem Begun.asked_of_entryPoint {on : Object} {via : Via} {token : Option Object} {entry : Entry}
    (own : ∀ p, on ≠ .commonPool p) (point : entryPoint w on via token = .ok entry) :
    Asked on token entry.target := by
  unfold entryPoint at point
  split at point <;> first | cases point | (split at point <;> cases point)
  all_goals first | exact .pool | exact .token | exact .batch | exact absurd rfl (own _)

theorem Begun.asked_of_sourceOf {on : Object} {token : Option Object} {source : Source}
    (own : ∀ p, on ≠ .commonPool p) (found : sourceOf w on token = .ok source) :
    ∃ target, Asked on token target ∧ source = target.source w.system := by
  unfold sourceOf at found
  split at found <;> cases found
  · exact ⟨_, .pool, rfl⟩
  · exact absurd rfl (own _)
  · exact ⟨_, .token, rfl⟩
  · exact absurd rfl (own _)
  · exact ⟨_, .batch, rfl⟩

variable {on : Object} {token : Option Object} {target : Target}

theorem Asked.held (asked : Asked on token target) (hold : Hold) :
    Begun.held on token hold = target.loans hold := by
  cases asked <;> rfl

theorem Asked.named (asked : Asked on token target) {hold : Hold}
    (named : ∃ name, w.names.find? name = some on)
    (named' : ∀ object, token = some object → ∃ name, w.names.find? name = some object) :
    ∀ loan ∈ target.loans hold, ∃ name, w.names.find? name = some loan.object := by
  intro loan member
  cases asked with
  | pool | batch =>
      cases List.mem_singleton.mp member
      exact named
  | token =>
      simp only [Target.loans, List.mem_cons, List.not_mem_nil, or_false] at member
      rcases member with rfl | rfl
      · exact named
      · exact named' _ rfl

/-- What an operation asks for it may have, except that it must not share what is awaited. -/
theorem Asked.lends (asked : Asked on token target) {thread : ThreadId} {name : String}
    {arg : Arg String} (finds : w.Finds thread name on arg token) {hold : Hold}
    (kind : hold ≠ .exclude) (shared : hold = .share → Begun.checkShared w on = .ok ()) :
    (w.scene frames signal history).Lends (target.loans hold) := by
  intro loan member
  refine ⟨asked.named finds.named.1 finds.named.2 loan member, ?_⟩
  cases asked with
  | pool =>
      cases List.mem_singleton.mp member
      simp
  | token =>
      simp only [Target.loans, List.mem_cons, List.not_mem_nil, or_false] at member
      rcases member with rfl | rfl <;> simp
  | @batch b =>
      cases List.mem_singleton.mp member
      refine ⟨kind, fun share => ?_⟩
      have unawaited := Refusal.of_unless (shared share)
      have absent : ⟨.batch b, .exclude⟩ ∉ w.loans := by
        simpa [World.isAwaited] using unawaited
      exact absent

theorem Task.launch_job (task : Task) (ctx : Context) (w : World) :
    task.job.launch ctx w = { world := w, events := [task.started], push := task.frames } := rfl

theorem Source.runNext_eq_some {source : Source} {turn : Turn}
    (ran : source.runNext ctx w = some turn) (filed : Filed w.system history) :
    ∃ (task : Task) (system : System Work), w.system.take source = some (task.job, system) ∧
      turn =
        { world := { w with system }, events := [task.started],
          push := task.frames ++ [.contain task.id source.receiver] } := by
  simp only [runNext, Option.map_eq_some_iff] at ran
  obtain ⟨⟨job, system⟩, taken, rfl⟩ := ran
  obtain ⟨task, rfl⟩ := filed.task_of_take taken
  exact ⟨task, system, taken, rfl⟩

theorem Source.take_of_runNext {source : Source} (ran : source.runNext ctx w = none) :
    w.system.take source = none :=
  Option.map_eq_none_iff.mp ran

theorem Registry.not_common {s : System Work} {names : Table Object} (registry : Registry s names)
    {name : String} {object : Object} (named : names.find? name = some object) (p : PoolId) :
    object ≠ .commonPool p := by
  rintro rfl
  exact registry.named _ _ (Table.mem_of_find? named)

theorem System.submit_work {s : System Work} (entry : Entry) (work : Work) :
    (s.submit entry work).job.work = work := by
  cases submit_submits (s := s) entry work with
  | declined _ job => rw [job]
  | admitted admits => rw [admits.1]

theorem Work.submitted_begins {entry : Entry} {label : String} {ops : List Op}
    {onBatch : Option String}
    (lent : (w.scene frames signal history).Lends (entry.target.loans .share))
    (common : w.common = none) :
    Begins (w.scene frames signal history)
      { Work.submitted ctx entry (.body label ops onBatch) w with
        loans := entry.target.loans .share } := by
  have work := System.submit_work (s := w.system) entry (.body label ops onBatch)
  unfold Work.submitted
  generalize submits : w.system.submit entry (.body label ops onBatch) = made at work ⊢
  obtain ⟨task, job⟩ : ∃ task : Task, made.job = task.job :=
    ⟨⟨made.job.id, made.job.batch, label, ops, onBatch⟩, by simp only [Task.job, ← work]⟩
  simp only [job, Task.launch_job]
  cases now : made.route.runsNow with
  | true =>
      refine ⟨?_, rfl, common⟩
      simp only [Begun.opening, Turn.after, if_true, List.append_assoc]
      exact .runsInline lent submits job now
  | false =>
      refine ⟨?_, rfl, common⟩
      simp only [Begun.opening, Turn.after, Turn.reply, Bool.false_eq_true, if_false,
        List.append_nil]
      exact .queues lent submits job now

theorem Source.executed_begins {target : Target}
    (sound : (w.scene frames signal history).Sound) (common : w.common = none)
    (lent : (w.scene frames signal history).Lends (target.loans .share)) :
    Begins (w.scene frames signal history)
      { (target.source w.system).executed ctx w with loans := target.loans .share } := by
  unfold Source.executed
  cases runs : (target.source w.system).runNext ctx w with
  | none => exact .rests rfl rfl rfl common lent rfl rfl rfl
  | some turn =>
      obtain ⟨task, system, taken, rfl⟩ := Source.runNext_eq_some runs sound.filed
      refine ⟨?_, rfl, common⟩
      simp only [Begun.opening, Turn.above, List.append_assoc]
      exact .executes lent taken

/-- Whatever operation passes its checks and starts no thread, it begins with an opening. -/
theorem Begun.Accepted.begins (accepted : Begun.Accepted ctx w begun)
    (sound : (w.scene frames signal history).Sound) (common : w.common = none)
    (batches : ctx.batches = Frame.batchNames frames) (alone : begun.spawn = []) :
    Begins (w.scene frames signal history) begun := by
  have registry : Registry w.system w.names := sound.registry
  cases accepted with
  | rests same events push _ loans outcome =>
      exact .rests same.system same.names same.loans (same.common.trans common)
        (loans ▸ Scene.lends_nil) push events outcome
  | pauses same events push kind proceed _ loans =>
      exact .pauses same.system same.names same.loans (same.common.trans common)
        (loans ▸ Scene.lends_nil) push kind events proceed
  | startsPool unknown =>
      exact ⟨.startsPool unknown (List.map_eq_nil_iff.mp alone), rfl, common⟩
  | sharesPool _ known => cases known.symm.trans common
  | startsShared _ _ staffed =>
      exact absurd (List.map_eq_nil_iff.mp alone) staffed
  | issuesToken unknown found =>
      exact ⟨.issuesToken unknown ⟨_, World.find_of_resolvePool registry found⟩, rfl, common⟩
  | makesBatch unknown found =>
      exact ⟨.makesBatch unknown ⟨_, World.find_of_resolvePool registry found⟩, rfl, common⟩
  | dropsPool named idle =>
      obtain ⟨unused, independent⟩ := Bool.or_eq_false_iff.mp idle
      exact ⟨.dropsPool named (World.free_of_unused unused) independent, rfl, common⟩
  | forgetsPool named => exact absurd rfl (registry.not_common named _)
  | dropsToken named idle => exact ⟨.dropsToken named (World.free_of_unused idle), rfl, common⟩
  | dropsBatch named apart idle =>
      exact ⟨.dropsBatch named (World.free_of_unused idle) (batches ▸ apart), rfl, common⟩
  | submits finds point free =>
      obtain ⟨_, named⟩ := finds.named.1
      have asked := Begun.asked_of_entryPoint (registry.not_common named) point
      rw [asked.held]
      exact Work.submitted_begins (asked.lends finds (by simp) fun _ => free) common
  | executes finds found free =>
      obtain ⟨_, named⟩ := finds.named.1
      obtain ⟨target, asked, rfl⟩ := Begun.asked_of_sourceOf (registry.not_common named) found
      rw [asked.held]
      exact Source.executed_begins sound common (asked.lends finds (by simp) fun _ => free)
  | sweeps finds found =>
      obtain ⟨_, named⟩ := finds.named.1
      obtain ⟨target, asked, rfl⟩ := Begun.asked_of_sourceOf (registry.not_common named) found
      have lent : (w.scene frames signal history).Lends (target.loans .use) :=
        asked.lends finds (by simp) nofun
      rw [asked.held]
      refine ⟨?_, rfl, common⟩
      have opens := Scene.Opens.sweeps lent
      cases asked <;> exact opens
  | waits named apart idle =>
      exact ⟨.waits named (World.free_of_unused idle) (batches ▸ apart), rfl, common⟩
  | triesToWait named idle => exact ⟨.triesToWait named (World.free_of_unused idle), rfl, common⟩
  | movesAway => cases alone
  | @holds name gate p jobs found few =>
      -- a pool without workers has none to occupy
      obtain rfl : jobs = 0 := Nat.le_zero.mp ((registry.idle p).1 ▸ few)
      refine .pauses rfl rfl rfl common ?_ rfl rfl rfl rfl
      intro loan member
      cases List.mem_singleton.mp member
      exact ⟨⟨name, World.find_of_resolvePool registry found⟩, by simp⟩
  | joins => exact .pauses rfl rfl rfl common Scene.lends_nil rfl rfl rfl rfl

end

end TaskPool
