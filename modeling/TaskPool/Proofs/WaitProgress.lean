import TaskPool.Proofs.BatchLine
import TaskPool.Proofs.JobConservation
import TaskPool.Proofs.Spans

/-!
# A wait ends

While a batch is not finished one of its jobs stands in its line, unless one of its tasks is on the
stack below. So the loop of a wait always finds a job, and each job that it runs brings the last job
of the batch nearer, whatever that job submits. When the tasks that run in between leave the queues
of the pool to the loop, the loop runs the line in order up to the last job of the batch.
-/

namespace TaskPool

open TaskPool.System

/-- How many jobs stand in the line of a batch up to the last one of the batch. -/
def System.ahead (s : System Work) (b : BatchId) : Nat := (upTo b (s.line b)).length

theorem Frame.resume_waiting {ctx : Context} {w : World} {signal : Signal} {b : BatchId}
    {budget : Option Nat} {goal : Goal} (calm : ∀ payload, signal ≠ .raised payload) :
    (Frame.waiting b budget goal).resume ctx w signal = resumeWaiting ctx b budget goal w := by
  cases signal with
  | raised payload => exact absurd rfl (calm payload)
  | proceed | returned => rfl

namespace Machine

variable {m : Machine} {b : BatchId} {budget : Option Nat} {goal : Goal} {below base : List Frame}
  {turns k : Nat} {outcome : Signal}

def topJob? (m : Machine) : Option JobId :=
  match m.driver.frames with
  | .body job .. :: _ => some job
  | _ => none

/-- The jobs that the frame on top of the stack starts itself within some turns. -/
def helped (m : Machine) (turns : Nat) : List JobId :=
  (List.range turns).flatMap fun k =>
    if (m.run k).height = m.height then (m.run (k + 1)).topJob?.toList else []

theorem helped_succ (m : Machine) (turns : Nat) :
    m.helped (turns + 1) = m.helped turns ++
      if (m.run turns).height = m.height then (m.run (turns + 1)).topJob?.toList else [] := by
  simp [helped, List.range_succ]

/-! ## The loop of a wait -/

/-- No task of the batch is on the stack, so what is outstanding waits in the line. -/
theorem Solo.line_of_unclear (solo : m.Solo)
    (top : m.driver.frames = .waiting b budget goal :: below)
    (free : ∀ job, .settle job b ∉ below) :
    m.world.system.outstanding b ≠ 0 ↔ upTo b (m.world.system.line b) ≠ [] := by
  have sound := solo.sound.scene
  have inside : .waiting b budget goal ∈ m.scene.frames := by
    rw [show m.scene.frames = _ from top]
    exact List.mem_cons_self
  have accounted := solo.accounted ((sound.barred inside).not_closed sound)
  have idle : (roles m.driver.frames).countP (Role.owesTo b) = 0 := by
    rw [List.countP_eq_zero]
    intro role member owes
    obtain ⟨frame, inside, is⟩ := List.mem_filterMap.mp member
    rw [top] at inside
    cases frame with
    | settle job c =>
        cases is
        have same : c = b := of_decide_eq_true owes
        rcases List.mem_cons.mp inside with wrong | inside
        · cases wrong
        · exact free job (same ▸ inside)
    | body =>
        cases is
        cases owes
    | _ => cases is
  have count := accounted.count
  rw [show roles m.scene.frames = roles m.driver.frames from rfl, idle, Nat.add_zero] at count
  rw [show m.world.system.outstanding b = _ from count, ne_eq, ne_eq, upTo_eq_nil_iff,
    List.countP_eq_zero, not_iff_not]
  constructor
  · intro none job member
    simpa using none job (Pool.mem_contents_of_queue member)
  · intro others job member wrapped
    have wrapped : job.batch = some b := of_decide_eq_true wrapped
    obtain ⟨inlet, queued, _, _⟩ := (sound.filed _).of_mem member
    obtain ⟨_, same⟩ := accounted.inlet _ inlet job queued wrapped
    rw [same] at queued
    exact others job queued wrapped

theorem Solo.calm (solo : m.Solo) (top : m.driver.frames = .waiting b budget goal :: below)
    (payload : Payload) : m.driver.signal ≠ .raised payload := by
  intro raised
  have calm := solo.sound.scene.custody.calm
  rw [show m.scene.frames = _ from top, show m.scene.signal = _ from raised] at calm
  cases calm

theorem resumeWaiting_over {ctx : Context} (ended : m.scene.WaitIsOver b budget) :
    Frame.resumeWaiting ctx b budget goal m.world = some (Frame.finishWaiting b goal m.world) := by
  unfold Frame.resumeWaiting
  split
  · rfl
  · next going =>
      obtain ⟨limited, idle⟩ : budget ≠ none ∧
          m.world.system.take (m.world.system.sourceOf b) = none := by
        rcases ended with clear | spent | idle
        · exact absurd (.inl clear) going
        · exact absurd (.inr spent) going
        · exact idle
      have ran : (m.world.system.sourceOf b).runNext ctx m.world = none := by
        rw [Source.runNext, idle, Option.map_none]
      obtain ⟨left, rfl⟩ := Option.ne_none_iff_exists'.mp limited
      rw [ran]

theorem resumeWaiting_helps {ctx : Context} {turn : Turn}
    (unclear : (m.world.system.batch b).barrier.isClear = false) (left : budget ≠ some 0)
    (ran : (m.world.system.sourceOf b).runNext ctx m.world = some turn) :
    Frame.resumeWaiting ctx b budget goal m.world =
      some (turn.above [.waiting b (budget.map (· - 1)) goal]) := by
  unfold Frame.resumeWaiting
  rw [if_neg (not_or.mpr ⟨Bool.eq_false_iff.mp unclear, left⟩), ran]

theorem Solo.loop_over (solo : m.Solo) (top : m.driver.frames = .waiting b budget goal :: below)
    (ended : m.world.system.outstanding b = 0 ∨ budget = some 0) :
    ∃ reply, m.Comes below 1 (.returned reply) ∧
      ∀ told, reply = .flag told → told = decide (m.world.system.outstanding b = 0) := by
  have ended : (m.world.system.batch b).barrier.isClear = true ∨ budget = some 0 := by
    rw [Barrier.isClear_iff]
    exact ended
  obtain ⟨turn, finishes, push, spawn, reply, told, answer⟩ : ∃ turn,
      (∀ ctx, (Frame.waiting b budget goal).resume ctx m.world m.driver.signal = some turn) ∧
      turn.push = [] ∧ turn.spawn = [] ∧ ∃ reply, turn.signal = .returned reply ∧
      ∀ told, reply = .flag told → told = decide (m.world.system.outstanding b = 0) := by
    refine ⟨Frame.finishWaiting b goal m.world, fun ctx => ?_, ?_⟩
    · rw [Frame.resume_waiting (solo.calm top)]
      exact resumeWaiting_over (ended.imp_right .inl)
    · by_cases asked : goal = .close
      · subst asked
        exact ⟨rfl, rfl, _, rfl, fun told wrong => Reply.noConfusion wrong⟩
      · rw [Frame.finishWaiting_eq asked]
        exact ⟨rfl, rfl, _, rfl, fun told same => (Goal.answer_flag same).1⟩
  obtain ⟨back, signal, still⟩ := run_one_of_reply top (finishes _) push spawn
  refine ⟨reply, ?_, answer⟩
  exact .one solo.others (still.trans solo.others) back (signal.trans told)

/-- The loop goes on with the head of the line. -/
theorem Solo.loop_helps (solo : m.Solo) (top : m.driver.frames = .waiting b budget goal :: below)
    (unclear : m.world.system.outstanding b ≠ 0) (left : budget ≠ some 0) {job : Job Work}
    {rest : List (Job Work)} (front : m.world.system.line b = job :: rest) :
    ∃ (task : Task) (p : PoolId), task.job = job ∧
      (m.run 1).driver.frames = task.frames ++
        .contain task.id p :: .waiting b (budget.map (· - 1)) goal :: below ∧
      (m.run 1).others = [] ∧ (m.run 1).world.system.line b = rest := by
  have registry : Registry m.world.system m.world.names := solo.sound.scene.registry
  have filed : Filed m.world.system m.history := solo.sound.scene.filed
  obtain ⟨system, taken, line⟩ := take_line registry front
  obtain ⟨task, rfl⟩ := filed.task_of_take taken
  have unclear : (m.world.system.batch b).barrier.isClear = false := by
    rw [← Bool.not_eq_true, Barrier.isClear_iff]
    exact unclear
  have ran : ∀ ctx, (m.world.system.sourceOf b).runNext ctx m.world =
      some ((task.job.launch ctx { m.world with system }).above
        [.contain task.id (m.world.system.sourceOf b).receiver]) := by
    intro ctx
    simp only [Source.runNext, taken, Option.map_some]
    rfl
  have resumes : ∀ ctx, (Frame.waiting b budget goal).resume ctx m.world m.driver.signal =
      some (((task.job.launch ctx { m.world with system }).above
        [.contain task.id (m.world.system.sourceOf b).receiver]).above
          [.waiting b (budget.map (· - 1)) goal]) := by
    intro ctx
    rw [Frame.resume_waiting (solo.calm top)]
    exact resumeWaiting_helps unclear left (ran ctx)
  have stepped := step_of_resume top (resumes _)
  refine ⟨task, (m.world.system.sourceOf b).receiver, rfl, ?_⟩
  rw [run_one stepped]
  refine ⟨?_, ?_, line⟩
  · simp only [Turn.above, Task.launch_job, List.append_assoc]
    rfl
  · simp only [Turn.above, Task.launch_job, solo.others, List.append_nil]

theorem Solo.turn_feeds (solo : m.Solo) (alone : m.Alone 1) {left left' : Option Nat}
    (before : .waiting b left goal ∈ m.driver.frames)
    (after : .waiting b left' goal ∈ (m.run 1).driver.frames) :
    m.world.system.Feeds b (m.run 1).world.system := by
  have sound := solo.sound.scene
  have sound' := (solo.after alone).sound.scene
  rcases solo.turned alone with same | moves
  · have system : (m.run 1).world.system = m.world.system := congrArg Scene.system same
    exact .same (congrArg (·.line b) system)
  · exact moves.feeds sound (sound.barred before) ((sound'.barred after).not_closed sound')

/-- Above the loop the last job of the batch comes no further away. -/
theorem Solo.span_ahead (solo : m.Solo) (alone : m.Alone turns) {push : List Frame}
    (stack : m.driver.frames = push ++ base) (waits : .waiting b budget goal ∈ base)
    (higher : ∀ k < turns, base.length < (m.run k).height) :
    (m.run turns).world.system.ahead b ≤ m.world.system.ahead b := by
  induction turns with
  | zero => exact Nat.le_refl _
  | succ turns ih =>
      have alone' := alone.le (Nat.le_succ turns)
      have higher' : ∀ k < turns, base.length < (m.run k).height :=
        fun k below => higher k (Nat.lt_succ_of_lt below)
      obtain ⟨_, before⟩ := keeps_below stack higher'
      obtain ⟨_, after⟩ := keeps_below stack higher
      have feeds := (solo.after alone').turn_feeds alone.later (b := b)
        (before ▸ List.mem_append_right _ waits)
        (by rw [← run_add, after]; exact List.mem_append_right _ waits)
      rw [← run_add] at feeds
      exact Nat.le_trans feeds.upTo_le (ih alone' higher')

/-- A wait ends if the bodies of the tasks that it runs do. The induction is on how far away the
last job of the batch is: each job that the loop runs brings it nearer. -/
theorem Solo.wait_comes_above (solo : m.Solo) (alone : ∀ k, (m.run k).others = [])
    (ends : m.EndsAbove below [])
    (top : m.driver.frames = .waiting b budget goal :: below)
    (free : ∀ job, .settle job b ∉ below) :
    ∃ turns reply, m.Comes below turns (.returned reply) := by
  induction far : m.world.system.ahead b using Nat.strong_induction_on generalizing m budget with
  | _ n ih =>
      by_cases ended : m.world.system.outstanding b = 0 ∨ budget = some 0
      · obtain ⟨reply, comes, _⟩ := solo.loop_over top ended
        exact ⟨1, reply, comes⟩
      · obtain ⟨unclear, left⟩ := not_or.mp ended
        have some' := (solo.line_of_unclear top free).mp unclear
        cases front : m.world.system.line b with
        | nil =>
            rw [front] at some'
            exact absurd rfl some'
        | cons job rest =>
            -- one round: the head of the line runs, ends, and the loop is on top again
            obtain ⟨task, p, rfl, started, _, line⟩ := solo.loop_helps top unclear left front
            have solo' : (m.run 1).Solo := solo.after fun k _ => alone k
            have alone' := others_later alone 1
            have stack : (m.run 1).driver.frames = (task.frames ++ [.contain task.id p]) ++
                .waiting b (budget.map (· - 1)) goal :: below := by
              rw [started, List.append_assoc]
              rfl
            have high : below.length + 1 < (m.run 1).height := by
              simp only [height, started, List.length_append, List.length_cons]
              omega
            have inside : ∀ l < 1, below.length < (m.run l).height := by
              intro l first
              rw [Nat.lt_one_iff.mp first]
              exact Nat.lt_of_lt_of_eq (Nat.lt_succ_self _) (congrArg List.length top).symm
            have ends' := ends.later inside
            have first : ∀ l ≤ 0, below.length < ((m.run 1).run l).height := by
              intro l early
              rw [Nat.le_zero.mp early]
              exact Nat.lt_of_succ_lt high
            obtain ⟨k, comes⟩ := task_comes alone' started fun _ body => by
              simpa only [Nat.zero_add] using ends' 0 _ _ _ _ _ _ List.not_mem_nil first body
            have above : ∀ l < k + 1, below.length + 1 < ((m.run 1).run l).height := by
              intro l early
              rcases Nat.eq_zero_or_pos l with rfl | positive
              · exact high
              · exact comes.inside l positive early
            have nearer := solo'.span_ahead comes.alone stack List.mem_cons_self above
            have less : (m.run 1).world.system.ahead b < n := by
              have length := length_upTo_cons (b := b) task.job rest
              have positive := List.length_pos_iff.mpr some'
              rw [← front] at length
              rw [← far, System.ahead, System.ahead, line, length]
              exact Nat.sub_lt positive Nat.one_pos
            obtain ⟨turns, reply, back⟩ := ih _ (Nat.lt_of_le_of_lt nearer less)
              (solo'.after comes.alone) (others_later alone' (k + 1))
              (ends'.later fun l early => Nat.lt_of_succ_lt (above l early)) comes.back rfl
            have whole := comes.trans (Nat.lt_succ_self _) back
            exact ⟨_, reply, whole.after_first solo.others (Nat.lt_of_succ_lt high)⟩

theorem Solo.wait_comes (solo : m.Solo) (alone : ∀ k, (m.run k).others = []) (ends : m.BodiesEnd)
    (top : m.driver.frames = .waiting b budget goal :: below)
    (free : ∀ job, .settle job b ∉ below) :
    ∃ turns reply, m.Comes below turns (.returned reply) :=
  solo.wait_comes_above alone (ends.above below []) top free

/-! ## From turn to turn -/

/-- What one turn does during a wait. -/
inductive Turned (m : Machine) (b : BatchId) (left : Option Nat) (goal : Goal) (below : List Frame)
    (turns : Nat) : Prop where
  /-- Something above the loop takes the turn. -/
  | above (high : m.height < (m.run turns).height) (same : m.helped (turns + 1) = m.helped turns)
      (feeds : (m.run turns).world.system.Feeds b (m.run (turns + 1)).world.system)
      (stack : ∃ push, (m.run (turns + 1)).driver.frames = push ++ .waiting b left goal :: below)
  | helps {job rest} (front : (m.run turns).world.system.line b = job :: rest)
      (own : upTo b (job :: rest) ≠ []) (budget : left ≠ some 0)
      (starts : (m.run (turns + 1)).topJob? = some job.id)
      (more : m.helped (turns + 1) = m.helped turns ++ [job.id])
      (line : (m.run (turns + 1)).world.system.line b = rest)
      (stack : ∃ push, (m.run (turns + 1)).driver.frames =
        push ++ .waiting b (left.map (· - 1)) goal :: below)

theorem Solo.loop_turned (solo : m.Solo) (level : m.height = below.length + 1) {left : Option Nat}
    (alone : m.Alone turns) (top : (m.run turns).driver.frames = .waiting b left goal :: below)
    (free : ∀ job, .settle job b ∉ below)
    (unclear : (m.run turns).world.system.outstanding b ≠ 0) (budget : left ≠ some 0) :
    m.Turned b left goal below turns := by
  have solo' := solo.after alone
  have own := (solo'.line_of_unclear top free).mp unclear
  cases front : (m.run turns).world.system.line b with
  | nil =>
      rw [front] at own
      exact absurd rfl own
  | cons job rest =>
      obtain ⟨task, p, rfl, started, _, line⟩ := solo'.loop_helps top unclear budget front
      rw [← run_add] at started line
      have starts : (m.run (turns + 1)).topJob? = some task.id := by
        rw [topJob?, started]
        rfl
      refine .helps front (front ▸ own) budget starts ?_ line ?_
      · rw [helped_succ, if_pos (by rw [height, top, level]; rfl), starts]
        rfl
      · exact ⟨task.frames ++ [.contain task.id p], by rw [started, List.append_assoc]; rfl⟩

theorem Solo.wait_turned (solo : m.Solo) (level : m.height = below.length + 1) {left : Option Nat}
    (alone : m.Alone (turns + 1)) {push : List Frame}
    (stack : (m.run turns).driver.frames = push ++ .waiting b left goal :: below)
    (free : ∀ job, .settle job b ∉ below) (inside : below.length < (m.run (turns + 1)).height) :
    m.Turned b left goal below turns := by
  have alone' := alone.le (Nat.le_succ turns)
  have solo' := solo.after alone'
  cases push with
  | nil =>
      have going : ¬ ((m.run turns).world.system.outstanding b = 0 ∨ left = some 0) := by
        intro ended
        obtain ⟨_, comes, _⟩ := solo'.loop_over stack ended
        have back := comes.back
        rw [← run_add] at back
        rw [height, back] at inside
        exact Nat.lt_irrefl _ inside
      obtain ⟨unclear, budget⟩ := not_or.mp going
      exact solo.loop_turned level alone' stack free unclear budget
  | cons frame push =>
      have high : m.height < (m.run turns).height := by
        rw [level, height, stack]
        simp only [List.length_cons, List.length_append]
        omega
      have higher : ∀ k < 1, (Frame.waiting b left goal :: below).length <
          ((m.run turns).run k).height := by
        intro k first
        rw [Nat.lt_one_iff.mp first]
        rw [level] at high
        exact high
      obtain ⟨push', stack'⟩ := keeps_below stack higher
      rw [← run_add] at stack'
      have feeds := solo'.turn_feeds alone.later (b := b)
        (stack ▸ List.mem_append_right _ List.mem_cons_self)
        (by rw [← run_add, stack']; exact List.mem_append_right _ List.mem_cons_self)
      rw [← run_add] at feeds
      refine .above high ?_ feeds ⟨push', stack'⟩
      rw [helped_succ, if_neg (Nat.ne_of_gt high), List.append_nil]

/-- Where a wait stands after some turns. -/
structure Waits (m : Machine) (b : BatchId) (budget : Option Nat) (goal : Goal)
    (below : List Frame) (turns : Nat) : Prop where
  stack : ∃ push, (m.run turns).driver.frames =
    push ++ .waiting b (budget.map (· - (m.helped turns).length)) goal :: below
  spent : ∀ k, budget = some k → (m.helped turns).length ≤ k
  /-- Each job that the loop ran brought the last job of the batch nearer. -/
  nearer : (m.helped turns).length + (m.run turns).world.system.ahead b ≤ m.world.system.ahead b

theorem Waits.turned (waits : m.Waits b budget goal below turns)
    (turned : m.Turned b (budget.map (· - (m.helped turns).length)) goal below turns) :
    m.Waits b budget goal below (turns + 1) := by
  have nearer := waits.nearer
  cases turned with
  | above high same feeds stack =>
      refine ⟨by rw [same]; exact stack, by rw [same]; exact waits.spent, ?_⟩
      have closer := feeds.upTo_le
      rw [same]
      simp only [System.ahead] at nearer ⊢
      omega
  | @helps job rest front own left starts more line stack =>
      have one : (m.helped (turns + 1)).length = (m.helped turns).length + 1 := by
        rw [more, List.length_append]
        rfl
      refine ⟨?_, ?_, ?_⟩
      · rw [one]
        simp only [Option.map_map, Function.comp_def, Nat.sub_sub] at stack
        exact stack
      · rintro k rfl
        have spent := waits.spent k rfl
        have unspent : k - (m.helped turns).length ≠ 0 := fun zero =>
          left (congrArg some zero)
        omega
      · have closer := length_upTo_cons (b := b) job rest
        have positive := List.length_pos_iff.mpr own
        simp only [System.ahead, front, line] at nearer ⊢
        omega

theorem Solo.waits (solo : m.Solo) (top : m.driver.frames = .waiting b budget goal :: below)
    (free : ∀ job, .settle job b ∉ below) (alone : m.Alone turns)
    (inside : ∀ k ≤ turns, below.length < (m.run k).height) :
    m.Waits b budget goal below turns := by
  have level : m.height = below.length + 1 := congrArg List.length top
  induction turns with
  | zero =>
      refine ⟨⟨[], ?_⟩, fun k _ => Nat.zero_le k, ?_⟩
      · show m.driver.frames = _
        simpa [helped] using top
      · show _ + m.world.system.ahead b ≤ _
        simp [helped]
  | succ turns ih =>
      have waits := ih (alone.le (Nat.le_succ _)) fun k below => inside k (Nat.le_succ_of_le below)
      obtain ⟨push, stack⟩ := waits.stack
      exact waits.turned (solo.wait_turned level alone stack free (inside _ (Nat.le_refl _)))

/-- The loop alone takes jobs out of the line, so it took the first ones in order. -/
structure Orderly (m : Machine) (b : BatchId) (turns : Nat) : Prop where
  line : ∃ added, (m.run turns).world.system.line b =
      (m.world.system.line b).drop (m.helped turns).length ++ added ∧
    ∀ job ∈ added, job.batch ≠ some b
  helped : m.helped turns =
    ((m.world.system.line b).take (m.helped turns).length).map (·.id)

/-- The turns above the loop take no job out of the pool of the batch. -/
def LeavesQueues (m : Machine) (b : BatchId) (turns : Nat) : Prop :=
  ∀ k < turns, m.height < (m.run k).height →
    ∀ id ∈ ((m.run k).world.system.poolOf b).contents.map (·.id),
      id ∈ ((m.run (k + 1)).world.system.poolOf b).contents.map (·.id)

theorem Solo.waits_once (solo : m.Solo) {p : PoolId} {job : Job Work} {rest : List (Job Work)}
    (perm : (m.world.system.pool p).contents.Perm (job :: rest)) : job.id ∉ rest.map (·.id) := by
  intro again
  obtain ⟨other, again, same⟩ := List.mem_map.mp again
  have known := pool_known_of_mem (perm.mem_iff.mpr List.mem_cons_self)
  obtain ⟨others, whole, _⟩ := jobs_modifyPool id known
  have twice : 2 ≤ m.scene.waiting job.id := by
    rw [Scene.waiting, show m.scene.system.jobs.countP _ = _ from whole.countP_eq _,
      List.countP_append, perm.countP_eq, List.countP_cons]
    have positive : 0 < rest.countP (·.id = job.id) :=
      List.countP_pos_iff.mpr ⟨other, again, decide_eq_true same⟩
    simp only [decide_true, if_true]
    omega
  have once := solo.tallied.once job.id
  omega

theorem Solo.orderly (solo : m.Solo) (top : m.driver.frames = .waiting b budget goal :: below)
    (free : ∀ job, .settle job b ∉ below) (alone : m.Alone turns)
    (inside : ∀ k ≤ turns, below.length < (m.run k).height) (leaves : m.LeavesQueues b turns) :
    m.Orderly b turns := by
  have level : m.height = below.length + 1 := congrArg List.length top
  induction turns with
  | zero => exact ⟨⟨[], (List.append_nil _).symm, fun _ member => nomatch member⟩, rfl⟩
  | succ turns ih =>
      have alone' := alone.le (Nat.le_succ turns)
      have inside' : ∀ k ≤ turns, below.length < (m.run k).height :=
        fun k below => inside k (Nat.le_succ_of_le below)
      obtain ⟨⟨added, line, others⟩, helped⟩ :=
        ih alone' inside' fun k below => leaves k (Nat.lt_succ_of_lt below)
      obtain ⟨push, stack⟩ := (solo.waits top free alone' inside').stack
      cases solo.wait_turned level alone stack free (inside _ (Nat.le_refl _)) with
      | above high same feeds =>
          refine ⟨?_, by rw [same]; exact helped⟩
          rw [same]
          cases feeds with
          | @gains more line' others' =>
              refine ⟨added ++ more, by rw [line', line, List.append_assoc], ?_⟩
              intro job member
              rcases List.mem_append.mp member with old | new
              · exact others job old
              · exact others' job new
          | @loses job front gone =>
              have there : job ∈ ((m.run turns).world.system.poolOf b).contents :=
                gone.mem_iff.mpr List.mem_cons_self
              have kept := leaves turns (Nat.lt_succ_self _) high job.id
                (List.mem_map_of_mem there)
              exact absurd kept ((solo.after alone').waits_once gone)
      | @helps job rest front own _ _ more line' =>
          have one : (m.helped (turns + 1)).length = (m.helped turns).length + 1 := by
            rw [more, List.length_append]
            rfl
          have waiting : (m.world.system.line b).drop (m.helped turns).length ≠ [] := by
            intro none
            rw [← front, line, none, List.nil_append] at own
            exact own (upTo_eq_nil_iff.mpr others)
          obtain ⟨first, tail, split⟩ := List.exists_cons_of_ne_nil waiting
          rw [front, split, List.cons_append] at line
          obtain ⟨rfl, rest⟩ := List.cons.inj line
          have tail' : (m.world.system.line b).drop ((m.helped turns).length + 1) = tail := by
            rw [← List.tail_drop, split, List.tail_cons]
          refine ⟨⟨added, ?_, others⟩, ?_⟩
          · rw [line', rest, one, tail']
          · rw [one, List.take_add_one, List.map_append, ← helped, more,
              ← List.head?_drop, split]
            rfl

/-! ## From the first turn to the last -/

theorem Solo.below_calls (solo : m.Solo)
    (top : m.driver.frames = .waiting b budget goal :: below) :
    ∃ loans onFailure caught base, below = .call loans onFailure caught :: base := by
  have stacked := solo.sound.scene.custody.stacked
  rw [show m.scene.frames = _ from top] at stacked
  cases stacked.1 with
  | pause kind => simp [Frame.isPause] at kind
  | wait | tryWait | close => exact ⟨_, _, _, _, rfl⟩

/-- The last turn of a wait: the loop is on top of the stack, is over, and says what it found. -/
structure Ends (m : Machine) (b : BatchId) (budget : Option Nat) (goal : Goal) (below : List Frame)
    (turns : Nat) (outcome : Signal) : Prop where
  waits : m.Waits b budget goal below turns
  alone : m.Alone turns
  inside : ∀ k ≤ turns, below.length < (m.run k).height
  top : (m.run turns).driver.frames =
    .waiting b (budget.map (· - (m.helped turns).length)) goal :: below
  ended : (m.run turns).world.system.outstanding b = 0 ∨
    budget.map (· - (m.helped turns).length) = some 0
  told : ∀ told, outcome = .returned (.flag told) →
    told = decide ((m.run turns).world.system.outstanding b = 0)
  helped : m.helped (turns + 1) = m.helped turns

theorem Solo.wait_ends (solo : m.Solo) (top : m.driver.frames = .waiting b budget goal :: below)
    (free : ∀ job, .settle job b ∉ below) (comes : m.Comes below turns outcome) :
    ∃ before, turns = before + 1 ∧ m.Ends b budget goal below before outcome := by
  obtain ⟨before, rfl⟩ := Nat.exists_eq_add_one_of_ne_zero (Nat.ne_of_gt comes.begun)
  have inside : ∀ k ≤ before, below.length < (m.run k).height := by
    intro k early
    rcases Nat.eq_zero_or_pos k with rfl | positive
    · exact Nat.lt_of_lt_of_eq (Nat.lt_succ_self _) (congrArg List.length top).symm
    · exact comes.inside k positive (Nat.lt_succ_of_le early)
  have alone : m.Alone before := comes.alone.le (Nat.le_succ before)
  have waits := solo.waits top free alone inside
  have solo' := solo.after alone
  have back := comes.back
  rw [run_add] at back
  obtain ⟨push, stack⟩ := waits.stack
  rw [top_of_gone stack back, List.nil_append] at stack
  have ended : (m.run before).world.system.outstanding b = 0 ∨
      budget.map (· - (m.helped before).length) = some 0 := by
    by_contra going
    obtain ⟨unclear, left⟩ := not_or.mp going
    have own := (solo'.line_of_unclear stack free).mp unclear
    cases front : (m.run before).world.system.line b with
    | nil =>
        rw [front] at own
        exact absurd rfl own
    | cons job rest =>
        obtain ⟨task, p, _, started, _⟩ := solo'.loop_helps stack unclear left front
        have length := congrArg List.length (back.symm.trans started)
        simp only [List.length_cons, List.length_append] at length
        omega
  refine ⟨before, rfl, waits, alone, inside, stack, ended, ?_, ?_⟩
  · rintro told rfl
    obtain ⟨reply, ends, answer⟩ := solo'.loop_over stack ended
    have same := ends.outcome
    rw [← run_add, comes.outcome] at same
    exact answer told (Signal.returned.inj same).symm
  · obtain ⟨loans, onFailure, caught, base, rfl⟩ := solo.below_calls top
    have idle : (m.run (before + 1)).topJob? = .none := by
      rw [topJob?, comes.back]
    rw [helped_succ, idle]
    split <;> exact List.append_nil _

/-- A budget that reaches to the last job of the batch suffices. -/
theorem Solo.wait_suffices (solo : m.Solo)
    (free : ∀ job, .settle job b ∉ below)
    (ends : m.Ends b budget goal below turns outcome)
    (enough : ∀ k, budget = some k → m.world.system.ahead b ≤ k) :
    (m.run turns).world.system.outstanding b = 0 := by
  rcases ends.ended with clear | spent
  · exact clear
  · obtain ⟨k, rfl, zero⟩ := Option.map_eq_some_iff.mp spent
    have nearer := ends.waits.nearer
    have enough := enough k rfl
    have none : upTo b ((m.run turns).world.system.line b) = [] := by
      refine List.length_eq_zero_iff.mp ?_
      simp only [System.ahead] at nearer enough ⊢
      omega
    by_contra unclear
    exact (solo.after ends.alone).line_of_unclear ends.top free |>.mp unclear none

/-- If the loop alone takes jobs out of the queues, it stops as soon as the batch is finished. -/
theorem Solo.wait_exact (solo : m.Solo) (top : m.driver.frames = .waiting b budget goal :: below)
    (free : ∀ job, .settle job b ∉ below) (ends : m.Ends b budget goal below turns outcome)
    (leaves : m.LeavesQueues b turns) :
    m.helped turns = ((m.world.system.line b).take
      (min (budget.getD (m.world.system.ahead b)) (m.world.system.ahead b))).map (·.id) ∧
    ((m.run turns).world.system.outstanding b = 0 →
      m.world.system.ahead b ≤ (m.helped turns).length) := by
  obtain ⟨⟨added, line, others⟩, helped⟩ := solo.orderly top free ends.alone ends.inside leaves
  have last : (m.run turns).world.system.outstanding b = 0 →
      m.world.system.ahead b ≤ (m.helped turns).length := by
    intro clear
    have none : upTo b ((m.run turns).world.system.line b) = [] := by
      by_contra some'
      exact ((solo.after ends.alone).line_of_unclear ends.top free).mpr some' clear
    rw [line, upTo_append others, upTo_eq_nil_iff] at none
    have split : upTo b ((m.world.system.line b).take (m.helped turns).length ++
        (m.world.system.line b).drop (m.helped turns).length) =
          upTo b ((m.world.system.line b).take (m.helped turns).length) := upTo_append none
    rw [List.take_append_drop] at split
    rw [System.ahead, split]
    refine Nat.le_trans (upTo_starts b _).length_le ?_
    rw [List.length_take]
    exact Nat.min_le_left _ _
  refine ⟨?_, last⟩
  have count : (m.helped turns).length =
      min (budget.getD (m.world.system.ahead b)) (m.world.system.ahead b) := by
    have nearer := ends.waits.nearer
    cases budget with
    | none =>
        have reached := last (ends.ended.resolve_right nofun)
        simp only [Option.getD_none, Nat.min_self]
        omega
    | some k =>
        have spent := ends.waits.spent k rfl
        simp only [Option.getD_some]
        rcases ends.ended with clear | used
        · have reached := last clear
          omega
        · have zero : k - (m.helped turns).length = 0 := Option.some.inj used
          omega
  rw [← count]
  exact helped

/-- Waiting never idles, never starves and ends. The loop of a wait starts no more jobs than stand
in the line up to the last job of the batch, whatever those jobs submit, and whenever it finds the
batch unfinished it finds a job. It comes back if every task body ends, and it never reports a batch
as unfinished if its budget reaches to that last job. When the tasks that run in between leave the
queues of the pool to the loop, it runs exactly the jobs up to the last one of the batch, as many as
its budget allows and in their order. -/
theorem Solo.wait_progress (solo : m.Solo)
    (top : m.driver.frames = .waiting b budget goal :: below)
    (free : ∀ job, .settle job b ∉ below) :
    (∀ turns, m.Alone turns → (∀ k ≤ turns, below.length < (m.run k).height) →
      (m.helped turns).length ≤ m.world.system.ahead b ∧
      ((m.run turns).height = m.height →
        ∃ left, (m.run turns).driver.frames = .waiting b left goal :: below ∧
          ((m.run turns).world.system.outstanding b ≠ 0 → left ≠ some 0 →
            ∃ job rest, (m.run turns).world.system.line b = job :: rest ∧
              (m.run (turns + 1)).topJob? = some job.id))) ∧
    ((∀ k, (m.run k).others = []) → m.BodiesEnd →
      ∃ turns reply, m.Comes below turns (.returned reply)) ∧
    ∀ turns outcome, m.Comes below turns outcome →
      (∀ k, budget = some k → m.world.system.ahead b ≤ k → outcome ≠ .returned (.flag false)) ∧
      (m.LeavesQueues b turns →
        m.helped turns = ((m.world.system.line b).take
          (min (budget.getD (m.world.system.ahead b)) (m.world.system.ahead b))).map (·.id) ∧
        ∀ k, budget = some k → k < m.world.system.ahead b →
          outcome ≠ .returned (.flag true)) := by
  have level : m.height = below.length + 1 := congrArg List.length top
  refine ⟨fun turns alone inside => ?_, fun alone ends => solo.wait_comes alone ends top free,
    fun turns outcome comes => ?_⟩
  · have waits := solo.waits top free alone inside
    refine ⟨Nat.le_trans (Nat.le_add_right _ _) waits.nearer, fun low => ?_⟩
    obtain ⟨push, stack⟩ := waits.stack
    have none : push = [] := by
      rw [level, height, stack, List.length_append, List.length_cons] at low
      exact List.length_eq_zero_iff.mp (by omega)
    rw [none, List.nil_append] at stack
    refine ⟨_, stack, fun unclear budget => ?_⟩
    cases solo.loop_turned level alone stack free unclear budget with
    | above high => exact absurd low (Nat.ne_of_gt high)
    | helps front _ _ starts => exact ⟨_, _, front, starts⟩
  · obtain ⟨before, rfl, ends⟩ := solo.wait_ends top free comes
    constructor
    · rintro k rfl enough rfl
      have clear := solo.wait_suffices free ends fun _ same => Option.some.inj same ▸ enough
      exact absurd (ends.told false rfl) (by simp [clear])
    · intro leaves
      obtain ⟨exact', last⟩ := solo.wait_exact top free ends
        fun k early => leaves k (Nat.lt_succ_of_lt early)
      refine ⟨ends.helped.trans exact', ?_⟩
      rintro k rfl short rfl
      have clear := of_decide_eq_true (ends.told true rfl).symm
      have spent := ends.waits.spent k rfl
      have reached := last clear
      omega

/-- A job of somebody else, which submits one more, stands in front of the job of a batch; one more
stands behind it. -/
def crowded : List Op :=
  [.pool (.given "p") .missing .missing .missing .missing,
    .batch (.given "s") (.given "p") .missing (.given false),
    .schedule (.given "p") (.given (.own "ahead"
      [.schedule (.given "p") (.given (.own "more" [])) (.given .forced) .missing]))
      (.given .forced) .missing,
    .schedule (.given "s") (.given (.own "own" [])) (.given .forced) .missing,
    .schedule (.given "p") (.given (.own "behind" [])) (.given .forced) .missing,
    .tryWait (.given "s") (.given 2) .report]

/-- The wait runs the job in front and the job of the batch, and leaves the two others. -/
theorem crowded_runs_two :
    let waiting := (Machine.load [] .plain crowded).run 16
    let below := waiting.driver.frames.tail
    waiting.Solo ∧ waiting.driver.frames = .waiting ⟨0⟩ (some 2) .tryWait :: below ∧
      (∀ job, .settle job ⟨0⟩ ∉ below) ∧ waiting.Alone 11 ∧ waiting.BodiesEnd ∧
      waiting.Comes below 11 (.returned (.flag true)) ∧ waiting.LeavesQueues ⟨0⟩ 11 ∧
      waiting.world.system.ahead ⟨0⟩ = 2 ∧ (waiting.helped 6).length ≤ 2 ∧
      (∃ job rest, (waiting.run 6).world.system.line ⟨0⟩ = job :: rest ∧
        (waiting.run 7).topJob? = some job.id) ∧
      (∃ turns reply, waiting.Comes below turns (.returned reply)) ∧
      waiting.helped 11 = [⟨0⟩, ⟨1⟩] := by
  intro waiting below
  have solo : waiting.Solo := (Solo.load [] .plain crowded).run 16 (by decide)
  have top : waiting.driver.frames = .waiting ⟨0⟩ (some 2) .tryWait :: below := rfl
  have free : ∀ job, .settle job ⟨0⟩ ∉ below := by
    intro job member
    have none : below.all (!·.isSettle) = true := by decide
    exact absurd (List.all_eq_true.mp none _ member) (by simp [Frame.isSettle])
  have alone : ∀ k ≤ 27, (waiting.run k).others.isEmpty = true := by decide
  have alone : waiting.Alone 27 := fun k below => List.isEmpty_iff.mp (alone k below)
  have inside : ∀ k < 11, below.length < (waiting.run k).height := by decide
  have comes : waiting.Comes below 11 (.returned (.flag true)) :=
    { begun := by decide
      alone := alone.le (by decide)
      back := rfl
      inside := fun k _ early => inside k early
      outcome := rfl }
  have leaves : waiting.LeavesQueues ⟨0⟩ 11 := by
    unfold LeavesQueues
    decide
  have finished : (waiting.run 27).driver.frames = [] := List.isEmpty_iff.mp (by decide)
  have ends := bodiesEnd_of_finished finished
  obtain ⟨going, returns, returned⟩ := Solo.wait_progress solo top free
  obtain ⟨few, finds⟩ := going 6 (alone.le (by decide)) fun k early => inside k (by omega)
  obtain ⟨left, there, finds⟩ := finds (by decide)
  have unclear : (waiting.run 6).world.system.outstanding ⟨0⟩ ≠ 0 := by decide
  obtain ⟨_, exact⟩ := returned 11 _ comes
  have ran := (exact leaves).1
  refine ⟨solo, top, free, alone.le (by decide), ends, comes, leaves, by decide, few,
    finds unclear ?_, returns (alone.forever finished) ends, ran⟩
  rintro rfl
  cases there

end Machine

end TaskPool
