import TaskPool.Proofs.JobConservation
import TaskPool.Proofs.Spans

/-!
# Where the panic of a queued job stops

A job that was taken from a queue stands, with the report to its batch in between if it has one, on
the pool that answers for it, and the pool stands on what asked it for a job. A job that was never
queued stands on the operation that submitted it. So the panic of a queued job gets to the pool at
most, and whatever asks pools for jobs returns.
-/

namespace TaskPool

open TaskPool.System

/-! ## What running jobs stand on -/

/-- What the body of a job stands on, by the way in which the job came to run. -/
inductive Ground (history : List Event) (job : JobId) : List Frame → Prop where
  | operation {batch route loans onFailure caught below}
      (logged : .submitted job batch route ∈ history) (now : route.runsNow = true) :
      Ground history job (batch.toList.map (.settle job) ++ .call loans onFailure caught :: below)
  | pool {batch p inlet q host below}
      (logged : .submitted job batch (.queued p inlet) ∈ history) (on : host.isHost = true) :
      Ground history job (batch.toList.map (.settle job) ++ .contain job q :: host :: below)

/-- Every running job of a stack stands on what its submission says. -/
def Grounded (history : List Event) (frames : List Frame) : Prop :=
  ∀ job label next rest onBatch below,
    (.body job label next rest onBatch :: below) <:+ frames → Ground history job below

section

variable {history history' : List Event} {job : JobId} {frame frame' : Frame}
  {below frames : List Frame}

theorem Ground.mono (ground : Ground history job below) (more : history ⊆ history') :
    Ground history' job below := by
  cases ground with
  | operation logged now => exact .operation (more logged) now
  | pool logged on => exact .pool (more logged) on

namespace Grounded

theorem mono (grounded : Grounded history frames) (more : history ⊆ history') :
    Grounded history' frames :=
  fun job label next rest onBatch below within =>
    (grounded job label next rest onBatch below within).mono more

theorem tail (grounded : Grounded history (frame :: below)) : Grounded history below :=
  fun job label next rest onBatch under within =>
    grounded job label next rest onBatch under (within.trans (List.suffix_cons _ _))

theorem cons (grounded : Grounded history below)
    (other : ∀ job label next rest onBatch, frame ≠ .body job label next rest onBatch) :
    Grounded history (frame :: below) := by
  intro job label next rest onBatch under within
  rcases List.suffix_cons_iff.mp within with same | inside
  · exact absurd (List.cons.inj same).1.symm (other _ _ _ _ _)
  · exact grounded job label next rest onBatch under inside

theorem body {label : String} {next : Nat} {rest : List Op} {onBatch : Option String}
    (grounded : Grounded history below) (ground : Ground history job below) :
    Grounded history (.body job label next rest onBatch :: below) := by
  intro other label' next' rest' onBatch' under within
  rcases List.suffix_cons_iff.mp within with same | inside
  · cases same
    exact ground
  · exact grounded other label' next' rest' onBatch' under inside

theorem continues (grounded : Grounded history (frame :: below)) (on : frame.Continues frame') :
    Grounded history (frame' :: below) := by
  cases on with
  | program | cleanup => exact grounded.tail.cons (by simp)
  | body => exact grounded.tail.body (grounded _ _ _ _ _ _ (List.suffix_refl _))

theorem task {task : Task} (grounded : Grounded history below)
    (ground : Ground history task.id (task.batch.toList.map (.settle task.id) ++ below)) :
    Grounded history (task.frames ++ below) := by
  refine body ?_ ground
  cases task.batch with
  | none => exact grounded
  | some b => exact grounded.cons (by simp)

end Grounded

end

namespace Scene

variable {σ σ' : Scene} {opening : Opening}

theorem ground_of_taken {source : Source} {task : Task} {system : System Work}
    (filed : Filed σ.system σ.history)
    (taken : σ.system.take source = some (task.job, system)) {host : Frame}
    (on : host.isHost = true) {below : List Frame} (grounded : Grounded σ.history (host :: below))
    (p : PoolId) :
    Grounded (σ.history ++ [task.started])
      (task.frames ++ .contain task.id p :: host :: below) := by
  obtain ⟨_, _, _, logged⟩ := filed.reached taken
  have kept := grounded.mono (List.subset_append_left σ.history [task.started])
  exact (kept.cons (by simp)).task (.pool (List.mem_append_left _ logged) on)

theorem Opens.grounded (opens : σ.Opens opening) (sound : σ.Sound) {frame : Frame}
    {below : List Frame} {onFailure : OnFailure} {caught : Bool}
    (grounded : Grounded σ.history (frame :: below)) :
    Grounded (σ.history ++ opening.events)
      (opening.push ++ .call opening.loans onFailure caught :: frame :: below) := by
  have called : ∀ loans, Grounded σ.history (.call loans onFailure caught :: frame :: below) :=
    fun loans => grounded.cons (by simp)
  have kept : ∀ loans, Grounded (σ.history ++ opening.events)
      (.call loans onFailure caught :: frame :: below) :=
    fun loans => (called loans).mono (List.subset_append_left _ _)
  cases opens with
  | rests | startsPool | issuesToken | makesBatch | dropsToken | queues => exact kept _
  | waits | triesToWait | dropsBatch | dropsPool | sweeps => exact (kept _).cons (by simp)
  | @pauses _ pause _ kind =>
      refine (kept _).cons ?_
      rintro job label next rest onBatch rfl
      cases kind
  | runsInline lent submits job now =>
      exact (kept _).task (.operation (List.mem_append_right _ (by simp)) now)
  | executes lent taken =>
      simp only [List.append_assoc]
      exact ground_of_taken sound.filed taken rfl ((called _).cons (by simp)) _

theorem Moves.grounded (moves : σ.Moves σ') (sound : σ.Sound)
    (grounded : Grounded σ.history σ.frames) : Grounded σ'.history σ'.frames := by
  cases moves with
  | advances top on =>
      rw [top] at grounded
      exact (grounded.continues on).mono (List.subset_append_left _ _)
  | opens top on opens =>
      rw [top] at grounded
      exact opens.grounded sound (grounded.continues on)
  | leaves top | passes top | finishes top | sweepEnds top =>
      rw [top] at grounded
      exact grounded.tail
  | ends top | unwinds top | settles top | contains top | delivers top | closesBatch top
  | closesPool top =>
      rw [top] at grounded
      exact grounded.tail.mono (List.subset_append_left _ _)
  | sweeps top _ taken =>
      rw [top] at grounded
      exact ground_of_taken sound.filed taken rfl (grounded.tail.cons (by simp)) _
  | helps top _ _ taken =>
      rw [top] at grounded
      exact ground_of_taken sound.filed taken rfl (grounded.tail.cons (by simp)) _
  | drains top taken =>
      rw [top] at grounded
      exact ground_of_taken sound.filed taken rfl (grounded.tail.cons (by simp)) _

end Scene

theorem Machine.Solo.grounded {m : Machine} (solo : m.Solo) :
    Grounded m.history m.driver.frames := by
  let holds : Scene → Prop := fun σ => Grounded σ.history σ.frames
  have start : ∀ bodies host ops, holds (Machine.load bodies host ops).scene := by
    intro bodies host ops
    have empty : Grounded [] [] := fun _ _ _ _ _ _ within => absurd within (by simp)
    exact (empty.cons (by simp)).cons (by simp)
  exact solo.invariant start fun sound grounded moves => moves.grounded sound grounded

/-! ## What asks for jobs -/

/-- What asks for jobs goes away with a reply, or stays on the stack below the job that it runs. -/
inductive Turn.Hosts (turn : Turn) : Prop where
  | replies {reply} (push : turn.push = []) (signal : turn.signal = .returned reply)
  | stays {above host} (push : turn.push = above ++ [host]) (on : host.isHost = true)

namespace Frame

variable {ctx : Context} {w : World} {turn : Turn}

theorem finishWaiting_hosts (b : BatchId) (goal : Goal) : (finishWaiting b goal w).Hosts := by
  by_cases asked : goal = .close
  · subst asked
    exact .replies rfl rfl
  · rw [finishWaiting_eq asked]
    exact .replies rfl rfl

/-- What asks for jobs, and is not told of a panic, makes none of its own. -/
theorem Resumed.hosts {frame : Frame} {signal : Signal} (resumed : frame.Resumed ctx w signal turn)
    (on : frame.isHost = true) (calm : signal.panic? = none) : turn.Hosts := by
  cases resumed with
  | sweeps | helps | drains => exact .stays rfl rfl
  | sweepEnds | closesPool => exact .replies rfl rfl
  | waitEnds => exact finishWaiting_hosts ..
  | breaks => cases calm
  | passes _ _ _ push _ outcome =>
      obtain ⟨reply, told⟩ := outcome
      exact .replies push told
  | performs proceeds | notes proceeds => cases on.symm.trans proceeds.isHost
  | handsOver last => rcases last with rfl | ⟨_, rfl⟩ <;> cases on
  | finishes | ends | unwinds | leaves | settles | contains | works | fallsAsleep | retires
  | comesBack => cases on

end Frame

namespace Machine

variable {m : Machine} {turns : Nat} {above base : List Frame} {host : Frame} {outcome : Signal}

theorem Solo.resumed (solo : m.Solo) {frame : Frame} {below : List Frame}
    (top : m.driver.frames = frame :: below) :
    (m.run 1).driver.frames = frame :: below ∨
      ∃ ctx turn, frame.resume ctx m.world m.driver.signal = some turn ∧
        (m.run 1).driver.frames = turn.push ++ below ∧ (m.run 1).driver.signal = turn.signal := by
  cases taken : frame.resume
      { thread := m.driver.id, batches := Frame.batchNames (frame :: below) } m.world
      m.driver.signal with
  | some turn =>
      right
      refine ⟨_, turn, taken, ?_⟩
      rw [run_one (step_of_resume top taken)]
      exact ⟨rfl, rfl⟩
  | none =>
      left
      have blocked : m.driver.step m.world = none := by
        simp only [Thread.step, top, taken, Option.map_none]
      cases stepped : m.step with
      | none =>
          rw [run_stuck stepped]
          exact top
      | some next =>
          rw [run_one stepped]
          simp only [step, top, List.isEmpty_cons, Bool.false_eq_true, if_false, blocked,
            solo.others, stepFirst, passTime, Option.map_eq_some_iff] at stepped
          obtain ⟨clock, _, rfl⟩ := stepped
          exact top

theorem Solo.host_turn (solo : m.Solo) (top : m.driver.frames = host :: base)
    (on : host.isHost = true) :
    (∃ above host', (m.run 1).driver.frames = above ++ host' :: base ∧ host'.isHost = true) ∨
      ((m.run 1).driver.frames = base ∧ ∃ reply, (m.run 1).driver.signal = .returned reply) := by
  rcases solo.resumed top with same | ⟨ctx, turn, taken, frames, signal⟩
  · exact .inl ⟨[], host, same, on⟩
  · have calm : m.driver.signal.panic? = none := by
      have kept : Calm m.driver.frames m.driver.signal := solo.sound.scene.custody.calm
      rw [top] at kept
      cases told : m.driver.signal with
      | raised =>
          rw [told] at kept
          exact Bool.noConfusion (on.symm.trans kept)
      | proceed | returned => rfl
    cases (Frame.resumed taken).hosts on calm with
    | @replies reply push signal' =>
        exact .inr ⟨by rw [frames, push]; rfl, reply, signal.trans signal'⟩
    | @stays above host' push on' =>
        exact .inl ⟨above, host', by rw [frames, push, List.append_assoc]; rfl, on'⟩

/-- Until the stack has come down below it, what asks for jobs stays on the stack; then it has
replied. -/
theorem Solo.host_stays (solo : m.Solo) (alone : m.Alone turns)
    (stack : m.driver.frames = above ++ host :: base) (on : host.isHost = true)
    (higher : ∀ k < turns, base.length < (m.run k).height) :
    (∃ above host', (m.run turns).driver.frames = above ++ host' :: base ∧ host'.isHost = true) ∨
      ((m.run turns).driver.frames = base ∧
        ∃ reply, (m.run turns).driver.signal = .returned reply) := by
  induction turns with
  | zero => exact .inl ⟨above, host, stack, on⟩
  | succ turns ih =>
      have before := alone.le (Nat.le_succ turns)
      have solo' : (m.run turns).Solo := solo.after before
      rcases ih before fun k below => higher k (Nat.lt_succ_of_lt below) with
        ⟨above, host', there, on'⟩ | ⟨low, _⟩
      · rw [run_add]
        cases above with
        | nil => exact solo'.host_turn there on'
        | cons frame above =>
            left
            have still : (m.run turns).Alone 1 := alone.later
            rcases solo'.turned still with same | moves
            · exact ⟨frame :: above, host', (congrArg Scene.frames same).trans there, on'⟩
            · obtain ⟨more, after⟩ := moves.keeps_below there
              exact ⟨more ++ above, host', after.trans (List.append_assoc ..).symm, on'⟩
      · have high := higher turns (Nat.lt_succ_self _)
        rw [height, low] at high
        exact absurd high (Nat.lt_irrefl _)

/-- What asks for jobs returns if it comes back at all, whatever the jobs do. -/
theorem Solo.host_returns (solo : m.Solo) (stack : m.driver.frames = above ++ host :: base)
    (on : host.isHost = true) (comes : m.Comes base turns outcome) :
    ∃ reply, outcome = .returned reply := by
  have higher : ∀ k < turns, base.length < (m.run k).height := by
    intro k below
    cases k with
    | zero =>
        show base.length < m.driver.frames.length
        rw [stack]
        simp only [List.length_append, List.length_cons]
        omega
    | succ k => exact comes.inside (k + 1) (Nat.succ_pos k) below
  rcases solo.host_stays comes.alone stack on higher with ⟨above, host', there, _⟩ | ⟨_, reply, told⟩
  · have length := congrArg List.length (comes.back.symm.trans there)
    simp only [List.length_append, List.length_cons] at length
    omega
  · exact ⟨reply, comes.outcome.symm.trans told⟩

/-- The body of a queued job stands on the pool that was asked for it, and the pool on what asked.
-/
theorem Solo.queued_on_pool (solo : m.Solo) {job : JobId} {batch : Option BatchId} {p : PoolId}
    {inlet : Inlet} (logged : .submitted job batch (.queued p inlet) ∈ m.history)
    {label : String} {next : Nat} {rest : List Op} {onBatch : Option String} {below : List Frame}
    (stack : m.driver.frames = above ++ .body job label next rest onBatch :: below) :
    ∃ q host under, below = batch.toList.map (.settle job) ++ .contain job q :: host :: under ∧
      host.isHost = true := by
  have within : (.body job label next rest onBatch :: below) <:+ m.driver.frames :=
    ⟨above, stack.symm⟩
  cases solo.grounded _ _ _ _ _ _ within with
  | operation logged' now =>
      obtain ⟨_, rfl⟩ := solo.tallied.submitted_once logged logged'
      cases now
  | pool logged' on =>
      obtain ⟨rfl, _⟩ := solo.tallied.submitted_once logged logged'
      exact ⟨_, _, _, rfl, on⟩

end Machine

end TaskPool
