import TaskPool.Proofs.JobConservation
import TaskPool.Proofs.OutstandingCount

/-!
# A wait is a full barrier

When the count of a batch is zero, none of its wrapped jobs waits or runs. A job that the batch had
run at once was never counted, but the operation that runs it shares the batch, and nobody shares a
batch that is waited for or closing. So at the end of a wait every task of the batch is over.
-/

namespace TaskPool

open TaskPool.System

namespace Scene

variable {σ σ' : Scene} {b : BatchId} {job : JobId} {batch : Option BatchId} {route : Route}
  {budget : Option Nat} {goal : Goal} {below : List Frame}

/-- The job was submitted to the batch, through whichever entry point, and however it was run. -/
def BelongsTo (b : BatchId) (batch : Option BatchId) (route : Route) : Prop :=
  batch = some b ∨ route = .inlineByBatch b

theorem unshared_of_waiting (sound : σ.Sound)
    (top : σ.frames = .waiting b budget goal :: below) (frame : Frame) (member : frame ∈ σ.frames) :
    ¬ frame.Shares b := by
  intro shares
  have registry := sound.registry
  have custody := sound.custody
  cases frame with
  | call loans onFailure caught =>
      obtain ⟨lent, live⟩ := held_nameable registry custody member _ shares
      by_cases asked : goal = .close
      · subst asked
        have closing : σ.system.Closing (.batch b) := dropped custody top
        exact not_closing live closing
      · exact custody.exclusive (.batch b) (awaited registry custody top asked).1 lent
  | _ => cases shares

/-- A wrapped task that is not over is outstanding. -/
theorem outstanding_of_pending (sound : σ.Sound) (tallied : σ.Tallied)
    (guarded : Guarded σ.system σ.history σ.frames) (balanced : σ.Balanced)
    (logged : .submitted job (some b) route ∈ σ.history) (pending : ¬ σ.IsOver job) :
    0 < σ.system.outstanding b := by
  obtain ⟨fate, meets, _⟩ := fate_of_tallied sound tallied logged
  cases fate with
  | waits =>
      obtain ⟨_, _, _, waits⟩ := meets
      obtain ⟨_, _, _, _, inside, _, wrapped, _⟩ :=
        waits_of_waiting sound tallied logged (Nat.lt_of_lt_of_eq Nat.one_pos waits.once.symm)
      exact balanced.awaits inside wrapped
  | runs =>
      obtain ⟨above, body, below, split, _, guard⟩ := guard_of_running guarded
        (Nat.lt_of_lt_of_eq Nat.one_pos meets.once.symm)
      obtain ⟨logged'⟩ := guard
      obtain ⟨rfl, _⟩ := tallied.submitted_once logged' logged
      exact balanced.counted (show .settle job b ∈ σ.frames by simp [split])
  | finished => exact absurd meets pending

/-- When nothing of a batch is outstanding and nobody shares it, all its tasks are over. -/
theorem over_of_clear (sound : σ.Sound) (tallied : σ.Tallied)
    (guarded : Guarded σ.system σ.history σ.frames) (balanced : σ.Balanced)
    (clear : σ.system.outstanding b = 0) (unshared : ∀ frame ∈ σ.frames, ¬ frame.Shares b)
    (logged : .submitted job batch route ∈ σ.history) (own : BelongsTo b batch route) :
    σ.IsOver job := by
  by_contra pending
  rcases own with rfl | rfl
  · exact absurd clear
      (Nat.ne_of_gt (outstanding_of_pending sound tallied guarded balanced logged pending))
  · obtain ⟨fate, meets, _⟩ := fate_of_tallied sound tallied logged
    cases fate with
    | waits =>
        obtain ⟨_, _, queued, _⟩ := meets
        cases queued
    | runs =>
        obtain ⟨above, body, _, split, _, guard⟩ := guard_of_running guarded
          (Nat.lt_of_lt_of_eq Nat.one_pos meets.once.symm)
        obtain @⟨batch', route', runner, rest, logged', _, _, shared⟩ := guard
        obtain ⟨rfl, rfl⟩ := tallied.submitted_once logged' logged
        obtain ⟨_, frame, member, shares⟩ := shared b rfl
        refine unshared frame ?_ shares
        rw [split]
        exact List.mem_append_right _ (List.mem_cons_of_mem _ (List.mem_append_right _ member))
    | finished => exact pending meets

theorem IsOver.steady (finished : σ.IsOver job) (steady : σ.system.Steady σ'.system)
    (roles : roles σ'.frames = roles σ.frames) (record : marks σ'.history = marks σ.history) :
    σ'.IsOver job := by
  obtain ⟨taken, still, started, ended⟩ := finished
  simp only [waiting, running, times] at taken still started ended
  constructor <;> simp only [waiting, running, times, steady.jobs.countP_eq, roles, record]
  · exact taken
  · exact still
  · exact started
  · exact ended

/-- A wait without a budget is over only when the barrier is clear. -/
theorem clear_of_over (custody : Custody σ) (top : σ.frames = .waiting b budget goal :: below)
    (finished : σ.WaitIsOver b budget) (unlimited : goal ≠ .tryWait) :
    σ.system.outstanding b = 0 := by
  have stacked := custody.stacked
  rw [top] at stacked
  obtain ⟨fits, _⟩ := stacked
  have clear : budget = none → (σ.system.batch b).barrier.isClear = true := by
    rintro rfl
    rcases finished with clear | spent | ⟨wrong, _⟩
    · exact clear
    · cases spent
    · exact absurd rfl wrong
  refine Barrier.isClear_iff.mp (clear ?_)
  cases fits with
  | pause kind => simp [Frame.isPause] at kind
  | wait | close => rfl
  | tryWait => exact absurd rfl unlimited

end Scene

namespace Machine

variable {m next : Machine} {b : BatchId} {goal : Goal} {reply : Reply}

/-- A wait is a full barrier. When a wait on a batch returns, when an attempt finds the barrier
clear, and when the last wait of a drop is over, nothing of the batch is outstanding and every task
that was ever submitted to it has run once. What an attempt tells is whether anything is
outstanding. -/
theorem Solo.wait_is_barrier (solo : m.Solo) (returns : m.Returns next b goal reply) :
    (goal ≠ .tryWait ∨ reply = .flag true →
      next.world.system.outstanding b = 0 ∧
        ∀ job batch route, .submitted job batch route ∈ next.history →
          Scene.BelongsTo b batch route → next.scene.IsOver job) ∧
      ∀ told, reply = .flag told → told = decide (next.world.system.outstanding b = 0) := by
  obtain ⟨budget, top⟩ := returns.top
  have sound := solo.sound.scene
  obtain ⟨finished, outcome⟩ := (returns.moves solo).wait_returns top
  have steady : m.scene.system.Steady next.scene.system := by
    rcases outcome with ⟨_, system, _⟩ | ⟨_, system, _⟩ <;> rw [system]
    · exact .deliver
    · exact .closeBatch
  obtain ⟨events, history, quiet⟩ :
      ∃ events, next.history = m.history ++ events ∧ marks events = [] := by
    rcases outcome with ⟨_, _, _, history⟩ | ⟨_, _, _, history⟩
    · exact ⟨_, history, rfl⟩
    · exact ⟨_, history, Scene.marks_notices _⟩
  have owed : next.world.system.outstanding b = m.world.system.outstanding b := steady.owed b
  have told : ∀ told, reply = .flag told →
      told = decide (next.world.system.outstanding b = 0) := by
    rintro told rfl
    rcases outcome with ⟨_, _, signal, _⟩ | ⟨_, _, signal, _⟩
    · rw [owed]
      exact (Goal.answer_flag (Signal.returned.inj (signal.symm.trans returns.signal))).1
    · cases signal.symm.trans returns.signal
  refine ⟨fun ending => ?_, told⟩
  have clear : next.world.system.outstanding b = 0 := by
    rcases ending with unlimited | rfl
    · rw [owed]
      exact Scene.clear_of_over sound.custody top finished unlimited
    · exact of_decide_eq_true (told true rfl).symm
  refine ⟨clear, fun job batch route logged own => ?_⟩
  have before : .submitted job batch route ∈ m.history := by
    rw [history] at logged
    rcases List.mem_append.mp logged with before | wrong
    · exact before
    · have marked : Mark.submits job ∈ marks events := List.mem_filterMap.mpr ⟨_, wrong, rfl⟩
      rw [quiet] at marked
      cases marked
  refine (Scene.over_of_clear sound solo.tallied solo.guarded solo.balanced (owed ▸ clear)
    (Scene.unshared_of_waiting sound top) before own).steady steady ?_ ?_
  · exact (congrArg roles top).symm
  · rw [show next.scene.history = _ from history]
    exact Scene.marks_quiet quiet

/-- When the wait returns, both tasks have run. -/
theorem nested_wait_is_barrier :
    let waiting := (Machine.load [] .plain nested).run 35
    let waited := (Machine.load [] .plain nested).run 36
    let failure := Failure.ofPayload (.fixedText "inner")
    waiting.Solo ∧ waiting.Returns waited ⟨0⟩ .wait (.failed failure) ∧
      waited.world.system.outstanding ⟨0⟩ = 0 ∧
      waited.scene.IsOver ⟨0⟩ ∧ waited.scene.IsOver ⟨1⟩ := by
  intro waiting waited failure
  have solo : waiting.Solo := (Solo.load [] .plain nested).run 35 (by decide)
  have returns : waiting.Returns waited ⟨0⟩ .wait (.failed failure) := ⟨rfl, rfl, ⟨_, rfl⟩, rfl⟩
  obtain ⟨clear, finished⟩ := (Solo.wait_is_barrier solo returns).1 (.inl (by simp))
  have outer : .submitted ⟨0⟩ (some ⟨0⟩) (.queued ⟨0⟩ (.lane ⟨0⟩)) ∈ waited.history :=
    List.mem_of_getElem? (i := 5) rfl
  have inner : .submitted ⟨1⟩ (some ⟨0⟩) (.queued ⟨0⟩ (.lane ⟨0⟩)) ∈ waited.history :=
    List.mem_of_getElem? (i := 10) rfl
  exact ⟨solo, returns, clear, finished _ _ _ outer (.inl rfl), finished _ _ _ inner (.inl rfl)⟩

end Machine

end TaskPool
