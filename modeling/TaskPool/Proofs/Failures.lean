import TaskPool.Proofs.CaughtPanics

/-!
# What becomes of failures

A failure that is reported to a batch is pending until a wait delivers it or the batch is closed,
and a failure that is reported while another one is pending is discarded. So the log and the replies
of the waits together account for every panic of the wrapped tasks of a batch.
-/

namespace TaskPool

open TaskPool.System

namespace Barrier

variable {barrier : Barrier}

theorem pending_settle (payload : Payload) : (barrier.settle (some payload)).pending =
    if barrier.claimed then barrier.pending else some (Failure.ofPayload payload) := by
  cases claimed : barrier.claimed <;> simp [settle, keepFirst, claim, fill, retire, claimed]

theorem claimed_settle (payload : Payload) :
    (barrier.settle (some payload)).claimed = true := by
  cases claimed : barrier.claimed <;> simp [settle, keepFirst, claim, fill, retire, claimed]

end Barrier

theorem System.settle_notices (s : System Work) (b : BatchId) (job : JobId) (payload : Payload) :
    (s.settle b job (some payload)).2 = .taskPanicked b job (s.poolOf b).name ::
      if (s.batch b).barrier.claimed then
        [.failureDiscarded b (s.poolOf b).name (Failure.ofPayload payload)]
      else [] := by
  cases claimed : (s.batch b).barrier.claimed <;> simp [settle, claimed]

namespace Scene

variable {σ σ' : Scene} {b : BatchId} {events : List Event}

def pendings (s : System Work) (b : BatchId) : Nat :=
  if (s.batch b).barrier.pending.isSome then 1 else 0

/-- The failures that were reported to a batch, by what became of them. -/
structure Disposed (σ : Scene) (b : BatchId) : Prop where
  tally : ((Catcher.batch b).reported σ.history).length =
    σ.history.countP (Event.delivers b) + σ.history.countP (Event.discards b) +
      σ.history.countP (Event.abandons b) + pendings σ.system b
  /-- While a failure is pending, no other one gets its place. -/
  claimed : (σ.system.batch b).barrier.pending.isSome = true →
    (σ.system.batch b).barrier.claimed = true

/-- Events that tell of no panic and no failure of the batch. -/
structure Quiet (b : BatchId) (events : List Event) : Prop where
  reported : (Catcher.batch b).reported events = []
  delivered : events.countP (Event.delivers b) = 0
  discarded : events.countP (Event.discards b) = 0
  abandoned : events.countP (Event.abandons b) = 0

theorem quiet_of_forall (quiet : ∀ event ∈ events, (Catcher.batch b).reports event = none ∧
    event.delivers b = false ∧ event.discards b = false ∧ event.abandons b = false) :
    Quiet b events where
  reported := List.filterMap_eq_nil_iff.mpr fun event member => (quiet event member).1
  delivered := List.countP_eq_zero.mpr fun event member => by simp [(quiet event member).2.1]
  discarded := List.countP_eq_zero.mpr fun event member => by simp [(quiet event member).2.2.1]
  abandoned := List.countP_eq_zero.mpr fun event member => by simp [(quiet event member).2.2.2]

theorem quiet_of_harmless (harmless : ∀ event ∈ events, event.isHarmless = true) :
    Quiet b events :=
  quiet_of_forall fun event member =>
    have harmless := harmless event member
    ⟨Catcher.reports_harmless _ harmless, Event.delivers_harmless harmless,
      Event.discards_harmless harmless, Event.abandons_harmless harmless⟩

theorem Disposed.step (old : σ.Disposed b) (history : σ'.history = σ.history ++ events)
    (balance : ((Catcher.batch b).reported events).length + pendings σ.system b =
      events.countP (Event.delivers b) + events.countP (Event.discards b) +
        events.countP (Event.abandons b) + pendings σ'.system b)
    (claimed : (σ'.system.batch b).barrier.pending.isSome = true →
      (σ'.system.batch b).barrier.claimed = true) : σ'.Disposed b where
  tally := by
    have tally := old.tally
    rw [history, Catcher.reported_append, List.length_append, List.countP_append,
      List.countP_append, List.countP_append]
    omega
  claimed := claimed

theorem Disposed.quiet (old : σ.Disposed b) (history : σ'.history = σ.history ++ events)
    (same : slot σ'.system b = slot σ.system b) (quiet : Quiet b events) : σ'.Disposed b := by
  have pending : (σ'.system.batch b).barrier.pending = (σ.system.batch b).barrier.pending :=
    congrArg Prod.fst same
  have claimed : (σ'.system.batch b).barrier.claimed = (σ.system.batch b).barrier.claimed :=
    congrArg Prod.snd same
  refine old.step history ?_ ?_
  · rw [quiet.reported, quiet.delivered, quiet.discarded, quiet.abandoned, pendings, pendings,
      pending]
    rfl
  · rw [pending, claimed]
    exact old.claimed

theorem Disposed.harmless (old : σ.Disposed b) (history : σ'.history = σ.history ++ events)
    (same : slot σ'.system b = slot σ.system b)
    (harmless : ∀ event ∈ events, event.isHarmless = true) : σ'.Disposed b :=
  old.quiet history same (quiet_of_harmless harmless)

/-- A panic that is reported is pending from then on, or is discarded. -/
theorem Disposed.settles (old : σ.Disposed b) (balanced : σ.Balanced) {job : JobId} {c : BatchId}
    (inside : .settle job c ∈ σ.frames)
    (system : σ'.system = (σ.system.settle c job σ.signal.panic?).1)
    (history : σ'.history =
      σ.history ++ Event.ofNotices (σ.system.settle c job σ.signal.panic?).2) :
    σ'.Disposed b := by
  rw [settle_system] at system
  by_cases own : c = b
  · subst own
    have known : c.index < σ.system.batches.length := by
      apply Nat.lt_of_not_le
      intro unknown
      have counted := balanced.counted inside
      rw [outstanding, batch_unknown unknown] at counted
      exact absurd counted (Nat.lt_irrefl 0)
    have settled : (σ'.system.batch c).barrier =
        (σ.system.batch c).barrier.settle σ.signal.panic? := by
      rw [system]
      exact barrier_mapBarrier _ known
    cases panicked : σ.signal.panic? with
    | none =>
        rw [panicked] at settled history
        have kept : slot σ'.system c = slot σ.system c := by
          simp only [slot, settled]
          rfl
        exact old.harmless history kept fun _ member => absurd member List.not_mem_nil
    | some payload =>
        rw [panicked] at settled history
        rw [settle_notices] at history
        have pending := settled ▸ Barrier.pending_settle payload
        refine old.step history ?_ fun _ => settled ▸ Barrier.claimed_settle payload
        cases won : (σ.system.batch c).barrier.claimed with
        | true =>
            simp [Event.ofNotices, Catcher.reported, Catcher.reports_eq, Event.delivers,
              Event.discards_eq, Event.abandons_eq, pendings, pending, won]
        | false =>
            have empty : (σ.system.batch c).barrier.pending = none := by
              have claimed := old.claimed
              cases before : (σ.system.batch c).barrier.pending with
              | none => rfl
              | some => simp [before, won] at claimed
            simp [Event.ofNotices, Catcher.reported, Catcher.reports_eq, Event.delivers,
              Event.discards_eq, Event.abandons_eq, pendings, pending, won, empty]
  · have kept : slot σ'.system b = slot σ.system b := by
      rw [system]
      exact slot_modifyBatch_of_ne _ own
    refine old.quiet history kept (quiet_of_forall ?_)
    cases σ.signal.panic? with
    | none => exact fun _ member => absurd member List.not_mem_nil
    | some payload =>
        rw [settle_notices]
        split <;> simp [Event.ofNotices, Catcher.reports_eq, Event.delivers, Event.discards_eq,
          Event.abandons_eq, own]

theorem pending_deliver (s : System Work) (b : BatchId) :
    ((s.deliver b).2.batch b).barrier.pending = none := by
  rw [deliver_system]
  by_cases known : b.index < s.batches.length
  · rw [barrier_mapBarrier (·.deliver.2) known]
    exact Barrier.pending_deliver _
  · rw [modifyBatch_unknown _ (Nat.le_of_not_lt known), batch_unknown (Nat.le_of_not_lt known)]
    rfl

theorem pending_closeBatch (s : System Work) (b : BatchId) :
    ((s.closeBatch b).1.batch b).barrier.pending = none := by
  have ended : ((s.endBatch b).batch b).barrier.pending = none :=
    (batch_modifyBatch_proj (·.barrier.pending) rfl b).trans (pending_deliver s b)
  rw [closeBatch_system]
  cases (s.batch b).kind with
  | single t => exact ended
  | multi => exact ended

theorem Disposed.delivers (old : σ.Disposed b) {c : BatchId}
    (system : σ'.system = (σ.system.deliver c).2)
    (history : σ'.history = σ.history ++ [.delivered c (σ.system.deliver c).1]) :
    σ'.Disposed b := by
  by_cases own : c = b
  · subst own
    have emptied : (σ'.system.batch c).barrier.pending = none := system ▸ pending_deliver _ c
    refine old.step history ?_ (by simp [emptied])
    rw [deliver_failure]
    cases pending : (σ.system.batch c).barrier.pending <;>
      simp [Catcher.reported, Catcher.reports_eq, Event.delivers, Event.discards_eq,
        Event.abandons_eq, pendings, emptied, pending]
  · have kept : slot σ'.system b = slot σ.system b := by
      rw [system, deliver_system]
      exact slot_modifyBatch_of_ne _ own
    refine old.quiet history kept (quiet_of_forall ?_)
    cases (σ.system.deliver c).1 <;>
      simp [Catcher.reports_eq, Event.delivers, Event.discards_eq, Event.abandons_eq, own]

theorem Disposed.closesBatch (old : σ.Disposed b) {c : BatchId}
    (system : σ'.system = (σ.system.closeBatch c).1)
    (history : σ'.history = σ.history ++ Event.ofNotices (σ.system.closeBatch c).2) :
    σ'.Disposed b := by
  rw [closeBatch_notices, Event.ofNotices, List.map_cons, List.append_cons] at history
  -- The report of the batch comes first, and what the release of the token tells is harmless.
  let reported : Scene := { σ' with
    history := σ.history ++ [.logged (σ.system.lastNotice c)] }
  have first : reported.Disposed b := by
    by_cases own : c = b
    · subst own
      have emptied : (reported.system.batch c).barrier.pending = none :=
        (congrArg (fun s => (System.batch s c).barrier.pending) system).trans
          (pending_closeBatch _ c)
      refine old.step rfl ?_ (by simp [emptied])
      unfold lastNotice
      cases pending : (σ.system.batch c).barrier.pending <;>
        simp [Catcher.reported, Catcher.reports_eq, Event.delivers, Event.discards_eq,
          Event.abandons_eq, pendings, emptied, pending]
    · have kept : slot reported.system b = slot σ.system b :=
        (congrArg (slot · b) system).trans (slot_closeBatch own)
      refine old.quiet rfl kept (quiet_of_forall ?_)
      unfold lastNotice
      cases (σ.system.batch c).barrier.pending <;>
        simp [Catcher.reports_eq, Event.delivers, Event.discards_eq, Event.abandons_eq, own]
  exact first.harmless history rfl (Event.harmless_notices (releases_harmless _ _))

theorem Moves.disposed (moves : σ.Moves σ') (balanced : σ.Balanced) (old : σ.Disposed b) :
    σ'.Disposed b := by
  cases moves with
  | advances _ _ quiet => exact old.harmless rfl rfl (Event.harmless_script quiet)
  | opens _ _ opens => exact old.harmless rfl opens.slot opens.harmless
  | leaves | passes | finishes | sweepEnds =>
      exact old.harmless (List.append_nil σ.history).symm rfl (by simp)
  | ends => exact old.harmless rfl rfl (by simp [Event.isHarmless])
  | unwinds =>
      refine old.quiet rfl rfl (quiet_of_forall ?_)
      simp [Catcher.reports_eq, Event.delivers, Event.discards_eq, Event.abandons_eq]
  | settles top => exact old.settles balanced (top ▸ List.mem_cons_self) rfl rfl
  | contains =>
      refine old.quiet rfl rfl (quiet_of_forall ?_)
      simp [Catcher.reports_eq, Event.delivers, Event.discards_eq, Event.abandons_eq]
  | sweeps _ _ taken =>
      exact old.harmless rfl (slot_take taken) (by simp [Task.started, Event.isHarmless])
  | helps _ _ _ taken =>
      exact old.harmless rfl (slot_take taken) (by simp [Task.started, Event.isHarmless])
  | drains _ taken =>
      exact old.harmless rfl (slot_take taken) (by simp [Task.started, Event.isHarmless])
  | delivers => exact old.delivers rfl rfl
  | closesBatch => exact old.closesBatch rfl rfl
  | closesPool =>
      exact old.harmless rfl rfl (Event.harmless_notices (by simp [closePool, Notice.isHarmless]))

/-! ## Nobody is left by a panic twice -/

theorem casualties_sublist (history : List Event) :
    ((history.filterMap Event.casualty?).map Mark.ends).Sublist (marks history) := by
  induction history with
  | nil => exact .slnil
  | cons event rest ih =>
      cases event with
      | unwound => exact ih.cons_cons _
      | submitted | started | ended => exact ih.cons _
      | replied | delivered | logged | answered => exact ih

theorem Tallied.casualties_nodup (tallied : σ.Tallied) (catcher : Catcher) :
    (catcher.casualties σ.history).Nodup := by
  apply List.Nodup.filter
  rw [List.nodup_iff_count_le_one]
  intro job
  have left : (σ.history.filterMap Event.casualty?).count job ≤ σ.times (.ends job) :=
    Nat.le_trans List.count_le_count_map ((casualties_sublist σ.history).count_le (.ends job))
  have once := tallied.once job
  omega

/-- Whose panic was caught here was submitted as one of the jobs whose panics are caught here. -/
theorem Catches.submitted {catcher : Catcher} (caught : σ.Catches catcher) {job : JobId}
    (member : job ∈ catcher.reported σ.history) :
    ∃ batch route, .submitted job batch route ∈ σ.history ∧ catcher.catches batch route = true := by
  have casualty : job ∈ catcher.casualties σ.history := by
    rw [caught]
    exact List.mem_append_left _ member
  obtain ⟨event, logged, admits⟩ := List.any_eq_true.mp (List.mem_filter.mp casualty).2
  cases event with
  | submitted other batch route =>
      simp only [Catcher.admits, Bool.and_eq_true, decide_eq_true_eq] at admits
      obtain ⟨rfl, catches⟩ := admits
      exact ⟨batch, route, logged, catches⟩
  | _ => cases admits

end Scene

namespace Machine

variable {m : Machine}

theorem Solo.catches (solo : m.Solo) (catcher : Catcher) : m.scene.Catches catcher := by
  induction solo with
  | load => cases catcher <;> rfl
  | turn run stepped alone ih =>
      rcases run.moves stepped alone with same | moves
      · exact same ▸ ih
      · exact moves.catches run.sound.scene run.tallied (run.turn stepped alone).tallied
          run.grounded ih

theorem Solo.disposed (solo : m.Solo) (b : BatchId) : m.scene.Disposed b := by
  induction solo with
  | load => exact ⟨rfl, fun pending => nomatch pending⟩
  | turn run stepped alone ih =>
      rcases run.moves stepped alone with same | moves
      · exact same ▸ ih
      · exact moves.disposed run.balanced ih

/-- Panics are contained, and each of them is accounted for. What asks a pool for jobs never tells
of a panic, and the body of a queued job runs on top of it. The tasks of a batch that were left by a
panic are those that the log reports for the batch, each once, and as many failures were delivered,
discarded, left unobserved or are pending. The raw jobs that were queued and left by a panic are
those that the log reports for the pools. The log is read by level and text: reports and unobserved
failures are errors, discarded ones are warnings. A panic that has left its task and was not caught
yet is in transit. -/
theorem Solo.panics_accounted (solo : m.Solo) :
    (∀ above host base turns outcome, m.driver.frames = above ++ host :: base →
        host.isHost = true → m.Comes base turns outcome → ∃ reply, outcome = .returned reply) ∧
      (∀ job batch p inlet above label next rest onBatch below,
        .submitted job batch (.queued p inlet) ∈ m.history →
        m.driver.frames = above ++ .body job label next rest onBatch :: below →
        ∃ q host under,
          below = batch.toList.map (.settle job) ++ .contain job q :: host :: under ∧
            host.isHost = true) ∧
      (∀ catcher : Catcher,
        catcher.casualties m.history =
          catcher.reported m.history ++ catcher.inTransit m.driver.frames m.driver.signal ∧
        (catcher.casualties m.history).Nodup ∧
        ∀ job ∈ catcher.reported m.history, ∃ batch route,
          .submitted job batch route ∈ m.history ∧ catcher.catches batch route = true) ∧
      ∀ b, ((Catcher.batch b).reported m.history).length =
        m.history.countP (Event.delivers b) + m.history.countP (Event.discards b) +
          m.history.countP (Event.abandons b) +
            if (m.world.system.batch b).barrier.pending.isSome then 1 else 0 := by
  refine ⟨?_, ?_, ?_, fun b => (solo.disposed b).tally⟩
  · exact fun _ _ _ _ _ stack on comes => solo.host_returns stack on comes
  · exact fun _ _ _ _ _ _ _ _ _ _ logged stack => solo.queued_on_pool logged stack
  · intro catcher
    have caught := solo.catches catcher
    exact ⟨caught, solo.tallied.casualties_nodup catcher, fun _ => caught.submitted⟩

/-- A raw job and two tasks of a batch that all panic. The pool runs the raw one and the wait runs
the others. -/
def mishaps : List Op :=
  [.pool (.given "p") .missing .missing .missing .missing,
    .batch (.given "s") (.given "p") .missing (.given true),
    .schedule (.given "p") (.given (.own "raw" [.panic (.given .unit)])) (.given .forced) .missing,
    .schedule (.given "s") (.given (.own "first" [.panic (.given .unit)])) (.given .forced)
      .missing,
    .schedule (.given "s") (.given (.own "second" [.panic (.given .unit)])) (.given .forced)
      .missing,
    .exec (.given "p") .missing,
    .wait (.given "s") .report false]

/-- The second task of the batch is left by its panic. The wait below it returns all the same. By
then the panics of the raw job and of the first task are on record, and a failure is pending. -/
theorem mishaps_accounted :
    let running := (Machine.load [] .plain mishaps).run 33
    let base := running.driver.frames.drop 4
    let failure := Failure.ofPayload .unit
    running.Solo ∧ running.Comes base 4 (.returned (.failed failure)) ∧
      (∃ reply, Signal.returned (.failed failure) = .returned reply) ∧
      .submitted ⟨2⟩ (some ⟨0⟩) (.queued ⟨0⟩ (.lane ⟨0⟩)) ∈ running.history ∧
      (∃ q host under, running.driver.frames.drop 1 =
        [.settle ⟨2⟩ ⟨0⟩] ++ .contain ⟨2⟩ q :: host :: under ∧ host.isHost = true) ∧
      Catcher.pools.reported running.history = [⟨0⟩] ∧
      (∃ batch route, .submitted ⟨0⟩ batch route ∈ running.history ∧
        Catcher.pools.catches batch route = true) ∧
      (Catcher.batch ⟨0⟩).casualties running.history = [⟨1⟩] ∧
      1 = 0 + 0 + 0 + if (running.world.system.batch ⟨0⟩).barrier.pending.isSome then 1 else 0 := by
  intro running base failure
  have solo : running.Solo := (Solo.load [] .plain mishaps).run 33 (by decide)
  have alone : ∀ k ≤ 4, (running.run k).others.isEmpty = true := by decide
  have inside : ∀ k < 4, 0 < k → base.length < (running.run k).height := by decide
  have comes : running.Comes base 4 (.returned (.failed failure)) :=
    { begun := by decide
      alone := fun k below => List.isEmpty_iff.mp (alone k below)
      back := rfl
      inside := fun k positive below => inside k below positive
      outcome := rfl }
  have logged : .submitted ⟨2⟩ (some ⟨0⟩) (.queued ⟨0⟩ (.lane ⟨0⟩)) ∈ running.history :=
    List.mem_of_getElem? (i := 9) rfl
  obtain ⟨returns, grounds, caught, tally⟩ := Solo.panics_accounted solo
  have reported : Catcher.pools.reported running.history = [⟨0⟩] := rfl
  obtain ⟨list, _, _⟩ := caught (.batch ⟨0⟩)
  obtain ⟨_, _, submitted⟩ := caught .pools
  exact ⟨solo, comes, returns (running.driver.frames.take 3) _ base 4 _ rfl rfl comes, logged,
    grounds _ _ _ _ [] _ _ _ _ _ logged rfl, reported, submitted ⟨0⟩ (by rw [reported]; simp),
    list, tally ⟨0⟩⟩

end Machine

end TaskPool
