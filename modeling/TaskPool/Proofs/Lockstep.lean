import TaskPool.Proofs.Spans

/-!
# Machines in lockstep

What a thread does above a frame depends on the frames below it only through the batches whose tasks
they run. So two machines in the same world, with the same frames on top of stacks that differ
further down, run in lockstep until these frames are gone.
-/

namespace TaskPool

namespace Machine

variable {m m' : Machine} {frame frame' : Frame} {turn : Turn} {turns k : Nat} {outcome : Signal}
  {base base' below below' rest rest' : List Frame} {past past' : List Event}

/-- Two machines in the same world, in which the same happened since some past of each. -/
structure Paired (m m' : Machine) (past past' : List Event) : Prop where
  world : m'.world = m.world
  thread : m'.driver.id = m.driver.id
  alone : m.others = []
  alone' : m'.others = []
  news : ∃ new, m.history = past ++ new ∧ m'.history = past' ++ new

/-- Two machines that also agree on the top of the stack, down to the frames of `base`. -/
structure Twins (m m' : Machine) (base base' : List Frame) (past past' : List Event) : Prop
    extends Paired m m' past past' where
  signal : m'.driver.signal = m.driver.signal
  batches : Frame.batchNames base' = Frame.batchNames base
  stack : ∃ push, m.driver.frames = push ++ base ∧ m'.driver.frames = push ++ base'

theorem step_of_blocked (top : m.driver.frames = frame :: below) (alone : m.others = [])
    (blocked : frame.resume { thread := m.driver.id, batches := Frame.batchNames (frame :: below) }
      m.world m.driver.signal = none) :
    m.step = m.driver.wakesAt?.map fun clock => { m with world := { m.world with clock } } := by
  have turned : m.driver.step m.world = none := by
    simp only [Thread.step, top, blocked, Option.map_none]
  simp only [step, top, List.isEmpty_cons, Bool.false_eq_true, if_false, turned, alone, stepFirst,
    passTime]
  cases wakes : m.driver.wakesAt? <;> simp [wakes]

theorem wakesAt?_of_top {thread thread' : Thread} (top : thread.frames = frame :: below)
    (top' : thread'.frames = frame :: below') : thread'.wakesAt? = thread.wakesAt? := by
  unfold Thread.wakesAt?
  rw [top, top']
  cases frame <;> rfl

theorem history_of_turn (top : m.driver.frames = frame :: below)
    (taken : frame.resume { thread := m.driver.id, batches := Frame.batchNames (frame :: below) }
      m.world m.driver.signal = some turn) : (m.run 1).history = m.history ++ turn.events := by
  rw [run_one (step_of_resume top taken)]
  exact record_events ..

namespace Paired

/-- A turn that differs only in the lowest frames that it pushes. -/
theorem turned (paired : Paired m m' past past') (top : m.driver.frames = frame :: below)
    (top' : m'.driver.frames = frame' :: below')
    (taken : frame.resume { thread := m.driver.id, batches := Frame.batchNames (frame :: below) }
      m.world m.driver.signal = some (turn.above rest))
    (taken' : frame'.resume
      { thread := m'.driver.id, batches := Frame.batchNames (frame' :: below') }
      m'.world m'.driver.signal = some (turn.above rest'))
    (still : turn.spawn = [])
    (batches : Frame.batchNames (rest' ++ below') = Frame.batchNames (rest ++ below)) :
    Twins (m.run 1) (m'.run 1) (rest ++ below) (rest' ++ below') past past' := by
  obtain ⟨new, past, past'⟩ := paired.news
  have history := history_of_turn top taken
  have history' := history_of_turn top' taken'
  have stepped := run_one (step_of_resume top taken)
  have stepped' := run_one (step_of_resume top' taken')
  exact
    { world := by rw [stepped, stepped']; rfl
      thread := by rw [stepped, stepped']; exact paired.thread
      alone := by rw [stepped]; exact List.append_eq_nil_iff.mpr ⟨paired.alone, still⟩
      alone' := by rw [stepped']; exact List.append_eq_nil_iff.mpr ⟨paired.alone', still⟩
      news := ⟨new ++ turn.events, by rw [history, past, List.append_assoc]; rfl,
        by rw [history', past', List.append_assoc]; rfl⟩
      signal := by rw [stepped, stepped']; rfl
      batches := batches
      stack := by
        rw [stepped, stepped']
        exact ⟨turn.push, List.append_assoc .., List.append_assoc ..⟩ }

end Paired

namespace Twins

theorem height (twins : Twins m m' base base' past past') :
    base'.length < m'.height ↔ base.length < m.height := by
  obtain ⟨push, top, top'⟩ := twins.stack
  simp only [Machine.height, top, top', List.length_append]
  omega

theorem lower {push : List Frame}
    (twins : Twins m m' (push ++ base) (push ++ base') past past')
    (batches : Frame.batchNames base' = Frame.batchNames base) :
    Twins m m' base base' past past' where
  toPaired := twins.toPaired
  signal := twins.signal
  batches := batches
  stack := by
    obtain ⟨above, top, top'⟩ := twins.stack
    exact ⟨above ++ push, by rw [top, List.append_assoc], by rw [top', List.append_assoc]⟩

theorem step (twins : Twins m m' base base' past past') (high : base.length < m.height)
    (alone : (m.run 1).others = []) : Twins (m.run 1) (m'.run 1) base base' past past' := by
  obtain ⟨push, top, top'⟩ := twins.stack
  cases push with
  | nil =>
      rw [Machine.height, top] at high
      exact absurd high (Nat.lt_irrefl _)
  | cons frame push =>
      rw [List.cons_append] at top top'
      have batches : ∀ above,
          Frame.batchNames (above ++ base') = Frame.batchNames (above ++ base) := by
        intro above
        simp only [Frame.batchNames, List.filterMap_append]
        exact congrArg _ twins.batches
      have context : Context.mk m'.driver.id (Frame.batchNames (frame :: (push ++ base'))) false =
          Context.mk m.driver.id (Frame.batchNames (frame :: (push ++ base))) false := by
        rw [twins.thread]
        exact congrArg (Context.mk m.driver.id · false) (batches (frame :: push))
      cases taken : frame.resume
          { thread := m.driver.id, batches := Frame.batchNames (frame :: (push ++ base)) }
          m.world m.driver.signal with
      | some turn =>
          have taken' : frame.resume
              { thread := m'.driver.id, batches := Frame.batchNames (frame :: (push ++ base')) }
              m'.world m'.driver.signal = some turn := by
            rw [context, twins.world, twins.signal, taken]
          have still : turn.spawn = [] := by
            rw [run_one (step_of_resume top taken)] at alone
            exact (List.append_eq_nil_iff.mp alone).2
          have same : turn.above [] = turn := by simp only [Turn.above, List.append_nil]
          rw [← same] at taken taken'
          have next : Twins (m.run 1) (m'.run 1) ([] ++ (push ++ base)) ([] ++ (push ++ base'))
            past past' := twins.turned top top' taken taken' still (batches push)
          rw [List.nil_append, List.nil_append] at next
          exact next.lower twins.batches
      | none =>
          have taken' : frame.resume
              { thread := m'.driver.id, batches := Frame.batchNames (frame :: (push ++ base')) }
              m'.world m'.driver.signal = none := by
            rw [context, twins.world, twins.signal, taken]
          have waits := step_of_blocked top twins.alone taken
          have waits' := step_of_blocked top' twins.alone' taken'
          rw [wakesAt?_of_top top top'] at waits'
          cases wakes : m.driver.wakesAt? with
          | none =>
              rw [wakes] at waits waits'
              rw [run_stuck waits, run_stuck waits']
              exact twins
          | some clock =>
              rw [wakes] at waits waits'
              rw [run_one waits, run_one waits']
              exact { twins with world := congrArg ({ · with clock }) twins.world }

/-- The machines run in lockstep while something is left of what they agree on. -/
theorem run (twins : Twins m m' base base' past past') (alone : m.Alone k)
    (higher : ∀ j < k, base.length < (m.run j).height) :
    Twins (m.run k) (m'.run k) base base' past past' := by
  induction k with
  | zero => exact twins
  | succ k ih =>
      have before := ih (alone.le (Nat.le_succ k)) fun j few => higher j (Nat.lt_succ_of_lt few)
      rw [run_add, run_add]
      refine before.step (higher k (Nat.lt_succ_self k)) ?_
      rw [← run_add]
      exact alone (k + 1) (Nat.le_refl _)

/-- Machines that are twins after their next turn bring the same down to what they stand on. -/
theorem comes_of_first (twins : Twins (m.run 1) (m'.run 1) base base' past past')
    (alone' : m'.others = []) (comes : m.Comes base turns outcome) :
    m'.Comes base' turns outcome ∧ Twins (m.run turns) (m'.run turns) base base' past past' := by
  have together : ∀ k, 0 < k → k ≤ turns →
      Twins (m.run k) (m'.run k) base base' past past' := by
    intro k positive few
    obtain ⟨j, rfl⟩ := Nat.exists_eq_add_of_le positive
    rw [run_add, run_add]
    refine twins.run ((comes.alone.le few).later) fun i less => ?_
    rw [← run_add]
    exact comes.inside (1 + i) (by omega) (by omega)
  have last := together turns comes.begun (Nat.le_refl turns)
  refine ⟨?_, last⟩
  exact
    { begun := comes.begun
      alone := fun k few => by
        rcases Nat.eq_zero_or_pos k with rfl | positive
        · exact alone'
        · exact (together k positive few).alone'
      back := by
        obtain ⟨push, top, top'⟩ := last.stack
        rw [comes.back] at top
        rw [top', List.self_eq_append_left.mp top, List.nil_append]
      inside := fun k positive few =>
        (together k positive (Nat.le_of_lt few)).height.mpr (comes.inside k positive few)
      outcome := last.signal.trans comes.outcome }

theorem comes (twins : Twins m m' base base' past past') (high : base.length < m.height)
    (comes : m.Comes base turns outcome) :
    m'.Comes base' turns outcome ∧ Twins (m.run turns) (m'.run turns) base base' past past' :=
  (twins.step high (comes.alone 1 comes.begun)).comes_of_first twins.alone' comes

end Twins

end Machine

end TaskPool
