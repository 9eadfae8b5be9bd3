import TaskPool.Proofs.LoanDependence
import TaskPool.Proofs.Lockstep

/-!
# Machines with other loans

Two machines in worlds that differ in some loans, with the same frames on top of stacks that differ
further down, run in lockstep until these frames are gone, as long as nothing is dropped in one of
them that is lent in the other. The frames on top lend and give back the same in both.
-/

namespace TaskPool

namespace Machine

variable {m m' : Machine} {frame : Frame} {turns k : Nat} {outcome : Signal}
  {base base' below push : List Frame} {past past' : List Event} {lent lent' : List Loan}

/-- Two machines that agree on the top of the stack, down to the frames of `base`, and on the world
but for the loans that were there before. -/
structure Borrowers (m m' : Machine) (base base' : List Frame) (lent lent' : List Loan)
    (past past' : List Event) : Prop where
  thread : m.driver.id = m'.driver.id
  alone : m.others = []
  alone' : m'.others = []
  news : ∃ new, m.history = past ++ new ∧ m'.history = past' ++ new
  signal : m.driver.signal = m'.driver.signal
  batches : Frame.batchNames base = Frame.batchNames base'
  stack : ∃ push, m.driver.frames = push ++ base ∧ m'.driver.frames = push ++ base' ∧
    (∀ frame ∈ push, frame.isFirst = false) ∧
    m'.world.loans = heldLoans push m'.driver.signal ++ lent' ∧
    m.world = m'.world.withLoans (heldLoans push m'.driver.signal ++ lent)

/-- The loans of a machine can be exchanged while something is left above `base`: nothing is dropped
that the other loans would keep. -/
structure Trades (m : Machine) (base : List Frame) (lent lent' : List Loan) (turns : Nat) :
    Prop where
  exchanges : ∀ k < turns, m.Stays base k → (m.run k).world.Exchanges lent lent'
  keeps : ∀ k < turns, m.Stays base k → ∀ held, (m.run k).world.loans = held ++ lent' →
    ¬ (m.run k).world.Snatches (held ++ lent) (m.run (k + 1)).world

namespace Borrowers

theorem height (twins : Borrowers m m' base base' lent lent' past past') :
    base'.length < m'.height ↔ base.length < m.height := by
  obtain ⟨push, top, top', _⟩ := twins.stack
  simp only [Machine.height, top, top', List.length_append]
  omega

theorem resume (twins : Borrowers m m' base base' lent lent' past past')
    (exchanges : m'.world.Exchanges lent lent')
    (keeps : ∀ held, m'.world.loans = held ++ lent' →
      ¬ m'.world.Snatches (held ++ lent) (m'.run 1).world)
    (top' : m'.driver.frames = frame :: (push ++ base')) (inner : frame.isFirst = false)
    (held : m'.world.loans = heldLoans (frame :: push) m'.driver.signal ++ lent')
    (world : m.world =
      m'.world.withLoans (heldLoans (frame :: push) m'.driver.signal ++ lent)) :
    frame.resume
        { thread := m.driver.id, batches := Frame.batchNames (frame :: (push ++ base)) }
        m.world m.driver.signal =
      (frame.resume
        { thread := m'.driver.id, batches := Frame.batchNames (frame :: (push ++ base')) }
        m'.world m'.driver.signal).map (·.over push lent) := by
  have batches : Frame.batchNames (frame :: (push ++ base)) =
      Frame.batchNames (frame :: (push ++ base')) := by
    simp only [Frame.batchNames, ← List.cons_append, List.filterMap_append]
    exact congrArg _ twins.batches
  rw [twins.thread, twins.signal, batches, world]
  refine Frame.resume_over inner exchanges held fun turn taken => ?_
  have kept := keeps (heldLoans (frame :: push) m'.driver.signal) held
  rwa [run_one (step_of_resume top' taken)] at kept

theorem takes {turn : Turn} (twins : Borrowers m m' base base' lent lent' past past')
    (alone : (m.run 1).others = [] ∨ (m'.run 1).others = [])
    (top : m.driver.frames = frame :: (push ++ base))
    (top' : m'.driver.frames = frame :: (push ++ base'))
    (inner : ∀ other ∈ frame :: push, other.isFirst = false)
    (held : m'.world.loans = heldLoans (frame :: push) m'.driver.signal ++ lent')
    (taken : frame.resume
      { thread := m.driver.id, batches := Frame.batchNames (frame :: (push ++ base)) }
      m.world m.driver.signal = some (turn.over push lent))
    (taken' : frame.resume
      { thread := m'.driver.id, batches := Frame.batchNames (frame :: (push ++ base')) }
      m'.world m'.driver.signal = some turn) :
    Borrowers (m.run 1) (m'.run 1) base base' lent lent' past past' := by
  have stepped := run_one (step_of_resume top taken)
  have stepped' := run_one (step_of_resume top' taken')
  have still : turn.spawn = [] := by
    rcases alone with alone | alone
    · rw [stepped] at alone
      exact (List.append_eq_nil_iff.mp alone).2
    · rw [stepped'] at alone
      exact (List.append_eq_nil_iff.mp alone).2
  obtain ⟨new, past, past'⟩ := twins.news
  have pushed := (Frame.resumed taken').inner (inner frame List.mem_cons_self)
  have lends := Frame.resume_loans (inner frame List.mem_cons_self) held taken'
  exact
    { thread := by rw [stepped, stepped']; exact twins.thread
      alone := by rw [stepped]; exact List.append_eq_nil_iff.mpr ⟨twins.alone, still⟩
      alone' := by rw [stepped']; exact List.append_eq_nil_iff.mpr ⟨twins.alone', still⟩
      news := ⟨new ++ turn.events,
        by rw [history_of_turn top taken, past, List.append_assoc]; rfl,
        by rw [history_of_turn top' taken', past', List.append_assoc]⟩
      signal := by rw [stepped, stepped']; rfl
      batches := twins.batches
      stack := by
        rw [stepped, stepped']
        refine ⟨turn.push ++ push, (List.append_assoc ..).symm, (List.append_assoc ..).symm,
          fun other member => ?_, lends, rfl⟩
        rcases List.mem_append.mp member with above | below
        · exact pushed other above
        · exact inner other (List.mem_cons_of_mem _ below) }

theorem waits (twins : Borrowers m m' base base' lent lent' past past')
    (top : m.driver.frames = frame :: (push ++ base))
    (top' : m'.driver.frames = frame :: (push ++ base'))
    (taken : frame.resume
      { thread := m.driver.id, batches := Frame.batchNames (frame :: (push ++ base)) }
      m.world m.driver.signal = none)
    (taken' : frame.resume
      { thread := m'.driver.id, batches := Frame.batchNames (frame :: (push ++ base')) }
      m'.world m'.driver.signal = none) :
    Borrowers (m.run 1) (m'.run 1) base base' lent lent' past past' := by
  have waits := step_of_blocked top twins.alone taken
  have waits' := step_of_blocked top' twins.alone' taken'
  rw [wakesAt?_of_top top' top] at waits
  cases wakes : m'.driver.wakesAt? with
  | none =>
      rw [wakes] at waits waits'
      rw [run_stuck waits, run_stuck waits']
      exact twins
  | some clock =>
      rw [wakes] at waits waits'
      rw [run_one waits, run_one waits']
      obtain ⟨push, top, top', inner, held, world⟩ := twins.stack
      exact
        { twins with
          stack := ⟨push, top, top', inner, held, congrArg ({ · with clock }) world⟩ }

theorem step (twins : Borrowers m m' base base' lent lent' past past')
    (high : base'.length < m'.height) (alone : (m.run 1).others = [] ∨ (m'.run 1).others = [])
    (exchanges : m'.world.Exchanges lent lent')
    (keeps : ∀ held, m'.world.loans = held ++ lent' →
      ¬ m'.world.Snatches (held ++ lent) (m'.run 1).world) :
    Borrowers (m.run 1) (m'.run 1) base base' lent lent' past past' := by
  obtain ⟨push, top, top', inner, held, world⟩ := twins.stack
  cases push with
  | nil =>
      rw [Machine.height, top'] at high
      exact absurd high (Nat.lt_irrefl _)
  | cons frame push =>
      rw [List.cons_append] at top top'
      have same :=
        twins.resume exchanges keeps top' (inner frame List.mem_cons_self) held world
      cases taken' : frame.resume
          { thread := m'.driver.id, batches := Frame.batchNames (frame :: (push ++ base')) }
          m'.world m'.driver.signal with
      | some turn =>
          rw [taken'] at same
          exact twins.takes alone top top' inner held same taken'
      | none =>
          rw [taken'] at same
          exact twins.waits top top' same taken'

/-- The machines run in lockstep while something is left of what they agree on. -/
theorem run (twins : Borrowers m m' base base' lent lent' past past')
    (trades : m'.Trades base' lent lent' k)
    (alone : (∀ j ≤ k, (m.run j).others = []) ∨ ∀ j ≤ k, (m'.run j).others = [])
    (higher : (∀ j < k, base.length < (m.run j).height) ∨
      ∀ j < k, base'.length < (m'.run j).height) :
    ∀ j ≤ k, Borrowers (m.run j) (m'.run j) base base' lent lent' past past' := by
  induction k with
  | zero =>
      intro j none
      rw [Nat.le_zero.mp none]
      exact twins
  | succ k ih =>
      have before := ih ⟨fun j few => trades.exchanges j (Nat.lt_succ_of_lt few),
          fun j few => trades.keeps j (Nat.lt_succ_of_lt few)⟩
        (alone.imp (fun alone j few => alone j (Nat.le_succ_of_le few))
          fun alone j few => alone j (Nat.le_succ_of_le few))
        (higher.imp (fun higher j few => higher j (Nat.lt_succ_of_lt few))
          fun higher j few => higher j (Nat.lt_succ_of_lt few))
      have high : ∀ j ≤ k, base'.length < (m'.run j).height := by
        intro j few
        rcases higher with higher | higher
        · exact (before j few).height.mpr (higher j (Nat.lt_succ_of_le few))
        · exact higher j (Nat.lt_succ_of_le few)
      have stays : m'.Stays base' k := ⟨fun j few => (before j few).alone', high⟩
      intro j few
      rcases Nat.le_succ_iff.mp few with few | rfl
      · exact before j few
      · rw [show k.succ = k + 1 from rfl, run_add m, run_add m']
        refine (before k (Nat.le_refl k)).step (high k (Nat.le_refl k)) ?_
          (trades.exchanges k (Nat.lt_succ_self k) stays) fun held loans => ?_
        · rw [← run_add, ← run_add]
          exact alone.imp (fun alone => alone _ (Nat.le_refl _)) fun alone => alone _ (Nat.le_refl _)
        · rw [← run_add]
          exact trades.keeps k (Nat.lt_succ_self k) stays held loans

theorem back_iff (twins : Borrowers m m' base base' lent lent' past past') :
    m.driver.frames = base ↔ m'.driver.frames = base' := by
  obtain ⟨push, top, top', _⟩ := twins.stack
  simp only [top, top', List.append_left_eq_self]

/-- What one of the machines is told below, the other one is told as well. -/
theorem comes_iff (twins : Borrowers m m' base base' lent lent' past past')
    (high : base'.length < m'.height) (trades : m'.Trades base' lent lent' turns) :
    (m.Comes base turns outcome ↔ m'.Comes base' turns outcome) ∧
      (m.Comes base turns outcome →
        Borrowers (m.run turns) (m'.run turns) base base' lent lent' past past') := by
  have forth : m.Comes base turns outcome →
      ∀ j ≤ turns, Borrowers (m.run j) (m'.run j) base base' lent lent' past past' := by
    intro comes
    refine twins.run trades (.inl comes.alone) (.inl fun j few => ?_)
    rcases Nat.eq_zero_or_pos j with rfl | positive
    · exact twins.height.mp high
    · exact comes.inside j positive few
  have back : m'.Comes base' turns outcome →
      ∀ j ≤ turns, Borrowers (m.run j) (m'.run j) base base' lent lent' past past' := by
    intro comes
    refine twins.run trades (.inr comes.alone) (.inr fun j few => ?_)
    rcases Nat.eq_zero_or_pos j with rfl | positive
    · exact high
    · exact comes.inside j positive few
  refine ⟨⟨fun comes => ?_, fun comes => ?_⟩, fun comes => forth comes turns (Nat.le_refl _)⟩
  · have together := forth comes
    exact
      { begun := comes.begun
        alone := fun k few => (together k few).alone'
        back := (together turns (Nat.le_refl _)).back_iff.mp comes.back
        inside := fun k positive few =>
          (together k (Nat.le_of_lt few)).height.mpr (comes.inside k positive few)
        outcome := (together turns (Nat.le_refl _)).signal.symm.trans comes.outcome }
  · have together := back comes
    exact
      { begun := comes.begun
        alone := fun k few => (together k few).alone
        back := (together turns (Nat.le_refl _)).back_iff.mpr comes.back
        inside := fun k positive few =>
          (together k (Nat.le_of_lt few)).height.mp (comes.inside k positive few)
        outcome := (together turns (Nat.le_refl _)).signal.trans comes.outcome }

theorem gone (twins : Borrowers m m' base base' lent lent' past past')
    (back : m'.driver.frames = base') :
    m'.world.loans = lent' ∧ m.world = m'.world.withLoans lent := by
  obtain ⟨push, _, top', _, held, world⟩ := twins.stack
  rw [top', List.append_left_eq_self] at back
  subst back
  exact ⟨held, world⟩

theorem still_lent (twins : Borrowers m m' base base' lent lent' past past')
    (stays : m'.Stays base' k) : ∃ held, (m'.run k).world.loans = held ++ lent' := by
  obtain ⟨push, _, top', inner, held, _⟩ := twins.stack
  have self : Borrowers m' m' base' base' lent' lent' past' past' :=
    { thread := rfl
      alone := twins.alone'
      alone' := twins.alone'
      news := twins.news.imp fun _ same => ⟨same.2, same.2⟩
      signal := rfl
      batches := rfl
      stack := ⟨push, top', top', inner, held, held ▸ rfl⟩ }
  have trades : m'.Trades base' lent' lent' k :=
    { exchanges := fun _ _ _ => ⟨fun _ _ => .rfl, fun loan member => .inl ⟨loan, member, rfl⟩⟩
      keeps := by
        rintro j _ _ held loans ⟨_, _, _, idle, busy, _⟩
        rw [← loans] at busy
        exact Bool.false_ne_true (idle.symm.trans busy) }
  obtain ⟨_, _, _, _, held, _⟩ := (self.run trades (.inl stays.alone)
    (.inl fun j few => stays.above j (Nat.le_of_lt few)) k (Nat.le_refl k)).stack
  exact ⟨_, held⟩

end Borrowers

theorem comes_call {loans : List Loan} {caught : Bool}
    (stack : m.driver.frames = push ++ .call loans .report caught :: base) (above : push ≠ []) :
    m.Comes base turns outcome ↔ ∃ i told, turns = i + 1 ∧
      m.Comes (.call loans .report caught :: base) i told ∧
      outcome = (Frame.leaveCall .report caught told {}).signal := by
  constructor
  · intro comes
    obtain ⟨i, j, told, rfl, before, after⟩ := comes.split stack above
    obtain ⟨back, signal, others, _⟩ := run_one_leave before.back
    have here := before.alone i (Nat.le_refl i)
    obtain ⟨rfl, rfl⟩ := after.unique (.one here (others.trans here) back signal)
    refine ⟨i, told, rfl, before, ?_⟩
    rw [before.outcome]
    exact Frame.leaveCall_signal _
  · rintro ⟨i, told, rfl, comes, rfl⟩
    obtain ⟨back, signal, others, _⟩ := run_one_leave comes.back
    rw [← run_add] at back signal others
    refine comes.pop (others.trans (comes.alone i (Nat.le_refl i))) back (signal.trans ?_)
    rw [comes.outcome]
    exact Frame.leaveCall_signal _

theorem comes_operation {loans : List Loan} {caught : Bool} (alone : m.others = [])
    (stack : (m.run 1).driver.frames = push ++ .call loans .report caught :: base)
    (above : push ≠ []) :
    m.Comes base turns outcome ↔ ∃ i told, turns = 1 + (i + 1) ∧
      (m.run 1).Comes (.call loans .report caught :: base) i told ∧
      outcome = (Frame.leaveCall .report caught told {}).signal := by
  have higher : base.length < (m.run 1).height := by
    rw [height, stack]
    simp only [List.length_append, List.length_cons]
    omega
  constructor
  · intro comes
    obtain ⟨_, rfl, later⟩ := comes.past_first higher
    obtain ⟨i, told, rfl, within, rfl⟩ := (comes_call stack above).mp later
    exact ⟨i, told, rfl, within, rfl⟩
  · rintro ⟨i, told, rfl, comes, rfl⟩
    exact .after_first alone higher ((comes_call stack above).mpr ⟨i, told, rfl, comes, rfl⟩)

/-- What is above `base` comes down at the same time in both machines and tells the same; it leaves
the same world, and the same happened in between. -/
structure Alike (m m' : Machine) (base : List Frame) (turns : Nat) : Prop where
  comes : ∀ outcome, m.Comes base turns outcome ↔ m'.Comes base turns outcome
  same : ∀ outcome, m.Comes base turns outcome → (m.run turns).world = (m'.run turns).world ∧
    ∃ new, (m.run turns).history = m.history ++ new ∧ (m'.run turns).history = m'.history ++ new

theorem Trades.le {i : Nat} (trades : m.Trades base lent lent' turns) (few : i ≤ turns) :
    m.Trades base lent lent' i where
  exchanges k less := trades.exchanges k (Nat.lt_of_lt_of_le less few)
  keeps k less := trades.keeps k (Nat.lt_of_lt_of_le less few)

/-- Two operations that begin in the same way and hold different objects are alike. -/
theorem Borrowers.alike {loans loans' rest : List Loan} {caught : Bool}
    (twins : Borrowers (m.run 1) (m'.run 1) (.call loans .report caught :: base)
      (.call loans' .report caught :: base) (loans ++ rest) (loans' ++ rest) m.history m'.history)
    (alone : m.others = []) (alone' : m'.others = [])
    (high : base.length + 1 < (m'.run 1).height)
    (trades : (m'.run 1).Trades (.call loans' .report caught :: base) (loans ++ rest)
      (loans' ++ rest) (turns - 1)) : m.Alike m' base turns := by
  obtain ⟨push, top, top', _⟩ := twins.stack
  have above : push ≠ [] := by
    rintro rfl
    rw [Machine.height, top'] at high
    exact Nat.lt_irrefl _ high
  refine ⟨fun outcome => ?_, fun outcome comes => ?_⟩
  · rw [comes_operation alone top above, comes_operation alone' top' above]
    refine exists_congr fun i => exists_congr fun told => and_congr_right fun few => ?_
    rw [(twins.comes_iff high (trades.le (by omega))).1]
  · obtain ⟨i, told, rfl, within, rfl⟩ := (comes_operation alone top above).mp comes
    have last := (twins.comes_iff high (trades.le (by omega))).2 within
    have back := last.back_iff.mp within.back
    obtain ⟨held, world⟩ := last.gone back
    obtain ⟨_, _, _, left, history⟩ := run_one_leave within.back
    obtain ⟨_, _, _, left', history'⟩ := run_one_leave back
    obtain ⟨new, past, past'⟩ := last.news
    rw [← run_add, ← run_add] at left history left' history'
    refine ⟨?_, new, history.trans past, history'.trans past'⟩
    rw [left, left', world]
    have given := Scene.foldl_erase_append loans rest
    have given' := Scene.foldl_erase_append loans' rest
    simp only [World.giveBack, World.withLoans, held, given, given']

end Machine

end TaskPool
