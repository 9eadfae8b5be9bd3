import Mathlib.Data.Nat.Find
import TaskPool.Proofs.TurnMoves

/-!
# Spans of a run

A turn replaces the top frame of the stack and leaves the frames below it alone. So what happens
above a frame is a span of turns that ends, if it ends at all, with the stack as it was below. This
is how an operation is followed from its beginning to its outcome, whatever the tasks do that it
runs in between.
-/

namespace TaskPool

namespace Scene

variable {σ σ' : Scene} {frame : Frame} {below : List Frame}

theorem Moves.keeps_below (moves : σ.Moves σ') (top : σ.frames = frame :: below) :
    ∃ push, σ'.frames = push ++ below := by
  have tail : ∀ {other rest}, σ.frames = other :: rest → rest = below := by
    intro other rest top'
    exact (List.cons.inj (top'.symm.trans top)).2
  cases moves with
  | @advances _ frame' _ _ _ top' => exact ⟨[frame'], by rw [← tail top']; rfl⟩
  | @opens _ frame' _ opening onFailure caught top' =>
      refine ⟨opening.push ++ [.call opening.loans onFailure caught, frame'], ?_⟩
      rw [← tail top', List.append_assoc]
      rfl
  | leaves top' | passes top' | finishes top' | ends top' | unwinds top' | settles top'
  | contains top' | sweepEnds top' | delivers top' | closesBatch top' | closesPool top' =>
      exact ⟨[], tail top'⟩
  | @sweeps source batch _ count' _ _ task top' =>
      refine ⟨task.frames ++ [.contain task.id source.receiver, .sweep source batch count'], ?_⟩
      rw [← tail top', List.append_assoc]
      rfl
  | @helps b budget goal _ _ task top' =>
      refine ⟨task.frames ++ [.contain task.id (σ.system.sourceOf b).receiver,
        .waiting b (budget.map (· - 1)) goal], ?_⟩
      rw [← tail top', List.append_assoc]
      rfl
  | @drains p _ ran' _ _ task top' =>
      refine ⟨task.frames ++ [.contain task.id p, .closing p ran'], ?_⟩
      rw [← tail top', List.append_assoc]
      rfl

end Scene

namespace Machine

variable {m next : Machine} {i j k turns : Nat} {base below push : List Frame} {outcome : Signal}

/-! ## Runs -/

theorem run_of_step (stepped : m.step = some next) : m.run (k + 1) = next.run k := by
  simp only [run, stepped]

theorem run_one (stepped : m.step = some next) : m.run 1 = next :=
  run_of_step (k := 0) stepped

theorem run_stuck (stuck : m.step = none) (k : Nat) : m.run k = m := by
  cases k with
  | zero => rfl
  | succ k => simp only [run, stuck]

theorem run_add (m : Machine) (i j : Nat) : m.run (i + j) = (m.run i).run j := by
  induction i generalizing m with
  | zero => rw [Nat.zero_add]; rfl
  | succ i ih =>
      rw [Nat.add_right_comm]
      cases stepped : m.step with
      | some next => rw [run_of_step stepped, run_of_step stepped, ih]
      | none => rw [run_stuck stepped, run_stuck stepped, run_stuck stepped]

def Alone (m : Machine) (turns : Nat) : Prop := ∀ k ≤ turns, (m.run k).others = []

theorem Alone.le (alone : m.Alone turns) (fewer : k ≤ turns) : m.Alone k :=
  fun i below => alone i (Nat.le_trans below fewer)

theorem Alone.one (here : m.others = []) (after : (m.run 1).others = []) : m.Alone 1 := by
  intro k below
  rcases Nat.le_one_iff_eq_zero_or_eq_one.mp below with rfl | rfl
  · exact here
  · exact after

theorem Alone.later (alone : m.Alone (i + j)) : (m.run i).Alone j := by
  intro k below
  rw [← run_add]
  exact alone (i + k) (Nat.add_le_add_left below i)

theorem others_later (alone : ∀ k, (m.run k).others = []) (i : Nat) :
    ∀ k, ((m.run i).run k).others = [] := by
  intro k
  rw [← run_add]
  exact alone (i + k)

theorem Alone.append (alone : m.Alone i) (later : (m.run i).Alone j) : m.Alone (i + j) := by
  intro k below
  by_cases first : k ≤ i
  · exact alone k first
  · obtain ⟨rest, rfl⟩ := Nat.exists_eq_add_of_le (Nat.le_of_not_le first)
    rw [run_add]
    exact later rest (Nat.le_of_add_le_add_left below)

theorem run_finished (finished : (m.run turns).driver.frames = []) (later : turns ≤ k) :
    m.run k = m.run turns := by
  obtain ⟨rest, rfl⟩ := Nat.exists_eq_add_of_le later
  rw [run_add]
  exact run_stuck (by simp [step, finished]) rest

theorem Alone.forever (alone : m.Alone turns) (finished : (m.run turns).driver.frames = [])
    (k : Nat) : (m.run k).others = [] := by
  rcases Nat.le_total k turns with before | later
  · exact alone k before
  · rw [run_finished finished later]
    exact alone turns (Nat.le_refl _)

theorem Solo.after (solo : m.Solo) (alone : m.Alone turns) : (m.run turns).Solo :=
  solo.run turns fun k below => List.isEmpty_iff.mpr (alone k below)

theorem Solo.turned (solo : m.Solo) (alone : m.Alone 1) :
    (m.run 1).scene = m.scene ∨ m.scene.Moves (m.run 1).scene := by
  cases stepped : m.step with
  | none => exact .inl (by rw [run_stuck stepped])
  | some next =>
      have still := alone 1 (Nat.le_refl 1)
      rw [run_one stepped] at still ⊢
      exact solo.moves stepped still

theorem Solo.driver (solo : m.Solo) : m.driver.id = .driver := by
  induction solo with
  | load => rfl
  | @turn m next _ stepped _ ih =>
      unfold Machine.step at stepped
      split at stepped
      · cases stepped
      · split at stepped
        · next step turned =>
            cases stepped
            unfold Thread.step at turned
            split at turned
            · cases turned
            · simp only [Option.map_eq_some_iff] at turned
              obtain ⟨_, _, rfl⟩ := turned
              exact ih
        · split at stepped
          · cases stepped
            exact ih
          · simp only [passTime, Option.map_eq_some_iff] at stepped
            obtain ⟨_, _, rfl⟩ := stepped
            exact ih

theorem history_run (m : Machine) (turns : Nat) :
    ∃ events, (m.run turns).history = m.history ++ events := by
  induction turns generalizing m with
  | zero => exact ⟨[], (List.append_nil _).symm⟩
  | succ turns ih =>
      cases stepped : m.step with
      | none => exact ⟨[], by rw [run_stuck stepped, List.append_nil]⟩
      | some next =>
          obtain ⟨first, here⟩ : ∃ events, next.history = m.history ++ events := by
            unfold step at stepped
            split at stepped
            · cases stepped
            · split at stepped
              · cases stepped
                exact ⟨_, record_events ..⟩
              · split at stepped
                · cases stepped
                  exact ⟨_, record_events ..⟩
                · simp only [passTime, Option.map_eq_some_iff] at stepped
                  obtain ⟨_, _, rfl⟩ := stepped
                  exact ⟨[], (List.append_nil _).symm⟩
          obtain ⟨later, there⟩ := ih next
          exact ⟨first ++ later, by rw [run_of_step stepped, there, here, List.append_assoc]⟩

/-! ## The height of the stack -/

def height (m : Machine) : Nat := m.driver.frames.length

/-- A turn of the driver thread changes the top of its stack only, and a turn of another thread does
not change the stack at all. -/
theorem step_keeps_below {frame : Frame} (stepped : m.step = some next)
    (stack : m.driver.frames = frame :: below) : ∃ push, next.driver.frames = push ++ below := by
  unfold step at stepped
  rw [stack, List.isEmpty_cons, if_neg Bool.false_ne_true] at stepped
  split at stepped
  · next step turned =>
      cases stepped
      simp only [Thread.step, stack, Option.map_eq_some_iff] at turned
      obtain ⟨turn, _, rfl⟩ := turned
      exact ⟨turn.push, rfl⟩
  · split at stepped
    · cases stepped
      exact ⟨[frame], stack⟩
    · simp only [passTime, Option.map_eq_some_iff] at stepped
      obtain ⟨_, _, rfl⟩ := stepped
      exact ⟨[frame], stack⟩

/-- Until the stack has come down to it, what is below stays as it is. -/
theorem keeps_below (stack : m.driver.frames = push ++ base)
    (higher : ∀ k < turns, base.length < (m.run k).height) :
    ∃ push, (m.run turns).driver.frames = push ++ base := by
  induction turns with
  | zero => exact ⟨push, stack⟩
  | succ turns ih =>
      obtain ⟨push, before⟩ := ih fun k below => higher k (Nat.lt_succ_of_lt below)
      have high := higher turns (Nat.lt_succ_self _)
      rw [height, before] at high
      cases push with
      | nil => exact absurd high (Nat.lt_irrefl _)
      | cons frame push =>
          rw [run_add]
          cases stepped : (m.run turns).step with
          | none =>
              rw [run_stuck stepped]
              exact ⟨frame :: push, before⟩
          | some next =>
              obtain ⟨more, after⟩ := step_keeps_below stepped before
              rw [run_one stepped]
              exact ⟨more ++ push, after.trans (List.append_assoc ..).symm⟩

theorem top_of_gone {frame : Frame} (stack : m.driver.frames = push ++ frame :: base)
    (gone : (m.run 1).driver.frames = base) : push = [] := by
  cases push with
  | nil => rfl
  | cons above push =>
      exfalso
      have higher : ∀ k < 1, (frame :: base).length < (m.run k).height := by
        intro k first
        rw [Nat.lt_one_iff.mp first]
        show _ < m.driver.frames.length
        rw [stack]
        simp only [List.length_cons, List.length_append]
        omega
      obtain ⟨push', stack'⟩ := keeps_below stack higher
      have length := congrArg List.length (gone.symm.trans stack')
      simp only [List.length_cons, List.length_append] at length
      omega

/-- A stack that gets as low as `base` gets to `base` first. -/
theorem comes_down (stack : m.driver.frames = push ++ base)
    (low : (m.run turns).height ≤ base.length) :
    ∃ k ≤ turns, (m.run k).driver.frames = base ∧ ∀ j < k, base.length < (m.run j).height := by
  classical
  have found : ∃ k, (m.run k).height ≤ base.length := ⟨turns, low⟩
  have fewer : Nat.find found ≤ turns := Nat.find_min' found low
  have higher : ∀ j < Nat.find found, base.length < (m.run j).height :=
    fun j before => Nat.lt_of_not_le (Nat.find_min found before)
  obtain ⟨push, there⟩ := keeps_below stack higher
  have reached := Nat.find_spec found
  rw [height, there, List.length_append] at reached
  have none : push = [] := List.length_eq_zero_iff.mp (by omega)
  exact ⟨_, fewer, by rw [there, none, List.nil_append], higher⟩

/-- The span above `base` ends after some turns, and this is what it tells the frames below. -/
structure Span (m : Machine) (base : List Frame) (turns : Nat) (outcome : Signal) : Prop where
  begun : 0 < turns
  back : (m.run turns).driver.frames = base
  inside : ∀ k, 0 < k → k < turns → base.length < (m.run k).height
  outcome : (m.run turns).driver.signal = outcome

namespace Span

variable {outcome' : Signal}

theorem one (back : (m.run 1).driver.frames = base) (told : (m.run 1).driver.signal = outcome) :
    m.Span base 1 outcome where
  begun := Nat.one_pos
  back := back
  inside _ positive below := absurd positive (Nat.not_lt.mpr (Nat.le_of_lt_succ below))
  outcome := told

theorem unique (span : m.Span base i outcome) (span' : m.Span base j outcome') :
    i = j ∧ outcome = outcome' := by
  have low : (m.run i).height ≤ base.length := Nat.le_of_eq (congrArg List.length span.back)
  have low' : (m.run j).height ≤ base.length := Nat.le_of_eq (congrArg List.length span'.back)
  have same : i = j := by
    rcases Nat.lt_trichotomy i j with earlier | same | later
    · exact absurd (span'.inside i span.begun earlier) (Nat.not_lt.mpr low)
    · exact same
    · exact absurd (span.inside j span'.begun later) (Nat.not_lt.mpr low')
  subst same
  exact ⟨rfl, span.outcome.symm.trans span'.outcome⟩

theorem trans {base' : List Frame} (span : m.Span base' i outcome)
    (higher : base.length < base'.length) (later : (m.run i).Span base j outcome') :
    m.Span base (i + j) outcome' where
  begun := Nat.add_pos_left span.begun j
  back := by
    rw [run_add]
    exact later.back
  inside k positive below := by
    rcases Nat.lt_trichotomy k i with before | rfl | after
    · exact Nat.lt_trans higher (span.inside k positive before)
    · rw [height, span.back]
      exact higher
    · obtain ⟨rest, rfl⟩ := Nat.exists_eq_add_of_lt after
      rw [Nat.add_assoc, run_add]
      exact later.inside (rest + 1) (Nat.succ_pos _) (by omega)
  outcome := by
    rw [run_add]
    exact later.outcome

theorem after_first (above : base.length < (m.run 1).height)
    (span : (m.run 1).Span base turns outcome) : m.Span base (1 + turns) outcome where
  begun := Nat.lt_add_right turns Nat.one_pos
  back := by
    rw [run_add]
    exact span.back
  inside k positive below := by
    obtain ⟨k, rfl⟩ := Nat.exists_eq_add_of_le positive
    rw [run_add]
    cases k with
    | zero => exact above
    | succ k => exact span.inside (k + 1) (Nat.succ_pos k) (by omega)
  outcome := by
    rw [run_add]
    exact span.outcome

theorem pop {frame : Frame} (span : m.Span (frame :: base) i outcome)
    (back : (m.run (i + 1)).driver.frames = base)
    (told : (m.run (i + 1)).driver.signal = outcome') : m.Span base (i + 1) outcome' where
  begun := Nat.succ_pos _
  back := back
  inside k positive below := by
    rcases Nat.lt_or_ge k i with before | last
    · exact Nat.lt_of_succ_lt (span.inside k positive before)
    · rw [Nat.le_antisymm (Nat.le_of_lt_succ below) last, height, span.back]
      exact Nat.lt_succ_self _
  outcome := told

theorem later (span : m.Span base (i + j) outcome) (left : 0 < j) :
    (m.run i).Span base j outcome where
  begun := left
  back := by
    rw [← run_add]
    exact span.back
  inside k positive few := by
    rw [← run_add]
    exact span.inside (i + k) (Nat.lt_of_lt_of_le positive (Nat.le_add_left k i)) (by omega)
  outcome := by
    rw [← run_add]
    exact span.outcome

end Span

/-- The span above `base` ends after some turns of the one thread that there is, and this is what it
tells the frames below. -/
structure Comes (m : Machine) (base : List Frame) (turns : Nat) (outcome : Signal) : Prop where
  begun : 0 < turns
  alone : m.Alone turns
  back : (m.run turns).driver.frames = base
  inside : ∀ k, 0 < k → k < turns → base.length < (m.run k).height
  outcome : (m.run turns).driver.signal = outcome

theorem Comes.span (comes : m.Comes base turns outcome) : m.Span base turns outcome :=
  ⟨comes.begun, comes.back, comes.inside, comes.outcome⟩

theorem Span.comes (span : m.Span base turns outcome) (alone : m.Alone turns) :
    m.Comes base turns outcome :=
  ⟨span.begun, alone, span.back, span.inside, span.outcome⟩

theorem Comes.one (here : m.others = []) (after : (m.run 1).others = [])
    (back : (m.run 1).driver.frames = base) (told : (m.run 1).driver.signal = outcome) :
    m.Comes base 1 outcome :=
  (Span.one back told).comes (.one here after)

theorem comes_of_run (begun : 0 < turns) (alone : ∀ k ≤ i + turns, (m.run k).others.isEmpty = true)
    (back : (m.run (i + turns)).driver.frames = base)
    (inside : ∀ k < i + turns, i < k → base.length < (m.run k).height)
    (told : (m.run (i + turns)).driver.signal = outcome) : (m.run i).Comes base turns outcome where
  begun := begun
  alone k few := by
    rw [← run_add]
    exact List.isEmpty_iff.mp (alone (i + k) (by omega))
  back := by
    rw [← run_add]
    exact back
  inside k positive few := by
    rw [← run_add]
    exact inside (i + k) (by omega) (by omega)
  outcome := by
    rw [← run_add]
    exact told

theorem Comes.unique {outcome' : Signal} (comes : m.Comes base i outcome)
    (comes' : m.Comes base j outcome') : i = j ∧ outcome = outcome' :=
  comes.span.unique comes'.span

theorem Comes.trans {base' : List Frame} {outcome' : Signal} (comes : m.Comes base' i outcome)
    (higher : base.length < base'.length) (later : (m.run i).Comes base j outcome') :
    m.Comes base (i + j) outcome' :=
  (comes.span.trans higher later.span).comes (comes.alone.append later.alone)

theorem Comes.after_first (first : m.others = []) (above : base.length < (m.run 1).height)
    (comes : (m.run 1).Comes base turns outcome) : m.Comes base (1 + turns) outcome :=
  (comes.span.after_first above).comes
    ((Alone.one first (comes.alone 0 (Nat.zero_le _))).append comes.alone)

theorem Comes.pop {frame : Frame} {outcome' : Signal} (comes : m.Comes (frame :: base) i outcome)
    (alone : (m.run (i + 1)).others = []) (back : (m.run (i + 1)).driver.frames = base)
    (told : (m.run (i + 1)).driver.signal = outcome') : m.Comes base (i + 1) outcome' := by
  refine (comes.span.pop back told).comes (comes.alone.append (.one ?_ ?_))
  · exact comes.alone i (Nat.le_refl i)
  · rw [← run_add]
    exact alone

/-! ## Parts of a span -/

theorem Comes.later (comes : m.Comes base (i + j) outcome) (left : 0 < j) :
    (m.run i).Comes base j outcome :=
  (comes.span.later left).comes comes.alone.later

theorem Solo.within (solo : m.Solo) (comes : m.Comes base (i + j) outcome) : (m.run i).Solo :=
  solo.after (comes.alone.le (Nat.le_add_right i j))

theorem Comes.past_first (comes : m.Comes base turns outcome)
    (above : base.length < (m.run 1).height) :
    ∃ n, turns = 1 + n ∧ (m.run 1).Comes base n outcome := by
  obtain ⟨n, rfl⟩ := Nat.exists_eq_add_of_le (show 1 ≤ turns from comes.begun)
  refine ⟨n, rfl, comes.later ?_⟩
  rcases Nat.eq_zero_or_pos n with rfl | positive
  · rw [height, comes.back] at above
    exact absurd above (Nat.lt_irrefl _)
  · exact positive

/-- A span from above a frame comes by that frame. -/
theorem Comes.split {frame : Frame} {push : List Frame}
    (stack : m.driver.frames = push ++ frame :: base) (above : push ≠ [])
    (comes : m.Comes base turns outcome) :
    ∃ i j told, turns = i + j ∧ m.Comes (frame :: base) i told ∧
      (m.run i).Comes base j outcome := by
  have low : (m.run turns).height ≤ (frame :: base).length := by
    rw [height, comes.back]
    exact Nat.le_succ _
  obtain ⟨i, few, there, higher⟩ := comes_down stack low
  have begun : 0 < i := by
    rcases Nat.eq_zero_or_pos i with rfl | positive
    · have length := congrArg List.length (stack.symm.trans there)
      have some := List.length_pos_iff.mpr above
      simp only [List.length_append, List.length_cons] at length
      omega
    · exact positive
  obtain ⟨j, rfl⟩ := Nat.exists_eq_add_of_le few
  have left : 0 < j := by
    rcases Nat.eq_zero_or_pos j with rfl | positive
    · have length := congrArg List.length (comes.back.symm.trans there)
      simp only [List.length_cons] at length
      omega
    · exact positive
  have first : m.Comes (frame :: base) i (m.run i).driver.signal :=
    { begun := begun
      alone := comes.alone.le few
      back := there
      inside := fun k _ less => higher k less
      outcome := rfl }
  exact ⟨i, j, _, rfl, first, comes.later left⟩

structure Stays (m : Machine) (base : List Frame) (turns : Nat) : Prop where
  alone : m.Alone turns
  above : ∀ k ≤ turns, base.length < (m.run k).height

namespace Stays

theorem here (alone : m.others = []) (above : base.length < m.height) : m.Stays base 0 where
  alone k few := by
    rw [Nat.le_zero.mp few]
    exact alone
  above k few := by
    rw [Nat.le_zero.mp few]
    exact above

theorem append (stays : m.Stays base i) (later : (m.run i).Stays base j) :
    m.Stays base (i + j) where
  alone := stays.alone.append later.alone
  above k few := by
    rcases Nat.le_total k i with first | second
    · exact stays.above k first
    · obtain ⟨k, rfl⟩ := Nat.exists_eq_add_of_le second
      rw [run_add]
      exact later.above k (Nat.le_of_add_le_add_left few)

theorem after_first (first : m.others = []) (above : base.length < m.height)
    (stays : (m.run 1).Stays base i) : m.Stays base (1 + i) := by
  refine .append ?_ stays
  exact
    { alone := .one first (stays.alone 0 (Nat.zero_le i))
      above := fun k few => by
        rcases Nat.le_one_iff_eq_zero_or_eq_one.mp few with rfl | rfl
        · exact above
        · exact stays.above 0 (Nat.zero_le i) }

theorem comes (stays : m.Stays base i) (comes : (m.run i).Comes base j outcome) :
    m.Comes base (i + j) outcome where
  begun := Nat.add_pos_right i comes.begun
  alone := stays.alone.append comes.alone
  back := by
    rw [run_add]
    exact comes.back
  inside k positive few := by
    rcases Nat.le_total k i with first | second
    · exact stays.above k first
    · obtain ⟨k, rfl⟩ := Nat.exists_eq_add_of_le second
      rw [run_add]
      rcases Nat.eq_zero_or_pos k with rfl | positive
      · exact stays.above i (Nat.le_refl i)
      · exact comes.inside k positive (Nat.lt_of_add_lt_add_left few)
  outcome := by
    rw [run_add]
    exact comes.outcome

theorem of_last (comes : m.Comes base (i + 1) outcome) (first : base.length < m.height) :
    m.Stays base i where
  alone := comes.alone.le (Nat.le_succ i)
  above k few := by
    rcases Nat.eq_zero_or_pos k with rfl | positive
    · exact first
    · exact comes.inside k positive (Nat.lt_succ_of_le few)

theorem lower {push : List Frame} (stays : m.Stays (push ++ base) i) : m.Stays base i where
  alone := stays.alone
  above k few := by
    have above := stays.above k few
    rw [List.length_append] at above
    omega

theorem of_comes {base' : List Frame} (comes : m.Comes base' turns outcome)
    (first : base.length < m.height) (higher : base.length < base'.length) :
    m.Stays base turns where
  alone := comes.alone
  above k few := by
    rcases Nat.eq_zero_or_pos k with rfl | positive
    · exact first
    · rcases Nat.lt_or_eq_of_le few with before | rfl
      · exact Nat.lt_trans higher (comes.inside k positive before)
      · rw [height, comes.back]
        exact higher

end Stays

/-! ## Single turns -/

theorem step_of_resume {frame : Frame} {turn : Turn} (top : m.driver.frames = frame :: below)
    (taken : frame.resume
      { thread := m.driver.id, batches := Frame.batchNames (frame :: below) } m.world
      m.driver.signal = some turn) :
    m.step = some
      { world := turn.world
        driver := { m.driver with frames := turn.push ++ below, signal := turn.signal }
        others := m.others ++ turn.spawn
        journal := record m.driver.id turn.events m.journal } := by
  have turned : m.driver.step m.world = some
      { world := turn.world
        thread := { m.driver with frames := turn.push ++ below, signal := turn.signal }
        events := turn.events
        spawn := turn.spawn } := by
    simp only [Thread.step, top, taken, Option.map_some]
  simp only [step, top, List.isEmpty_cons, Bool.false_eq_true, if_false, turned]

theorem run_one_of_reply {frame : Frame} {turn : Turn} (top : m.driver.frames = frame :: below)
    (taken : frame.resume
      { thread := m.driver.id, batches := Frame.batchNames (frame :: below) } m.world
      m.driver.signal = some turn)
    (push : turn.push = []) (spawn : turn.spawn = []) :
    (m.run 1).driver.frames = below ∧ (m.run 1).driver.signal = turn.signal ∧
      (m.run 1).others = m.others := by
  rw [run_one (step_of_resume top taken), push, spawn]
  exact ⟨rfl, rfl, List.append_nil _⟩

theorem run_one_settle {job : JobId} {b : BatchId}
    (top : m.driver.frames = .settle job b :: below) :
    (m.run 1).driver.frames = below ∧ (m.run 1).driver.signal = .returned .nothing ∧
      (m.run 1).others = m.others :=
  run_one_of_reply top rfl rfl rfl

theorem run_one_contain {job : JobId} {p : PoolId}
    (top : m.driver.frames = .contain job p :: below) :
    (m.run 1).driver.frames = below ∧ (m.run 1).driver.signal = .returned .nothing ∧
      (m.run 1).others = m.others := by
  obtain ⟨turn, taken, push, spawn, told⟩ : ∃ turn, (Frame.contain job p).resume
      { thread := m.driver.id, batches := Frame.batchNames (.contain job p :: below) } m.world
      m.driver.signal = some turn ∧ turn.push = [] ∧ turn.spawn = [] ∧
        turn.signal = .returned .nothing := by
    cases m.driver.signal <;> exact ⟨_, rfl, rfl, rfl, rfl⟩
  exact told ▸ run_one_of_reply top taken push spawn

theorem run_one_executed {reply : Reply} (top : m.driver.frames = .executed :: below)
    (told : m.driver.signal = .returned reply) :
    (m.run 1).driver.frames = below ∧ (m.run 1).driver.signal = .returned (.flag true) ∧
      (m.run 1).others = m.others :=
  run_one_of_reply top (by rw [told]; rfl) rfl rfl

theorem run_one_unwinds {job : JobId} {label : String} {next : Nat} {rest : List Op}
    {onBatch : Option String} {payload : Payload}
    (top : m.driver.frames = .body job label next rest onBatch :: below)
    (raised : m.driver.signal = .raised payload) :
    (m.run 1).driver.frames = below ∧ (m.run 1).driver.signal = .raised payload ∧
      (m.run 1).others = m.others ∧
      (m.run 1).history = m.history ++ [.unwound job label payload] := by
  rw [run_one (step_of_resume top (by rw [raised]; rfl))]
  exact ⟨rfl, rfl, List.append_nil _, record_events ..⟩

theorem run_one_leave {loans : List Loan} {onFailure : OnFailure} {caught : Bool}
    (top : m.driver.frames = .call loans onFailure caught :: below) :
    (m.run 1).driver.frames = below ∧
      (m.run 1).driver.signal =
        (Frame.leaveCall onFailure caught m.driver.signal (m.world.giveBack loans)).signal ∧
      (m.run 1).others = m.others ∧ (m.run 1).world = m.world.giveBack loans ∧
      (m.run 1).history = m.history := by
  have stepped := step_of_resume (m := m) top rfl
  rw [Frame.leaveCall_eq] at stepped
  rw [run_one stepped]
  exact ⟨rfl, rfl, List.append_nil _, rfl, rfl⟩

theorem run_one_call {loans : List Loan} {onFailure : OnFailure} {caught told : Bool}
    (top : m.driver.frames = .call loans onFailure caught :: below)
    (tells : m.driver.signal = .returned (.flag told)) :
    (m.run 1).driver.frames = below ∧ (m.run 1).driver.signal = .returned (.flag told) ∧
      (m.run 1).others = m.others :=
  run_one_of_reply top (by rw [tells]; rfl) rfl rfl

/-! ## Tasks taken from a queue -/

/-- When the stack comes down to the pool that was asked for a job, the pool keeps what happened to
itself. -/
theorem contains {job : JobId} {p : PoolId}
    (stack : m.driver.frames = push ++ .contain job p :: base)
    (low : (m.run turns).height ≤ base.length + 1) :
    ∃ k, m.Span base (k + 1) (.returned .nothing) ∧ k ≤ turns ∧
      (m.run (k + 1)).others = (m.run k).others := by
  obtain ⟨k, fewer, there, higher⟩ := comes_down stack low
  obtain ⟨back, told, still⟩ := run_one_contain there
  rw [← run_add] at back told still
  refine ⟨k, ?_, fewer, still⟩
  exact
    { begun := Nat.succ_pos k
      back := back
      inside := fun i _ below => by
        rcases Nat.lt_or_ge i k with before | last
        · exact Nat.lt_of_succ_lt (higher i before)
        · rw [Nat.le_antisymm (Nat.le_of_lt_succ below) last, height, there]
          exact Nat.lt_succ_self _
      outcome := told }

theorem Alone.contains (alone : m.Alone turns) {job : JobId} {p : PoolId}
    (stack : m.driver.frames = push ++ .contain job p :: base)
    (low : (m.run turns).height ≤ base.length + 1) :
    ∃ k, m.Comes base (k + 1) (.returned .nothing) ∧ k ≤ turns := by
  obtain ⟨k, span, fewer, still⟩ := Machine.contains stack low
  refine ⟨k, span.comes ((alone.le fewer).append (.one (alone k fewer) ?_)), fewer⟩
  rw [← run_add, still]
  exact alone k fewer

def BodiesEnd (m : Machine) : Prop :=
  ∀ k job label next rest onBatch below,
    (m.run k).driver.frames = .body job label next rest onBatch :: below →
      ∃ j, (m.run (k + j)).height ≤ below.length

theorem BodiesEnd.later (ends : m.BodiesEnd) (i : Nat) : (m.run i).BodiesEnd := by
  intro k job label next rest onBatch below top
  rw [← run_add] at top
  obtain ⟨j, low⟩ := ends (i + k) job label next rest onBatch below top
  refine ⟨j, ?_⟩
  rwa [← run_add, ← Nat.add_assoc]

theorem bodiesEnd_of_finished (finished : (m.run turns).driver.frames = []) : m.BodiesEnd := by
  intro k job label next rest onBatch below _
  refine ⟨turns, ?_⟩
  rw [run_finished finished (Nat.le_add_left turns k), height, finished]
  exact Nat.zero_le _

theorem task_leaves {task : Task} {frame : Frame}
    (stack : m.driver.frames = task.frames ++ frame :: base)
    (ends : ∀ below, m.driver.frames = .body task.id task.label 0 task.ops task.onBatch :: below →
      ∃ j, (m.run j).height ≤ below.length) : ∃ k, (m.run k).height ≤ base.length + 1 := by
  obtain ⟨j, low⟩ := ends _ (stack.trans (List.cons_append ..))
  cases wrapped : task.batch with
  | none =>
      rw [wrapped] at low
      exact ⟨j, low⟩
  | some b =>
      have split : task.frames ++ frame :: base =
          [.body task.id task.label 0 task.ops task.onBatch] ++
            .settle task.id b :: frame :: base := by
        simp [Task.frames, wrapped]
      have low : (m.run j).height ≤ (Frame.settle task.id b :: frame :: base).length := by
        rw [wrapped] at low
        exact low
      obtain ⟨k, _, there, _⟩ := comes_down (stack.trans split) low
      have left := (run_one_settle there).1
      rw [← run_add] at left
      exact ⟨k + 1, Nat.le_of_eq (congrArg List.length left)⟩

/-- A task whose body ends is reported, and then contained. -/
theorem task_comes (alone : ∀ k, (m.run k).others = []) {task : Task} {p : PoolId}
    (stack : m.driver.frames = task.frames ++ .contain task.id p :: base)
    (ends : ∀ below, m.driver.frames = .body task.id task.label 0 task.ops task.onBatch :: below →
      ∃ j, (m.run j).height ≤ below.length) :
    ∃ k, m.Comes base (k + 1) (.returned .nothing) := by
  obtain ⟨turns, low⟩ := task_leaves stack ends
  obtain ⟨k, comes, _⟩ := Alone.contains (fun k _ => alone k) stack low
  exact ⟨k, comes⟩

theorem task_ends (alone : ∀ k, (m.run k).others = []) (ends : m.BodiesEnd) {task : Task}
    {p : PoolId} (stack : m.driver.frames = task.frames ++ .contain task.id p :: base) :
    ∃ k, m.Comes base (k + 1) (.returned .nothing) :=
  task_comes alone stack fun below top => by
    simpa only [Nat.zero_add] using ends 0 _ _ _ _ _ _ top

/-- Every task body that starts before the stack has come down to `base` ends, but perhaps those of
some jobs. -/
def EndsAbove (m : Machine) (base : List Frame) (jobs : List JobId) : Prop :=
  ∀ k job label next rest onBatch below, job ∉ jobs →
    (∀ l ≤ k, base.length < (m.run l).height) →
    (m.run k).driver.frames = .body job label next rest onBatch :: below →
      ∃ j, (m.run (k + j)).height ≤ below.length

theorem BodiesEnd.above (ends : m.BodiesEnd) (base : List Frame) (jobs : List JobId) :
    m.EndsAbove base jobs :=
  fun k job label next rest onBatch below _ _ top => ends k job label next rest onBatch below top

theorem EndsAbove.later {jobs : List JobId} (ends : m.EndsAbove base jobs)
    (inside : ∀ l < i, base.length < (m.run l).height) : (m.run i).EndsAbove base jobs := by
  intro k job label next rest onBatch below other inside' top
  rw [← run_add] at top
  obtain ⟨j, low⟩ := ends (i + k) job label next rest onBatch below other (fun l early => by
    rcases Nat.lt_or_ge l i with before | after
    · exact inside l before
    · obtain ⟨l, rfl⟩ := Nat.exists_eq_add_of_le after
      rw [run_add]
      exact inside' l (by omega)) top
  refine ⟨j, ?_⟩
  rwa [← run_add, ← Nat.add_assoc]

end Machine

end TaskPool
