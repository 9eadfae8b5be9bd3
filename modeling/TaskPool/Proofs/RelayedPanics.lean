import TaskPool.Proofs.BatchLifetimes
import TaskPool.Proofs.CapturedFailures
import TaskPool.Proofs.WaitProgress

/-!
# Panics that are handed on

A task that waits on another batch may raise the failure that it is told again, and then its own
batch is left with a panic. So a panic is handed on from batch to batch. At each of them it is
captured, kept in the barrier, delivered by a wait and raised anew, and it stays what it was. It is
enough that it comes first: that no other wrapped task of the batch has panicked in the epoch.

`Relay` follows such a panic through a run in which the waits return, from the batch of the task
that panicked to those that hand it on. `Chain` only says which task waits for which: that the waits
return is proved, from the inside to the outside, since a panic ends the task that it leaves.
-/

namespace TaskPool

open TaskPool.System

/-! ## Epochs -/

def epochs (b : BatchId) (history : List Event) : Nat := history.countP (Event.delivers b)

section

variable {b : BatchId} {history events : List Event}

theorem epochs_append_iff : epochs b (history ++ events) = epochs b history ↔
    ∀ event ∈ events, event.delivers b = false := by
  rw [epochs, epochs, List.countP_append, Nat.add_eq_left, List.countP_eq_zero]
  simp

end

namespace Scene

variable {σ σ' : Scene} {opening : Opening} {b : BatchId}

/-- An epoch ends only with a wait on the batch that returns. -/
theorem Moves.same_epoch (moves : σ.Moves σ') :
    epochs b σ'.history = epochs b σ.history ∨
      ∃ budget goal, σ.frames = .waiting b budget goal :: σ'.frames ∧ goal ≠ .close := by
  have silent : ∀ {events}, σ'.history = σ.history ++ events →
      (∀ event ∈ events, event.isSilent = true) → epochs b σ'.history = epochs b σ.history := by
    intro events history silent
    rw [history, epochs_append_iff]
    exact fun event member => Event.delivers_silent (silent event member)
  cases moves with
  | advances _ _ quiet => exact .inl (silent rfl (Event.silent_script quiet))
  | opens _ _ opens => exact .inl (silent rfl opens.silent)
  | leaves | passes | finishes | sweepEnds => exact .inl rfl
  | ends | contains => exact .inl (silent rfl (by simp [Event.isSilent]))
  | sweeps | helps | drains => exact .inl (silent rfl (by simp [Task.started, Event.isSilent]))
  | settles | closesBatch | closesPool => exact .inl (silent rfl (Event.silent_notices _))
  | unwinds => exact .inl (epochs_append_iff.mpr (by simp [Event.delivers]))
  | @delivers c budget goal below top asked =>
      by_cases own : c = b
      · subst own
        exact .inr ⟨budget, goal, top, asked⟩
      · refine .inl (epochs_append_iff.mpr ?_)
        cases (σ.system.deliver c).1 <;> simp [Event.delivers, own]

/-! ## One wait at a time -/

def Sole (σ : Scene) : Prop := ∀ object, σ.loans.count ⟨object, .exclude⟩ ≤ 1

theorem count_foldl_erase (loan : Loan) (loans rest : List Loan) :
    (loans.foldl List.erase rest).count loan ≤ rest.count loan := by
  induction loans generalizing rest with
  | nil => exact Nat.le_refl _
  | cons first loans ih => exact Nat.le_trans (ih _) (List.erase_sublist.count_le _)

theorem count_freed (loan : Loan) (batch : Option BatchId) :
    (σ.freed batch).count loan ≤ σ.loans.count loan := by
  unfold freed
  split
  · exact Nat.le_refl _
  · exact count_foldl_erase ..

theorem Opens.sole (opens : σ.Opens opening) (sole : σ.Sole) (object : Object) :
    (opening.loans ++ σ.loans).count ⟨object, .exclude⟩ ≤ 1 := by
  have old := sole object
  have lends : ∀ {loans}, σ.Lends loans →
      (loans ++ σ.loans).count ⟨object, .exclude⟩ ≤ 1 := by
    intro loans lent
    have none : loans.count ⟨object, .exclude⟩ = 0 :=
      List.count_eq_zero.mpr fun member => (lent _ member).2.1 rfl
    rwa [List.count_append, none, Nat.zero_add]
  have holds : ∀ {b}, σ.Free (.batch b) →
      (([⟨.batch b, .exclude⟩] : List Loan) ++ σ.loans).count ⟨object, .exclude⟩ ≤ 1 := by
    intro b free
    by_cases own : object = .batch b
    · subst own
      have none : σ.loans.count ⟨.batch b, .exclude⟩ = 0 :=
        List.count_eq_zero.mpr fun member => free _ member rfl
      simp [none]
    · have other : (([⟨.batch b, .exclude⟩] : List Loan)).count ⟨object, .exclude⟩ = 0 :=
        List.count_eq_zero.mpr (by simp [own])
      rwa [List.count_append, other, Nat.zero_add]
  cases opens with
  | rests lent | pauses lent | queues lent | runsInline lent | executes lent => exact lends lent
  | sweeps lent => exact lends lent
  | waits _ free | triesToWait _ free => exact holds free
  | startsPool | issuesToken | makesBatch | dropsToken | dropsBatch | dropsPool => exact old

theorem Moves.sole (moves : σ.Moves σ') (sole : σ.Sole) : σ'.Sole := by
  intro object
  have old := sole object
  cases moves with
  | opens _ _ opens => exact opens.sole sole object
  | leaves => exact Nat.le_trans (count_foldl_erase ..) old
  | sweepEnds => exact Nat.le_trans (count_freed ..) old
  | @sweeps _ batch =>
      have none : (Frame.shares batch).count ⟨object, .exclude⟩ = 0 :=
        List.count_eq_zero.mpr (by simp [Frame.shares])
      rw [List.count_append, none, Nat.zero_add]
      exact Nat.le_trans (count_freed ..) old
  | advances | passes | finishes | ends | unwinds | settles | contains | helps | delivers
  | closesBatch | drains | closesPool => exact old

theorem only_wait (sole : σ.Sole) (custody : Custody σ) {budget : Option Nat} {goal : Goal}
    {push base : List Frame} {onFailure : OnFailure} {caught : Bool}
    (top : σ.frames =
      .waiting b budget goal :: (push ++ .call [⟨.batch b, .exclude⟩] onFailure caught :: base))
    (asked : goal ≠ .close) : push = [] := by
  have stacked := custody.stacked
  rw [top] at stacked
  obtain ⟨onFailure', caught', rest, on⟩ := stacked.1.asked asked
  cases push with
  | nil => rfl
  | cons frame push =>
      have first : frame = .call [⟨.batch b, .exclude⟩] onFailure' caught' :=
        (List.cons.inj on).1
      have held := custody.loans
      rw [top, heldLoans_of_empty rfl, first] at held
      have twice := sole (.batch b)
      rw [held] at twice
      simp [Frame.loans] at twice

theorem Moves.body_goes_on (moves : σ.Moves σ') {job : JobId} {label : String} {next : Nat}
    {ops : List Op} {onBatch : Option String} {below : List Frame}
    (top : σ.frames = .body job label next ops onBatch :: below) :
    σ'.frames = below ∨
      ∃ push next ops, σ'.frames = push ++ .body job label next ops onBatch :: below := by
  cases moves with
  | advances top' on =>
      obtain ⟨rfl, rfl⟩ := List.cons.inj (top'.symm.trans top)
      cases on
      exact .inr ⟨[], _, _, rfl⟩
  | @opens _ _ _ opening onFailure caught top' on =>
      obtain ⟨rfl, rfl⟩ := List.cons.inj (top'.symm.trans top)
      cases on
      exact .inr ⟨_, _, _,
        (List.append_assoc opening.push [.call opening.loans onFailure caught] (_ :: _)).symm⟩
  | ends top' | unwinds top' => exact .inl (List.cons.inj (top'.symm.trans top)).2
  | passes top' kind =>
      rw [(List.cons.inj (top'.symm.trans top)).1] at kind
      simp [Frame.isPause] at kind
  | leaves top' | finishes top' | settles top' | contains top' | sweeps top' | sweepEnds top'
  | helps top' | delivers top' | closesBatch top' | drains top' | closesPool top' =>
      cases top'.symm.trans top

end Scene

namespace Machine

variable {m next : Machine} {b : BatchId} {job : JobId} {v : Payload} {goal : Goal}
  {budget : Option Nat} {reply : Reply} {below : List Frame} {i j turns : Nat}

theorem Solo.sole (solo : m.Solo) : m.scene.Sole :=
  solo.invariant (fun _ _ _ _ => Nat.zero_le 1) fun _ sole moves => moves.sole sole

theorem Solo.same_epoch (solo : m.Solo) (alone : m.Alone turns)
    (top : m.driver.frames = .waiting b budget goal :: below) (asked : goal ≠ .close)
    (inside : ∀ k ≤ turns, below.length < (m.run k).height) :
    epochs b (m.run turns).history = epochs b m.history := by
  have stacked := solo.sound.scene.custody.stacked
  rw [show m.scene.frames = _ from top] at stacked
  obtain ⟨onFailure, caught, base, rfl⟩ := stacked.1.asked asked
  induction turns with
  | zero => rfl
  | succ turns ih =>
      rw [← ih (alone.le (Nat.le_succ _)) fun k early => inside k (Nat.le_succ_of_le early)]
      have solo' := solo.after (alone.le (Nat.le_succ turns))
      rw [run_add]
      rcases solo'.turned (alone.later (j := 1)) with same | moves
      · exact congrArg (epochs b) (congrArg Scene.history same)
      · rcases moves.same_epoch (b := b) with same | ⟨budget', goal', top', asked'⟩
        · exact same
        · -- the wait that returns would be this one, and then the stack comes down
          obtain ⟨push, stack⟩ := keeps_below
            (show m.driver.frames = [.waiting b budget goal] ++ _ from top)
            fun k (early : k < turns + 1) => inside k (Nat.le_of_lt early)
          have high := inside (turns + 1) (Nat.le_refl _)
          rw [height, stack, List.length_append] at high
          rw [← run_add, show (m.run (turns + 1)).scene.frames = _ from stack] at top'
          have none := Scene.only_wait solo'.sole solo'.sound.scene.custody top' asked'
          simp [none] at high

/-! ## The first panic of an epoch -/

def Panicking (m : Machine) (job : JobId) (b : BatchId) (v : Payload) : Prop :=
  ∃ label next ops onBatch below,
    m.driver.frames = .body job label next ops onBatch :: .settle job b :: below ∧
      m.driver.signal = .raised v

theorem Solo.current_of_settle (solo : m.Solo) (reports : .settle job b ∈ m.driver.frames) :
    m.scene.Current b := by
  intro _ closed
  rcases solo.attends (solo.balanced.counted reports) with live | ⟨closing, _⟩
  · exact Stage.noConfusion (closed.symm.trans live)
  · exact Stage.noConfusion (closed.symm.trans closing)

theorem Solo.panics_run (solo : m.Solo) (alone : m.Alone turns) {events : List Event}
    (history : (m.run turns).history = m.history ++ events)
    (same : ∀ event ∈ events, event.delivers b = false) :
    panics b (m.run turns).history =
      panics b m.history ++ events.filterMap (Event.panicOf b (m.run turns).history) := by
  rw [history]
  exact panics_append same (solo.tallied.fresh (solo.after alone).tallied history)

theorem Solo.panicked (solo : m.Solo) (alone : m.Alone 1) (panicking : m.Panicking job b v)
    (first : panics b m.history = []) :
    panics b (m.run 1).history = [v] ∧ epochs b (m.run 1).history = epochs b m.history := by
  obtain ⟨label, next, ops, onBatch, below, top, raised⟩ := panicking
  obtain ⟨frames, signal, _, history⟩ := run_one_unwinds top raised
  have solo' := solo.after alone
  have same : ∀ event ∈ [Event.unwound job label v], event.delivers b = false := by
    simp [Event.delivers]
  have reports : .settle job b ∈ (m.run 1).driver.frames := frames ▸ List.mem_cons_self
  obtain ⟨reported, list, _⟩ := solo'.keepsFirsts b (solo'.current_of_settle reports)
  have moving : transit b (m.run 1).scene.frames (m.run 1).scene.signal = [v] := by
    rw [show (m.run 1).scene.frames = _ from frames, show (m.run 1).scene.signal = _ from signal]
    simp [transit]
  rw [moving] at list
  -- one event tells of one panic at most, so nothing was reported before
  have few : (panics b (m.run 1).history).length ≤ 1 := by
    rw [solo.panics_run alone history same, first, List.nil_append]
    exact List.length_filterMap_le _ _
  have list : panics b (m.run 1).history = reported ++ [v] := list
  have none : reported = [] := by
    rw [list, List.length_append, List.length_singleton] at few
    exact List.length_eq_zero_iff.mp (by omega)
  exact ⟨by rw [list, none, List.nil_append], history ▸ epochs_append_iff.mpr same⟩

theorem Solo.stays_first (solo : m.Solo) (alone : m.Alone turns) {rest : List Payload}
    (first : panics b m.history = v :: rest)
    (same : epochs b (m.run turns).history = epochs b m.history) :
    ∃ rest, panics b (m.run turns).history = v :: rest := by
  obtain ⟨events, history⟩ := m.history_run turns
  rw [history, epochs_append_iff] at same
  rw [solo.panics_run alone history same, first]
  exact ⟨_, rfl⟩

/-- A wait that returns tells the first panic of the epoch. -/
theorem Solo.tells_first (solo : m.Solo) (returns : m.Returns next b goal reply)
    (asked : goal ≠ .close) {rest : List Payload} (first : panics b m.history = v :: rest) :
    reply = .failed (Failure.ofPayload v) := by
  obtain ⟨budget, top⟩ := returns.top
  have sound := solo.sound.scene
  obtain ⟨_, ⟨_, _, signal, _⟩ | ⟨wrong, _⟩⟩ := (returns.moves solo).wait_returns top
  · have live := (Scene.awaited sound.registry sound.custody top asked).2
    obtain ⟨reported, list, keeps⟩ := solo.keepsFirsts b fun _ => Stage.opened live
    have calm : transit b m.scene.frames m.scene.signal = [] := by
      rw [show m.scene.frames = _ from top]
      exact transit_of_ne (by simp)
    rw [calm, List.append_nil, show m.scene.history = m.history from rfl, first] at list
    have told := Signal.returned.inj (returns.signal.symm.trans signal)
    rw [deliver_failure, keeps.pending, ← list] at told
    exact told
  · exact absurd wrong asked

/-- A wait on the batch returns in turn `j`, in the epoch of turn `i`. -/
structure Collects (m : Machine) (b : BatchId) (i j : Nat) (goal : Goal) (reply : Reply) :
    Prop where
  later : i < j
  same : epochs b (m.run j).history = epochs b (m.run i).history
  returns : (m.run j).Returns (m.run (j + 1)) b goal reply
  asked : goal ≠ .close

theorem Solo.collects (solo : m.Solo) (alone : m.Alone j) (panicking : (m.run i).Panicking job b v)
    (first : panics b (m.run i).history = []) (collects : m.Collects b i j goal reply) :
    reply = .failed (Failure.ofPayload v) := by
  obtain ⟨turns, rfl⟩ := Nat.exists_eq_add_of_le (show i + 1 ≤ j from collects.later)
  have before := solo.after (alone.le (by omega : i ≤ i + 1 + turns))
  have after := solo.after (alone.le (by omega : i + 1 ≤ i + 1 + turns))
  have one : (m.run i).Alone 1 := (alone.le (by omega : i + 1 ≤ i + 1 + turns)).later
  obtain ⟨told, epoch⟩ := before.panicked one panicking first
  rw [← run_add] at told epoch
  have same := collects.same
  rw [← epoch, run_add] at same
  obtain ⟨rest, front⟩ := after.stays_first alone.later told same
  rw [← run_add] at front
  exact (solo.after alone).tells_first collects.returns collects.asked front

/-! ## Relays -/

/-- The panic `v` is handed on from the last batch of the list to `b`. At each of them it is about
to leave a wrapped task in some turn, before any other panic of the epoch; at `b` it is turn `i`. -/
inductive Relay (m : Machine) (v : Payload) : BatchId → List BatchId → Nat → Prop where
  /-- A task panics. -/
  | raises {job : JobId} {b : BatchId} {i : Nat} (raised : (m.run i).Panicking job b v)
      (first : panics b (m.run i).history = []) : Relay m v b [] i
  /-- A task waits on a batch that the panic has come to, in the same epoch, and raises the failure
  again that it is told, if it is told one. -/
  | rethrows {b c : BatchId} {rest : List BatchId} {i j : Nat} {budget : Option Nat} {goal : Goal}
      {reply : Reply} {loans : List Loan} {job : JobId} {label : String} {next : Nat}
      {ops : List Op} {onBatch : Option String} {below : List Frame}
      (relay : Relay m v c rest i) (collects : m.Collects c i j goal reply)
      (stack : (m.run j).driver.frames = .waiting c budget goal :: .call loans .rethrow false ::
        .body job label next ops onBatch :: .settle job b :: below)
      (first : panics b (m.run (j + 2)).history = []) : Relay m v b (c :: rest) (j + 2)
  /-- A task waits on such a batch, and panics later with the payload of the failure that it was
  told. -/
  | panicsWith {b c : BatchId} {rest : List BatchId} {i j k : Nat} {budget : Option Nat}
      {goal : Goal} {failure : Failure} {loans : List Loan} {onFailure : OnFailure} {caught : Bool}
      {job : JobId} {label : String} {next : Nat} {ops : List Op} {onBatch : Option String}
      {below : List Frame}
      (relay : Relay m v c rest i) (collects : m.Collects c i j goal (.failed failure))
      (stack : (m.run j).driver.frames = .waiting c budget goal :: .call loans onFailure caught ::
        .body job label next ops onBatch :: .settle job b :: below)
      (later : j < k) (raised : (m.run k).Panicking job b failure.payload)
      (first : panics b (m.run k).history = []) : Relay m v b (c :: rest) k

theorem Collects.rethrown {c : BatchId} {loans : List Loan} {label : String} {next : Nat}
    {ops : List Op} {onBatch : Option String}
    (collects : m.Collects c i j goal (.failed (Failure.ofPayload v)))
    (stack : (m.run j).driver.frames = .waiting c budget goal :: .call loans .rethrow false ::
      .body job label next ops onBatch :: .settle job b :: below) :
    (m.run (j + 2)).Panicking job b v := by
  obtain ⟨_, top⟩ := collects.returns.top
  have frames := (List.cons.inj (top.symm.trans stack)).2
  obtain ⟨back, signal, _⟩ := run_one_leave frames
  rw [collects.returns.signal] at signal
  rw [← run_add] at back signal
  exact ⟨_, _, _, _, _, back, signal⟩

/-- The panic arrives at every batch as it was. The induction is on the way that it took. -/
theorem Relay.arrives {rest : List BatchId} (relay : m.Relay v b rest i) (solo : m.Solo)
    (alone : m.Alone i) :
    ∃ job, (m.run i).Panicking job b v ∧ panics b (m.run i).history = [] := by
  induction relay with
  | raises raised first => exact ⟨_, raised, first⟩
  | rethrows _ collects stack first ih =>
      obtain ⟨_, raised, first'⟩ := ih (alone.le (by have := collects.later; omega))
      cases solo.collects (alone.le (Nat.le_add_right ..)) raised first' collects
      exact ⟨_, collects.rethrown stack, first⟩
  | panicsWith _ collects _ later raised first ih =>
      obtain ⟨_, raised', first'⟩ := ih (alone.le (by have := collects.later; omega))
      cases solo.collects (alone.le (Nat.le_of_lt later)) raised' first' collects
      exact ⟨_, raised, first⟩

/-! ## The end of a body that a panic leaves -/

section

variable {label : String} {next : Nat} {ops : List Op} {onBatch : Option String}

theorem Solo.body_stays (solo : m.Solo) (alone : m.Alone turns)
    (top : m.driver.frames = .body job label next ops onBatch :: below)
    (inside : ∀ k ≤ turns, below.length < (m.run k).height) :
    ∃ push next ops, (m.run turns).driver.frames =
      push ++ .body job label next ops onBatch :: below := by
  induction turns with
  | zero => exact ⟨[], next, ops, top⟩
  | succ turns ih =>
      have alone' := alone.le (Nat.le_succ turns)
      obtain ⟨push, next, ops, stack⟩ := ih alone' fun k early => inside k (Nat.le_succ_of_le early)
      have high := inside (turns + 1) (Nat.le_refl _)
      rw [height] at high
      rw [run_add] at high ⊢
      rcases (solo.after alone').turned (alone.later (j := 1)) with same | moves
      · exact ⟨push, next, ops, (congrArg Scene.frames same).trans stack⟩
      · cases push with
        | nil =>
            rcases moves.body_goes_on stack with gone | on
            · rw [show ((m.run turns).run 1).driver.frames = below from gone] at high
              exact absurd high (Nat.lt_irrefl _)
            · exact on
        | cons frame push =>
            obtain ⟨more, stack⟩ := moves.keeps_below stack
            exact ⟨more ++ push, next, ops, stack.trans (List.append_assoc ..).symm⟩

theorem Solo.left_for_good (solo : m.Solo) (alone : m.Alone (i + 1 + turns))
    (panicking : (m.run i).Panicking job b v) :
    (m.run (i + 1 + turns)).driver.frames ≠ .body job label next ops onBatch :: below := by
  intro top
  obtain ⟨label', _, _, _, _, body, raised⟩ := panicking
  obtain ⟨_, _, _, unwound⟩ := run_one_unwinds body raised
  obtain ⟨events, history⟩ := ((m.run i).run 1).history_run turns
  rw [unwound, ← run_add, ← run_add, ← Nat.add_assoc] at history
  have logged : .unwound job label' v ∈ (m.run (i + 1 + turns)).history := by
    rw [history]
    exact List.mem_append_left _ (List.mem_append_right _ List.mem_cons_self)
  have ended : 0 < (m.run (i + 1 + turns)).scene.times (.ends job) :=
    List.count_pos_iff.mpr (List.mem_filterMap.mpr ⟨_, logged, rfl⟩)
  have runs : 0 < (m.run (i + 1 + turns)).scene.running job :=
    List.count_pos_iff.mpr (List.mem_filterMap.mpr ⟨_, top ▸ List.mem_cons_self, rfl⟩)
  have once := (solo.after alone).tallied.once job
  omega

theorem Solo.panics_once (solo : m.Solo) (alone : ∀ k, (m.run k).others = []) {c : BatchId}
    {w : Payload} (panicking : (m.run i).Panicking job b v)
    (panicking' : (m.run j).Panicking job c w) : i = j := by
  have ordered : ∀ {i j b c v w}, (m.run i).Panicking job b v → (m.run j).Panicking job c w →
      ¬ i < j := by
    intro i j b c v w earlier later before
    obtain ⟨k, rfl⟩ := Nat.exists_eq_add_of_le (show i + 1 ≤ j from before)
    obtain ⟨_, _, _, _, _, top, _⟩ := later
    exact solo.left_for_good (fun k _ => alone k) earlier top
  exact Nat.le_antisymm (Nat.le_of_not_lt (ordered panicking' panicking))
    (Nat.le_of_not_lt (ordered panicking panicking'))

theorem Solo.panicking_ends (solo : m.Solo) (alone : ∀ k, (m.run k).others = [])
    (panicking : (m.run i).Panicking job b v)
    (top : (m.run j).driver.frames = .body job label next ops onBatch :: below) :
    ∃ k, (m.run (j + k)).height ≤ below.length := by
  by_contra stays
  have inside : ∀ k, below.length < (m.run (j + k)).height :=
    fun k => Nat.lt_of_not_le fun low => stays ⟨k, low⟩
  rcases Nat.lt_or_ge i j with before | after
  · obtain ⟨k, rfl⟩ := Nat.exists_eq_add_of_le (show i + 1 ≤ j from before)
    exact solo.left_for_good (fun k _ => alone k) panicking top
  · obtain ⟨k, rfl⟩ := Nat.exists_eq_add_of_le after
    have solo' : ∀ l, (m.run l).Solo := fun l => solo.after fun l _ => alone l
    have alone' : (m.run j).Alone k := fun l _ => others_later alone j l
    obtain ⟨push, _, _, stack⟩ := (solo' j).body_stays alone' top fun l _ => by
      rw [← run_add]
      exact inside l
    rw [← run_add] at stack
    obtain ⟨_, _, _, _, _, body, raised⟩ := panicking
    have back := (run_one_unwinds body raised).1
    cases push with
    | nil =>
        rw [← run_add, (List.cons.inj (body.symm.trans stack)).2] at back
        have high := inside (k + 1)
        rw [height, ← Nat.add_assoc, back] at high
        exact absurd high (Nat.lt_irrefl _)
    | cons frame push =>
        -- the body that the panic leaves would be another one of the same job
        have first := (List.cons.inj (body.symm.trans stack)).1
        have once := (solo' (j + k)).tallied.once job
        rw [Scene.running, show (m.run (j + k)).scene.frames = _ from stack, ← first] at once
        simp only [roles, List.cons_append, List.filterMap_cons, Frame.role, List.filterMap_append,
          List.count_cons_self, List.count_append] at once
        omega

end

/-! ## Waits that come back -/

/-- A wait that begins in turn `j`, above `below`, is in time for what comes to the batch in turn
`i`. -/
inductive Meets (m : Machine) (b : BatchId) (below : List Frame) (i j : Nat) : Prop where
  /-- The wait is in progress. -/
  | during (begun : j ≤ i) (inside : ∀ k, j ≤ k → k ≤ i → below.length < (m.run k).height)
  /-- The wait begins later, in the same epoch. -/
  | later (begins : i < j) (same : epochs b (m.run j).history = epochs b (m.run i).history)

/-- A wait on the batch begins in turn `j`, above `below`, and is in time for the panic of the job.
The tasks that run during the wait end, but perhaps this job and some others. No task of the batch
is below: for such a task the wait would wait in vain. -/
structure Awaits (m : Machine) (v : Payload) (job : JobId) (b : BatchId) (others : List JobId)
    (below : List Frame) (j : Nat) : Prop where
  top : ∃ budget goal, goal ≠ .close ∧ (m.run j).driver.frames = .waiting b budget goal :: below
  free : ∀ job, .settle job b ∉ below
  meets : ∀ i, (m.run i).Panicking job b v → m.Meets b below i j
  ends : (m.run j).EndsAbove below (job :: others)

theorem Ends.returns (ends : m.Ends b budget goal below turns (.returned reply))
    (comes : m.Comes below (turns + 1) (.returned reply)) :
    (m.run turns).Returns (m.run (turns + 1)) b goal reply := by
  cases stepped : (m.run turns).step with
  | none =>
      have back := comes.back
      rw [run_add, run_stuck stepped, ends.top] at back
      exact absurd (congrArg List.length back) (by simp)
  | some next =>
      have same : m.run (turns + 1) = next := by rw [run_add, run_one stepped]
      exact {
        step := stepped.trans (congrArg some same.symm)
        alone := comes.alone _ (Nat.le_refl _)
        top := ⟨_, ends.top.trans (congrArg _ comes.back.symm)⟩
        signal := comes.outcome }

theorem Meets.later_epoch (meets : m.Meets b below i j) (solo : (m.run j).Solo)
    (panicking : (m.run i).Panicking job b v)
    (top : (m.run j).driver.frames = .waiting b budget goal :: below) (asked : goal ≠ .close)
    (ends : (m.run j).Ends b budget goal below turns (.returned reply))
    (back : (m.run (j + turns + 1)).driver.frames = below) :
    i < j + turns ∧ epochs b (m.run (j + turns)).history = epochs b (m.run i).history := by
  -- the epoch goes on from the first turn of the wait to any turn in which it is in progress
  have goes : ∀ k ≤ turns, epochs b (m.run (j + k)).history = epochs b (m.run j).history := by
    intro k early
    rw [run_add]
    exact solo.same_epoch (ends.alone.le early) top asked
      fun l before => ends.inside l (Nat.le_trans before early)
  have whole := goes turns (Nat.le_refl _)
  cases meets with
  | later begins same => exact ⟨Nat.lt_add_right turns begins, whole.trans same⟩
  | during begun inside =>
      have before : i < j + turns := by
        rcases Nat.lt_trichotomy i (j + turns) with before | rfl | after
        · exact before
        · obtain ⟨_, _, _, _, _, body, _⟩ := panicking
          have waits := ends.top
          rw [← run_add, body] at waits
          cases waits
        · have high := inside (j + turns + 1) (by omega) after
          rw [height, back] at high
          exact absurd high (Nat.lt_irrefl _)
      obtain ⟨k, rfl⟩ := Nat.exists_eq_add_of_le begun
      exact ⟨before, whole.trans (goes k (by omega)).symm⟩

theorem Awaits.all_end {others : List JobId} (awaits : m.Awaits v job b others below j)
    (solo : m.Solo) (alone : ∀ k, (m.run k).others = [])
    (panicking : ∀ id ∈ job :: others, ∃ i c, (m.run i).Panicking id c v) :
    (m.run j).EndsAbove below [] := by
  intro k id label next rest onBatch base _ inside top
  by_cases excepted : id ∈ job :: others
  · obtain ⟨i, c, raised⟩ := panicking id excepted
    rw [← run_add] at top
    obtain ⟨n, low⟩ := solo.panicking_ends alone raised top
    exact ⟨n, by rwa [← run_add, ← Nat.add_assoc]⟩
  · exact awaits.ends k id label next rest onBatch base excepted inside top

/-- A wait that is in time for a first panic comes back with it. -/
theorem Awaits.comes {others : List JobId} (awaits : m.Awaits v job b others below j)
    (solo : m.Solo) (alone : ∀ k, (m.run k).others = [])
    (panicking : (m.run i).Panicking job b v) (first : panics b (m.run i).history = [])
    (excepted : ∀ id ∈ others, ∃ i c, (m.run i).Panicking id c v) :
    ∃ turns budget goal, m.Collects b i (j + turns) goal (.failed (Failure.ofPayload v)) ∧
      (m.run (j + turns)).driver.frames = .waiting b budget goal :: below ∧
      (m.run j).Comes below (turns + 1) (.returned (.failed (Failure.ofPayload v))) := by
  obtain ⟨budget, goal, asked, top⟩ := awaits.top
  have solo' : (m.run j).Solo := solo.after fun k _ => alone k
  have ends := awaits.all_end solo alone (List.forall_mem_cons.mpr ⟨⟨i, b, panicking⟩, excepted⟩)
  obtain ⟨_, reply, comes⟩ := solo'.wait_comes_above (others_later alone j) ends top awaits.free
  obtain ⟨turns, rfl, last⟩ := solo'.wait_ends top awaits.free comes
  have back := comes.back
  have returns := last.returns comes
  have stack := last.top
  simp only [← run_add, ← Nat.add_assoc] at back returns stack
  obtain ⟨later, same⟩ :=
    (awaits.meets i panicking).later_epoch solo' panicking top asked last back
  have collects : m.Collects b i (j + turns) goal reply := ⟨later, same, returns, asked⟩
  cases solo.collects (fun k _ => alone k) panicking first collects
  exact ⟨turns, _, goal, collects, stack, comes⟩

/-- No other wrapped task of the batch panics before the job in the same epoch. -/
def PanicsFirst (m : Machine) (v : Payload) (job : JobId) (b : BatchId) : Prop :=
  ∀ i, (m.run i).Panicking job b v → panics b (m.run i).history = []

theorem panicsFirst_of_run (solo : m.Solo) (alone : ∀ k, (m.run k).others = [])
    (panicking : (m.run i).Panicking job b v)
    (first : (panics b (m.run i).history).isEmpty = true) : m.PanicsFirst v job b := by
  intro k again
  rw [solo.panics_once alone again panicking]
  exact List.isEmpty_iff.mp first

theorem awaits_of_run (solo : m.Solo) (alone : ∀ k, (m.run k).others = [])
    (finished : (m.run turns).driver.frames = []) {others : List JobId}
    (panicking : (m.run i).Panicking job b v) (begun : j ≤ i)
    (top : (m.run j).driver.frames = .waiting b budget .wait :: below)
    (free : (roles below).all (!Role.owesTo b ·) = true)
    (inside : ∀ k ≤ i, j ≤ k → below.length < (m.run k).height) :
    m.Awaits v job b others below j where
  top := ⟨budget, .wait, nofun, top⟩
  free id member := by
    have owes := List.all_eq_true.mp free _ (List.mem_filterMap.mpr ⟨.settle id b, member, rfl⟩)
    simp [Role.owesTo] at owes
  meets k again := by
    rw [solo.panics_once alone again panicking]
    exact .during begun fun k late early => inside k early late
  ends := ((bodiesEnd_of_finished finished).later j).above _ _

/-- A job panics, and each of the others waits for the one before it, in a batch of its own, and
panics anew with what it is told. The last one is `job`, in the batch `b`. -/
inductive Chain (m : Machine) (v : Payload) : JobId → BatchId → List (JobId × BatchId) → Prop where
  /-- A task panics. -/
  | raises {job : JobId} {b : BatchId} {i : Nat} (raised : (m.run i).Panicking job b v)
      (first : m.PanicsFirst v job b) : Chain m v job b []
  /-- A task waits, and raises the failure again that it is told, if it is told one. -/
  | rethrows {inner job : JobId} {b c : BatchId} {rest : List (JobId × BatchId)} {j : Nat}
      {loans : List Loan} {label : String} {next : Nat} {ops : List Op} {onBatch : Option String}
      {below : List Frame} (chain : Chain m v inner c rest)
      (awaits : m.Awaits v inner c (rest.map Prod.fst) (.call loans .rethrow false ::
        .body job label next ops onBatch :: .settle job b :: below) j)
      (first : m.PanicsFirst v job b) : Chain m v job b ((inner, c) :: rest)
  /-- A task waits, and panics later with the payload of the failure that it is told. -/
  | panicsWith {inner job : JobId} {b c : BatchId} {rest : List (JobId × BatchId)} {j : Nat}
      {loans : List Loan} {onFailure : OnFailure} {caught : Bool} {label : String} {next : Nat}
      {ops : List Op} {onBatch : Option String} {below : List Frame}
      (chain : Chain m v inner c rest)
      (awaits : m.Awaits v inner c (rest.map Prod.fst) (.call loans onFailure caught ::
        .body job label next ops onBatch :: .settle job b :: below) j)
      (panics : ∀ turns failure, (m.run j).Comes (.call loans onFailure caught ::
          .body job label next ops onBatch :: .settle job b :: below) turns
          (.returned (.failed failure)) →
        ∃ k, j + turns ≤ k ∧ (m.run k).Panicking job b failure.payload)
      (first : m.PanicsFirst v job b) : Chain m v job b ((inner, c) :: rest)

/-- Along a chain the panic is handed on. The induction is on the chain: the tasks further in have
panicked, so they end, and the wait for them comes back. -/
theorem Chain.relays {rest : List (JobId × BatchId)} (chain : m.Chain v job b rest) (solo : m.Solo)
    (alone : ∀ k, (m.run k).others = []) :
    (∃ i, m.Relay v b (rest.map Prod.snd) i ∧ (m.run i).Panicking job b v) ∧
      ∀ id ∈ rest.map Prod.fst, ∃ i c, (m.run i).Panicking id c v := by
  induction chain with
  | @raises _ _ i raised first => exact ⟨⟨i, .raises raised (first i raised), raised⟩, nofun⟩
  | rethrows _ awaits first ih =>
      obtain ⟨⟨i, relay, raised⟩, inner⟩ := ih
      obtain ⟨_, _, first'⟩ := relay.arrives solo fun k _ => alone k
      obtain ⟨turns, budget, goal, collects, stack, _⟩ :=
        awaits.comes solo alone raised first' inner
      have rethrown := collects.rethrown stack
      exact ⟨⟨_, .rethrows relay collects stack (first _ rethrown), rethrown⟩,
        List.forall_mem_cons.mpr ⟨⟨i, _, raised⟩, inner⟩⟩
  | panicsWith _ awaits panics first ih =>
      obtain ⟨⟨i, relay, raised⟩, inner⟩ := ih
      obtain ⟨_, _, first'⟩ := relay.arrives solo fun k _ => alone k
      obtain ⟨turns, budget, goal, collects, stack, comes⟩ :=
        awaits.comes solo alone raised first' inner
      obtain ⟨k, later, again⟩ := panics _ _ comes
      exact ⟨⟨k, .panicsWith relay collects stack (by omega) again (first k again), again⟩,
        List.forall_mem_cons.mpr ⟨⟨i, _, raised⟩, inner⟩⟩

/-- A payload survives every way from a panic to a wait. What was captured once gives the same
failure when its payload is captured again, in whatever order the threads take turns. When a panic
is handed on from batch to batch, and comes first in its epoch at each of them, every wait that
returns in the epoch at the end of the way tells the failure that the first payload makes. Along a
chain of tasks in which each waits for the one before it and panics with what it is told, such a
wait does return, if the tasks outside of the chain end that run during the waits. -/
theorem payloads_survive :
    (∀ m : Machine, m.Reached →
      (∀ b failure, (m.world.system.batch b).barrier.pending = some failure →
        Failure.ofPayload failure.payload = failure) ∧
      ∀ event ∈ m.history, ∀ failure, event.failure? = some failure →
        Failure.ofPayload failure.payload = failure) ∧
    ∀ m : Machine, m.Solo → ∀ v b,
      (∀ rest i j goal reply, m.Relay v b rest i → m.Alone j → m.Collects b i j goal reply →
        reply = .failed (Failure.ofPayload v)) ∧
      ∀ job rest below j, m.Chain v job b rest → (∀ k, (m.run k).others = []) →
        m.Awaits v job b (rest.map Prod.fst) below j →
        ∃ turns, (m.run j).Comes below turns (.returned (.failed (Failure.ofPayload v))) := by
  refine ⟨fun m reached => ⟨reached.honest.world, reached.honest.told⟩, fun m solo v b => ?_⟩
  constructor
  · intro rest i j goal reply relay alone collects
    obtain ⟨job, raised, first⟩ := relay.arrives solo (alone.le (Nat.le_of_lt collects.later))
    exact solo.collects alone raised first collects
  · intro job rest below j chain alone awaits
    obtain ⟨⟨i, relay, raised⟩, inner⟩ := chain.relays solo alone
    obtain ⟨_, _, first⟩ := relay.arrives solo fun k _ => alone k
    obtain ⟨turns, _, _, _, _, comes⟩ := awaits.comes solo alone raised first inner
    exact ⟨turns + 1, comes⟩

/-- The driver waits on a batch of one kind, whose task waits on a batch of the other kind, whose
task waits on a third batch. The task of this one panics, with text that nobody can read. -/
def relayed : Machine :=
  (Machine.load [] .plain [.pool (.given "p") .missing .missing .missing .missing,
    .pool (.given "q") .missing .missing .missing .missing,
    .batch (.given "s") (.given "p") .missing (.given true),
    .batch (.given "u") (.given "q") .missing (.given false),
    .batch (.given "w") (.given "p") .missing (.given true),
    .schedule (.given "w") (.given (.own "inner" [.panic (.given (.boxedText "boom"))]))
      (.given .forced) .missing,
    .schedule (.given "u") (.given (.own "middle"
      [.wait (.given "w") .report false, .panic (.given (.boxedText "boom"))]))
      (.given .forced) .missing,
    .schedule (.given "s") (.given (.own "outer" [.wait (.given "u") .rethrow false]))
      (.given .forced) .missing,
    .wait (.given "s") .report false]).run 25

/-- The inner task panics in turn 7, the middle one in turn 15 with what it was told, and the outer
one in turn 20 since it raises again what it was told. The wait of the driver comes back with the
first payload. -/
theorem relayed_survives :
    let v := Payload.boxedText "boom"
    (relayed.run 17).Reached ∧
      ((relayed.run 17).world.system.batch ⟨1⟩).barrier.pending = some (Failure.ofPayload v) ∧
      Failure.ofPayload (Failure.ofPayload v).payload = Failure.ofPayload v ∧
      relayed.Solo ∧ relayed.Relay v ⟨0⟩ [⟨1⟩, ⟨2⟩] 20 ∧
      relayed.Collects ⟨0⟩ 20 23 .wait (.failed (Failure.ofPayload v)) ∧
      (∀ reply, relayed.Collects ⟨0⟩ 20 23 .wait reply →
        reply = .failed (Failure.ofPayload v)) ∧
      relayed.Chain v ⟨2⟩ ⟨0⟩ [(⟨1⟩, ⟨1⟩), (⟨0⟩, ⟨2⟩)] ∧
      relayed.Awaits v ⟨2⟩ ⟨0⟩ [⟨1⟩, ⟨0⟩] (relayed.driver.frames.drop 1) 0 ∧
      ∃ turns, relayed.Comes (relayed.driver.frames.drop 1) turns
        (.returned (.failed (Failure.ofPayload v))) := by
  intro v
  have reached : (relayed.run 17).Reached := ((Reached.load [] .plain _).run 25).run 17
  have solo : relayed.Solo := (Solo.load [] .plain _).run 25 (by decide)
  have finished : (relayed.run 43).driver.frames = [] := List.isEmpty_iff.mp (by decide)
  have quiet : ∀ k ≤ 43, (relayed.run k).others.isEmpty = true := by decide
  have alone : ∀ k, (relayed.run k).others = [] :=
    Alone.forever (fun k early => List.isEmpty_iff.mp (quiet k early)) finished
  -- the three tasks panic, each the first of its batch
  have inner : (relayed.run 7).Panicking ⟨0⟩ ⟨2⟩ v := ⟨"inner", 0, [], some "w", _, rfl, rfl⟩
  have middle : (relayed.run 15).Panicking ⟨1⟩ ⟨1⟩ v := ⟨"middle", 1, [], some "u", _, rfl, rfl⟩
  have outer : (relayed.run 20).Panicking ⟨2⟩ ⟨0⟩ v := ⟨"outer", 0, [], some "s", _, rfl, rfl⟩
  have inner_first := panicsFirst_of_run solo alone inner (by decide)
  have middle_first := panicsFirst_of_run solo alone middle (by decide)
  have outer_first := panicsFirst_of_run solo alone outer (by decide)
  -- the three waits begin before that, and return in the same epoch
  have awaits : relayed.Awaits v ⟨2⟩ ⟨0⟩ [⟨1⟩, ⟨0⟩] (relayed.driver.frames.drop 1) 0 :=
    awaits_of_run solo alone finished outer (by decide) rfl (by decide) (by decide)
  have awaits_outer : relayed.Awaits v ⟨1⟩ ⟨1⟩ [⟨0⟩] ((relayed.run 2).driver.frames.drop 1) 2 :=
    awaits_of_run solo alone finished middle (by decide) rfl (by decide) (by decide)
  have awaits_middle : relayed.Awaits v ⟨0⟩ ⟨2⟩ [] ((relayed.run 4).driver.frames.drop 1) 4 :=
    awaits_of_run solo alone finished inner (by decide) rfl (by decide) (by decide)
  have collects_middle : relayed.Collects ⟨2⟩ 7 10 .wait (.failed (Failure.ofPayload v)) :=
    ⟨by decide, by decide, ⟨rfl, rfl, ⟨none, rfl⟩, rfl⟩, nofun⟩
  have collects_outer : relayed.Collects ⟨1⟩ 15 18 .wait (.failed (Failure.ofPayload v)) :=
    ⟨by decide, by decide, ⟨rfl, rfl, ⟨none, rfl⟩, rfl⟩, nofun⟩
  have collects : relayed.Collects ⟨0⟩ 20 23 .wait (.failed (Failure.ofPayload v)) :=
    ⟨by decide, by decide, ⟨rfl, rfl, ⟨none, rfl⟩, rfl⟩, nofun⟩
  have relay : relayed.Relay v ⟨0⟩ [⟨1⟩, ⟨2⟩] 20 :=
    .rethrows (.panicsWith (.raises inner (inner_first _ inner)) collects_middle rfl (by decide)
      middle (middle_first _ middle)) collects_outer rfl (outer_first _ outer)
  have comes : (relayed.run 4).Comes ((relayed.run 4).driver.frames.drop 1) 7
      (.returned (.failed (Failure.ofPayload v))) :=
    comes_of_run (by decide) (fun k early => quiet k (Nat.le_trans early (by decide))) rfl
      (by decide) rfl
  have chain : relayed.Chain v ⟨2⟩ ⟨0⟩ [(⟨1⟩, ⟨1⟩), (⟨0⟩, ⟨2⟩)] := by
    refine .rethrows (.panicsWith (.raises inner inner_first) awaits_middle ?_ middle_first)
      awaits_outer outer_first
    intro turns failure comes'
    obtain ⟨rfl, same⟩ := comes.unique comes'
    cases same
    exact ⟨15, by decide, middle⟩
  have again := (payloads_survive.1 _ reached).1 ⟨1⟩ _ rfl
  obtain ⟨tells, returns⟩ := payloads_survive.2 relayed solo v ⟨0⟩
  exact ⟨reached, rfl, again, solo, relay, collects,
    fun _ => tells _ _ _ _ _ relay fun k _ => alone k, chain, awaits,
    returns _ _ _ 0 chain alone awaits⟩

end Machine

end TaskPool
