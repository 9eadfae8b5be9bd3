import TaskPool.Proofs.SystemChanges
import TaskPool.SharedBarrier

/-!
# The claim flag owns the place of the first failure

However the steps interleave, a failure that won its claim is in exactly one place: in the hands of
the task that has to write it, in the place of the first failure, or in the hands of the waiter that
took it and has to lower the flag. The flag is raised as long as there is such a failure, and there
is never a second one.
-/

namespace TaskPool

def Phase.won? : Phase → Option Failure
  | won f => some f
  | _ => none

def Phase.isCounted : Phase → Bool
  | retired => false
  | _ => true

/-- The failure that the waiter took, as long as the flag is not lowered for it. -/
def Waiter.taken? : Waiter → Option Failure
  | reopening _ f => some f
  | _ => none

def Waiter.foundClear : Waiter → Bool
  | ready clear | reopening clear _ => clear
  | _ => false

namespace SharedBarrier

variable {s s' : SharedBarrier} {f : Failure} {before after : List Phase}

def writing (s : SharedBarrier) : List Failure := s.tasks.filterMap Phase.won?

theorem won_split (phase : Phase) : (before ++ phase :: after).filterMap Phase.won? =
    before.filterMap Phase.won? ++ (phase.won?.toList ++ after.filterMap Phase.won?) := by
  cases won : phase.won? <;> simp [won]

theorem counted_split (phase : Phase) : (before ++ phase :: after).countP (·.isCounted) =
    before.countP (·.isCounted) + after.countP (·.isCounted) + phase.isCounted.toNat := by
  cases counted : phase.isCounted <;> simp [counted, Nat.add_assoc]

/-- The failures for which the flag is raised. -/
def owners (s : SharedBarrier) : List Failure :=
  s.writing ++ s.barrier.pending.toList ++ s.waiter.taken?.toList

/-- What holds however the steps interleave. -/
structure Owned (s : SharedBarrier) : Prop where
  /-- The flag is raised for exactly one failure. -/
  flag : s.owners.length = if s.barrier.claimed then 1 else 0
  /-- What won is taken in the same order, and the last one may be on its way. -/
  order : s.wins.map (·.2) = s.takes ++ s.barrier.pending.toList ++ s.writing
  once : (s.wins.map (·.1)).Nodup
  /-- A task that has won has nothing to claim any more. -/
  past : ∀ win ∈ s.wins, ∃ phase, s.tasks[win.1]? = some phase ∧
    phase ≠ .running ∧ ∀ f, phase ≠ .panicked f
  counted : s.barrier.outstanding = s.tasks.countP (·.isCounted)
  clear : s.waiter.foundClear = true → s.barrier.outstanding = 0

theorem phase_after {phase phase' : Phase} {i : Nat} (other : i ≠ before.length) :
    (before ++ phase' :: after)[i]? = (before ++ phase :: after)[i]? := by
  rcases Nat.lt_trichotomy i before.length with left | same | right
  · simp [List.getElem?_append_left left]
  · exact absurd same other
  · obtain ⟨k, rfl⟩ := Nat.exists_eq_add_of_lt right
    simp [List.getElem?_append_right, Nat.add_assoc]

theorem Owned.past_task (owned : s.Owned) {phase phase' : Phase}
    (task : s.tasks = before ++ phase :: after) (onward : phase' ≠ .running)
    (onward' : (∀ f, phase' ≠ .panicked f) ∨ phase = .running) :
    ∀ win ∈ s.wins, ∃ found, (before ++ phase' :: after)[win.1]? = some found ∧
      found ≠ .running ∧ ∀ f, found ≠ .panicked f := by
  intro win member
  obtain ⟨found, there, started, tried⟩ := owned.past win member
  rw [task] at there
  by_cases same : win.1 = before.length
  · simp only [same, List.getElem?_append_right (Nat.le_refl _),
      Nat.sub_self, List.getElem?_cons_zero, Option.some.injEq] at there ⊢
    subst there
    rcases onward' with tried' | running
    · exact ⟨_, rfl, onward, tried'⟩
    · exact absurd running started
  · exact ⟨found, (phase_after same).trans there, started, tried⟩

theorem Owned.onward (owned : s.Owned) {phase phase' : Phase}
    (task : s.tasks = before ++ phase :: after) (quiet : phase.won? = none)
    (quiet' : phase'.won? = none) (counts : phase.isCounted = phase'.isCounted)
    (onward : phase' ≠ .running) (onward' : (∀ f, phase' ≠ .panicked f) ∨ phase = .running) :
    Owned { s with tasks := before ++ phase' :: after } := by
  have writing : (before ++ phase' :: after).filterMap Phase.won? = s.writing := by
    rw [SharedBarrier.writing, task, won_split, won_split, quiet, quiet']
  exact
    { flag := by
        simp only [owners, SharedBarrier.writing, writing]
        exact owned.flag
      order := by
        simp only [SharedBarrier.writing, writing]
        exact owned.order
      once := owned.once
      past := owned.past_task task onward onward'
      counted := by
        rw [owned.counted, task, counted_split, counted_split, counts]
      clear := owned.clear }

theorem Owned.unclaimed (owned : s.Owned) (lowered : s.barrier.claimed = false) :
    s.writing = [] ∧ s.barrier.pending = none ∧ s.waiter.taken? = none := by
  have none := owned.flag
  simp only [lowered, Bool.false_eq_true, if_false, List.length_eq_zero_iff, owners,
    List.append_eq_nil_iff, Option.toList_eq_nil_iff] at none
  obtain ⟨⟨quiet, empty⟩, untaken⟩ := none
  exact ⟨quiet, empty, untaken⟩

theorem Owned.fresh (owned : s.Owned) (task : s.tasks = before ++ .panicked f :: after) :
    ∀ win ∈ s.wins, win.1 ≠ before.length := by
  intro win member same
  obtain ⟨found, there, _, tried⟩ := owned.past win member
  simp only [task, same, List.getElem?_append_right (Nat.le_refl _), Nat.sub_self,
    List.getElem?_cons_zero, Option.some.injEq] at there
  exact tried f there.symm

theorem Owned.wins_claim (owned : s.Owned) (task : s.tasks = before ++ .panicked f :: after)
    (lowered : s.barrier.claimed = false) :
    Owned { s with
      barrier := { s.barrier with claimed := true }
      tasks := before ++ .won f :: after
      wins := s.wins ++ [(before.length, f)] } := by
  obtain ⟨quiet, empty, untaken⟩ := owned.unclaimed lowered
  have single : (before ++ .won f :: after).filterMap Phase.won? = [f] := by
    rw [writing, task, won_split, List.append_eq_nil_iff] at quiet
    rw [won_split, quiet.1, (List.append_eq_nil_iff.mp quiet.2).2]
    rfl
  exact
    { flag := by
        simp only [owners, writing, single, empty, untaken]
        rfl
      order := by
        have order := owned.order
        simp only [quiet, empty, Option.toList_none, List.append_nil] at order
        simp only [writing, single, empty, List.map_append, order, Option.toList_none,
          List.append_nil]
        rfl
      once := by
        rw [List.map_append, List.nodup_append]
        refine ⟨owned.once, by simp, ?_⟩
        intro i member j last same
        obtain ⟨win, inside, rfl⟩ := List.mem_map.mp member
        simp only [List.map_cons, List.map_nil, List.mem_singleton] at last
        exact owned.fresh task win inside (same.trans last)
      past := by
        intro win member
        rcases List.mem_append.mp member with old | new
        · exact owned.past_task task (by simp) (.inl (by simp)) win old
        · cases List.mem_singleton.mp new
          exact ⟨.won f, by simp, by simp, by simp⟩
      counted := by
        have counted := owned.counted
        rw [task, counted_split] at counted
        rw [counted_split]
        exact counted
      clear := owned.clear }

theorem Owned.claims (owned : s.Owned) (task : s.tasks = before ++ .panicked f :: after) :
    (s.claim f before after).Owned := by
  cases raised : s.barrier.claimed with
  | true =>
      -- a lost claim leaves the barrier as it is
      have lost : s.claim f before after = { s with tasks := before ++ .retiring :: after } := by
        simp only [claim, Barrier.claim, raised, Bool.not_true]
        rw [← raised]
      rw [lost]
      exact owned.onward task rfl rfl rfl (by simp) (.inl (by simp))
  | false =>
      have won : s.claim f before after =
          { s with
            barrier := { s.barrier with claimed := true }
            tasks := before ++ .won f :: after
            wins := s.wins ++ [(before.length, f)] } := by
        simp [claim, Barrier.claim, raised]
      rw [won]
      exact owned.wins_claim task raised

/-- The task that is to write finds nothing to overwrite. -/
theorem Owned.unwritten (owned : s.Owned) (task : s.tasks = before ++ .won f :: after) :
    s.barrier.pending = none ∧ s.writing = [f] ∧ s.waiter.taken? = none ∧
      s.barrier.claimed = true := by
  have flag := owned.flag
  have inside : f ∈ s.writing := by simp [writing, task, Phase.won?]
  simp only [owners, List.length_append] at flag
  have one := List.length_pos_of_mem inside
  split at flag
  · next raised =>
      obtain ⟨g, single⟩ := List.length_eq_one_iff.mp (by omega : s.writing.length = 1)
      rw [single] at inside flag
      refine ⟨?_, by rw [single, List.mem_singleton.mp inside], ?_, raised⟩
      · cases pending : s.barrier.pending with
        | none => rfl
        | some =>
            simp only [pending, Option.toList_some, List.length_singleton] at flag
            omega
      · cases taken : s.waiter.taken? with
        | none => rfl
        | some =>
            simp only [taken, Option.toList_some, List.length_singleton] at flag
            omega
  · omega

theorem Owned.writes (owned : s.Owned) (task : s.tasks = before ++ .won f :: after) :
    Owned { s with barrier := s.barrier.fill f, tasks := before ++ .retiring :: after } := by
  obtain ⟨empty, alone, untaken, raised⟩ := owned.unwritten task
  have none : (before ++ .retiring :: after).filterMap Phase.won? = [] := by
    have length := congrArg List.length alone
    simp only [writing, task, won_split, Phase.won?, Option.toList_some, List.length_append,
      List.length_cons, List.length_nil] at length
    rw [won_split, List.length_eq_zero_iff.mp (by omega : (before.filterMap Phase.won?).length = 0),
      List.length_eq_zero_iff.mp (by omega : (after.filterMap Phase.won?).length = 0)]
    rfl
  exact
    { flag := by
        simp only [owners, writing, none, Barrier.fill, untaken, raised]
        rfl
      order := by
        have order := owned.order
        simp only [alone, empty, Option.toList_none, List.append_nil] at order
        simp only [writing, none, Barrier.fill, order, List.append_nil]
        rfl
      once := owned.once
      past := owned.past_task task (by simp) (.inl (by simp))
      counted := by
        have counted := owned.counted
        rw [task, counted_split] at counted
        rw [counted_split]
        exact counted
      clear := owned.clear }

theorem Owned.retires (owned : s.Owned) (task : s.tasks = before ++ .retiring :: after) :
    Owned { s with barrier := s.barrier.retire, tasks := before ++ .retired :: after } := by
  have writing : (before ++ .retired :: after).filterMap Phase.won? = s.writing := by
    rw [SharedBarrier.writing, task, won_split, won_split]
    rfl
  exact
    { flag := by
        simp only [owners, SharedBarrier.writing, writing]
        exact owned.flag
      order := by
        simp only [SharedBarrier.writing, writing]
        exact owned.order
      once := owned.once
      past := owned.past_task task (by simp) (.inl (by simp))
      counted := by
        simp only [Barrier.retire, owned.counted, task, counted_split]
        rfl
      clear := fun found => by
        simp only [Barrier.retire, owned.clear found] }

theorem Owned.takes (owned : s.Owned) {clear : Bool} (ready : s.waiter = .ready clear) :
    (s.take clear).Owned := by
  have flag := owned.flag
  simp only [owners, ready, Waiter.taken?, Option.toList_none, List.append_nil] at flag
  have found : clear = true → s.barrier.outstanding = 0 := by
    intro found
    exact owned.clear (by rw [ready]; exact found)
  cases pending : s.barrier.pending with
  | none =>
      have idle : s.take clear = { s with waiter := .idle } := by
        simp only [take, Barrier.take, pending]
        rw [← pending]
      rw [idle]
      exact
        { owned with
          flag := by simpa [owners, writing, Waiter.taken?] using flag
          clear := fun wrong => Bool.noConfusion wrong }
  | some f =>
      have took : s.take clear =
          { s with
            barrier := { s.barrier with pending := none }
            waiter := .reopening clear f
            takes := s.takes ++ [f] } := by
        simp [take, Barrier.take, pending]
      rw [took]
      exact
        { flag := by simpa [owners, writing, Waiter.taken?, pending] using flag
          order := by simpa [writing, pending] using owned.order
          once := owned.once
          past := owned.past
          counted := owned.counted
          clear := found }

theorem Owned.reopens (owned : s.Owned) {clear : Bool}
    (reopening : s.waiter = .reopening clear f) :
    Owned { s with barrier := s.barrier.reopen, waiter := .idle } := by
  have flag := owned.flag
  simp only [owners, reopening, Waiter.taken?, Option.toList_some, List.length_append,
    List.length_singleton] at flag
  exact
    { flag := by
        simp only [owners, writing, Barrier.reopen, Waiter.taken?, Option.toList_none,
          List.append_nil, List.length_append, Bool.false_eq_true, if_false]
        split at flag <;> simp only [writing] at flag <;> omega
      order := owned.order
      once := owned.once
      past := owned.past
      counted := owned.counted
      clear := fun wrong => Bool.noConfusion wrong }

theorem Owned.enlists (owned : s.Owned) (idle : s.waiter = .idle) :
    Owned { s with barrier := s.barrier.enlist, tasks := s.tasks ++ [.running] } := by
  have writing : (s.tasks ++ [Phase.running]).filterMap Phase.won? = s.writing := by
    rw [won_split]
    exact List.append_nil _
  exact
    { flag := by
        simp only [owners, SharedBarrier.writing, writing]
        exact owned.flag
      order := by
        simp only [SharedBarrier.writing, writing]
        exact owned.order
      once := owned.once
      past := by
        intro win member
        obtain ⟨found, there, started, tried⟩ := owned.past win member
        refine ⟨found, ?_, started, tried⟩
        rw [List.getElem?_append_left (List.getElem?_eq_some_iff.mp there).1]
        exact there
      counted := by
        simp only [counted_split, Barrier.enlist, owned.counted]
        rfl
      clear := fun found => by
        rw [idle] at found
        cases found }

theorem Owned.looks (owned : s.Owned) {waiter : Waiter} (free : s.waiter.taken? = none)
    (free' : waiter.taken? = none)
    (clear : waiter.foundClear = true → s.barrier.outstanding = 0) :
    Owned { s with waiter } :=
  { owned with
    flag := by simpa [owners, writing, free, free'] using owned.flag
    clear }

theorem Step.owned (step : s.Step s') (owned : s.Owned) : s'.Owned := by
  cases step with
  | enlists idle => exact owned.enlists idle
  | ends task => exact owned.onward task rfl rfl rfl (by simp) (.inr rfl)
  | panics f task => exact owned.onward task rfl rfl rfl (by simp) (.inr rfl)
  | claims task => exact owned.claims task
  | writes task => exact owned.writes task
  | retires task => exact owned.retires task
  | waits idle | tries idle =>
      exact owned.looks (by rw [idle]; rfl) rfl fun wrong => Bool.noConfusion wrong
  | passes waiting clear =>
      exact owned.looks (by rw [waiting]; rfl) rfl fun _ => Barrier.isClear_iff.mp clear
  | asks trying =>
      exact owned.looks (by rw [trying]; rfl) rfl fun found => Barrier.isClear_iff.mp found
  | takes ready => exact owned.takes ready
  | reopens reopening => exact owned.reopens reopening

theorem Reachable.owned (reachable : s.Reachable) : s.Owned := by
  induction reachable with
  | refl =>
      exact
        { flag := rfl
          order := rfl
          once := List.nodup_nil
          past := fun _ member => nomatch member
          counted := rfl
          clear := fun _ => rfl }
  | step _ step ih => exact step.owned ih

/-! ## What a run may rely on -/

def IsWriting (s : SharedBarrier) : Prop := ∃ f, .won f ∈ s.tasks

def IsFull (s : SharedBarrier) : Prop := s.barrier.pending ≠ none

def IsReopening (s : SharedBarrier) : Prop := ∃ clear f, s.waiter = .reopening clear f

theorem isWriting_iff : s.IsWriting ↔ 0 < s.writing.length := by
  rw [List.length_pos_iff_exists_mem]
  constructor
  · rintro ⟨f, member⟩
    exact ⟨f, List.mem_filterMap.mpr ⟨_, member, rfl⟩⟩
  · rintro ⟨f, member⟩
    obtain ⟨phase, member, won⟩ := List.mem_filterMap.mp member
    cases phase <;> cases won
    exact ⟨f, member⟩

theorem isFull_iff : s.IsFull ↔ 0 < s.barrier.pending.toList.length := by
  cases pending : s.barrier.pending <;> simp [IsFull, pending]

theorem isReopening_iff : s.IsReopening ↔ 0 < s.waiter.taken?.toList.length := by
  cases waiter : s.waiter <;> simp [IsReopening, waiter, Waiter.taken?]

/-- When no task is left and nothing is to be taken, all failures were delivered. -/
theorem Owned.delivered (owned : s.Owned) (clear : s.barrier.outstanding = 0)
    (empty : s.barrier.pending = none) (untaken : s.waiter.taken? = none) :
    s.barrier.claimed = false ∧ s.wins.map (·.2) = s.takes := by
  have retired := owned.counted
  rw [clear] at retired
  have none : s.writing = [] := by
    rw [writing, List.filterMap_eq_nil_iff]
    intro phase member
    have uncounted := List.countP_eq_zero.mp retired.symm phase member
    cases phase <;> first | rfl | exact absurd rfl uncounted
  have flag := owned.flag
  have order := owned.order
  simp only [owners, none, empty, untaken, Option.toList_none, List.append_nil,
    List.length_nil] at flag order
  refine ⟨?_, order⟩
  cases raised : s.barrier.claimed with
  | false => rfl
  | true =>
      rw [raised] at flag
      cases flag

/-- A wait that found the barrier clear ends with nothing left to deliver. -/
theorem Owned.wait_delivers (owned : s.Owned) (step : s.Step s')
    (found : s.waiter.foundClear = true) (done : s'.waiter = .idle) :
    s'.barrier.claimed = false ∧ s'.barrier.pending = none ∧ s'.wins.map (·.2) = s'.takes := by
  have owned' := step.owned owned
  have untaken : s'.waiter.taken? = none := by rw [done]; rfl
  have clear := owned.clear found
  have delivered : s'.barrier.outstanding = 0 → s'.barrier.pending = none →
      s'.barrier.claimed = false ∧ s'.barrier.pending = none ∧ s'.wins.map (·.2) = s'.takes :=
    fun clear empty => ⟨(owned'.delivered clear empty untaken).1, empty,
      (owned'.delivered clear empty untaken).2⟩
  cases step with
  | enlists idle | waits idle | tries idle =>
      rw [idle] at found
      cases found
  | passes waiting | asks waiting =>
      rw [waiting] at found
      cases found
  | ends | panics | writes | retires =>
      rw [show s.waiter = .idle from done] at found
      cases found
  | @claims before f after task =>
      have same : (s.claim f before after).waiter = s.waiter := by
        unfold claim
        split <;> rfl
      rw [same] at done
      rw [done] at found
      cases found
  | @takes c ready =>
      cases pending : s.barrier.pending with
      | some f =>
          simp only [take, Barrier.take, pending] at done
          cases done
      | none =>
          have same : s.take c = { s with waiter := .idle } := by
            simp only [take, Barrier.take, pending]
            rw [← pending]
          rw [same] at delivered ⊢
          exact delivered clear pending
  | @reopens _ f reopening =>
      refine delivered clear ?_
      have flag := owned.flag
      simp only [owners, reopening, Waiter.taken?, Option.toList_some, List.length_append,
        List.length_singleton] at flag
      have none : s.barrier.pending.toList.length = 0 := by split at flag <;> omega
      cases pending : s.barrier.pending with
      | none => exact pending
      | some => simp [pending] at none

/-- The claim flag owns the place of the first failure, however the steps interleave. It is raised
exactly when one of three things is the case, and never two of them are: a winner has to write, the
place is full, the waiter has to lower the flag. So no failure is overwritten; every failure that
won is taken once, in the order of the claims, or is on its way; and a wait leaves none behind. -/
theorem Reachable.flag_owns_place (reachable : s.Reachable) :
    (s.barrier.claimed = true ↔
      (s.IsWriting ∧ ¬ s.IsFull ∧ ¬ s.IsReopening) ∨
      (¬ s.IsWriting ∧ s.IsFull ∧ ¬ s.IsReopening) ∨
      (¬ s.IsWriting ∧ ¬ s.IsFull ∧ s.IsReopening)) ∧
    (s.barrier.claimed = false ↔ ¬ s.IsWriting ∧ ¬ s.IsFull ∧ ¬ s.IsReopening) ∧
    (∀ before f after, s.tasks = before ++ .won f :: after →
      s.barrier.pending = none ∧ s.writing = [f]) ∧
    s.wins.map (·.2) = s.takes ++ s.barrier.pending.toList ++ s.writing ∧
    (s.wins.map (·.1)).Nodup ∧
    ∀ s', s.Step s' → s.waiter.foundClear = true → s'.waiter = .idle →
      s'.barrier.claimed = false ∧ s'.barrier.pending = none ∧ s'.wins.map (·.2) = s'.takes := by
  have owned := reachable.owned
  have flag := owned.flag
  simp only [owners, List.length_append] at flag
  simp only [isWriting_iff, isFull_iff, isReopening_iff]
  refine ⟨?_, ?_, ?_, owned.order, owned.once, ?_⟩
  · cases raised : s.barrier.claimed <;> simp only [raised, if_true, Bool.false_eq_true,
      if_false, false_iff, true_iff] at flag ⊢ <;> omega
  · cases raised : s.barrier.claimed <;> simp only [raised, if_true, Bool.false_eq_true,
      if_false, Bool.true_eq_false, false_iff, true_iff] at flag ⊢ <;> omega
  · intro before f after task
    obtain ⟨empty, alone, _⟩ := owned.unwritten task
    exact ⟨empty, alone⟩
  · exact fun s' step found done => owned.wait_delivers step found done

/-- An attempt to wait that comes between the claim of the winner and its writing finds nothing, and
a second task that panics meanwhile does not win. The wait that follows gets the failure. -/
theorem early_attempt_finds_nothing :
    let winner := Failure.ofPayload (.fixedText "winner")
    let early : SharedBarrier :=
      { barrier := { outstanding := 1, claimed := true }
        tasks := [.won winner, .retired]
        wins := [(0, winner)] }
    let late : SharedBarrier :=
      { barrier := { claimed := true }
        tasks := [.retired, .retired]
        waiter := .reopening true winner
        wins := [(0, winner)]
        takes := [winner] }
    early.Reachable ∧ early.IsWriting ∧ early.barrier.pending = none ∧
      late.Reachable ∧ late.IsReopening ∧
      ∃ done, late.Step done ∧ done.barrier.claimed = false ∧ done.wins.map (·.2) = done.takes := by
  intro winner early late
  let loser := Failure.ofPayload (.fixedText "loser")
  have enlisted := ((Reaches.refl (s := {})).step (.enlists rfl)).step (.enlists rfl)
  have won := (enlisted.step (@Step.panics _ [] [.running] winner rfl)).step
    (@Step.claims _ [] winner [.running] rfl)
  have tried := ((won.step (.tries rfl)).step (.asks rfl)).step (.takes rfl)
  have lost := (tried.step (@Step.panics _ [.won winner] [] loser rfl)).step
    (@Step.claims _ [.won winner] loser [] rfl)
  have reached : early.Reachable := lost.step (@Step.retires _ [.won winner] [] rfl)
  have written := reached.step (@Step.writes _ [] winner [.retired] rfl)
  have retired := written.step (@Step.retires _ [] [.retired] rfl)
  have waited := (retired.step (.waits rfl)).step (.passes rfl rfl)
  have reached' : late.Reachable := waited.step (.takes rfl)
  obtain ⟨raised, _, unwritten, _⟩ := Reachable.flag_owns_place reached
  have empty := (unwritten [] winner [.retired] rfl).1
  have writing : early.IsWriting := ⟨winner, by simp [early]⟩
  have reopening : late.IsReopening := ⟨true, winner, rfl⟩
  have lowers : late.Step { late with barrier := late.barrier.reopen, waiter := .idle } :=
    .reopens rfl
  obtain ⟨lowered, _, delivered⟩ :=
    (Reachable.flag_owns_place reached').2.2.2.2.2 _ lowers rfl rfl
  exact ⟨reached, writing, empty, reached', reopening, _, lowers, lowered, delivered⟩

/-! ## Without interference -/

/-- What a task reports in one go is a run of these steps. -/
theorem settle_reaches (panicked : Option Payload)
    (task : s.tasks = before ++ .running :: after) :
    ∃ s', s.Reaches s' ∧ s'.barrier = s.barrier.settle panicked ∧
      s'.tasks = before ++ .retired :: after ∧ s'.waiter = s.waiter ∧ s'.takes = s.takes := by
  cases panicked with
  | none =>
      have ended := (Reaches.refl (s := s)).step (.ends task)
      exact ⟨_, ended.step (.retires rfl), rfl, rfl, rfl, rfl⟩
  | some payload =>
      have panicked := (Reaches.refl (s := s)).step (.panics (.ofPayload payload) task)
      have claimed := panicked.step (.claims rfl)
      cases raised : s.barrier.claimed with
      | true =>
          simp only [claim, Barrier.claim, raised, Bool.not_true] at claimed
          refine ⟨_, claimed.step (.retires rfl), ?_, rfl, rfl, rfl⟩
          simp [Barrier.settle, Barrier.keepFirst, Barrier.claim, raised]
      | false =>
          simp only [claim, Barrier.claim, raised, Bool.not_false] at claimed
          have written := claimed.step (.writes rfl)
          refine ⟨_, written.step (.retires rfl), ?_, rfl, rfl, rfl⟩
          simp [Barrier.settle, Barrier.keepFirst, Barrier.claim, raised]

theorem deliver_reaches {clear : Bool} (ready : s.waiter = .ready clear) :
    ∃ s', s.Reaches s' ∧ s'.barrier = s.barrier.deliver.2 ∧ s'.tasks = s.tasks ∧
      s'.waiter = .idle ∧ s'.takes = s.takes ++ s.barrier.deliver.1.toList := by
  have taken := (Reaches.refl (s := s)).step (.takes ready)
  cases pending : s.barrier.pending with
  | none =>
      simp only [take, Barrier.take, pending] at taken
      refine ⟨_, taken, ?_, rfl, rfl, ?_⟩
      · simp [Barrier.deliver, Barrier.take, pending]
      · simp [pending]
  | some f =>
      simp only [take, Barrier.take, pending] at taken
      refine ⟨_, taken.step (.reopens rfl), ?_, rfl, rfl, ?_⟩
      · simp [Barrier.deliver, Barrier.take, pending]
      · simp [pending]

end SharedBarrier

end TaskPool
