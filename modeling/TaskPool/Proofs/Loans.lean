import TaskPool.Proofs.Moves
import TaskPool.Proofs.Stack

/-!
# Who holds what

The loans of a script are exactly what the operations on its stack hold, they are loans of named
objects, and no batch is both waited for and shared. What a frame is closing has lost its name and
is closed by no other frame. These facts carry the drops: an object is dropped only while it is
free, so nothing on the stack depends on it.
-/

namespace TaskPool

open TaskPool.System

structure Custody (σ : Scene) : Prop where
  stacked : Stacked σ.system σ.frames
  loans : σ.loans = heldLoans σ.frames σ.signal
  named : ∀ loan ∈ σ.loans, σ.Named loan.object
  exclusive : ∀ object, ⟨object, .exclude⟩ ∈ σ.loans → ⟨object, .share⟩ ∉ σ.loans
  closing : ∀ object ∈ closings σ.frames, σ.system.Closing object
  once : (closings σ.frames).Nodup
  calm : Calm σ.frames σ.signal

namespace Scene

variable {σ σ' : Scene} {opening : Opening}

theorem Opens.grows (opens : σ.Opens opening) (registry : Registry σ.system σ.names) :
    σ.system.Grows opening.system := by
  cases opens with
  | rests | pauses | waits | triesToWait | sweeps => exact .refl _
  | startsPool => exact .startPool ..
  | issuesToken => exact .issueToken
  | makesBatch => exact .makeBatch _ _ _
  | dropsToken => exact .releaseToken _
  | dropsBatch named =>
      refine .modifyBatch rfl rfl fun closed => ?_
      exact absurd closed (Stage.opened (registry.named _ _ (Table.mem_of_find? named)))
  | dropsPool => exact .modifyPool _
  | @queues entry work _ _ _ _ submits => exact submits ▸ .submit entry work
  | @runsInline entry work _ _ _ submits => exact submits ▸ .submit entry work
  | executes _ taken => exact .take taken

theorem Moves.grows (moves : σ.Moves σ') (registry : Registry σ.system σ.names) :
    σ.system.Grows σ'.system := by
  cases moves with
  | advances | leaves | passes | finishes | ends | unwinds | contains | sweepEnds => exact .refl _
  | opens _ _ opens => exact opens.grows registry
  | settles => exact .settle _ _ _
  | sweeps _ _ taken => exact .take taken
  | helps _ _ _ taken => exact .take taken
  | delivers => exact .deliver _
  | closesBatch => exact .closeBatch _
  | drains _ taken => exact .take taken
  | closesPool => exact .modifyPool _

/-! ## The stack -/

theorem Lends.batch_known (registry : Registry σ.system σ.names) {loans : List Loan} {b : BatchId}
    {hold : Hold} (lent : σ.Lends loans) (member : ⟨.batch b, hold⟩ ∈ loans) :
    b.index < σ.system.batches.length := by
  obtain ⟨⟨name, named⟩, _⟩ := lent _ member
  have live : (σ.system.batch b).stage = .live := registry.named name _ (Table.mem_of_find? named)
  exact System.batch_known (Stage.opened live)

theorem Opens.stacked (opens : σ.Opens opening) (registry : Registry σ.system σ.names)
    {frame : Frame} {below : List Frame} {onFailure : OnFailure} {caught : Bool}
    (performs : frame.performs = true) (stacked : Stacked opening.system (frame :: below)) :
    Stacked opening.system
      (opening.push ++ .call opening.loans onFailure caught :: frame :: below) := by
  have called : ∀ loans, Stacked opening.system (.call loans onFailure caught :: frame :: below) :=
    fun loans => ⟨.call performs, stacked⟩
  cases opens with
  | pauses lent kind => exact ⟨.pause (.inl kind), called _⟩
  | waits => exact ⟨.wait, called _⟩
  | triesToWait => exact ⟨.tryWait, called _⟩
  | rests | startsPool | issuesToken | makesBatch | dropsToken | queues => exact called _
  | dropsBatch => exact ⟨.close, called _⟩
  | dropsPool => exact ⟨.pause (.inr (.inr ⟨_, _, rfl⟩)), called _⟩
  | runsInline => exact .task _ rfl (called _)
  | executes =>
      simp only [List.append_assoc, List.cons_append, List.nil_append]
      exact .task _ rfl ⟨.contain rfl, .pause (.inr (.inl rfl)), called _⟩
  | @sweeps target lent =>
      refine ⟨.sweep ?_, called _⟩
      intro b same
      subst same
      exact lent.batch_known registry (List.mem_singleton.mpr rfl)

theorem Moves.stacked (moves : σ.Moves σ') (registry : Registry σ.system σ.names)
    (stacked : Stacked σ.system σ.frames) : Stacked σ'.system σ'.frames := by
  have grown := stacked.grows (moves.grows registry)
  cases moves with
  | advances top on =>
      rw [top] at grown
      exact ⟨grown.1.continues on, grown.2⟩
  | opens top on opens =>
      rw [top] at grown
      exact opens.stacked registry on.performs.2 ⟨grown.1.continues on, grown.2⟩
  | leaves top | passes top | finishes top | ends top | unwinds top | settles top | contains top
  | sweepEnds top | delivers top | closesBatch top | closesPool top =>
      rw [top] at grown
      exact grown.2
  | sweeps top =>
      rw [top] at grown
      exact .task _ rfl ⟨.contain rfl, grown.1.sweep_on _, grown.2⟩
  | helps top =>
      rw [top] at grown
      exact .task _ rfl ⟨.contain rfl, grown.1.wait_on, grown.2⟩
  | drains top =>
      rw [top] at grown
      obtain ⟨fits, rest⟩ := grown
      refine .task _ rfl ⟨.contain rfl, ?_, rest⟩
      cases fits with
      | pause => exact .pause (.inr (.inr ⟨_, _, rfl⟩))

/-! ## Loans -/

theorem Opens.held (opens : σ.Opens opening) (frame : Frame) (below : List Frame)
    (onFailure : OnFailure) (caught : Bool) :
    heldLoans (opening.push ++ .call opening.loans onFailure caught :: frame :: below)
      opening.signal = opening.loans ++ (frame :: below).flatMap Frame.loans := by
  cases opens with
  | rests | waits | triesToWait | startsPool | issuesToken | makesBatch | dropsToken | dropsBatch
  | dropsPool | queues => rfl
  | @pauses _ pause _ kind => cases pause <;> first | rfl | cases kind
  | runsInline => exact heldLoans_task _
  | executes =>
      simp only [List.append_assoc]
      exact heldLoans_task _
  | sweeps => rfl

/-- When a sweep is on top, what is below it holds all that is left. -/
theorem freed_eq {source : Source} {batch : Option BatchId} {count : Nat} {below : List Frame}
    (loans : σ.loans = heldLoans σ.frames σ.signal)
    (top : σ.frames = .sweep source batch count :: below) :
    σ.freed batch = below.flatMap Frame.loans := by
  rw [top] at loans
  simp only [freed, loans]
  cases σ.signal with
  | proceed => rfl
  | returned | raised => cases batch <;> simp [heldLoans, Frame.loans, Frame.shares]

theorem foldl_erase_append (loans rest : List Loan) :
    loans.foldl List.erase (loans ++ rest) = rest := by
  induction loans with
  | nil => rfl
  | cons loan loans ih => simpa using ih

theorem Moves.held (moves : σ.Moves σ') (custody : Custody σ) :
    σ'.loans = heldLoans σ'.frames σ'.signal := by
  have loans := custody.loans
  have stacked := custody.stacked
  cases moves with
  | advances top on =>
      rw [top, heldLoans_of_empty on.loans.1] at loans
      rw [loans, heldLoans_of_empty on.loans.2]
  | opens top on opens =>
      rw [top, heldLoans_of_empty on.loans.1] at loans
      rw [opens.held, loans, List.flatMap_cons, on.loans.2]
      rfl
  | leaves top outcome =>
      rw [top, heldLoans_cons (by simp)] at loans
      rw [heldLoans_outcome outcome, loans]
      exact foldl_erase_append _ _
  | passes top kind outcome =>
      have empty : ∀ frame : Frame, frame.isPause ∨ frame = .executed ∨ frame = .cleanup →
          frame.loans = [] := by
        intro frame kind
        cases frame <;> simp [Frame.isPause] at kind <;> rfl
      rw [top, heldLoans_of_empty (empty _ kind)] at loans
      rw [heldLoans_outcome outcome, loans]
  | finishes top =>
      rw [top] at loans stacked
      obtain ⟨fits, _⟩ := stacked
      cases fits with
      | program => exact loans
      | pause kind => simp [Frame.isPause] at kind
  | unwinds top raised =>
      rw [top, heldLoans_of_empty rfl] at loans
      rw [heldLoans_outcome (by rw [raised]; rfl), loans]
  | ends top | settles top | contains top | delivers top | closesBatch top | closesPool top =>
      rw [top, heldLoans_of_empty rfl] at loans
      rw [heldLoans_outcome rfl, loans]
  | sweeps top =>
      rw [heldLoans_task, freed_eq custody.loans top]
      rfl
  | sweepEnds top outcome =>
      rw [heldLoans_outcome outcome, freed_eq custody.loans top]
  | helps top | drains top =>
      rw [top, heldLoans_of_empty rfl] at loans
      rw [heldLoans_task, loans]
      rfl

theorem mem_of_mem_erased {loan : Loan} {loans rest : List Loan}
    (member : loan ∈ loans.foldl List.erase rest) : loan ∈ rest := by
  induction loans generalizing rest with
  | nil => exact member
  | cons _ _ ih => exact List.mem_of_mem_erase (ih member)

theorem mem_of_mem_freed {loan : Loan} {batch : Option BatchId} (member : loan ∈ σ.freed batch) :
    loan ∈ σ.loans := by
  unfold freed at member
  split at member
  · exact member
  · exact mem_of_mem_erased member

theorem mem_freed_of_sweep {source : Source} {b : BatchId} {count : Nat} {below : List Frame}
    (custody : Custody σ) (top : σ.frames = .sweep source (some b) count :: below) :
    ⟨.batch b, .use⟩ ∈ σ.freed (some b) := by
  have stacked := custody.stacked
  rw [top] at stacked
  rw [freed_eq custody.loans top]
  obtain ⟨batch, looks⟩ : ∃ batch, batch = some b := ⟨_, rfl⟩
  rw [← looks] at stacked
  obtain ⟨fits, _⟩ := stacked
  cases fits with
  | pause kind => simp [Frame.isPause] at kind
  | @sweep target =>
      cases target with
      | batch c =>
          cases looks
          simp [Frame.loans, Target.loans]
      | pool | token => cases looks

theorem Lends.named {loans : List Loan} (lent : σ.Lends loans) {loan : Loan}
    (member : loan ∈ loans) : σ.Named loan.object :=
  (lent loan member).1

theorem Opens.lends (opens : σ.Opens opening) {loan : Loan} (member : loan ∈ opening.loans) :
    opening.names = σ.names ∧ σ.Named loan.object := by
  cases opens with
  | rests lent | pauses lent | queues lent | runsInline lent | executes lent =>
      exact ⟨rfl, lent.named member⟩
  | sweeps lent => exact ⟨rfl, lent.named member⟩
  | waits named | triesToWait named =>
      cases List.mem_singleton.mp member
      exact ⟨rfl, _, named⟩
  | startsPool | issuesToken | makesBatch | dropsToken | dropsBatch | dropsPool => cases member

/-- A name goes away only when nothing holds what it stands for. -/
theorem Opens.keeps_name (opens : σ.Opens opening) {name : String} {object : Object}
    (found : σ.names.find? name = some object) (held : ¬ σ.Free object) :
    opening.names.find? name = some object := by
  have removed : ∀ {gone : String} {other : Object}, σ.names.find? gone = some other →
      σ.Free other → (σ.names.remove gone).find? name = some object := by
    intro gone other stood free
    rw [Table.find?_remove_of_ne]
    · exact found
    · rintro rfl
      rw [found] at stood
      cases stood
      exact held free
  have put : ∀ {new : String} {other : Object}, σ.names.find? new = none →
      (σ.names.put new other).find? name = some object := by
    intro new other unknown
    rw [Table.find?_put_of_ne]
    · exact found
    · rintro rfl
      rw [found] at unknown
      cases unknown
  cases opens with
  | rests | pauses | waits | triesToWait | queues | runsInline | executes | sweeps => exact found
  | startsPool unknown => exact put unknown
  | issuesToken unknown => exact put unknown
  | makesBatch unknown => exact put unknown
  | dropsToken stood free => exact removed stood free
  | dropsBatch stood free => exact removed stood free
  | dropsPool stood free => exact removed stood free

theorem Moves.keeps_name (moves : σ.Moves σ') {name : String} {loan : Loan}
    (found : σ.names.find? name = some loan.object) (held : loan ∈ σ.loans) :
    σ'.names.find? name = some loan.object := by
  cases moves with
  | opens top on opens => exact opens.keeps_name found fun free => free loan held rfl
  | leaves | sweepEnds | sweeps | advances | passes | finishes | ends | unwinds | settles | contains
  | helps | delivers | closesBatch | drains | closesPool => exact found

theorem Moves.named (moves : σ.Moves σ') (custody : Custody σ) {loan : Loan}
    (member : loan ∈ σ'.loans) : σ'.Named loan.object := by
  have named : ∀ loan ∈ σ.loans, σ.Named loan.object := custody.named
  cases moves with
  | opens top on opens =>
      rcases List.mem_append.mp member with lent | old
      · obtain ⟨same, name, found⟩ := opens.lends lent
        exact ⟨name, (congrArg (Table.find? name) same).trans found⟩
      · obtain ⟨name, found⟩ := named loan old
        exact ⟨name, opens.keeps_name found fun free => free loan old rfl⟩
  | leaves => exact named loan (mem_of_mem_erased member)
  | sweepEnds => exact named loan (mem_of_mem_freed member)
  | sweeps top =>
      rcases List.mem_append.mp member with shared | old
      · obtain ⟨b, looks, rfl⟩ := List.mem_map.mp shared
        rw [Option.mem_toList.mp looks] at top
        exact named ⟨.batch b, .use⟩ (mem_of_mem_freed (mem_freed_of_sweep custody top))
      · exact named loan (mem_of_mem_freed old)
  | advances | passes | finishes | ends | unwinds | settles | contains | helps | delivers
  | closesBatch | drains | closesPool => exact named loan member

theorem Opens.exclusive (opens : σ.Opens opening) (custody : Custody σ) (object : Object)
    (excluded : ⟨object, .exclude⟩ ∈ opening.loans ++ σ.loans) :
    ⟨object, .share⟩ ∉ opening.loans ++ σ.loans := by
  have lent : ∀ loans, σ.Lends loans → ⟨object, .exclude⟩ ∈ loans ++ σ.loans →
      ⟨object, .share⟩ ∉ loans ++ σ.loans := by
    intro loans lent excluded shared
    rcases List.mem_append.mp excluded with new | old
    · exact (lent _ new).2.1 rfl
    · rcases List.mem_append.mp shared with new' | old'
      · exact (lent _ new').2.2 rfl old
      · exact custody.exclusive object old old'
  have free : ∀ b, σ.Free (.batch b) → ⟨object, .exclude⟩ ∈ [⟨.batch b, .exclude⟩] ++ σ.loans →
      ⟨object, .share⟩ ∉ [⟨.batch b, .exclude⟩] ++ σ.loans := by
    intro b free excluded shared
    simp only [List.cons_append, List.nil_append, List.mem_cons, Loan.mk.injEq, reduceCtorEq,
      and_false, false_or, and_true] at excluded shared
    rcases excluded with rfl | old
    · exact free _ shared rfl
    · exact custody.exclusive object old shared
  cases opens with
  | rests lends | pauses lends => exact lent _ lends excluded
  | queues lends => exact lent _ lends excluded
  | runsInline lends => exact lent _ lends excluded
  | executes lends => exact lent _ lends excluded
  | sweeps lends => exact lent _ lends excluded
  | waits _ unused => exact free _ unused excluded
  | triesToWait _ unused => exact free _ unused excluded
  | startsPool | issuesToken | makesBatch | dropsToken | dropsBatch | dropsPool =>
      exact custody.exclusive object excluded

theorem Moves.exclusive (moves : σ.Moves σ') (custody : Custody σ) (object : Object)
    (excluded : ⟨object, .exclude⟩ ∈ σ'.loans) : ⟨object, .share⟩ ∉ σ'.loans := by
  cases moves with
  | opens top on opens => exact opens.exclusive custody object excluded
  | leaves =>
      exact fun shared => custody.exclusive object (mem_of_mem_erased excluded)
        (mem_of_mem_erased shared)
  | sweepEnds =>
      exact fun shared => custody.exclusive object (mem_of_mem_freed excluded)
        (mem_of_mem_freed shared)
  | @sweeps _ batch _ _ _ _ _ top open' =>
      intro shared
      have old : ⟨object, .exclude⟩ ∈ σ.freed batch := by
        simpa [Frame.shares] using excluded
      rcases List.mem_append.mp shared with new | old'
      · obtain ⟨b, looks, same⟩ := List.mem_map.mp new
        cases same
        exact open' b (Option.mem_toList.mp looks) old
      · exact custody.exclusive object (mem_of_mem_freed old) (mem_of_mem_freed old')
  | advances | passes | finishes | ends | unwinds | settles | contains | helps | delivers
  | closesBatch | drains | closesPool => exact custody.exclusive object excluded

/-! ## Closing -/

theorem Lends.inlet_live (registry : Registry σ.system σ.names) {entry : Entry} {hold : Hold}
    (lent : σ.Lends (entry.target.loans hold)) :
    (σ.system.pool (σ.system.inletOf entry).1).stage = .live := by
  have nameable : ∀ loan ∈ entry.target.loans hold, σ.system.Nameable loan.object := by
    intro loan member
    obtain ⟨name, found⟩ := lent.named member
    exact registry.named name _ (Table.mem_of_find? found)
  cases entry with
  | pool receiver => exact nameable ⟨.pool receiver, .use⟩ List.mem_cons_self
  | token receiver t =>
      have opened := nameable ⟨.token t, .use⟩ (List.mem_cons_of_mem _ List.mem_cons_self)
      exact registry.tokens t opened.1
  | batch b =>
      have live : (σ.system.batch b).stage = .live := nameable ⟨.batch b, hold⟩ List.mem_cons_self
      have pool := registry.batches b (Stage.opened live)
      cases kind : (σ.system.batch b).kind with
      | multi => simpa [inletOf, kind] using pool
      | single t =>
          simp only [inletOf, kind]
          rw [(registry.owned b t kind).2.1]
          exact pool

theorem Lends.alike (registry : Registry σ.system σ.names) {entry : Entry} {hold : Hold}
    (lent : σ.Lends (entry.target.loans hold)) (work : Work) :
    σ.system.Alike (σ.system.submit entry work).system := by
  cases submit_submits (s := σ.system) entry work with
  | declined _ _ _ system =>
      rw [system]
      exact .count _ _
  | admitted admits =>
      obtain ⟨_, ⟨_, system⟩ | ⟨_, system⟩⟩ := admits <;> rw [system]
      · exact .count _ _
      · refine (Alike.count _ _).trans (.push _ _ ?_)
        rw [count_pool]
        exact lent.inlet_live registry

theorem Opens.closing (opens : σ.Opens opening) (registry : Registry σ.system σ.names)
    {object : Object} (closing : σ.system.Closing object) : opening.system.Closing object := by
  cases opens with
  | rests | pauses | waits | triesToWait | sweeps => exact closing
  | @startsPool _ reasons config =>
      cases object with
      | pool p =>
          have opened : (σ.system.pool p).stage ≠ .closed :=
            fun closed => Stage.noConfusion (closed.symm.trans closing)
          exact (congrArg Pool.stage (pool_startPool reasons config opened)).trans closing
      | batch b => exact closing
      | commonPool | token => exact closing
  | issuesToken => exact closing_issueToken _ closing
  | @makesBatch _ p single =>
      cases single with
      | true => exact closing_appendBatch _ (closing_issueToken p closing)
      | false => exact closing_appendBatch _ closing
  | dropsToken => exact closing_releaseToken _ closing
  | dropsBatch =>
      cases object with
      | batch c =>
          exact forall_batch
            (fun c batch => (σ.system.batch c).stage = .closing → batch.stage = .closing)
            (fun _ same => same) (fun _ _ => rfl) c closing
      | pool | commonPool | token => exact closing
  | dropsPool =>
      cases object with
      | pool q =>
          exact forall_pool
            (fun q pool => (σ.system.pool q).stage = .closing → pool.stage = .closing)
            (fun _ same => same) (fun _ _ => rfl) q closing
      | batch | commonPool | token => exact closing
  | queues lent submits => exact submits ▸ closing_alike (lent.alike registry _) closing
  | runsInline lent submits => exact submits ▸ closing_alike (lent.alike registry _) closing
  | executes _ taken => exact closing_alike (.take taken) closing

theorem Moves.still_closing (moves : σ.Moves σ') (registry : Registry σ.system σ.names)
    {object : Object} (closing : σ.system.Closing object)
    (other : closings σ.frames ≠ object :: closings σ'.frames) : σ'.system.Closing object := by
  cases moves with
  | opens _ _ opens => exact opens.closing registry closing
  | advances | leaves | passes | finishes | ends | unwinds | contains | sweepEnds => exact closing
  | settles => exact closing_alike (.settle _ _ _ _) closing
  | sweeps _ _ taken => exact closing_alike (.take taken) closing
  | helps _ _ _ taken => exact closing_alike (.take taken) closing
  | drains _ taken => exact closing_alike (.take taken) closing
  | delivers => exact closing_alike (.deliver _ _) closing
  | @closesBatch b _ _ top =>
      have delivered : (σ.system.deliver b).2.Closing object :=
        closing_alike (.deliver _ _) closing
      have ended : (σ.system.endBatch b).Closing object := by
        cases object with
        | batch c =>
            have different : b ≠ c := by
              rintro rfl
              exact other (by rw [top]; rfl)
            exact (congrArg Batch.stage (batch_modifyBatch_of_ne _ different)).trans delivered
        | pool | commonPool | token => exact delivered
      simp only [closeBatch_system]
      cases (σ.system.batch b).kind with
      | single t => exact closing_releaseToken t ended
      | multi => exact ended
  | @closesPool p _ _ _ top =>
      cases object with
      | pool q =>
          have different : p ≠ q := by
            rintro rfl
            exact other (by rw [top]; rfl)
          exact (congrArg Pool.stage (pool_modifyPool_of_ne _ different)).trans closing
      | batch | commonPool | token => exact closing

theorem Opens.closes (opens : σ.Opens opening) (registry : Registry σ.system σ.names) :
    closings opening.push = [] ∨
      ∃ object, closings opening.push = [object] ∧ ¬ σ.system.Closing object ∧
        opening.system.Closing object := by
  cases opens with
  | rests | waits | triesToWait | startsPool | issuesToken | makesBatch | dropsToken | queues
  | sweeps => exact .inl rfl
  | @pauses _ pause _ kind =>
      left
      cases pause <;> first | rfl | cases kind
  | runsInline => exact .inl (Task.frames_closings _)
  | executes =>
      left
      rw [closings_append, Task.frames_closings]
      rfl
  | @dropsBatch name b named =>
      right
      have live : σ.system.Nameable (.batch b) := registry.named name _ (Table.mem_of_find? named)
      have known : b.index < σ.system.batches.length := System.batch_known (Stage.opened live)
      refine ⟨.batch b, rfl, not_closing live, ?_⟩
      exact congrArg Batch.stage (batch_modifyBatch_self ({ · with stage := .closing }) known)
  | @dropsPool name p named =>
      right
      have live : σ.system.Nameable (.pool p) := registry.named name _ (Table.mem_of_find? named)
      have known : p.index < σ.system.pools.length := System.pool_known (Stage.opened live)
      refine ⟨.pool p, rfl, not_closing live, ?_⟩
      exact congrArg Pool.stage (pool_modifyPool_self ({ · with stage := .closing }) known)

/-- A turn starts to close one object that is live, or ends the closing on top, or neither. -/
theorem Moves.closes (moves : σ.Moves σ') (registry : Registry σ.system σ.names) :
    closings σ'.frames = closings σ.frames ∨
      (∃ object, closings σ'.frames = object :: closings σ.frames ∧
        ¬ σ.system.Closing object ∧ σ'.system.Closing object) ∨
      ∃ object, closings σ.frames = object :: closings σ'.frames := by
  cases moves with
  | advances top on =>
      left
      rw [top, closings_cons, closings_cons, on.closing?.1, on.closing?.2]
  | @opens frame frame' below opening onFailure caught top on opens =>
      have called : closings (.call opening.loans onFailure caught :: frame' :: below) =
          closings σ.frames := by
        rw [top, closings_cons, closings_cons, closings_cons, on.closing?.1, on.closing?.2]
        rfl
      rcases opens.closes registry with nothing | ⟨object, starts, live, closing⟩
      · left
        rw [closings_append, called, nothing]
        rfl
      · right; left
        refine ⟨object, ?_, live, closing⟩
        rw [closings_append, called, starts]
        rfl
  | leaves top | finishes top | ends top | unwinds top | settles top | contains top
  | sweepEnds top =>
      left
      rw [top]
      rfl
  | @passes frame _ _ top kind =>
      left
      rw [top]
      cases frame <;> first | rfl | simp [Frame.isPause] at kind
  | sweeps top | drains top =>
      left
      rw [top, closings_append, Task.frames_closings]
      rfl
  | @helps _ _ goal _ _ _ top =>
      left
      rw [top, closings_append, Task.frames_closings]
      cases goal <;> rfl
  | @delivers _ _ goal _ top asked =>
      left
      rw [top]
      cases goal <;> first | rfl | exact absurd rfl asked
  | closesBatch top | closesPool top =>
      right; right
      rw [top]
      exact ⟨_, rfl⟩

/-! ## Calm -/

theorem Opens.calm (opens : σ.Opens opening) (below : List Frame) (onFailure : OnFailure)
    (caught : Bool) : Calm (opening.push ++ .call opening.loans onFailure caught :: below)
      opening.signal := by
  cases opens with
  | rests | startsPool | issuesToken | makesBatch | dropsToken | queues =>
      exact calm_of_not_host rfl
  | runsInline | executes => exact calm_of_not_host rfl
  | pauses | waits | triesToWait | dropsBatch | dropsPool | sweeps => trivial

theorem Moves.calm (moves : σ.Moves σ') (custody : Custody σ) : Calm σ'.frames σ'.signal := by
  have stacked := custody.stacked
  cases moves with
  | advances top on =>
      have performs := on.performs.2
      apply calm_of_not_host
      revert performs
      cases ‹Frame› <;> simp [Frame.performs, Frame.isHost]
  | opens _ _ opens => exact opens.calm _ _ _
  | passes top kind =>
      rw [top] at stacked
      apply stacked.1.calm
      rintro job p rfl
      simp [Frame.isPause] at kind
  | leaves top | finishes top | ends top | unwinds top | settles top | sweepEnds top
  | delivers top | closesBatch top | closesPool top =>
      rw [top] at stacked
      exact stacked.1.calm (by simp)
  | contains => exact calm_returned _ _
  | sweeps | helps | drains => trivial

theorem Moves.custody (moves : σ.Moves σ') (registry : Registry σ.system σ.names)
    (custody : Custody σ) : Custody σ' := by
  refine
    { stacked := moves.stacked registry custody.stacked
      loans := moves.held custody
      named := fun _ member => moves.named custody member
      exclusive := moves.exclusive custody
      closing := ?_
      once := ?_
      calm := moves.calm custody }
  · intro object member
    rcases moves.closes registry with same | ⟨new, more, _, closing⟩ | ⟨old, less⟩
    · apply moves.still_closing registry (custody.closing object (same ▸ member))
      intro wrong
      have length := congrArg List.length wrong
      rw [same] at length
      simp at length
    · rw [more] at member
      rcases List.mem_cons.mp member with rfl | old
      · exact closing
      · apply moves.still_closing registry (custody.closing object old)
        intro wrong
        have length := congrArg List.length wrong
        simp only [more, List.length_cons] at length
        omega
    · have inside : object ∈ closings σ.frames := less ▸ List.mem_cons_of_mem _ member
      apply moves.still_closing registry (custody.closing object inside)
      intro wrong
      have once := custody.once
      rw [wrong] at once
      exact (List.nodup_cons.mp once).1 member
  · rcases moves.closes registry with same | ⟨new, more, live, _⟩ | ⟨old, less⟩
    · exact same ▸ custody.once
    · rw [more]
      exact List.nodup_cons.mpr ⟨fun member => live (custody.closing new member), custody.once⟩
    · exact (List.nodup_cons.mp (less ▸ custody.once)).2

theorem held_nameable (registry : Registry σ.system σ.names) (custody : Custody σ)
    {loans : List Loan} {onFailure : OnFailure} {caught : Bool}
    (member : .call loans onFailure caught ∈ σ.frames) :
    ∀ loan ∈ loans, loan ∈ σ.loans ∧ σ.system.Nameable loan.object := by
  intro loan held
  have lent : loan ∈ σ.loans := custody.loans ▸ mem_heldLoans member held
  obtain ⟨name, found⟩ := custody.named loan lent
  exact ⟨lent, registry.named name _ (Table.mem_of_find? found)⟩

/-- A batch that is waited for is held and live, unless the wait is for its closing. -/
theorem awaited (registry : Registry σ.system σ.names) (custody : Custody σ) {b : BatchId}
    {budget : Option Nat} {goal : Goal} {below : List Frame}
    (top : σ.frames = .waiting b budget goal :: below) (asked : goal ≠ .close) :
    ⟨.batch b, .exclude⟩ ∈ σ.loans ∧ (σ.system.batch b).stage = .live := by
  have stacked := custody.stacked
  rw [top] at stacked
  obtain ⟨onFailure, caught, rest, rfl⟩ := stacked.1.asked asked
  have member : .call [⟨.batch b, .exclude⟩] onFailure caught ∈ σ.frames :=
    top ▸ List.mem_cons_of_mem _ List.mem_cons_self
  exact held_nameable registry custody member _ List.mem_cons_self

theorem dropped (custody : Custody σ) {b : BatchId} {budget : Option Nat} {below : List Frame}
    (top : σ.frames = .waiting b budget .close :: below) : (σ.system.batch b).stage = .closing :=
  custody.closing (.batch b) (by simp [top, Frame.closing?])

end Scene

end TaskPool
