import Mathlib.Data.Finset.Card
import Mathlib.Data.List.Induction
import TaskPool.Proofs.JobAccounting
import TaskPool.Proofs.Registry
import TaskPool.Submitters

/-!
# Backpressure

A load check reads a count and compares it with a limit, and the count is raised in a later step. A
thread that is past its check has read a count within the limit. So as long as nobody goes around
the check, the count and the threads that are still to raise it exceed the limit by no more than the
number of threads that submit.

A batch and a pool are checked in the same way. `Gauge` says what a check of either kind looks at.
-/

namespace TaskPool

/-! ## What changes leave alone -/

namespace System

variable {s s' s'' : System Work} {p : PoolId} {b : BatchId}

def Housed (s : System Work) : Prop :=
  ∀ b, b.index < s.batches.length → (s.batch b).pool.index < s.pools.length

structure Keeps (s s' : System Work) : Prop where
  pools : s'.pools.length = s.pools.length
  batches : s'.batches.length = s.batches.length
  home : ∀ b, (s'.batch b).pool = (s.batch b).pool
  multiplier : ∀ b, (s'.batch b).multiplier = (s.batch b).multiplier
  workers : ∀ p, (s'.pool p).workers = (s.pool p).workers
  limit : ∀ p, (s'.pool p).limit = (s.pool p).limit

namespace Keeps

theorem refl (s : System Work) : s.Keeps s :=
  ⟨rfl, rfl, fun _ => rfl, fun _ => rfl, fun _ => rfl, fun _ => rfl⟩

theorem trans (first : s.Keeps s') (second : s'.Keeps s'') : s.Keeps s'' where
  pools := second.pools.trans first.pools
  batches := second.batches.trans first.batches
  home b := (second.home b).trans (first.home b)
  multiplier b := (second.multiplier b).trans (first.multiplier b)
  workers p := (second.workers p).trans (first.workers p)
  limit p := (second.limit p).trans (first.limit p)

theorem modifyPool {f : Pool Work → Pool Work}
    (workers : (f (s.pool p)).workers = (s.pool p).workers)
    (limit : (f (s.pool p)).limit = (s.pool p).limit) : s.Keeps (s.modifyPool p f) where
  pools := by simp [System.modifyPool]
  batches := rfl
  home _ := rfl
  multiplier _ := rfl
  workers := pool_modifyPool_proj (·.workers) workers
  limit := pool_modifyPool_proj (·.limit) limit

theorem modifyBatch {f : Batch → Batch} (home : (f (s.batch b)).pool = (s.batch b).pool)
    (multiplier : (f (s.batch b)).multiplier = (s.batch b).multiplier) :
    s.Keeps (s.modifyBatch b f) where
  pools := rfl
  batches := by simp [System.modifyBatch]
  home := batch_modifyBatch_proj (·.pool) home
  multiplier := batch_modifyBatch_proj (·.multiplier) multiplier
  workers _ := rfl
  limit _ := rfl

theorem threshold (keeps : s.Keeps s') (b : BatchId) : s'.threshold b = s.threshold b := by
  simp only [System.threshold, poolOf, keeps.home, keeps.multiplier, keeps.workers]

theorem housed (keeps : s.Keeps s') (housed : s.Housed) : s'.Housed := by
  intro b known
  rw [keeps.home, keeps.pools]
  exact housed b (keeps.batches ▸ known)

theorem draws {inlet : Inlet} {job : Job Work} {rest : Pool Work}
    (drawn : (s.pool p).draw inlet = some (job, rest)) :
    s.Keeps (s.modifyPool p fun _ => rest) := by
  cases inlet with
  | shared =>
      cases front : (s.pool p).shared with
      | nil => simp [Pool.draw, front] at drawn
      | cons first jobs =>
          simp only [Pool.draw, front, Option.some.injEq, Prod.mk.injEq] at drawn
          obtain ⟨_, rfl⟩ := drawn
          exact modifyPool rfl rfl
  | lane token =>
      simp only [Pool.draw, Option.map_eq_some_iff, Prod.mk.injEq] at drawn
      obtain ⟨_, _, _, rfl⟩ := drawn
      exact modifyPool rfl rfl

theorem files (s : System Work) (p : PoolId) (inlet : Inlet) (job : Job Work) :
    s.Keeps (s.modifyPool p (.file inlet job)) := by
  cases inlet <;> exact modifyPool rfl rfl

theorem settle (s : System Work) (b : BatchId) (job : JobId) (panicked : Option Payload) :
    s.Keeps (s.settle b job panicked).1 := by
  rw [settle_system]
  exact modifyBatch rfl rfl

end Keeps

/-- Not even the counts change. -/
structure Spares (s s' : System Work) : Prop extends Keeps s s' where
  outstanding : ∀ b, (s'.batch b).barrier.outstanding = (s.batch b).barrier.outstanding
  queued : ∀ p, (s'.pool p).queued = (s.pool p).queued

namespace Spares

theorem trans (first : s.Spares s') (second : s'.Spares s'') : s.Spares s'' where
  toKeeps := first.toKeeps.trans second.toKeeps
  outstanding b := (second.outstanding b).trans (first.outstanding b)
  queued p := (second.queued p).trans (first.queued p)

theorem modifyPool {f : Pool Work → Pool Work}
    (workers : (f (s.pool p)).workers = (s.pool p).workers)
    (limit : (f (s.pool p)).limit = (s.pool p).limit)
    (queued : (f (s.pool p)).queued = (s.pool p).queued) : s.Spares (s.modifyPool p f) where
  toKeeps := .modifyPool workers limit
  outstanding _ := rfl
  queued := pool_modifyPool_proj (·.queued) queued

theorem modifyBatch {f : Batch → Batch} (home : (f (s.batch b)).pool = (s.batch b).pool)
    (multiplier : (f (s.batch b)).multiplier = (s.batch b).multiplier)
    (outstanding : (f (s.batch b)).barrier.outstanding = (s.batch b).barrier.outstanding) :
    s.Spares (s.modifyBatch b f) where
  toKeeps := .modifyBatch home multiplier
  outstanding := batch_modifyBatch_proj (·.barrier.outstanding) outstanding
  queued _ := rfl

theorem tokens (spares : s.Spares s') (tokens : List Token) : s.Spares { s' with tokens } where
  pools := spares.pools
  batches := spares.batches
  home := spares.home
  multiplier := spares.multiplier
  workers := spares.workers
  limit := spares.limit
  outstanding := spares.outstanding
  queued := spares.queued

theorem releaseToken (s : System Work) (t : TokenId) : s.Spares (s.releaseToken t).1 :=
  tokens (modifyPool rfl rfl rfl) _

theorem issueToken (s : System Work) (p : PoolId) : s.Spares (s.issueToken p).2.1 :=
  tokens (modifyPool (s := s) (p := p) (f := (·.register _)) rfl rfl rfl) _

theorem deliver (s : System Work) (b : BatchId) : s.Spares (s.deliver b).2 := by
  rw [deliver_system]
  exact modifyBatch rfl rfl (Barrier.outstanding_deliver _)

theorem closeBatch (s : System Work) (b : BatchId) : s.Spares (s.closeBatch b).1 := by
  have ended : s.Spares (s.endBatch b) := (deliver s b).trans (modifyBatch rfl rfl rfl)
  rw [closeBatch_system]
  cases (s.batch b).kind with
  | single t => exact ended.trans (releaseToken _ t)
  | multi => exact ended

end Spares

/-- A change that arranges something leaves a count and its limit alone, or the count is the one of
an object that has no jobs yet. -/
structure Settles (s s' : System Work) : Prop where
  housed : s'.Housed
  batch : ∀ b, (s'.batch b).barrier.outstanding = 0 ∨
    (s'.batch b).barrier.outstanding = (s.batch b).barrier.outstanding ∧
      s'.threshold b = s.threshold b
  pool : ∀ p, (s'.pool p).queued = 0 ∨
    (s'.pool p).queued = (s.pool p).queued ∧ (s'.pool p).limit = (s.pool p).limit

theorem Spares.settles (spares : s.Spares s') (housed : s.Housed) : s.Settles s' where
  housed := spares.toKeeps.housed housed
  batch b := .inr ⟨spares.outstanding b, spares.toKeeps.threshold b⟩
  pool p := .inr ⟨spares.queued p, spares.limit p⟩

theorem startPool_settles (config : PoolConfig) (housed : s.Housed) :
    s.Settles (s.startPool reasons config).2.1 where
  housed b known := Nat.lt_of_lt_of_le (housed b known) (by simp [startPool])
  batch b := by
    by_cases known : b.index < s.batches.length
    · refine .inr ⟨rfl, ?_⟩
      have home := housed b known
      have same :
          (s.startPool reasons config).2.1.pool (s.batch b).pool = s.pool (s.batch b).pool := by
        simp [startPool, pool, List.getD_eq_getElem?_getD, List.getElem?_append_left home]
      exact congrArg (loadLimit (s.batch b).multiplier) (congrArg Pool.workers same)
    · left
      exact congrArg (·.barrier.outstanding) (batch_unknown (s := s) (Nat.le_of_not_lt known))
  pool := by
    refine forall_pool_append (fun p pool => pool.queued = 0 ∨
      pool.queued = (s.pool p).queued ∧ pool.limit = (s.pool p).limit) ?_ (.inl rfl)
    exact fun p => .inr ⟨rfl, rfl⟩

theorem appendBatch_settles (settles : s.Settles s') {new : Batch}
    (home : new.pool.index < s'.pools.length) (idle : new.barrier.outstanding = 0) :
    s.Settles { s' with batches := s'.batches ++ [new] } where
  housed b known := by
    rw [List.length_append, List.length_singleton] at known
    rcases batch_append_cases (s := s') new b with ⟨other, same⟩ | ⟨_, same⟩
    · rw [same]
      exact settles.housed b (by omega)
    · rw [same]
      exact home
  batch b := by
    rcases batch_append_cases (s := s') new b with ⟨_, same⟩ | ⟨_, same⟩
    · simp only [threshold, poolOf, same]
      exact settles.batch b
    · rw [same]
      exact .inl idle
  pool := settles.pool

theorem Arranges.settles (arranges : s.Arranges s') (housed : s.Housed) : s.Settles s' := by
  cases arranges with
  | startsPool reasons config => exact startPool_settles config housed
  | issuesToken known => exact (Spares.issueToken s _).settles housed
  | @makesBatch p single multiplier known =>
      cases single with
      | true =>
          have spares := Spares.issueToken s p
          exact appendBatch_settles (spares.settles housed) (spares.pools.symm ▸ known) rfl
      | false =>
          exact appendBatch_settles (Spares.settles ⟨.refl s, fun _ => rfl, fun _ => rfl⟩ housed)
            known rfl
  | delivers b => exact (Spares.deliver s b).settles housed
  | releasesToken t => exact (Spares.releaseToken s t).settles housed
  | closesBatch b => exact (Spares.closeBatch s b).settles housed
  | beginsClosingPool p | closesPool p | sleeps p | wakes p | stops p =>
      exact (Spares.modifyPool rfl rfl rfl).settles housed

end System

/-! ## Gauges -/

/-- A count that a load check looks at, and its limit. A thread whose submission concerns the count
is bound for it from the submission on until it raises the count, and it is heading for the rise
once it has read a count within the limit. -/
structure Gauge where
  shows : System Work → Nat
  limit : System Work → Nat
  concerns : Entry → PoolId → Bool
  isBound : Activity → Bool
  isHeading : Nat → Activity → Bool
  isBound_of_heading : ∀ limit doing, isHeading limit doing = true → isBound doing = true

namespace Gauge

def batch (b : BatchId) : Gauge where
  shows s := (s.batch b).barrier.outstanding
  limit s := s.threshold b
  concerns
    | .batch c _, _ => c = b
    | _, _ => false
  isBound
    | .asks c _ | .read c _ _ | .admitted c _ => c = b
    | _ => false
  isHeading limit
    | .read c _ count => c = b && count ≤ limit
    | .admitted c _ => c = b
    | _ => false
  isBound_of_heading limit doing heading := by
    cases doing with
    | read => exact (Bool.and_eq_true_iff.mp heading).1
    | admitted => exact heading
    | _ => cases heading

def pool (p : PoolId) : Gauge where
  shows s := (s.pool p).queued
  limit s := (s.pool p).limit
  concerns _ pool := pool = p
  isBound
    | .asks _ errand | .read _ errand _ | .admitted _ errand => errand.pool = p
    | .offers errand | .awake errand | .weighed errand _ | .enters errand => errand.pool = p
    | _ => false
  isHeading limit
    | .weighed errand count => errand.pool = p && count ≤ limit
    | .enters errand => errand.pool = p
    | _ => false
  isBound_of_heading limit doing heading := by
    cases doing with
    | weighed => exact (Bool.and_eq_true_iff.mp heading).1
    | enters => exact heading
    | _ => cases heading

variable {g : Gauge} {who : Finset Nat} {s : Submitters} {before after : List Strand}
  {old new : Activity} {jobs jobs' : List (Job Work)} {system : System Work}

def heading (g : Gauge) (s : Submitters) : Nat :=
  s.threads.countP (g.isHeading (g.limit s.system) ·.doing)

/-- Only some of the threads are bound for the count. -/
def Among (g : Gauge) (who : Finset Nat) (s : Submitters) : Prop :=
  ∀ i strand, s.threads[i]? = some strand → g.isBound strand.doing = true → i ∈ who

/-- The count will not exceed its limit by more than the number of threads that raise it. -/
structure Within (g : Gauge) (who : Finset Nat) (s : Submitters) : Prop where
  among : g.Among who s
  bounded : g.shows s.system + g.heading s ≤ g.limit s.system + who.card

theorem countP_le_card {α : Type} {p : α → Bool} {l : List α}
    (places : ∀ i x, l[i]? = some x → p x = true → i ∈ who) : l.countP p ≤ who.card := by
  induction l using List.reverseRecOn generalizing who with
  | nil => exact Nat.zero_le _
  | append_singleton l x ih =>
      have inside : ∀ i y, l[i]? = some y → i < l.length ∧ (l ++ [x])[i]? = some y := by
        intro i y found
        have lt := (List.getElem?_eq_some_iff.mp found).1
        exact ⟨lt, (List.getElem?_append_left lt).trans found⟩
      rw [List.countP_append, List.countP_singleton]
      split
      · next holds =>
          have last : l.length ∈ who := places _ x (by simp) holds
          have others : l.countP p ≤ (who.erase l.length).card := by
            refine ih fun i y found holds => ?_
            obtain ⟨lt, found⟩ := inside i y found
            exact Finset.mem_erase.mpr ⟨Nat.ne_of_lt lt, places i y found holds⟩
          rw [← Finset.card_erase_add_one last]
          exact Nat.succ_le_succ others
      · exact ih fun i y found => places i y (inside i y found).2

theorem Among.now (among : g.Among who s) (thread : s.threads = before ++ ⟨old, jobs⟩ :: after)
    (bound : g.isBound old = true) : before.length ∈ who :=
  among before.length ⟨old, jobs⟩ (by simp [thread]) bound

theorem Among.turn (among : g.Among who s) (thread : s.threads = before ++ ⟨old, jobs⟩ :: after)
    (bound : g.isBound new = true → before.length ∈ who) :
    g.Among who (Submitters.turn before new jobs' after system) := by
  intro i strand found
  by_cases same : i = before.length
  · subst same
    have here : strand = ⟨new, jobs'⟩ := by simpa [Submitters.turn, eq_comm] using found
    rw [here]
    exact bound
  · refine among i strand ?_
    rw [← found, thread]
    simp only [Submitters.turn, List.getElem?_append]
    split
    · rfl
    · rw [List.getElem?_cons, List.getElem?_cons, if_neg (by omega), if_neg (by omega)]

theorem Among.heading_le (among : g.Among who s) : g.heading s ≤ who.card :=
  countP_le_card fun i strand found heading =>
    among i strand found (g.isBound_of_heading _ _ heading)

/-- As long as the count is low it takes all the threads together to raise it. -/
theorem Among.within_of_low (among : g.Among who s)
    (low : g.shows s.system ≤ g.limit s.system) : g.Within who s :=
  ⟨among, Nat.add_le_add low among.heading_le⟩

/-- What a thread adds to the count it does not head for any more. -/
theorem Within.turn (within : g.Within who s)
    (thread : s.threads = before ++ ⟨old, jobs⟩ :: after)
    (limit : g.limit system = g.limit s.system)
    (bound : g.isBound new = true → before.length ∈ who)
    (raised : g.shows system + (g.isHeading (g.limit s.system) new).toNat ≤
      g.shows s.system + (g.isHeading (g.limit s.system) old).toNat) :
    g.Within who (Submitters.turn before new jobs' after system) := by
  refine ⟨within.among.turn thread bound, ?_⟩
  have bounded := within.bounded
  simp only [heading, Submitters.turn, thread, limit, List.countP_append, List.countP_cons]
    at bounded ⊢
  have toNat : ∀ heading : Bool, (if heading = true then 1 else 0) = heading.toNat := by decide
  simp only [toNat] at bounded ⊢
  omega

theorem Within.quiet (within : g.Within who s)
    (thread : s.threads = before ++ ⟨old, jobs⟩ :: after)
    (limit : g.limit system = g.limit s.system) (shows : g.shows system ≤ g.shows s.system)
    (bound : g.isBound new = true → before.length ∈ who)
    (idle : g.isHeading (g.limit s.system) new = false) :
    g.Within who (Submitters.turn before new jobs' after system) := by
  refine within.turn thread limit bound ?_
  rw [idle]
  exact Nat.le_add_right_of_le shows

theorem Within.reads (within : g.Within who s)
    (thread : s.threads = before ++ ⟨old, jobs⟩ :: after)
    (bound : g.isBound new = true → before.length ∈ who)
    (low : g.isHeading (g.limit s.system) new = true → g.shows s.system ≤ g.limit s.system) :
    g.Within who (Submitters.turn before new jobs' after s.system) := by
  by_cases heads : g.isHeading (g.limit s.system) new = true
  · exact Among.within_of_low (within.among.turn thread bound) (low heads)
  · exact within.quiet thread rfl (Nat.le_refl _) bound (Bool.eq_false_of_not_eq_true heads)

theorem Within.decides (within : g.Within who s)
    (thread : s.threads = before ++ ⟨old, jobs⟩ :: after)
    (bound : g.isBound new = true → before.length ∈ who)
    (heads : g.isHeading (g.limit s.system) new = true →
      g.isHeading (g.limit s.system) old = true) :
    g.Within who (Submitters.turn before new jobs' after s.system) :=
  within.turn thread rfl bound (Nat.add_le_add_left (Bool.toNat_le_toNat heads) _)

theorem isHeading_of_elsewhere {limit : Nat} (elsewhere : g.isBound new = false) :
    g.isHeading limit new = false := by
  refine Bool.eq_false_of_not_eq_true fun on => ?_
  exact Bool.eq_false_iff.mp elsewhere (g.isBound_of_heading _ _ on)

theorem Within.rests (within : g.Within who s)
    (thread : s.threads = before ++ ⟨old, jobs⟩ :: after)
    (limit : g.limit system = g.limit s.system) (shows : g.shows system ≤ g.shows s.system)
    (elsewhere : g.isBound new = false) :
    g.Within who (Submitters.turn before new jobs' after system) := by
  have unbound : g.isBound new ≠ true := Bool.eq_false_iff.mp elsewhere
  exact within.quiet thread limit shows (fun on => absurd on unbound)
    (isHeading_of_elsewhere elsewhere)

theorem Within.arranges (within : g.Within who s) (shows : g.shows system = g.shows s.system)
    (limit : g.limit system = g.limit s.system) : g.Within who { s with system } := by
  refine ⟨within.among, ?_⟩
  have bounded := within.bounded
  simp only [heading, shows, limit] at bounded ⊢
  exact bounded

end Gauge

namespace Submitters

variable {s s' : Submitters} {act : Act} {acts : List Act} {b : BatchId} {p : PoolId}
  {threads : Nat}
  {who : Finset Nat}

/-! ## Batches -/

theorem isBound_batch_next (errand : Errand) : (Gauge.batch b).isBound errand.next = false := by
  unfold Errand.next
  split <;> rfl

theorem outstanding_enlist (system : System Work) (c : BatchId) :
    ((system.modifyBatch c (·.mapBarrier .enlist)).batch b).barrier.outstanding ≤
      (system.batch b).barrier.outstanding + (decide (c = b)).toNat := by
  by_cases same : c = b
  · subst same
    by_cases known : c.index < system.batches.length
    · rw [System.barrier_mapBarrier _ known]
      simp
    · rw [System.modifyBatch_unknown _ (Nat.le_of_not_lt known)]
      exact Nat.le_add_right _ _
  · rw [System.batch_modifyBatch_of_ne _ same]
    exact Nat.le_add_right _ _

theorem outstanding_settle (system : System Work) (c : BatchId) (job : JobId)
    (panicked : Option Payload) :
    ((system.settle c job panicked).1.batch b).barrier.outstanding ≤
      (system.batch b).barrier.outstanding := by
  rw [System.settle_system]
  refine System.forall_batch (fun b batch => batch.barrier.outstanding ≤
    (system.batch b).barrier.outstanding) (fun _ => Nat.le_refl _) ?_ b
  intro _
  simp [Batch.mapBarrier]

theorem Step.within_batch (step : s.Step act s') (housed : s.system.Housed)
    (within : (Gauge.batch b).Within who s)
    (unforced : ∀ i p, act ≠ .submits i (.batch b .forced) p)
    (own : ∀ i entry p, act = .submits i entry p → (Gauge.batch b).concerns entry p = true →
      i ∈ who) : (Gauge.batch b).Within who s' := by
  cases step with
  | submits entry work thread _ =>
      cases entry with
      | pool | token => exact within.rests thread rfl (Nat.le_refl _) (isBound_batch_next _)
      | batch c admission =>
          have bound := own _ _ _ rfl
          cases admission with
          | checked | ownCheck => exact within.quiet thread rfl (Nat.le_refl _) bound rfl
          | forced =>
              refine within.rests thread rfl (Nat.le_refl _) (decide_eq_false ?_)
              rintro rfl
              exact unforced _ _ rfl
  | @reads _ c _ _ _ thread =>
      have bound := within.among.now thread
      refine within.reads thread bound fun heads => ?_
      obtain ⟨same, low⟩ := Bool.and_eq_true_iff.mp heads
      obtain rfl : c = b := of_decide_eq_true same
      exact of_decide_eq_true low
  | declines thread => exact within.rests thread rfl (Nat.le_refl _) rfl
  | @admits _ c _ count _ _ thread low =>
      have bound := within.among.now thread
      refine within.decides thread bound fun same => ?_
      obtain rfl : c = b := of_decide_eq_true same
      exact Bool.and_eq_true_iff.mpr ⟨same, decide_eq_true low⟩
  | @wraps _ c errand _ _ thread =>
      have keeps : s.system.Keeps (s.system.modifyBatch c (·.mapBarrier .enlist)) :=
        .modifyBatch rfl rfl
      have elsewhere := isBound_batch_next (b := b) (errand.wrapped c)
      refine within.turn thread (keeps.threshold b)
        (fun on => absurd on (Bool.eq_false_iff.mp elsewhere)) ?_
      rw [Gauge.isHeading_of_elsewhere elsewhere]
      exact outstanding_enlist s.system c
  | looks thread =>
      refine within.rests thread rfl (Nat.le_refl _) ?_
      split <;> rfl
  | weighs thread => exact within.rests thread rfl (Nat.le_refl _) rfl
  | rejects thread => exact within.rests thread rfl (Nat.le_refl _) rfl
  | accepts thread => exact within.rests thread rfl (Nat.le_refl _) rfl
  | @counts _ errand _ _ thread =>
      have keeps : s.system.Keeps (s.system.modifyPool errand.pool .count) := .modifyPool rfl rfl
      exact within.rests thread (keeps.threshold b) (Nat.le_refl _) rfl
  | files thread =>
      exact within.rests thread ((System.Keeps.files ..).threshold b) (Nat.le_refl _) rfl
  | draws _ _ thread drawn =>
      exact within.rests thread ((System.Keeps.draws drawn).threshold b) (Nat.le_refl _) rfl
  | @discounts _ p _ _ _ thread =>
      have keeps : s.system.Keeps (s.system.modifyPool p .discount) := .modifyPool rfl rfl
      exact within.rests thread (keeps.threshold b) (Nat.le_refl _) rfl
  | @ends _ job _ _ panicked thread =>
      cases job.batch with
      | none => exact within.rests thread rfl (Nat.le_refl _) rfl
      | some c =>
          exact within.rests thread ((System.Keeps.settle ..).threshold b)
            (outstanding_settle ..) rfl
  | arranges arranged =>
      rcases (arranged.settles housed).batch b with new | ⟨shows, limit⟩
      · refine Gauge.Among.within_of_low within.among ?_
        exact Nat.le_trans (Nat.le_of_eq new) (Nat.zero_le _)
      · exact within.arranges shows limit

/-! ## Pools -/

theorem isBound_pool_next (errand : Errand) :
    (Gauge.pool p).isBound errand.next = decide (errand.pool = p) := by
  unfold Errand.next
  split <;> rfl

theorem isHeading_pool_next {errand : Errand} (limit : Nat)
    (checks : errand.pool = p → errand.checks = true) :
    (Gauge.pool p).isHeading limit errand.next = false := by
  unfold Errand.next
  split
  · rfl
  · next unchecked => exact decide_eq_false fun same => unchecked (checks same)

end Submitters

/-- The thread goes to a pool, and does not check its load on the way. -/
def Activity.skips (p : PoolId) : Activity → Bool
  | .asks _ errand | .read _ errand _ | .admitted _ errand => errand.pool = p && !errand.checks
  | _ => false

namespace Submitters

variable {s s' : Submitters} {act : Act} {acts : List Act} {b : BatchId} {p : PoolId}
  {threads : Nat}
  {who : Finset Nat} {before after : List Strand} {old new : Activity}
  {jobs jobs' : List (Job Work)} {system : System Work}

def Checks (p : PoolId) (s : Submitters) : Prop :=
  ∀ strand ∈ s.threads, strand.doing.skips p = false

theorem Checks.now (checks : s.Checks p) (thread : s.threads = before ++ ⟨old, jobs⟩ :: after) :
    old.skips p = false := checks ⟨old, jobs⟩ (by simp [thread])

theorem Checks.turn (checks : s.Checks p) (thread : s.threads = before ++ ⟨old, jobs⟩ :: after)
    (checked : new.skips p = false) : (turn before new jobs' after system).Checks p := by
  intro strand member
  simp only [Submitters.turn, List.mem_append, List.mem_cons] at member
  rcases member with member | rfl | member
  · exact checks strand (by simp [thread, member])
  · exact checked
  · exact checks strand (by simp [thread, member])

theorem skips_next (errand : Errand) : errand.next.skips p = false := by
  unfold Errand.next
  split <;> rfl

/-- What is submitted to a pool in the plain way is on its way to a check. -/
theorem skips_first (entry : Entry) (work : Work) (system : System Work)
    (plain : (system.inletOf entry).1 = p → entry.isPlain = true) :
    ((system.errand entry work).first entry).skips p = false := by
  have checked : (decide ((system.inletOf entry).1 = p) && !entry.isPlain) = false := by
    by_cases same : (system.inletOf entry).1 = p
    · simp [plain same]
    · simp [same]
  cases entry with
  | pool | token => exact skips_next _
  | batch b admission => cases admission <;> exact checked

theorem Step.checks (step : s.Step act s') (checks : s.Checks p)
    (plain : ∀ i entry, act = .submits i entry p → entry.isPlain = true) : s'.Checks p := by
  cases step with
  | submits entry work thread _ =>
      refine checks.turn thread (skips_first entry work s.system ?_)
      rintro rfl
      exact plain _ entry rfl
  | reads thread | admits thread =>
      have checked := checks.now thread
      exact checks.turn thread checked
  | wraps thread => exact checks.turn thread (skips_next _)
  | looks thread =>
      refine checks.turn thread ?_
      split <;> rfl
  | declines thread => exact checks.turn thread rfl
  | weighs thread => exact checks.turn thread rfl
  | rejects thread => exact checks.turn thread rfl
  | accepts thread => exact checks.turn thread rfl
  | counts thread => exact checks.turn thread rfl
  | files thread => exact checks.turn thread rfl
  | draws _ _ thread => exact checks.turn thread rfl
  | discounts thread => exact checks.turn thread rfl
  | ends _ thread => exact checks.turn thread rfl
  | arranges => exact checks

theorem queued_count (system : System Work) (q : PoolId) :
    ((system.modifyPool q .count).pool p).queued ≤
      (system.pool p).queued + (decide (q = p)).toNat := by
  by_cases same : q = p
  · subst same
    by_cases known : q.index < system.pools.length
    · rw [System.pool_modifyPool_self _ known]
      simp [Pool.count]
    · rw [System.modifyPool_unknown _ (Nat.le_of_not_lt known)]
      exact Nat.le_add_right _ _
  · rw [System.pool_modifyPool_of_ne _ same]
    exact Nat.le_add_right _ _

theorem queued_discount (system : System Work) (q : PoolId) :
    ((system.modifyPool q .discount).pool p).queued ≤ (system.pool p).queued := by
  refine System.forall_pool (fun p pool => pool.queued ≤ (system.pool p).queued)
    (fun _ => Nat.le_refl _) ?_ p
  exact fun _ => Nat.sub_le _ _

theorem isBound_pool_first (entry : Entry) (work : Work) (system : System Work) :
    (Gauge.pool p).isBound ((system.errand entry work).first entry) = true ↔
      (system.inletOf entry).1 = p := by
  cases entry with
  | pool | token =>
      rw [Errand.first, isBound_pool_next]
      exact decide_eq_true_iff
  | batch b admission => cases admission <;> exact decide_eq_true_iff

theorem Step.within_pool (step : s.Step act s') (housed : s.system.Housed)
    (within : (Gauge.pool p).Within who s) (checks : s.Checks p)
    (plain : ∀ i entry, act = .submits i entry p → entry.isPlain = true)
    (awake : ∀ asleep, act = .checks p asleep → asleep = 0)
    (own : ∀ i entry q, act = .submits i entry q → (Gauge.pool p).concerns entry q = true →
      i ∈ who) : (Gauge.pool p).Within who s' := by
  cases step with
  | submits entry work thread _ =>
      refine within.quiet thread rfl (Nat.le_refl _) (fun bound => own _ _ _ rfl
        (decide_eq_true ((isBound_pool_first ..).mp bound))) ?_
      cases entry with
      | pool receiver forced | token receiver t forced =>
          refine isHeading_pool_next _ ?_
          rintro rfl
          exact plain _ _ rfl
      | batch c admission => cases admission <;> rfl
  | reads thread =>
      have bound := within.among.now thread
      exact within.quiet thread rfl (Nat.le_refl _) bound rfl
  | declines thread => exact within.rests thread rfl (Nat.le_refl _) rfl
  | admits thread =>
      have bound := within.among.now thread
      exact within.quiet thread rfl (Nat.le_refl _) bound rfl
  | @wraps _ c errand _ _ thread =>
      have keeps : s.system.Keeps (s.system.modifyBatch c (·.mapBarrier .enlist)) :=
        .modifyBatch rfl rfl
      refine within.quiet thread (keeps.limit p) (Nat.le_refl _) ?_ (isHeading_pool_next _ ?_)
      · rw [isBound_pool_next]
        exact within.among.now thread
      · have checked := checks.now thread
        intro same
        have same : errand.pool = p := same
        simpa [Activity.skips, Errand.wrapped, same] using checked
  | @looks _ errand _ _ thread =>
      have bound := within.among.now thread
      refine within.quiet thread rfl (Nat.le_refl _) ?_ ?_
      · split <;> exact bound
      · split
        · rfl
        · next asleep =>
            refine decide_eq_false ?_
            rintro rfl
            exact asleep (awake _ rfl)
  | @weighs _ errand _ _ thread =>
      have bound := within.among.now thread
      -- only a count within the limit makes the thread head for the rise
      refine within.reads thread bound fun heads => ?_
      obtain ⟨same, low⟩ := Bool.and_eq_true_iff.mp heads
      obtain rfl : errand.pool = p := of_decide_eq_true same
      exact of_decide_eq_true low
  | rejects thread => exact within.rests thread rfl (Nat.le_refl _) rfl
  | @accepts _ errand count _ _ thread low =>
      have bound := within.among.now thread
      refine within.decides thread bound fun same => ?_
      obtain rfl : errand.pool = p := of_decide_eq_true same
      exact Bool.and_eq_true_iff.mpr ⟨same, decide_eq_true low⟩
  | @counts _ errand _ _ thread =>
      -- the count goes up by the thread that was heading for it
      have keeps : s.system.Keeps (s.system.modifyPool errand.pool .count) := .modifyPool rfl rfl
      exact within.turn thread (keeps.limit p) (fun on => nomatch on)
        (queued_count s.system errand.pool)
  | @files _ errand _ _ thread =>
      have filed := System.Keeps.files s.system errand.pool errand.inlet errand.job
      have queued : (((s.system.modifyPool errand.pool
          (.file errand.inlet errand.job)).pool p).queued) = (s.system.pool p).queued :=
        System.pool_modifyPool_proj (·.queued) (Pool.queued_file ..) p
      exact within.rests thread (filed.limit p) (Nat.le_of_eq queued) rfl
  | @draws _ _ _ job rest q inlet thread drawn =>
      have queued : ((s.system.modifyPool q fun _ => rest).pool p).queued =
          (s.system.pool p).queued :=
        System.pool_modifyPool_proj (·.queued) (Pool.loses_of_draw drawn).2 p
      exact within.rests thread ((System.Keeps.draws drawn).limit p) (Nat.le_of_eq queued) rfl
  | @discounts _ q _ _ _ thread =>
      have keeps : s.system.Keeps (s.system.modifyPool q .discount) := .modifyPool rfl rfl
      exact within.rests thread (keeps.limit p) (queued_discount s.system q) rfl
  | @ends _ job _ _ panicked thread =>
      cases job.batch with
      | none => exact within.rests thread rfl (Nat.le_refl _) rfl
      | some c =>
          have same : (s.system.settle c job.id panicked).1.pool p = s.system.pool p := by
            rw [System.settle_system]
            rfl
          exact within.rests thread (congrArg Pool.limit same)
            (Nat.le_of_eq (congrArg Pool.queued same)) rfl
  | arranges arranged =>
      rcases (arranged.settles housed).pool p with new | ⟨shows, limit⟩
      · refine Gauge.Among.within_of_low within.among ?_
        exact Nat.le_trans (Nat.le_of_eq new) (Nat.zero_le _)
      · exact within.arranges shows limit

/-! ## Runs -/

theorem Step.housed (step : s.Step act s') (housed : s.system.Housed) : s'.system.Housed := by
  cases step with
  | submits | reads | declines | admits | looks | weighs | rejects | accepts => exact housed
  | wraps => exact (System.Keeps.modifyBatch rfl rfl).housed housed
  | counts | discounts => exact (System.Keeps.modifyPool rfl rfl).housed housed
  | files => exact (System.Keeps.files ..).housed housed
  | draws _ _ _ drawn => exact (System.Keeps.draws drawn).housed housed
  | @ends _ job _ _ panicked =>
      cases job.batch with
      | none => exact housed
      | some c => exact (System.Keeps.settle ..).housed housed
  | arranges arranged => exact (arranged.settles housed).housed

theorem Run.housed (run : (start threads).Run acts s) : s.system.Housed := by
  induction run with
  | refl => exact fun _ known => absurd known (Nat.not_lt_zero _)
  | step _ step ih => exact step.housed ih

theorem Step.length (step : s.Step act s') : s'.threads.length = s.threads.length := by
  cases step with
  | arranges => rfl
  | submits _ _ thread | ends _ thread | draws _ _ thread => simp [turn, thread]
  | reads thread | declines thread | admits thread | wraps thread | looks thread
  | weighs thread | rejects thread | accepts thread | counts thread | files thread
  | discounts thread => simp [turn, thread]

theorem Run.length (run : (start threads).Run acts s) : s.threads.length = threads := by
  induction run with
  | refl => exact List.length_replicate
  | step _ step ih => exact step.length.trans ih

theorem Run.submits_lt (run : (start threads).Run acts s) {i : Nat} {entry : Entry}
    (member : .submits i entry p ∈ acts) : i < threads := by
  induction run with
  | refl => cases member
  | step run step ih =>
      simp only [List.mem_append, List.mem_singleton] at member
      rcases member with member | rfl
      · exact ih member
      · cases step with
        | submits _ _ thread =>
            rw [← run.length, thread]
            simp

theorem start_among (g : Gauge) (idle : g.isBound .free = false) :
    g.Among who (start threads) := by
  intro i strand found bound
  have free := (List.mem_replicate.mp (List.mem_of_getElem? found)).2
  simp [free, idle] at bound

theorem Run.within_batch (run : (start threads).Run acts s)
    (unforced : ∀ i p, .submits i (.batch b .forced) p ∉ acts)
    (own : ∀ i entry p, .submits i entry p ∈ acts → (Gauge.batch b).concerns entry p = true →
      i ∈ who) : (Gauge.batch b).Within who s := by
  induction run with
  | refl => exact (start_among _ rfl).within_of_low (Nat.zero_le _)
  | step run step ih =>
      simp only [List.mem_append, List.mem_singleton, not_or] at unforced own
      have within := ih (fun i p => (unforced i p).1) fun i entry p member =>
        own i entry p (.inl member)
      exact step.within_batch run.housed within (fun i p same => (unforced i p).2 same.symm)
        fun i entry p same => own i entry p (.inr same.symm)

theorem Run.within_pool (run : (start threads).Run acts s)
    (plain : ∀ i entry, .submits i entry p ∈ acts → entry.isPlain = true)
    (awake : ∀ asleep, .checks p asleep ∈ acts → asleep = 0)
    (own : ∀ i entry q, .submits i entry q ∈ acts → (Gauge.pool p).concerns entry q = true →
      i ∈ who) : (Gauge.pool p).Within who s ∧ s.Checks p := by
  induction run with
  | refl =>
      refine ⟨(start_among _ rfl).within_of_low (Nat.zero_le _), ?_⟩
      intro strand member
      rw [(List.mem_replicate.mp member).2]
      rfl
  | step run step ih =>
      simp only [List.mem_append, List.mem_singleton] at plain awake own
      obtain ⟨within, checks⟩ := ih (fun i entry member => plain i entry (.inl member))
        (fun asleep member => awake asleep (.inl member))
        fun i entry q member => own i entry q (.inl member)
      have plain : ∀ i entry, _ = Act.submits i entry p → entry.isPlain = true :=
        fun i entry same => plain i entry (.inr same.symm)
      exact ⟨step.within_pool run.housed within checks plain
        (fun asleep same => awake asleep (.inr same.symm))
        fun i entry q same => own i entry q (.inr same.symm), step.checks checks plain⟩

/-- The threads that submitted something that concerns a count. -/
def submitters (g : Gauge) (acts : List Act) : Finset Nat :=
  (acts.filterMap fun
    | .submits i entry pool => if g.concerns entry pool then some i else none
    | _ => none).toFinset

theorem mem_submitters {g : Gauge} {i : Nat} :
    i ∈ submitters g acts ↔
      ∃ entry pool, .submits i entry pool ∈ acts ∧ g.concerns entry pool = true := by
  simp only [submitters, List.mem_toFinset, List.mem_filterMap]
  constructor
  · rintro ⟨act, member, same⟩
    cases act with
    | submits j entry pool =>
        simp only [Option.ite_none_right_eq_some, Option.some.injEq] at same
        exact ⟨entry, pool, same.2 ▸ member, same.1⟩
    | checks | other => cases same
  · rintro ⟨entry, pool, member, concerned⟩
    exact ⟨_, member, if_pos concerned⟩

theorem Run.card_submitters_le (run : (start threads).Run acts s) (g : Gauge) :
    (submitters g acts).card ≤ threads := by
  have within : submitters g acts ⊆ Finset.range threads := by
    intro i member
    obtain ⟨entry, pool, member, _⟩ := mem_submitters.mp member
    exact Finset.mem_range.mpr (run.submits_lt member)
  simpa using Finset.card_le_card within

/-- The threads that are past the check of a batch and have not enlisted their tasks. -/
def admitting (s : Submitters) (b : BatchId) : Nat :=
  s.threads.countP fun strand => match strand.doing with
    | .admitted c _ => c = b
    | _ => false

/-- The threads that are past the check of a pool and have not counted their jobs. -/
def entering (s : Submitters) (p : PoolId) : Nat :=
  s.threads.countP fun strand => match strand.doing with
    | .enters errand => errand.pool = p
    | _ => false

theorem admitting_le_heading : s.admitting b ≤ (Gauge.batch b).heading s := by
  refine List.countP_mono_left ?_
  rintro ⟨doing, jobs⟩ _ past
  cases doing <;> first | exact past | cases past

theorem entering_le_heading : s.entering p ≤ (Gauge.pool p).heading s := by
  refine List.countP_mono_left ?_
  rintro ⟨doing, jobs⟩ _ past
  cases doing <;> first | exact past | cases past

/-- However the steps interleave, and however deeply jobs are run inside each other, a batch that
gets no forced submission has no more outstanding tasks than its threshold and the number of threads
that submit to it together, those tasks included that are past the check and not enlisted yet. The
same holds of the jobs of a pool that gets only plain submissions, if no check finds a worker
asleep. -/
theorem Run.backpressure (run : (start threads).Run acts s) :
    (∀ b, (∀ i p, .submits i (.batch b .forced) p ∉ acts) →
      (s.system.batch b).barrier.outstanding + s.admitting b ≤
        s.system.threshold b + (submitters (.batch b) acts).card ∧
      (submitters (.batch b) acts).card ≤ threads ∧
      (threads = 1 → (s.system.batch b).barrier.outstanding ≤ s.system.threshold b + 1)) ∧
    (∀ p, (∀ i entry, .submits i entry p ∈ acts → entry.isPlain = true) →
      (∀ asleep, .checks p asleep ∈ acts → asleep = 0) →
      (s.system.pool p).queued + s.entering p ≤
        (s.system.pool p).limit + (submitters (.pool p) acts).card ∧
      (submitters (.pool p) acts).card ≤ threads ∧
      (threads = 1 → (s.system.pool p).queued ≤ (s.system.pool p).limit + 1)) := by
  refine ⟨?_, ?_⟩
  · intro b unforced
    have few := run.card_submitters_le (.batch b)
    have within : (s.system.batch b).barrier.outstanding + (Gauge.batch b).heading s ≤
        s.system.threshold b + (submitters (.batch b) acts).card :=
      (run.within_batch unforced fun i entry p member concerned =>
        mem_submitters.mpr ⟨entry, p, member, concerned⟩).bounded
    have admitting := s.admitting_le_heading (b := b)
    omega
  · intro p plain awake
    have few := run.card_submitters_le (.pool p)
    have within : (s.system.pool p).queued + (Gauge.pool p).heading s ≤
        (s.system.pool p).limit + (submitters (.pool p) acts).card :=
      (run.within_pool plain awake fun i entry q member concerned =>
        mem_submitters.mpr ⟨entry, q, member, concerned⟩).1.bounded
    have entering := s.entering_le_heading (p := p)
    omega

/-- Two of three threads read the same counts before either of them raises one, so both counts end
up as high as they can. A third submission is turned away, and so is what it submits while it
runs. -/
theorem bounds_attained :
    let job (i : Nat) (b : Option BatchId) : Job Work := ⟨⟨i⟩, b, .park "gate"⟩
    let system (outstanding queued submissions : Nat) (shared : List (Job Work)) : System Work :=
      { pools := [{ Pool.start 0 { workers := 0 } with shared, queued }]
        batches := [⟨⟨0⟩, .multi, 4, { outstanding }, .live⟩]
        submissions }
    let full : Submitters :=
      { system := system 2 2 4 [job 0 (some ⟨0⟩), job 1 (some ⟨0⟩)]
        threads := [⟨.free, [job 3 none, job 2 none]⟩, {}, {}] }
    ∃ acts, (start 3).Run acts full ∧
      (submitters (.batch ⟨0⟩) acts).card = 2 ∧
      (full.system.batch ⟨0⟩).barrier.outstanding = full.system.threshold ⟨0⟩ + 2 ∧
      (full.system.batch ⟨0⟩).barrier.outstanding + full.admitting ⟨0⟩ ≤
        full.system.threshold ⟨0⟩ + (submitters (.batch ⟨0⟩) acts).card ∧
      (submitters (.pool ⟨0⟩) acts).card = 2 ∧
      (full.system.pool ⟨0⟩).queued = (full.system.pool ⟨0⟩).limit + 2 ∧
      (full.system.pool ⟨0⟩).queued + full.entering ⟨0⟩ ≤
        (full.system.pool ⟨0⟩).limit + (submitters (.pool ⟨0⟩) acts).card := by
  intro job system full
  let b : BatchId := ⟨0⟩
  let raw (i : Nat) : Errand := ⟨job i none, ⟨0⟩, .shared, true⟩
  let task (i : Nat) : Errand := ⟨job i (some b), ⟨0⟩, .shared, true⟩
  let submits (i : Nat) : Act := .submits i (.batch b .checked) ⟨0⟩
  let looks : Act := .checks ⟨0⟩ 0
  have made : (start 3).Run _ ⟨system 0 0 0 [], [{}, {}, {}]⟩ :=
    (Run.refl.step (.arranges (.startsPool (fun _ => none) { workers := 0 }))).step
      (.arranges (.makesBatch (p := ⟨0⟩) false 4 (by decide)))
  have asked : (start 3).Run (_ ++ [submits 0] ++ [submits 1])
      ⟨system 0 0 2 [], [⟨.asks b (raw 0), []⟩, ⟨.asks b (raw 1), []⟩, {}]⟩ :=
    (made.step (@Step.submits _ [] [] [{}, {}] (.batch b .checked) (.park "gate") rfl rfl)).step
      (@Step.submits _ [⟨.asks b (raw 0), []⟩] [] [{}] (.batch b .checked) (.park "gate") rfl rfl)
  have read : (start 3).Run _
      ⟨system 0 0 2 [], [⟨.read b (raw 0) 0, []⟩, ⟨.read b (raw 1) 0, []⟩, {}]⟩ :=
    (asked.step (@Step.reads _ [] b (raw 0) [] [⟨.asks b (raw 1), []⟩, {}] rfl)).step
      (@Step.reads _ [⟨.read b (raw 0) 0, []⟩] b (raw 1) [] [{}] rfl)
  have admitted : (start 3).Run _
      ⟨system 0 0 2 [], [⟨.admitted b (raw 0), []⟩, ⟨.admitted b (raw 1), []⟩, {}]⟩ :=
    (read.step (@Step.admits _ [] b (raw 0) 0 [] [⟨.read b (raw 1) 0, []⟩, {}] rfl
      (Nat.zero_le _))).step
      (@Step.admits _ [⟨.admitted b (raw 0), []⟩] b (raw 1) 0 [] [{}] rfl (Nat.zero_le _))
  have wrapped : (start 3).Run _
      ⟨system 2 0 2 [], [⟨.offers (task 0), []⟩, ⟨.offers (task 1), []⟩, {}]⟩ :=
    (admitted.step (@Step.wraps _ [] b (raw 0) [] [⟨.admitted b (raw 1), []⟩, {}] rfl)).step
      (@Step.wraps _ [⟨.offers (task 0), []⟩] b (raw 1) [] [{}] rfl)
  have looked : (start 3).Run (_ ++ [looks] ++ [looks])
      ⟨system 2 0 2 [], [⟨.awake (task 0), []⟩, ⟨.awake (task 1), []⟩, {}]⟩ :=
    (wrapped.step (@Step.looks _ [] (task 0) [] [⟨.offers (task 1), []⟩, {}] rfl)).step
      (@Step.looks _ [⟨.awake (task 0), []⟩] (task 1) [] [{}] rfl)
  have weighed : (start 3).Run _
      ⟨system 2 0 2 [], [⟨.weighed (task 0) 0, []⟩, ⟨.weighed (task 1) 0, []⟩, {}]⟩ :=
    (looked.step (@Step.weighs _ [] (task 0) [] [⟨.awake (task 1), []⟩, {}] rfl)).step
      (@Step.weighs _ [⟨.weighed (task 0) 0, []⟩] (task 1) [] [{}] rfl)
  have accepted : (start 3).Run _
      ⟨system 2 0 2 [], [⟨.enters (task 0), []⟩, ⟨.enters (task 1), []⟩, {}]⟩ :=
    (weighed.step (@Step.accepts _ [] (task 0) 0 [] [⟨.weighed (task 1) 0, []⟩, {}] rfl
      (Nat.zero_le _))).step
      (@Step.accepts _ [⟨.enters (task 0), []⟩] (task 1) 0 [] [{}] rfl (Nat.zero_le _))
  have counted : (start 3).Run _
      ⟨system 2 2 2 [], [⟨.counted (task 0), []⟩, ⟨.counted (task 1), []⟩, {}]⟩ :=
    (accepted.step (@Step.counts _ [] (task 0) [] [⟨.enters (task 1), []⟩, {}] rfl)).step
      (@Step.counts _ [⟨.counted (task 0), []⟩] (task 1) [] [{}] rfl)
  have filed : (start 3).Run _
      ⟨system 2 2 2 [job 0 (some b), job 1 (some b)], [{}, {}, {}]⟩ :=
    (counted.step (@Step.files _ [] (task 0) [] [⟨.counted (task 1), []⟩, {}] rfl)).step
      (@Step.files _ [{}] (task 1) [] [{}] rfl)
  have declined : (start 3).Run (_ ++ [submits 0] ++ [.other] ++ [.other])
      ⟨system 2 2 3 [job 0 (some b), job 1 (some b)], [⟨.free, [job 2 none]⟩, {}, {}]⟩ :=
    ((filed.step
      (@Step.submits _ [] [] [{}, {}] (.batch b .checked) (.park "gate") rfl rfl)).step
      (@Step.reads _ [] b (raw 2) [] [{}, {}] rfl)).step
      (@Step.declines _ [] b (raw 2) 2 [] [{}, {}] rfl (by decide))
  have run : (start 3).Run (_ ++ [submits 0] ++ [.other] ++ [.other]) full :=
    ((declined.step
      (@Step.submits _ [] [job 2 none] [{}, {}] (.batch b .checked) (.park "gate") rfl rfl)).step
      (@Step.reads _ [] b (raw 3) [job 2 none] [{}, {}] rfl)).step
      (@Step.declines _ [] b (raw 3) 2 [job 2 none] [{}, {}] rfl (by decide))
  obtain ⟨batches, pools⟩ := Run.backpressure run
  have bounded := (batches b (by simp [submits, looks])).1
  obtain ⟨bounded', _⟩ := pools ⟨0⟩ (by
    intro i entry member
    simp only [submits, looks, List.nil_append, List.cons_append, List.mem_cons, Act.submits.injEq,
      List.not_mem_nil, reduceCtorEq, false_or, or_false, and_true] at member
    rcases member with ⟨_, rfl⟩ | ⟨_, rfl⟩ | ⟨_, rfl⟩ | ⟨_, rfl⟩ <;> rfl) (by simp [submits, looks])
  refine ⟨_, run, ?_, rfl, bounded, ?_, rfl, bounded'⟩
  · simp [submitters, submits, looks, Gauge.batch, b]
  · simp [submitters, submits, looks, Gauge.pool, b]

/-! ## Without interference -/

theorem Run.trans {s s' s'' : Submitters} {acts acts' : List Act} (first : s.Run acts s')
    (second : s'.Run acts' s'') : s.Run (acts ++ acts') s'' := by
  induction second with
  | refl => rwa [List.append_nil]
  | step _ step ih =>
      rw [← List.append_assoc]
      exact ih.step step

/-- What a submission leaves a thread with, when it is made in one go. -/
def leave (before : List Strand) (jobs : List (Job Work)) (after : List Strand)
    (made : Submission Work) : Submitters :=
  turn before .free (if made.route.runsNow then made.job :: jobs else jobs) after made.system

theorem enters_reaches {errand : Errand}
    (thread : s.threads = before ++ ⟨.enters errand, jobs⟩ :: after) :
    ∃ acts, s.Run acts
      (leave before jobs after (s.system.enqueue errand.pool errand.inlet errand.job)) := by
  have filed := ((Run.refl.step (.counts thread))).step (.files rfl)
  have pushed : (s.system.modifyPool errand.pool .count).modifyPool errand.pool
      (.file errand.inlet errand.job) =
      s.system.modifyPool errand.pool (.push errand.inlet errand.job) := by
    simp [System.modifyPool, List.modify_modify_eq, Function.comp_def]
  simp only [turn, pushed] at filed
  exact ⟨_, filed⟩

/-- At the pool an errand is turned away if its load is checked and the pool is saturated. -/
def arrive (errand : Errand) (system : System Work) : Submission Work :=
  if errand.checks ∧ (system.pool errand.pool).isSaturated then
    system.turnAway errand.pool errand.job
  else
    system.enqueue errand.pool errand.inlet errand.job

theorem leave_offer (job : Job Work) : leave before jobs after (system.offer p job) =
    leave before jobs after (arrive ⟨job, p, .shared, true⟩ system) := by
  simp [System.offer, arrive]

theorem leave_offerVia (receiver : PoolId) (t : TokenId) (job : Job Work) :
    leave before jobs after (system.offerVia receiver t job) =
      leave before jobs after (arrive ⟨job, (system.token t).pool, .lane t, true⟩ system) := by
  simp only [System.offerVia, arrive, true_and]
  split <;> rfl

theorem next_reaches {errand : Errand}
    (thread : s.threads = before ++ ⟨errand.next, jobs⟩ :: after) :
    ∃ acts, s.Run acts (leave before jobs after (arrive errand s.system)) := by
  unfold arrive
  by_cases checked : errand.checks
  · rw [Errand.next, if_pos checked] at thread
    have looked := Run.refl.step (Step.looks thread)
    by_cases awake : (s.system.pool errand.pool).asleep = 0
    · rw [if_pos awake] at looked
      have weighed := looked.step (.weighs rfl)
      by_cases exceeds : (s.system.pool errand.pool).limit < (s.system.pool errand.pool).queued
      · have rejected := weighed.step (.rejects rfl exceeds)
        rw [if_pos ⟨checked, by simp [Pool.isSaturated, awake, exceeds]⟩]
        exact ⟨_, rejected⟩
      · obtain ⟨acts, entered⟩ := enters_reaches (s := turn before (.enters errand) jobs after
          s.system) rfl
        have accepted := weighed.step (.accepts rfl (Nat.le_of_not_lt exceeds))
        rw [if_neg fun saturated => exceeds (by simpa [Pool.isSaturated, awake] using saturated.2)]
        exact ⟨_, accepted.trans entered⟩
    · rw [if_neg awake] at looked
      obtain ⟨acts, entered⟩ := enters_reaches (s := turn before (.enters errand) jobs after
        s.system) rfl
      rw [if_neg fun saturated => awake (by
        simp only [Pool.isSaturated, Bool.and_eq_true, beq_iff_eq] at saturated
        exact saturated.2.1)]
      exact ⟨_, looked.trans entered⟩
  · rw [Errand.next, if_neg checked] at thread
    rw [if_neg fun both => checked both.1]
    exact enters_reaches thread

theorem admitted_reaches {errand : Errand}
    (thread : s.threads = before ++ ⟨.admitted b errand, jobs⟩ :: after) :
    ∃ acts, s.Run acts (leave before jobs after
      (arrive (errand.wrapped b) (s.system.modifyBatch b (·.mapBarrier .enlist)))) := by
  obtain ⟨acts, arrived⟩ := next_reaches (s := turn before (errand.wrapped b).next jobs after
    (s.system.modifyBatch b (·.mapBarrier .enlist))) rfl
  have wrapped := Run.refl.step (Step.wraps thread)
  exact ⟨_, wrapped.trans arrived⟩

theorem leave_submitToBatch {admission : Admission} {id : JobId} {work : Work}
    (admitted : ¬ (admission ≠ .forced ∧ system.isSaturated b)) :
    leave before jobs after (system.submitToBatch b admission id work) =
      leave before jobs after (arrive
        ⟨⟨id, some b, work⟩, (system.inletOf (.batch b admission)).1,
          (system.inletOf (.batch b admission)).2, admission = .checked⟩
        (system.modifyBatch b (·.mapBarrier .enlist))) := by
  rw [System.submitToBatch, if_neg admitted]
  simp only [System.inletOf]
  cases (system.batch b).kind with
  | single t =>
      cases admission with
      | checked => exact leave_offerVia ..
      | ownCheck | forced => rfl
  | multi =>
      cases admission with
      | checked => exact leave_offer ..
      | ownCheck | forced => rfl

theorem batch_reaches {admission : Admission} {id : JobId} {work : Work} {errand : Errand}
    (same : errand = ⟨⟨id, none, work⟩, (s.system.inletOf (.batch b admission)).1,
      (s.system.inletOf (.batch b admission)).2, admission = .checked⟩)
    (thread : s.threads = before ++ ⟨errand.first (.batch b admission), jobs⟩ :: after) :
    ∃ acts, s.Run acts
      (leave before jobs after (s.system.submitToBatch b admission id work)) := by
  by_cases forced : admission = .forced
  · subst forced same
    rw [leave_submitToBatch (by simp)]
    exact admitted_reaches thread
  · have asks : errand.first (.batch b admission) = .asks b errand := by
      cases admission <;> first | rfl | exact absurd rfl forced
    rw [asks] at thread
    have read := Run.refl.step (Step.reads thread)
    by_cases exceeds : s.system.isSaturated b
    · have declined := read.step (.declines rfl (of_decide_eq_true exceeds))
      rw [System.submitToBatch, if_pos ⟨forced, exceeds⟩]
      subst same
      exact ⟨_, declined⟩
    · have within := Nat.le_of_not_lt fun beyond => exceeds (decide_eq_true beyond)
      have admitted := read.step (.admits rfl within)
      obtain ⟨acts, arrived⟩ := admitted_reaches (s := turn before (.admitted b errand) jobs after
        s.system) rfl
      rw [leave_submitToBatch fun both => exceeds both.2]
      subst same
      exact ⟨_, admitted.trans arrived⟩

/-- A submission in one go is a run of these steps. -/
theorem submit_reaches (entry : Entry) (work : Work)
    (thread : s.threads = before ++ ⟨.free, jobs⟩ :: after)
    (opened : s.system.isOpen entry = true) :
    ∃ acts, s.Run acts (leave before jobs after (s.system.submit entry work)) := by
  have begun := Run.refl.step (Step.submits entry work thread opened)
  let system : System Work := { s.system with submissions := s.system.submissions + 1 }
  let errand := s.system.errand entry work
  have arrives := next_reaches (s := turn before errand.next jobs after system) rfl
  cases entry with
  | pool receiver forced =>
      obtain ⟨acts, arrived⟩ := arrives
      cases forced with
      | true => exact ⟨_, begun.trans arrived⟩
      | false =>
          rw [System.submit, leave_offer]
          exact ⟨_, begun.trans arrived⟩
  | token receiver t forced =>
      obtain ⟨acts, arrived⟩ := arrives
      cases forced with
      | true => exact ⟨_, begun.trans arrived⟩
      | false =>
          rw [System.submit, leave_offerVia]
          exact ⟨_, begun.trans arrived⟩
  | batch c admission =>
      obtain ⟨acts, arrived⟩ := batch_reaches (s := turn before
        (errand.first (.batch c admission)) jobs after system) rfl rfl
      exact ⟨_, begun.trans arrived⟩

end Submitters

end TaskPool
