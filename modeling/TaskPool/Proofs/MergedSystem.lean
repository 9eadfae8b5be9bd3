import TaskPool.Proofs.Merging

/-!
# Changes of a merged system

Every change of a system is matched by the same change of the merged system. For most of them this
holds whatever the system looks like. To take a job through a lane of a home pool, to queue one
there or to dissolve such a lane, the jobs of the pool must all wait at the inlet of one batch: then
they are in the same order before and after.
-/

namespace TaskPool

open TaskPool.System

namespace Merging

variable {μ : Merging} {s : System Work} {names : Table Object} {p q : PoolId} {t : TokenId}
  {b : BatchId}

/-- The own tokens are those that a home pool issued. -/
def Covers (μ : Merging) (s : System Work) : Prop :=
  ∀ t : TokenId, t.index < s.tokens.length → μ.own t = μ.home (s.token t).pool

/-! ## Lookups -/

@[simp] theorem pool_system (q : PoolId) : (μ.system s).pool q = μ.pool (s.pool q) := by
  simp only [System.pool, Merging.system, List.getD_eq_getElem?_getD, List.getElem?_map]
  cases s.pools[q.index]? <;> rfl

@[simp] theorem batch_system (b : BatchId) : (μ.system s).batch b = μ.batch (s.batch b) := by
  simp only [System.batch, Merging.system, List.getD_eq_getElem?_getD, List.getElem?_map]
  cases s.batches[b.index]? <;> rfl

@[simp] theorem poolOf_system (b : BatchId) : (μ.system s).poolOf b = μ.pool (s.poolOf b) := by
  rw [System.poolOf, batch_system, pool_system]
  rfl

@[simp] theorem name_pool (p : Pool Work) : (μ.pool p).name = p.name := rfl

@[simp] theorem workers_pool (p : Pool Work) : (μ.pool p).workers = p.workers := rfl

theorem token_system (other : μ.own t = false) : (μ.system s).token (μ.token t) = s.token t := by
  simp only [System.token, Merging.system, Merging.token, List.getD_eq_getElem?_getD]
  rw [getElem?_keep (by simpa using other)]

theorem Covers.lane (covers : μ.Covers s) (registry : Registry s names) {lane : Lane Work}
    (member : lane ∈ (s.pool q).lanes) : μ.own lane.token = μ.home q := by
  have inside : lane.token ∈ (s.pool q).lanes.map (·.token) := List.mem_map_of_mem member
  rw [registry.lanes] at inside
  obtain ⟨issuer, opened⟩ := mem_openTokens.mp inside
  rw [covers _ (token_known opened), issuer]

theorem Covers.home (covers : μ.Covers s) (registry : Registry s names) (home : μ.home q = true) :
    μ.Home (s.pool q) :=
  fun _ member => (covers.lane registry member).trans home

theorem Covers.other (covers : μ.Covers s) (registry : Registry s names) (apart : μ.home q = false) :
    μ.Other (s.pool q) :=
  fun _ member => (covers.lane registry member).trans apart

/-! ## Single changes -/

theorem map_modify {α β : Type} {f : α → α} {g : β → β} {h : α → β} (entries : List α) (n : Nat)
    (same : ∀ a, entries[n]? = some a → h (f a) = g (h a)) :
    (entries.modify n f).map h = (entries.map h).modify n g := by
  induction entries generalizing n with
  | nil => simp
  | cons a rest ih =>
      cases n with
      | zero => simp [same a rfl]
      | succ n =>
          rw [List.modify_succ_cons, List.map_cons, ih n fun b found => same b (by simpa using found),
            List.map_cons, List.modify_succ_cons]

theorem system_modifyPool {f g : Pool Work → Pool Work}
    (same : μ.pool (f (s.pool q)) = g (μ.pool (s.pool q))) :
    μ.system (s.modifyPool q f) = (μ.system s).modifyPool q g := by
  simp only [Merging.system, modifyPool, System.mk.injEq, and_true]
  refine map_modify s.pools q.index fun pool found => ?_
  have here : s.pool q = pool := by simp [System.pool, List.getD_eq_getElem?_getD, found]
  rw [← here]
  exact same

theorem system_modifyBatch {f : Batch → Batch}
    (same : ∀ batch, μ.batch (f batch) = f (μ.batch batch)) :
    μ.system (s.modifyBatch b f) = (μ.system s).modifyBatch b f := by
  simp only [Merging.system, modifyBatch, System.mk.injEq, true_and, and_true]
  exact map_modify s.batches b.index fun batch _ => same batch

theorem system_mapBarrier (f : Barrier → Barrier) :
    μ.system (s.modifyBatch b (·.mapBarrier f)) = (μ.system s).modifyBatch b (·.mapBarrier f) :=
  system_modifyBatch (f := (·.mapBarrier f)) fun _ => rfl

theorem system_modifyToken (other : μ.own t = false) (f : Token → Token) :
    μ.system (s.modifyToken t f) = (μ.system s).modifyToken (μ.token t) f := by
  simp only [Merging.system, modifyToken, System.mk.injEq, true_and, and_true]
  exact keep_modify_of_kept (by simpa using other) f

theorem system_modifyToken_own (own : μ.own t = true) (f : Token → Token) :
    μ.system (s.modifyToken t f) = μ.system s := by
  simp only [Merging.system, modifyToken, System.mk.injEq, true_and, and_true]
  exact keep_modify_of_gone (by simpa using own) f

/-! ## Taking jobs -/

/-- When a job may be taken from the source: an own token is used at the pool that issued it, and
its lane holds all that waits there. -/
def Handles (μ : Merging) (s : System Work) : Source → Prop
  | .pool _ => True
  | .lane q t => t.index < s.tokens.length ∧
      (μ.own t = true → (s.token t).pool = q ∧ (s.pool q).OnlyAt (.lane t))

theorem Covers.pop (covers : μ.Covers s) (registry : Registry s names) (q : PoolId) :
    (μ.pool (s.pool q)).pop = (s.pool q).pop.map fun (job, rest) => (μ.job job, μ.pool rest) := by
  cases home : μ.home q with
  | true => exact (covers.home registry home).pop
  | false => exact (covers.other registry home).pop

theorem take_pool (covers : μ.Covers s) (registry : Registry s names) (q : PoolId) :
    (μ.system s).take (.pool q) =
      (s.take (.pool q)).map fun (job, s') => (μ.job job, μ.system s') := by
  simp only [System.take, pool_system, covers.pop registry, Option.map_map]
  congr 1
  funext taken
  obtain ⟨job, rest⟩ := taken
  simp only [Function.comp_apply, Prod.mk.injEq, true_and]
  exact (system_modifyPool (f := fun _ => rest) rfl).symm

theorem take_lane (covers : μ.Covers s) (registry : Registry s names) (other : μ.own t = false)
    (known : t.index < s.tokens.length) (q : PoolId) :
    (μ.system s).take (.lane q (μ.token t)) =
      (s.take (.lane q t)).map fun (job, s') => (μ.job job, μ.system s') := by
  have issuer := covers.other registry ((covers t known).symm.trans other)
  have rest := take_pool covers registry q
  simp only [System.take] at rest
  simp only [System.take, token_system other, pool_system, issuer.popLane other]
  cases taken : (s.pool (s.token t).pool).popLane t with
  | none =>
      simp only [Option.map_none]
      rw [← pool_system, rest]
  | some result =>
      obtain ⟨job, left⟩ := result
      simp only [Option.map_some, Option.some.injEq, Prod.mk.injEq, true_and]
      exact (system_modifyPool (f := fun _ => left) rfl).symm

/-- At the pool that issued the token, a lane that holds everything is no better than the pool. -/
theorem take_own (registry : Registry s names) (issuer : (s.token t).pool = q)
    (only : (s.pool q).OnlyAt (.lane t)) : s.take (.lane q t) = s.take (.pool q) := by
  have once : ((s.pool q).lanes.map (·.token)).Nodup := by
    rw [registry.lanes]
    exact nodup_openTokens s _
  simp only [System.take, issuer, only.popLane once]
  cases (s.pool q).pop <;> rfl

theorem take (covers : μ.Covers s) (registry : Registry s names) {source : Source}
    (handles : μ.Handles s source) :
    (μ.system s).take (μ.source source) =
      (s.take source).map fun (job, s') => (μ.job job, μ.system s') := by
  cases source with
  | pool q => exact take_pool covers registry q
  | lane q t =>
      obtain ⟨known, home⟩ := handles
      cases own : μ.own t with
      | false =>
          simp only [Merging.source, own, Bool.false_eq_true, if_false]
          exact take_lane covers registry own known q
      | true =>
          obtain ⟨issuer, only⟩ := home own
          simp only [Merging.source, own, if_true]
          rw [take_own registry issuer only]
          exact take_pool covers registry q

/-! ## Submissions -/

def submission (μ : Merging) (made : Submission Work) : Submission Work where
  system := μ.system made.system
  job := μ.job made.job
  route := μ.route made.route
  notices := made.notices.filterMap μ.notice

def Accepts (μ : Merging) (s : System Work) (p : PoolId) (inlet : Inlet) : Prop :=
  ∀ job, μ.pool ((s.pool p).push inlet job) =
    (μ.pool (s.pool p)).push (μ.inlet inlet) (μ.job job)

theorem saturated_system (p : PoolId) :
    ((μ.system s).pool p).isSaturated = (s.pool p).isSaturated := by
  rw [pool_system]
  rfl

theorem enqueue {inlet : Inlet} (accepts : μ.Accepts s p inlet) (job : Job Work) :
    (μ.system s).enqueue p (μ.inlet inlet) (μ.job job) = μ.submission (s.enqueue p inlet job) := by
  simp only [System.enqueue, submission, Submission.mk.injEq, true_and]
  exact ⟨(system_modifyPool (accepts job)).symm, rfl, rfl⟩

theorem turnAway (job : Job Work) :
    (μ.system s).turnAway p (μ.job job) = μ.submission (s.turnAway p job) := by
  simp only [System.turnAway, submission, pool_system]
  rfl

theorem offer (accepts : (s.pool p).isSaturated = false → μ.Accepts s p .shared) (job : Job Work) :
    (μ.system s).offer p (μ.job job) = μ.submission (s.offer p job) := by
  simp only [System.offer, saturated_system]
  cases saturated : (s.pool p).isSaturated with
  | true => exact turnAway job
  | false => exact enqueue (accepts saturated) job

theorem enqueueVia (other : μ.own t = false) (accepts : μ.Accepts s (s.token t).pool (.lane t))
    (receiver : PoolId) (job : Job Work) :
    (μ.system s).enqueueVia receiver (μ.token t) (μ.job job) =
      μ.submission (s.enqueueVia receiver t job) := by
  have entered := enqueue accepts job
  simp only [Merging.inlet, other, Bool.false_eq_true, if_false] at entered
  simp only [System.enqueueVia, token_system other, pool_system, entered]
  simp only [submission, System.enqueue]
  split <;> rfl

theorem offerVia (other : μ.own t = false) (accepts : μ.Accepts s (s.token t).pool (.lane t))
    (receiver : PoolId) (job : Job Work) :
    (μ.system s).offerVia receiver (μ.token t) (μ.job job) =
      μ.submission (s.offerVia receiver t job) := by
  simp only [System.offerVia, token_system other, saturated_system]
  cases (s.pool (s.token t).pool).isSaturated with
  | true => exact turnAway job
  | false => exact enqueueVia other accepts receiver job

/-- A job that a batch on a home pool would queue in its lane enters the shared queue. -/
theorem enqueue_own (own : μ.own t = true) (issuer : (s.token t).pool = p)
    (accepts : μ.Accepts s p (.lane t)) (job : Job Work) :
    (μ.system s).enqueue p .shared (μ.job job) = μ.submission (s.enqueueVia p t job) := by
  have entered := enqueue accepts job
  simp only [Merging.inlet, own, if_true] at entered
  rw [entered]
  simp only [submission, System.enqueueVia, System.enqueue, issuer, if_true, List.filterMap_nil]

theorem offer_own (own : μ.own t = true) (issuer : (s.token t).pool = p)
    (accepts : μ.Accepts s p (.lane t)) (job : Job Work) :
    (μ.system s).offer p (μ.job job) = μ.submission (s.offerVia p t job) := by
  simp only [System.offer, System.offerVia, issuer, saturated_system]
  cases (s.pool p).isSaturated with
  | true => exact turnAway job
  | false => exact enqueue_own own issuer accepts job

theorem wrap (id : JobId) (work : Work) :
    (μ.system s).wrap b id (μ.work work) =
      (μ.job (s.wrap b id work).1, μ.system (s.wrap b id work).2) := by
  simp only [System.wrap, Prod.mk.injEq]
  exact ⟨rfl, (system_mapBarrier .enlist).symm⟩

theorem submitToBatch (kind : ∀ t, (s.batch b).kind = .single t →
      (s.token t).pool = (s.batch b).pool)
    (accepts : μ.Accepts s (s.batch b).pool (s.batch b).inlet) (admission : Admission) (id : JobId)
    (work : Work) :
    (μ.system s).submitToBatch b admission id (μ.work work) =
      μ.submission (s.submitToBatch b admission id work) := by
  have saturated : (μ.system s).isSaturated b = s.isSaturated b := by
    simp only [System.isSaturated, System.threshold, batch_system, poolOf_system]
    rfl
  simp only [System.submitToBatch, saturated]
  split
  · simp only [submission, System.threshold, batch_system, poolOf_system]
    rfl
  · -- to wrap the work changes neither pools nor tokens
    have accepts' : μ.Accepts (s.wrap b id work).2 (s.batch b).pool (s.batch b).inlet := accepts
    rw [wrap, batch_system]
    simp only [Merging.batch]
    cases owns : (s.batch b).kind with
    | multi =>
        simp only [Batch.inlet, owns] at accepts'
        cases admission with
        | checked => exact offer (fun _ => accepts') _
        | ownCheck | forced => exact enqueue accepts' _
    | single t =>
        have issuer : ((s.wrap b id work).2.token t).pool = (s.batch b).pool := kind t owns
        simp only [Batch.inlet, owns] at accepts'
        cases own : μ.own t with
        | true =>
            simp only [Merging.kind, own, if_true]
            cases admission with
            | checked => exact offer_own own issuer accepts' _
            | ownCheck | forced => exact enqueue_own own issuer accepts' _
        | false =>
            simp only [Merging.kind, own, Bool.false_eq_true, if_false]
            rw [← issuer] at accepts'
            cases admission with
            | checked => exact offerVia own accepts' _ _
            | ownCheck | forced => exact enqueueVia own accepts' _ _

theorem Covers.accepts (covers : μ.Covers s) (registry : Registry s names) {inlet : Inlet}
    (lanes : ∀ t, inlet = .lane t → (s.token t).stage ≠ .closed ∧ (s.token t).pool = q)
    (only : μ.home q = true → (s.pool q).OnlyAt inlet) : μ.Accepts s q inlet := by
  intro job
  have own : ∀ t, inlet = .lane t → μ.own t = μ.home q := by
    intro t lane
    obtain ⟨opened, issuer⟩ := lanes t lane
    rw [covers t (token_known opened), issuer]
  cases home : μ.home q with
  | true =>
      have shared : μ.inlet inlet = .shared := by
        cases inlet with
        | shared => rfl
        | lane t => simp [Merging.inlet, own t rfl, home]
      rw [shared]
      refine (covers.home registry home).push (only home) (fun t lane => ?_) job
      obtain ⟨opened, issuer⟩ := lanes t lane
      rw [← issuer]
      exact registry.count_lane opened
  | false =>
      exact (covers.other registry home).push (fun t lane => (own t lane).trans home) job

/-- The jobs of a home pool all wait at the inlet of its open batch. -/
def Narrow (μ : Merging) (s : System Work) : Prop :=
  ∀ b, (s.batch b).stage ≠ .closed → μ.home (s.batch b).pool = true →
    (s.poolOf b).OnlyAt (s.batch b).inlet

theorem Covers.accepts_batch (covers : μ.Covers s) (registry : Registry s names)
    (narrow : μ.Narrow s) (opened : (s.batch b).stage ≠ .closed) :
    μ.Accepts s (s.batch b).pool (s.batch b).inlet := by
  refine covers.accepts registry (fun t lane => ?_) (narrow b opened)
  have kind : (s.batch b).kind = .single t := by
    revert lane
    unfold Batch.inlet
    split
    · next kind =>
        rintro ⟨⟩
        exact kind
    · exact nofun
  obtain ⟨_, issuer, opens⟩ := registry.owned b t kind
  exact ⟨opens opened, issuer⟩

/-- What a submission may use, and that nothing is queued in a home pool unless it is wrapped for a
batch. -/
structure Submittable (μ : Merging) (s : System Work) (entry : Entry) (work : Work) : Prop where
  token : ∀ receiver t forced, entry = .token receiver t forced →
    t.index < s.tokens.length ∧ (s.token t).stage ≠ .closed ∧ μ.own t = false
  batch : ∀ b admission, entry = .batch b admission → (s.batch b).stage ≠ .closed
  wrapped : ∀ q inlet, μ.home q = true → (s.submit entry work).route = .queued q inlet →
    (s.submit entry work).job.batch ≠ none

theorem submit (covers : μ.Covers s) (registry : Registry s names) (narrow : μ.Narrow s)
    {entry : Entry} {work : Work} (may : μ.Submittable s entry work) :
    (μ.system s).submit (μ.entry entry) (μ.work work) = μ.submission (s.submit entry work) := by
  -- the submission is numbered first
  let raw : Job Work := ⟨⟨s.submissions⟩, none, work⟩
  have shared : ∀ receiver, μ.home receiver = false →
      μ.Accepts { s with submissions := s.submissions + 1 } receiver .shared := by
    intro receiver apart job
    refine (covers.other registry apart).push ?_ job
    exact nofun
  have lane : ∀ t, t.index < s.tokens.length → μ.own t = false →
      μ.Accepts { s with submissions := s.submissions + 1 } (s.token t).pool (.lane t) := by
    rintro t known other job
    refine (covers.other registry ((covers t known).symm.trans other)).push ?_ job
    rintro _ ⟨⟩
    exact other
  cases entry with
  | pool receiver forced =>
      have apart : (s.submit (.pool receiver forced) work).route = .queued receiver .shared →
          μ.home receiver = false := by
        intro queued
        refine Bool.eq_false_iff.mpr fun home => may.wrapped receiver _ home queued ?_
        cases forced with
        | true => rfl
        | false =>
            simp only [System.submit, System.offer]
            split <;> rfl
      cases forced with
      | true => exact enqueue (shared receiver (apart rfl)) raw
      | false =>
          refine offer (fun unsaturated => shared receiver (apart ?_)) raw
          have unsaturated : (s.pool receiver).isSaturated = false := unsaturated
          simp only [System.submit, System.offer]
          rw [if_neg]
          · rfl
          · exact Bool.not_eq_true _ ▸ unsaturated
  | token receiver t forced =>
      obtain ⟨known, _, other⟩ := may.token receiver t forced rfl
      cases forced with
      | true => exact enqueueVia other (lane t known other) receiver raw
      | false => exact offerVia other (lane t known other) receiver raw
  | batch b admission =>
      have opened := may.batch b admission rfl
      refine submitToBatch (s := { s with submissions := s.submissions + 1 })
        (fun t kind => (registry.owned b t kind).2.1) ?_ admission _ work
      exact covers.accepts_batch registry narrow opened

/-! ## Making and closing objects -/

theorem startPool (reasons : Nat → Option String) (config : PoolConfig) :
    (μ.system s).startPool reasons config =
      ((s.startPool reasons config).1, μ.system (s.startPool reasons config).2.1,
        (s.startPool reasons config).2.2.filterMap μ.notice) := by
  simp [System.startPool, Merging.system, Merging.pool, Merging.notice, Pool.start, Lane.contents,
    List.filterMap_filterMap]
  refine congrArg (List.filterMap · _) (funext fun index => ?_)
  cases reasons index <;> rfl

theorem token_new (s : System Work) :
    μ.token ⟨s.tokens.length⟩ = ⟨(μ.system s).tokens.length⟩ := by
  simp only [Merging.token, Merging.system, length_keep]

theorem issueToken (covers : μ.Covers s) (registry : Registry s names) (apart : μ.home q = false)
    (other : μ.own ⟨s.tokens.length⟩ = false) :
    (μ.system s).issueToken q =
      (μ.token (s.issueToken q).1, μ.system (s.issueToken q).2.1,
        (s.issueToken q).2.2.filterMap μ.notice) := by
  have tokens : (μ.system { s with tokens := s.tokens ++ [{ pool := q }] }) =
      { μ.system s with tokens := (μ.system s).tokens ++ [{ pool := q }] } := by
    simp [Merging.system, keep_append_singleton, other]
  have lane : μ.pool (({ s with tokens := s.tokens ++ [{ pool := q }] } : System Work).pool q
      |>.register ⟨s.tokens.length⟩) = (μ.pool (s.pool q)).register ⟨(μ.system s).tokens.length⟩ := by
    rw [← token_new]
    exact (covers.other registry apart).register other
  simp only [System.issueToken, Prod.mk.injEq]
  refine ⟨(token_new s).symm, ?_, ?_⟩
  · rw [← tokens]
    exact (system_modifyPool (f := (·.register ⟨s.tokens.length⟩)) lane).symm
  · simp [Merging.notice, other, token_new, Merging.pool]

theorem issueToken_own (covers : μ.Covers s) (registry : Registry s names) (home : μ.home q = true)
    (own : μ.own ⟨s.tokens.length⟩ = true) :
    μ.system (s.issueToken q).2.1 = μ.system s ∧
      (s.issueToken q).2.2.filterMap μ.notice = [] := by
  have tokens : (μ.system { s with tokens := s.tokens ++ [{ pool := q }] }) = μ.system s := by
    simp [Merging.system, keep_append_singleton, own]
  have lane : μ.pool (({ s with tokens := s.tokens ++ [{ pool := q }] } : System Work).pool q
      |>.register ⟨s.tokens.length⟩) = μ.pool (s.pool q) :=
    (covers.home registry home).register own
  refine ⟨?_, by simp [System.issueToken, Merging.notice, own]⟩
  refine (system_modifyPool (f := (·.register ⟨s.tokens.length⟩)) (g := id) lane).trans ?_
  simp only [modifyPool, tokens]
  simp

theorem makeBatch (covers : μ.Covers s) (registry : Registry s names) (single : Bool)
    (multiplier : Nat)
    (new : single = true → μ.own ⟨s.tokens.length⟩ = μ.home q) :
    (μ.system s).makeBatch q (single && !μ.home q) multiplier =
      ((s.makeBatch q single multiplier).1, μ.system (s.makeBatch q single multiplier).2.1,
        (s.makeBatch q single multiplier).2.2.filterMap μ.notice) := by
  have append : ∀ (s : System Work) (batch : Batch),
      μ.system { s with batches := s.batches ++ [batch] } =
        { μ.system s with batches := (μ.system s).batches ++ [μ.batch batch] } := by
    intro s batch
    simp [Merging.system]
  have number : (μ.system s).batches.length = s.batches.length := by simp [Merging.system]
  cases single with
  | false =>
      simp only [System.makeBatch, Bool.false_and, Bool.false_eq_true, if_false, append, number,
        pool_system]
      rfl
  | true =>
      cases home : μ.home q with
      | true =>
          have own := (new rfl).trans home
          obtain ⟨system, _⟩ := issueToken_own covers registry home own
          simp only [System.makeBatch, Bool.true_and, Bool.not_true, Bool.false_eq_true, if_false,
            if_true, append, number, pool_system, system]
          simp [Merging.notice, Merging.batch, Merging.kind, own, System.issueToken]
      | false =>
          have other := (new rfl).trans home
          have issued := issueToken covers registry home other
          simp only [System.makeBatch, Bool.true_and, Bool.not_false, if_true, issued, append, number,
            pool_system]
          simp [Merging.notice, Merging.batch, Merging.kind, other, System.issueToken]

theorem settle (job : JobId) (panicked : Option Payload) :
    (μ.system s).settle b job panicked =
      (μ.system (s.settle b job panicked).1,
        (s.settle b job panicked).2.filterMap μ.notice) := by
  cases panicked with
  | none =>
      simp only [System.settle, Prod.mk.injEq]
      exact ⟨(system_mapBarrier .retire).symm, rfl⟩
  | some payload =>
      simp only [System.settle, batch_system, Merging.batch, poolOf_system, name_pool,
        Prod.mk.injEq]
      refine ⟨(system_mapBarrier _).symm, ?_⟩
      split <;> rfl

theorem deliver (b : BatchId) :
    (μ.system s).deliver b = ((s.deliver b).1, μ.system (s.deliver b).2) := by
  simp only [System.deliver, batch_system, Merging.batch, Prod.mk.injEq, true_and]
  exact (system_mapBarrier _).symm

theorem releaseToken (covers : μ.Covers s) (registry : Registry s names)
    (known : t.index < s.tokens.length) (other : μ.own t = false) :
    (μ.system s).releaseToken (μ.token t) =
      (μ.system (s.releaseToken t).1, (s.releaseToken t).2.filterMap μ.notice) := by
  have foreign := covers.other registry ((covers t known).symm.trans other)
  simp only [System.releaseToken, token_system other, pool_system, Prod.mk.injEq]
  refine ⟨?_, ?_⟩
  · rw [system_modifyToken other,
      system_modifyPool (f := (·.release t)) (g := (·.release (μ.token t))) (foreign.release other)]
  · rw [(foreign.waitingIn other).1]
    simp [Merging.notice, other, Merging.pool]

theorem releaseToken_own (covers : μ.Covers s) (registry : Registry s names)
    (known : t.index < s.tokens.length) (own : μ.own t = true)
    (empty : (s.pool (s.token t).pool).queue (.lane t) = []) :
    μ.system (s.releaseToken t).1 = μ.system s ∧
      (s.releaseToken t).2.filterMap μ.notice = [] := by
  have home := (covers t known).symm.trans own
  refine ⟨?_, by simp [System.releaseToken, Merging.notice, own]⟩
  simp only [System.releaseToken]
  rw [system_modifyToken_own own, system_modifyPool (f := (·.release t)) (g := id)
    ((covers.home registry home).release empty)]
  simp [modifyPool]

theorem beginClosingBatch (b : BatchId) :
    (μ.system s).beginClosingBatch b = μ.system (s.beginClosingBatch b) :=
  (system_modifyBatch (f := ({ · with stage := .closing })) fun _ => rfl).symm

theorem closeBatch (covers : μ.Covers s) (registry : Registry s names)
    (empty : ∀ t, (s.batch b).kind = .single t → (s.poolOf b).queue (.lane t) = []) :
    (μ.system s).closeBatch b =
      (μ.system (s.closeBatch b).1, (s.closeBatch b).2.filterMap μ.notice) := by
  have delivered : μ.Covers (s.deliver b).2 := covers
  have registry' : Registry (s.deliver b).2 names := registry.alike (.deliver s b)
  have ends : ∀ s : System Work, (μ.system s).modifyBatch b ({ · with stage := .closed }) =
      μ.system (s.modifyBatch b ({ · with stage := .closed })) := fun s =>
    (system_modifyBatch (f := ({ · with stage := .closed })) fun _ => rfl).symm
  simp only [System.closeBatch, deliver, batch_system, poolOf_system, name_pool]
  cases owns : (s.batch b).kind with
  | multi =>
      simp only [Merging.batch, owns, Merging.kind, ends]
      cases (s.deliver b).1 <;> rfl
  | single t =>
      obtain ⟨known, issuer, _⟩ := registry.owned b t owns
      cases own : μ.own t with
      | true =>
          have empty : (s.pool (s.token t).pool).queue (.lane t) = [] := issuer ▸ empty t owns
          obtain ⟨system, notices⟩ := releaseToken_own delivered registry' known own empty
          simp only [Merging.batch, owns, Merging.kind, own, if_true]
          rw [← system, ends]
          cases (s.deliver b).1 <;> simp [notices, Merging.notice, Merging.kind, own]
      | false =>
          have released := releaseToken delivered registry' known own
          simp only [Merging.batch, owns, Merging.kind, own, Bool.false_eq_true, if_false, released,
            ends]
          cases (s.deliver b).1 <;> simp [Merging.notice, Merging.kind, own]

theorem beginClosingPool (p : PoolId) :
    (μ.system s).beginClosingPool p =
      (μ.system (s.beginClosingPool p).1, (s.beginClosingPool p).2.filterMap μ.notice) := by
  simp only [System.beginClosingPool, pool_system, Prod.mk.injEq]
  exact ⟨(system_modifyPool (f := ({ · with stage := .closing })) rfl).symm, rfl⟩

theorem closePool (p : PoolId) (leftover : Nat) :
    (μ.system s).closePool p leftover =
      (μ.system (s.closePool p leftover).1, (s.closePool p leftover).2.filterMap μ.notice) := by
  simp only [System.closePool, pool_system, Prod.mk.injEq]
  exact ⟨(system_modifyPool (f := ({ · with stage := .closed })) rfl).symm, rfl⟩

/-- Whether a pool is needed does not depend on tokens whose batches need it too. -/
theorem dependsOnPool (owned : ∀ t, (s.token t).stage ≠ .closed → μ.own t = true →
      ∃ b, (s.batch b).pool = (s.token t).pool ∧ (s.batch b).stage ≠ .closed) (p : PoolId) :
    (μ.system s).dependsOnPool p = s.dependsOnPool p := by
  have batches : (μ.system s).batches.any (fun b => b.pool == p && b.stage != .closed) =
      s.batches.any (fun b => b.pool == p && b.stage != .closed) := by
    rw [Merging.system, List.any_map]
    rfl
  simp only [System.dependsOnPool, batches]
  by_cases needed : s.batches.any (fun b => b.pool == p && b.stage != .closed) = true
  · rw [needed, Bool.or_true, Bool.or_true]
  · congr 1
    refine any_keep _ fun i token found own => ?_
    have here : s.token ⟨i⟩ = token := by
      simp [System.token, List.getD_eq_getElem?_getD, found]
    by_contra wanted
    simp only [Bool.not_eq_false, Bool.and_eq_true, beq_iff_eq, bne_iff_ne] at wanted
    have own : μ.own ⟨i⟩ = true := by simpa using own
    obtain ⟨b, home, opened⟩ := owned ⟨i⟩ (here ▸ wanted.2) own
    refine needed (List.any_eq_true.mpr ⟨s.batch b, ?_, ?_⟩)
    · have known := batch_known opened
      simp [System.batch, List.getD_eq_getElem?_getD, known]
    · rw [here] at home
      simp [home, wanted.1, opened]

end Merging

end TaskPool
