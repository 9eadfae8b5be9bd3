import Mathlib.Data.List.Nodup
import TaskPool.Proofs.SystemChanges

/-!
# What is registered where

In a solo run the lanes of a pool are those of its open tokens, in the order in which the tokens
were made. Tokens and batches that are not closed belong to live pools, every batch with a single
producer owns a token of its own, and a name stands only for something live that no other name
stands for. `Registry` says all of this of a system and the names in it.

Most changes leave everything alone that the registry speaks of; `System.Alike` is what they have in
common. The others make an object, release a token or move a stage on, and have one lemma each.
-/

namespace TaskPool

namespace System

variable {s s' : System Work} {p q : PoolId} {t u : TokenId} {b c : BatchId}

theorem batch_append_cases (new : Batch) (b : BatchId) :
    (b.index ≠ s.batches.length ∧
      ({ s with batches := s.batches ++ [new] } : System Work).batch b = s.batch b) ∨
    (b.index = s.batches.length ∧
      ({ s with batches := s.batches ++ [new] } : System Work).batch b = new) := by
  by_cases last : b.index = s.batches.length
  · exact .inr ⟨last, by simp [batch, List.getD_eq_getElem?_getD, last]⟩
  · refine .inl ⟨last, ?_⟩
    simp only [batch, List.getD_eq_getElem?_getD, List.getElem?_append]
    split
    · rfl
    · rw [List.getElem?_eq_none (by simp; omega), List.getElem?_eq_none (by omega)]

theorem forall_batch_append (holds : BatchId → Batch → Prop) {new : Batch}
    (all : ∀ b, holds b (s.batch b)) (first : holds ⟨s.batches.length⟩ new) (b : BatchId) :
    holds b (({ s with batches := s.batches ++ [new] } : System Work).batch b) := by
  rcases batch_append_cases new b with ⟨_, same⟩ | ⟨last, same⟩ <;> rw [same]
  · exact all b
  · have self : b = ⟨s.batches.length⟩ := BatchId.ext last
    exact self ▸ first

/-- The tokens of a pool that are not closed, in the order in which they were made. -/
def openTokens (s : System Work) (p : PoolId) : List TokenId :=
  ((List.range s.tokens.length).map TokenId.mk).filter fun t =>
    (s.token t).pool = p ∧ (s.token t).stage ≠ .closed

theorem mem_openTokens :
    t ∈ s.openTokens p ↔ (s.token t).pool = p ∧ (s.token t).stage ≠ .closed := by
  constructor
  · intro member
    simpa using (List.mem_filter.mp member).2
  · rintro ⟨own, opened⟩
    refine List.mem_filter.mpr ⟨?_, by simp [own, opened]⟩
    exact List.mem_map.mpr ⟨t.index, List.mem_range.mpr (token_known opened), rfl⟩

theorem nodup_openTokens (s : System Work) (p : PoolId) : (s.openTokens p).Nodup := by
  apply List.Pairwise.filter _
  refine List.Pairwise.map _ ?_ List.nodup_range
  intro i j different same
  exact different (TokenId.mk.inj same)

theorem forall_pool_append (holds : PoolId → Pool Work → Prop) {new : Pool Work}
    (all : ∀ q, holds q (s.pool q)) (first : holds ⟨s.pools.length⟩ new) (q : PoolId) :
    holds q ({ s with pools := s.pools ++ [new] }.pool q) := by
  have old := all q
  simp only [pool, List.getD_eq_getElem?_getD, List.getElem?_append] at old ⊢
  split
  · exact old
  · by_cases last : q.index = s.pools.length
    · have same : q = ⟨s.pools.length⟩ := PoolId.ext last
      subst same
      simpa using first
    · rw [List.getElem?_eq_none (by simp; omega)]
      rwa [List.getElem?_eq_none (by omega)] at old

theorem pool_startPool (reasons : Nat → Option String) (config : PoolConfig)
    (opened : (s.pool p).stage ≠ .closed) :
    (s.startPool reasons config).2.1.pool p = s.pool p := by
  have known : p.index < s.pools.length := pool_known opened
  simp [startPool, pool, List.getD_eq_getElem?_getD, List.getElem?_append_left known]

theorem token_issueToken (known : t.index < s.tokens.length) :
    (s.issueToken p).2.1.token t = s.token t := by
  simp [issueToken, token, modifyPool, List.getD_eq_getElem?_getD, List.getElem?_append_left known]

theorem token_issueToken_self : (s.issueToken p).2.1.token (s.issueToken p).1 = { pool := p } := by
  simp [issueToken, token, modifyPool, List.getD_eq_getElem?_getD]

theorem token_cases (opened : ((s.issueToken p).2.1.token t).stage ≠ .closed) :
    t.index < s.tokens.length ∨ t = (s.issueToken p).1 := by
  have known := token_known opened
  simp only [issueToken, modifyPool, List.length_append, List.length_singleton] at known
  rcases Nat.lt_or_ge t.index s.tokens.length with old | new
  · exact .inl old
  · exact .inr (TokenId.ext (by simp only [issueToken]; omega))

theorem openTokens_issueToken (s : System Work) (p q : PoolId) :
    (s.issueToken p).2.1.openTokens q =
      s.openTokens q ++ if p = q then [(s.issueToken p).1] else [] := by
  have length : (s.issueToken p).2.1.tokens.length = s.tokens.length + 1 := by
    simp [issueToken, modifyPool]
  have new : (s.issueToken p).2.1.token ⟨s.tokens.length⟩ = { pool := p } := token_issueToken_self
  simp only [openTokens, length, List.range_succ, List.map_append, List.filter_append]
  congr 1
  · apply List.filter_congr
    intro t member
    simp only [List.mem_map, List.mem_range] at member
    obtain ⟨i, below, rfl⟩ := member
    rw [token_issueToken below]
  · have self : (s.issueToken p).1 = ⟨s.tokens.length⟩ := rfl
    by_cases same : p = q
    · subst same
      simp [new, self]
    · simp [new, same]

theorem pool_issueToken {α : Type} (proj : Pool Work → α)
    (kept : ∀ pool : Pool Work, proj (pool.register ⟨s.tokens.length⟩) = proj pool) (q : PoolId) :
    proj ((s.issueToken p).2.1.pool q) = proj (s.pool q) :=
  pool_modifyPool_proj (s := { s with tokens := s.tokens ++ [{ pool := p }] }) proj (kept _) q

theorem token_releaseToken_of_ne (different : t ≠ u) :
    (s.releaseToken t).1.token u = s.token u := by
  simp only [releaseToken_system]
  rw [token_modifyToken_of_ne _ different]
  rfl

theorem token_releaseToken (t u : TokenId) :
    ((s.releaseToken t).1.token u).pool = (s.token u).pool ∧
      (((s.releaseToken t).1.token u).stage ≠ .closed ↔ (s.token u).stage ≠ .closed ∧ u ≠ t) := by
  by_cases same : t = u
  · subst same
    by_cases known : t.index < s.tokens.length
    · simp only [releaseToken_system]
      rw [token_modifyToken_self (s := s.modifyPool (s.token t).pool (·.release t)) _ known]
      exact ⟨rfl, by simp⟩
    · have unknown : (s.releaseToken t).1.tokens.length ≤ t.index := by
        simp only [releaseToken_system, modifyToken, modifyPool, List.length_modify]
        omega
      rw [token_unknown unknown, token_unknown (Nat.le_of_not_lt known)]
      exact ⟨rfl, by simp [default]⟩
  · rw [token_releaseToken_of_ne same]
    exact ⟨rfl, by simp [Ne.symm same]⟩

theorem openTokens_releaseToken (s : System Work) (t : TokenId) (q : PoolId) :
    (s.releaseToken t).1.openTokens q = (s.openTokens q).filter (· ≠ t) := by
  have length : (s.releaseToken t).1.tokens.length = s.tokens.length := by
    simp [releaseToken_system, modifyToken, modifyPool]
  simp only [openTokens, length, List.filter_filter]
  apply List.filter_congr
  intro u _
  obtain ⟨pool, stage⟩ := token_releaseToken (s := s) t u
  simp only [pool, stage, Bool.decide_and]
  by_cases own : (s.token u).pool = q <;> by_cases same : u = t <;> simp [own, same]

theorem pool_releaseToken {α : Type} (proj : Pool Work → α)
    (kept : ∀ pool : Pool Work, proj (pool.release t) = proj pool) (q : PoolId) :
    proj ((s.releaseToken t).1.pool q) = proj (s.pool q) :=
  pool_modifyPool_proj (s := s) proj (kept _) q

def Nameable (s : System Work) : Object → Prop
  | .pool p => (s.pool p).stage = .live
  | .commonPool _ => False
  | .token t => (s.token t).stage ≠ .closed ∧ ∀ b, (s.batch b).kind ≠ .single t
  | .batch b => (s.batch b).stage = .live

/-- Nothing changed but barriers, the number of submissions and the jobs of live pools. -/
structure Alike (s s' : System Work) : Prop where
  stages : ∀ p, (s'.pool p).stage = (s.pool p).stage
  workers : ∀ p, (s'.pool p).workers = (s.pool p).workers ∧
    (s'.pool p).asleep = (s.pool p).asleep ∧ (s'.pool p).working = (s.pool p).working
  lanes : ∀ p, (s'.pool p).lanes.map (·.token) = (s.pool p).lanes.map (·.token)
  drained : ∀ p, (s.pool p).stage = .closed → (s.pool p).contents = [] →
    (s'.pool p).contents = []
  tokens : s'.tokens = s.tokens
  batches : ∀ b, (s'.batch b).kind = (s.batch b).kind ∧ (s'.batch b).pool = (s.batch b).pool ∧
    (s'.batch b).stage = (s.batch b).stage

namespace Alike

theorem token (alike : s.Alike s') (t : TokenId) : s'.token t = s.token t := by
  simp only [System.token, alike.tokens]

theorem nameable (alike : s.Alike s') {object : Object} (nameable : s.Nameable object) :
    s'.Nameable object := by
  cases object with
  | pool p => exact (alike.stages p).trans nameable
  | commonPool p => exact nameable
  | token t =>
      refine ⟨by rw [alike.token]; exact nameable.1, ?_⟩
      intro b owns
      exact nameable.2 b ((alike.batches b).1 ▸ owns)
  | batch b => exact (alike.batches b).2.2.trans nameable

theorem mapBarrier (s : System Work) (b : BatchId) (f : Barrier → Barrier) :
    s.Alike (s.modifyBatch b (·.mapBarrier f)) where
  stages _ := rfl
  workers _ := ⟨rfl, rfl, rfl⟩
  lanes _ := rfl
  drained _ _ empty := empty
  tokens := rfl
  batches c := ⟨batch_modifyBatch_proj (·.kind) rfl c, batch_modifyBatch_proj (·.pool) rfl c,
    batch_modifyBatch_proj (·.stage) rfl c⟩

theorem settle (s : System Work) (b : BatchId) (job : JobId) (panicked : Option Payload) :
    s.Alike (s.settle b job panicked).1 := by
  rw [settle_system]
  exact mapBarrier s b _

theorem deliver (s : System Work) (b : BatchId) : s.Alike (s.deliver b).2 := by
  rw [deliver_system]
  exact mapBarrier s b _

theorem count (s : System Work) (wrapped : Option BatchId) : s.Alike (s.count wrapped) := by
  cases wrapped with
  | none => exact ⟨fun _ => rfl, fun _ => ⟨rfl, rfl, rfl⟩, fun _ => rfl, fun _ _ empty => empty,
      rfl, fun _ => ⟨rfl, rfl, rfl⟩⟩
  | some b =>
      have counted := mapBarrier { s with submissions := s.submissions + 1 } b .enlist
      exact ⟨counted.stages, counted.workers, counted.lanes, counted.drained, counted.tokens,
        counted.batches⟩

theorem trans {r : System Work} (first : s.Alike s') (second : s'.Alike r) : s.Alike r where
  stages p := (second.stages p).trans (first.stages p)
  workers p :=
    ⟨(second.workers p).1.trans (first.workers p).1,
      (second.workers p).2.1.trans (first.workers p).2.1,
      (second.workers p).2.2.trans (first.workers p).2.2⟩
  lanes p := (second.lanes p).trans (first.lanes p)
  drained p closed empty :=
    second.drained p ((first.stages p).trans closed) (first.drained p closed empty)
  tokens := second.tokens.trans first.tokens
  batches b :=
    ⟨(second.batches b).1.trans (first.batches b).1,
      (second.batches b).2.1.trans (first.batches b).2.1,
      (second.batches b).2.2.trans (first.batches b).2.2⟩

/-- A change of one pool that keeps its stage, its workers and its lanes, and fills no closed
pool. -/
theorem modifyPool {f : Pool Work → Pool Work} (stage : (f (s.pool p)).stage = (s.pool p).stage)
    (workers : (f (s.pool p)).workers = (s.pool p).workers ∧
      (f (s.pool p)).asleep = (s.pool p).asleep ∧ (f (s.pool p)).working = (s.pool p).working)
    (lanes : (f (s.pool p)).lanes.map (·.token) = (s.pool p).lanes.map (·.token))
    (drained : (s.pool p).stage = .closed → (s.pool p).contents = [] →
      (f (s.pool p)).contents = []) :
    s.Alike (s.modifyPool p f) where
  stages := pool_modifyPool_proj (·.stage) stage
  workers q :=
    ⟨pool_modifyPool_proj (·.workers) workers.1 q, pool_modifyPool_proj (·.asleep) workers.2.1 q,
      pool_modifyPool_proj (·.working) workers.2.2 q⟩
  lanes := pool_modifyPool_proj (·.lanes.map (·.token)) lanes
  drained := forall_pool (fun q pool => (s.pool q).stage = .closed →
    (s.pool q).contents = [] → pool.contents = []) (fun _ _ empty => empty) (fun _ => drained)
  tokens := rfl
  batches _ := ⟨rfl, rfl, rfl⟩

theorem take {source : Source} {job : Job Work} (taken : s.take source = some (job, s')) :
    s.Alike s' := by
  obtain ⟨p, _, inlet, rest, loses, rfl⟩ := take_loses taken
  apply modifyPool loses.stage loses.workers loses.tokens
  intro _ empty
  have filled := loses.perm.length_eq
  simp [empty] at filled

theorem push (inlet : Inlet) (job : Job Work) (live : (s.pool p).stage = .live) :
    s.Alike (s.modifyPool p (·.push inlet job)) := by
  apply modifyPool (Pool.push_stage ..) (Pool.push_workers ..) (Pool.push_tokens ..)
  intro closed
  rw [live] at closed
  cases closed

end Alike

/-- Known tokens keep their pool, known batches keep their pool and their kind and stay closed, and
no batch comes to own a token that was there before. -/
structure Grows (s s' : System Work) : Prop where
  tokens : ∀ t : TokenId, t.index < s.tokens.length →
    t.index < s'.tokens.length ∧ (s'.token t).pool = (s.token t).pool
  batches : ∀ b : BatchId, b.index < s.batches.length → b.index < s'.batches.length ∧
    (s'.batch b).pool = (s.batch b).pool ∧ (s'.batch b).kind = (s.batch b).kind
  closed : ∀ b : BatchId, b.index < s.batches.length → (s.batch b).stage = .closed →
    (s'.batch b).stage = .closed
  owns : ∀ b t, t.index < s.tokens.length → (s'.batch b).kind = .single t →
    (s.batch b).kind = .single t

namespace Grows

theorem refl (s : System Work) : s.Grows s :=
  ⟨fun _ known => ⟨known, rfl⟩, fun _ known => ⟨known, rfl, rfl⟩, fun _ _ closed => closed,
    fun _ _ _ owns => owns⟩

theorem trans {r : System Work} (first : s.Grows s') (second : s'.Grows r) : s.Grows r where
  tokens t known := by
    obtain ⟨known, pool⟩ := first.tokens t known
    exact ⟨(second.tokens t known).1, (second.tokens t known).2.trans pool⟩
  batches b known := by
    obtain ⟨known, pool, kind⟩ := first.batches b known
    obtain ⟨known, pool', kind'⟩ := second.batches b known
    exact ⟨known, pool'.trans pool, kind'.trans kind⟩
  closed b known closed := second.closed b (first.batches b known).1 (first.closed b known closed)
  owns b t known owns := first.owns b t known (second.owns b t (first.tokens t known).1 owns)

theorem modifyPool (f : Pool Work → Pool Work) : s.Grows (s.modifyPool p f) :=
  ⟨fun _ known => ⟨known, rfl⟩, fun _ known => ⟨known, rfl, rfl⟩, fun _ _ closed => closed,
    fun _ _ _ owns => owns⟩

theorem modifyBatch {f : Batch → Batch} (pool : (f (s.batch b)).pool = (s.batch b).pool)
    (kind : (f (s.batch b)).kind = (s.batch b).kind)
    (onward : (s.batch b).stage = .closed → (f (s.batch b)).stage = .closed) :
    s.Grows (s.modifyBatch b f) where
  tokens _ known := ⟨known, rfl⟩
  batches c known :=
    ⟨by simpa [System.modifyBatch] using known, batch_modifyBatch_proj (·.pool) pool c,
      batch_modifyBatch_proj (·.kind) kind c⟩
  closed c _ := forall_batch
    (fun c batch => (s.batch c).stage = .closed → batch.stage = .closed) (fun _ closed => closed)
    (fun _ => onward) c
  owns c t _ owns := by
    rw [batch_modifyBatch_proj (·.kind) kind] at owns
    exact owns

theorem count (wrapped : Option BatchId) : s.Grows (s.count wrapped) := by
  cases wrapped with
  | none => exact ⟨(refl s).tokens, (refl s).batches, (refl s).closed, (refl s).owns⟩
  | some b =>
      have counted := modifyBatch (s := { s with submissions := s.submissions + 1 }) (b := b)
        (f := (·.mapBarrier .enlist)) rfl rfl id
      exact ⟨counted.tokens, counted.batches, counted.closed, counted.owns⟩

theorem submit (entry : Entry) (work : Work) : s.Grows (s.submit entry work).system := by
  cases submit_submits (s := s) entry work with
  | declined _ _ _ system => exact system ▸ count none
  | admitted admits =>
      obtain ⟨_, ⟨_, system⟩ | ⟨_, system⟩⟩ := admits
      · exact system ▸ count _
      · exact system ▸ (count _).trans (modifyPool _)

theorem take {source : Source} {job : Job Work} (taken : s.take source = some (job, s')) :
    s.Grows s' := by
  obtain ⟨_, _, _, _, _, rfl⟩ := take_loses taken
  exact modifyPool _

theorem startPool (reasons : Nat → Option String) (config : PoolConfig) :
    s.Grows (s.startPool reasons config).2.1 :=
  ⟨(refl s).tokens, (refl s).batches, (refl s).closed, (refl s).owns⟩

theorem issueToken : s.Grows (s.issueToken p).2.1 where
  tokens t known := by
    refine ⟨?_, by rw [token_issueToken known]⟩
    simp only [System.issueToken, System.modifyPool, List.length_append]
    omega
  batches _ known := ⟨known, rfl, rfl⟩
  closed _ _ closed := closed
  owns _ _ _ owns := owns

theorem appendBatch {new : Batch} (owner : ∀ t, new.kind = .single t → s.tokens.length ≤ t.index) :
    s.Grows { s with batches := s.batches ++ [new] } where
  tokens _ known := ⟨known, rfl⟩
  batches b known := by
    rcases batch_append_cases new b with ⟨_, same⟩ | ⟨last, _⟩
    · rw [same]
      exact ⟨by simp only [List.length_append]; omega, rfl, rfl⟩
    · omega
  closed b known closed := by
    rcases batch_append_cases new b with ⟨_, same⟩ | ⟨last, _⟩
    · rw [same]
      exact closed
    · omega
  owns b t known owns := by
    rcases batch_append_cases new b with ⟨_, same⟩ | ⟨_, same⟩ <;> rw [same] at owns
    · exact owns
    · exact absurd known (Nat.not_lt.mpr (owner t owns))

theorem makeBatch (p : PoolId) (single : Bool) (multiplier : Nat) :
    s.Grows (s.makeBatch p single multiplier).2.1 := by
  cases single with
  | true =>
      -- it does not matter which of the two is made first
      refine trans (appendBatch ?_) issueToken
      intro t owns
      cases owns
      exact Nat.le_refl _
  | false => exact appendBatch fun _ owns => nomatch owns

theorem releaseToken (t : TokenId) : s.Grows (s.releaseToken t).1 where
  tokens u known :=
    ⟨by simpa [releaseToken_system, modifyToken, System.modifyPool] using known,
      (token_releaseToken t u).1⟩
  batches _ known := ⟨known, rfl, rfl⟩
  closed _ _ closed := closed
  owns _ _ _ owns := owns

theorem settle (b : BatchId) (job : JobId) (panicked : Option Payload) :
    s.Grows (s.settle b job panicked).1 := by
  rw [settle_system]
  exact modifyBatch rfl rfl id

theorem deliver (b : BatchId) : s.Grows (s.deliver b).2 := by
  rw [deliver_system]
  exact modifyBatch rfl rfl id

theorem endBatch (b : BatchId) : s.Grows (s.endBatch b) :=
  (deliver b).trans (modifyBatch rfl rfl fun _ => rfl)

theorem closeBatch (b : BatchId) : s.Grows (s.closeBatch b).1 := by
  rw [closeBatch_system]
  cases (s.batch b).kind with
  | single t => exact (endBatch b).trans (releaseToken t)
  | multi => exact endBatch b

end Grows

/-- What has lost its name and is not closed yet. -/
def Closing (s : System Work) : Object → Prop
  | .pool p => (s.pool p).stage = .closing
  | .batch b => (s.batch b).stage = .closing
  | _ => False

theorem closing_alike {object : Object} (alike : s.Alike s')
    (closing : s.Closing object) : s'.Closing object := by
  cases object with
  | pool p => exact (alike.stages p).trans closing
  | batch b => exact (alike.batches b).2.2.trans closing
  | commonPool | token => exact closing

theorem closing_releaseToken {object : Object} (t : TokenId)
    (closing : s.Closing object) : (s.releaseToken t).1.Closing object := by
  cases object with
  | pool p => exact (pool_releaseToken (·.stage) (fun _ => rfl) p).trans closing
  | batch b => exact closing
  | commonPool | token => exact closing

theorem closing_issueToken {object : Object} (p : PoolId)
    (closing : s.Closing object) : (s.issueToken p).2.1.Closing object := by
  cases object with
  | pool q => exact (pool_issueToken (·.stage) (fun _ => rfl) q).trans closing
  | batch b => exact closing
  | commonPool | token => exact closing

theorem closing_appendBatch {object : Object} (new : Batch) (closing : s.Closing object) :
    ({ s with batches := s.batches ++ [new] } : System Work).Closing object := by
  cases object with
  | pool q => exact closing
  | batch b =>
      have known : b.index < s.batches.length := by
        apply batch_known
        intro closed
        exact Stage.noConfusion (closed.symm.trans closing)
      rcases batch_append_cases new b with ⟨_, same⟩ | ⟨last, _⟩
      · exact (congrArg Batch.stage same).trans closing
      · omega
  | commonPool | token => exact closing

theorem not_closing {object : Object}
    (nameable : s.Nameable object) : ¬ s.Closing object := by
  cases object with
  | pool p => exact fun closing => Stage.noConfusion (nameable.symm.trans closing)
  | batch b => exact fun closing => Stage.noConfusion (nameable.symm.trans closing)
  | commonPool | token => exact id

end System

/-! ## Lanes and owners -/

/-- Every pool has one lane for each of its open tokens, in the order in which they were made, and a
token is owned by one batch at most, which is on the pool of the token and is closed before it. -/
structure System.Ordered (s : System Work) : Prop where
  lanes : ∀ p, (s.pool p).lanes.map (·.token) = s.openTokens p
  owned : ∀ b t, (s.batch b).kind = .single t → t.index < s.tokens.length ∧
    (s.token t).pool = (s.batch b).pool ∧
    ((s.batch b).stage ≠ .closed → (s.token t).stage ≠ .closed)
  owner : ∀ b c t, (s.batch b).kind = .single t → (s.batch c).kind = .single t → b = c

namespace System.Ordered

variable {s s' : System Work} {p q : PoolId} {t u : TokenId} {b c : BatchId}

theorem empty : ({} : System Work).Ordered where
  lanes _ := rfl
  owned _ _ owns := nomatch owns
  owner _ _ _ owns := nomatch owns

/-- An open token has exactly one lane in its pool. -/
theorem count_lane (ordered : s.Ordered) (opened : (s.token t).stage ≠ .closed) :
    ((s.pool (s.token t).pool).lanes.map (·.token)).count t = 1 := by
  rw [ordered.lanes]
  exact List.count_eq_one_of_mem (nodup_openTokens s _) (mem_openTokens.mpr ⟨rfl, opened⟩)

theorem once (ordered : s.Ordered) (p : PoolId) : ((s.pool p).lanes.map (·.token)).Nodup :=
  ordered.lanes p ▸ nodup_openTokens s p

theorem of_same (ordered : s.Ordered)
    (lanes : ∀ p, (s'.pool p).lanes.map (·.token) = (s.pool p).lanes.map (·.token))
    (tokens : s'.tokens = s.tokens)
    (batches : ∀ b, (s'.batch b).kind = (s.batch b).kind ∧ (s'.batch b).pool = (s.batch b).pool ∧
      (s'.batch b).stage = (s.batch b).stage) : s'.Ordered := by
  have token : ∀ t, s'.token t = s.token t := fun t => by simp only [System.token, tokens]
  constructor
  · intro p
    rw [lanes, ordered.lanes]
    simp only [openTokens, tokens, token]
  · intro b t owns
    obtain ⟨kind, pool, stage⟩ := batches b
    rw [kind] at owns
    rw [tokens, token, pool, stage]
    exact ordered.owned b t owns
  · intro b c t one other
    rw [(batches b).1] at one
    rw [(batches c).1] at other
    exact ordered.owner b c t one other

theorem startPool (ordered : s.Ordered) (reasons : Nat → Option String) (config : PoolConfig) :
    (s.startPool reasons config).2.1.Ordered where
  lanes := by
    refine forall_pool_append (fun p pool => pool.lanes.map (·.token) = s.openTokens p)
      ordered.lanes ?_
    have none := ordered.lanes ⟨s.pools.length⟩
    rw [pool_unknown (Nat.le_refl _)] at none
    exact none
  owned := ordered.owned
  owner := ordered.owner

theorem issueToken (ordered : s.Ordered) (known : p.index < s.pools.length) :
    (s.issueToken p).2.1.Ordered where
  lanes q := by
    rw [openTokens_issueToken]
    by_cases same : p = q
    · subst same
      simp only [System.issueToken, if_true, ← ordered.lanes p]
      rw [pool_modifyPool_self (s := { s with tokens := s.tokens ++ [{ pool := p }] }) _ known]
      simp [Pool.register, System.pool]
    · simp only [same, if_false, List.append_nil, ← ordered.lanes q, System.issueToken]
      rw [pool_modifyPool_of_ne _ same]
      rfl
  owned b t owns := by
    obtain ⟨known, pool, opened⟩ := ordered.owned b t owns
    refine ⟨?_, ?_, ?_⟩
    · simp only [System.issueToken, modifyPool, List.length_append]
      omega
    · rw [token_issueToken known]
      exact pool
    · rw [token_issueToken known]
      exact opened
  owner := ordered.owner

theorem unowned_issueToken (ordered : s.Ordered) (p : PoolId) (b : BatchId) :
    ((s.issueToken p).2.1.batch b).kind ≠ .single (s.issueToken p).1 := by
  intro owns
  exact Nat.lt_irrefl _ (ordered.owned b _ owns).1

theorem appendBatch (ordered : s.Ordered) {batch : Batch}
    (token : ∀ t, batch.kind = .single t → (s.token t).stage ≠ .closed ∧
      (s.token t).pool = batch.pool ∧ ∀ b, (s.batch b).kind ≠ .single t) :
    ({ s with batches := s.batches ++ [batch] } : System Work).Ordered where
  lanes := ordered.lanes
  owned := by
    have all : ∀ b, ∀ t, (s.batch b).kind = .single t → _ := ordered.owned
    refine forall_batch_append (fun _ batch => ∀ t, batch.kind = .single t →
      t.index < s.tokens.length ∧ (s.token t).pool = batch.pool ∧
        (batch.stage ≠ .closed → (s.token t).stage ≠ .closed)) all ?_
    intro t owns
    obtain ⟨opened, pool, _⟩ := token t owns
    exact ⟨token_known opened, pool, fun _ => opened⟩
  owner b c t one other := by
    rcases batch_append_cases _ b with ⟨_, same⟩ | ⟨last, same⟩ <;>
      rcases batch_append_cases _ c with ⟨_, same'⟩ | ⟨last', same'⟩ <;>
      rw [same] at one <;> rw [same'] at other
    · exact ordered.owner b c t one other
    · exact absurd one ((token t other).2.2 b)
    · exact absurd other ((token t one).2.2 c)
    · exact BatchId.ext (last.trans last'.symm)

theorem moveBatch (ordered : s.Ordered) (stage : Stage)
    (onward : (s.batch b).stage = .closed → stage = .closed) :
    (s.modifyBatch b ({ · with stage })).Ordered where
  lanes := ordered.lanes
  owned := by
    have all : ∀ b, ∀ t, (s.batch b).kind = .single t → _ := ordered.owned
    refine forall_batch (fun _ batch => ∀ t, batch.kind = .single t →
      t.index < s.tokens.length ∧ (s.token t).pool = batch.pool ∧
        (batch.stage ≠ .closed → (s.token t).stage ≠ .closed)) all ?_
    intro kept t owns
    obtain ⟨known, pool, opened⟩ := kept t owns
    exact ⟨known, pool, fun still => opened fun closed => still (onward closed)⟩
  owner c d t one other := by
    rw [batch_modifyBatch_proj (·.kind) rfl] at one other
    exact ordered.owner c d t one other

theorem releaseToken (ordered : s.Ordered)
    (disowned : ∀ b, (s.batch b).kind = .single t → (s.batch b).stage = .closed) :
    (s.releaseToken t).1.Ordered where
  lanes q := by
    rw [openTokens_releaseToken, ← ordered.lanes q]
    by_cases same : (s.token t).pool = q
    · subst same
      by_cases known : (s.token t).pool.index < s.pools.length
      · simp only [releaseToken_system, pool_modifyToken]
        rw [pool_modifyPool_self _ known]
        simp only [Pool.lanes_release, List.filter_map]
        rfl
      · simp only [releaseToken_system, pool_modifyToken]
        rw [modifyPool_unknown _ (Nat.le_of_not_lt known), pool_unknown (Nat.le_of_not_lt known)]
        rfl
    · simp only [releaseToken_system, pool_modifyToken]
      rw [pool_modifyPool_of_ne _ same, eq_comm, List.filter_eq_self]
      intro u member
      rw [ordered.lanes, mem_openTokens] at member
      simp only [ne_eq, decide_not, Bool.not_eq_eq_eq_not, Bool.not_true, decide_eq_false_iff_not]
      intro own
      exact same (own ▸ member.1)
  owned b u owns := by
    obtain ⟨known, own, opened⟩ := ordered.owned b u owns
    obtain ⟨pool, stage⟩ := token_releaseToken (s := s) t u
    refine ⟨?_, pool.trans own, fun still => stage.mpr ⟨opened still, ?_⟩⟩
    · simpa [releaseToken_system, modifyToken, modifyPool] using known
    · intro same
      exact still (disowned b (same ▸ owns))
  owner := ordered.owner

end System.Ordered

/-- What is registered where, and what the names stand for. -/
structure Registry (s : System Work) (names : Table Object) : Prop where
  idle : ∀ p, (s.pool p).workers = 0 ∧ (s.pool p).asleep = 0 ∧ (s.pool p).working = 0
  lanes : ∀ p, (s.pool p).lanes.map (·.token) = s.openTokens p
  drained : ∀ p, (s.pool p).stage = .closed → (s.pool p).contents = []
  tokens : ∀ t, (s.token t).stage ≠ .closed → (s.pool (s.token t).pool).stage = .live
  batches : ∀ b, (s.batch b).stage ≠ .closed → (s.pool (s.batch b).pool).stage = .live
  owned : ∀ b t, (s.batch b).kind = .single t → t.index < s.tokens.length ∧
    (s.token t).pool = (s.batch b).pool ∧
    ((s.batch b).stage ≠ .closed → (s.token t).stage ≠ .closed)
  owner : ∀ b c t, (s.batch b).kind = .single t → (s.batch c).kind = .single t → b = c
  named : ∀ name object, (name, object) ∈ names → s.Nameable object
  distinct : (names.map (·.2)).Nodup

namespace Registry

open TaskPool.System

variable {s s' : System Work} {names : Table Object} {p q : PoolId} {t u : TokenId} {b c : BatchId}

theorem empty : Registry ({} : System Work) [] where
  idle _ := ⟨rfl, rfl, rfl⟩
  lanes _ := rfl
  drained _ _ := rfl
  tokens _ opened := absurd rfl opened
  batches _ opened := absurd rfl opened
  owned _ _ owns := nomatch owns
  owner _ _ _ owns := nomatch owns
  named _ _ member := nomatch member
  distinct := List.nodup_nil

theorem ordered (registry : Registry s names) : s.Ordered :=
  ⟨registry.lanes, registry.owned, registry.owner⟩

theorem count_lane (registry : Registry s names) (opened : (s.token t).stage ≠ .closed) :
    ((s.pool (s.token t).pool).lanes.map (·.token)).count t = 1 :=
  registry.ordered.count_lane opened

theorem alike (registry : Registry s names) (alike : s.Alike s') : Registry s' names where
  idle p := by
    obtain ⟨workers, asleep, working⟩ := alike.workers p
    rw [workers, asleep, working]
    exact registry.idle p
  lanes := (registry.ordered.of_same alike.lanes alike.tokens alike.batches).lanes
  drained p closed :=
    alike.drained p ((alike.stages p).symm.trans closed)
      (registry.drained p ((alike.stages p).symm.trans closed))
  tokens t opened := by
    rw [alike.token] at opened ⊢
    exact (alike.stages _).trans (registry.tokens t opened)
  batches b opened := by
    obtain ⟨_, pool, stage⟩ := alike.batches b
    rw [stage] at opened
    rw [pool, alike.stages]
    exact registry.batches b opened
  owned := (registry.ordered.of_same alike.lanes alike.tokens alike.batches).owned
  owner := (registry.ordered.of_same alike.lanes alike.tokens alike.batches).owner
  named name object member := alike.nameable (registry.named name object member)
  distinct := registry.distinct

/-! ## Names -/

theorem remove (registry : Registry s names) (name : String) :
    Registry s (names.remove name) :=
  { registry with
    named := fun other object member => registry.named other object (List.mem_filter.mp member).1
    distinct := registry.distinct.sublist (List.filter_sublist.map _) }

theorem unnamed (registry : Registry s names) {name : String} {object : Object}
    (named : names.find? name = some object) (other : String) :
    (other, object) ∉ names.remove name := by
  intro member
  obtain ⟨inside, different⟩ := List.mem_filter.mp member
  have same : (other, object) = (name, object) :=
    List.inj_on_of_nodup_map registry.distinct inside (Table.mem_of_find? named) rfl
  simp [(Prod.mk.inj same).1] at different

theorem put (registry : Registry s names) {name : String} {object : Object}
    (unknown : names.find? name = none) (nameable : s.Nameable object)
    (fresh : ∀ other, (other, object) ∉ names) : Registry s (names.put name object) := by
  rw [Table.put_unknown object unknown]
  refine { registry with named := ?_, distinct := ?_ }
  · intro other found member
    simp only [List.mem_append, List.mem_singleton, Prod.mk.injEq] at member
    rcases member with member | ⟨rfl, rfl⟩
    · exact registry.named other found member
    · exact nameable
  · rw [List.map_append, List.nodup_append]
    refine ⟨registry.distinct, by simp, ?_⟩
    intro old member new last same
    simp only [List.map_cons, List.map_nil, List.mem_singleton] at last
    obtain ⟨⟨other, _⟩, inside, rfl⟩ := List.mem_map.mp member
    subst last same
    exact fresh other inside

/-! ## New objects -/

theorem startPool (registry : Registry s names) {reasons : Nat → Option String}
    {config : PoolConfig} (alone : config.started reasons = []) :
    Registry (s.startPool reasons config).2.1 names where
  idle := forall_pool_append
    (fun _ pool => pool.workers = 0 ∧ pool.asleep = 0 ∧ pool.working = 0) registry.idle
    ⟨List.length_eq_zero_iff.mpr alone, rfl, List.length_eq_zero_iff.mpr alone⟩
  lanes := (registry.ordered.startPool reasons config).lanes
  drained := forall_pool_append
    (fun _ pool => pool.stage = .closed → pool.contents = []) registry.drained
    (fun _ => rfl)
  tokens t opened := by
    have live := registry.tokens t opened
    exact (congrArg Pool.stage (pool_startPool reasons config (Stage.opened live))).trans live
  batches b opened := by
    have live := registry.batches b opened
    exact (congrArg Pool.stage (pool_startPool reasons config (Stage.opened live))).trans live
  owned := registry.owned
  owner := registry.owner
  named name object member := by
    have nameable := registry.named name object member
    cases object with
    | pool p =>
        have same := pool_startPool reasons config (Stage.opened nameable)
        exact (congrArg Pool.stage same).trans nameable
    | commonPool p => exact nameable
    | token t => exact nameable
    | batch b => exact nameable
  distinct := registry.distinct

theorem issueToken (registry : Registry s names) (live : (s.pool p).stage = .live) :
    Registry (s.issueToken p).2.1 names where
  idle q := by
    rw [pool_issueToken (·.workers) (fun _ => rfl), pool_issueToken (·.asleep) (fun _ => rfl),
      pool_issueToken (·.working) (fun _ => rfl)]
    exact registry.idle q
  lanes := (registry.ordered.issueToken (pool_known (Stage.opened live))).lanes
  drained q := by
    rw [pool_issueToken (·.stage) (fun _ => rfl),
      pool_issueToken (·.contents) (fun _ => Pool.contents_register _ _)]
    exact registry.drained q
  tokens t opened := by
    rw [pool_issueToken (·.stage) (fun _ => rfl)]
    rcases token_cases opened with known | rfl
    · rw [token_issueToken known] at opened ⊢
      exact registry.tokens t opened
    · rw [token_issueToken_self]
      exact live
  batches b opened := by
    rw [pool_issueToken (·.stage) (fun _ => rfl)]
    exact registry.batches b opened
  owned := (registry.ordered.issueToken (pool_known (Stage.opened live))).owned
  owner := registry.owner
  named name object member := by
    have nameable := registry.named name object member
    cases object with
    | pool q => exact (pool_issueToken (·.stage) (fun _ => rfl) q).trans nameable
    | commonPool q => exact nameable
    | token t =>
        refine ⟨?_, nameable.2⟩
        rw [token_issueToken (token_known nameable.1)]
        exact nameable.1
    | batch b => exact nameable
  distinct := registry.distinct

theorem nameable_issueToken (registry : Registry s names) (p : PoolId) :
    (s.issueToken p).2.1.Nameable (.token (s.issueToken p).1) := by
  exact ⟨by rw [token_issueToken_self]; exact Stage.noConfusion,
    registry.ordered.unowned_issueToken p⟩

theorem appendBatch (registry : Registry s names) {batch : Batch}
    (live : (s.pool batch.pool).stage = .live) (new : batch.stage = .live)
    (token : ∀ t, batch.kind = .single t → (s.token t).stage ≠ .closed ∧
      (s.token t).pool = batch.pool ∧ (∀ b, (s.batch b).kind ≠ .single t) ∧
      ∀ name, (name, .token t) ∉ names) :
    Registry { s with batches := s.batches ++ [batch] } names where
  idle := registry.idle
  lanes := registry.lanes
  drained := registry.drained
  tokens := registry.tokens
  batches := forall_batch_append
    (fun _ batch => batch.stage ≠ .closed → (s.pool batch.pool).stage = .live)
    registry.batches (fun _ => live)
  owned := (registry.ordered.appendBatch fun t owns =>
    ⟨(token t owns).1, (token t owns).2.1, (token t owns).2.2.1⟩).owned
  owner := (registry.ordered.appendBatch fun t owns =>
    ⟨(token t owns).1, (token t owns).2.1, (token t owns).2.2.1⟩).owner
  named name object member := by
    have nameable := registry.named name object member
    cases object with
    | pool p => exact nameable
    | commonPool p => exact nameable
    | token t =>
        refine ⟨nameable.1, forall_batch_append (fun _ batch => batch.kind ≠ .single t)
          nameable.2 ?_⟩
        intro owns
        exact (token t owns).2.2.2 name member
    | batch b =>
        rcases batch_append_cases _ b with ⟨_, same⟩ | ⟨_, same⟩
        · exact (congrArg Batch.stage same).trans nameable
        · exact (congrArg Batch.stage same).trans new
  distinct := registry.distinct

/-! ## Stages -/

theorem moveBatch (registry : Registry s names) (stage : Stage)
    (unnamed : ∀ name, (name, .batch b) ∉ names)
    (onward : (s.batch b).stage = .closed → stage = .closed) :
    Registry (s.modifyBatch b ({ · with stage })) names where
  idle := registry.idle
  lanes := registry.lanes
  drained := registry.drained
  tokens := registry.tokens
  batches := forall_batch
    (fun _ batch => batch.stage ≠ .closed → (s.pool batch.pool).stage = .live) registry.batches
    fun kept opened => kept fun closed => opened (onward closed)
  owned := (registry.ordered.moveBatch stage onward).owned
  owner := (registry.ordered.moveBatch stage onward).owner
  named name object member := by
    have nameable := registry.named name object member
    cases object with
    | pool p => exact nameable
    | commonPool p => exact nameable
    | token t =>
        refine ⟨nameable.1, fun c owns => ?_⟩
        rw [batch_modifyBatch_proj (·.kind) rfl] at owns
        exact nameable.2 c owns
    | batch c =>
        have different : b ≠ c := fun same => unnamed name (same ▸ member)
        exact (congrArg Batch.stage (batch_modifyBatch_of_ne _ different)).trans nameable
  distinct := registry.distinct

theorem releaseToken (registry : Registry s names) (unnamed : ∀ name, (name, .token t) ∉ names)
    (disowned : ∀ b, (s.batch b).kind = .single t → (s.batch b).stage = .closed) :
    Registry (s.releaseToken t).1 names where
  idle q := by
    rw [pool_releaseToken (·.workers) (fun _ => rfl), pool_releaseToken (·.asleep) (fun _ => rfl),
      pool_releaseToken (·.working) (fun _ => rfl)]
    exact registry.idle q
  lanes := (registry.ordered.releaseToken disowned).lanes
  drained := by
    refine forall_pool (fun q pool => pool.stage = .closed → pool.contents = [])
      registry.drained ?_
    intro kept closed
    exact List.perm_nil.mp ((Pool.release_perm t _).trans (.of_eq (kept closed)))
  tokens u opened := by
    obtain ⟨pool, stage⟩ := token_releaseToken (s := s) t u
    rw [pool, pool_releaseToken (·.stage) (fun _ => rfl)]
    exact registry.tokens u (stage.mp opened).1
  batches b opened := by
    rw [pool_releaseToken (·.stage) (fun _ => rfl)]
    exact registry.batches b opened
  owned := (registry.ordered.releaseToken disowned).owned
  owner := registry.owner
  named name object member := by
    have nameable := registry.named name object member
    cases object with
    | pool q => exact (pool_releaseToken (·.stage) (fun _ => rfl) q).trans nameable
    | commonPool q => exact nameable
    | token u =>
        refine ⟨(token_releaseToken t u).2.mpr ⟨nameable.1, ?_⟩, nameable.2⟩
        intro same
        exact unnamed name (same ▸ member)
    | batch b => exact nameable
  distinct := registry.distinct

theorem movePool (registry : Registry s names) (stage : Stage)
    (unnamed : ∀ name, (name, .pool p) ∉ names)
    (tokens : ∀ t, (s.token t).stage ≠ .closed → (s.token t).pool ≠ p)
    (batches : ∀ b, (s.batch b).stage ≠ .closed → (s.batch b).pool ≠ p)
    (empty : stage = .closed → (s.pool p).contents = []) :
    Registry (s.modifyPool p ({ · with stage })) names where
  idle q := by
    rw [pool_modifyPool_proj (·.workers) rfl, pool_modifyPool_proj (·.asleep) rfl,
      pool_modifyPool_proj (·.working) rfl]
    exact registry.idle q
  lanes q := by
    rw [pool_modifyPool_proj (·.lanes) rfl]
    exact registry.lanes q
  drained := forall_pool (fun _ pool => pool.stage = .closed → pool.contents = [])
    registry.drained fun _ => empty
  tokens t opened := by
    have live := registry.tokens t opened
    exact (congrArg Pool.stage (pool_modifyPool_of_ne _ (tokens t opened).symm)).trans live
  batches b opened := by
    have live := registry.batches b opened
    exact (congrArg Pool.stage (pool_modifyPool_of_ne _ (batches b opened).symm)).trans live
  owned := registry.owned
  owner := registry.owner
  named name object member := by
    have nameable := registry.named name object member
    cases object with
    | pool q =>
        have different : p ≠ q := fun same => unnamed name (same ▸ member)
        exact (congrArg Pool.stage (pool_modifyPool_of_ne _ different)).trans nameable
    | commonPool q => exact nameable
    | token t => exact nameable
    | batch b => exact nameable
  distinct := registry.distinct

end Registry

end TaskPool
