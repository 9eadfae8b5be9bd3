import TaskPool.Proofs.Interleaving
import TaskPool.Proofs.JobConservation

/-!
# Who is written down where

Whichever threads there are and whatever they do, some facts about the objects of a system hold in
every state that is reached. A pool has one lane for each token of it that is not released, in the
order in which the tokens were issued. A name leads to a pool that exists, to a token that is not
released and that no batch owns, or to a batch that is not being closed. A token or a batch has one
name at most.

`World.Amends` lists what a turn of any thread can do to that. Most turns keep everything as it is.
-/

namespace TaskPool

open TaskPool.System

/-! ## Frames that speak for a batch -/

/-- The batch that a frame gives its name back. -/
def Frame.reclaims? : Frame → Option BatchId
  | .reclaim _ b _ => some b
  | _ => none

/-- The batches that have no name while a thread of their own waits for them. -/
def reclaims (frames : List Frame) : List BatchId := frames.filterMap Frame.reclaims?

@[simp] theorem reclaims_append (above below : List Frame) :
    reclaims (above ++ below) = reclaims above ++ reclaims below :=
  List.filterMap_append

@[simp] theorem reclaims_cons (frame : Frame) (below : List Frame) :
    reclaims (frame :: below) = frame.reclaims?.toList ++ reclaims below := by
  cases speaks : frame.reclaims? <;> simp [reclaims, speaks]

def Plain (frames : List Frame) : Prop := reclaims frames = [] ∧ closings frames = []

theorem plain_nil : Plain [] := ⟨rfl, rfl⟩

namespace Pool

/-- Whatever is no task waits in the shared queue of a pool that has workers. -/
def Tasked (p : Pool Work) : Prop :=
  p.Each fun inlet job => inlet = .shared ∧ 0 < p.workers ∨ ∃ task : Task, job = task.job

variable {p rest : Pool Work} {inlet : Inlet} {job : Job Work}

theorem Tasked.loses (tasked : p.Tasked) (loses : p.Loses inlet job rest) : rest.Tasked := by
  have each := (Each.loses tasked loses).2
  rw [← loses.workers.1] at each
  exact each

theorem Tasked.push (tasked : p.Tasked)
    (entering : inlet = .shared ∧ 0 < p.workers ∨ ∃ task : Task, job = task.job) :
    (p.push inlet job).Tasked := by
  have each := Each.push tasked entering
  rw [← (push_workers inlet job p).1] at each
  exact each

theorem Tasked.release (tasked : p.Tasked) (t : TokenId) : (p.release t).Tasked :=
  Each.release tasked fun _ task => .inr (task.resolve_left fun wrong => nomatch wrong.1)

theorem Tasked.register (tasked : p.Tasked) (t : TokenId) : (p.register t).Tasked :=
  Each.register tasked t

theorem tasked_of_empty (shared : p.shared = []) (lanes : p.lanes = []) : p.Tasked where
  shared _ member := by
    rw [shared] at member
    cases member
  lanes _ member := by
    rw [lanes] at member
    cases member

end Pool

/-! ## Systems that keep their objects -/

namespace System

variable {s s' : System Work} {p q : PoolId} {t : TokenId} {b : BatchId}

/-- Both systems have the same pools with the same lanes, the same tokens and the same batches. Jobs
and counts may differ. -/
structure Remains (s s' : System Work) : Prop where
  pools : s'.pools.length = s.pools.length
  lanes : ∀ p, (s'.pool p).lanes.map (·.token) = (s.pool p).lanes.map (·.token)
  workers : ∀ p, (s'.pool p).workers = (s.pool p).workers
  tasked : ∀ p, (s.pool p).Tasked → (s'.pool p).Tasked
  tokens : s'.tokens = s.tokens
  known : s'.batches.length = s.batches.length
  batches : ∀ b, (s'.batch b).kind = (s.batch b).kind ∧ (s'.batch b).pool = (s.batch b).pool ∧
    (s'.batch b).stage = (s.batch b).stage

namespace Remains

theorem refl (s : System Work) : s.Remains s :=
  ⟨rfl, fun _ => rfl, fun _ => rfl, fun _ tasked => tasked, rfl, rfl, fun _ => ⟨rfl, rfl, rfl⟩⟩

theorem trans {r : System Work} (first : s.Remains s') (second : s'.Remains r) : s.Remains r where
  pools := second.pools.trans first.pools
  lanes p := (second.lanes p).trans (first.lanes p)
  workers p := (second.workers p).trans (first.workers p)
  tasked p tasked := second.tasked p (first.tasked p tasked)
  tokens := second.tokens.trans first.tokens
  known := second.known.trans first.known
  batches b :=
    ⟨(second.batches b).1.trans (first.batches b).1,
      (second.batches b).2.1.trans (first.batches b).2.1,
      (second.batches b).2.2.trans (first.batches b).2.2⟩

theorem modifyPool {f : Pool Work → Pool Work}
    (lanes : (f (s.pool p)).lanes.map (·.token) = (s.pool p).lanes.map (·.token))
    (workers : (f (s.pool p)).workers = (s.pool p).workers)
    (tasked : (s.pool p).Tasked → (f (s.pool p)).Tasked) : s.Remains (s.modifyPool p f) where
  pools := List.length_modify ..
  lanes := pool_modifyPool_proj (·.lanes.map (·.token)) lanes
  workers := pool_modifyPool_proj (·.workers) workers
  tasked := forall_pool (fun q pool => (s.pool q).Tasked → pool.Tasked) (fun _ is => is)
    fun _ => tasked
  tokens := rfl
  known := rfl
  batches _ := ⟨rfl, rfl, rfl⟩

theorem mapBarrier (s : System Work) (b : BatchId) (f : Barrier → Barrier) :
    s.Remains (s.modifyBatch b (·.mapBarrier f)) where
  pools := rfl
  lanes _ := rfl
  workers _ := rfl
  tasked _ tasked := tasked
  tokens := rfl
  known := List.length_modify ..
  batches c := ⟨batch_modifyBatch_proj (·.kind) rfl c, batch_modifyBatch_proj (·.pool) rfl c,
    batch_modifyBatch_proj (·.stage) rfl c⟩

theorem settle (s : System Work) (b : BatchId) (job : JobId) (panicked : Option Payload) :
    s.Remains (s.settle b job panicked).1 := by
  rw [settle_system]
  exact mapBarrier s b _

theorem deliver (s : System Work) (b : BatchId) : s.Remains (s.deliver b).2 := by
  rw [deliver_system]
  exact mapBarrier s b _

theorem count (s : System Work) (wrapped : Option BatchId) : s.Remains (s.count wrapped) := by
  have counted : s.Remains { s with submissions := s.submissions + 1 } :=
    ⟨rfl, fun _ => rfl, fun _ => rfl, fun _ tasked => tasked, rfl, rfl, fun _ => ⟨rfl, rfl, rfl⟩⟩
  cases wrapped with
  | none => exact counted
  | some b => exact counted.trans (mapBarrier _ b .enlist)

theorem take {source : Source} {job : Job Work} (taken : s.take source = some (job, s')) :
    s.Remains s' := by
  obtain ⟨p, _, inlet, rest, loses, rfl⟩ := take_loses taken
  exact modifyPool loses.tokens loses.workers.1 fun tasked => tasked.loses loses

theorem submit (entry : Entry) (work : Work)
    (task : (∃ label ops onBatch, work = .body label ops onBatch) ∨
      (s.inletOf entry).2 = .shared ∧ 0 < (s.pool (s.inletOf entry).1).workers) :
    s.Remains (s.submit entry work).system := by
  cases submit_submits (s := s) entry work with
  | declined _ _ _ system => exact system ▸ count s none
  | admitted admits =>
      obtain ⟨job, ⟨_, system⟩ | ⟨_, system⟩⟩ := admits
      · exact system ▸ count s _
      · rw [system]
        refine (count s _).trans
          (modifyPool (Pool.push_tokens ..) (Pool.push_workers ..).1 fun tasked => tasked.push ?_)
        rcases task with ⟨label, ops, onBatch, rfl⟩ | ⟨shared, workers⟩
        · exact .inr ⟨⟨_, _, label, ops, onBatch⟩, rfl⟩
        · exact .inl ⟨shared, by rw [count_pool]; exact workers⟩

end Remains

def Listed (s : System Work) : Object → Prop
  | .pool p | .commonPool p => p.index < s.pools.length
  | .token t => (s.token t).stage ≠ .closed ∧ ∀ b, (s.batch b).kind ≠ .single t
  | .batch b => (s.batch b).stage = .live

namespace Listed

variable {object : Object}

theorem keeps (listed : s.Listed object) (keeps : s.Remains s') : s'.Listed object := by
  cases object with
  | pool p | commonPool p => exact Nat.lt_of_lt_of_eq listed keeps.pools.symm
  | token t =>
      refine ⟨?_, fun b owns => listed.2 b ((keeps.batches b).1 ▸ owns)⟩
      rw [System.token, keeps.tokens]
      exact listed.1
  | batch b => exact (keeps.batches b).2.2.trans listed

theorem startPool (listed : s.Listed object) (reasons : Nat → Option String) (config : PoolConfig) :
    (s.startPool reasons config).2.1.Listed object := by
  cases object with
  | pool p | commonPool p =>
      have longer : s.pools.length ≤ (s.startPool reasons config).2.1.pools.length := by
        simp [System.startPool]
      exact Nat.lt_of_lt_of_le listed longer
  | token t => exact listed
  | batch b => exact listed

theorem started (reasons : Nat → Option String) (config : PoolConfig) :
    (s.startPool reasons config).1.index < (s.startPool reasons config).2.1.pools.length := by
  simp [System.startPool]

theorem pools_issueToken : (s.issueToken p).2.1.pools.length = s.pools.length := by
  simp [System.issueToken, System.modifyPool]

theorem issueToken (listed : s.Listed object) (p : PoolId) :
    (s.issueToken p).2.1.Listed object := by
  cases object with
  | pool q | commonPool q => exact Nat.lt_of_lt_of_eq listed pools_issueToken.symm
  | token t =>
      refine ⟨?_, listed.2⟩
      rw [token_issueToken (token_known listed.1)]
      exact listed.1
  | batch b => exact listed

theorem issued (ordered : s.Ordered) (p : PoolId) :
    (s.issueToken p).2.1.Listed (.token (s.issueToken p).1) := by
  refine ⟨fun closed => ?_, ordered.unowned_issueToken p⟩
  have made := token_issueToken_self (s := s) (p := p)
  exact Stage.noConfusion ((congrArg Token.stage made).symm.trans closed)

theorem appendBatch (listed : s.Listed object) {new : Batch}
    (other : ∀ t, new.kind = .single t → object ≠ .token t) :
    ({ s with batches := s.batches ++ [new] } : System Work).Listed object := by
  cases object with
  | pool q | commonPool q => exact listed
  | token t =>
      refine ⟨listed.1, forall_batch_append (fun _ batch => batch.kind ≠ .single t) listed.2 ?_⟩
      exact fun owns => other t owns rfl
  | batch b =>
      rcases batch_append_cases new b with ⟨_, same⟩ | ⟨last, _⟩
      · exact (congrArg Batch.stage same).trans listed
      · exact absurd last (Nat.ne_of_lt (batch_known (Stage.opened listed)))

theorem moveBatch (listed : s.Listed object) (stage : Stage) (other : object ≠ .batch b) :
    (s.modifyBatch b ({ · with stage })).Listed object := by
  cases object with
  | pool q | commonPool q => exact listed
  | token t =>
      refine ⟨listed.1, fun c owns => listed.2 c ?_⟩
      rwa [batch_modifyBatch_proj (·.kind) rfl] at owns
  | batch c =>
      have different : b ≠ c := fun same => other (same ▸ rfl)
      exact (congrArg Batch.stage (batch_modifyBatch_of_ne _ different)).trans listed

theorem releaseToken (listed : s.Listed object) (other : object ≠ .token t) :
    (s.releaseToken t).1.Listed object := by
  cases object with
  | pool q | commonPool q =>
      refine Nat.lt_of_lt_of_eq listed (Eq.symm ?_)
      simp [System.releaseToken, System.modifyPool, System.modifyToken]
  | token u =>
      exact ⟨(token_releaseToken t u).2.mpr ⟨listed.1, fun same => other (same ▸ rfl)⟩, listed.2⟩
  | batch b => exact listed

theorem closeBatch (listed : s.Listed object) (other : object ≠ .batch b) :
    (s.closeBatch b).1.Listed object := by
  have ended : (s.endBatch b).Listed object :=
    (listed.keeps (.deliver s b)).moveBatch .closed other
  rw [closeBatch_system]
  cases kind : (s.batch b).kind with
  | multi => exact ended
  | single t =>
      refine ended.releaseToken ?_
      rintro rfl
      exact listed.2 b kind

end Listed

end System

/-- Tokens and batches are dropped by name, so they have one name only. -/
def Object.single? : Object → Option Object
  | .token t => some (.token t)
  | .batch b => some (.batch b)
  | .pool _ | .commonPool _ => none

/-- The tokens and batches that have a name or wait for it to be given back. -/
def holders (names : Table Object) (frames : List Frame) : List Object :=
  names.filterMap (·.2.single?) ++ (reclaims frames).map .batch

theorem named_of_single {names : Table Object} {object : Object}
    (found : object ∈ names.filterMap (·.2.single?)) : ∃ name, (name, object) ∈ names := by
  obtain ⟨⟨name, other⟩, inside, is⟩ := List.mem_filterMap.mp found
  cases other <;> cases is <;> exact ⟨name, inside⟩

/-- The objects of a world are in order, whichever frames there are on the stacks of its threads. -/
structure Ledger (w : World) (frames : List Frame) : Prop where
  ordered : w.system.Ordered
  tasked : ∀ p, (w.system.pool p).Tasked
  batches : ∀ b : BatchId, b.index < w.system.batches.length →
    (w.system.batch b).pool.index < w.system.pools.length
  common : ∀ p, w.common = some p → p.index < w.system.pools.length
  named : ∀ name object, (name, object) ∈ w.names → w.system.Listed object
  waits : ∀ b ∈ reclaims frames, (w.system.batch b).stage = .live
  closes : ∀ b, .batch b ∈ closings frames →
    b.index < w.system.batches.length ∧ (w.system.batch b).stage ≠ .live
  distinct : (holders w.names frames).Nodup

/-- What a turn of a frame can do to the objects of a world. It puts new frames in the place of the
frame, on its own stack or on stacks of new threads. -/
inductive World.Amends (w : World) (frame : Frame) (w' : World) (new : List Frame) : Prop where
  | keeps (system : w.system.Remains w'.system) (names : w'.names = w.names)
      (common : w'.common = w.common) (plain : reclaims new = [])
      (closes : closings new ⊆ closings [frame]) (other : frame.reclaims? = none)
  | startsPool {name reasons config} (unknown : w.names.find? name = none)
      (system : w'.system = (w.system.startPool reasons config).2.1)
      (names : w'.names = w.names.put name (.pool (w.system.startPool reasons config).1))
      (common : w'.common = w.common) (plain : Plain new)
  | sharesPool {name p} (unknown : w.names.find? name = none) (known : w.common = some p)
      (system : w'.system = w.system) (names : w'.names = w.names.put name (.commonPool p))
      (common : w'.common = w.common) (plain : Plain new)
  | startsShared {name reasons config} (unknown : w.names.find? name = none)
      (system : w'.system = (w.system.startPool reasons config).2.1)
      (names : w'.names = w.names.put name (.commonPool (w.system.startPool reasons config).1))
      (common : w'.common = some (w.system.startPool reasons config).1) (plain : Plain new)
  | issuesToken {name p} (unknown : w.names.find? name = none)
      (known : p.index < w.system.pools.length)
      (system : w'.system = (w.system.issueToken p).2.1)
      (names : w'.names = w.names.put name (.token (w.system.issueToken p).1))
      (common : w'.common = w.common) (plain : Plain new)
  | makesBatch {name p single multiplier} (unknown : w.names.find? name = none)
      (known : p.index < w.system.pools.length)
      (system : w'.system = (w.system.makeBatch p single multiplier).2.1)
      (names : w'.names = w.names.put name (.batch (w.system.makeBatch p single multiplier).1))
      (common : w'.common = w.common) (plain : Plain new)
  | dropsPool {name object} (named : w.names.find? name = some object) (pool : object.isPool)
      (free : w.isBusy object = false) (system : w.system.Remains w'.system)
      (names : w'.names = w.names.remove name) (common : w'.common = w.common)
      (plain : reclaims new = []) (closes : ∀ b, .batch b ∉ closings new)
  | dropsToken {name t} (named : w.names.find? name = some (.token t))
      (free : w.inUse (.token t) = false) (system : w'.system = (w.system.releaseToken t).1)
      (names : w'.names = w.names.remove name) (common : w'.common = w.common)
      (plain : Plain new)
  | dropsBatch {name b} (named : w.names.find? name = some (.batch b))
      (free : w.inUse (.batch b) = false) (system : w'.system = w.system.beginClosingBatch b)
      (names : w'.names = w.names.remove name) (common : w'.common = w.common)
      (plain : reclaims new = []) (closes : closings new = [.batch b])
  | movesAway {name b} (named : w.names.find? name = some (.batch b))
      (free : w.inUse (.batch b) = false) (system : w'.system = w.system)
      (names : w'.names = w.names.remove name) (common : w'.common = w.common)
      (waits : reclaims new = [b]) (closes : closings new = [])
  | comesBack {name b thread} (top : frame = .reclaim name b thread)
      (system : w'.system = w.system) (names : w'.names = w.names.put name (.batch b))
      (common : w'.common = w.common) (plain : Plain new)
  | closesBatch {b budget} (top : frame = .waiting b budget .close)
      (system : w'.system = (w.system.closeBatch b).1) (names : w'.names = w.names)
      (common : w'.common = w.common) (plain : Plain new)

/-! ## Names -/

theorem Table.put_perm {α : Type} (name : String) (value : α) (table : Table α) :
    ∃ rest, rest.Sublist table ∧ (table.put name value).Perm ((name, value) :: rest) := by
  induction table with
  | nil => exact ⟨[], .slnil, .refl _⟩
  | cons entry table ih =>
      obtain ⟨key, old⟩ := entry
      by_cases same : key = name
      · refine ⟨table, List.sublist_cons_self .., ?_⟩
        rw [Table.put, if_pos same, same]
      · obtain ⟨rest, sub, perm⟩ := ih
        refine ⟨(key, old) :: rest, sub.cons_cons _, ?_⟩
        rw [Table.put, if_neg same]
        exact (perm.cons _).trans (.swap ..)

namespace Ledger

variable {w w' : World} {frame : Frame} {frames new rest : List Frame} {p : PoolId} {t : TokenId}
  {b : BatchId} {name : String} {object : Object}

theorem load (host : Host) (bodies : Table (List Op)) (frames : List Frame) (plain : Plain frames) :
    Ledger { bodies, host } frames where
  ordered := .empty
  tasked _ := Pool.tasked_of_empty rfl rfl
  batches _ wrong := absurd wrong (Nat.not_lt_zero _)
  common _ wrong := nomatch wrong
  named _ _ wrong := nomatch wrong
  waits b member := by
    rw [plain.1] at member
    cases member
  closes b member := by
    rw [plain.2] at member
    cases member
  distinct := by
    rw [holders, plain.1]
    exact List.nodup_nil

theorem perm (ledger : Ledger w frames) {frames' : List Frame} (perm : frames.Perm frames') :
    Ledger w frames' :=
  { ledger with
    waits := fun b member => ledger.waits b ((perm.filterMap _).mem_iff.mpr member)
    closes := fun b member => ledger.closes b ((perm.filterMap _).mem_iff.mpr member)
    distinct := (((perm.filterMap _).map _).append_left _).nodup_iff.mp ledger.distinct }

theorem sublist (ledger : Ledger w frames) {frames' : List Frame} (sub : frames'.Sublist frames) :
    Ledger w frames' :=
  { ledger with
    waits := fun b member => ledger.waits b ((sub.filterMap _).subset member)
    closes := fun b member => ledger.closes b ((sub.filterMap _).subset member)
    distinct := ledger.distinct.sublist ((List.Sublist.refl _).append ((sub.filterMap _).map _)) }

theorem listed (ledger : Ledger w frames) (named : w.names.find? name = some object) :
    w.system.Listed object :=
  ledger.named name object (Table.mem_of_find? named)

theorem listed_of_held (ledger : Ledger w frames) (held : object ∈ holders w.names frames) :
    w.system.Listed object := by
  rcases List.mem_append.mp held with found | waiting
  · obtain ⟨name, inside⟩ := named_of_single found
    exact ledger.named name object inside
  · obtain ⟨b, waits, rfl⟩ := List.mem_map.mp waiting
    exact ledger.waits b waits

theorem issuer (ledger : Ledger w frames) (opened : (w.system.token t).stage ≠ .closed) :
    (w.system.token t).pool.index < w.system.pools.length := by
  have once := ledger.ordered.count_lane opened
  refine Nat.lt_of_not_le fun unknown => ?_
  rw [pool_unknown unknown] at once
  cases once

/-- A token or a batch that lost its name has no other one. -/
theorem unnamed (ledger : Ledger w frames) (named : w.names.find? name = some object)
    (single : object.single? = some object) (other : String) :
    (other, object) ∉ w.names.remove name := by
  intro member
  obtain ⟨inside, different⟩ := List.mem_filter.mp member
  have once : (w.names.filterMap (·.2.single?)).count object ≤ 1 :=
    List.nodup_iff_count_le_one.mp (List.nodup_append.mp ledger.distinct).1 object
  have same : (other, object) = (name, object) :=
    Scene.eq_of_filterMap_count once inside (Table.mem_of_find? named) single single
  simp [(Prod.mk.inj same).1] at different

/-- A batch that has a name is not one that waits for its name. -/
theorem apart (ledger : Ledger w frames) (member : (name, .batch b) ∈ w.names) :
    b ∉ reclaims frames := by
  intro waits
  have apart := (List.nodup_append.mp ledger.distinct).2.2
  exact apart (.batch b) (List.mem_filterMap.mpr ⟨_, member, rfl⟩) (.batch b)
    (List.mem_map_of_mem waits) rfl

/-! ## What turns do -/

theorem keeps (ledger : Ledger w frames) (system : w.system.Remains w'.system)
    (names : ∀ entry ∈ w'.names, entry ∈ w.names) (common : w'.common = w.common)
    (waits : ∀ b ∈ reclaims rest, b ∈ reclaims frames)
    (closes : ∀ b, .batch b ∈ closings rest → .batch b ∈ closings frames)
    (distinct : (holders w'.names rest).Nodup) : Ledger w' rest where
  ordered := ledger.ordered.of_same system.lanes system.tokens system.batches
  tasked p := system.tasked p (ledger.tasked p)
  batches b known := by
    rw [(system.batches b).2.1, system.pools]
    exact ledger.batches b (Nat.lt_of_lt_of_eq known system.known)
  common p is := by
    rw [system.pools]
    exact ledger.common p (common ▸ is)
  named name object member := (ledger.named name object (names _ member)).keeps system
  waits b member := (system.batches b).2.2.trans (ledger.waits b (waits b member))
  closes b member := by
    rw [system.known, (system.batches b).2.2]
    exact ledger.closes b (closes b member)
  distinct := distinct

theorem put (ledger : Ledger w frames) (unknown : w.names.find? name = none)
    (listed : w.system.Listed object)
    (fresh : object.isPool = false → object ∉ holders w.names frames)
    (names : w'.names = w.names.put name object) (system : w'.system = w.system)
    (common : w'.common = w.common) : Ledger w' frames where
  ordered := system ▸ ledger.ordered
  tasked := system ▸ ledger.tasked
  batches := system ▸ ledger.batches
  common := system ▸ common ▸ ledger.common
  named other found member := by
    rw [names, Table.put_unknown object unknown] at member
    simp only [List.mem_append, List.mem_singleton, Prod.mk.injEq] at member
    rw [system]
    rcases member with member | ⟨rfl, rfl⟩
    · exact ledger.named other found member
    · exact listed
  waits := system ▸ ledger.waits
  closes := system ▸ ledger.closes
  distinct := by
    have distinct := ledger.distinct
    rw [names, Table.put_unknown object unknown, holders, List.filterMap_append]
    cases object with
    | pool | commonPool =>
        rw [show ([(name, _)] : Table Object).filterMap (·.2.single?) = [] from rfl,
          List.append_nil]
        exact distinct
    | token | batch =>
        have fresh := fresh rfl
        rw [List.append_assoc]
        refine (List.perm_middle (a := _)).nodup_iff.mpr ?_
        exact List.nodup_cons.mpr ⟨fresh, distinct⟩

theorem putPool (ledger : Ledger w frames) (unknown : w.names.find? name = none)
    (listed : w.system.Listed object) (pool : object.isPool = true)
    (names : w'.names = w.names.put name object) (system : w'.system = w.system)
    (common : w'.common = w.common) : Ledger w' frames :=
  ledger.put unknown listed (fun single => Bool.noConfusion (pool.symm.trans single)) names system
    common

theorem remove (ledger : Ledger w frames) (name : String) :
    Ledger { w with names := w.names.remove name } frames :=
  ledger.keeps (.refl _) (fun _ member => (List.mem_filter.mp member).1) rfl (fun _ is => is)
    (fun _ is => is) (ledger.distinct.sublist
      (((List.filter_sublist).filterMap _).append (.refl _)))

theorem startPool (ledger : Ledger w frames) (reasons : Nat → Option String) (config : PoolConfig) :
    Ledger { w with system := (w.system.startPool reasons config).2.1 } frames where
  ordered := ledger.ordered.startPool reasons config
  tasked := forall_pool_append (fun _ pool => pool.Tasked) ledger.tasked
    (Pool.tasked_of_empty rfl rfl)
  batches b known :=
    Nat.lt_of_lt_of_le (ledger.batches b known) (by simp [System.startPool])
  common p is :=
    Nat.lt_of_lt_of_le (ledger.common p is) (by simp [System.startPool])
  named name object member := (ledger.named name object member).startPool reasons config
  waits := ledger.waits
  closes := ledger.closes
  distinct := ledger.distinct

theorem issueToken (ledger : Ledger w frames) (known : p.index < w.system.pools.length) :
    Ledger { w with system := (w.system.issueToken p).2.1 } frames where
  ordered := ledger.ordered.issueToken known
  tasked := forall_pool (s := { w.system with tokens := w.system.tokens ++ [{ pool := p }] })
    (fun _ pool => pool.Tasked) ledger.tasked fun tasked => tasked.register _
  batches b known :=
    Nat.lt_of_lt_of_eq (ledger.batches b known) Listed.pools_issueToken.symm
  common p is :=
    Nat.lt_of_lt_of_eq (ledger.common p is) Listed.pools_issueToken.symm
  named name object member := (ledger.named name object member).issueToken p
  waits := ledger.waits
  closes := ledger.closes
  distinct := ledger.distinct

theorem appendBatch (ledger : Ledger w frames) {new : Batch}
    (known : new.pool.index < w.system.pools.length)
    (token : ∀ t, new.kind = .single t → (w.system.token t).stage ≠ .closed ∧
      (w.system.token t).pool = new.pool ∧ (∀ b, (w.system.batch b).kind ≠ .single t) ∧
      ∀ name, (name, .token t) ∉ w.names) :
    Ledger { w with system := { w.system with batches := w.system.batches ++ [new] } } frames where
  ordered := ledger.ordered.appendBatch fun t owns =>
    ⟨(token t owns).1, (token t owns).2.1, (token t owns).2.2.1⟩
  tasked := ledger.tasked
  batches := by
    have all : ∀ b : BatchId, (w.system.batch b).pool.index < w.system.pools.length ∨
        w.system.batches.length ≤ b.index := by
      intro b
      rcases Nat.lt_or_ge b.index w.system.batches.length with known | unknown
      · exact .inl (ledger.batches b known)
      · exact .inr unknown
    intro b below
    rcases batch_append_cases (s := w.system) new b with ⟨other, same⟩ | ⟨_, same⟩
    · rw [same]
      refine (all b).resolve_right fun unknown => ?_
      have below : b.index < (w.system.batches ++ [new]).length := below
      rw [List.length_append, List.length_singleton] at below
      omega
    · rw [same]
      exact known
  common := ledger.common
  named name object member := by
    refine (ledger.named name object member).appendBatch fun t owns same => ?_
    subst same
    exact (token t owns).2.2.2 name member
  waits b member := by
    have live := ledger.waits b member
    exact (show Listed w.system (.batch b) from live).appendBatch fun _ _ => nofun
  closes b member := by
    obtain ⟨known, old⟩ := ledger.closes b member
    refine ⟨by simp only [List.length_append]; omega, ?_⟩
    rcases batch_append_cases (s := w.system) new b with ⟨_, same⟩ | ⟨last, _⟩
    · rw [same]
      exact old
    · exact absurd last (Nat.ne_of_lt known)
  distinct := ledger.distinct

theorem makeBatch (ledger : Ledger w frames) (known : p.index < w.system.pools.length)
    (single : Bool) (multiplier : Nat) :
    Ledger { w with system := (w.system.makeBatch p single multiplier).2.1 } frames := by
  cases single with
  | false => exact ledger.appendBatch known fun _ owns => nomatch owns
  | true =>
      refine (ledger.issueToken known).appendBatch
        (Nat.lt_of_lt_of_eq known Listed.pools_issueToken.symm) fun t owns => ?_
      cases owns
      obtain ⟨opened, unowned⟩ := Listed.issued ledger.ordered p
      have made := token_issueToken_self (s := w.system) (p := p)
      refine ⟨opened, congrArg Token.pool made, unowned, fun name member => ?_⟩
      exact Nat.lt_irrefl _ (token_known (ledger.named name _ member).1)

theorem releaseToken (ledger : Ledger w frames) (unnamed : ∀ name, (name, .token t) ∉ w.names)
    (disowned : ∀ b, (w.system.batch b).kind = .single t → (w.system.batch b).stage = .closed) :
    Ledger { w with system := (w.system.releaseToken t).1 } frames := by
  have pools : (w.system.releaseToken t).1.pools.length = w.system.pools.length := by
    simp [System.releaseToken, System.modifyPool, System.modifyToken]
  exact
    { ledger with
      ordered := ledger.ordered.releaseToken disowned
      tasked := forall_pool (s := w.system) (fun _ pool => pool.Tasked) ledger.tasked
        fun tasked => tasked.release t
      batches := fun b known => Nat.lt_of_lt_of_eq (ledger.batches b known) pools.symm
      common := fun p is => Nat.lt_of_lt_of_eq (ledger.common p is) pools.symm
      named := fun name object member => (ledger.named name object member).releaseToken
        fun same => unnamed name (same ▸ member) }

theorem moveBatch (ledger : Ledger w frames) (stage : Stage)
    (unnamed : ∀ name, (name, .batch b) ∉ w.names) (waits : b ∉ reclaims frames)
    (onward : (w.system.batch b).stage = .closed → stage = .closed) (gone : stage ≠ .live) :
    Ledger { w with system := w.system.modifyBatch b ({ · with stage }) } frames where
  ordered := ledger.ordered.moveBatch stage onward
  tasked := ledger.tasked
  batches c known := by
    rw [batch_modifyBatch_proj (·.pool) rfl]
    exact ledger.batches c (Nat.lt_of_lt_of_eq known (List.length_modify ..))
  common := ledger.common
  named name object member := (ledger.named name object member).moveBatch stage
    fun same => unnamed name (same ▸ member)
  waits c member := by
    have live : w.system.Listed (.batch c) := ledger.waits c member
    refine live.moveBatch stage fun same => ?_
    cases same
    exact waits member
  closes c member := by
    obtain ⟨known, old⟩ := ledger.closes c member
    refine ⟨Nat.lt_of_lt_of_eq known (List.length_modify ..).symm, ?_⟩
    exact forall_batch (f := ({ · with stage }))
      (fun c batch => (w.system.batch c).stage ≠ .live → batch.stage ≠ .live)
      (fun _ old => old) (fun _ _ => gone) c old
  distinct := ledger.distinct

theorem closeBatch (ledger : Ledger w frames) (known : b.index < w.system.batches.length)
    (closing : (w.system.batch b).stage ≠ .live) :
    Ledger { w with system := (w.system.closeBatch b).1 } frames := by
  have unnamed : ∀ name, (name, .batch b) ∉ w.names :=
    fun name member => closing (ledger.named name _ member)
  have waits : b ∉ reclaims frames := fun member => closing (ledger.waits b member)
  have delivered : Ledger { w with system := (w.system.deliver b).2 } frames :=
    ledger.keeps (.deliver w.system b) (fun _ member => member) rfl (fun _ is => is)
      (fun _ is => is) ledger.distinct
  have ended : Ledger { w with system := w.system.endBatch b } frames :=
    delivered.moveBatch .closed unnamed waits (fun _ => rfl) nofun
  rw [closeBatch_system]
  cases kind : (w.system.batch b).kind with
  | multi => exact ended
  | single t =>
      refine ended.releaseToken (fun name member => ?_) fun c owns => ?_
      · exact (ledger.named name _ member).2 b kind
      · rw [endBatch_kind] at owns
        obtain rfl := ledger.ordered.owner c b t owns kind
        exact endBatch_stage known

theorem of_same (ledger : Ledger w frames) (system : w'.system = w.system)
    (names : w'.names = w.names) (common : w'.common = w.common) : Ledger w' frames where
  ordered := system ▸ ledger.ordered
  tasked := system ▸ ledger.tasked
  batches := system ▸ ledger.batches
  common := system ▸ common ▸ ledger.common
  named := system ▸ names ▸ ledger.named
  waits := system ▸ ledger.waits
  closes := system ▸ ledger.closes
  distinct := names ▸ ledger.distinct

/-! ## Frames that are added -/

theorem add_frames (ledger : Ledger w rest) (plain : Plain new) : Ledger w (new ++ rest) :=
  { ledger with
    waits := by
      rw [reclaims_append, plain.1]
      exact ledger.waits
    closes := by
      rw [closings_append, plain.2]
      exact ledger.closes
    distinct := by
      rw [holders, reclaims_append, plain.1]
      exact ledger.distinct }

theorem add_closing (ledger : Ledger w rest) (known : b.index < w.system.batches.length)
    (gone : (w.system.batch b).stage ≠ .live) (plain : reclaims new = [])
    (closes : closings new = [.batch b]) : Ledger w (new ++ rest) :=
  { ledger with
    waits := by
      rw [reclaims_append, plain]
      exact ledger.waits
    closes := fun c member => by
      rw [closings_append, closes] at member
      rcases List.mem_append.mp member with own | member
      · cases List.mem_singleton.mp own
        exact ⟨known, gone⟩
      · exact ledger.closes c member
    distinct := by
      rw [holders, reclaims_append, plain]
      exact ledger.distinct }

theorem add_reclaim (ledger : Ledger w rest) (live : (w.system.batch b).stage = .live)
    (nameless : .batch b ∉ holders w.names rest) (waits : reclaims new = [b])
    (closes : closings new = []) : Ledger w (new ++ rest) :=
  { ledger with
    waits := fun c member => by
      rw [reclaims_append, waits] at member
      rcases List.mem_append.mp member with own | member
      · cases List.mem_singleton.mp own
        exact live
      · exact ledger.waits c member
    closes := by
      rw [closings_append, closes]
      exact ledger.closes
    distinct := by
      rw [holders, reclaims_append, waits, List.map_append]
      exact List.perm_middle.nodup_iff.mpr (List.nodup_cons.mpr ⟨nameless, ledger.distinct⟩) }

/-! ## Whole turns -/

theorem startShared (ledger : Ledger w frames) (reasons : Nat → Option String)
    (config : PoolConfig) :
    Ledger
      { w with
        system := (w.system.startPool reasons config).2.1
        common := some (w.system.startPool reasons config).1 } frames :=
  { ledger.startPool reasons config with
    common := fun p is => by
      cases is
      exact Listed.started reasons config }

theorem dropBatch (ledger : Ledger w rest) (named : w.names.find? name = some (.batch b))
    (plain : reclaims new = []) (closes : closings new = [.batch b]) :
    Ledger { w with system := w.system.beginClosingBatch b, names := w.names.remove name }
      (new ++ rest) := by
  have live : (w.system.batch b).stage = .live := ledger.listed named
  have known := batch_known (Stage.opened live)
  have closing := (ledger.remove name).moveBatch .closing (ledger.unnamed named rfl)
    (ledger.apart (Table.mem_of_find? named))
    (fun closed => Stage.noConfusion (live.symm.trans closed)) Stage.noConfusion
  refine closing.add_closing (Nat.lt_of_lt_of_eq known (List.length_modify ..).symm) ?_ plain closes
  rw [batch_modifyBatch_self _ known]
  exact Stage.noConfusion

theorem moveAway (ledger : Ledger w rest) (named : w.names.find? name = some (.batch b))
    (waits : reclaims new = [b]) (closes : closings new = []) :
    Ledger { w with names := w.names.remove name } (new ++ rest) := by
  refine (ledger.remove name).add_reclaim (ledger.listed named) (fun held => ?_) waits closes
  rcases List.mem_append.mp held with found | waiting
  · obtain ⟨other, inside⟩ := named_of_single found
    exact ledger.unnamed named rfl other inside
  · obtain ⟨c, inside, is⟩ := List.mem_map.mp waiting
    cases is
    exact ledger.apart (Table.mem_of_find? named) inside

theorem comeBack {thread : ThreadId} (ledger : Ledger w (.reclaim name b thread :: rest)) :
    Ledger { w with names := w.names.put name (.batch b) } rest := by
  have live : w.system.Listed (.batch b) := ledger.waits b (by simp [Frame.reclaims?])
  have below := ledger.sublist (List.sublist_cons_self ..)
  obtain ⟨kept, fewer, perm⟩ := Table.put_perm name (.batch b) w.names
  exact
    { ordered := ledger.ordered
      tasked := ledger.tasked
      batches := ledger.batches
      common := ledger.common
      waits := below.waits
      closes := below.closes
      named := fun other object member => by
        rcases List.mem_cons.mp (perm.mem_iff.mp member) with new | old
        · cases new
          exact live
        · exact ledger.named other object (fewer.subset old)
      distinct := by
        have distinct := ledger.distinct
        rw [holders, reclaims_cons] at distinct
        refine ((perm.filterMap _).append_right _).nodup_iff.mpr ?_
        have moved := List.perm_middle.nodup_iff.mp distinct
        exact moved.sublist (((fewer.filterMap _).append (.refl _)).cons_cons _) }

end Ledger

/-- The objects stay in order, whatever a turn does to them. -/
theorem World.Amends.ledger {w w' : World} {frame : Frame} {new rest : List Frame}
    (amends : w.Amends frame w' new) (ledger : Ledger w (frame :: rest)) :
    Ledger w' (new ++ rest) := by
  have below := ledger.sublist (List.sublist_cons_self ..)
  cases amends with
  | keeps system names common plain closes other =>
      refine ledger.keeps system (fun _ member => names ▸ member) common ?_ ?_ ?_
      · rw [reclaims_append, plain, reclaims_cons, other]
        exact fun b member => member
      · intro b member
        rw [closings_append] at member
        rw [← List.singleton_append, closings_append]
        exact List.mem_append.mpr ((List.mem_append.mp member).imp_left (closes ·))
      · rw [names, holders, reclaims_append, plain]
        exact below.distinct
  | @startsPool name reasons config unknown system names common plain =>
      have listed : (w.system.startPool reasons config).2.1.Listed
          (.pool (w.system.startPool reasons config).1) := Listed.started reasons config
      exact ((below.startPool reasons config).putPool unknown listed rfl names system
        common).add_frames plain
  | @sharesPool name p unknown known system names common plain =>
      have listed : w.system.Listed (.commonPool p) := ledger.common p known
      exact (below.putPool unknown listed rfl names system common).add_frames plain
  | @startsShared name reasons config unknown system names common plain =>
      have listed : (w.system.startPool reasons config).2.1.Listed
          (.commonPool (w.system.startPool reasons config).1) := Listed.started reasons config
      exact ((below.startShared reasons config).putPool unknown listed rfl names system
        common).add_frames plain
  | @issuesToken name p unknown known system names common plain =>
      have fresh : .token (w.system.issueToken p).1 ∉ holders w.names rest :=
        fun held => Nat.lt_irrefl _ (token_known (below.listed_of_held held).1)
      exact ((below.issueToken known).put unknown (Listed.issued ledger.ordered p)
        (fun _ => fresh) names system common).add_frames plain
  | @makesBatch name p single multiplier unknown known system names common plain =>
      have fresh : .batch (w.system.makeBatch p single multiplier).1 ∉ holders w.names rest := by
        intro held
        have old := batch_known (Stage.opened (below.listed_of_held held))
        cases single <;> exact Nat.lt_irrefl _ old
      have listed : (w.system.makeBatch p single multiplier).2.1.Listed
          (.batch (w.system.makeBatch p single multiplier).1) := nameable_makeBatch ..
      exact ((below.makeBatch known single multiplier).put unknown listed (fun _ => fresh) names
        system common).add_frames plain
  | dropsPool named pool free system names common plain closes =>
      refine ledger.keeps system (fun _ member => ?_) common ?_ ?_ ?_
      · rw [names] at member
        exact (List.mem_filter.mp member).1
      · intro b member
        rw [reclaims_append, plain, List.nil_append] at member
        simp [member]
      · intro b member
        rw [closings_append] at member
        rcases List.mem_append.mp member with wrong | member
        · exact absurd wrong (closes _)
        · simp [member]
      · rw [names, holders, reclaims_append, plain]
        exact (below.remove _).distinct
  | dropsToken named free system names common plain =>
      have unowned := (ledger.listed named).2
      have released := (below.remove _).releaseToken (below.unnamed named rfl)
        fun b owns => absurd owns (unowned b)
      exact (released.of_same system names common).add_frames plain
  | dropsBatch named free system names common plain closes =>
      exact (below.dropBatch named plain closes).of_same system names common
  | movesAway named free system names common waits closes =>
      exact (below.moveAway named waits closes).of_same system names common
  | comesBack top system names common plain =>
      subst top
      exact (ledger.comeBack.of_same system names common).add_frames plain
  | @closesBatch b _ top system names common plain =>
      subst top
      obtain ⟨known, closing⟩ := ledger.closes b (by simp [Frame.closing?])
      exact ((below.closeBatch known closing).of_same system names common).add_frames plain

end TaskPool
