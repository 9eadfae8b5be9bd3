import Mathlib.Data.List.DropRight
import TaskPool.Proofs.QueuedCount

/-!
# The line in front of a batch

The jobs of a batch wait in one queue, its line: the lane that it owns, or the shared queue of its
pool. A wait on the batch takes the head of the line. While the wait is in progress nothing is
submitted to the batch, so whatever the tasks do that run meanwhile, the line loses jobs at its
front or gains jobs of others at its end. Both bring the last job of the batch no further away.
-/

namespace TaskPool

open TaskPool.System

/-! ## Single queues -/

/-- A queue up to the last job of a batch. -/
def upTo (b : BatchId) (line : List (Job Work)) : List (Job Work) :=
  line.rdropWhile (·.batch ≠ some b)

section

variable {b : BatchId} {line added : List (Job Work)} {job : Job Work}

theorem upTo_starts (b : BatchId) (line : List (Job Work)) : upTo b line <+: line :=
  List.rdropWhile_prefix _ line

theorem upTo_eq_nil_iff : upTo b line = [] ↔ ∀ job ∈ line, job.batch ≠ some b := by
  simp [upTo]

theorem upTo_append (others : ∀ job ∈ added, job.batch ≠ some b) :
    upTo b (line ++ added) = upTo b line := by
  induction added using List.reverseRecOn with
  | nil => rw [List.append_nil]
  | append_singleton rest last ih =>
      have skipped : last.batch ≠ some b := others last (by simp)
      rw [← List.append_assoc, upTo, List.rdropWhile_concat_pos _ _ _ (by simp [skipped])]
      exact ih fun job member => others job (List.mem_append_left _ member)

/-- As long as the batch has a job in the queue, the head of the queue counts. -/
theorem upTo_cons (some' : upTo b (job :: line) ≠ []) :
    upTo b (job :: line) = job :: upTo b line := by
  induction line using List.reverseRecOn with
  | nil =>
      rw [upTo, List.rdropWhile_singleton] at some' ⊢
      split at some'
      · exact absurd rfl some'
      · next own =>
          rw [if_neg own]
          rfl
  | append_singleton rest last ih =>
      rw [← List.cons_append] at some' ⊢
      by_cases own : last.batch = some b
      · rw [upTo, upTo, List.rdropWhile_concat_neg _ _ _ (by simp [own]),
          List.rdropWhile_concat_neg _ _ _ (by simp [own])]
        rfl
      · have others : ∀ job ∈ [last], job.batch ≠ some b := by simpa using own
        rw [upTo_append others] at some' ⊢
        rw [upTo_append others]
        exact ih some'

/-- To lose the head brings the last job of the batch one place nearer. -/
theorem length_upTo_cons (job : Job Work) (line : List (Job Work)) :
    (upTo b line).length = (upTo b (job :: line)).length - 1 := by
  by_cases none : upTo b (job :: line) = []
  · rw [none, upTo_eq_nil_iff.mpr fun other member =>
      upTo_eq_nil_iff.mp none other (List.mem_cons_of_mem _ member)]
    rfl
  · rw [upTo_cons none]
    rfl

end

namespace Pool

variable {p rest : Pool Work} {inlet inlet' : Inlet} {job : Job Work} {t : TokenId}

theorem filter_lane {lanes before after : List (Lane Work)} {lane : Lane Work}
    (split : lanes = before ++ lane :: after) (once : (lanes.map (·.token)).Nodup) :
    lanes.filter (·.token = lane.token) = [lane] := by
  subst split
  simp only [List.map_append, List.map_cons] at once
  obtain ⟨_, once', apart⟩ := List.nodup_append.mp once
  have left : before.filter (·.token = lane.token) = [] := by
    simp only [List.filter_eq_nil_iff, decide_eq_true_eq]
    intro other member same
    exact apart _ (List.mem_map.mpr ⟨other, member, rfl⟩) _ List.mem_cons_self same
  have right : after.filter (·.token = lane.token) = [] := by
    simp only [List.filter_eq_nil_iff, decide_eq_true_eq]
    intro other member same
    exact (List.nodup_cons.mp once').1 (List.mem_map.mpr ⟨other, member, same⟩)
  simp [left, right]

theorem Loses.queue (loses : p.Loses inlet job rest) (once : (p.lanes.map (·.token)).Nodup)
    (inlet' : Inlet) :
    (inlet' = inlet ∧ p.queue inlet' = job :: rest.queue inlet') ∨
      (inlet' ≠ inlet ∧ rest.queue inlet' = p.queue inlet') := by
  cases loses with
  | shared front =>
      cases inlet' with
      | shared => exact .inl ⟨rfl, front⟩
      | lane t => exact .inr ⟨by simp, rfl⟩
  | @lane u _ lanes loses =>
      cases inlet' with
      | shared => exact .inr ⟨by simp, rfl⟩
      | lane t =>
          have once' := loses.tokens ▸ once
          obtain ⟨before, jobs, after, split, split'⟩ := loses
          by_cases same : t = u
          · subst same
            refine .inl ⟨rfl, ?_⟩
            simp only [Pool.queue, waitingIn, filter_lane split once, filter_lane split' once']
            simp
          · refine .inr ⟨by simp [same], ?_⟩
            simp [Pool.queue, waitingIn, split, split', Ne.symm same]

theorem queue_push (job : Job Work)
    (once : ∀ t, inlet = .lane t → (p.lanes.map (·.token)).count t = 1) (inlet' : Inlet) :
    (p.push inlet job).queue inlet' = p.queue inlet' ++ if inlet' = inlet then [job] else [] := by
  cases inlet with
  | shared => cases inlet' <;> simp [push, queue, waitingIn]
  | lane t =>
      cases inlet' with
      | shared => simp [push, queue]
      | lane u =>
          have lanes : ((Lane.push t job p.lanes).filter (·.token = u)) =
              Lane.push t job (p.lanes.filter (·.token = u)) := by
            simp only [Lane.push, List.filter_map]
            congr 1
            apply List.filter_congr
            intro lane _
            by_cases own : lane.token = t <;> simp [own]
          simp only [push, queue, waitingIn, lanes]
          by_cases same : u = t
          · subst same
            have one : (p.lanes.filter (·.token = u)).length = 1 := by
              rw [← once u rfl, List.count, List.countP_map, ← List.countP_eq_length_filter]
              rfl
            obtain ⟨lane, single⟩ := List.length_eq_one_iff.mp one
            have own : lane.token = u := by
              have member : lane ∈ p.lanes.filter (·.token = u) := by simp [single]
              exact of_decide_eq_true (List.mem_filter.mp member).2
            simp [single, Lane.push, own]
          · rw [Lane.push_eq_self]
            · simp [same]
            · intro lane member own
              have here := of_decide_eq_true (List.mem_filter.mp member).2
              exact same (here.symm.trans own)

theorem queue_release_of_ne (other : inlet ≠ .shared) (other' : inlet ≠ .lane t) :
    (p.release t).queue inlet = p.queue inlet := by
  cases inlet with
  | shared => exact absurd rfl other
  | lane u =>
      have apart : u ≠ t := fun same => other' (same ▸ rfl)
      simp only [queue, release, waitingIn, List.filter_filter]
      congr 1
      apply List.filter_congr
      intro lane _
      by_cases own : lane.token = u
      · simp [own, apart]
      · simp [own]

theorem queue_register (t : TokenId) (inlet : Inlet) :
    (p.register t).queue inlet = p.queue inlet := by
  cases inlet with
  | shared => rfl
  | lane u =>
      simp only [queue, register, waitingIn, List.filter_append, Lane.contents, List.flatMap_append]
      by_cases same : t = u <;> simp [same]

end Pool

/-! ## The line of a batch -/

namespace System

variable {s s' : System Work} {b c : BatchId} {p : PoolId} {t : TokenId}

def line (s : System Work) (b : BatchId) : List (Job Work) :=
  (s.poolOf b).queue (s.batch b).inlet

/-- What may happen to the line of a batch to which nothing is submitted. -/
inductive Feeds (b : BatchId) (s s' : System Work) : Prop where
  | gains {added} (line : s'.line b = s.line b ++ added)
      (others : ∀ job ∈ added, job.batch ≠ some b)
  | loses {job} (line : s.line b = job :: s'.line b)
      (gone : (s.poolOf b).contents.Perm (job :: (s'.poolOf b).contents))

namespace Feeds

theorem same (line : s'.line b = s.line b) : Feeds b s s' :=
  .gains (line.trans (List.append_nil _).symm) fun _ member => nomatch member

theorem upTo_le (feeds : Feeds b s s') :
    (upTo b (s'.line b)).length ≤ (upTo b (s.line b)).length := by
  cases feeds with
  | gains line others =>
      rw [line, upTo_append others]
  | @loses job line =>
      rw [line, length_upTo_cons job]
      exact Nat.sub_le _ _

end Feeds

theorem line_congr (kind : (s'.batch b).kind = (s.batch b).kind)
    (queue : ∀ inlet, (s'.poolOf b).queue inlet = (s.poolOf b).queue inlet) :
    s'.line b = s.line b := by
  have inlet : (s'.batch b).inlet = (s.batch b).inlet := by
    simp only [Batch.inlet, kind]
  rw [line, inlet]
  exact queue _

theorem poolOf_modifyPool_self (f : Pool Work → Pool Work)
    (known : (s.batch b).pool.index < s.pools.length) :
    (s.modifyPool (s.batch b).pool f).poolOf b = f (s.poolOf b) :=
  pool_modifyPool_self f known

theorem poolOf_modifyPool {f : Pool Work → Pool Work} (known : p.index < s.pools.length) :
    (p = (s.batch b).pool ∧ (s.modifyPool p f).poolOf b = f (s.poolOf b)) ∨
      (s.modifyPool p f).poolOf b = s.poolOf b := by
  by_cases same : p = (s.batch b).pool
  · subst same
    exact .inl ⟨rfl, poolOf_modifyPool_self f known⟩
  · exact .inr (pool_modifyPool_of_ne f same)

theorem Feeds.modifyPool {f : Pool Work → Pool Work}
    (queue : ∀ inlet, (f (s.pool p)).queue inlet = (s.pool p).queue inlet) :
    Feeds b s (s.modifyPool p f) :=
  .same (line_congr rfl fun inlet => pool_modifyPool_proj (·.queue inlet) (queue inlet) _)

theorem Feeds.modifyBatch {f : Batch → Batch} (pool : (f (s.batch c)).pool = (s.batch c).pool)
    (kind : (f (s.batch c)).kind = (s.batch c).kind) : Feeds b s (s.modifyBatch c f) := by
  have pool := batch_modifyBatch_proj (·.pool) pool b
  refine .same (line_congr (batch_modifyBatch_proj (·.kind) kind b) fun inlet => ?_)
  simp only [poolOf, pool]
  rfl

theorem Feeds.appendBatch {new : Batch} (known : b.index < s.batches.length) :
    Feeds b s { s with batches := s.batches ++ [new] } := by
  rcases batch_append_cases new b with ⟨_, same⟩ | ⟨last, _⟩
  · refine .same (line_congr (congrArg _ same) fun inlet => ?_)
    simp only [poolOf, same, pool]
  · omega

theorem Feeds.issueToken : Feeds b s (s.issueToken p).2.1 :=
  .same (line_congr rfl fun inlet =>
    pool_issueToken (·.queue inlet) (fun _ => Pool.queue_register _ inlet) _)

theorem Feeds.makeBatch (known : b.index < s.batches.length) (single : Bool) (multiplier : Nat) :
    Feeds b s (s.makeBatch p single multiplier).2.1 := by
  cases single with
  | false => exact .appendBatch known
  | true =>
      have appended : ((s.makeBatch p true multiplier).2.1).line b =
          (s.issueToken p).2.1.line b := by
        rcases batch_append_cases (s := (s.issueToken p).2.1)
          { pool := p, kind := .single (s.issueToken p).1, multiplier } b with ⟨_, same⟩ | ⟨last, _⟩
        · refine line_congr (congrArg _ same) fun inlet => ?_
          exact congrArg (fun made : Batch =>
            ((s.issueToken p).2.1.pool made.pool).queue inlet) same
        · exact absurd last (Nat.ne_of_lt known)
      refine .same (appended.trans (line_congr rfl fun inlet => ?_))
      exact pool_issueToken (·.queue inlet) (fun _ => Pool.queue_register _ inlet) _

theorem Feeds.take {source : Source} {job : Job Work}
    (once : ∀ p, ((s.pool p).lanes.map (·.token)).Nodup)
    (taken : s.take source = some (job, s')) : Feeds b s s' := by
  obtain ⟨p, _, inlet, rest, loses, rfl⟩ := take_loses taken
  have known := pool_known_of_mem (loses.perm.mem_iff.mpr List.mem_cons_self)
  rcases poolOf_modifyPool (b := b) (f := fun _ => rest) known with ⟨rfl, here⟩ | there
  · rcases loses.queue (once _) (s.batch b).inlet with ⟨_, front⟩ | ⟨_, same⟩
    · have line : (s.modifyPool (s.batch b).pool fun _ => rest).line b =
          rest.queue (s.batch b).inlet := congrArg (·.queue (s.batch b).inlet) here
      rw [← line] at front
      refine .loses front ?_
      rw [here]
      exact loses.perm
    · refine .same ?_
      exact (congrArg (·.queue (s.batch b).inlet) here).trans same
  · exact .same (congrArg (·.queue (s.batch b).inlet) there)

theorem Feeds.releaseToken (other : (s.batch b).kind ≠ .single t)
    (others : ∀ job ∈ (s.pool (s.token t).pool).waitingIn t, job.batch ≠ some b) :
    Feeds b s (s.releaseToken t).1 := by
  have changed : (s.releaseToken t).1.line b =
      ((s.modifyPool (s.token t).pool (·.release t)).poolOf b).queue (s.batch b).inlet := rfl
  by_cases known : (s.token t).pool.index < s.pools.length
  · rcases poolOf_modifyPool (b := b) (f := (·.release t)) known with ⟨own, here⟩ | there
    · rw [here] at changed
      cases kind : (s.batch b).kind with
      | single u =>
          have inlet : (s.batch b).inlet = .lane u := by simp only [Batch.inlet, kind]
          have apart : u ≠ t := fun same => other (same ▸ kind)
          rw [inlet, Pool.queue_release_of_ne (by simp) (by simp [apart])] at changed
          exact .same (changed.trans (by rw [line, inlet]))
      | multi =>
          have inlet : (s.batch b).inlet = .shared := by simp only [Batch.inlet, kind]
          rw [inlet] at changed
          have grown : (s.releaseToken t).1.line b = s.line b ++ (s.poolOf b).waitingIn t := by
            rw [changed, line, inlet]
            rfl
          refine .gains grown ?_
          rw [poolOf, ← own]
          exact others
    · rw [there] at changed
      exact .same changed
  · rw [modifyPool_unknown _ (Nat.le_of_not_lt known)] at changed
    exact .same changed

theorem Feeds.push {inlet : Inlet} {job : Job Work}
    (once : ∀ t, inlet = .lane t → ((s.pool p).lanes.map (·.token)).count t = 1)
    (other : job.batch ≠ some b) : Feeds b s (s.modifyPool p (·.push inlet job)) := by
  by_cases known : p.index < s.pools.length
  · rcases poolOf_modifyPool (b := b) (f := (·.push inlet job)) known with ⟨rfl, here⟩ | there
    · have pushed := Pool.queue_push job once (s.batch b).inlet
      refine .gains ((congrArg (·.queue (s.batch b).inlet) here).trans pushed) ?_
      intro waiting member
      split at member
      · cases List.mem_singleton.mp member
        exact other
      · cases member
    · exact .same (congrArg (·.queue (s.batch b).inlet) there)
  · rw [modifyPool_unknown _ (Nat.le_of_not_lt known)]
    exact .same rfl

theorem Feeds.after {r : System Work} (line : r.line b = s.line b) (pool : r.poolOf b = s.poolOf b)
    (feeds : Feeds b r s') : Feeds b s s' := by
  cases feeds with
  | gains line' others => exact .gains (line ▸ line') others
  | loses line' gone => exact .loses (line ▸ line') (pool ▸ gone)

theorem Feeds.count (wrapped : Option BatchId) (feeds : Feeds b (s.count wrapped) s') :
    Feeds b s s' := by
  have pool : ((s.count wrapped).batch b).pool = (s.batch b).pool := by
    cases wrapped with
    | none => rfl
    | some c =>
        exact batch_modifyBatch_proj (s := { s with submissions := s.submissions + 1 }) (·.pool)
          rfl b
  have kind : ((s.count wrapped).batch b).kind = (s.batch b).kind := by
    cases wrapped with
    | none => rfl
    | some c =>
        exact batch_modifyBatch_proj (s := { s with submissions := s.submissions + 1 }) (·.kind)
          rfl b
  have here : (s.count wrapped).poolOf b = s.poolOf b := by rw [poolOf, pool, count_pool, poolOf]
  exact feeds.after (line_congr kind fun inlet => by rw [here]) here

theorem Feeds.submit {entry : Entry} {work : Work} (other : entry.target ≠ .batch b)
    (once : ∀ t, (s.inletOf entry).2 = .lane t →
      ((s.pool (s.inletOf entry).1).lanes.map (·.token)).count t = 1) :
    Feeds b s (s.submit entry work).system := by
  cases submit_submits (s := s) entry work with
  | declined _ _ _ system =>
      rw [system]
      exact Feeds.count none (.same rfl)
  | admitted admits =>
      obtain ⟨_, ⟨_, system⟩ | ⟨_, system⟩⟩ := admits <;> rw [system]
      · exact Feeds.count _ (.same rfl)
      · refine Feeds.count _ (.push ?_ ?_)
        · rw [count_pool]
          exact once
        · intro wrapped
          cases target : entry.target with
          | pool | token => simp [target, Target.batch?] at wrapped
          | batch c =>
              rw [target] at wrapped other
              cases wrapped
              exact other rfl

/-- The source of a batch gives the head of its line. -/
theorem take_line {names : Table Object} (registry : Registry s names) {job : Job Work}
    {rest : List (Job Work)} (front : s.line b = job :: rest) :
    ∃ s', s.take (s.sourceOf b) = some (job, s') ∧ s'.line b = rest := by
  have known : (s.batch b).pool.index < s.pools.length :=
    pool_known_of_mem (Pool.mem_contents_of_queue (front ▸ List.mem_cons_self))
  cases kind : (s.batch b).kind with
  | multi =>
      have inlet : (s.batch b).inlet = .shared := by simp only [Batch.inlet, kind]
      rw [line, inlet] at front
      have shared : (s.pool (s.batch b).pool).shared = job :: rest := front
      refine ⟨s.modifyPool (s.batch b).pool fun _ =>
        { s.poolOf b with shared := rest, queued := (s.poolOf b).queued - 1 }, ?_, ?_⟩
      · simp only [sourceOf, kind, System.take, Pool.pop, shared]
        rfl
      · rw [line, poolOf_modifyPool_self _ known]
        exact congrArg (Pool.queue _) inlet
  | single t =>
      have inlet : (s.batch b).inlet = .lane t := by simp only [Batch.inlet, kind]
      rw [line, inlet] at front
      have own := (registry.owned b t kind).2.1
      have once : ((s.pool (s.batch b).pool).lanes.map (·.token)).Nodup := by
        rw [registry.lanes]
        exact nodup_openTokens s _
      have waiting : (s.pool (s.batch b).pool).waitingIn t ≠ [] := by
        rw [show (s.pool (s.batch b).pool).waitingIn t = job :: rest from front]
        exact List.cons_ne_nil _ _
      obtain ⟨⟨first, left⟩, popped⟩ :=
        Option.isSome_iff_exists.mp ((Pool.popLane_isSome once).mpr waiting)
      have loses := Pool.loses_of_popLane popped
      rcases loses.queue once (.lane t) with ⟨_, split⟩ | ⟨wrong, _⟩
      · obtain ⟨rfl, rfl⟩ := List.cons.inj (front.symm.trans split)
        refine ⟨s.modifyPool (s.batch b).pool fun _ => left, ?_, ?_⟩
        · simp only [sourceOf, kind, System.take, own, popped]
        · rw [line, poolOf_modifyPool_self _ known]
          exact congrArg (Pool.queue _) inlet
      · exact absurd rfl wrong

end System

/-! ## While the batch is waited for -/

namespace Scene

variable {σ σ' : Scene} {b : BatchId} {opening : Opening}

/-- Nobody may submit to the batch: it is waited for, or it is being closed. -/
def Barred (σ : Scene) (b : BatchId) : Prop :=
  ⟨.batch b, .exclude⟩ ∈ σ.loans ∨ σ.system.Closing (.batch b)

theorem Sound.barred (sound : σ.Sound) {budget : Option Nat} {goal : Goal}
    (member : .waiting b budget goal ∈ σ.frames) : σ.Barred b := by
  obtain ⟨above, below, split⟩ := List.append_of_mem member
  by_cases asked : goal = .close
  · subst asked
    refine .inr (sound.custody.closing (.batch b) ?_)
    simp [split, Frame.closing?]
  · have stacked : ∀ frames, Stacked σ.system (frames ++ .waiting b budget goal :: below) →
        Frame.Fits σ.system (.waiting b budget goal) below := by
      intro frames stacked
      induction frames with
      | nil => exact stacked.1
      | cons frame rest ih => exact ih stacked.2
    have fits := stacked above (split ▸ sound.custody.stacked)
    obtain ⟨onFailure, caught, rest, rfl⟩ := fits.asked asked
    have inside : .call [⟨.batch b, .exclude⟩] onFailure caught ∈ σ.frames := by simp [split]
    exact .inl (held_nameable sound.registry sound.custody inside _ List.mem_cons_self).1

theorem Barred.not_closed (barred : σ.Barred b) (sound : σ.Sound) :
    (σ.system.batch b).stage ≠ .closed := by
  rcases barred with excluded | closing
  · obtain ⟨name, found⟩ := sound.custody.named _ excluded
    exact Stage.opened (sound.registry.named name _ (Table.mem_of_find? found))
  · exact fun closed => Stage.noConfusion (closed.symm.trans closing)

theorem Barred.not_target (barred : σ.Barred b) (registry : Registry σ.system σ.names)
    {entry : Entry} (lent : σ.Lends (entry.target.loans .share)) : entry.target ≠ .batch b := by
  intro target
  rw [target] at lent
  obtain ⟨⟨name, found⟩, _, shares⟩ := lent _ List.mem_cons_self
  rcases barred with excluded | closing
  · exact shares rfl excluded
  · exact not_closing (registry.named name _ (Table.mem_of_find? found)) closing

theorem Sound.lane_others (sound : σ.Sound) {t : TokenId}
    (opened : (σ.system.batch b).stage ≠ .closed) (other : (σ.system.batch b).kind ≠ .single t)
    {p : PoolId} {job : Job Work} (member : job ∈ (σ.system.pool p).waitingIn t) :
    job.batch ≠ some b := by
  intro wrapped
  have queued : job ∈ (σ.system.pool p).queue (.lane t) := member
  have filing := (sound.filed p).of_queue queued
  cases kind : (σ.system.batch b).kind with
  | multi => exact Inlet.noConfusion (filing.multi b wrapped kind)
  | single u =>
      rcases filing.single b u wrapped kind with same | ⟨_, closed⟩
      · exact other (kind.trans (congrArg _ (Inlet.lane.inj same).symm))
      · exact opened closed

theorem Lends.feeds (registry : Registry σ.system σ.names) (barred : σ.Barred b) {entry : Entry}
    (lent : σ.Lends (entry.target.loans .share)) {work : Work} {made : Submission Work}
    (submits : σ.system.submit entry work = made) : σ.system.Feeds b made.system := by
  rw [← submits]
  refine .submit (barred.not_target registry lent) fun t lane => ?_
  obtain ⟨opened, pool⟩ := lent.lane_open registry lane
  rw [pool]
  exact registry.count_lane opened

theorem Opens.feeds (opens : σ.Opens opening) (sound : σ.Sound) (barred : σ.Barred b) :
    σ.system.Feeds b opening.system := by
  have registry := sound.registry
  have opened := barred.not_closed sound
  have known := System.batch_known opened
  cases opens with
  | rests | pauses | waits | triesToWait | sweeps => exact .same rfl
  | startsPool =>
      refine .same (line_congr rfl fun inlet => ?_)
      have live := Stage.opened (registry.batches b opened)
      exact congrArg (·.queue inlet) (pool_startPool _ _ live)
  | issuesToken => exact .issueToken
  | makesBatch => exact .makeBatch known _ _
  | dropsToken named =>
      have unowned := (registry.named _ _ (Table.mem_of_find? named)).2 b
      exact .releaseToken unowned fun job member => sound.lane_others opened unowned member
  | dropsBatch => exact .modifyBatch rfl rfl
  | dropsPool => exact .modifyPool fun inlet => by cases inlet <;> rfl
  | queues lent submits => exact lent.feeds registry barred submits
  | runsInline lent submits => exact lent.feeds registry barred submits
  | executes _ taken => exact .take (fun p => registry.lanes p ▸ nodup_openTokens _ p) taken

/-- Whatever happens while a batch is waited for, its line is fed or loses its head. -/
theorem Moves.feeds (moves : σ.Moves σ') (sound : σ.Sound) (barred : σ.Barred b)
    (still : (σ'.system.batch b).stage ≠ .closed) : σ.system.Feeds b σ'.system := by
  have registry := sound.registry
  have once : ∀ p, ((σ.system.pool p).lanes.map (·.token)).Nodup :=
    fun p => registry.lanes p ▸ nodup_openTokens _ p
  cases moves with
  | advances | leaves | passes | finishes | ends | unwinds | contains | sweepEnds =>
      exact .same rfl
  | opens _ _ opens => exact opens.feeds sound barred
  | settles =>
      simp only [settle_system]
      exact .modifyBatch rfl rfl
  | delivers =>
      simp only [deliver_system]
      exact .modifyBatch rfl rfl
  | sweeps _ _ taken => exact .take once taken
  | helps _ _ _ taken => exact .take once taken
  | drains _ taken => exact .take once taken
  | closesPool => exact .modifyPool fun inlet => by cases inlet <;> rfl
  | @closesBatch c =>
      have opened := barred.not_closed sound
      have apart : c ≠ b := by
        rintro rfl
        exact still (closeBatch_stage (System.batch_known opened))
      have ended : ((σ.system.endBatch c).batch b) = σ.system.batch b := by
        rw [endBatch, batch_modifyBatch_of_ne _ apart, deliver_system,
          batch_modifyBatch_of_ne _ apart]
      have line : (σ.system.endBatch c).line b = σ.system.line b :=
        line_congr (congrArg _ ended) fun inlet => by
          rw [poolOf, ended]
          rfl
      simp only [closeBatch_system]
      cases kind : (σ.system.batch c).kind with
      | multi => exact .same line
      | single t =>
          have unowned : (σ.system.batch b).kind ≠ .single t :=
            fun owns => apart (registry.owner c b t kind owns)
          refine .after (r := σ.system.endBatch c) line ?_ (.releaseToken ?_ ?_)
          · rw [poolOf, ended]
            rfl
          · rw [ended]
            exact unowned
          · exact fun job member => sound.lane_others opened unowned member

end Scene

end TaskPool
