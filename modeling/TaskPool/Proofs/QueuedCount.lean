import Mathlib.Algebra.GroupWithZero.Nat
import TaskPool.Proofs.OutstandingCount

/-!
# The running count of a pool

A pool counts its queued jobs when they enter and when they are taken, never when they move. The
count agrees with the queues because every change of a queue is one of these: a job enters one
inlet, leaves one inlet, or moves from a dissolved lane to the shared queue. Which pool was asked
does not matter, since a token leads to the pool that issued it.
-/

namespace TaskPool

open TaskPool.System

namespace Pool

variable {p rest : Pool Work} {inlet : Inlet} {token : TokenId} {job : Job Work}

def size (p : Pool Work) : Nat := p.shared.length + (p.lanes.map (·.jobs.length)).sum

theorem length_contents (p : Pool Work) : p.contents.length = p.size := by
  simp [contents, size, Lane.contents, List.length_flatMap]

def Counted (p : Pool Work) : Prop := p.queued = p.size

namespace Counted

theorem of_same {q : Pool Work} (counted : p.Counted) (queued : q.queued = p.queued)
    (perm : q.contents.Perm p.contents) : q.Counted := by
  rw [Counted, queued, counted, ← length_contents, ← length_contents, perm.length_eq]

/-- Before a job is taken the count is not zero, so it never wraps. -/
theorem positive (counted : p.Counted) (loses : p.Loses inlet job rest) : 0 < p.queued := by
  have filled := loses.perm.length_eq
  rw [length_contents, ← counted, List.length_cons] at filled
  omega

theorem loses (counted : p.Counted) (loses : p.Loses inlet job rest) : rest.Counted := by
  have left : rest.queued = p.queued - 1 := by cases loses <;> rfl
  have filled := loses.perm.length_eq
  rw [length_contents, ← counted, List.length_cons, length_contents] at filled
  rw [Counted, left]
  omega

theorem push (counted : p.Counted) (job : Job Work)
    (once : ∀ token, inlet = .lane token → (p.lanes.map (·.token)).count token = 1) :
    (p.push inlet job).Counted := by
  have grown := (push_perm job once).length_eq
  rw [List.length_cons, length_contents, length_contents, ← counted] at grown
  rw [Counted, queued_push, grown]

theorem release (counted : p.Counted) (token : TokenId) : (p.release token).Counted :=
  counted.of_same (queued_release token p) (release_perm token p)

theorem register (counted : p.Counted) (token : TokenId) : (p.register token).Counted :=
  counted.of_same rfl (.of_eq (contents_register token p))

theorem pop_isSome (counted : p.Counted) : p.pop.isSome ↔ 0 < p.queued := by
  rw [Option.isSome_iff_ne_none, ne_eq, pop_eq_none_iff, ← List.length_eq_zero_iff,
    length_contents, ← counted]
  omega

end Counted

theorem popLane_isSome (once : (p.lanes.map (·.token)).Nodup) :
    (p.popLane token).isSome ↔ p.waitingIn token ≠ [] := by
  have key : ∀ lanes : List (Lane Work), (lanes.map (·.token)).Nodup →
      ((Lane.takeFrom token lanes).isSome ↔
        Lane.contents (lanes.filter (·.token = token)) ≠ []) := by
    intro lanes once
    induction lanes with
    | nil => simp [Lane.takeFrom]
    | cons lane tail ih =>
        obtain ⟨absent, once⟩ := List.nodup_cons.mp once
        by_cases own : lane.token = token
        · subst own
          have none : tail.filter (·.token = lane.token) = [] := by
            simp only [List.filter_eq_nil_iff, decide_eq_true_eq]
            intro other member same
            exact absent (List.mem_map.mpr ⟨other, member, same⟩)
          cases waiting : lane.jobs <;> simp [Lane.takeFrom, waiting, none]
        · simp only [Lane.takeFrom, own, if_false, Option.isSome_map, decide_false,
            Bool.false_eq_true, not_false_eq_true, List.filter_cons_of_neg]
          exact ih once
  rw [popLane, Option.isSome_map]
  exact key p.lanes once

end Pool

namespace System

variable {s s' : System Work} {p : PoolId} {b : BatchId}

def Counted (s : System Work) : Prop := ∀ p, (s.pool p).Counted

/-- There is a job to be found. A lane is looked up before the pool that was asked. -/
def HasWork (s : System Work) : Source → Prop
  | .pool receiver => 0 < (s.pool receiver).queued
  | .lane receiver t =>
    (s.pool (s.token t).pool).waitingIn t ≠ [] ∨ 0 < (s.pool receiver).queued

namespace Counted

theorem modifyPool (counted : s.Counted) {f : Pool Work → Pool Work}
    (kept : (s.pool p).Counted → (f (s.pool p)).Counted) : (s.modifyPool p f).Counted :=
  forall_pool (fun _ pool => pool.Counted) counted kept

theorem startPool (counted : s.Counted) (reasons : Nat → Option String) (config : PoolConfig) :
    (s.startPool reasons config).2.1.Counted :=
  forall_pool_append (fun _ pool => pool.Counted) counted rfl

theorem issueToken (counted : s.Counted) : (s.issueToken p).2.1.Counted :=
  modifyPool (s := { s with tokens := s.tokens ++ [{ pool := p }] }) counted
    fun here => here.register _

theorem makeBatch (counted : s.Counted) (single : Bool) (multiplier : Nat) :
    (s.makeBatch p single multiplier).2.1.Counted := by
  cases single with
  | true => exact counted.issueToken (p := p)
  | false => exact counted

theorem releaseToken (counted : s.Counted) (t : TokenId) : (s.releaseToken t).1.Counted :=
  counted.modifyPool fun here => here.release t

theorem closeBatch (counted : s.Counted) : (s.closeBatch b).1.Counted := by
  rw [closeBatch_system]
  cases (s.batch b).kind with
  | single t => exact releaseToken (s := s.endBatch b) counted t
  | multi => exact counted

/-- Exactly one pool gives the job away, and its count, which was not zero, goes down by one. -/
theorem take (counted : s.Counted) {source : Source} {job : Job Work}
    (taken : s.take source = some (job, s')) :
    s'.Counted ∧ ∃ p ∈ s.reach source, (s'.pool p).queued + 1 = (s.pool p).queued ∧
      ∀ q, q ≠ p → s'.pool q = s.pool q := by
  obtain ⟨p, reached, inlet, rest, loses, rfl⟩ := take_loses taken
  refine ⟨counted.modifyPool fun here => here.loses loses, p, reached, ?_, ?_⟩
  · have known := pool_known_of_mem (loses.perm.mem_iff.mpr List.mem_cons_self)
    have positive := (counted p).positive loses
    have left : rest.queued = (s.pool p).queued - 1 := by cases loses <;> rfl
    rw [pool_modifyPool_self _ known, left]
    omega
  · exact fun q other => pool_modifyPool_of_ne _ other.symm

theorem take_isSome {names : Table Object} (counted : s.Counted) (registry : Registry s names)
    (source : Source) : (s.take source).isSome ↔ s.HasWork source := by
  cases source with
  | pool receiver =>
      simp only [System.take, Option.isSome_map, HasWork]
      exact (counted receiver).pop_isSome
  | lane receiver t =>
      have once : ((s.pool (s.token t).pool).lanes.map (·.token)).Nodup := by
        rw [registry.lanes]
        exact nodup_openTokens s _
      rw [HasWork, ← Pool.popLane_isSome once, ← (counted receiver).pop_isSome]
      simp only [System.take]
      cases (s.pool (s.token t).pool).popLane t <;> simp

end Counted

theorem Counted.le_jobs (counted : s.Counted) (p : PoolId) :
    (s.pool p).queued ≤ s.jobs.length := by
  rw [counted p, ← Pool.length_contents]
  by_cases known : p.index < s.pools.length
  · obtain ⟨others, perm, _⟩ := jobs_modifyPool (p := p) id known
    rw [perm.length_eq, List.length_append]
    omega
  · rw [pool_unknown (Nat.le_of_not_lt known)]
    exact Nat.zero_le _

end System

namespace Scene

variable {σ σ' : Scene} {opening : Opening}

theorem Lends.counted (registry : Registry σ.system σ.names) {entry : Entry} {hold : Hold}
    (lent : σ.Lends (entry.target.loans hold)) {work : Work} {made : Submission Work}
    (submits : σ.system.submit entry work = made) (counted : σ.system.Counted) :
    made.system.Counted := by
  have before : ∀ wrapped, (σ.system.count wrapped).Counted := by
    intro wrapped p
    rw [count_pool]
    exact counted p
  cases submits ▸ submit_submits (s := σ.system) entry work with
  | declined _ _ _ system => exact system ▸ before none
  | admitted admits =>
      obtain ⟨_, ⟨_, system⟩ | ⟨_, system⟩⟩ := admits
      · exact system ▸ before _
      · rw [system]
        refine (before _).modifyPool fun here => here.push _ ?_
        intro t lane
        obtain ⟨opened, pool⟩ := lent.lane_open registry lane
        rw [count_pool, pool]
        exact registry.count_lane opened

theorem Opens.counted (opens : σ.Opens opening) (registry : Registry σ.system σ.names)
    (counted : σ.system.Counted) : opening.system.Counted := by
  cases opens with
  | rests | pauses | waits | triesToWait | sweeps | dropsBatch => exact counted
  | startsPool => exact counted.startPool _ _
  | issuesToken => exact counted.issueToken
  | makesBatch => exact counted.makeBatch _ _
  | dropsToken => exact counted.releaseToken _
  | dropsPool => exact counted.modifyPool fun here => here.of_same rfl (.refl _)
  | queues lent submits => exact lent.counted registry submits counted
  | runsInline lent submits => exact lent.counted registry submits counted
  | executes _ taken => exact (counted.take taken).1

theorem Moves.counted (moves : σ.Moves σ') (registry : Registry σ.system σ.names)
    (counted : σ.system.Counted) : σ'.system.Counted := by
  cases moves with
  | advances | leaves | passes | finishes | ends | unwinds | contains | sweepEnds => exact counted
  | opens _ _ opens => exact opens.counted registry counted
  | settles =>
      simp only [settle_system]
      exact counted
  | delivers =>
      simp only [deliver_system]
      exact counted
  | sweeps _ _ taken => exact (counted.take taken).1
  | helps _ _ _ taken => exact (counted.take taken).1
  | drains _ taken => exact (counted.take taken).1
  | closesBatch => exact counted.closeBatch
  | closesPool => exact counted.modifyPool fun here => here.of_same rfl (.refl _)

/-- Every pool counts its jobs, and there are at most as many of them as submissions. -/
structure Counts (σ : Scene) : Prop where
  counted : σ.system.Counted
  bounded : σ.system.jobs.length ≤ σ.system.submissions

theorem Counts.load (bodies : Table (List Op)) (host : Host) (ops : List Op) :
    (Machine.load bodies host ops).scene.Counts where
  counted _ := rfl
  bounded := Nat.le_refl 0

theorem Shift.bounded (shift : σ.Shift σ')
    (bounded : σ.system.jobs.length ≤ σ.system.submissions) :
    σ'.system.jobs.length ≤ σ'.system.submissions := by
  cases shift with
  | rests steady => exact steady.count ▸ steady.jobs.length_eq ▸ bounded
  | queues _ jobs _ count =>
      rw [jobs.length_eq, count, List.length_cons]
      omega
  | runs _ jobs _ count =>
      rw [jobs.length_eq, count]
      omega
  | starts jobs _ count =>
      rw [jobs.length_eq, List.length_cons] at bounded
      omega
  | ends system => exact system ▸ bounded
  | settles jobs _ count => exact count ▸ jobs.length_eq ▸ bounded

theorem Moves.counts (moves : σ.Moves σ') (sound : σ.Sound) (counts : σ.Counts) : σ'.Counts where
  counted := moves.counted sound.registry counts.counted
  bounded := (moves.shift sound).bounded counts.bounded

end Scene

namespace Machine

variable {m : Machine}

theorem Solo.counts (solo : m.Solo) : m.scene.Counts :=
  solo.invariant Scene.Counts.load fun sound counts moves => moves.counts sound counts

theorem Solo.counted (solo : m.Solo) : m.world.system.Counted := solo.counts.counted

end Machine

end TaskPool
