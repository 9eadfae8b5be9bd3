import TaskPool.Proofs.ObjectChanges

/-!
# What is settled when an object is made

A pool keeps the number of its workers and a token the pool that issued it, whatever the threads of
a machine do: numbers are never used again, and nothing changes these two. A token that has a name
is not released while an operation uses it.
-/

namespace TaskPool

open TaskPool.System

namespace System

variable {s s' : System Work} {p : PoolId} {t : TokenId} {b : BatchId}

/-- Pools and tokens are still known and are what they were made as. -/
structure Retains (s s' : System Work) : Prop where
  pools : s.pools.length ≤ s'.pools.length
  workers : ∀ p : PoolId, p.index < s.pools.length → (s'.pool p).workers = (s.pool p).workers
  tokens : s.tokens.length ≤ s'.tokens.length
  issuer : ∀ t : TokenId, t.index < s.tokens.length → (s'.token t).pool = (s.token t).pool

namespace Retains

theorem refl (s : System Work) : s.Retains s :=
  ⟨Nat.le_refl _, fun _ _ => rfl, Nat.le_refl _, fun _ _ => rfl⟩

theorem trans {r : System Work} (first : s.Retains s') (second : s'.Retains r) : s.Retains r where
  pools := Nat.le_trans first.pools second.pools
  workers p known :=
    (second.workers p (Nat.lt_of_lt_of_le known first.pools)).trans (first.workers p known)
  tokens := Nat.le_trans first.tokens second.tokens
  issuer t known :=
    (second.issuer t (Nat.lt_of_lt_of_le known first.tokens)).trans (first.issuer t known)

theorem of_remains (remains : s.Remains s') : s.Retains s' where
  pools := Nat.le_of_eq remains.pools.symm
  workers p _ := remains.workers p
  tokens := Nat.le_of_eq (congrArg List.length remains.tokens.symm)
  issuer t _ := by simp only [token, remains.tokens]

theorem modifyPool {f : Pool Work → Pool Work}
    (workers : (f (s.pool p)).workers = (s.pool p).workers) : s.Retains (s.modifyPool p f) where
  pools := Nat.le_of_eq (List.length_modify ..).symm
  workers q known := by
    by_cases same : p = q
    · subst same
      rw [pool_modifyPool_self f known, workers]
    · rw [pool_modifyPool_of_ne f same]
  tokens := Nat.le_refl _
  issuer _ _ := rfl

theorem modifyToken {f : Token → Token} (issuer : (f (s.token t)).pool = (s.token t).pool) :
    s.Retains (s.modifyToken t f) where
  pools := Nat.le_refl _
  workers _ _ := rfl
  tokens := Nat.le_of_eq (List.length_modify ..).symm
  issuer u known := by
    by_cases same : t = u
    · subst same
      rw [token_modifyToken_self f known, issuer]
    · rw [token_modifyToken_of_ne f same]

theorem batches (s : System Work) (batches : List Batch) : s.Retains { s with batches } :=
  ⟨Nat.le_refl _, fun _ _ => rfl, Nat.le_refl _, fun _ _ => rfl⟩

theorem startPool (s : System Work) (reasons : Nat → Option String) (config : PoolConfig) :
    s.Retains (s.startPool reasons config).2.1 where
  pools := by simp [System.startPool]
  workers q known := by
    simp only [System.startPool, pool, List.getD_eq_getElem?_getD, List.getElem?_append_left known]
  tokens := Nat.le_refl _
  issuer _ _ := rfl

theorem issueToken (s : System Work) (p : PoolId) : s.Retains (s.issueToken p).2.1 := by
  have appended : s.Retains { s with tokens := s.tokens ++ [{ pool := p }] } := by
    refine ⟨Nat.le_refl _, fun _ _ => rfl, by simp, fun t known => ?_⟩
    simp only [token, List.getD_eq_getElem?_getD, List.getElem?_append_left known]
  exact appended.trans (.modifyPool rfl)

theorem makeBatch (s : System Work) (p : PoolId) (single : Bool) (multiplier : Nat) :
    s.Retains (s.makeBatch p single multiplier).2.1 := by
  cases single with
  | true => exact (issueToken s p).trans (.batches _ _)
  | false => exact .batches s _

theorem releaseToken (s : System Work) (t : TokenId) : s.Retains (s.releaseToken t).1 :=
  .trans (modifyPool rfl) (modifyToken rfl)

theorem closeBatch (s : System Work) (b : BatchId) : s.Retains (s.closeBatch b).1 := by
  have delivered := of_remains (.deliver s b)
  unfold System.closeBatch
  cases (s.batch b).kind with
  | multi => exact delivered.trans (.batches _ _)
  | single t => exact delivered.trans ((releaseToken _ t).trans (.batches _ _))

end Retains

end System

theorem World.Amends.retains {w w' : World} {frame : Frame} {new : List Frame}
    (amends : w.Amends frame w' new) : w.system.Retains w'.system := by
  cases amends with
  | keeps system => exact .of_remains system
  | startsPool _ system | startsShared _ system => exact system ▸ .startPool ..
  | sharesPool _ _ system | movesAway _ _ system | comesBack _ system => exact system ▸ .refl _
  | issuesToken _ _ system => exact system ▸ .issueToken ..
  | makesBatch _ _ system => exact system ▸ .makeBatch ..
  | dropsPool _ _ _ system => exact .of_remains system
  | dropsToken _ _ system => exact system ▸ .releaseToken ..
  | dropsBatch _ _ system => exact system ▸ .batches ..
  | closesBatch _ system => exact system ▸ .closeBatch ..

/-- A token that stands alone is released only when it is not in use. -/
theorem World.Amends.token_listed {w w' : World} {frame : Frame} {new : List Frame} {t : TokenId}
    (amends : w.Amends frame w' new) (listed : w.system.Listed (.token t))
    (used : w.inUse (.token t) = true) : w'.system.Listed (.token t) := by
  cases amends with
  | keeps system | dropsPool _ _ _ system => exact listed.keeps system
  | startsPool _ system | startsShared _ system => exact system ▸ listed.startPool ..
  | sharesPool _ _ system | movesAway _ _ system | comesBack _ system => exact system ▸ listed
  | issuesToken _ _ system => exact system ▸ listed.issueToken _
  | @makesBatch name p single multiplier _ _ system =>
      rw [system]
      cases single with
      | false => exact listed.appendBatch nofun
      | true =>
          refine (listed.issueToken p).appendBatch ?_
          rintro _ ⟨⟩ same
          cases same
          exact Nat.lt_irrefl _ (token_known listed.1)
  | dropsToken _ free system =>
      refine system ▸ listed.releaseToken ?_
      rintro ⟨⟩
      rw [free] at used
      cases used
  | dropsBatch _ _ system => exact system ▸ listed.moveBatch .closing nofun
  | closesBatch _ system => exact system ▸ listed.closeBatch nofun

theorem Machine.token_listed_run {m : Machine} {t : TokenId} {turns : Nat}
    (ledger : Ledger m.world m.frames) (listed : m.world.system.Listed (.token t))
    (used : ∀ k < turns, (m.run k).world.inUse (.token t) = true) :
    (m.run turns).world.system.Listed (.token t) := by
  induction turns with
  | zero => exact listed
  | succ turns ih =>
      have before := ih fun k few => used k (Nat.lt_succ_of_lt few)
      rw [run_add]
      cases stepped : (m.run turns).step with
      | some next =>
          obtain ⟨_, _, amends⟩ := step_amends (ledger_run ledger turns) stepped
          rw [run_one stepped]
          exact amends.token_listed before (used turns (Nat.lt_succ_self turns))
      | none =>
          rw [run_stuck stepped]
          exact before

theorem Machine.retains_run {m : Machine} (ledger : Ledger m.world m.frames) (turns : Nat) :
    m.world.system.Retains (m.run turns).world.system := by
  induction turns generalizing m with
  | zero => exact .refl _
  | succ turns ih =>
      cases stepped : m.step with
      | some next =>
          obtain ⟨_, _, amends⟩ := step_amends ledger stepped
          rw [run_of_step stepped]
          exact amends.retains.trans (ih (ledger_step ledger stepped))
      | none =>
          rw [run_stuck stepped]
          exact .refl _

end TaskPool
