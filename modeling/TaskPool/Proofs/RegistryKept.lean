import TaskPool.Proofs.Loans

/-!
# The registry is kept

Every turn keeps the registry. The drops need what is known of the stack: a frame that closes
something has it closed to everybody else since before, so no name and no open token or batch leads
there.
-/

namespace TaskPool

open TaskPool.System

section

variable {s : System Work} {names : Table Object} {p : PoolId}

theorem System.nameable_startPool (reasons : Nat → Option String) (config : PoolConfig)
    (s : System Work) :
    (s.startPool reasons config).2.1.Nameable (.pool (s.startPool reasons config).1) := by
  simp [System.startPool, Nameable, System.pool, List.getD_eq_getElem?_getD, Pool.start]

theorem System.independent (free : s.dependsOnPool p = false) :
    (∀ t, (s.token t).stage ≠ .closed → (s.token t).pool ≠ p) ∧
      ∀ b, (s.batch b).stage ≠ .closed → (s.batch b).pool ≠ p := by
  simp only [dependsOnPool, Bool.or_eq_false_iff, List.any_eq_false, Bool.and_eq_true,
    beq_iff_eq, bne_iff_ne, not_and] at free
  constructor
  · intro t opened own
    refine free.1 (s.token t) ?_ own opened
    simp [System.token, List.getD_eq_getElem?_getD, token_known opened]
  · intro b opened own
    refine free.2 (s.batch b) ?_ own opened
    simp [System.batch, List.getD_eq_getElem?_getD, System.batch_known opened]

theorem Registry.fresh_pool (registry : Registry s names) (name : String) :
    (name, .pool ⟨s.pools.length⟩) ∉ names := by
  intro member
  have known := pool_known (Stage.opened (registry.named name _ member))
  exact Nat.lt_irrefl _ known

theorem Registry.fresh_token (registry : Registry s names) (name : String) :
    (name, .token ⟨s.tokens.length⟩) ∉ names := by
  intro member
  have known := token_known (registry.named name _ member).1
  exact Nat.lt_irrefl _ known

theorem Registry.fresh_batch (registry : Registry s names) (name : String) :
    (name, .batch ⟨s.batches.length⟩) ∉ names := by
  intro member
  have known := System.batch_known (Stage.opened (registry.named name _ member))
  exact Nat.lt_irrefl _ known

theorem Registry.makeBatch (registry : Registry s names) (live : (s.pool p).stage = .live)
    (single : Bool) (multiplier : Nat) : Registry (s.makeBatch p single multiplier).2.1 names := by
  cases single with
  | true =>
      refine (registry.issueToken live).appendBatch ?_ rfl ?_
      · exact (pool_issueToken (·.stage) (fun _ => rfl) p).trans live
      · intro t owns
        cases owns
        have nameable := registry.nameable_issueToken p
        refine ⟨nameable.1, ?_, nameable.2, registry.fresh_token⟩
        exact congrArg Token.pool token_issueToken_self
  | false => exact registry.appendBatch live rfl fun _ owns => nomatch owns

theorem System.nameable_makeBatch (p : PoolId) (single : Bool) (multiplier : Nat)
    (s : System Work) : (s.makeBatch p single multiplier).2.1.Nameable
      (.batch (s.makeBatch p single multiplier).1) := by
  cases single <;>
    simp [System.makeBatch, System.issueToken, System.modifyPool, Nameable, System.batch,
      List.getD_eq_getElem?_getD]

theorem Registry.endBatch (registry : Registry s names) {b : BatchId}
    (closing : s.Closing (.batch b)) : Registry (s.endBatch b) names := by
  have unnamed : ∀ name, (name, .batch b) ∉ names :=
    fun name member => not_closing (registry.named name _ member) closing
  have delivered : Registry (s.deliver b).2 names := registry.alike (.deliver _ _)
  exact delivered.moveBatch .closed unnamed fun _ => rfl

theorem Registry.owner_closed (registry : Registry s names) {b : BatchId}
    (closing : s.Closing (.batch b)) {t : TokenId} (owns : (s.batch b).kind = .single t)
    (c : BatchId) (owns' : ((s.endBatch b).batch c).kind = .single t) :
    ((s.endBatch b).batch c).stage = .closed := by
  rw [endBatch_kind] at owns'
  cases registry.owner b c t owns owns'
  refine endBatch_stage (System.batch_known fun closed => ?_)
  exact Stage.noConfusion (closed.symm.trans closing)

/-- A closing batch loses its token last. -/
theorem Registry.closeBatch (registry : Registry s names) {b : BatchId}
    (closing : s.Closing (.batch b)) : Registry (s.closeBatch b).1 names := by
  have ended := registry.endBatch closing
  rw [closeBatch_system]
  cases owns : (s.batch b).kind with
  | multi => exact ended
  | single t =>
      refine ended.releaseToken ?_ (registry.owner_closed closing owns)
      exact fun name member => (registry.named name _ member).2 b owns

end

namespace Scene

variable {σ σ' : Scene} {opening : Opening}

theorem Opens.registry (opens : σ.Opens opening) (registry : Registry σ.system σ.names) :
    Registry opening.system opening.names := by
  have nameable : ∀ {name : String} {object : Object}, σ.names.find? name = some object →
      σ.system.Nameable object :=
    fun named => registry.named _ _ (Table.mem_of_find? named)
  cases opens with
  | rests | pauses | waits | triesToWait | sweeps => exact registry
  | startsPool unknown alone =>
      exact (registry.startPool alone).put unknown (nameable_startPool ..) registry.fresh_pool
  | issuesToken unknown named =>
      obtain ⟨_, named⟩ := named
      exact (registry.issueToken (nameable named)).put unknown (registry.nameable_issueToken _)
        registry.fresh_token
  | makesBatch unknown named =>
      obtain ⟨_, named⟩ := named
      apply (registry.makeBatch (nameable named) _ _).put unknown (nameable_makeBatch _ _ _ _)
      cases ‹Bool› <;> exact registry.fresh_batch
  | dropsToken named =>
      apply (registry.remove _).releaseToken (registry.unnamed named)
      intro b owns
      exact absurd owns ((nameable named).2 b)
  | dropsBatch named =>
      apply (registry.remove _).moveBatch .closing (registry.unnamed named)
      intro closed
      exact absurd closed (Stage.opened (nameable named))
  | dropsPool named _ independent =>
      obtain ⟨tokens, batches⟩ := System.independent independent
      exact (registry.remove _).movePool .closing (registry.unnamed named) tokens batches
        fun wrong => nomatch wrong
  | queues lent submits => exact submits ▸ registry.alike (lent.alike registry _)
  | runsInline lent submits => exact submits ▸ registry.alike (lent.alike registry _)
  | executes _ taken => exact registry.alike (.take taken)

theorem Moves.registry (moves : σ.Moves σ') (registry : Registry σ.system σ.names)
    (custody : Custody σ) : Registry σ'.system σ'.names := by
  cases moves with
  | advances | leaves | passes | finishes | ends | unwinds | contains | sweepEnds => exact registry
  | opens _ _ opens => exact opens.registry registry
  | settles => exact registry.alike (.settle _ _ _ _)
  | delivers => exact registry.alike (.deliver _ _)
  | sweeps _ _ taken => exact registry.alike (.take taken)
  | helps _ _ _ taken => exact registry.alike (.take taken)
  | drains _ taken => exact registry.alike (.take taken)
  | closesBatch top => exact registry.closeBatch (dropped custody top)
  | @closesPool p _ _ _ top empty =>
      have closing : σ.system.Closing (.pool p) := custody.closing _ (by simp [top, Frame.closing?])
      simp only [closePool_system]
      refine registry.movePool .closed ?_ ?_ ?_ fun _ => ?_
      · exact fun name member => not_closing (registry.named name _ member) closing
      · rintro t opened rfl
        exact Stage.noConfusion ((registry.tokens t opened).symm.trans closing)
      · rintro b opened rfl
        exact Stage.noConfusion ((registry.batches b opened).symm.trans closing)
      · exact (Pool.pop_eq_none_iff _).mp (Option.map_eq_none_iff.mp empty)

end Scene

end TaskPool
