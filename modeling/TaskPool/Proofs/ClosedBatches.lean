import TaskPool.Proofs.WaitBarrier

/-!
# What is left of a closed batch

A batch closes when nothing of it is outstanding, and it takes its token along. So no job of a
closed batch waits anywhere, and an open token is never that of a closed batch.
-/

namespace TaskPool

namespace System

variable {s s' : System Work} {names : Table Object} {b : BatchId}

/-- Nothing is outstanding of a closed batch, and its token is released. -/
def Settled (s : System Work) : Prop :=
  ∀ b, (s.batch b).stage = .closed →
    s.outstanding b = 0 ∧ ∀ t, (s.batch b).kind = .single t → (s.token t).stage = .closed

namespace Settled

theorem change (settled : s.Settled) (registry : Registry s names)
    (tokens : ∀ t : TokenId, t.index < s.tokens.length → (s.token t).stage = .closed →
      (s'.token t).stage = .closed)
    (batches : ∀ b, (s'.batch b).stage = .closed → (s.batch b).stage = .closed ∧
      (s'.batch b).kind = (s.batch b).kind ∧ s'.outstanding b ≤ s.outstanding b) :
    s'.Settled := by
  intro b closed
  obtain ⟨closed, kind, fewer⟩ := batches b closed
  obtain ⟨clear, released⟩ := settled b closed
  refine ⟨Nat.le_zero.mp (clear ▸ fewer), fun t owns => ?_⟩
  rw [kind] at owns
  exact tokens t (registry.owned b t owns).1 (released t owns)

theorem modifyPool (settled : s.Settled) {p : PoolId} (f : Pool Work → Pool Work) :
    (s.modifyPool p f).Settled := settled

theorem take (settled : s.Settled) {source : Source} {job : Job Work}
    (taken : s.take source = some (job, s')) : s'.Settled := by
  obtain ⟨p, _, inlet, rest, _, rfl⟩ := take_loses taken
  exact settled

theorem mapBarrier (settled : s.Settled) (registry : Registry s names) {f : Barrier → Barrier}
    (fewer : (s.batch b).stage = .closed →
      (f (s.batch b).barrier).outstanding ≤ (s.batch b).barrier.outstanding) :
    (s.modifyBatch b (·.mapBarrier f)).Settled := by
  refine settled.change registry (fun _ _ closed => closed) fun c closed => ?_
  have stage : (s.batch c).stage = .closed :=
    (batch_modifyBatch_proj (·.stage) (by rfl) c).symm.trans closed
  refine ⟨stage, batch_modifyBatch_proj (·.kind) (by rfl) c, ?_⟩
  exact forall_batch (fun c batch => (s.batch c).stage = .closed →
    batch.barrier.outstanding ≤ (s.batch c).barrier.outstanding) (fun _ _ => Nat.le_refl _)
    (fun _ => fewer) c stage

theorem settle (settled : s.Settled) (registry : Registry s names) (job : JobId)
    (panicked : Option Payload) : (s.settle b job panicked).1.Settled := by
  rw [settle_system]
  refine settled.mapBarrier registry fun _ => ?_
  rw [Barrier.outstanding_settle]
  exact Nat.sub_le _ _

theorem deliver (settled : s.Settled) (registry : Registry s names) :
    (s.deliver b).2.Settled := by
  rw [deliver_system]
  exact settled.mapBarrier registry fun _ => Nat.le_of_eq (Barrier.outstanding_deliver _)

theorem issueToken (settled : s.Settled) (registry : Registry s names) (p : PoolId) :
    (s.issueToken p).2.1.Settled := by
  refine settled.change registry (fun t known closed => ?_) fun b closed => ?_
  · rw [token_issueToken known]
    exact closed
  · exact ⟨closed, rfl, Nat.le_refl _⟩

theorem appendBatch (settled : s.Settled) (registry : Registry s names) {new : Batch}
    (live : new.stage = .live) :
    ({ s with batches := s.batches ++ [new] } : System Work).Settled := by
  refine settled.change registry (fun _ _ closed => closed) fun b closed => ?_
  rcases batch_append_cases (s := s) new b with ⟨_, same⟩ | ⟨_, same⟩
  · rw [same] at closed
    rw [outstanding, outstanding, same]
    exact ⟨closed, rfl, Nat.le_refl _⟩
  · rw [same, live] at closed
    cases closed

theorem makeBatch (settled : s.Settled) (registry : Registry s names) {p : PoolId}
    (live : (s.pool p).stage = .live) (single : Bool) (multiplier : Nat) :
    (s.makeBatch p single multiplier).2.1.Settled := by
  cases single with
  | false => exact settled.appendBatch registry rfl
  | true => exact (settled.issueToken registry p).appendBatch (registry.issueToken live) rfl

theorem releaseToken (settled : s.Settled) (registry : Registry s names) (t : TokenId) :
    (s.releaseToken t).1.Settled := by
  refine settled.change registry (fun u _ closed => ?_) fun b closed => ?_
  · by_contra opened
    exact ((token_releaseToken t u).2.mp opened).1 closed
  · exact ⟨closed, rfl, Nat.le_refl _⟩

theorem beginClosingBatch (settled : s.Settled) (registry : Registry s names) :
    (s.beginClosingBatch b).Settled := by
  refine settled.change registry (fun _ _ closed => closed) fun c closed => ?_
  have stage : (s.batch c).stage = .closed :=
    forall_batch (f := ({ · with stage := .closing }))
      (fun c batch => batch.stage = .closed → (s.batch c).stage = .closed)
      (fun _ closed => closed) (fun _ wrong => Stage.noConfusion wrong) c closed
  exact ⟨stage, batch_modifyBatch_proj (·.kind) (by rfl) c,
    Nat.le_of_eq (batch_modifyBatch_proj (·.barrier.outstanding) (by rfl) c)⟩

theorem count (settled : s.Settled) (registry : Registry s names) {wrapped : Option BatchId}
    (live : ∀ b, wrapped = some b → (s.batch b).stage = .live) : (s.count wrapped).Settled := by
  have alike := Alike.count s wrapped
  refine settled.change registry (fun t _ closed => ?_) fun b closed => ?_
  · rw [alike.token]
    exact closed
  · obtain ⟨kind, _, stage⟩ := alike.batches b
    rw [stage] at closed
    refine ⟨closed, kind, ?_⟩
    have other : wrapped ≠ some b := fun same => Stage.opened (live b same) closed
    have known : ∀ c, wrapped = some c → c.index < s.batches.length :=
      fun c same => batch_known (Stage.opened (live c same))
    rw [Scene.outstanding_count known, if_neg other]
    exact Nat.le_refl _

theorem submit (settled : s.Settled) (registry : Registry s names) {entry : Entry} {work : Work}
    (live : ∀ b, entry.target.batch? = some b → (s.batch b).stage = .live) :
    (s.submit entry work).system.Settled := by
  cases submit_submits (s := s) entry work with
  | declined _ _ _ system =>
      rw [system]
      exact settled.count registry nofun
  | admitted admits =>
      have counted := settled.count registry live
      obtain ⟨_, ⟨_, system⟩ | ⟨_, system⟩⟩ := admits
      · rw [system]
        exact counted
      · rw [system]
        exact counted.modifyPool _

theorem closeBatch (settled : s.Settled) (registry : Registry s names)
    (closing : s.Closing (.batch b)) (clear : s.outstanding b = 0) : (s.closeBatch b).1.Settled := by
  have ended := registry.endBatch closing
  have delivered := settled.deliver registry (b := b)
  have steady : ∀ c, (s.endBatch b).outstanding c = s.outstanding c := by
    intro c
    have kept : (s.deliver b).2.outstanding c = s.outstanding c := Steady.deliver.owed c
    rw [← kept]
    exact batch_modifyBatch_proj (·.barrier.outstanding) (by rfl) c
  have before : ∀ c, c ≠ b → ((s.endBatch b).batch c).stage = .closed →
      (s.batch c).stage = .closed := by
    intro c other closed
    rw [endBatch, batch_modifyBatch_of_ne _ (Ne.symm other)] at closed
    exact ((Alike.deliver s b).batches c).2.2.symm.trans closed
  have others : ∀ c, c ≠ b → ((s.endBatch b).batch c).stage = .closed →
      s.outstanding c = 0 ∧ ∀ t, (s.batch c).kind = .single t → (s.token t).stage = .closed :=
    fun c other closed => settled c (before c other closed)
  have zero : ∀ c, ((s.endBatch b).batch c).stage = .closed → s.outstanding c = 0 := by
    intro c closed
    by_cases same : c = b
    · exact same ▸ clear
    · exact (others c same closed).1
  have token : ∀ t, (s.endBatch b).token t = s.token t := fun t => (Alike.deliver s b).token t
  rw [closeBatch_system]
  cases owns : (s.batch b).kind with
  | multi =>
      intro c closed
      refine ⟨(steady c).trans (zero c closed), fun t owns' => ?_⟩
      rw [endBatch_kind] at owns'
      rw [token]
      refine (others c ?_ closed).2 t owns'
      rintro rfl
      exact BatchKind.noConfusion (owns.symm.trans owns')
  | single t =>
      intro c closed
      refine ⟨(steady c).trans (zero c closed), fun u kind => ?_⟩
      by_contra opened
      obtain ⟨opened, other⟩ := (token_releaseToken t u).2.mp opened
      have owns' : (s.batch c).kind = .single u := endBatch_kind.symm.trans kind
      have apart : c ≠ b := by
        intro same
        rw [same, owns] at owns'
        exact other (BatchKind.single.inj owns').symm
      rw [token] at opened
      exact opened ((others c apart closed).2 u owns')

end Settled

end System

namespace Scene

variable {σ σ' : Scene} {opening : Opening}

theorem Lends.target_live (registry : Registry σ.system σ.names) {target : Target} {hold : Hold}
    (lent : σ.Lends (target.loans hold)) {b : BatchId} (asked : target.batch? = some b) :
    (σ.system.batch b).stage = .live := by
  cases target with
  | pool | token => cases asked
  | batch c =>
      cases asked
      obtain ⟨⟨name, named⟩, _⟩ := lent _ List.mem_cons_self
      exact registry.named name _ (Table.mem_of_find? named)

theorem Opens.settled (opens : σ.Opens opening) (registry : Registry σ.system σ.names)
    (settled : σ.system.Settled) : opening.system.Settled := by
  cases opens with
  | rests | pauses | waits | triesToWait | sweeps => exact settled
  | startsPool => exact settled
  | issuesToken => exact settled.issueToken registry _
  | makesBatch _ named =>
      obtain ⟨name, named⟩ := named
      exact settled.makeBatch registry (registry.named name _ (Table.mem_of_find? named)) _ _
  | dropsToken => exact settled.releaseToken registry _
  | dropsBatch => exact settled.beginClosingBatch registry
  | dropsPool => exact settled.modifyPool _
  | queues lent submits =>
      exact submits ▸ settled.submit registry fun _ => lent.target_live registry
  | runsInline lent submits =>
      exact submits ▸ settled.submit registry fun _ => lent.target_live registry
  | executes _ taken => exact settled.take taken

theorem Moves.settled (moves : σ.Moves σ') (sound : σ.Sound) (settled : σ.system.Settled) :
    σ'.system.Settled := by
  have registry := sound.registry
  cases moves with
  | advances | leaves | passes | finishes | ends | unwinds | contains | sweepEnds => exact settled
  | opens _ _ opens => exact opens.settled registry settled
  | settles => exact settled.settle registry _ _
  | sweeps _ _ taken => exact settled.take taken
  | helps _ _ _ taken => exact settled.take taken
  | drains _ taken => exact settled.take taken
  | delivers => exact settled.deliver registry
  | closesBatch top finished =>
      exact settled.closeBatch registry (dropped sound.custody top)
        (clear_of_over sound.custody top finished nofun)
  | closesPool => exact settled.modifyPool _

end Scene

/-- In every state of a solo run, nothing is left of a closed batch. -/
theorem Machine.Solo.settled {m : Machine} (solo : m.Solo) : m.world.system.Settled := by
  let holds : Scene → Prop := fun σ => σ.system.Settled
  have start : ∀ bodies host ops, holds (Machine.load bodies host ops).scene :=
    fun _ _ _ _ _ => ⟨rfl, fun _ owns => nomatch owns⟩
  exact solo.invariant start fun sound settled moves => moves.settled sound settled

end TaskPool
