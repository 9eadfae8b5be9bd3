import TaskPool.Proofs.RegistryKept

/-!
# Where jobs wait

A queued job is a task whose submission is on record. A raw job waits where it was put; a job that
is wrapped for a batch waits in the pool of the batch, in the lane that the batch owns or, for a
batch with many producers, in the shared queue. The lane of a batch holds nothing else.
-/

namespace TaskPool

open TaskPool.System

/-- What is known of a job that waits at an inlet of a pool. -/
structure Filing (s : System Work) (history : List Event) (p : PoolId) (inlet : Inlet)
    (job : Job Work) : Prop where
  task : ∃ task : Task, job = task.job
  logged : ∃ inlet, .submitted job.id job.batch (.queued p inlet) ∈ history
  home : ∀ b, job.batch = some b → b.index < s.batches.length ∧ (s.batch b).pool = p
  single : ∀ b t, job.batch = some b → (s.batch b).kind = .single t →
    inlet = .lane t ∨ (inlet = .shared ∧ (s.batch b).stage = .closed)
  multi : ∀ b, job.batch = some b → (s.batch b).kind = .multi → inlet = .shared
  own : ∀ b t, inlet = .lane t → (s.batch b).kind = .single t → job.batch = some b

def Filed (s : System Work) (history : List Event) : Prop :=
  ∀ p, (s.pool p).Each (Filing s history p)

section

variable {s s' : System Work} {names : Table Object} {history history' events : List Event}
  {p : PoolId} {inlet : Inlet} {job : Job Work}

theorem Filing.grows (filing : Filing s history p inlet job) (grows : s.Grows s')
    (more : history ⊆ history') (known : ∀ t, inlet = .lane t → t.index < s.tokens.length) :
    Filing s' history' p inlet job where
  task := filing.task
  logged := by
    obtain ⟨inlet, logged⟩ := filing.logged
    exact ⟨inlet, more logged⟩
  home b wrapped := by
    obtain ⟨batch, own⟩ := filing.home b wrapped
    obtain ⟨batch', pool, _⟩ := grows.batches b batch
    exact ⟨batch', pool.trans own⟩
  single b t wrapped owns := by
    have batch := (filing.home b wrapped).1
    rw [(grows.batches b batch).2.2] at owns
    rcases filing.single b t wrapped owns with lane | ⟨shared, closed⟩
    · exact .inl lane
    · exact .inr ⟨shared, grows.closed b batch closed⟩
  multi b wrapped owns := by
    rw [(grows.batches b (filing.home b wrapped).1).2.2] at owns
    exact filing.multi b wrapped owns
  own b t lane owns := filing.own b t lane (grows.owns b t (known t lane) owns)

/-- The jobs of a system are where they should wait as it grows, wherever they are then moved. -/
theorem Filed.grows (filed : Filed s history) (registry : Registry s names) (grows : s.Grows s')
    (events : List Event) (p : PoolId) :
    (s.pool p).Each (Filing s' (history ++ events) p) := by
  refine (filed p).weaken fun inlet job here filing => ?_
  apply filing.grows grows (List.subset_append_left _ _)
  intro t lane
  have opened := here t lane
  rw [registry.lanes, mem_openTokens] at opened
  exact token_known opened.2

theorem Filed.task_of_take (filed : Filed s history) {source : Source}
    (taken : s.take source = some (job, s')) : ∃ task : Task, job = task.job := by
  obtain ⟨p, _, inlet, rest, loses, rfl⟩ := take_loses taken
  exact ((filed p).loses loses).1.task

theorem Filed.take (filed : Filed s history) (registry : Registry s names) {source : Source}
    (taken : s.take source = some (job, s')) : Filed s' (history ++ events) := by
  have kept := filed.grows registry (.take taken) events
  obtain ⟨p, _, inlet, rest, loses, rfl⟩ := take_loses taken
  exact forall_pool (fun q pool => pool.Each (Filing _ _ q)) kept fun each => (each.loses loses).2

theorem Filed.issueToken (filed : Filed s history) (registry : Registry s names) (p : PoolId) :
    Filed (s.issueToken p).2.1 (history ++ events) :=
  forall_pool (s := { s with tokens := s.tokens ++ [{ pool := p }] })
    (fun q pool => pool.Each (Filing _ _ q)) (filed.grows registry .issueToken events)
    fun each => each.register _

/-- What waits in the lane of a token may go to the shared queue if no open batch owns the token. -/
theorem Filed.releaseToken (filed : Filed s history) (registry : Registry s names) {t : TokenId}
    (disowned : ∀ b, (s.batch b).kind = .single t → (s.batch b).stage = .closed) :
    Filed (s.releaseToken t).1 (history ++ events) := by
  refine forall_pool (fun q pool => pool.Each (Filing _ _ q))
    (filed.grows registry (.releaseToken t) events) fun each => each.release fun job filing => ?_
  refine
    { filing with
      single := ?_
      multi := ?_
      own := fun _ _ lane => nomatch lane }
  · intro b u wrapped owns
    rcases filing.single b u wrapped owns with lane | ⟨shared, _⟩
    · cases lane
      exact .inr ⟨rfl, disowned b owns⟩
    · cases shared
  · exact fun _ _ _ => rfl

theorem Filed.startPool (filed : Filed s history) (registry : Registry s names)
    (config : PoolConfig) : Filed (s.startPool reasons config).2.1 (history ++ events) :=
  forall_pool_append (fun q pool => pool.Each (Filing _ _ q))
    (filed.grows registry (.startPool reasons config) events)
    (.mk (fun _ member => nomatch member) fun _ member => nomatch member)

theorem Filed.makeBatch (filed : Filed s history) (registry : Registry s names) (p : PoolId)
    (single : Bool) (multiplier : Nat) :
    Filed (s.makeBatch p single multiplier).2.1 (history ++ events) := by
  have kept := filed.grows registry (.makeBatch p single multiplier) events
  cases single with
  | true =>
      exact forall_pool (s := { s with tokens := s.tokens ++ [{ pool := p }] })
        (fun q pool => pool.Each (Filing _ _ q)) kept fun each => each.register _
  | false => exact kept

theorem Filed.closeBatch (filed : Filed s history) (registry : Registry s names) {b : BatchId}
    (closing : s.Closing (.batch b)) : Filed (s.closeBatch b).1 (history ++ events) := by
  have ended : Filed (s.endBatch b) (history ++ events) := filed.grows registry (.endBatch b) events
  rw [closeBatch_system]
  cases owns : (s.batch b).kind with
  | multi => exact ended
  | single t =>
      have released : Filed ((s.endBatch b).releaseToken t).1 (history ++ events ++ []) :=
        ended.releaseToken (registry.endBatch closing) (registry.owner_closed closing owns)
      rwa [List.append_nil] at released

theorem Filed.movePool (filed : Filed s history) (registry : Registry s names) (stage : Stage) :
    Filed (s.modifyPool p ({ · with stage })) (history ++ events) :=
  forall_pool (fun q pool => pool.Each (Filing _ _ q))
    (filed.grows registry (.modifyPool _) events) fun each => ⟨each.shared, each.lanes⟩

end

namespace Scene

variable {σ σ' : Scene} {opening : Opening}

theorem Lends.inlet_batch (registry : Registry σ.system σ.names) {b : BatchId} {hold : Hold}
    (lent : σ.Lends (Target.loans hold (.batch b))) {entry : Entry}
    (target : entry.target = .batch b) :
    b.index < σ.system.batches.length ∧
      (σ.system.inletOf entry).1 = (σ.system.batch b).pool ∧
      (∀ t, (σ.system.batch b).kind = .single t → (σ.system.inletOf entry).2 = .lane t) ∧
      ((σ.system.batch b).kind = .multi → (σ.system.inletOf entry).2 = .shared) := by
  refine ⟨lent.batch_known registry List.mem_cons_self, ?_⟩
  cases entry with
  | pool | token => cases target
  | batch =>
      cases target
      cases kind : (σ.system.batch b).kind with
      | multi => simp [inletOf, kind]
      | single t =>
          have own := (registry.owned b t kind).2.1
          simp [inletOf, kind, own]

theorem Lends.lane_open (registry : Registry σ.system σ.names) {entry : Entry} {hold : Hold}
    (lent : σ.Lends (entry.target.loans hold)) {t : TokenId}
    (lane : (σ.system.inletOf entry).2 = .lane t) :
    (σ.system.token t).stage ≠ .closed ∧ (σ.system.inletOf entry).1 = (σ.system.token t).pool := by
  cases entry with
  | pool => cases lane
  | token receiver u =>
      cases lane
      obtain ⟨name, found⟩ := lent.named (List.mem_cons_of_mem _ List.mem_cons_self)
      exact ⟨(registry.named name _ (Table.mem_of_find? found)).1, rfl⟩
  | batch b =>
      obtain ⟨name, found⟩ := lent.named List.mem_cons_self
      have live : (σ.system.batch b).stage = .live :=
        registry.named name _ (Table.mem_of_find? found)
      simp only [inletOf] at lane ⊢
      cases kind : (σ.system.batch b).kind with
      | multi => simp [kind] at lane
      | single u =>
          simp only [kind] at lane ⊢
          cases lane
          exact ⟨(registry.owned b t kind).2.2 (Stage.opened live), rfl⟩

/-- A job that is submitted enters where it should wait. -/
theorem Lends.filing (registry : Registry σ.system σ.names) {entry : Entry} {hold : Hold}
    (lent : σ.Lends (entry.target.loans hold)) {task : Task} {history : List Event}
    (wrapped : task.batch = entry.target.batch?)
    (logged : .submitted task.id task.batch
      (.queued (σ.system.inletOf entry).1 (σ.system.inletOf entry).2) ∈ history) :
    Filing σ.system history (σ.system.inletOf entry).1 (σ.system.inletOf entry).2 task.job := by
  have target : ∀ b, task.job.batch = some b → entry.target = .batch b := by
    intro b is
    rw [Task.job_batch, wrapped] at is
    cases named : entry.target with
    | pool | token => simp [named, Target.batch?] at is
    | batch c =>
        rw [named] at is
        cases is
        rfl
  have inlet : ∀ b, entry.target = .batch b → _ := fun b named =>
    (show σ.Lends (Target.loans hold (.batch b)) from named ▸ lent).inlet_batch registry named
  refine
    { task := ⟨task, rfl⟩
      logged := ⟨_, logged⟩
      home := ?_
      single := ?_
      multi := ?_
      own := ?_ }
  · intro b is
    obtain ⟨known, pool, _⟩ := inlet b (target b is)
    exact ⟨known, pool.symm⟩
  · intro b t is owns
    exact .inl ((inlet b (target b is)).2.2.1 t owns)
  · intro b is kind
    exact (inlet b (target b is)).2.2.2 kind
  · intro c t lane owns
    rw [Task.job_batch, wrapped]
    cases entry with
    | pool => cases lane
    | token receiver u =>
        cases lane
        obtain ⟨name, found⟩ := lent.named (List.mem_cons_of_mem _ List.mem_cons_self)
        exact absurd owns ((registry.named name _ (Table.mem_of_find? found)).2 c)
    | batch b =>
        obtain ⟨_, _, single, multi⟩ := inlet b rfl
        cases kind : (σ.system.batch b).kind with
        | multi =>
            rw [multi kind] at lane
            cases lane
        | single u =>
            rw [single u kind] at lane
            cases lane
            exact congrArg some (registry.owner b c t kind owns)

theorem Lends.filed (registry : Registry σ.system σ.names) {entry : Entry} {hold : Hold}
    (lent : σ.Lends (entry.target.loans hold)) (filed : Filed σ.system σ.history) {work : Work}
    {task : Task} {made : Submission Work} (submits : σ.system.submit entry work = made)
    (job : made.job = task.job) {events : List Event}
    (logged : .submitted task.id task.batch made.route ∈ events) :
    Filed made.system (σ.history ++ events) := by
  have grows := submits ▸ Grows.submit (s := σ.system) entry work
  have kept := filed.grows registry grows events
  cases submits ▸ submit_submits (s := σ.system) entry work with
  | declined _ _ _ system =>
      intro p
      have same : made.system.pool p = σ.system.pool p := by rw [system, count_pool]
      exact same ▸ kept p
  | admitted admits =>
      obtain ⟨this, ⟨_, system⟩ | ⟨route, system⟩⟩ := admits
      · intro p
        have same : made.system.pool p = σ.system.pool p := by rw [system, count_pool]
        exact same ▸ kept p
      · have wrapped : task.batch = entry.target.batch? :=
          congrArg Job.batch (job.symm.trans this)
        have entering : Filing made.system (σ.history ++ events) (σ.system.inletOf entry).1
            (σ.system.inletOf entry).2 task.job := by
          refine (lent.filing registry wrapped ?_).grows grows (fun _ => id)
            fun t lane => token_known (lent.lane_open registry lane).1
          rw [← route]
          exact List.mem_append_right _ logged
        rw [← this, job] at system
        intro q
        have pushed := forall_pool (s := σ.system.count entry.target.batch?)
          (fun q pool => pool.Each (Filing made.system (σ.history ++ events) q))
          (fun q => (count_pool _).symm ▸ kept q) (fun each => each.push entering) q
        rwa [← system] at pushed

theorem Opens.filed (opens : σ.Opens opening) (registry : Registry σ.system σ.names)
    (filed : Filed σ.system σ.history) :
    Filed opening.system (σ.history ++ opening.events) := by
  cases opens with
  | rests | pauses | waits | triesToWait | sweeps => exact filed.grows registry (.refl _) []
  | startsPool => exact filed.startPool registry _
  | issuesToken => exact filed.issueToken registry _
  | makesBatch => exact filed.makeBatch registry _ _ _
  | dropsToken named =>
      apply filed.releaseToken registry
      intro b owns
      exact absurd owns ((registry.named _ _ (Table.mem_of_find? named)).2 b)
  | dropsBatch named =>
      refine filed.grows registry (.modifyBatch rfl rfl fun closed => ?_) _
      exact absurd closed (Stage.opened (registry.named _ _ (Table.mem_of_find? named)))
  | dropsPool => exact filed.movePool registry _
  | queues lent submits job => exact lent.filed registry filed submits job (by simp)
  | runsInline lent submits job => exact lent.filed registry filed submits job (by simp)
  | executes _ taken => exact filed.take registry taken

theorem Moves.filed (moves : σ.Moves σ') (registry : Registry σ.system σ.names)
    (custody : Custody σ) (filed : Filed σ.system σ.history) :
    Filed σ'.system σ'.history := by
  have kept := filed.grows registry (.refl _)
  cases moves with
  | advances | ends | unwinds | contains => exact kept _
  | leaves | passes | finishes | sweepEnds => exact filed
  | opens _ _ opens => exact opens.filed registry filed
  | settles =>
      simp only [settle_system]
      exact filed.grows registry (.modifyBatch rfl rfl id) _
  | sweeps _ _ taken => exact filed.take registry taken
  | helps _ _ _ taken => exact filed.take registry taken
  | drains _ taken => exact filed.take registry taken
  | delivers =>
      simp only [deliver_system]
      exact filed.grows registry (.modifyBatch rfl rfl id) _
  | @closesBatch b _ _ top =>
      have closing : σ.system.Closing (.batch b) := dropped custody top
      exact filed.closeBatch registry closing
  | closesPool => exact filed.movePool registry _

/-- What holds in every scene of a solo run and carries the inversion of its turns. -/
structure Sound (σ : Scene) : Prop where
  registry : Registry σ.system σ.names
  custody : Custody σ
  filed : Filed σ.system σ.history

theorem Moves.sound (moves : σ.Moves σ') (sound : σ.Sound) : σ'.Sound where
  registry := moves.registry sound.registry sound.custody
  custody := moves.custody sound.registry sound.custody
  filed := moves.filed sound.registry sound.custody sound.filed

end Scene

end TaskPool
