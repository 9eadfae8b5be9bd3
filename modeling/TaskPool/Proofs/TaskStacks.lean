import TaskPool.Proofs.TurnMoves

/-!
# What stands below a running task

Below the body of a task stands the report to its batch, if it has one, and then whatever runs it.
Somewhere below that stands what keeps the pool open that took the task: an operation that holds the
pool or something made from it, or the closing of the pool or of the batch itself. A task that its
batch has run at once has below it the operation that shares the batch.
-/

namespace TaskPool

open TaskPool.System

/-- The object is the pool, or was made from it. -/
def System.Leads (s : System Work) (p : PoolId) : Object → Prop
  | .pool q => q = p
  | .commonPool _ => False
  | .token t => t.index < s.tokens.length ∧ (s.token t).pool = p
  | .batch b => b.index < s.batches.length ∧ (s.batch b).pool = p

def Frame.Keeps (s : System Work) (p : PoolId) : Frame → Prop
  | .call loans _ _ => ∃ loan ∈ loans, s.Leads p loan.object
  | .waiting b _ .close => s.Leads p (.batch b)
  | .closing q _ => q = p
  | _ => False

def Route.pool? : Route → Option PoolId
  | .queued p _ | .inlineByPool p => some p
  | .inlineByBatch _ => none

def Frame.Shares (b : BatchId) : Frame → Prop
  | .call loans _ _ => ⟨.batch b, .share⟩ ∈ loans
  | _ => False

/-- What is known of the frames below the body of a task. -/
inductive Guard (s : System Work) (history : List Event) (job : JobId) : List Frame → Prop where
  | mk {batch route runner rest} (logged : .submitted job batch route ∈ history)
      (runs : runner.isRunner)
      (kept : ∀ p, route.pool? = some p → ∃ frame ∈ runner :: rest, frame.Keeps s p)
      (shared : ∀ b, route = .inlineByBatch b → b.index < s.batches.length ∧
        ∃ frame ∈ runner :: rest, frame.Shares b) :
      Guard s history job (batch.toList.map (.settle job) ++ runner :: rest)

/-- Every running task of a stack has its guards. -/
def Guarded (s : System Work) (history : List Event) : List Frame → Prop
  | [] => True
  | .body job _ _ _ _ :: below => Guard s history job below ∧ Guarded s history below
  | _ :: below => Guarded s history below

section

variable {s s' : System Work} {names : Table Object} {history history' : List Event} {p : PoolId}
  {frame frame' : Frame} {below : List Frame} {job : JobId}

theorem System.leads_grows (grows : s.Grows s') {object : Object} (leads : s.Leads p object) :
    s'.Leads p object := by
  cases object with
  | pool => exact leads
  | commonPool => exact leads
  | token t =>
      obtain ⟨known, pool⟩ := grows.tokens t leads.1
      exact ⟨known, pool.trans leads.2⟩
  | batch b =>
      obtain ⟨known, pool, _⟩ := grows.batches b leads.1
      exact ⟨known, pool.trans leads.2⟩

theorem Frame.keeps_grows (grows : s.Grows s') (keeps : frame.Keeps s p) : frame.Keeps s' p := by
  cases frame with
  | call =>
      obtain ⟨loan, member, leads⟩ := keeps
      exact ⟨loan, member, leads_grows grows leads⟩
  | waiting b budget goal =>
      cases goal with
      | close =>
          have leads : s.Leads p (.batch b) := keeps
          exact leads_grows grows leads
      | wait | tryWait => exact keeps
  | _ => exact keeps

theorem Guard.grows (guard : Guard s history job below) (grows : s.Grows s')
    (more : history ⊆ history') : Guard s' history' job below := by
  obtain ⟨logged, runs, kept, shared⟩ := guard
  refine .mk (more logged) runs ?_ ?_
  · intro p taken
    obtain ⟨frame, member, keeps⟩ := kept p taken
    exact ⟨frame, member, Frame.keeps_grows grows keeps⟩
  · intro b inside
    obtain ⟨known, frame, member, shares⟩ := shared b inside
    exact ⟨(grows.batches b known).1, frame, member, shares⟩

namespace Guarded

theorem tail (guarded : Guarded s history (frame :: below)) : Guarded s history below := by
  cases frame with
  | body => exact guarded.2
  | _ => exact guarded

theorem cons (below : List Frame) (guarded : Guarded s history below)
    (other : ∀ job label next rest onBatch, frame ≠ .body job label next rest onBatch) :
    Guarded s history (frame :: below) := by
  cases frame with
  | body => exact absurd rfl (other _ _ _ _ _)
  | _ => exact guarded

theorem grows {frames : List Frame} (guarded : Guarded s history frames) (grows : s.Grows s')
    (more : history ⊆ history') : Guarded s' history' frames := by
  induction frames with
  | nil => trivial
  | cons frame below ih =>
      cases frame with
      | body => exact ⟨guarded.1.grows grows more, ih guarded.2⟩
      | _ => exact ih guarded

theorem continues (guarded : Guarded s history (frame :: below)) (on : frame.Continues frame') :
    Guarded s history (frame' :: below) := by
  cases on <;> exact guarded

theorem task {task : Task} (below : List Frame) (guarded : Guarded s history below)
    (guard : Guard s history task.id (task.batch.toList.map (.settle task.id) ++ below)) :
    Guarded s history (task.frames ++ below) := by
  refine ⟨guard, ?_⟩
  cases task.batch with
  | none => exact guarded
  | some b => exact guarded

theorem of_mem {frames : List Frame} (guarded : Guarded s history frames) {label : String}
    {next : Nat} {rest : List Op} {onBatch : Option String}
    (member : .body job label next rest onBatch ∈ frames) :
    ∃ above below, frames = above ++ .body job label next rest onBatch :: below ∧
      Guard s history job below := by
  induction frames with
  | nil => cases member
  | cons frame tail ih =>
      rcases List.mem_cons.mp member with same | inside
      · subst same
        exact ⟨[], tail, rfl, guarded.1⟩
      · obtain ⟨above, below, split, guard⟩ := ih guarded.tail inside
        exact ⟨frame :: above, below, by rw [split]; rfl, guard⟩

end Guarded

/-! ## Where taken jobs come from -/

theorem Filed.reached (filed : Filed s history) {source : Source} {task : Task}
    (taken : s.take source = some (task.job, s')) :
    ∃ p ∈ s.reach source, ∃ inlet, .submitted task.id task.batch (.queued p inlet) ∈ history := by
  obtain ⟨p, within, inlet, rest, loses, rfl⟩ := take_loses taken
  exact ⟨p, within, ((filed p).loses loses).1.logged⟩

theorem Registry.reach_sourceOf (registry : Registry s names) {b : BatchId}
    (within : p ∈ s.reach (s.sourceOf b)) : (s.batch b).pool = p := by
  unfold sourceOf at within
  cases kind : (s.batch b).kind with
  | multi => simpa [kind, reach, eq_comm] using within
  | single t =>
      have own := (registry.owned b t kind).2.1
      simpa [kind, reach, own, eq_comm] using within

/-- What an operation holds leads to every pool that it looks into. -/
theorem Registry.reach_target (registry : Registry s names) {target : Target} {hold : Hold}
    (nameable : ∀ loan ∈ target.loans hold, s.Nameable loan.object)
    (within : p ∈ s.reach (target.source s)) :
    ∃ loan ∈ target.loans hold, s.Leads p loan.object := by
  cases target with
  | pool q =>
      refine ⟨_, List.mem_cons_self, ?_⟩
      simpa [Target.source, reach, Leads, eq_comm] using within
  | token receiver t =>
      simp only [Target.source, reach, List.mem_cons, List.not_mem_nil, or_false] at within
      rcases within with rfl | rfl
      · have opened := nameable ⟨.token t, .use⟩ (List.mem_cons_of_mem _ List.mem_cons_self)
        exact ⟨_, List.mem_cons_of_mem _ List.mem_cons_self, token_known opened.1, rfl⟩
      · exact ⟨_, List.mem_cons_self, rfl⟩
  | batch b =>
      have live : (s.batch b).stage = .live := nameable _ List.mem_cons_self
      exact ⟨_, List.mem_cons_self, System.batch_known (Stage.opened live),
        registry.reach_sourceOf within⟩

end

namespace Scene

variable {σ σ' : Scene} {opening : Opening}

theorem Lends.nameable (registry : Registry σ.system σ.names) {loans : List Loan}
    (lent : σ.Lends loans) : ∀ loan ∈ loans, σ.system.Nameable loan.object := by
  intro loan member
  obtain ⟨name, found⟩ := lent.named member
  exact registry.named name _ (Table.mem_of_find? found)

theorem Lends.leads_inlet (registry : Registry σ.system σ.names) {entry : Entry} {hold : Hold}
    (lent : σ.Lends (entry.target.loans hold)) :
    ∃ loan ∈ entry.target.loans hold, σ.system.Leads (σ.system.inletOf entry).1 loan.object := by
  cases entry with
  | pool => exact ⟨_, List.mem_cons_self, rfl⟩
  | token receiver t =>
      have opened := lent.nameable registry ⟨.token t, .use⟩
        (List.mem_cons_of_mem _ List.mem_cons_self)
      exact ⟨_, List.mem_cons_of_mem _ List.mem_cons_self, token_known opened.1, rfl⟩
  | batch b admission =>
      have target : (Entry.batch b admission).target = .batch b := rfl
      obtain ⟨known, pool, _⟩ := lent.inlet_batch registry target
      exact ⟨_, List.mem_cons_self, known, pool.symm⟩

/-- The guards of a task that was queued and is now run by somebody who keeps the pools open. -/
theorem guard_of_taken {source : Source} {task : Task} {system : System Work}
    (sound : σ.Sound) (taken : σ.system.take source = some (task.job, system)) {runner : Frame}
    {rest : List Frame} (runs : runner.isRunner)
    (kept : ∀ p ∈ σ.system.reach source, ∃ frame ∈ rest, frame.Keeps σ.system p)
    (events : List Event) :
    Guard system (σ.history ++ events) task.id
      (task.batch.toList.map (.settle task.id) ++ runner :: rest) := by
  obtain ⟨p, within, inlet, logged⟩ := sound.filed.reached taken
  refine .mk (List.mem_append_left _ logged) runs ?_ (fun _ wrong => nomatch wrong)
  intro q queued
  cases queued
  obtain ⟨frame, member, keeps⟩ := kept p within
  exact ⟨frame, List.mem_cons_of_mem _ member, Frame.keeps_grows (.take taken) keeps⟩

theorem Opens.guarded (opens : σ.Opens opening) (sound : σ.Sound) {frame : Frame}
    {below : List Frame} {onFailure : OnFailure} {caught : Bool}
    (guarded : Guarded opening.system (σ.history ++ opening.events) (frame :: below)) :
    Guarded opening.system (σ.history ++ opening.events)
      (opening.push ++ .call opening.loans onFailure caught :: frame :: below) := by
  cases opens with
  | rests | startsPool | issuesToken | makesBatch | dropsToken | queues => exact guarded
  | waits | triesToWait | dropsBatch | dropsPool | sweeps => exact guarded
  | @pauses _ pause _ kind =>
      apply Guarded.cons (.call _ onFailure caught :: frame :: below) guarded
      rintro job label next rest onBatch rfl
      cases kind
  | @runsInline entry work task made lent submits job now =>
      apply Guarded.task (.call _ onFailure caught :: frame :: below) guarded
      have grows : σ.system.Grows made.system := submits ▸ .submit entry work
      have logged : .submitted task.id task.batch made.route ∈ σ.history ++
          (Event.ofNotices made.notices ++
            [.submitted task.id task.batch made.route, task.started]) := by simp
      cases submits ▸ submit_submits (s := σ.system) entry work with
      | @declined b target this route system =>
          refine .mk logged rfl ?_ ?_
          · intro p taken
            simp [route, Route.pool?] at taken
          · intro c inside
            rw [route] at inside
            cases inside
            rw [target] at lent ⊢
            have known := lent.batch_known sound.registry List.mem_cons_self
            exact ⟨(grows.batches b known).1, _, List.mem_cons_self, List.mem_cons_self⟩
      | admitted admits =>
          obtain ⟨_, ⟨route, _⟩ | ⟨route, _⟩⟩ := admits
          · refine .mk logged rfl ?_ ?_
            · intro p taken
              rw [route] at taken
              cases taken
              obtain ⟨loan, member, leads⟩ := lent.leads_inlet sound.registry
              exact ⟨_, List.mem_cons_self, loan, member, leads_grows grows leads⟩
            · intro b inside
              rw [route] at inside
              cases inside
          · rw [route] at now
            cases now
  | @executes target task system lent taken =>
      simp only [List.append_assoc]
      refine Guarded.task (.contain _ _ :: .executed :: .call _ onFailure caught ::
        frame :: below) guarded ?_
      refine guard_of_taken sound taken rfl ?_ _
      intro p within
      obtain ⟨loan, member, leads⟩ :=
        sound.registry.reach_target (lent.nameable sound.registry) within
      exact ⟨.call _ onFailure caught, by simp, loan, member, leads⟩

theorem Moves.guarded (moves : σ.Moves σ') (sound : σ.Sound)
    (guarded : Guarded σ.system σ.history σ.frames) :
    Guarded σ'.system σ'.history σ'.frames := by
  have grows := moves.grows sound.registry
  have stacked := sound.custody.stacked
  have grown : σ.history ⊆ σ'.history → Guarded σ'.system σ'.history σ.frames :=
    fun more => guarded.grows grows more
  cases moves with
  | advances top on =>
      have kept := grown (List.subset_append_left _ _)
      rw [top] at kept
      exact kept.continues on
  | opens top on opens =>
      have kept := grown (List.subset_append_left _ _)
      rw [top] at kept
      exact opens.guarded sound (kept.continues on)
  | leaves top | passes top | finishes top | sweepEnds top =>
      have kept := grown (fun _ => id)
      rw [top] at kept
      exact kept.tail
  | ends top | unwinds top | settles top | contains top | delivers top | closesBatch top
  | closesPool top =>
      have kept := grown (List.subset_append_left _ _)
      rw [top] at kept
      exact kept.tail
  | @sweeps source batch count count' below system task top open' taken =>
      have kept := grown (List.subset_append_left _ _)
      rw [top] at kept stacked
      apply Guarded.task (.contain _ _ :: .sweep source batch count' :: below) kept.tail
      refine guard_of_taken sound taken rfl ?_ _
      obtain ⟨fits, _⟩ := stacked
      cases fits with
      | pause kind => simp [Frame.isPause] at kind
      | @sweep target _ onFailure caught rest =>
          intro p within
          have held := held_nameable sound.registry sound.custody
            (top ▸ List.mem_cons_of_mem _ List.mem_cons_self)
          obtain ⟨loan, member, leads⟩ :=
            sound.registry.reach_target (fun loan member => (held loan member).2) within
          exact ⟨.call _ onFailure caught, by simp, loan, member, leads⟩
  | @helps b budget goal below system task top unclear left taken =>
      have kept := grown (List.subset_append_left _ _)
      rw [top] at kept stacked
      apply Guarded.task (.contain _ _ :: .waiting b _ goal :: below) kept.tail
      refine guard_of_taken sound taken rfl ?_ _
      intro p within
      have own := sound.registry.reach_sourceOf within
      by_cases asked : goal = .close
      · subst asked
        have closing := dropped sound.custody top
        refine ⟨_, List.mem_cons_self, System.batch_known fun closed => ?_, own⟩
        exact Stage.noConfusion (closed.symm.trans closing)
      · obtain ⟨onFailure, caught, rest, rfl⟩ := stacked.1.asked asked
        have live := (awaited sound.registry sound.custody top asked).2
        refine ⟨.call [⟨.batch b, .exclude⟩] onFailure caught, by simp, _, List.mem_cons_self, ?_⟩
        exact ⟨System.batch_known (Stage.opened live), own⟩
  | @drains q ran ran' below system task top taken =>
      have kept := grown (List.subset_append_left _ _)
      rw [top] at kept
      apply Guarded.task (.contain _ _ :: .closing q ran' :: below) kept.tail
      refine guard_of_taken sound taken rfl ?_ _
      intro p within
      cases List.mem_singleton.mp within
      exact ⟨.closing q ran', List.mem_cons_self, rfl⟩

/-- As long as a frame keeps a pool, the pool is not closed. -/
theorem Sound.keeps (sound : σ.Sound) {frame : Frame} {p : PoolId} (member : frame ∈ σ.frames)
    (keeps : frame.Keeps σ.system p) : (σ.system.pool p).stage ≠ .closed := by
  have closing : ∀ object, frame.closing? = some object → σ.system.Closing object := by
    intro object closes
    apply sound.custody.closing object
    exact List.mem_filterMap.mpr ⟨frame, member, closes⟩
  have opened : ∀ {stage : Stage}, stage = .closing → stage ≠ .closed := by
    rintro _ rfl
    simp
  cases frame with
  | call loans onFailure caught =>
      obtain ⟨loan, held, leads⟩ := keeps
      have nameable := (held_nameable sound.registry sound.custody member loan held).2
      cases object : loan.object with
      | pool q =>
          rw [object] at leads nameable
          cases leads
          exact Stage.opened nameable
      | commonPool => rw [object] at leads; cases leads
      | token t =>
          rw [object] at leads nameable
          exact Stage.opened (leads.2 ▸ sound.registry.tokens t nameable.1)
      | batch b =>
          rw [object] at leads nameable
          exact Stage.opened (leads.2 ▸ sound.registry.batches b (Stage.opened nameable))
  | waiting b budget goal =>
      cases goal with
      | wait | tryWait => cases keeps
      | close =>
          have leads : σ.system.Leads p (.batch b) := keeps
          exact Stage.opened (leads.2 ▸ sound.registry.batches b (opened (closing _ rfl)))
  | closing q ran =>
      cases keeps
      exact opened (closing _ rfl)
  | _ => cases keeps

end Scene

end TaskPool
