import TaskPool.Proofs.QueueMoves

/-!
# First in, first out

Two jobs that were queued on one path start in the order in which they were queued. A path is the
shared queue of a pool, a token, or a batch. Where the older one of them waits, the younger one
waits behind it, in the same queue: jobs leave a queue at its front and enter it at its end, and a
released token puts all its jobs behind those of the shared queue, in order. So the younger one is
not taken before the older one, from whichever object it is asked for.

The record of a run is enough to tell where a job waits. It waits where it was queued, or, if that
was the lane of a token that was released since, in the shared queue of the pool.
-/

namespace TaskPool

open TaskPool.System

/-! ## The order in which jobs are queued -/

inductive Path where
  /-- The shared queue of a pool. -/
  | shared (p : PoolId)
  /-- A token, whichever pool is asked. -/
  | token (t : TokenId)
  /-- A batch with a single producer or with many. -/
  | batch (b : BatchId)

/-- The event tells that a job was queued on a path. -/
inductive Path.Queues (job : JobId) : Path → Event → Prop where
  | shared {batch p} : Queues job (.shared p) (.submitted job batch (.queued p .shared))
  | token {batch p t} : Queues job (.token t) (.submitted job batch (.queued p (.lane t)))
  | batch {b p inlet} : Queues job (.batch b) (.submitted job (some b) (.queued p inlet))

/-- With the event that comes after these, a job gets into the shared queue of a pool: it is queued
there, or handed over because its token is released before it was started. -/
inductive Joins (p : PoolId) (job : JobId) (before : List Event) : Event → Prop where
  | queued {batch} : Joins p job before (.submitted job batch (.queued p .shared))
  | handedOver {batch t name moved}
      (through : .submitted job batch (.queued p (.lane t)) ∈ before)
      (unstarted : ∀ label, .started job label ∉ before) :
      Joins p job before (.logged (.tokenReleased t name moved))

/-- One job was queued before another, on the same path, or got into a shared queue before it. -/
inductive Precedes (history : List Event) (a b : JobId) : Prop where
  | onPath {first between last event event'} (path : Path)
      (split : history = first ++ event :: between ++ event' :: last)
      (earlier : path.Queues a event) (later : path.Queues b event')
  | inShared {first between last event event'} (p : PoolId)
      (split : history = first ++ event :: between ++ event' :: last)
      (earlier : Joins p a first event) (later : Joins p b (first ++ event :: between) event')

def StartsBefore (history : List Event) (a b : JobId) (label : String) : Prop :=
  ∃ before after label', history = before ++ .started b label :: after ∧
    .started a label' ∈ before

def Released (history : List Event) (t : TokenId) : Prop :=
  ∃ name moved, .logged (.tokenReleased t name moved) ∈ history

/-- Where a job of a pool waits by the record, if it was not started. -/
inductive Placed (history : List Event) (p : PoolId) (job : JobId) : Inlet → Prop where
  | shared {batch} (logged : .submitted job batch (.queued p .shared) ∈ history) :
      Placed history p job .shared
  | lane {batch t} (logged : .submitted job batch (.queued p (.lane t)) ∈ history)
      (listed : ¬Released history t) : Placed history p job (.lane t)
  | handedOver {batch t} (logged : .submitted job batch (.queued p (.lane t)) ∈ history)
      (released : Released history t) : Placed history p job .shared

section

variable {history events : List Event} {event : Event} {a b job : JobId} {label : String}
  {p q : PoolId} {t : TokenId} {inlet inlet' : Inlet}

theorem Path.Queues.logged {path : Path} (queues : path.Queues job event) :
    ∃ batch p inlet, event = .submitted job batch (.queued p inlet) := by
  cases queues <;> exact ⟨_, _, _, rfl⟩

theorem Joins.placed {before : List Event} (joins : Joins p job before event)
    (within : before ⊆ history) (member : event ∈ history) : Placed history p job .shared := by
  cases joins with
  | queued => exact .shared member
  | handedOver through => exact .handedOver (within through) ⟨_, _, member⟩

theorem Placed.logged (placed : Placed history p job inlet) :
    ∃ batch p inlet, .submitted job batch (.queued p inlet) ∈ history := by
  cases placed with
  | shared logged | lane logged | handedOver logged => exact ⟨_, _, _, logged⟩

theorem split_last {front last : List Event} {event' : Event}
    (split : history ++ [event] = front ++ event' :: last) :
    front = history ∧ event' = event ∨ ∃ last', history = front ++ event' :: last' := by
  rcases List.eq_nil_or_concat last with rfl | ⟨rest, final, rfl⟩
  · have same := List.append_inj' split rfl
    exact .inl ⟨same.1.symm, (List.cons.inj same.2).1.symm⟩
  · rw [List.concat_eq_append, ← List.cons_append, ← List.append_assoc] at split
    exact .inr ⟨rest, (List.append_inj' split rfl).1⟩

/-- What one more event makes of the order. -/
theorem Precedes.of_append (precedes : Precedes (history ++ [event]) a b) :
    Precedes history a b ∨
      (∃ path : Path, ∃ event' ∈ history, path.Queues a event' ∧ path.Queues b event) ∨
      ∃ p, Placed history p a .shared ∧ Joins p b history event := by
  cases precedes with
  | @onPath first between last event₁ event₂ path split earlier later =>
      rcases split_last split with ⟨rfl, rfl⟩ | ⟨last', split⟩
      · exact .inr (.inl ⟨path, event₁, by simp, earlier, later⟩)
      · exact .inl (.onPath path split earlier later)
  | @inShared first between last event₁ event₂ p split earlier later =>
      rcases split_last split with ⟨rfl, rfl⟩ | ⟨last', split⟩
      · exact .inr (.inr ⟨p, earlier.placed (List.subset_append_left _ _) (by simp), later⟩)
      · exact .inl (.inShared p split earlier later)

theorem Precedes.of_start {task : Task}
    (precedes : Precedes (history ++ [task.started]) a b) : Precedes history a b := by
  rcases precedes.of_append with old | ⟨_, _, _, _, queues⟩ | ⟨_, _, joins⟩
  · exact old
  · cases queues
  · cases joins

theorem Precedes.of_quiet (quiet : ∀ event ∈ events, event.isQuiet = true)
    (precedes : Precedes (history ++ events) a b) : Precedes history a b := by
  induction events using List.reverseRecOn with
  | nil => rwa [List.append_nil] at precedes
  | append_singleton rest last ih =>
      have calm := quiet last (by simp)
      refine ih (fun event member => quiet event (List.mem_append_left _ member)) ?_
      rw [← List.append_assoc] at precedes
      rcases precedes.of_append with old | ⟨_, _, _, _, queues⟩ | ⟨_, _, joins⟩
      · exact old
      · cases queues <;> cases calm
      · cases joins <;> cases calm

theorem Precedes.logged (precedes : Precedes history a b) :
    (∃ batch p inlet, .submitted a batch (.queued p inlet) ∈ history) ∧
      ∃ batch p inlet, .submitted b batch (.queued p inlet) ∈ history := by
  cases precedes with
  | onPath path split earlier later =>
      obtain ⟨batch, p, inlet, rfl⟩ := earlier.logged
      obtain ⟨batch', p', inlet', rfl⟩ := later.logged
      exact ⟨⟨batch, p, inlet, by simp [split]⟩, ⟨batch', p', inlet', by simp [split]⟩⟩
  | inShared p split earlier later =>
      subst split
      refine ⟨(earlier.placed ?_ (by simp)).logged, (later.placed ?_ (by simp)).logged⟩
      · rw [List.append_assoc]
        exact List.subset_append_left _ _
      · exact List.subset_append_left _ _

theorem StartsBefore.append (starts : StartsBefore history a b label) (events : List Event) :
    StartsBefore (history ++ events) a b label := by
  obtain ⟨before, after, label', rfl, member⟩ := starts
  exact ⟨before, after ++ events, label', by simp, member⟩

theorem Released.of_quiet (quiet : ∀ event ∈ events, event.isQuiet = true)
    (released : Released (history ++ events) t) : Released history t := by
  obtain ⟨name, moved, member⟩ := released
  rcases List.mem_append.mp member with old | new
  · exact ⟨name, moved, old⟩
  · cases quiet _ new

theorem Released.of_append (other : ∀ name moved, event ≠ .logged (.tokenReleased t name moved))
    (released : Released (history ++ [event]) t) : Released history t := by
  obtain ⟨name, moved, member⟩ := released
  rcases List.mem_append.mp member with old | new
  · exact ⟨name, moved, old⟩
  · exact absurd (List.mem_singleton.mp new).symm (other name moved)

/-- A job stays where it is by the record as long as the token of its lane is not released. -/
theorem Placed.grows {history' : List Event} (placed : Placed history p job inlet)
    (more : history ⊆ history')
    (listed : ∀ t, inlet = .lane t → Released history' t → Released history t) :
    Placed history' p job inlet := by
  cases placed with
  | shared logged => exact .shared (more logged)
  | lane logged unreleased =>
      exact .lane (more logged) fun released => unreleased (listed _ rfl released)
  | handedOver logged released =>
      obtain ⟨name, moved, member⟩ := released
      exact .handedOver (more logged) ⟨name, moved, more member⟩

theorem queued_of_quiet {batch : Option BatchId} (quiet : ∀ event ∈ events, event.isQuiet = true)
    (logged : .submitted job batch (.queued p inlet) ∈ history ++ events) :
    .submitted job batch (.queued p inlet) ∈ history := by
  rcases List.mem_append.mp logged with old | new
  · exact old
  · cases quiet _ new

theorem Placed.of_quiet (quiet : ∀ event ∈ events, event.isQuiet = true)
    (placed : Placed (history ++ events) p job inlet) : Placed history p job inlet := by
  cases placed with
  | shared logged => exact .shared (queued_of_quiet quiet logged)
  | lane logged listed =>
      refine .lane (queued_of_quiet quiet logged) fun released => listed ?_
      obtain ⟨name, moved, member⟩ := released
      exact ⟨name, moved, List.mem_append_left _ member⟩
  | handedOver logged released =>
      exact .handedOver (queued_of_quiet quiet logged) (released.of_quiet quiet)

theorem started_of_quiet (quiet : ∀ event ∈ events, event.isQuiet = true)
    (started : .started b label ∈ history ++ events) : .started b label ∈ history := by
  rcases List.mem_append.mp started with old | new
  · exact old
  · cases quiet _ new

end

namespace Scene

variable {σ σ' : Scene} {a b job : JobId} {label : String} {p q : PoolId} {t : TokenId}
  {inlet inlet' : Inlet}

def ids (σ : Scene) (p : PoolId) (inlet : Inlet) : List JobId :=
  ((σ.system.pool p).queue inlet).map (·.id)

theorem Placed.unique (tallied : σ.Tallied) (here : Placed σ.history p job inlet)
    (there : Placed σ.history q job inlet') : p = q ∧ inlet = inlet' := by
  have routes {batch batch' : Option BatchId} {p q : PoolId} {inlet inlet' : Inlet}
      (one : .submitted job batch (.queued p inlet) ∈ σ.history)
      (other : .submitted job batch' (.queued q inlet') ∈ σ.history) : p = q ∧ inlet = inlet' := by
    have same := (tallied.submitted_once one other).2
    cases same
    exact ⟨rfl, rfl⟩
  cases here with
  | shared logged =>
      cases there with
      | shared logged' => exact routes logged logged'
      | lane logged' => cases (routes logged logged').2
      | handedOver logged' => cases (routes logged logged').2
  | lane logged listed =>
      cases there with
      | shared logged' => cases (routes logged logged').2
      | lane logged' => exact routes logged logged'
      | handedOver logged' released =>
          obtain ⟨rfl, same⟩ := routes logged logged'
          cases same
          exact absurd released listed
  | handedOver logged released =>
      cases there with
      | shared logged' => cases (routes logged logged').2
      | lane logged' listed =>
          obtain ⟨rfl, same⟩ := routes logged logged'
          cases same
          exact absurd released listed
      | handedOver logged' => exact ⟨(routes logged logged').1, rfl⟩

/-- What the record says of the queues, and what the queues say of the order of starts. -/
structure InLine (σ : Scene) : Prop where
  closed : ∀ t, Released σ.history t →
    t.index < σ.system.tokens.length ∧ (σ.system.token t).stage = .closed
  placed : ∀ p inlet, ∀ job ∈ σ.ids p inlet, Placed σ.history p job inlet
  /-- Where the older one waits, the younger one waits behind it. -/
  behind : ∀ a b, Precedes σ.history a b →
    ∀ p inlet, a ∈ σ.ids p inlet → [a, b].Sublist (σ.ids p inlet)
  begun : ∀ a b label, Precedes σ.history a b → .started b label ∈ σ.history →
    StartsBefore σ.history a b label

/-! ## Jobs that wait -/

theorem waiting_of_ids (member : job ∈ σ.ids p inlet) : 0 < σ.waiting job := by
  obtain ⟨queued, there, same⟩ := List.mem_map.mp member
  refine List.countP_pos_iff.mpr ⟨queued, mem_jobs (Pool.mem_contents_of_queue there), ?_⟩
  simpa using same

/-- A job that was queued and not started waits somewhere. -/
theorem ids_of_unstarted (sound : σ.Sound) (tallied : σ.Tallied) {batch : Option BatchId}
    {route : Route} (logged : .submitted job batch route ∈ σ.history)
    (unstarted : ∀ label, .started job label ∉ σ.history) : ∃ p inlet, job ∈ σ.ids p inlet := by
  have none : σ.times (.starts job) = 0 := by
    refine List.count_eq_zero.mpr fun member => ?_
    obtain ⟨event, inside, is⟩ := List.mem_filterMap.mp member
    cases event <;> cases is
    exact unstarted _ inside
  have once := tallied.submitted logged
  have balance := tallied.queued job
  obtain ⟨p, inlet, queued, there, _, same, _⟩ :=
    waits_of_waiting sound tallied logged (by omega)
  exact ⟨p, inlet, List.mem_map.mpr ⟨queued, there, same⟩⟩

theorem not_ids_of_started (tallied : σ.Tallied) (started : .started job label ∈ σ.history) :
    job ∉ σ.ids p inlet := by
  intro member
  have waits := waiting_of_ids member
  have one : 0 < σ.times (.starts job) :=
    List.count_pos_iff.mpr (List.mem_filterMap.mpr ⟨_, started, rfl⟩)
  have numbered := tallied.numbered job
  have balance := tallied.queued job
  split at numbered <;> omega

theorem known_of_logged (tallied : σ.Tallied) {batch : Option BatchId} {route : Route}
    (logged : .submitted job batch route ∈ σ.history) : job.index < σ.system.submissions := by
  have once := tallied.submitted logged
  rw [tallied.numbered] at once
  by_contra unknown
  rw [if_neg unknown] at once
  cases once

theorem known_of_started (tallied : σ.Tallied) (started : .started job label ∈ σ.history) :
    job.index < σ.system.submissions := by
  have one : 0 < σ.times (.starts job) :=
    List.count_pos_iff.mpr (List.mem_filterMap.mpr ⟨_, started, rfl⟩)
  have numbered := tallied.numbered job
  have balance := tallied.queued job
  split at numbered <;> omega

theorem pool_of_ids (sound : σ.Sound) (member : job ∈ σ.ids p (.lane t)) :
    (σ.system.token t).pool = p := by
  obtain ⟨queued, there, _⟩ := List.mem_map.mp member
  obtain ⟨lane, inside, _⟩ := List.mem_flatMap.mp there
  obtain ⟨inside, own⟩ := List.mem_filter.mp inside
  have listed : t ∈ (σ.system.pool p).lanes.map (·.token) :=
    List.mem_map.mpr ⟨lane, inside, of_decide_eq_true own⟩
  rw [sound.registry.lanes, mem_openTokens] at listed
  exact listed.1

/-- Two jobs of a batch that is not closed wait in one queue. -/
theorem inlet_of_batch (sound : σ.Sound) {b : BatchId} {one other : Job Work}
    (here : one ∈ (σ.system.pool p).queue inlet) (there : other ∈ (σ.system.pool q).queue inlet')
    (batch : one.batch = some b) (batch' : other.batch = some b)
    (live : (σ.system.batch b).stage ≠ .closed) : p = q ∧ inlet = inlet' := by
  have filing := (sound.filed p).of_queue here
  have filing' := (sound.filed q).of_queue there
  refine ⟨(filing.home b batch).2.symm.trans (filing'.home b batch').2, ?_⟩
  cases kind : (σ.system.batch b).kind with
  | multi => exact (filing.multi b batch kind).trans (filing'.multi b batch' kind).symm
  | single t =>
      have lane := (filing.single b t batch kind).resolve_right fun gone => live gone.2
      have lane' := (filing'.single b t batch' kind).resolve_right fun gone => live gone.2
      exact lane.trans lane'.symm

/-! ## What the moves do with the order -/

variable {events : List Event} {task : Task}

theorem ids_of_same (queues : σ.system.SameQueues σ'.system) (p : PoolId) (inlet : Inlet) :
    σ'.ids p inlet = σ.ids p inlet :=
  congrArg (List.map Job.id) (queues p inlet)

theorem InLine.rests (inLine : σ.InLine) (queues : σ.system.SameQueues σ'.system)
    (more : σ.history ⊆ σ'.history)
    (closed : ∀ t, Released σ'.history t →
      t.index < σ'.system.tokens.length ∧ (σ'.system.token t).stage = .closed)
    (released : ∀ t, Released σ'.history t → Released σ.history t)
    (same : ∀ a b, Precedes σ'.history a b → Precedes σ.history a b)
    (begun : ∀ a b label, Precedes σ.history a b → .started b label ∈ σ'.history →
      StartsBefore σ'.history a b label) : σ'.InLine where
  closed := closed
  placed p inlet job member := by
    rw [ids_of_same queues] at member
    exact (inLine.placed p inlet job member).grows more fun t _ => released t
  behind a b precedes p inlet member := by
    rw [ids_of_same queues] at member ⊢
    exact inLine.behind a b (same a b precedes) p inlet member
  begun a b label precedes started := begun a b label (same a b precedes) started

theorem InLine.starts (inLine : σ.InLine) (sound : σ.Sound) (tallied : σ.Tallied)
    (tallied' : σ'.Tallied)
    (closed : ∀ t, Released σ'.history t →
      t.index < σ'.system.tokens.length ∧ (σ'.system.token t).stage = .closed)
    (front : (σ.system.pool p).queue inlet = task.job :: (σ'.system.pool p).queue inlet)
    (others : ∀ q inlet', ¬(q = p ∧ inlet' = inlet) →
      (σ'.system.pool q).queue inlet' = (σ.system.pool q).queue inlet')
    (record : σ'.history = σ.history ++ [task.started]) : σ'.InLine := by
  have started : .started task.id task.label ∈ σ'.history := by
    rw [record]
    exact List.mem_append_right _ List.mem_cons_self
  have head : σ.ids p inlet = task.id :: σ'.ids p inlet := congrArg (List.map Job.id) front
  have ids (q : PoolId) (inlet' : Inlet) :
      σ.ids q inlet' = σ'.ids q inlet' ∨ σ.ids q inlet' = task.id :: σ'.ids q inlet' := by
    by_cases here : q = p ∧ inlet' = inlet
    · obtain ⟨rfl, rfl⟩ := here
      exact .inr head
    · exact .inl (congrArg (List.map Job.id) (others q inlet' here)).symm
  have left {job : JobId} {q : PoolId} {inlet' : Inlet} (member : job ∈ σ'.ids q inlet') :
      job ∈ σ.ids q inlet' := by
    rcases ids q inlet' with same | same <;> rw [same]
    · exact member
    · exact List.mem_cons_of_mem _ member
  have released (t : TokenId) (released : Released σ'.history t) : Released σ.history t := by
    rw [record] at released
    exact released.of_append fun _ _ wrong => by cases wrong
  have same (a b : JobId) (precedes : Precedes σ'.history a b) : Precedes σ.history a b := by
    rw [record] at precedes
    exact precedes.of_start
  exact
    { closed
      placed := by
        intro q inlet' job member
        refine (inLine.placed q inlet' job (left member)).grows ?_ fun t _ => released t
        rw [record]
        exact List.subset_append_left _ _
      behind := by
        intro a b precedes q inlet' member
        have line := inLine.behind a b (same a b precedes) q inlet' (left member)
        rcases ids q inlet' with is | is
        · rwa [is] at line
        · rw [is] at line
          cases line with
          | cons _ line => exact line
          | cons_cons => exact absurd member (not_ids_of_started tallied' started)
      begun := by
        intro a b label precedes started'
        have precedes := same a b precedes
        rw [record] at started' ⊢
        rcases List.mem_append.mp started' with old | new
        · exact (inLine.begun a b label precedes old).append _
        · cases List.mem_singleton.mp new
          obtain ⟨⟨batch, p', inlet', logged⟩, _⟩ := precedes.logged
          by_cases begun : ∃ label', .started a label' ∈ σ.history
          · obtain ⟨label', member⟩ := begun
            exact ⟨σ.history, [], label', rfl, member⟩
          · -- the older job would wait in front of the one that was taken
            obtain ⟨q, inlet₁, waits⟩ := ids_of_unstarted sound tallied logged
              fun label' member => begun ⟨label', member⟩
            have line := inLine.behind a task.id precedes q inlet₁ waits
            have gone : task.id ∉ σ'.ids q inlet₁ := not_ids_of_started tallied' started
            refine absurd ?_ gone
            rcases ids q inlet₁ with is | is <;> rw [is] at line
            · exact line.subset (by simp)
            · cases line with
              | cons _ line => exact line.subset (by simp)
              | cons_cons _ line => exact line.subset (by simp) }

/-- A new job is queued at the end of a queue. -/
structure Appends (σ σ' : Scene) (task : Task) (p : PoolId) (inlet : Inlet)
    (events : List Event) : Prop where
  fresh : task.id = ⟨σ.system.submissions⟩
  queues : ∀ q inlet', (σ'.system.pool q).queue inlet' =
    (σ.system.pool q).queue inlet' ++ if q = p ∧ inlet' = inlet then [task.job] else []
  opened : ∀ t, inlet = .lane t →
    (σ.system.token t).stage ≠ .closed ∧ (σ.system.token t).pool = p
  live : ∀ b, task.batch = some b → (σ'.system.batch b).stage ≠ .closed
  record : σ'.history = σ.history ++ events ++ [.submitted task.id task.batch (.queued p inlet)]
  quiet : ∀ event ∈ events, event.isQuiet = true

namespace Appends

variable (appends : Appends σ σ' task p inlet events)

include appends

theorem more : σ.history ⊆ σ'.history := by
  rw [appends.record, List.append_assoc]
  exact List.subset_append_left _ _

theorem logged : .submitted task.id task.batch (.queued p inlet) ∈ σ'.history := by
  rw [appends.record]
  exact List.mem_append_right _ List.mem_cons_self

theorem released (is : Released σ'.history t) : Released σ.history t := by
  rw [appends.record] at is
  exact (is.of_append fun _ _ wrong => by cases wrong).of_quiet appends.quiet

theorem unreleased (inLine : σ.InLine) (lane : inlet = .lane t) : ¬Released σ'.history t :=
  fun is => (appends.opened t lane).1 (inLine.closed t (appends.released is)).2

theorem ids (q : PoolId) (inlet' : Inlet) : σ'.ids q inlet' =
    σ.ids q inlet' ++ if q = p ∧ inlet' = inlet then [task.id] else [] := by
  rw [Scene.ids, appends.queues, List.map_append]
  by_cases here : q = p ∧ inlet' = inlet <;> simp [here, Scene.ids]

theorem grown (q : PoolId) (inlet' : Inlet) : (σ.ids q inlet').Sublist (σ'.ids q inlet') := by
  rw [appends.ids]
  exact List.sublist_append_left _ _

theorem placed (inLine : σ.InLine) (member : job ∈ σ.ids q inlet') :
    Placed σ'.history q job inlet' :=
  (inLine.placed q inlet' job member).grows appends.more fun _ _ => appends.released

theorem entering (inLine : σ.InLine) : Placed σ'.history p task.id inlet := by
  have logged := appends.logged
  cases inlet with
  | shared => exact .shared logged
  | lane t => exact .lane logged (appends.unreleased inLine rfl)

theorem stays (tallied : σ.Tallied) {batch : Option BatchId} {route : Route}
    (known : .submitted a batch route ∈ σ.history) (member : a ∈ σ'.ids q inlet') :
    a ∈ σ.ids q inlet' := by
  rw [appends.ids] at member
  refine (List.mem_append.mp member).resolve_right fun new => ?_
  split at new
  · cases List.mem_singleton.mp new
    have below := known_of_logged tallied known
    rw [appends.fresh] at below
    exact Nat.lt_irrefl _ below
  · cases new

theorem tail (here : q = p ∧ inlet' = inlet) (waits : a ∈ σ.ids q inlet') :
    [a, task.id].Sublist (σ'.ids q inlet') := by
  rw [appends.ids, if_pos here]
  exact (List.singleton_sublist.mpr waits).append (.refl [task.id])

/-- The new job waits behind those that went the same path before. -/
theorem behind_onPath (inLine : σ.InLine) (sound : σ.Sound) (sound' : σ'.Sound)
    (tallied : σ.Tallied) (tallied' : σ'.Tallied) {path : Path} {event : Event}
    (earlier : event ∈ σ.history ++ events) (queued : path.Queues a event)
    (later : path.Queues b (.submitted task.id task.batch (.queued p inlet)))
    (member : a ∈ σ'.ids q inlet') : [a, b].Sublist (σ'.ids q inlet') := by
  obtain ⟨batch, p₁, inlet₁, rfl⟩ := queued.logged
  have known := queued_of_quiet appends.quiet earlier
  have waits := appends.stays tallied known member
  have there := appends.placed inLine waits
  generalize wrapped : task.batch = own at later
  cases later with
  | shared =>
      cases queued
      exact appends.tail (Placed.unique tallied' there (.shared (appends.more known))) waits
  | @token _ _ t =>
      cases queued
      have unreleased := appends.unreleased inLine rfl
      have lane := (Placed.unique tallied' there (.lane (appends.more known) unreleased)).2
      subst lane
      have pool := (pool_of_ids sound waits).symm.trans (appends.opened t rfl).2
      exact appends.tail ⟨pool, rfl⟩ waits
  | @batch c =>
      cases queued
      obtain ⟨job, inside, rfl⟩ := List.mem_map.mp member
      obtain ⟨_, own⟩ := ((sound'.filed q).of_queue inside).logged
      have same := (tallied'.submitted_once own (appends.more known)).1
      have new : task.job ∈ (σ'.system.pool p).queue inlet := by
        rw [appends.queues]
        simp
      have here := inlet_of_batch sound' inside new same wrapped (appends.live c wrapped)
      exact appends.tail here waits

theorem behind_joined (inLine : σ.InLine) (tallied : σ.Tallied) (tallied' : σ'.Tallied)
    {p' : PoolId} (joined : Placed (σ.history ++ events) p' a .shared)
    (joins : Joins p' b (σ.history ++ events)
      (.submitted task.id task.batch (.queued p inlet)))
    (member : a ∈ σ'.ids q inlet') : [a, b].Sublist (σ'.ids q inlet') := by
  cases joins
  obtain ⟨_, _, _, known⟩ := joined.logged
  have joined : Placed σ'.history p a .shared :=
    joined.grows (by simp [appends.record]) fun _ wrong => nomatch wrong
  have waits := appends.stays tallied (queued_of_quiet appends.quiet known) member
  exact appends.tail (Placed.unique tallied' (appends.placed inLine waits) joined) waits

theorem begun (inLine : σ.InLine) (tallied : σ.Tallied) (precedes : Precedes σ'.history a b)
    (started : .started b label ∈ σ'.history) : StartsBefore σ'.history a b label := by
  have started : .started b label ∈ σ.history := by
    rw [appends.record] at started
    refine started_of_quiet appends.quiet ((List.mem_append.mp started).resolve_right fun new => ?_)
    cases List.mem_singleton.mp new
  have new : b ≠ task.id := by
    rintro rfl
    have below := known_of_started tallied started
    rw [appends.fresh] at below
    exact Nat.lt_irrefl _ below
  rw [appends.record] at precedes
  rw [appends.record, List.append_assoc]
  rcases precedes.of_append with before | ⟨_, _, _, _, queued⟩ | ⟨_, _, joins⟩
  · exact (inLine.begun a b label (before.of_quiet appends.quiet) started).append _
  · obtain ⟨_, _, _, same⟩ := queued.logged
    cases same
    exact absurd rfl new
  · cases joins
    exact absurd rfl new

end Appends

theorem InLine.enters (inLine : σ.InLine) (sound : σ.Sound) (sound' : σ'.Sound)
    (tallied : σ.Tallied) (tallied' : σ'.Tallied)
    (closed : ∀ t, Released σ'.history t →
      t.index < σ'.system.tokens.length ∧ (σ'.system.token t).stage = .closed)
    (appends : Appends σ σ' task p inlet events) : σ'.InLine where
  closed := closed
  placed q inlet' job member := by
    rw [appends.ids] at member
    rcases List.mem_append.mp member with old | new
    · exact appends.placed inLine old
    · split at new
      · next here =>
          cases List.mem_singleton.mp new
          exact here.1 ▸ here.2 ▸ appends.entering inLine
      · cases new
  behind a b precedes q inlet' member := by
    rw [appends.record] at precedes
    rcases precedes.of_append with before | ⟨path, event, earlier, queued, later⟩ |
      ⟨p', joined, joins⟩
    · have before := before.of_quiet appends.quiet
      obtain ⟨⟨_, _, _, known⟩, _⟩ := before.logged
      have waits := appends.stays tallied known member
      exact (inLine.behind a b before q inlet' waits).trans (appends.grown q inlet')
    · exact appends.behind_onPath inLine sound sound' tallied tallied' earlier queued later member
    · exact appends.behind_joined inLine tallied tallied' joined joins member
  begun _ _ _ := appends.begun inLine tallied

/-- A token is released, and its lane goes behind the shared queue. -/
structure Dissolves (σ σ' : Scene) (t : TokenId) (p : PoolId) (name : String) (moved : Nat)
    (events : List Event) : Prop where
  opened : (σ.system.token t).stage ≠ .closed
  pool : (σ.system.token t).pool = p
  gone : (σ'.system.pool p).queue (.lane t) = []
  shared : (σ'.system.pool p).queue .shared =
    (σ.system.pool p).queue .shared ++ (σ.system.pool p).queue (.lane t)
  others : ∀ q inlet, ¬(q = p ∧ (inlet = .shared ∨ inlet = .lane t)) →
    (σ'.system.pool q).queue inlet = (σ.system.pool q).queue inlet
  record : σ'.history = σ.history ++ events ++ [.logged (.tokenReleased t name moved)]
  quiet : ∀ event ∈ events, event.isQuiet = true

namespace Dissolves

variable {name : String} {moved : Nat} (dissolves : Dissolves σ σ' t p name moved events)

include dissolves

theorem more : σ.history ⊆ σ'.history := by
  rw [dissolves.record, List.append_assoc]
  exact List.subset_append_left _ _

theorem released : Released σ'.history t := ⟨name, moved, by simp [dissolves.record]⟩

theorem unreleased (inLine : σ.InLine) : ¬Released σ.history t :=
  fun released => dissolves.opened (inLine.closed t released).2

theorem earlier {u : TokenId} (other : u ≠ t) (released : Released σ'.history u) :
    Released σ.history u := by
  rw [dissolves.record] at released
  refine (released.of_append fun _ _ wrong => ?_).of_quiet dissolves.quiet
  cases wrong
  exact other rfl

theorem joined : σ'.ids p .shared = σ.ids p .shared ++ σ.ids p (.lane t) := by
  rw [Scene.ids, dissolves.shared, List.map_append]
  rfl

theorem empty : σ'.ids p (.lane t) = [] := by
  rw [Scene.ids, dissolves.gone, List.map_nil]

theorem ids (q : PoolId) (inlet : Inlet) :
    q = p ∧ inlet = .shared ∨ q = p ∧ inlet = .lane t ∨
      ¬(q = p ∧ inlet = .shared) ∧ ¬(q = p ∧ inlet = .lane t) ∧
        σ'.ids q inlet = σ.ids q inlet := by
  by_cases first : q = p ∧ inlet = .shared
  · exact .inl first
  · by_cases second : q = p ∧ inlet = .lane t
    · exact .inr (.inl second)
    · refine .inr (.inr ⟨first, second, ?_⟩)
      refine congrArg (List.map Job.id) (dissolves.others q inlet ?_)
      rintro ⟨pool, here | here⟩
      · exact first ⟨pool, here⟩
      · exact second ⟨pool, here⟩

theorem apart (sound : σ.Sound) (other : ¬(q = p ∧ inlet = .lane t))
    (member : job ∈ σ.ids q inlet) : inlet ≠ .lane t := by
  rintro rfl
  exact other ⟨(pool_of_ids sound member).symm.trans dissolves.pool, rfl⟩

theorem placed (inLine : σ.InLine) (sound : σ.Sound) (member : job ∈ σ'.ids q inlet) :
    Placed σ'.history q job inlet := by
  rcases dissolves.ids q inlet with ⟨rfl, rfl⟩ | ⟨rfl, rfl⟩ | ⟨_, other, same⟩
  · rw [dissolves.joined] at member
    rcases List.mem_append.mp member with stays | moves
    · exact (inLine.placed q _ job stays).grows dissolves.more fun _ wrong => nomatch wrong
    · cases inLine.placed q _ job moves with
      | lane logged => exact .handedOver (dissolves.more logged) dissolves.released
  · rw [dissolves.empty] at member
    cases member
  · rw [same] at member
    refine (inLine.placed q inlet job member).grows dissolves.more fun u lane =>
      dissolves.earlier ?_
    rintro rfl
    exact dissolves.apart sound other member lane

/-- Where one waited behind another, it still does. -/
theorem behind_before (inLine : σ.InLine) (before : Precedes σ.history a b)
    (member : a ∈ σ'.ids q inlet) : [a, b].Sublist (σ'.ids q inlet) := by
  have behind := inLine.behind a b before
  rcases dissolves.ids q inlet with ⟨rfl, rfl⟩ | ⟨rfl, rfl⟩ | ⟨_, _, same⟩
  · rw [dissolves.joined] at member ⊢
    rcases List.mem_append.mp member with stays | moves
    · exact (behind q _ stays).trans (List.sublist_append_left _ _)
    · exact (behind q _ moves).trans (List.sublist_append_right _ _)
  · rw [dissolves.empty] at member
    cases member
  · rw [same] at member ⊢
    exact behind q inlet member

theorem behind_joined (inLine : σ.InLine) (sound : σ.Sound) (tallied : σ.Tallied) {p' : PoolId}
    (placed : Placed (σ.history ++ events) p' a .shared)
    (joins : Joins p' b (σ.history ++ events) (.logged (.tokenReleased t name moved)))
    (member : a ∈ σ'.ids q inlet) : [a, b].Sublist (σ'.ids q inlet) := by
  cases joins with
  | handedOver through unstarted =>
      have through := queued_of_quiet dissolves.quiet through
      obtain ⟨p₁, inlet₁, waits⟩ := ids_of_unstarted sound tallied through
        fun label started => unstarted label (List.mem_append_left _ started)
      obtain ⟨rfl, rfl⟩ := Placed.unique tallied (inLine.placed p₁ inlet₁ b waits)
        (.lane through (dissolves.unreleased inLine))
      obtain rfl := dissolves.pool.symm.trans (pool_of_ids sound waits)
      have older {q : PoolId} {inlet : Inlet} (member : a ∈ σ.ids q inlet) :=
        Placed.unique tallied (inLine.placed q inlet a member) (placed.of_quiet dissolves.quiet)
      rcases dissolves.ids q inlet with ⟨rfl, rfl⟩ | ⟨rfl, rfl⟩ | ⟨other, _, same⟩
      · rw [dissolves.joined] at member ⊢
        have stays := (List.mem_append.mp member).resolve_right fun moves => by
          cases (older moves).2
        exact (List.singleton_sublist.mpr stays).append (List.singleton_sublist.mpr waits)
      · rw [dissolves.empty] at member
        cases member
      · rw [same] at member
        exact absurd (older member) other

theorem begun (inLine : σ.InLine) (precedes : Precedes σ'.history a b)
    (started : .started b label ∈ σ'.history) : StartsBefore σ'.history a b label := by
  rw [dissolves.record] at started precedes
  rw [dissolves.record, List.append_assoc]
  have started := started_of_quiet dissolves.quiet
    ((List.mem_append.mp started).resolve_right fun new => by cases List.mem_singleton.mp new)
  rcases precedes.of_append with before | ⟨_, _, _, _, queued⟩ | ⟨_, _, joins⟩
  · exact (inLine.begun a b label (before.of_quiet dissolves.quiet) started).append _
  · cases queued
  · cases joins with
    | handedOver _ unstarted => exact absurd (List.mem_append_left _ started) (unstarted label)

end Dissolves

theorem InLine.releases {name : String} {moved : Nat} (inLine : σ.InLine) (sound : σ.Sound)
    (tallied : σ.Tallied)
    (closed : ∀ t, Released σ'.history t →
      t.index < σ'.system.tokens.length ∧ (σ'.system.token t).stage = .closed)
    (dissolves : Dissolves σ σ' t p name moved events) : σ'.InLine where
  closed := closed
  placed _ _ _ := dissolves.placed inLine sound
  behind a b precedes q inlet member := by
    rw [dissolves.record] at precedes
    rcases precedes.of_append with before | ⟨_, _, _, _, queued⟩ | ⟨p', placed, joins⟩
    · exact dissolves.behind_before inLine (before.of_quiet dissolves.quiet) member
    · cases queued
    · exact dissolves.behind_joined inLine sound tallied placed joins member
  begun _ _ _ := dissolves.begun inLine

theorem Moves.inLine (moves : σ.Moves σ') (sound : σ.Sound) (tallied : σ.Tallied)
    (inLine : σ.InLine) : σ'.InLine := by
  have tallied' := (moves.shift sound).tallied tallied
  have grows := moves.grows sound.registry
  -- a token that was released stays closed
  have closed (added : ∀ t, Released σ'.history t → Released σ.history t ∨
      t.index < σ.system.tokens.length ∧ (σ'.system.token t).stage = .closed) (t : TokenId)
      (released : Released σ'.history t) :
      t.index < σ'.system.tokens.length ∧ (σ'.system.token t).stage = .closed := by
    rcases added t released with old | ⟨known, closed⟩
    · obtain ⟨known, closed⟩ := inLine.closed t old
      refine ⟨(grows.tokens t known).1, ?_⟩
      by_contra opened
      exact moves.open_of known opened closed
    · exact ⟨(grows.tokens t known).1, closed⟩
  cases moves.carries sound with
  | rests queues record quiet =>
      have released (t : TokenId) (released : Released σ'.history t) : Released σ.history t :=
        .of_quiet quiet (record ▸ released)
      refine inLine.rests queues ?_ (closed fun t is => .inl (released t is)) released ?_ ?_
      · rw [record]
        exact List.subset_append_left _ _
      · exact fun a b precedes => .of_quiet quiet (record ▸ precedes)
      · intro a b label precedes started
        rw [record] at started ⊢
        exact (inLine.begun a b label precedes (started_of_quiet quiet started)).append _
  | @runs events task fresh queues record quiet =>
      have released (t : TokenId) (released : Released σ'.history t) : Released σ.history t := by
        rw [record] at released
        exact (released.of_append fun _ _ wrong => by cases wrong).of_quiet quiet
      refine inLine.rests queues ?_ (closed fun t is => .inl (released t is)) released ?_ ?_
      · rw [record, List.append_assoc]
        exact List.subset_append_left _ _
      · intro a b precedes
        rw [record] at precedes
        exact precedes.of_start.of_quiet quiet
      · intro a b label precedes started
        rw [record, List.append_assoc] at started ⊢
        refine (inLine.begun a b label precedes ?_).append _
        rw [← List.append_assoc] at started
        rcases List.mem_append.mp started with old | new
        · exact started_of_quiet quiet old
        · cases List.mem_singleton.mp new
          obtain ⟨_, _, _, _, logged⟩ := precedes.logged
          have below := known_of_logged tallied logged
          rw [fresh] at below
          exact absurd below (Nat.lt_irrefl _)
  | starts front others record =>
      refine inLine.starts sound tallied tallied' (closed fun t released => .inl ?_) front others
        record
      rw [record] at released
      exact released.of_append fun _ _ wrong => by cases wrong
  | enters fresh queues opened live record quiet =>
      have appends := Appends.mk fresh queues opened live record quiet
      exact inLine.enters sound (moves.sound sound) tallied tallied'
        (closed fun t released => .inl (appends.released released)) appends
  | @releases events t p name moved opened pool closed' gone shared others record quiet =>
      have dissolves := Dissolves.mk opened pool gone shared others record quiet
      refine inLine.releases sound tallied (closed fun u released => ?_) dissolves
      by_cases same : u = t
      · subst same
        exact .inr ⟨token_known opened, closed'⟩
      · exact .inl (dissolves.earlier same released)

theorem InLine.load (bodies : Table (List Op)) (host : Host) (ops : List Op) :
    (Machine.load bodies host ops).scene.InLine where
  closed := by
    rintro t ⟨_, _, member⟩
    cases member
  placed p inlet job member := by cases inlet <;> cases member
  behind a b precedes := by
    obtain ⟨⟨_, _, _, member⟩, _⟩ := precedes.logged
    cases member
  begun a b label _ started := nomatch started

end Scene

namespace Machine

variable {m : Machine} {a b : JobId} {label : String}

theorem Solo.inLine (solo : m.Solo) : m.scene.Tallied ∧ m.scene.InLine := by
  let holds (σ : Scene) : Prop := σ.Tallied ∧ σ.InLine
  have start : ∀ bodies host ops, holds (Machine.load bodies host ops).scene :=
    fun bodies host ops => ⟨.load bodies host ops, .load bodies host ops⟩
  refine solo.invariant start fun sound kept moves => ?_
  obtain ⟨tallied, inLine⟩ := kept
  exact ⟨(moves.shift sound).tallied tallied, moves.inLine sound tallied inLine⟩

/-- Queued jobs start in the order in which they were queued. Take two jobs that were queued in the
shared queue of one pool, or through one token, or to one batch, or of which one got into a shared
queue before the other, be it queued there or handed over by the release of a token. When the later
one has been started, the earlier one was started before it. -/
theorem Solo.starts_in_order (solo : m.Solo) (precedes : Precedes m.history a b)
    (started : .started b label ∈ m.history) : StartsBefore m.history a b label :=
  solo.inLine.2.begun a b label precedes started

/-- A job is queued through a token, and another one in the shared queue of the pool. The token is
dropped, and one more job is queued. Then the jobs are taken, the second one while the first one
runs, which panics. -/
def handover : List Op :=
  [.pool (.given "p") .missing .missing .missing .missing,
    .token (.given "t") (.given "p"),
    .schedule (.given "p") (.given (.own "moved" [])) (.given .forced) (.given "t"),
    .schedule (.given "p") (.given (.own "early" [.exec (.given "p") .missing,
      .panic (.given .unit)])) (.given .forced) .missing,
    .drop (.given "t"),
    .schedule (.given "p") (.given (.own "late" [])) (.given .forced) .missing,
    .execAll (.given "p") .missing]

/-- The job that was handed over starts after the one that was in the shared queue before and
before the one that came into it afterwards. -/
theorem handover_in_order :
    let final := (Machine.load [] .plain handover).run 31
    final.Solo ∧ Precedes final.history ⟨1⟩ ⟨0⟩ ∧ .started ⟨0⟩ "moved" ∈ final.history ∧
      StartsBefore final.history ⟨1⟩ ⟨0⟩ "moved" ∧ Precedes final.history ⟨0⟩ ⟨2⟩ ∧
      .started ⟨2⟩ "late" ∈ final.history ∧ StartsBefore final.history ⟨0⟩ ⟨2⟩ "late" := by
  intro final
  have solo : final.Solo := (Solo.load [] .plain handover).run 31 (by decide)
  let upTo := final.history.take
  have joins : Joins ⟨0⟩ ⟨0⟩ (upTo 8) (.logged (.tokenReleased ⟨0⟩ "p" 1)) := by
    refine .handedOver (List.mem_of_getElem? (i := 4) rfl) fun label member => ?_
    have none : (upTo 8).all (fun event => event.mark != some (.starts ⟨0⟩)) = true := rfl
    have other := List.all_eq_true.mp none _ member
    simp [Event.mark] at other
  have behind : Precedes final.history ⟨1⟩ ⟨0⟩ :=
    @Precedes.inShared _ _ _ (upTo 6) ((upTo 8).drop 7) (final.history.drop 9) _ _ ⟨0⟩ rfl .queued
      joins
  have before : Precedes final.history ⟨0⟩ ⟨2⟩ :=
    @Precedes.inShared _ _ _ (upTo 8) ((upTo 10).drop 9) (final.history.drop 11) _ _ ⟨0⟩ rfl joins
      .queued
  have moved : .started ⟨0⟩ "moved" ∈ final.history := List.mem_of_getElem? (i := 13) rfl
  have late : .started ⟨2⟩ "late" ∈ final.history := List.mem_of_getElem? (i := 18) rfl
  exact ⟨solo, behind, moved, Solo.starts_in_order solo behind moved, before, late,
    Solo.starts_in_order solo before late⟩

end Machine

end TaskPool
