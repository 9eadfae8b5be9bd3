import TaskPool.Proofs.MergedWorld
import TaskPool.Proofs.OperationOpenings

/-!
# Beginning an operation in the merged world

Every operation of a script begins in the merged world as it does in the world itself: it makes the
same checks, and what it does then is what it did before, seen through the merging. An operation
that submits or makes something is looked at together with its outcome, since only the outcome tells
whether the pools were used as they should.
-/

namespace TaskPool

open TaskPool.System

/-- The operation means the same whichever kind of batch there is on the pools. To skip a check is
supported by one kind only, and only the other kind is moved to a thread of its own for a wait. -/
def World.KindFree (w : World) (home : PoolId → Bool) : Op → Prop
  | .schedule (.given name) _ (.given .skip) _ | .wait (.given name) _ true =>
    ∀ b, w.names.find? name = some (.batch b) → home (w.system.batch b).pool = false
  | _ => True

namespace Merging

variable {μ : Merging} {w : World} {ctx : Context}

theorem ofNotices_mapped (notices : List Notice) :
    Event.ofNotices (notices.filterMap μ.notice) = (Event.ofNotices notices).filterMap μ.event := by
  rw [Event.ofNotices, Event.ofNotices, List.filterMap_map, List.map_filterMap]
  rfl

theorem begun_mapped {begun begun' : Begun} (world : begun'.world = μ.world begun.world)
    (signal : begun'.signal = begun.signal)
    (events : begun'.events = begun.events.filterMap μ.event)
    (push : begun'.push = begun.push.map μ.frame) (spawn : begun'.spawn = begun.spawn.map μ.thread)
    (loans : begun'.loans = begun.loans.map μ.loan) (onFailure : begun'.onFailure = begun.onFailure) :
    Except.ok begun' = (Except.ok begun : Except Refusal Begun).map μ.begun := by
  obtain ⟨⟨_, _, _, _, _⟩, _, _⟩ := begun'
  simp only at world signal events push spawn loans onFailure
  subst world signal events push spawn loans onFailure
  rfl

theorem reply_mapped {w' : World} (same : w' = μ.world w) {reply reply' : Reply}
    (told : reply' = reply) :
    Except.ok (Begun.reply w' reply') =
      (Except.ok (Begun.reply w reply) : Except Refusal Begun).map μ.begun := by
  subst same told
  rfl

theorem reasons_world (w : World) : (μ.world w).reasons = w.reasons := by
  simp [World.reasons, Merging.world, Merging.system]

theorem crew_mapped (p : PoolId) (workers : List Nat) :
    p.crew workers = (p.crew workers).map μ.thread := by
  rw [PoolId.crew, List.map_map]
  rfl

theorem startPool_mapped (id : Arg String) (threads : Arg Nat) (name : Arg String)
    (multiplier idleMs : Arg Nat) :
    Begun.startPool ctx (μ.world w) id threads name multiplier idleMs =
      (Begun.startPool ctx w id threads name multiplier idleMs).map μ.begun := by
  unfold Begun.startPool
  refine bind_mapped fun id _ => ?_
  rw [checkFresh_world]
  refine bind_mapped fun _ _ => ?_
  refine bind_mapped fun workers _ => ?_
  refine bind_mapped fun _ _ => ?_
  refine bind_mapped fun name _ => ?_
  refine bind_mapped fun multiplier _ => ?_
  refine bind_mapped fun idleMs _ => ?_
  have started := startPool (μ := μ) (s := w.system) w.reasons { name, workers, multiplier, idleMs }
  rcases made : w.system.startPool w.reasons { name, workers, multiplier, idleMs } with
    ⟨p, system, notices⟩
  rw [made] at started
  rw [reasons_world, show (μ.world w).system = μ.system w.system from rfl]
  simp only [started, made]
  have named := bind_world (μ := μ) (w := { w with system }) id (.pool p)
  refine begun_mapped named ?_ (ofNotices_mapped notices) rfl (crew_mapped _ _) rfl rfl
  exact congrArg Signal.returned ((congrArg (·.poolState p) named).trans (poolState_world p))

theorem nameCommonPool_mapped (id : Arg String) :
    Begun.nameCommonPool ctx (μ.world w) id = (Begun.nameCommonPool ctx w id).map μ.begun := by
  have shared : ∀ w : World, Begun.commonPool (μ.world w) =
      ((Begun.commonPool w).1, μ.world (Begun.commonPool w).2.1,
        (Begun.commonPool w).2.2.map μ.thread) := by
    intro w
    simp only [Begun.commonPool, show (μ.world w).common = w.common from rfl]
    cases w.common with
    | some p => rfl
    | none =>
        have started := startPool (μ := μ) (s := w.system) (fun _ => none)
          { PoolConfig.standard w.host.cores with name := "taskset-global" }
        rw [show (μ.world w).system = μ.system w.system from rfl,
          show (μ.world w).host = w.host from rfl]
        dsimp only
        rw [started, ← crew_mapped]
        rfl
  unfold Begun.nameCommonPool
  refine bind_mapped fun id _ => ?_
  rw [checkFresh_world]
  refine bind_mapped fun _ _ => ?_
  rcases first : Begun.commonPool w with ⟨p, w', spawn⟩
  have first' := shared w
  rw [first] at first'
  simp only [first', shared w']
  have named := bind_world (μ := μ) (w := w') id (.commonPool p)
  refine begun_mapped named ?_ rfl rfl rfl rfl rfl
  show Signal.returned (.commonPool ((μ.system w'.system).pool p).name
    (0 < ((μ.system w'.system).pool p).workers) _) = _
  rw [pool_system]
  rfl

/-- What holds after a turn that uses the pools as it should: no token was made but that of a batch,
and no job was queued that is not wrapped for one. -/
structure Keeping (μ : Merging) (s : System Work) (events : List Event) : Prop where
  covers : μ.Covers s
  owned : ∀ t, μ.own t = true → t.index < s.tokens.length → ∃ b, (s.batch b).kind = .single t
  wrapped : ∀ job q inlet, μ.home q = true → .submitted job none (.queued q inlet) ∉ events

theorem issueToken_mapped (suits : μ.Suits w) (driver : ctx.thread = .driver) (id pool : Arg String)
    (keeping : ∀ begun, Begun.issueToken ctx w id pool = .ok begun →
      μ.Keeping begun.world.system begun.events) :
    Begun.issueToken ctx (μ.world w) id pool = (Begun.issueToken ctx w id pool).map μ.begun := by
  unfold Begun.issueToken at keeping ⊢
  refine bind_mapped_of keeping fun id _ keeping => ?_
  rw [checkFresh_world]
  refine bind_mapped_of keeping fun _ _ keeping => ?_
  refine bind_mapped_of keeping fun pool _ keeping => ?_
  rw [resolvePool_world driver]
  refine bind_mapped_of keeping fun p _ keeping => ?_
  have keeping := keeping _ rfl
  have known : w.system.tokens.length < (w.system.issueToken p).2.1.tokens.length := by
    simp [System.issueToken, modifyPool]
  have issued : ((w.system.issueToken p).2.1.token ⟨w.system.tokens.length⟩).pool = p :=
    congrArg Token.pool token_issueToken_self
  have covers : μ.own ⟨w.system.tokens.length⟩ = μ.home p :=
    (keeping.covers _ known).trans (congrArg μ.home issued)
  -- no batch owns the new token
  have other : μ.own ⟨w.system.tokens.length⟩ = false := by
    refine Bool.eq_false_iff.mpr fun own => ?_
    obtain ⟨b, owns⟩ := keeping.owned _ own known
    exact absurd (suits.registry.owned b _ owns).1 (Nat.lt_irrefl _)
  have made := issueToken suits.covers suits.registry (covers.symm.trans other) other
  rcases issue : w.system.issueToken p with ⟨t, system, notices⟩
  rw [issue] at made
  rw [show (μ.world w).system = μ.system w.system from rfl, made]
  have named := bind_world (μ := μ) (w := { w with system }) id (.token t)
  exact begun_mapped named rfl (ofNotices_mapped notices) rfl rfl rfl rfl

/-- A batch on a home pool has many producers from now on. -/
theorem makeBatch_mapped (suits : μ.Suits w) (driver : ctx.thread = .driver) (id pool : Arg String)
    (multiplier : Arg Nat) (single : Arg Bool)
    (keeping : ∀ begun, Begun.makeBatch ctx w id pool multiplier single = .ok begun →
      μ.Keeping begun.world.system begun.events) :
    Begun.makeBatch ctx (μ.world w) id pool multiplier (singleAsMulti μ.name pool single) =
      (Begun.makeBatch ctx w id pool multiplier single).map μ.begun := by
  unfold Begun.makeBatch at keeping ⊢
  refine bind_mapped_of keeping fun id _ keeping => ?_
  rw [checkFresh_world]
  refine bind_mapped_of keeping fun _ _ keeping => ?_
  refine bind_mapped_of keeping fun name given keeping => ?_
  have many : (singleAsMulti μ.name pool single).require =
      single.require.map (· && name != μ.name) := by
    cases pool with
    | missing | malformed => cases given
    | given =>
        cases given
        cases single <;> rfl
  rw [resolvePool_world driver]
  refine bind_mapped_of keeping fun p resolved keeping => ?_
  refine bind_mapped_of keeping fun multiplier _ keeping => ?_
  refine map_bind_mapped_of many keeping fun single _ keeping => ?_
  have keeping := keeping _ rfl
  have home := suits.named name p (World.find_of_resolvePool suits.registry resolved)
  have same : (name != μ.name) = !μ.home p := by
    rw [Bool.eq_iff_iff]
    simp [home]
  have made := makeBatch suits.covers suits.registry (q := p) single multiplier (by
    rintro rfl
    have known : w.system.tokens.length <
        (w.system.makeBatch p true multiplier).2.1.tokens.length := by
      simp [System.makeBatch, System.issueToken, modifyPool]
    have issued : (w.system.makeBatch p true multiplier).2.1.token ⟨w.system.tokens.length⟩ =
        { pool := p } := token_issueToken_self (s := w.system)
    exact (keeping.covers _ known).trans (congrArg (fun token => μ.home token.pool) issued))
  dsimp only
  rw [same]
  rcases built : w.system.makeBatch p single multiplier with ⟨b, system, notices⟩
  rw [built] at made
  rw [show (μ.world w).system = μ.system w.system from rfl, made]
  have named := bind_world (μ := μ) (w := { w with system }) id (.batch b)
  refine begun_mapped named ?_ (ofNotices_mapped notices) rfl rfl rfl rfl
  exact congrArg Signal.returned ((congrArg (·.batchState b) named).trans (batchState_world b))

theorem drop_mapped (suits : μ.Suits w) (driver : ctx.thread = .driver) (id : Arg String) :
    Begun.drop ctx (μ.world w) id = (Begun.drop ctx w id).map μ.begun := by
  unfold Begun.drop
  refine bind_mapped fun name _ => ?_
  refine bind_mapped fun _ _ => ?_
  refine bind_mapped fun _ _ => ?_
  refine map_bind_mapped (resolve_world driver name) fun object resolved => ?_
  have named := World.find_of_resolve resolved
  have kept := suits.keeps named
  rw [suits.isBusy kept]
  refine bind_mapped fun _ _ => ?_
  rw [unbind_world]
  cases object with
  | commonPool => exact reply_mapped rfl rfl
  | token t =>
      have known := token_known (suits.registry.named name _ (Table.mem_of_find? named)).1
      have released := releaseToken suits.covers suits.registry known kept
      dsimp only [Merging.object]
      rw [show (μ.world (w.unbind name)).system = μ.system w.system from rfl, released]
      exact begun_mapped rfl rfl (ofNotices_mapped _) rfl rfl rfl rfl
  | batch b => exact begun_mapped (congrArg (fun system => { μ.world (w.unbind name) with system })
      (beginClosingBatch b)) rfl rfl rfl rfl rfl rfl
  | pool p =>
      have closing := beginClosingPool (μ := μ) (s := w.system) p
      dsimp only [Merging.object]
      rw [show (μ.world (w.unbind name)).system = μ.system w.system from rfl, closing]
      exact begun_mapped rfl rfl (ofNotices_mapped _) rfl rfl rfl rfl

theorem block_mapped (ctx : Context) (gate : String) :
    Turn.block ctx (μ.world w) gate = μ.turn (Turn.block ctx w gate) := by
  unfold Turn.block
  rw [show (μ.world w).gate gate = w.gate gate from rfl]
  split <;> rfl

theorem above_mapped (turn : Turn) (frames : List Frame) :
    μ.turn (turn.above frames) = (μ.turn turn).above (frames.map μ.frame) := by
  simp only [Turn.above, Merging.turn, List.map_append]

theorem launch_mapped (ctx : Context) (job : Job Work) (w : World) :
    (μ.job job).launch ctx (μ.world w) = μ.turn (job.launch ctx w) := by
  obtain ⟨id, batch, work⟩ := job
  have reports : (batch.toList.map (Frame.settle id)).map μ.frame =
      batch.toList.map (Frame.settle id) := by
    rw [List.map_map]
    rfl
  simp only [Job.launch, above_mapped, reports]
  cases work with
  | body label ops onBatch => rfl
  | park gate => exact congrArg (Turn.above _) (block_mapped ctx gate)

theorem runNext_mapped (suits : μ.Suits w) {source : Source} (handles : μ.Handles w.system source)
    (ctx : Context) :
    (μ.source source).runNext ctx (μ.world w) = (source.runNext ctx w).map μ.turn := by
  have taken := take suits.covers suits.registry handles
  have receiver : (μ.source source).receiver = source.receiver := by
    cases source with
    | pool => rfl
    | lane q t =>
        simp only [Merging.source]
        split <;> rfl
  simp only [Source.runNext, show (μ.world w).system = μ.system w.system from rfl, taken, receiver,
    Option.map_map]
  congr 1
  funext taken
  obtain ⟨job, system⟩ := taken
  have launched := launch_mapped (μ := μ) ctx job { w with system }
  simp only [Function.comp_apply, above_mapped]
  rw [← launched]
  rfl

theorem Suits.handles_batch (suits : μ.Suits w) {b : BatchId}
    (opened : (w.system.batch b).stage ≠ .closed) :
    μ.Handles w.system (w.system.sourceOf b) := by
  unfold System.sourceOf
  dsimp only
  split
  · next t owns =>
      obtain ⟨known, issuer, _⟩ := suits.registry.owned b t owns
      refine ⟨known, fun own => ⟨issuer, ?_⟩⟩
      have home : μ.home (w.system.batch b).pool = true := by
        rw [← issuer, ← suits.covers t known, own]
      have only := suits.narrow b opened home
      simp only [Batch.inlet, owns] at only
      exact only
  · trivial

theorem Suits.handles_target (suits : μ.Suits w) {target : Target} {hold : Hold}
    (held : ∀ loan ∈ target.loans hold, w.system.Nameable loan.object) :
    μ.Handles w.system (target.source w.system) := by
  cases target with
  | pool p => trivial
  | token receiver t =>
      have nameable : w.system.Nameable (.token t) :=
        held ⟨.token t, .use⟩ (List.mem_cons_of_mem _ List.mem_cons_self)
      have other : μ.own t = false := suits.keeps_nameable nameable
      exact ⟨token_known nameable.1, fun own => absurd own (by simp [other])⟩
  | batch b => exact suits.handles_batch (Stage.opened (held ⟨.batch b, hold⟩ List.mem_cons_self))

theorem sourceOf_system (s : System Work) (b : BatchId) :
    (μ.system s).sourceOf b = μ.source (s.sourceOf b) := by
  simp only [System.sourceOf, batch_system, Merging.batch]
  cases owns : (s.batch b).kind with
  | multi => rfl
  | single t =>
      cases own : μ.own t <;> simp [Merging.kind, Merging.source, own]

theorem sourceOf_mapped (w : World) (on : Object) (token : Option Object)
    (kept : ∀ object, token = some object → μ.Keeps object) :
    Begun.sourceOf (μ.world w) (μ.object on) (token.map μ.object) =
      (Begun.sourceOf w on token).map μ.source := by
  cases token with
  | none =>
      cases on with
      | pool | commonPool | token => rfl
      | batch b => exact congrArg Except.ok (sourceOf_system w.system b)
  | some object =>
      cases on <;> cases object <;> try rfl
      all_goals
        have other := kept _ rfl
        simp only [Keeps] at other
        simp [Merging.object, Begun.sourceOf, Except.map, Merging.source, other]

theorem Suits.handles (suits : μ.Suits w) {on : Object} {token : Option Object} {source : Source}
    (named : ∃ name, w.names.find? name = some on)
    (named' : ∀ object, token = some object → ∃ name, w.names.find? name = some object)
    (found : Begun.sourceOf w on token = .ok source) : μ.Handles w.system source := by
  obtain ⟨name, own⟩ := named
  obtain ⟨target, asked, rfl⟩ := Begun.asked_of_sourceOf (suits.registry.not_common own) found
  have held : ∀ loan ∈ target.loans .use, w.system.Nameable loan.object := by
    intro loan member
    obtain ⟨name, found⟩ := asked.named ⟨name, own⟩ named' loan member
    exact suits.registry.named name _ (Table.mem_of_find? found)
  exact suits.handles_target held

theorem resolveOptional_mapped (driver : ctx.thread = .driver) (token : Option String) :
    Begun.resolveOptional ctx (μ.world w) token =
      (Begun.resolveOptional ctx w token).map (Option.map μ.object) := by
  cases token with
  | none => rfl
  | some name =>
      simp only [Begun.resolveOptional, resolve_world driver]
      cases w.resolve ctx.thread name <;> rfl

theorem checkShared_mapped (on : Object) :
    Begun.checkShared (μ.world w) (μ.object on) = Begun.checkShared w on := by
  cases on with
  | batch b => simp only [Merging.object, Begun.checkShared, isAwaited_world]
  | pool | commonPool | token => rfl

theorem held_mapped (on : Object) (token : Option Object) (hold : Hold) :
    Begun.held (μ.object on) (token.map μ.object) hold = (Begun.held on token hold).map μ.loan := by
  cases on <;> cases token <;> rfl

theorem exec_mapped (suits : μ.Suits w) (driver : ctx.thread = .driver) (on token : Arg String) :
    Begun.exec ctx (μ.world w) on token = (Begun.exec ctx w on token).map μ.begun := by
  unfold Begun.exec
  refine bind_mapped fun name _ => ?_
  refine bind_mapped fun tokenName given => ?_
  refine map_bind_mapped (resolve_world driver name) fun on resolved => ?_
  refine map_bind_mapped (resolveOptional_mapped driver tokenName) fun token resolved' => ?_
  obtain ⟨named, named'⟩ := (Begun.finds_of_resolve resolved given resolved').named
  have kept : ∀ object, token = some object → μ.Keeps object := by
    intro object is
    obtain ⟨_, named⟩ := named' object is
    exact suits.keeps named
  refine map_bind_mapped (sourceOf_mapped w on token kept) fun source found => ?_
  rw [checkShared_mapped]
  refine bind_mapped fun _ _ => ?_
  rw [held_mapped, runNext_mapped suits (suits.handles named named' found)]
  cases source.runNext ctx w with
  | none => exact begun_mapped rfl rfl rfl rfl rfl rfl rfl
  | some turn =>
      exact begun_mapped rfl rfl rfl (congrArg Turn.push (above_mapped turn [.executed])).symm rfl rfl
        rfl

theorem execAll_mapped (suits : μ.Suits w) (driver : ctx.thread = .driver) (on token : Arg String) :
    Begun.execAll ctx (μ.world w) on token = (Begun.execAll ctx w on token).map μ.begun := by
  unfold Begun.execAll
  refine bind_mapped fun name _ => ?_
  refine bind_mapped fun tokenName given => ?_
  refine map_bind_mapped (resolve_world driver name) fun on resolved => ?_
  refine map_bind_mapped (resolveOptional_mapped driver tokenName) fun token resolved' => ?_
  have kept : ∀ object, token = some object → μ.Keeps object := by
    intro object is
    obtain ⟨_, named⟩ := (Begun.finds_of_resolve resolved given resolved').named.2 object is
    exact suits.keeps named
  refine map_bind_mapped (sourceOf_mapped w on token kept) fun source _ => ?_
  rw [held_mapped]
  cases on <;> exact begun_mapped rfl rfl rfl rfl rfl rfl rfl

theorem taskBody_mapped (w : World) (task : TaskSource Op) :
    Begun.taskBody (μ.world w) (task.asMulti μ.name) =
      (Begun.taskBody w task).map fun (label, ops) => (label, opsAsMulti μ.name ops) := by
  cases task with
  | own => rfl
  | named name =>
      have found : (bodiesAsMulti μ.name w.bodies).find? name =
          (w.bodies.find? name).map (opsAsMulti μ.name) := Table.find?_map _ name w.bodies
      simp only [TaskSource.asMulti, Begun.taskBody, show (μ.world w).bodies =
        bodiesAsMulti μ.name w.bodies from rfl, found]
      cases w.bodies.find? name <;> rfl

theorem require_task (task : Arg (TaskSource Op)) :
    (argAsMulti μ.name task).require = task.require.map (TaskSource.asMulti μ.name) := by
  cases task <;> rfl

theorem Suits.kind (suits : μ.Suits w) {b : BatchId} (apart : μ.home (w.system.batch b).pool = false)
    {t : TokenId} (owns : (w.system.batch b).kind = .single t) : μ.own t = false := by
  obtain ⟨known, issuer, _⟩ := suits.registry.owned b t owns
  rw [suits.covers t known, issuer, apart]

theorem entryPoint_mapped (suits : μ.Suits w) (on : Object) (via : Via) (token : Option Object)
    (plain : via = .skip → ∀ b, on = .batch b → μ.home (w.system.batch b).pool = false) :
    Begun.entryPoint (μ.world w) (μ.object on) via (token.map μ.object) =
      (Begun.entryPoint w on via token).map μ.entry := by
  cases on with
  | batch b =>
      cases token with
      | some object => cases via <;> cases object <;> rfl
      | none =>
          cases via with
          | plain | forced | unknown => rfl
          | skip =>
              have apart := plain rfl b rfl
              simp only [Merging.object, Option.map_none, Begun.entryPoint,
                show (μ.world w).system = μ.system w.system from rfl, batch_system, Merging.batch]
              cases owns : (w.system.batch b).kind with
              | multi => rfl
              | single t =>
                  have other := suits.kind apart owns
                  simp [Merging.kind, other, Except.map]
  | pool | commonPool | token =>
      cases token with
      | none => cases via <;> rfl
      | some object => cases via <;> cases object <;> rfl

theorem Suits.submittable (suits : μ.Suits w) {on : Object} {token : Option Object} {entry : Entry}
    {via : Via} {work : Work} (named : ∃ name, w.names.find? name = some on)
    (named' : ∀ object, token = some object → ∃ name, w.names.find? name = some object)
    (point : Begun.entryPoint w on via token = .ok entry)
    (wrapped : ∀ q inlet, μ.home q = true → (w.system.submit entry work).route = .queued q inlet →
      (w.system.submit entry work).job.batch ≠ none) :
    μ.Submittable w.system entry work := by
  obtain ⟨name, named⟩ := named
  have asked := Begun.asked_of_entryPoint (suits.registry.not_common named) point
  refine ⟨?_, ?_, wrapped⟩
  · rintro receiver t forced rfl
    cases asked with
    | token =>
        obtain ⟨name, named⟩ := named' _ rfl
        have opened := (suits.registry.named name _ (Table.mem_of_find? named)).1
        exact ⟨token_known opened, opened, suits.keeps named⟩
  · rintro b admission rfl
    cases asked with
    | batch => exact Stage.opened (suits.registry.named name _ (Table.mem_of_find? named))

def submitted (ctx : Context) (w : World) (made : Submission Work) (loans : List Loan) : Begun :=
  { ((if made.route.runsNow then made.job.launch ctx { w with system := made.system }
      else Turn.reply { w with system := made.system } .nothing : Turn).after
        (Event.ofNotices made.notices ++
          [.submitted made.job.id made.job.batch made.route])) with
    loans }

theorem submitted_mapped (ctx : Context) (w : World) (made : Submission Work) (loans : List Loan) :
    Except.ok (submitted ctx (μ.world w) (μ.submission made) (loans.map μ.loan)) =
      (Except.ok (submitted ctx w made loans) : Except Refusal Begun).map μ.begun := by
  obtain ⟨system, job, route, notices⟩ := made
  have now : (μ.route route).runsNow = route.runsNow := by cases route <;> rfl
  have events : ∀ turn : Turn,
      (Event.ofNotices (notices.filterMap μ.notice) ++
        [Event.submitted job.id job.batch (μ.route route)]) ++ (μ.turn turn).events =
      ((Event.ofNotices notices ++ [Event.submitted job.id job.batch route]) ++
        turn.events).filterMap μ.event := by
    intro turn
    rw [List.filterMap_append, List.filterMap_append, ← ofNotices_mapped]
    rfl
  simp only [submitted, submission, now]
  cases route.runsNow with
  | true =>
      have launched := launch_mapped (μ := μ) ctx job { w with system }
      simp only [if_true]
      rw [show ({ μ.world w with system := μ.system system } : World) =
        μ.world { w with system } from rfl, launched]
      exact begun_mapped rfl rfl (events _) rfl rfl rfl rfl
  | false =>
      exact begun_mapped rfl rfl (events (Turn.reply { w with system } .nothing)) rfl rfl rfl rfl

theorem schedule_mapped (suits : μ.Suits w) (driver : ctx.thread = .driver) (on : Arg String)
    (task : Arg (TaskSource Op)) (via : Arg Via) (token : Arg String)
    (plain : w.KindFree μ.home (.schedule on task via token))
    (keeping : ∀ begun, Begun.schedule ctx w on task via token = .ok begun →
      μ.Keeping begun.world.system begun.events) :
    Begun.schedule ctx (μ.world w) on (argAsMulti μ.name task) via token =
      (Begun.schedule ctx w on task via token).map μ.begun := by
  unfold Begun.schedule at keeping ⊢
  refine bind_mapped_of keeping fun name given keeping => ?_
  refine map_bind_mapped_of (require_task task) keeping fun task _ keeping => ?_
  refine map_bind_mapped_of (taskBody_mapped w task) keeping fun ⟨label, body⟩ _ keeping => ?_
  refine bind_mapped_of keeping fun way asked keeping => ?_
  refine bind_mapped_of keeping fun tokenName optional keeping => ?_
  refine map_bind_mapped_of (resolve_world driver name) keeping fun object resolved keeping => ?_
  refine map_bind_mapped_of (resolveOptional_mapped driver tokenName) keeping
    fun other resolved' keeping => ?_
  obtain ⟨named, named'⟩ := (Begun.finds_of_resolve resolved optional resolved').named
  have plain : way = .skip → ∀ b, object = .batch b → μ.home (w.system.batch b).pool = false := by
    rintro rfl b rfl
    cases on with
    | missing | malformed => cases given
    | given =>
        cases given
        cases via with
        | missing | malformed => cases asked
        | given =>
            cases asked
            exact plain b (World.find_of_resolve resolved)
  refine map_bind_mapped_of (entryPoint_mapped suits object way other plain) keeping
    fun entry point keeping => ?_
  rw [checkShared_mapped]
  refine bind_mapped_of keeping fun _ _ keeping => ?_
  have finish : ∀ onBatch : Option String,
      (∀ job q inlet, μ.home q = true → .submitted job none (.queued q inlet) ∉
        (submitted ctx w (w.system.submit entry (.body label body onBatch))
          (Begun.held object other .share)).events) →
      Except.ok (submitted ctx (μ.world w)
          ((μ.world w).system.submit (μ.entry entry) (μ.work (.body label body onBatch)))
          (Begun.held (μ.object object) (other.map μ.object) .share)) =
        (Except.ok (submitted ctx w (w.system.submit entry (.body label body onBatch))
          (Begun.held object other .share)) : Except Refusal Begun).map μ.begun := by
    intro onBatch wrapped
    have may : μ.Submittable w.system entry (.body label body onBatch) := by
      refine suits.submittable named named' point fun q inlet home queued raw => ?_
      refine wrapped (w.system.submit entry (.body label body onBatch)).job.id q inlet home
        (List.mem_append_left _ (List.mem_append_right _ ?_))
      exact List.mem_singleton.mpr (congrArg₂ (Event.submitted _) raw.symm queued.symm)
    have made := submit suits.covers suits.registry suits.narrow may
    rw [show (μ.world w).system = μ.system w.system from rfl, made, held_mapped]
    exact submitted_mapped ctx w _ _
  cases object <;> exact finish _ (keeping _ rfl).wrapped

theorem wait_mapped (suits : μ.Suits w) (driver : ctx.thread = .driver) (on : Arg String)
    (onFailure : OnFailure) (elsewhere : Bool)
    (plain : w.KindFree μ.home (.wait on onFailure elsewhere)) :
    Begun.wait ctx (μ.world w) on onFailure elsewhere =
      (Begun.wait ctx w on onFailure elsewhere).map μ.begun := by
  unfold Begun.wait
  refine bind_mapped fun name given => ?_
  refine map_bind_mapped (resolve_world driver name) fun object resolved => ?_
  have named := World.find_of_resolve resolved
  refine bind_mapped fun _ _ => ?_
  have asked : Begun.asBatch (μ.object object) = Begun.asBatch object := by cases object <;> rfl
  rw [asked]
  refine bind_mapped fun b kind => ?_
  cases object with
  | pool | commonPool | token => cases kind
  | batch b =>
      cases kind
      have moves : (elsewhere && (μ.world w).isLocal (μ.object (.batch b))) =
          (elsewhere && w.isLocal (.batch b)) := by
        cases elsewhere with
        | false => rfl
        | true =>
            have apart : μ.home (w.system.batch b).pool = false := by
              cases on with
              | missing | malformed => cases given
              | given =>
                  cases given
                  exact plain b named
            simp only [Merging.object, World.isLocal,
              show (μ.world w).system = μ.system w.system from rfl, batch_system, Merging.batch]
            cases owns : (w.system.batch b).kind with
            | multi => rfl
            | single t =>
                simp only [Merging.kind, suits.kind apart owns]
                rfl
      simp only [moves, suits.inUse (suits.keeps named)]
      refine bind_mapped fun _ _ => ?_
      refine bind_mapped fun _ _ => ?_
      split
      · exact begun_mapped (congrArg (fun w' : World => { w' with spawned := w.spawned + 1 })
          (unbind_world name)) rfl rfl rfl rfl rfl rfl
      · exact begun_mapped rfl rfl rfl rfl rfl rfl rfl

theorem tryWait_mapped (suits : μ.Suits w) (driver : ctx.thread = .driver) (on : Arg String)
    (max : Arg Nat) (onFailure : OnFailure) :
    Begun.tryWait ctx (μ.world w) on max onFailure =
      (Begun.tryWait ctx w on max onFailure).map μ.begun := by
  unfold Begun.tryWait
  refine bind_mapped fun max _ => ?_
  refine bind_mapped fun name _ => ?_
  refine map_bind_mapped (resolve_world driver name) fun object resolved => ?_
  have asked : Begun.asBatch (μ.object object) = Begun.asBatch object := by cases object <;> rfl
  rw [asked]
  refine bind_mapped fun b _ => ?_
  rw [suits.inUse (suits.keeps (World.find_of_resolve resolved))]
  refine bind_mapped fun _ _ => ?_
  exact begun_mapped rfl rfl rfl rfl rfl rfl rfl

theorem stat_mapped (driver : ctx.thread = .driver) (on : Arg String) :
    Begun.stat ctx (μ.world w) on = (Begun.stat ctx w on).map μ.begun := by
  unfold Begun.stat
  refine bind_mapped fun name _ => ?_
  refine map_bind_mapped (resolve_world driver name) fun object _ => ?_
  cases object with
  | pool p => exact reply_mapped rfl (poolState_world p)
  | commonPool p =>
      refine reply_mapped rfl ?_
      rw [show (μ.world w).system = μ.system w.system from rfl, pool_system, name_pool]
  | token => rfl
  | batch b =>
      dsimp only [Merging.object]
      rw [isAwaited_world]
      refine bind_mapped fun _ _ => ?_
      exact reply_mapped rfl (batchState_world b)

theorem hold_mapped (suits : μ.Suits w) (driver : ctx.thread = .driver) (on gate : Arg String)
    (workers : Arg Nat) :
    Begun.hold ctx (μ.world w) on gate workers = (Begun.hold ctx w on gate workers).map μ.begun := by
  unfold Begun.hold
  refine bind_mapped fun name _ => ?_
  rw [resolvePool_world driver]
  refine bind_mapped fun p _ => ?_
  refine bind_mapped fun gate _ => ?_
  refine bind_mapped fun workers _ => ?_
  rw [show (μ.world w).system = μ.system w.system from rfl, pool_system, workers_pool]
  refine bind_mapped fun _ few => ?_
  -- a pool without workers has none that could be held
  have none : workers = 0 := by
    have few := of_decide_eq_true (Refusal.of_unless few)
    rw [(suits.registry.idle p).1] at few
    exact Nat.le_zero.mp few
  subst none
  exact begun_mapped rfl rfl rfl rfl rfl rfl rfl

theorem producers_mapped (threads : Arg (List (List Op))) :
    Begun.producers ctx (μ.world w) (threadsAsMulti μ.name threads) =
      (Begun.producers ctx w threads).map μ.begun := by
  unfold Begun.producers
  refine bind_mapped fun _ _ => ?_
  have given : (threadsAsMulti μ.name threads).require =
      threads.require.map (scriptsAsMulti μ.name) := by cases threads <;> rfl
  refine map_bind_mapped given fun scripts _ => ?_
  rw [scripts_eq_map, List.length_map]
  refine bind_mapped fun _ _ => ?_
  have strands : (scripts.map (List.map (Op.asMulti μ.name))).mapIdx (fun i ops =>
        ({ id := .spawned ((μ.world w).spawned + i), frames := [.strand ops []] } : Thread)) =
      (scripts.mapIdx fun i ops =>
        ({ id := .spawned (w.spawned + i), frames := [.strand ops []] } : Thread)).map μ.thread := by
    refine List.ext_getElem? fun i => ?_
    simp only [List.getElem?_mapIdx, List.getElem?_map, Option.map_map]
    congr 1
    funext ops
    simp only [Function.comp_apply, Merging.thread, Merging.frame, List.map_cons, List.map_nil,
      ops_eq_map]
    rfl
  dsimp only
  rw [strands]
  refine begun_mapped rfl rfl rfl ?_ rfl rfl rfl
  rw [List.map_map]
  rfl

/-- Every operation begins in the same way in the merged world. -/
theorem ofOp_mapped (suits : μ.Suits w) (driver : ctx.thread = .driver) (op : Op)
    (plain : w.KindFree μ.home op) (keeping : ∀ begun, Begun.ofOp ctx w op = .ok begun →
      μ.Keeping begun.world.system begun.events) :
    Begun.ofOp ctx (μ.world w) (op.asMulti μ.name) = (Begun.ofOp ctx w op).map μ.begun := by
  cases op with
  | malformed | catching | defaults | note => rfl
  | pool id threads name multiplier idleMs => exact startPool_mapped ..
  | commonPool id => exact nameCommonPool_mapped id
  | token id pool => exact issueToken_mapped suits driver id pool keeping
  | batch id pool multiplier single =>
      exact makeBatch_mapped suits driver id pool multiplier single keeping
  | drop id => exact drop_mapped suits driver id
  | schedule on task via token => exact schedule_mapped suits driver on task via token plain keeping
  | exec on token => exact exec_mapped suits driver on token
  | execAll on token => exact execAll_mapped suits driver on token
  | wait on onFailure elsewhere => exact wait_mapped suits driver on onFailure elsewhere plain
  | tryWait on max onFailure => exact tryWait_mapped suits driver on max onFailure
  | stat on => exact stat_mapped driver on
  | panic payload => exact bind_mapped fun payload _ => begun_mapped rfl rfl rfl rfl rfl rfl rfl
  | thread =>
      refine reply_mapped rfl (congrArg Reply.text ?_)
      rw [driver]
      rfl
  | sleep ms => exact bind_mapped fun ms _ => begun_mapped rfl rfl rfl rfl rfl rfl rfl
  | add counter amount =>
      refine bind_mapped fun counter _ => ?_
      exact bind_mapped fun amount _ => reply_mapped (w := w.add counter amount) rfl rfl
  | count counter => exact bind_mapped fun counter _ => reply_mapped rfl rfl
  | awaitCount counter atLeast =>
      refine bind_mapped fun counter _ => ?_
      exact bind_mapped fun atLeast _ => begun_mapped rfl rfl rfl rfl rfl rfl rfl
  | openGate gate => exact bind_mapped fun gate _ => reply_mapped (w := w.openGate gate) rfl rfl
  | block gate =>
      refine bind_mapped fun gate _ => ?_
      rw [block_mapped]
      exact begun_mapped rfl rfl rfl rfl rfl rfl rfl
  | awaitArrived gate arrivals =>
      refine bind_mapped fun gate _ => ?_
      exact bind_mapped fun arrivals _ => begun_mapped rfl rfl rfl rfl rfl rfl rfl
  | hold on gate workers => exact hold_mapped suits driver on gate workers
  | producers threads => exact producers_mapped threads

end Merging

end TaskPool
