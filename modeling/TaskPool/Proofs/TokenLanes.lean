import TaskPool.Proofs.BatchLifetimes
import TaskPool.Proofs.BatchLine

/-!
# The lanes of live tokens

The journal tells which tokens were registered and which were released. A pool has one lane for each
of its tokens that is registered and not released yet, in the order of their creation. Such a token
stands alone and has a name, or it belongs to a batch that has a name or is in the last wait of its
drop.

What a turn does to tokens is one of three things, `Scene.Turnover`: it leaves them alone, it
registers one, or it releases one. A release takes one lane out from between the others.
-/

namespace TaskPool

open TaskPool.System

/-! ## What may have a name has one -/

namespace System

variable {s s' : System Work} {object : Object} {p : PoolId} {t : TokenId} {b : BatchId}

theorem nameable_of_alike (alike : s.Alike s') (nameable : s'.Nameable object) :
    s.Nameable object := by
  cases object with
  | pool p => exact (alike.stages p).symm.trans nameable
  | commonPool => exact nameable
  | token t =>
      refine ⟨alike.token t ▸ nameable.1, fun b owns => ?_⟩
      exact nameable.2 b ((alike.batches b).1.trans owns)
  | batch b => exact (alike.batches b).2.2.symm.trans nameable

theorem nameable_of_startPool {config : PoolConfig}
    (nameable : (s.startPool reasons config).2.1.Nameable object) :
    s.Nameable object ∨ object = .pool (s.startPool reasons config).1 := by
  cases object with
  | pool p =>
      exact forall_pool_append (fun p pool => pool.stage = .live →
          s.Nameable (.pool p) ∨ Object.pool p = .pool ⟨s.pools.length⟩)
        (fun _ live => .inl live) (fun _ => .inr rfl) p nameable
  | commonPool | token | batch => exact .inl nameable

theorem nameable_of_issueToken (nameable : (s.issueToken p).2.1.Nameable object) :
    s.Nameable object ∨ object = .token (s.issueToken p).1 := by
  cases object with
  | pool q => exact .inl ((pool_issueToken (·.stage) (fun _ => rfl) q).symm.trans nameable)
  | token t =>
      rcases token_cases nameable.1 with known | rfl
      · left
        rw [Nameable, token_issueToken known] at nameable
        exact nameable
      · exact .inr rfl
  | commonPool | batch => exact .inl nameable

theorem nameable_of_appendBatch {new : Batch}
    (nameable : ({ s with batches := s.batches ++ [new] } : System Work).Nameable object) :
    s.Nameable object ∨ object = .batch ⟨s.batches.length⟩ := by
  cases object with
  | token t =>
      refine .inl ⟨nameable.1, fun b owns => nameable.2 b ?_⟩
      rcases batch_append_cases (s := s) new b with ⟨_, same⟩ | ⟨last, _⟩
      · exact (congrArg Batch.kind same).trans owns
      · rw [batch_unknown (Nat.le_of_eq last.symm)] at owns
        cases owns
  | batch b =>
      rcases batch_append_cases (s := s) new b with ⟨_, same⟩ | ⟨last, _⟩
      · exact .inl ((congrArg Batch.stage same).symm.trans nameable)
      · exact .inr (congrArg Object.batch (BatchId.ext last))
  | pool | commonPool => exact .inl nameable

theorem nameable_of_makeBatch {single : Bool} {multiplier : Nat}
    (nameable : (s.makeBatch p single multiplier).2.1.Nameable object) :
    s.Nameable object ∨ object = .batch (s.makeBatch p single multiplier).1 := by
  cases single with
  | false => exact nameable_of_appendBatch nameable
  | true =>
      rcases nameable_of_appendBatch nameable with before | new
      · refine (nameable_of_issueToken before).imp_right fun issued => ?_
        subst issued
        refine absurd ?_ (nameable.2 ⟨s.batches.length⟩)
        simp [makeBatch, batch, issueToken, modifyPool, List.getD_eq_getElem?_getD]
      · exact .inr new

theorem nameable_of_releaseToken (nameable : (s.releaseToken t).1.Nameable object) :
    s.Nameable object ∧ object ≠ .token t := by
  cases object with
  | pool q =>
      exact ⟨(pool_releaseToken (·.stage) (fun _ => rfl) q).symm.trans nameable, Object.noConfusion⟩
  | token u =>
      obtain ⟨opened, other⟩ := (token_releaseToken t u).2.mp nameable.1
      exact ⟨⟨opened, nameable.2⟩, fun same => other (Object.token.inj same)⟩
  | batch | commonPool => exact ⟨nameable, Object.noConfusion⟩

theorem nameable_of_moveBatch {stage : Stage} (known : b.index < s.batches.length)
    (past : stage ≠ .live) (nameable : (s.modifyBatch b ({ · with stage })).Nameable object) :
    s.Nameable object ∧ object ≠ .batch b := by
  cases object with
  | batch c =>
      by_cases same : b = c
      · subst same
        have moved := congrArg Batch.stage (batch_modifyBatch_self ({ · with stage }) known)
        exact absurd (moved.symm.trans nameable) past
      · have kept := congrArg Batch.stage (batch_modifyBatch_of_ne (s := s) ({ · with stage }) same)
        exact ⟨kept.symm.trans nameable, fun other => same (Object.batch.inj other).symm⟩
  | token t =>
      refine ⟨⟨nameable.1, fun c owns => nameable.2 c ?_⟩, Object.noConfusion⟩
      rw [batch_modifyBatch_proj (·.kind) rfl]
      exact owns
  | pool | commonPool => exact ⟨nameable, Object.noConfusion⟩

theorem nameable_of_movePool {stage : Stage} (known : p.index < s.pools.length)
    (past : stage ≠ .live) (nameable : (s.modifyPool p ({ · with stage })).Nameable object) :
    s.Nameable object ∧ object ≠ .pool p := by
  cases object with
  | pool q =>
      by_cases same : p = q
      · subst same
        have moved := congrArg Pool.stage (pool_modifyPool_self ({ · with stage }) known)
        exact absurd (moved.symm.trans nameable) past
      · have kept := congrArg Pool.stage (pool_modifyPool_of_ne (s := s) ({ · with stage }) same)
        exact ⟨kept.symm.trans nameable, fun other => same (Object.pool.inj other).symm⟩
  | token | batch | commonPool => exact ⟨nameable, Object.noConfusion⟩

theorem nameable_of_closeBatch (known : b.index < s.batches.length)
    (nameable : (s.closeBatch b).1.Nameable object) : s.Nameable object := by
  have delivered : (s.deliver b).2.batches.length = s.batches.length := by
    simp [deliver_system, modifyBatch]
  have ended : ∀ {object}, (s.endBatch b).Nameable object → s.Nameable object := by
    intro object nameable
    have moved := nameable_of_moveBatch (delivered ▸ known) Stage.noConfusion nameable
    exact nameable_of_alike (.deliver s b) moved.1
  rw [closeBatch_system] at nameable
  cases kind : (s.batch b).kind with
  | multi =>
      rw [kind] at nameable
      exact ended nameable
  | single t =>
      rw [kind] at nameable
      exact ended (nameable_of_releaseToken nameable).1

end System

namespace Scene

variable {σ σ' : Scene} {opening : Opening} {object : Object}

def Exposed (σ : Scene) : Prop := ∀ object, σ.system.Nameable object → σ.Named object

theorem Named.put {new : String} {other : Object} (named : σ.Named object)
    (unknown : σ.names.find? new = none) :
    ∃ name, (σ.names.put new other).find? name = some object := by
  obtain ⟨name, found⟩ := named
  refine ⟨name, (Table.find?_put_of_ne _ _ ?_).trans found⟩
  rintro rfl
  rw [unknown] at found
  cases found

theorem Named.remove {gone : String} {other : Object} (named : σ.Named object)
    (stood : σ.names.find? gone = some other) (different : object ≠ other) :
    ∃ name, (σ.names.remove gone).find? name = some object := by
  obtain ⟨name, found⟩ := named
  refine ⟨name, (Table.find?_remove_of_ne _ ?_).trans found⟩
  rintro rfl
  exact different (Option.some.inj (found.symm.trans stood))

theorem Opens.exposed (opens : σ.Opens opening) (registry : Registry σ.system σ.names)
    (exposed : σ.Exposed) (nameable : opening.system.Nameable object) :
    ∃ name, opening.names.find? name = some object := by
  have made : ∀ {new : String} {other : Object}, σ.names.find? new = none →
      σ.system.Nameable object ∨ object = other →
      ∃ name, (σ.names.put new other).find? name = some object := by
    rintro new other unknown (before | rfl)
    · exact (exposed object before).put unknown
    · exact ⟨new, Table.find?_put_self _ _ _⟩
  have live : ∀ {name : String} {other : Object}, σ.names.find? name = some other →
      σ.system.Nameable other :=
    fun stood => registry.named _ _ (Table.mem_of_find? stood)
  cases opens with
  | rests | pauses | waits | triesToWait | sweeps => exact exposed object nameable
  | startsPool unknown => exact made unknown (nameable_of_startPool nameable)
  | issuesToken unknown => exact made unknown (nameable_of_issueToken nameable)
  | makesBatch unknown => exact made unknown (nameable_of_makeBatch nameable)
  | dropsToken stood =>
      obtain ⟨before, other⟩ := nameable_of_releaseToken nameable
      exact (exposed object before).remove stood other
  | dropsBatch stood =>
      have known := batch_known (Stage.opened (live stood))
      obtain ⟨before, other⟩ := nameable_of_moveBatch known Stage.noConfusion nameable
      exact (exposed object before).remove stood other
  | dropsPool stood =>
      have known := pool_known (Stage.opened (live stood))
      obtain ⟨before, other⟩ := nameable_of_movePool known Stage.noConfusion nameable
      exact (exposed object before).remove stood other
  | queues lent submits | runsInline lent submits =>
      subst submits
      exact exposed object (nameable_of_alike (lent.alike registry _) nameable)
  | executes _ taken => exact exposed object (nameable_of_alike (.take taken) nameable)

theorem Moves.exposed (moves : σ.Moves σ') (sound : σ.Sound) (exposed : σ.Exposed) :
    σ'.Exposed := by
  intro object nameable
  cases moves with
  | advances | leaves | passes | finishes | ends | unwinds | contains | sweepEnds =>
      exact exposed object nameable
  | opens _ _ opens => exact opens.exposed sound.registry exposed nameable
  | settles => exact exposed object (nameable_of_alike (.settle _ _ _ _) nameable)
  | delivers => exact exposed object (nameable_of_alike (.deliver _ _) nameable)
  | sweeps _ _ taken | helps _ _ _ taken | drains _ taken =>
      exact exposed object (nameable_of_alike (.take taken) nameable)
  | closesBatch top =>
      have known := batch_known fun closed =>
        Stage.noConfusion (closed.symm.trans (dropped sound.custody top))
      exact exposed object (nameable_of_closeBatch known nameable)
  | @closesPool p _ _ _ top =>
      have closing : σ.system.Closing (.pool p) :=
        sound.custody.closing _ (by simp [top, Frame.closing?])
      have known := pool_known fun closed => Stage.noConfusion (closed.symm.trans closing)
      exact exposed object (nameable_of_movePool known Stage.noConfusion nameable).1

end Scene

/-! ## What is on record of tokens -/

namespace Event

def registers? : Event → Option TokenId
  | .logged (.tokenRegistered t _) => some t
  | _ => none

def releases? : Event → Option TokenId
  | .logged (.tokenReleased t ..) => some t
  | _ => none

def isSteady : Event → Bool
  | .logged (.tokenRegistered ..) | .logged (.tokenReleased ..) => false
  | _ => true

theorem isSteady_iff {event : Event} :
    event.isSteady = true ↔ event.registers? = none ∧ event.releases? = none := by
  cases event with
  | logged notice => cases notice <;> simp [isSteady, registers?, releases?]
  | _ => simp [isSteady, registers?, releases?]

end Event

/-- The tokens that were registered, in the order of their creation. -/
def registered (history : List Event) : List TokenId := history.filterMap Event.registers?

/-- The tokens that were released, in the order in which they were. -/
def released (history : List Event) : List TokenId := history.filterMap Event.releases?

@[simp] theorem registered_append (history events : List Event) :
    registered (history ++ events) = registered history ++ registered events :=
  List.filterMap_append

@[simp] theorem released_append (history events : List Event) :
    released (history ++ events) = released history ++ released events :=
  List.filterMap_append

theorem registered_steady {events : List Event} (steady : ∀ event ∈ events, event.isSteady) :
    registered events = [] :=
  List.filterMap_eq_nil_iff.mpr fun event member => (Event.isSteady_iff.mp (steady event member)).1

theorem released_steady {events : List Event} (steady : ∀ event ∈ events, event.isSteady) :
    released events = [] :=
  List.filterMap_eq_nil_iff.mpr fun event member => (Event.isSteady_iff.mp (steady event member)).2

theorem steady_remarks {notices : List Notice}
    (remarks : ∀ notice ∈ notices, notice.isRemark = true) :
    ∀ event ∈ Event.ofNotices notices, event.isSteady = true := by
  intro event member
  obtain ⟨notice, told, rfl⟩ := List.mem_map.mp member
  have remark := remarks notice told
  cases notice <;> first | rfl | cases remark

namespace System

theorem submit_tokens {s : System Work} (entry : Entry) (work : Work) :
    (s.submit entry work).system.tokens = s.tokens := by
  cases submit_submits (s := s) entry work with
  | declined _ _ _ system => exact system ▸ (Alike.count s _).tokens
  | admitted admits =>
      obtain ⟨_, ⟨_, system⟩ | ⟨_, system⟩⟩ := admits <;> rw [system] <;>
        exact (Alike.count s _).tokens

theorem token_congr {s s' : System Work} (same : s'.tokens = s.tokens) (t : TokenId) :
    s'.token t = s.token t := by
  simp only [System.token, same]

theorem closed_issueToken {s : System Work} {p : PoolId} (t : TokenId) :
    t.index < (s.issueToken p).2.1.tokens.length ∧
        ((s.issueToken p).2.1.token t).stage = .closed ↔
      t.index < s.tokens.length ∧ (s.token t).stage = .closed := by
  by_cases known : t.index < s.tokens.length
  · have longer : t.index < (s.issueToken p).2.1.tokens.length :=
      (Grows.issueToken.tokens t known).1
    simp [known, longer, token_issueToken known]
  · simp only [known, false_and, iff_false, not_and]
    intro issued closed
    have new : t = (s.issueToken p).1 := by
      simp only [issueToken, modifyPool, List.length_append, List.length_singleton] at issued
      exact TokenId.ext (by simp only [issueToken]; omega)
    rw [new, token_issueToken_self] at closed
    cases closed

theorem closed_releaseToken {s : System Work} {u : TokenId} (known : u.index < s.tokens.length)
    (t : TokenId) :
    t.index < (s.releaseToken u).1.tokens.length ∧
        ((s.releaseToken u).1.token t).stage = .closed ↔
      (t.index < s.tokens.length ∧ (s.token t).stage = .closed) ∨ t = u := by
  have length : (s.releaseToken u).1.tokens.length = s.tokens.length := by
    simp [releaseToken_system, modifyToken, modifyPool]
  have stage := (token_releaseToken (s := s) u t).2
  by_cases same : t = u
  · subst same
    simp [length, known, not_not.mp (mt stage.mp (by simp))]
  · simp only [same, ne_eq, not_false_eq_true, and_true, not_iff_not] at stage
    simp [length, stage, same]

end System

/-- What happens to tokens when a system goes over into another one, and what is logged of it. -/
inductive System.Turnover (s s' : System Work) (events : List Event) : Prop where
  | keeps (tokens : s'.tokens = s.tokens) (steady : ∀ event ∈ events, event.isSteady = true)
  | registers {p : PoolId} (tokens : s'.tokens = (s.issueToken p).2.1.tokens)
      (logged : registered events = [⟨s.tokens.length⟩]) (none : released events = [])
  | releases {t : TokenId} (opened : (s.token t).stage ≠ .closed)
      (tokens : s'.tokens = (s.releaseToken t).1.tokens)
      (pools : s'.pools = (s.releaseToken t).1.pools)
      (none : registered events = []) (logged : released events = [t])

namespace Scene

variable {σ σ' : Scene} {opening : Opening}

theorem turnover_submit (s : System Work) (entry : Entry) (work : Work) {events : List Event}
    (steady : ∀ event ∈ events, event.isSteady = true) :
    s.Turnover (s.submit entry work).system
      (Event.ofNotices (s.submit entry work).notices ++ events) := by
  refine .keeps (submit_tokens entry work) fun event member => ?_
  rcases List.mem_append.mp member with notice | own
  · exact steady_remarks (submit_remarks entry work) event notice
  · exact steady event own

theorem Opens.turnover (opens : σ.Opens opening) (registry : Registry σ.system σ.names) :
    σ.system.Turnover opening.system opening.events := by
  cases opens with
  | rests | pauses | waits | triesToWait | sweeps | dropsBatch =>
      exact .keeps rfl fun _ wrong => nomatch wrong
  | startsPool =>
      exact .keeps rfl (startPool_events (fun _ _ _ _ => rfl) fun _ _ _ _ => rfl)
  | dropsPool => exact .keeps rfl (by simp [beginClosingPool, Event.ofNotices, Event.isSteady])
  | issuesToken => exact .registers rfl rfl rfl
  | @makesBatch _ _ single =>
      cases single with
      | true => exact .registers rfl rfl rfl
      | false => exact .keeps rfl (by simp [makeBatch, Event.ofNotices, Event.isSteady])
  | dropsToken stood =>
      have nameable := registry.named _ _ (Table.mem_of_find? stood)
      exact .releases nameable.1 rfl rfl rfl rfl
  | queues lent submits =>
      subst submits
      exact turnover_submit _ _ _ (by simp [Event.isSteady])
  | runsInline lent submits =>
      subst submits
      exact turnover_submit _ _ _ (by simp [Event.isSteady, Task.started])
  | executes _ taken =>
      exact .keeps (Alike.take taken).tokens (by simp [Event.isSteady, Task.started])

/-- A batch that closes releases its own token, if it has one. -/
theorem turnover_closeBatch (sound : σ.Sound) {b : BatchId}
    (closing : (σ.system.batch b).stage = .closing) :
    σ.system.Turnover (σ.system.closeBatch b).1
      (Event.ofNotices (σ.system.closeBatch b).2) := by
  have report : (Event.logged (σ.system.lastNotice b)).isSteady = true := by
    unfold lastNotice
    split <;> rfl
  obtain ⟨came, went⟩ := Event.isSteady_iff.mp report
  rw [closeBatch_system, closeBatch_notices]
  cases owns : (σ.system.batch b).kind with
  | multi => exact .keeps rfl (by simpa [Event.ofNotices] using report)
  | single t =>
      have opened := (sound.registry.owned b t owns).2.2 fun closed =>
        Stage.noConfusion (closed.symm.trans closing)
      exact .releases opened rfl rfl (List.filterMap_cons_none came) (List.filterMap_cons_none went)

theorem Moves.turnover (moves : σ.Moves σ') (sound : σ.Sound) :
    ∃ events, σ'.history = σ.history ++ events ∧ σ.system.Turnover σ'.system events := by
  cases moves with
  | advances _ _ quiet =>
      refine ⟨_, rfl, .keeps rfl fun event member => ?_⟩
      have script := quiet event member
      cases event <;> first | rfl | cases script
  | opens _ _ opens => exact ⟨_, rfl, opens.turnover sound.registry⟩
  | leaves | passes | finishes | sweepEnds =>
      exact ⟨[], (List.append_nil _).symm, .keeps rfl fun _ wrong => nomatch wrong⟩
  | ends | unwinds | contains => exact ⟨_, rfl, .keeps rfl (by simp [Event.isSteady])⟩
  | settles =>
      refine ⟨_, rfl, .keeps (Alike.settle _ _ _ _).tokens ?_⟩
      cases σ.signal.panic? with
      | none => exact fun _ wrong => nomatch wrong
      | some payload =>
          simp only [settle]
          split <;> simp [Event.ofNotices, Event.isSteady]
  | delivers => exact ⟨_, rfl, .keeps (Alike.deliver _ _).tokens (by simp [Event.isSteady])⟩
  | sweeps _ _ taken | helps _ _ _ taken | drains _ taken =>
      exact ⟨_, rfl, .keeps (Alike.take taken).tokens (by simp [Event.isSteady, Task.started])⟩
  | closesBatch top => exact ⟨_, rfl, turnover_closeBatch sound (dropped sound.custody top)⟩
  | closesPool =>
      exact ⟨_, rfl, .keeps rfl (by simp [closePool, Event.ofNotices, Event.isSteady])⟩

/-- The journal tells which tokens were made, and which of them are closed. -/
structure Recorded (σ : Scene) : Prop where
  made : registered σ.history = (List.range σ.system.tokens.length).map TokenId.mk
  gone : ∀ t, t ∈ released σ.history ↔
    t.index < σ.system.tokens.length ∧ (σ.system.token t).stage = .closed

theorem Moves.recorded (moves : σ.Moves σ') (sound : σ.Sound) (recorded : σ.Recorded) :
    σ'.Recorded := by
  obtain ⟨events, history, turnover⟩ := moves.turnover sound
  constructor
  · rw [history, registered_append, recorded.made]
    cases turnover with
    | keeps tokens steady => simp [tokens, registered_steady steady]
    | registers tokens logged =>
        simp [tokens, logged, issueToken, modifyPool, List.range_succ]
    | releases _ tokens _ none =>
        simp [tokens, none, releaseToken_system, modifyToken, modifyPool]
  · intro t
    rw [history, released_append, List.mem_append, recorded.gone t]
    cases turnover with
    | keeps tokens steady =>
        rw [tokens, token_congr tokens, released_steady steady]
        simp
    | @registers p tokens _ none =>
        rw [token_congr tokens, none, tokens, closed_issueToken]
        simp
    | @releases u opened tokens _ _ logged =>
        rw [token_congr tokens, logged, tokens, closed_releaseToken (token_known opened),
          List.mem_singleton]

theorem Recorded.openTokens (recorded : σ.Recorded) (p : PoolId) :
    σ.system.openTokens p = (registered σ.history).filter fun t =>
      (σ.system.token t).pool = p ∧ t ∉ released σ.history := by
  rw [recorded.made]
  apply List.filter_congr
  intro t member
  simp only [List.mem_map, List.mem_range] at member
  obtain ⟨i, known, rfl⟩ := member
  simp [recorded.gone, known]

/-- The token stands alone and has a name, or the batch that owns it has a name or is in the last
wait of its drop. -/
def Alive (σ : Scene) (t : TokenId) : Prop :=
  σ.Named (.token t) ∨ ∃ b, (σ.system.batch b).kind = .single t ∧
    (σ.Named (.batch b) ∨ ∃ budget, .waiting b budget .close ∈ σ.frames)

theorem alive_iff (sound : σ.Sound) (exposed : σ.Exposed) (attended : σ.Attended)
    (settled : σ.system.Settled) {t : TokenId} :
    σ.Alive t ↔ (σ.system.token t).stage ≠ .closed := by
  have nameable : ∀ {object}, σ.Named object → σ.system.Nameable object := by
    rintro object ⟨name, stood⟩
    exact sound.registry.named name object (Table.mem_of_find? stood)
  constructor
  · rintro (named | ⟨b, owns, named | ⟨budget, last⟩⟩)
    · exact (nameable named).1
    · exact (sound.registry.owned b t owns).2.2 (Stage.opened (nameable named))
    · have inside : .batch b ∈ closings σ.frames := List.mem_filterMap.mpr ⟨_, last, rfl⟩
      have closing : (σ.system.batch b).stage = .closing := sound.custody.closing _ inside
      exact (sound.registry.owned b t owns).2.2 fun closed =>
        Stage.noConfusion (closed.symm.trans closing)
  · intro opened
    by_cases owned : ∃ b, (σ.system.batch b).kind = .single t
    · obtain ⟨b, owns⟩ := owned
      refine .inr ⟨b, owns, ?_⟩
      cases stage : (σ.system.batch b).stage with
      | live => exact .inl (exposed (.batch b) stage)
      | closing => exact .inr (attended.last_wait stage)
      | closed => exact absurd ((settled b stage).2 t owns) opened
    · exact .inl (exposed (.token t) ⟨opened, fun b owns => owned ⟨b, owns⟩⟩)

end Scene

theorem Pool.release_lane {pool : Pool Work} {t : TokenId}
    (once : (pool.lanes.map (·.token)).Nodup) (member : t ∈ pool.lanes.map (·.token)) :
    ∃ before jobs after, pool.lanes = before ++ ⟨t, jobs⟩ :: after ∧
      pool.release t = { pool with shared := pool.shared ++ jobs, lanes := before ++ after } := by
  obtain ⟨⟨u, jobs⟩, inside, rfl⟩ := List.mem_map.mp member
  obtain ⟨before, after, split⟩ := List.mem_iff_append.mp inside
  have apart : u ∉ (before ++ after).map (·.token) := by
    rw [split, List.map_append, List.map_cons, List.nodup_middle, ← List.map_append] at once
    exact (List.nodup_cons.mp once).1
  have own : pool.waitingIn u = jobs := by
    rw [waitingIn, filter_lane split once, Lane.contents_cons, Lane.contents_nil, List.append_nil]
  have others : pool.lanes.filter (·.token ≠ u) = before ++ after := by
    rw [split, List.filter_append, List.filter_cons_of_neg (by simp), ← List.filter_append,
      List.filter_eq_self]
    intro lane kept
    simp only [decide_eq_true_eq]
    rintro rfl
    exact apart (List.mem_map_of_mem kept)
  exact ⟨before, jobs, after, split, by rw [release, own, others]⟩

/-- A turn that releases a token takes its lane away and leaves the other pools alone. -/
theorem Scene.Moves.releases {σ σ' : Scene} (moves : σ.Moves σ') (sound : σ.Sound)
    {events : List Event} (history : σ'.history = σ.history ++ events) {t : TokenId}
    (gone : t ∈ released events) :
    ∃ before jobs after,
      (σ.system.pool (σ.system.token t).pool).lanes = before ++ ⟨t, jobs⟩ :: after ∧
      σ'.system.pool (σ.system.token t).pool =
        { σ.system.pool (σ.system.token t).pool with
          shared := (σ.system.pool (σ.system.token t).pool).shared ++ jobs
          lanes := before ++ after } ∧
      ∀ q ≠ (σ.system.token t).pool, σ'.system.pool q = σ.system.pool q := by
  obtain ⟨told, history', turnover⟩ := moves.turnover sound
  cases List.append_cancel_left (history'.symm.trans history)
  cases turnover with
  | keeps _ steady =>
      rw [released_steady steady] at gone
      cases gone
  | registers _ _ none =>
      rw [none] at gone
      cases gone
  | @releases u opened _ pools _ logged =>
      rw [logged] at gone
      cases List.mem_singleton.mp gone
      have look : ∀ q, σ'.system.pool q = (σ.system.releaseToken t).1.pool q :=
        fun q => by simp only [System.pool, pools]
      have known := pool_known (Stage.opened (sound.registry.tokens t opened))
      have member : t ∈ (σ.system.pool (σ.system.token t).pool).lanes.map (·.token) := by
        rw [sound.registry.lanes, mem_openTokens]
        exact ⟨rfl, opened⟩
      obtain ⟨before, jobs, after, split, released⟩ :=
        Pool.release_lane (sound.registry.ordered.once _) member
      refine ⟨before, jobs, after, split, ?_, fun q other => ?_⟩
      · rw [look, releaseToken_system, pool_modifyToken, pool_modifyPool_self _ known, released]
      · rw [look, releaseToken_system, pool_modifyToken, pool_modifyPool_of_ne _ other.symm]

namespace Machine

variable {m : Machine}

theorem Solo.recorded (solo : m.Solo) : m.scene.Recorded :=
  solo.invariant (fun _ _ _ => ⟨rfl, fun _ => by simp [scene, history, released, Machine.load]⟩)
    fun sound recorded moves => moves.recorded sound recorded

theorem Solo.exposed (solo : m.Solo) : m.scene.Exposed := by
  refine solo.invariant (fun _ _ _ object nameable => ?_) fun sound exposed moves =>
    moves.exposed sound exposed
  cases object with
  | token => exact absurd rfl nameable.1
  | pool | batch | commonPool => cases nameable

/-- The lanes of a pool mirror its live tokens. -/
theorem Solo.lanes_mirror_tokens (solo : m.Solo) :
    let s := m.world.system
    (∀ p, (s.pool p).lanes.map (·.token) = (registered m.history).filter
        (fun t => (s.token t).pool = p ∧ t ∉ released m.history) ∧
      ((s.pool p).lanes.map (·.token)).Nodup) ∧
    (∀ p t, t ∈ (s.pool p).lanes.map (·.token) ↔ (s.token t).pool = p ∧ m.scene.Alive t) ∧
    (∀ next events t, m.step = some next → next.others = [] →
      next.history = m.history ++ events → t ∈ released events →
      let p := (s.token t).pool
      ∃ before jobs after, (s.pool p).lanes = before ++ ⟨t, jobs⟩ :: after ∧
        next.world.system.pool p =
          { s.pool p with shared := (s.pool p).shared ++ jobs, lanes := before ++ after } ∧
        ∀ q ≠ p, next.world.system.pool q = s.pool q) ∧
    ∀ p, (∀ t ∈ registered m.history, (s.token t).pool = p → t ∈ released m.history) →
      (s.pool p).lanes = [] := by
  intro s
  have sound := solo.sound.scene
  have ordered := sound.registry.ordered
  have mirror : ∀ p, (s.pool p).lanes.map (·.token) = (registered m.history).filter
      (fun t => (s.token t).pool = p ∧ t ∉ released m.history) :=
    fun p => (ordered.lanes p).trans (solo.recorded.openTokens p)
  refine ⟨fun p => ⟨mirror p, ordered.once p⟩, fun p t => ?_, ?_, fun p gone => ?_⟩
  · have lanes : (s.pool p).lanes.map (·.token) = s.openTokens p := ordered.lanes p
    rw [lanes, Scene.alive_iff sound solo.exposed solo.attended solo.settled]
    exact mem_openTokens
  · intro next events t stepped alone history gone
    rcases solo.moves stepped alone with same | moves
    · have kept : next.history = m.history := congrArg Scene.history same
      rw [kept, List.self_eq_append_right] at history
      subst history
      cases gone
    · exact moves.releases sound history gone
  · have none := mirror p
    rw [List.filter_eq_nil_iff.mpr (by simpa using gone)] at none
    exact List.map_eq_nil_iff.mp none

/-- A task drops a token, makes another one, and drops a batch. The last wait of the batch runs a
task that drops a token on its own. -/
def turnover : List Op :=
  [.pool (.given "p") .missing .missing .missing .missing,
    .pool (.given "q") .missing .missing .missing .missing,
    .token (.given "t") (.given "p"),
    .batch (.given "s") (.given "p") .missing (.given true),
    .token (.given "v") (.given "p"),
    .batch (.given "u") (.given "q") .missing (.given false),
    .schedule (.given "p") (.given (.own "loose" [])) (.given .forced) (.given "t"),
    .schedule (.given "p") (.given (.own "odd" [])) (.given .forced) (.given "v"),
    .schedule (.given "s") (.given (.own "inner" [.drop (.given "v")])) (.given .forced) .missing,
    .schedule (.given "u") (.given (.own "outer" [.drop (.given "t"),
      .token (.given "w") (.given "p"), .drop (.given "s")])) (.given .forced) .missing,
    .wait (.given "u") .report false]

/-- The inner task takes a lane out from between the one of the batch that is being dropped and the
one of the new token. When the names are cleaned up, no lane is left. -/
theorem turnover_mirrored :
    let dropping := (Machine.load [] .plain turnover).run 40
    let dropped := (Machine.load [] .plain turnover).run 41
    let cleaned := (Machine.load [] .plain turnover).run 60
    let s := dropping.world.system
    dropping.Solo ∧ cleaned.Solo ∧
      (s.pool ⟨0⟩).lanes.map (·.token) = [⟨1⟩, ⟨2⟩, ⟨3⟩] ∧
      registered dropping.history = [⟨0⟩, ⟨1⟩, ⟨2⟩, ⟨3⟩] ∧ released dropping.history = [⟨0⟩] ∧
      dropping.scene.Alive ⟨1⟩ ∧ dropping.world.names.find? "s" = none ∧
      dropping.step = some dropped ∧ dropped.others = [] ∧
      dropped.history = dropping.history ++ [.logged (.tokenReleased ⟨2⟩ "p" 1)] ∧
      (∃ before jobs after, (s.pool ⟨0⟩).lanes = before ++ ⟨⟨2⟩, jobs⟩ :: after ∧
        dropped.world.system.pool ⟨0⟩ =
          { s.pool ⟨0⟩ with shared := (s.pool ⟨0⟩).shared ++ jobs, lanes := before ++ after } ∧
        ∀ q ≠ ⟨0⟩, dropped.world.system.pool q = s.pool q) ∧
      (cleaned.world.system.pool ⟨0⟩).lanes = [] := by
  intro dropping dropped cleaned s
  have solo : dropping.Solo := (Solo.load [] .plain turnover).run 40 (by decide)
  have solo' : cleaned.Solo := (Solo.load [] .plain turnover).run 60 (by decide)
  have lanes : (s.pool ⟨0⟩).lanes.map (·.token) = [⟨1⟩, ⟨2⟩, ⟨3⟩] := rfl
  have gone : ∀ t ∈ registered cleaned.history, t ∈ released cleaned.history := by decide
  obtain ⟨_, alive, releases, _⟩ := Solo.lanes_mirror_tokens solo
  obtain ⟨_, _, _, empty⟩ := Solo.lanes_mirror_tokens solo'
  refine ⟨solo, solo', lanes, rfl, rfl, ?_, rfl, rfl, rfl, rfl, ?_, ?_⟩
  · exact ((alive ⟨0⟩ ⟨1⟩).mp (lanes ▸ List.mem_cons_self)).2
  · exact releases dropped _ ⟨2⟩ rfl rfl rfl List.mem_cons_self
  · exact empty ⟨0⟩ fun t made _ => gone t made

end Machine

end TaskPool
