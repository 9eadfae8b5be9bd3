import TaskPool.Proofs.FirstPanic
import TaskPool.Proofs.PanicContainment

/-!
# Where panics end

The panic of a wrapped task ends at its batch, and the panic of a raw job that was taken from a
queue ends at the pool that was asked for the job. The log tells of each of them once. It also tells
what became of the failures of a batch: a wait delivered it, or it was discarded because an earlier
one was pending, or the batch was closed before anybody asked for it. What is left is pending.
-/

namespace TaskPool

open TaskPool.System

/-- Who catches the panics of some jobs. -/
inductive Catcher where
  /-- A batch catches the panics of the tasks that are wrapped for it. -/
  | batch (b : BatchId)
  /-- The pools catch the panics of raw jobs that were queued. -/
  | pools
  deriving DecidableEq

/-- The notice tells of a failure: in these words, and then in those that describe the failure. -/
def Notice.tells (level : Level) (words : String) (notice : Notice) : Bool :=
  notice.level == level && notice.failure?.any fun failure =>
    notice.message == words ++ ("Task panicked during execution: " ++ failure.message)

namespace Notice

variable {notice : Notice} {level : Level} {words : String}

theorem tells_describe {failure : Failure} (here : notice.level = level)
    (found : notice.failure? = some failure) (text : notice.message = words ++ failure.describe) :
    notice.tells level words = true := by
  rw [tells, Bool.and_eq_true, beq_iff_eq, found, Option.any_some, beq_iff_eq]
  exact ⟨here, text⟩

end Notice

namespace Event

def casualty? : Event → Option JobId
  | .unwound job .. => some job
  | _ => none

/-- A warning of the batch says that a failure was discarded because an earlier one was pending. -/
def discards (b : BatchId) : Event → Bool
  | .logged notice => notice.batch? = some b &&
      notice.tells .warn "Discarding task panic, an earlier failure is already pending: "
  | _ => false

/-- An error of the batch says that it was closed with a failure that nobody had asked for. -/
def abandons (b : BatchId) : Event → Bool
  | .logged notice => notice.batch? = some b &&
      notice.tells .error "Task set dropped with an unobserved task failure: "
  | _ => false

theorem discards_eq (b : BatchId) (event : Event) : event.discards b =
    match event with
    | .logged (.failureDiscarded other ..) => decide (other = b)
    | _ => false := by
  cases event with
  | logged notice =>
      cases notice with
      | failureDiscarded c name failure =>
          have told :=
            @Notice.tells_describe (.failureDiscarded c name failure) _ _ _ rfl rfl rfl
          exact (congrArg (_ && ·) told).trans (by simp [Notice.batch?])
      | failureUnobserved => simp [discards, Notice.tells, Notice.level]
      | _ => simp [discards, Notice.tells, Notice.failure?]
  | _ => rfl

theorem abandons_eq (b : BatchId) (event : Event) : event.abandons b =
    match event with
    | .logged (.failureUnobserved other ..) => decide (other = b)
    | _ => false := by
  cases event with
  | logged notice =>
      cases notice with
      | failureUnobserved c name kind failure =>
          have told :=
            @Notice.tells_describe (.failureUnobserved c name kind failure) _ _ _ rfl rfl rfl
          exact (congrArg (_ && ·) told).trans (by simp [Notice.batch?])
      | failureDiscarded => simp [abandons, Notice.tells, Notice.level]
      | _ => simp [abandons, Notice.tells, Notice.failure?]
  | _ => rfl

end Event

namespace Catcher

def catches : Catcher → Option BatchId → Route → Bool
  | batch b, wrapped, _ => wrapped = some b
  | pools, wrapped, route => wrapped.isNone && !route.runsNow

def admits (catcher : Catcher) (job : JobId) : Event → Bool
  | .submitted other wrapped route => other = job && catcher.catches wrapped route
  | _ => false

/-- The job whose panic the frame catches. -/
def expects : Catcher → Frame → Option JobId
  | batch b, .settle job other => if other = b then some job else none
  | pools, .contain job _ => some job
  | _, _ => none

def text : Catcher → String
  | batch _ => "Task panicked during execution."
  | pools => "Pool job panicked; the panic was contained."

def reporter : Catcher → Option BatchId
  | batch b => some b
  | pools => none

/-- The job whose panic was caught here, as an error in the log says. -/
def reports (catcher : Catcher) : Event → Option JobId
  | .logged notice =>
    if notice.level == .error && notice.message == catcher.text &&
        notice.batch? == catcher.reporter then
      notice.job?
    else none
  | _ => none

/-- An error that is worded otherwise reports no panic, whatever it goes on to tell. -/
theorem reports_of_words {catcher : Catcher} {notice : Notice} {words rest : String}
    (message : notice.message = words ++ rest)
    (apart : ¬ words.toList <+: catcher.text.toList) : catcher.reports (.logged notice) = none := by
  refine if_neg fun same => apart ⟨rest.toList, ?_⟩
  simp only [Bool.and_eq_true, beq_iff_eq] at same
  rw [← String.toList_append, ← message, same.1.2]

theorem reports_of_text {catcher : Catcher} {notice : Notice} (error : notice.level = .error)
    (message : notice.message = catcher.text) : catcher.reports (.logged notice) =
      if notice.batch? = catcher.reporter then notice.job? else none := by
  simp only [reports, error, message, beq_self_eq_true, Bool.true_and, beq_iff_eq]

theorem reports_eq (catcher : Catcher) (event : Event) : catcher.reports event =
    match catcher, event with
    | batch b, .logged (.taskPanicked other job _) => if other = b then some job else none
    | pools, .logged (.jobPanicked job ..) => some job
    | _, _ => none := by
  cases event with
  | logged notice =>
      cases notice with
      | workerFailed _ _ _ reason =>
          cases catcher <;> exact reports_of_words rfl (by rw [text]; decide)
      | failureUnobserved =>
          cases catcher <;> exact reports_of_words rfl (by rw [text]; decide)
      | taskPanicked =>
          cases catcher with
          | batch b =>
              exact (reports_of_text rfl rfl).trans (by simp [reporter, Notice.batch?, Notice.job?])
          | pools => simp [reports, reporter, Notice.batch?]
      | jobPanicked =>
          cases catcher with
          | batch b => simp [reports, reporter, Notice.batch?]
          | pools => exact reports_of_text rfl rfl
      | _ => cases catcher <;> simp [reports, Notice.level]
  | _ => cases catcher <;> rfl

/-- The jobs that were left by a panic that is caught here, in the order in which they were left. -/
def casualties (catcher : Catcher) (history : List Event) : List JobId :=
  (history.filterMap Event.casualty?).filter fun job => history.any (catcher.admits job)

def reported (catcher : Catcher) (history : List Event) : List JobId :=
  history.filterMap catcher.reports

def inTransit (catcher : Catcher) : List Frame → Signal → List JobId
  | frame :: _, .raised _ => (catcher.expects frame).toList
  | _, _ => []

section

variable {catcher : Catcher} {history events : List Event} {frame : Frame} {below : List Frame}
  {signal : Signal} {job : JobId}

/-- Whoever has been left by a panic is not submitted again, so the list only grows at its end. -/
theorem casualties_append
    (fresh : ∀ job ∈ history.filterMap Event.casualty?,
      ∀ event ∈ events, catcher.admits job event = false) :
    catcher.casualties (history ++ events) = catcher.casualties history ++
      (events.filterMap Event.casualty?).filter fun job =>
        (history ++ events).any (catcher.admits job) := by
  rw [casualties, List.filterMap_append, List.filter_append, casualties]
  congr 1
  apply List.filter_congr
  intro job member
  have none : events.any (catcher.admits job) = false :=
    List.any_eq_false.mpr fun event inside => by simp [fresh job member event inside]
  rw [List.any_append, none, Bool.or_false]

@[simp] theorem reported_append : catcher.reported (history ++ events) =
    catcher.reported history ++ catcher.reported events :=
  List.filterMap_append

theorem inTransit_calm (calm : signal.panic? = none) : catcher.inTransit below signal = [] := by
  cases signal with
  | raised => cases calm
  | proceed | returned => cases below <;> rfl

theorem inTransit_of_none (other : catcher.expects frame = none) :
    catcher.inTransit (frame :: below) signal = [] := by
  cases signal with
  | raised => simp [inTransit, other]
  | proceed | returned => rfl

theorem expects_performs (performs : frame.performs = true) : catcher.expects frame = none := by
  cases frame <;> first | (cases catcher <;> rfl) | cases performs

theorem expects_host (on : frame.isHost = true) : catcher.expects frame = none := by
  cases frame <;> first | (cases catcher <;> rfl) | cases on

theorem inTransit_below {s : System Work} (fits : frame.Fits s below)
    (notBody : ∀ job label next rest onBatch, frame ≠ .body job label next rest onBatch)
    (notSettle : ∀ job b, frame ≠ .settle job b) : catcher.inTransit below signal = [] := by
  cases fits with
  | cleanup => cases signal <;> rfl
  | body => exact absurd rfl (notBody _ _ _ _ _)
  | settle => exact absurd rfl (notSettle _ _)
  | program => exact inTransit_of_none (expects_performs rfl)
  | call performs => exact inTransit_of_none (expects_performs performs)
  | contain on => exact inTransit_of_none (expects_host on)
  | pause | sweep | wait | tryWait | close =>
      apply inTransit_of_none
      cases catcher <;> rfl

/-- A panic that leaves a body comes to whoever catches the panics of jobs like this one. -/
theorem inTransit_ground (catcher : Catcher) (ground : Ground history job below)
    (payload : Payload) :
    ∃ batch route, .submitted job batch route ∈ history ∧
      catcher.inTransit below (.raised payload) =
        if catcher.catches batch route then [job] else [] := by
  cases ground with
  | @operation batch route _ _ _ _ logged now =>
      refine ⟨batch, route, logged, ?_⟩
      cases catcher with
      | batch b =>
          cases batch with
          | none => rfl
          | some c => by_cases own : c = b <;> simp [inTransit, expects, catches, own]
      | pools => cases batch <;> simp [inTransit, expects, catches, now]
  | @pool batch p inlet _ _ _ logged =>
      refine ⟨batch, _, logged, ?_⟩
      cases catcher with
      | batch b =>
          cases batch with
          | none => rfl
          | some c => by_cases own : c = b <;> simp [inTransit, expects, catches, own]
      | pools => cases batch <;> rfl

end

end Catcher

/-! ## Events that tell of no panic -/

def Notice.isHarmless : Notice → Bool
  | .taskPanicked .. | .jobPanicked .. | .failureDiscarded .. | .failureUnobserved .. => false
  | _ => true

def Event.isHarmless : Event → Bool
  | .unwound .. | .delivered .. => false
  | .logged notice => notice.isHarmless
  | _ => true

section

variable {event : Event} {events : List Event} {b : BatchId}

theorem Event.casualty_harmless (harmless : event.isHarmless = true) : event.casualty? = none := by
  cases event <;> first | rfl | cases harmless

theorem Catcher.reports_harmless (catcher : Catcher) (harmless : event.isHarmless = true) :
    catcher.reports event = none := by
  rw [reports_eq]
  cases event with
  | logged notice => cases notice <;> first | (cases catcher <;> rfl) | cases harmless
  | _ => cases catcher <;> rfl

theorem Event.delivers_harmless (harmless : event.isHarmless = true) :
    event.delivers b = false := by
  cases event <;> first | rfl | cases harmless

theorem Event.discards_harmless (harmless : event.isHarmless = true) :
    event.discards b = false := by
  rw [discards_eq]
  cases event with
  | logged notice => cases notice <;> first | rfl | cases harmless
  | _ => rfl

theorem Event.abandons_harmless (harmless : event.isHarmless = true) :
    event.abandons b = false := by
  rw [abandons_eq]
  cases event with
  | logged notice => cases notice <;> first | rfl | cases harmless
  | _ => rfl

theorem Event.harmless_script (script : ∀ event ∈ events, event.isScript) :
    ∀ event ∈ events, event.isHarmless = true := by
  intro event member
  have told := script event member
  cases event <;> first | rfl | cases told

theorem Event.harmless_notices {notices : List Notice}
    (harmless : ∀ notice ∈ notices, notice.isHarmless = true) :
    ∀ event ∈ ofNotices notices, event.isHarmless = true := by
  intro event member
  obtain ⟨notice, inside, rfl⟩ := List.mem_map.mp member
  exact harmless notice inside

theorem Event.casualties_notices (notices : List Notice) :
    (ofNotices notices).filterMap casualty? = [] := by
  simp [ofNotices, casualty?]

/-- What a batch says when it closes: that it does, or that nobody had asked for its last failure.
-/
def System.lastNotice (s : System Work) (b : BatchId) : Notice :=
  match (s.batch b).barrier.pending with
  | none => .batchClosed b (s.poolOf b).name (s.batch b).kind
  | some failure => .failureUnobserved b (s.poolOf b).name (s.batch b).kind failure

theorem System.closeBatch_notices (s : System Work) (b : BatchId) :
    (s.closeBatch b).2 = s.lastNotice b ::
        match (s.batch b).kind with
        | .single t => (s.releaseToken t).2
        | .multi => [] := by
  simp only [closeBatch, lastNotice, deliver_failure]
  cases (s.batch b).kind <;> rfl

theorem System.releases_harmless (s : System Work) (kind : BatchKind) :
    ∀ notice ∈ ((match kind with
      | .single t => (s.releaseToken t).2
      | .multi => []) : List Notice), notice.isHarmless = true := by
  cases kind <;> simp [releaseToken, Notice.isHarmless]

theorem Notice.harmless_remark {notice : Notice} (remark : notice.isRemark = true) :
    notice.isHarmless = true := by
  cases notice <;> first | rfl | cases remark

end

namespace Scene

variable {σ σ' : Scene} {opening : Opening} {catcher : Catcher} {b : BatchId}
  {events : List Event}

theorem Opens.harmless (opens : σ.Opens opening) :
    ∀ event ∈ opening.events, event.isHarmless = true := by
  cases opens with
  | rests | pauses | waits | triesToWait | sweeps | dropsBatch => exact fun _ wrong => nomatch wrong
  | startsPool =>
      exact Event.harmless_notices (startPool_notices (fun _ _ _ _ => rfl) fun _ _ _ _ => rfl)
  | issuesToken | dropsToken | dropsPool =>
      exact Event.harmless_notices (by
        simp [issueToken, releaseToken, beginClosingPool, Notice.isHarmless])
  | @makesBatch _ p single =>
      apply Event.harmless_notices
      cases single <;> simp [makeBatch, issueToken, Notice.isHarmless]
  | queues _ submits | runsInline _ submits =>
      intro event member
      rcases List.mem_append.mp member with notice | own
      · refine Event.harmless_notices (fun notice member => ?_) event notice
        exact Notice.harmless_remark (submit_remarks _ _ notice (submits ▸ member))
      · simp only [List.mem_cons, List.not_mem_nil, or_false] at own
        rcases own with rfl | rfl <;> rfl
  | executes =>
      intro event member
      rw [List.mem_singleton.mp member]
      rfl

/-! ## Every panic is caught once -/

/-- Every panic that is caught here is on record as caught, unless it is on its way. -/
def Catches (σ : Scene) (catcher : Catcher) : Prop :=
  catcher.casualties σ.history =
    catcher.reported σ.history ++ catcher.inTransit σ.frames σ.signal

theorem Tallied.unadmitted (tallied : σ.Tallied) (tallied' : σ'.Tallied)
    (history : σ'.history = σ.history ++ events) :
    ∀ job ∈ σ.history.filterMap Event.casualty?,
      ∀ event ∈ events, catcher.admits job event = false := by
  intro job left event member
  obtain ⟨unwound, inside, casualty⟩ := List.mem_filterMap.mp left
  cases unwound with
  | unwound =>
      cases casualty
      have again := tallied.not_again tallied' history inside event member
      cases event with
      | submitted other =>
          have different : other ≠ job := fun same => again (congrArg (some ∘ Mark.submits) same)
          simp [Catcher.admits, different]
      | _ => rfl
  | _ => cases casualty

theorem admits_of_submitted {job : JobId} {batch : Option BatchId} {route : Route}
    (tallied : σ.Tallied) (logged : .submitted job batch route ∈ σ.history) :
    σ.history.any (catcher.admits job) = catcher.catches batch route := by
  rw [Bool.eq_iff_iff, List.any_eq_true]
  constructor
  · rintro ⟨event, member, admits⟩
    cases event with
    | submitted other wrapped route' =>
        simp only [Catcher.admits, Bool.and_eq_true, decide_eq_true_eq] at admits
        obtain ⟨rfl, catches⟩ := admits
        obtain ⟨rfl, rfl⟩ := tallied.submitted_once logged member
        exact catches
    | _ => cases admits
  · intro catches
    exact ⟨_, logged, by simp [Catcher.admits, catches]⟩

theorem Catches.told (caught : σ.Catches catcher) (tallied : σ.Tallied) (tallied' : σ'.Tallied)
    (history : σ'.history = σ.history ++ events)
    (unhurt : events.filterMap Event.casualty? = [])
    (told : catcher.reported events = catcher.inTransit σ.frames σ.signal)
    (after : catcher.inTransit σ'.frames σ'.signal = []) : σ'.Catches catcher := by
  rw [Catches, history, Catcher.casualties_append (tallied.unadmitted tallied' history), unhurt,
    Catcher.reported_append, told, after, List.filter_nil, List.append_nil, List.append_nil]
  exact caught

theorem Catches.harmless (caught : σ.Catches catcher) (tallied : σ.Tallied)
    (tallied' : σ'.Tallied) (history : σ'.history = σ.history ++ events)
    (harmless : ∀ event ∈ events, event.isHarmless = true)
    (before : catcher.inTransit σ.frames σ.signal = [])
    (after : catcher.inTransit σ'.frames σ'.signal = []) : σ'.Catches catcher := by
  refine caught.told tallied tallied' history ?_ ?_ after
  · exact List.filterMap_eq_nil_iff.mpr fun event member =>
      Event.casualty_harmless (harmless event member)
  · rw [before]
    exact List.filterMap_eq_nil_iff.mpr fun event member =>
      catcher.reports_harmless (harmless event member)

theorem Catches.unwinds (caught : σ.Catches catcher) (tallied : σ.Tallied) (tallied' : σ'.Tallied)
    {job : JobId} {label : String} {payload : Payload} {below : List Frame}
    (ground : Ground σ.history job below)
    (before : catcher.inTransit σ.frames σ.signal = [])
    (frames : σ'.frames = below) (raised : σ'.signal = .raised payload)
    (history : σ'.history = σ.history ++ [.unwound job label payload]) : σ'.Catches catcher := by
  obtain ⟨batch, route, logged, transit⟩ := catcher.inTransit_ground ground payload
  have admitted : σ'.history.any (catcher.admits job) = catcher.catches batch route :=
    admits_of_submitted tallied' (history ▸ List.mem_append_left _ logged)
  have silent : catcher.reported [.unwound job label payload] = [] := by cases catcher <;> rfl
  have left : [Event.unwound job label payload].filterMap Event.casualty? = [job] := rfl
  rw [history] at admitted
  rw [Catches, before, List.append_nil] at caught
  rw [Catches, history, Catcher.casualties_append (tallied.unadmitted tallied' history),
    Catcher.reported_append, silent, frames, raised, transit, left, caught, List.append_nil,
    List.filter_cons, List.filter_nil, admitted]

theorem reported_settle (s : System Work) (job : JobId) (c : BatchId) (below : List Frame)
    (signal : Signal) :
    catcher.reported (Event.ofNotices (s.settle c job signal.panic?).2) =
      catcher.inTransit (.settle job c :: below) signal := by
  cases signal with
  | proceed | returned => cases catcher <;> rfl
  | raised payload =>
      simp only [settle, Signal.panic?, Event.ofNotices, List.map_cons]
      cases catcher with
      | batch b =>
          by_cases own : c = b <;> split <;>
            simp [Catcher.reported, Catcher.reports_eq, Catcher.inTransit, Catcher.expects, own]
      | pools =>
          split <;>
            simp [Catcher.reported, Catcher.reports_eq, Catcher.inTransit, Catcher.expects]

theorem Moves.catches (moves : σ.Moves σ') (sound : σ.Sound) (tallied : σ.Tallied)
    (tallied' : σ'.Tallied) (grounded : Grounded σ.history σ.frames)
    (caught : σ.Catches catcher) : σ'.Catches catcher := by
  have stacked := sound.custody.stacked
  have before : ∀ {frame below}, σ.frames = frame :: below → catcher.expects frame = none →
      catcher.inTransit σ.frames σ.signal = [] := by
    intro frame below top none
    rw [top]
    exact Catcher.inTransit_of_none none
  have below : ∀ {frame below signal}, σ.frames = frame :: below →
      (∀ job label next rest onBatch, frame ≠ .body job label next rest onBatch) →
      (∀ job b, frame ≠ .settle job b) → catcher.inTransit below signal = [] := by
    intro frame below signal top notBody notSettle
    rw [top] at stacked
    exact Catcher.inTransit_below stacked.1 notBody notSettle
  have unexpected : ∀ {frame : Frame}, frame.performs = true ∨ frame.isHost = true →
      catcher.expects frame = none :=
    fun kind => kind.elim Catcher.expects_performs Catcher.expects_host
  cases moves with
  | advances top on quiet =>
      exact caught.harmless tallied tallied' rfl (Event.harmless_script quiet)
        (before top (unexpected (.inl on.performs.1)))
        (Catcher.inTransit_of_none (unexpected (.inl on.performs.2)))
  | opens top on opens =>
      refine caught.harmless tallied tallied' rfl opens.harmless
        (before top (unexpected (.inl on.performs.1))) ?_
      cases opens with
      | @pauses _ pause _ kind =>
          apply Catcher.inTransit_of_none
          cases pause <;> first | (cases catcher <;> rfl) | cases kind
      | _ =>
          apply Catcher.inTransit_of_none
          cases catcher <;> rfl
  | leaves top | finishes top | sweepEnds top =>
      have same := (List.append_nil σ.history).symm
      refine caught.harmless tallied tallied' same (by simp) (before top ?_)
        (below top (by simp) (by simp))
      cases catcher <;> rfl
  | @passes frame _ _ top kind =>
      have same := (List.append_nil σ.history).symm
      refine caught.harmless tallied tallied' same (by simp) (before top ?_) (below top ?_ ?_)
      · cases frame <;> first | (cases catcher <;> rfl) | simp [Frame.isPause] at kind
      · rintro job label next rest onBatch rfl
        simp [Frame.isPause] at kind
      · rintro job b rfl
        simp [Frame.isPause] at kind
  | ends top =>
      exact caught.harmless tallied tallied' rfl (by simp [Event.isHarmless])
        (before top (unexpected (.inl rfl))) (Catcher.inTransit_calm rfl)
  | unwinds top raised =>
      -- the panic is on its way from here, and arrives in one of the two cases below
      rw [top] at grounded
      have ground := grounded _ _ _ _ _ _ (List.suffix_refl _)
      exact caught.unwinds tallied tallied' ground (before top (unexpected (.inl rfl))) rfl raised
        rfl
  | settles top =>
      refine caught.told tallied tallied' rfl (Event.casualties_notices _) ?_
        (Catcher.inTransit_calm rfl)
      rw [reported_settle, top]
  | contains top =>
      refine caught.told tallied tallied' rfl ?_ ?_ (Catcher.inTransit_calm rfl)
      · cases σ.signal <;> rfl
      · rw [top]
        cases σ.signal <;> cases catcher <;> rfl
  | sweeps top | helps top | drains top =>
      exact caught.harmless tallied tallied' rfl (by simp [Task.started, Event.isHarmless])
        (before top (unexpected (.inr rfl))) (Catcher.inTransit_calm rfl)
  | delivers top =>
      refine caught.told tallied tallied' rfl rfl ?_ (Catcher.inTransit_calm rfl)
      rw [before top (unexpected (.inr rfl))]
      cases catcher <;> rfl
  | @closesBatch c _ _ top =>
      refine caught.told tallied tallied' rfl (Event.casualties_notices _) ?_
        (Catcher.inTransit_calm rfl)
      rw [before top (unexpected (.inr rfl)), closeBatch_notices, Event.ofNotices, List.map_cons,
        Catcher.reported, List.filterMap_cons_none]
      · have harmless := Event.harmless_notices
          (releases_harmless σ.system (σ.system.batch c).kind)
        exact List.filterMap_eq_nil_iff.mpr fun event member =>
          catcher.reports_harmless (harmless event member)
      · unfold lastNotice
        cases (σ.system.batch c).barrier.pending <;> cases catcher <;> rfl
  | closesPool top =>
      refine caught.told tallied tallied' rfl (Event.casualties_notices _) ?_
        (Catcher.inTransit_calm rfl)
      rw [before top (unexpected (.inr rfl))]
      cases catcher <;> rfl

end Scene

end TaskPool
