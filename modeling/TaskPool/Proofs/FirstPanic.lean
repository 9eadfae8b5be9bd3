import Mathlib.Data.List.DropRight
import TaskPool.Proofs.JobConservation
import TaskPool.Proofs.OutstandingCount

/-!
# The first panic since the last delivery

A batch keeps the first panic of its wrapped tasks until a wait delivers it; then the next panic is
first again. The record tells which panics these are: `panics` lists, in the order in which the
tasks were left, the panics of wrapped tasks since a wait on the batch delivered a failure last. A
panic that has left its task and is not yet reported is in transit, on top of the stack; it is the
last of the list and is not in the barrier yet.
-/

namespace TaskPool

open TaskPool.System

namespace Event

def delivers (b : BatchId) : Event → Bool
  | .delivered other (some _) => other = b
  | _ => false

def wraps (b : BatchId) (job : JobId) : Event → Bool
  | .submitted other (some wrapped) _ => other = job && wrapped = b
  | _ => false

/-- The panic that left a task, if the task is wrapped for the batch. -/
def panicOf (b : BatchId) (history : List Event) : Event → Option Payload
  | .unwound job _ payload => if history.any (·.wraps b job) then some payload else none
  | _ => none

def isSilent : Event → Bool
  | .unwound .. | .delivered .. => false
  | _ => true

theorem delivers_silent {b : BatchId} {event : Event} (silent : event.isSilent = true) :
    event.delivers b = false := by
  cases event <;> first | rfl | cases silent

theorem panicOf_silent {b : BatchId} {history : List Event} {event : Event}
    (silent : event.isSilent = true) : event.panicOf b history = none := by
  cases event <;> first | rfl | cases silent

theorem silent_notices (notices : List Notice) :
    ∀ event ∈ ofNotices notices, event.isSilent = true := by
  simp [ofNotices, isSilent]

theorem silent_script {events : List Event} (script : ∀ event ∈ events, event.isScript) :
    ∀ event ∈ events, event.isSilent = true := by
  intro event member
  have told := script event member
  cases event <;> first | rfl | cases told

end Event

/-- What happened since a wait on the batch delivered a failure last. -/
def epoch (b : BatchId) (history : List Event) : List Event :=
  history.rtakeWhile (!·.delivers b)

/-- The panics of the wrapped tasks of a batch in its present epoch, the first one first. -/
def panics (b : BatchId) (history : List Event) : List Payload :=
  (epoch b history).filterMap (Event.panicOf b history)

section

variable {b : BatchId} {history events : List Event}

theorem epoch_append (same : ∀ event ∈ events, event.delivers b = false) :
    epoch b (history ++ events) = epoch b history ++ events := by
  induction events using List.reverseRecOn with
  | nil => simp
  | append_singleton rest event ih =>
      have later := ih fun other member => same other (List.mem_append_left _ member)
      have last : event.delivers b = false := same event (by simp)
      rw [← List.append_assoc, ← List.append_assoc, ← later, epoch, List.rtakeWhile_concat, last]
      rfl

/-- Panics of jobs that were submitted before stay what they are. -/
theorem panics_append (same : ∀ event ∈ events, event.delivers b = false)
    (fresh : ∀ job label payload, .unwound job label payload ∈ history →
      ∀ event ∈ events, event.wraps b job = false) :
    panics b (history ++ events) =
      panics b history ++ events.filterMap (Event.panicOf b (history ++ events)) := by
  rw [panics, epoch_append same, List.filterMap_append, panics]
  congr 1
  apply List.filterMap_congr
  intro event member
  have inside : event ∈ history := (List.rtakeWhile_suffix _ _).subset member
  cases event with
  | unwound job label payload =>
      have none : events.any (·.wraps b job) = false :=
        List.any_eq_false.mpr fun event member => by
          simp [fresh job label payload inside event member]
      simp only [Event.panicOf, List.any_append, none, Bool.or_false]
  | _ => rfl

theorem panics_silent (silent : ∀ event ∈ events, event.isSilent = true)
    (fresh : ∀ job label payload, .unwound job label payload ∈ history →
      ∀ event ∈ events, event.wraps b job = false) :
    panics b (history ++ events) = panics b history := by
  rw [panics_append (fun event member => Event.delivers_silent (silent event member)) fresh]
  have none : events.filterMap (Event.panicOf b (history ++ events)) = [] :=
    List.filterMap_eq_nil_iff.mpr fun event member => Event.panicOf_silent (silent event member)
  rw [none, List.append_nil]

theorem panics_delivered (failure : Failure) :
    panics b (history ++ [.delivered b (some failure)]) = [] := by
  simp [panics, epoch, Event.delivers]

end

/-- The barrier holds the first of the panics that were reported to it. -/
structure Barrier.Keeps (barrier : Barrier) (reported : List Payload) : Prop where
  pending : barrier.pending = reported.head?.map Failure.ofPayload
  claimed : barrier.claimed = !reported.isEmpty

namespace Barrier.Keeps

variable {barrier barrier' : Barrier} {reported : List Payload}

theorem congr (keeps : barrier.Keeps reported) (pending : barrier'.pending = barrier.pending)
    (claimed : barrier'.claimed = barrier.claimed) : barrier'.Keeps reported :=
  ⟨pending.trans keeps.pending, claimed.trans keeps.claimed⟩

theorem settle_some (keeps : barrier.Keeps reported) (payload : Payload) :
    (barrier.settle (some payload)).Keeps (reported ++ [payload]) := by
  obtain ⟨pending, claimed⟩ := keeps
  cases reported with
  | nil =>
      simp only [List.isEmpty_nil, Bool.not_true] at claimed
      constructor <;> simp [settle, keepFirst, claim, claimed, fill, retire]
  | cons first rest =>
      simp only [List.isEmpty_cons, Bool.not_false] at claimed
      constructor <;> simp [settle, keepFirst, claim, claimed, retire, pending]

theorem deliver (keeps : barrier.Keeps reported) : barrier.deliver.2.Keeps [] := by
  obtain ⟨pending, claimed⟩ := keeps
  cases reported with
  | nil => constructor <;> simp_all [Barrier.deliver, take]
  | cons first rest => constructor <;> simp_all [Barrier.deliver, take, reopen]

end Barrier.Keeps

/-- The panic that has left a task of the batch and is about to be reported. -/
def transit (b : BatchId) : List Frame → Signal → List Payload
  | .settle _ c :: _, .raised payload => if c = b then [payload] else []
  | _, _ => []

section

variable {b : BatchId} {frame : Frame} {below : List Frame} {signal : Signal}

theorem transit_of_ne (other : ∀ job c, frame ≠ .settle job c) :
    transit b (frame :: below) signal = [] := by
  cases frame with
  | settle => exact absurd rfl (other _ _)
  | _ => rfl

theorem transit_of_not_raised (calm : signal.panic? = none) : transit b below signal = [] := by
  cases signal with
  | raised => cases calm
  | proceed | returned =>
      cases below with
      | nil => rfl
      | cons frame rest => cases frame <;> rfl

theorem transit_below {s : System Work} (fits : frame.Fits s below)
    (other : ∀ job label next rest onBatch, frame ≠ .body job label next rest onBatch) :
    transit b below signal = [] := by
  cases below with
  | nil => rfl
  | cons under rest =>
      apply transit_of_ne
      rintro job c rfl
      obtain ⟨_, _, _, _, _, body⟩ := fits.settle_below
      exact other _ _ _ _ _ body

end

namespace Scene

variable {σ σ' : Scene} {opening : Opening} {b : BatchId}

def Current (σ : Scene) (b : BatchId) : Prop :=
  b.index < σ.system.batches.length → (σ.system.batch b).stage ≠ .closed

/-- The barrier keeps the first panic of the epoch, once it was reported. -/
def KeepsFirst (σ : Scene) (b : BatchId) : Prop :=
  ∃ reported, panics b σ.history = reported ++ transit b σ.frames σ.signal ∧
    (σ.system.batch b).barrier.Keeps reported

def KeepsFirsts (σ : Scene) : Prop := ∀ b, σ.Current b → σ.KeepsFirst b

theorem Moves.current (moves : σ.Moves σ') (sound : σ.Sound) (current : σ'.Current b) :
    σ.Current b := by
  intro known closed
  have grows := moves.grows sound.registry
  exact current (grows.batches b known).1 (grows.closed b known closed)

/-- A job that was left by a panic is not submitted again. -/
theorem Tallied.not_again (tallied : σ.Tallied) (tallied' : σ'.Tallied) {events : List Event}
    (history : σ'.history = σ.history ++ events) {job : JobId} {label : String}
    {payload : Payload} (unwound : .unwound job label payload ∈ σ.history) :
    ∀ event ∈ events, event.mark ≠ some (.submits job) := by
  intro event member marked
  have ended : 0 < σ.times (.ends job) :=
    List.count_pos_iff.mpr (List.mem_filterMap.mpr ⟨_, unwound, rfl⟩)
  have again : 0 < (marks events).count (.submits job) :=
    List.count_pos_iff.mpr (List.mem_filterMap.mpr ⟨event, member, marked⟩)
  have once := tallied'.numbered job
  rw [times, history, marks_append, List.count_append] at once
  have queued := tallied.queued job
  have lasting := tallied.lasting job
  simp only [times] at ended queued lasting
  split at once <;> omega

theorem Tallied.fresh (tallied : σ.Tallied) (tallied' : σ'.Tallied) {events : List Event}
    (history : σ'.history = σ.history ++ events) (job : JobId) (label : String) (payload : Payload)
    (unwound : .unwound job label payload ∈ σ.history) :
    ∀ event ∈ events, event.wraps b job = false := by
  intro event member
  apply Bool.eq_false_iff.mpr
  intro wraps
  refine tallied.not_again tallied' history unwound event member ?_
  cases event with
  | submitted other batch =>
      cases batch with
      | none => cases wraps
      | some c =>
          simp only [Event.wraps, Bool.and_eq_true, decide_eq_true_eq] at wraps
          rw [← wraps.1]
          rfl
  | _ => cases wraps

/-! ## What happens to the barriers -/

def slot (s : System Work) (b : BatchId) : Option Failure × Bool :=
  ((s.batch b).barrier.pending, (s.batch b).barrier.claimed)

theorem slot_modifyBatch {s : System Work} {c : BatchId} {f : Batch → Batch}
    (pending : (f (s.batch c)).barrier.pending = (s.batch c).barrier.pending)
    (claimed : (f (s.batch c)).barrier.claimed = (s.batch c).barrier.claimed) :
    slot (s.modifyBatch c f) b = slot s b :=
  batch_modifyBatch_proj (fun batch => (batch.barrier.pending, batch.barrier.claimed))
    (Prod.ext pending claimed) b

theorem slot_modifyBatch_of_ne {s : System Work} {c : BatchId} (f : Batch → Batch)
    (different : c ≠ b) : slot (s.modifyBatch c f) b = slot s b := by
  simp only [slot, batch_modifyBatch_of_ne f different]

theorem slot_count {s : System Work} (wrapped : Option BatchId) :
    slot (s.count wrapped) b = slot s b := by
  cases wrapped with
  | none => rfl
  | some c => exact slot_modifyBatch (s := { s with submissions := s.submissions + 1 }) rfl rfl

theorem slot_submit {s : System Work} (entry : Entry) (work : Work) :
    slot (s.submit entry work).system b = slot s b := by
  cases submit_submits (s := s) entry work with
  | declined _ _ _ system =>
      rw [system]
      exact slot_count none
  | admitted admits =>
      obtain ⟨_, ⟨_, system⟩ | ⟨_, system⟩⟩ := admits <;> rw [system]
      · exact slot_count _
      · exact slot_count _

theorem slot_appendBatch {s : System Work} {new : Batch} (empty : new.barrier = {}) :
    slot { s with batches := s.batches ++ [new] } b = slot s b := by
  rcases batch_append_cases (s := s) new b with ⟨_, same⟩ | ⟨last, same⟩
  · simp only [slot, same]
  · have unknown : s.batch b = default := batch_unknown (Nat.le_of_eq last.symm)
    simp only [slot, same, unknown, empty]
    rfl

theorem slot_take {s s' : System Work} {source : Source} {job : Job Work}
    (taken : s.take source = some (job, s')) : slot s' b = slot s b := by
  obtain ⟨_, _, _, _, _, rfl⟩ := take_loses taken
  rfl

theorem slot_closeBatch {s : System Work} {c : BatchId} (different : c ≠ b) :
    slot (s.closeBatch c).1 b = slot s b := by
  have ended : slot (s.endBatch c) b = slot s b := by
    rw [endBatch, slot_modifyBatch_of_ne _ different, deliver_system,
      slot_modifyBatch_of_ne _ different]
  rw [closeBatch_system]
  cases (s.batch c).kind with
  | single t => exact ended
  | multi => exact ended

theorem Opens.slot (opens : σ.Opens opening) : slot opening.system b = slot σ.system b := by
  cases opens with
  | rests | pauses | waits | triesToWait | sweeps => rfl
  | startsPool | issuesToken | dropsToken | dropsPool => rfl
  | @makesBatch _ p single =>
      cases single with
      | true => exact (slot_appendBatch rfl).trans rfl
      | false => exact slot_appendBatch rfl
  | dropsBatch => exact slot_modifyBatch rfl rfl
  | queues _ submits => exact submits ▸ slot_submit _ _
  | runsInline _ submits => exact submits ▸ slot_submit _ _
  | executes _ taken => exact slot_take taken

theorem KeepsFirst.silent (keeps : σ.KeepsFirst b) {events : List Event}
    (history : σ'.history = σ.history ++ events)
    (silent : ∀ event ∈ events, event.isSilent = true)
    (fresh : ∀ job label payload, .unwound job label payload ∈ σ.history →
      ∀ event ∈ events, event.wraps b job = false)
    (same : Scene.slot σ'.system b = Scene.slot σ.system b)
    (before : transit b σ.frames σ.signal = []) (after : transit b σ'.frames σ'.signal = []) :
    σ'.KeepsFirst b := by
  obtain ⟨reported, list, barrier⟩ := keeps
  refine ⟨reported, ?_, barrier.congr (congrArg Prod.fst same) (congrArg Prod.snd same)⟩
  rw [history, panics_silent silent fresh, list, before, after]

theorem Opens.silent (opens : σ.Opens opening) :
    ∀ event ∈ opening.events, event.isSilent = true := by
  cases opens with
  | rests | pauses | waits | triesToWait | sweeps | dropsBatch => exact fun _ wrong => nomatch wrong
  | startsPool | issuesToken | makesBatch | dropsToken | dropsPool =>
      exact Event.silent_notices _
  | queues | runsInline =>
      intro event member
      rcases List.mem_append.mp member with notice | own
      · exact Event.silent_notices _ event notice
      · simp only [List.mem_cons, List.not_mem_nil, or_false] at own
        rcases own with rfl | rfl <;> rfl
  | executes =>
      intro event member
      rw [List.mem_singleton.mp member]
      rfl

theorem Opens.no_transit (opens : σ.Opens opening) (below : List Frame) (onFailure : OnFailure)
    (caught : Bool) (signal : Signal) : transit b
      (opening.push ++ .call opening.loans onFailure caught :: below) signal = [] := by
  cases opens with
  | @pauses _ pause _ kind => cases pause <;> first | rfl | cases kind
  | _ => rfl

/-! ## What happens to panics -/

theorem wraps_of_submitted {job : JobId} {batch : Option BatchId} {route : Route}
    (tallied : σ.Tallied) (logged : .submitted job batch route ∈ σ.history) :
    σ.history.any (·.wraps b job) = decide (batch = some b) := by
  rw [Bool.eq_iff_iff, List.any_eq_true, decide_eq_true_eq]
  constructor
  · rintro ⟨event, member, wraps⟩
    cases event with
    | submitted other wrapped route' =>
        cases wrapped with
        | none => cases wraps
        | some c =>
            simp only [Event.wraps, Bool.and_eq_true, decide_eq_true_eq] at wraps
            obtain ⟨rfl, rfl⟩ := wraps
            exact (tallied.submitted_once logged member).1
    | _ => cases wraps
  · rintro rfl
    exact ⟨_, logged, by simp [Event.wraps]⟩

theorem KeepsFirst.unwinds (keeps : σ.KeepsFirst b) (tallied : σ.Tallied) (tallied' : σ'.Tallied)
    (guarded : Guarded σ.system σ.history σ.frames) {job : JobId} {label : String} {next : Nat}
    {rest : List Op} {onBatch : Option String} {payload : Payload} {below : List Frame}
    (top : σ.frames = .body job label next rest onBatch :: below) (system : σ'.system = σ.system)
    (frames : σ'.frames = below) (raised : σ'.signal = .raised payload)
    (history : σ'.history = σ.history ++ [.unwound job label payload]) : σ'.KeepsFirst b := by
  obtain ⟨reported, list, barrier⟩ := keeps
  refine ⟨reported, ?_, system ▸ barrier⟩
  rw [top] at guarded
  obtain ⟨guard, _⟩ := guarded
  obtain @⟨batch, route, runner, rest, logged, runs⟩ := guard
  have wrapped : σ'.history.any (·.wraps b job) = decide (batch = some b) :=
    wraps_of_submitted tallied' (history ▸ List.mem_append_left _ logged)
  have same : ∀ event ∈ [Event.unwound job label payload], event.delivers b = false := by
    intro event member
    rw [List.mem_singleton.mp member]
    rfl
  rw [history, panics_append same (tallied.fresh tallied' history), list, top, frames, raised,
    transit_of_ne (by simp), List.append_nil, ← history]
  congr 1
  simp only [List.filterMap_cons, List.filterMap_nil, Event.panicOf, wrapped]
  cases batch with
  | none =>
      have done : transit b (runner :: rest) (.raised payload) = [] :=
        transit_of_ne fun job c wrong => by rw [wrong] at runs; cases runs
      simpa using done.symm
  | some c =>
      by_cases own : c = b <;> simp [transit, own]

theorem KeepsFirst.settles (keeps : σ.KeepsFirst b) (tallied : σ.Tallied) (tallied' : σ'.Tallied)
    (balanced : σ.Balanced) {job : JobId} {c : BatchId} {below : List Frame}
    (top : σ.frames = .settle job c :: below)
    (system : σ'.system = (σ.system.settle c job σ.signal.panic?).1)
    (signal : σ'.signal = .returned .nothing)
    (history : σ'.history =
      σ.history ++ Event.ofNotices (σ.system.settle c job σ.signal.panic?).2) :
    σ'.KeepsFirst b := by
  obtain ⟨reported, list, barrier⟩ := keeps
  have after : transit b σ'.frames σ'.signal = [] :=
    transit_of_not_raised (by rw [signal]; rfl)
  have silent := Event.silent_notices (σ.system.settle c job σ.signal.panic?).2
  have same : panics b σ'.history = panics b σ.history := by
    rw [history]
    exact panics_silent silent (tallied.fresh tallied' history)
  rw [settle_system] at system
  by_cases own : c = b
  · subst own
    have known : c.index < σ.system.batches.length := by
      apply Nat.lt_of_not_le
      intro unknown
      have counted := balanced.counted (top ▸ List.mem_cons_self)
      rw [outstanding, batch_unknown unknown] at counted
      exact absurd counted (Nat.lt_irrefl 0)
    have settled : (σ'.system.batch c).barrier =
        (σ.system.batch c).barrier.settle σ.signal.panic? := by
      rw [system]
      exact barrier_mapBarrier _ known
    rw [top] at list
    refine ⟨reported ++ transit c (.settle job c :: below) σ.signal, ?_, ?_⟩
    · rw [same, list, after, List.append_nil]
    · rw [settled]
      cases panicked : σ.signal with
      | raised payload =>
          simp only [transit, if_true]
          exact barrier.settle_some payload
      | proceed | returned =>
          simp only [transit, List.append_nil]
          exact barrier.congr rfl rfl
  · have before : transit b σ.frames σ.signal = [] := by
      rw [top]
      cases σ.signal <;> simp [transit, own]
    have kept : slot σ'.system b = slot σ.system b := by
      rw [system]
      exact slot_modifyBatch_of_ne _ own
    refine ⟨reported, ?_, barrier.congr (congrArg Prod.fst kept) (congrArg Prod.snd kept)⟩
    rw [same, list, before, after]

theorem KeepsFirst.delivers (keeps : σ.KeepsFirst b) (tallied : σ.Tallied)
    (tallied' : σ'.Tallied) {c : BatchId} (known : c.index < σ.system.batches.length)
    (system : σ'.system = (σ.system.deliver c).2) (before : transit b σ.frames σ.signal = [])
    (after : transit b σ'.frames σ'.signal = [])
    (history : σ'.history = σ.history ++ [.delivered c (σ.system.deliver c).1]) :
    σ'.KeepsFirst b := by
  obtain ⟨reported, list, barrier⟩ := keeps
  rw [before, List.append_nil] at list
  rw [deliver_system] at system
  rw [deliver_failure] at history
  have quiet : (c ≠ b ∨ (σ.system.batch c).barrier.pending = none) →
      panics b σ'.history = panics b σ.history := by
    intro other
    have same : ∀ event ∈ [Event.delivered c (σ.system.batch c).barrier.pending],
        event.delivers b = false := by
      intro event member
      rw [List.mem_singleton.mp member]
      rcases other with other | none
      · cases (σ.system.batch c).barrier.pending <;> simp [Event.delivers, other]
      · rw [none]
        rfl
    rw [history, panics_append same (tallied.fresh tallied' history)]
    exact List.append_nil _
  by_cases own : c = b
  · subst own
    have delivered : (σ'.system.batch c).barrier = (σ.system.batch c).barrier.deliver.2 := by
      rw [system]
      exact barrier_mapBarrier (·.deliver.2) known
    refine ⟨[], ?_, delivered ▸ barrier.deliver⟩
    rw [after, List.append_nil]
    cases pending : (σ.system.batch c).barrier.pending with
    | some failure =>
        rw [history, pending]
        exact panics_delivered failure
    | none =>
        have empty : reported = [] := by
          simpa [pending, eq_comm] using barrier.pending
        rw [quiet (.inr pending), list, empty]
  · have kept : slot σ'.system b = slot σ.system b := by
      rw [system]
      exact slot_modifyBatch_of_ne _ own
    refine ⟨reported, ?_, barrier.congr (congrArg Prod.fst kept) (congrArg Prod.snd kept)⟩
    rw [quiet (.inl own), list, after, List.append_nil]

theorem Moves.keepsFirsts (moves : σ.Moves σ') (sound : σ.Sound) (tallied : σ.Tallied)
    (tallied' : σ'.Tallied) (guarded : Guarded σ.system σ.history σ.frames)
    (balanced : σ.Balanced) (keeps : σ.KeepsFirsts) : σ'.KeepsFirsts := by
  intro b current
  have old := keeps b (moves.current sound current)
  have registry := sound.registry
  have stacked := sound.custody.stacked
  have fresh : ∀ {events}, σ'.history = σ.history ++ events →
      ∀ job label payload, .unwound job label payload ∈ σ.history →
        ∀ event ∈ events, event.wraps b job = false := fun same => tallied.fresh tallied' same
  have before : ∀ {frame below}, σ.frames = frame :: below →
      (∀ job c, frame ≠ .settle job c) → transit b σ.frames σ.signal = [] := by
    intro frame below top other
    rw [top]
    exact transit_of_ne other
  have uncovered : ∀ {frame below signal}, σ.frames = frame :: below →
      (∀ job label next rest onBatch, frame ≠ .body job label next rest onBatch) →
      transit b below signal = [] := by
    intro frame below signal top other
    rw [top] at stacked
    exact transit_below stacked.1 other
  cases moves with
  | advances top on quiet =>
      refine old.silent rfl (Event.silent_script quiet) (fresh rfl) rfl (before top ?_) ?_
      · cases on <;> simp
      · apply transit_of_ne
        cases on <;> simp
  | opens top on opens =>
      refine old.silent rfl opens.silent (fresh rfl) opens.slot (before top ?_)
        (opens.no_transit _ _ _ _)
      cases on <;> simp
  | leaves top | finishes top | sweepEnds top =>
      have same := (List.append_nil σ.history).symm
      exact old.silent same (by simp) (fresh same) rfl (before top (by simp))
        (uncovered top (by simp))
  | passes top kind =>
      have same := (List.append_nil σ.history).symm
      refine old.silent same (by simp) (fresh same) rfl (before top ?_) (uncovered top ?_)
      · rintro job c rfl
        simp [Frame.isPause] at kind
      · rintro job label next rest onBatch rfl
        simp [Frame.isPause] at kind
  | ends top =>
      exact old.silent rfl (by simp [Event.isSilent]) (fresh rfl) rfl (before top (by simp))
        (transit_of_not_raised rfl)
  | unwinds top raised =>
      exact old.unwinds tallied tallied' guarded top rfl rfl raised rfl
  | settles top => exact old.settles tallied tallied' balanced top rfl rfl rfl
  | contains top =>
      exact old.silent rfl (by simp [Event.isSilent]) (fresh rfl) rfl (before top (by simp))
        (transit_of_not_raised rfl)
  | sweeps top _ taken =>
      exact old.silent rfl (by simp [Task.started, Event.isSilent]) (fresh rfl) (slot_take taken)
        (before top (by simp)) (transit_of_not_raised rfl)
  | helps top _ _ taken =>
      exact old.silent rfl (by simp [Task.started, Event.isSilent]) (fresh rfl) (slot_take taken)
        (before top (by simp)) (transit_of_not_raised rfl)
  | drains top taken =>
      exact old.silent rfl (by simp [Task.started, Event.isSilent]) (fresh rfl) (slot_take taken)
        (before top (by simp)) (transit_of_not_raised rfl)
  | @delivers c budget goal below top asked =>
      have known : c.index < σ.system.batches.length :=
        batch_known (Stage.opened (awaited registry sound.custody top asked).2)
      exact old.delivers tallied tallied' known rfl (before top (by simp))
        (transit_of_not_raised rfl) rfl
  | @closesBatch c budget below top =>
      -- nothing is claimed of a batch that is closed
      have other : c ≠ b := by
        rintro rfl
        have known : c.index < σ.system.batches.length := by
          apply batch_known
          intro closed
          exact Stage.noConfusion (closed.symm.trans (dropped sound.custody top))
        exact current ((Grows.closeBatch c).batches c known).1 (closeBatch_stage known)
      exact old.silent rfl (Event.silent_notices _) (fresh rfl) (slot_closeBatch other)
        (before top (by simp)) (transit_of_not_raised rfl)
  | closesPool top =>
      exact old.silent rfl (Event.silent_notices _) (fresh rfl) rfl (before top (by simp))
        (transit_of_not_raised rfl)

theorem KeepsFirsts.load (bodies : Table (List Op)) (host : Host) (ops : List Op) :
    (Machine.load bodies host ops).scene.KeepsFirsts :=
  fun _ _ => ⟨[], rfl, rfl, rfl⟩

end Scene

namespace Machine

variable {m next : Machine} {b : BatchId} {goal : Goal} {reply : Reply}

theorem Solo.keepsFirsts (solo : m.Solo) : m.scene.KeepsFirsts := by
  induction solo with
  | load bodies host ops => exact .load bodies host ops
  | turn run stepped alone ih =>
      rcases run.moves stepped alone with same | moves
      · exact same ▸ ih
      · exact moves.keepsFirsts run.sound.scene run.tallied (run.turn stepped alone).tallied
          run.guarded run.balanced ih

/-- A wait fails exactly when a wrapped task of the batch was left by a panic since a wait on the
batch failed last, and then it tells the first of these panics: its payload, and as its message the
text of the payload if it is fixed or owned text, and a placeholder otherwise. Afterwards nothing is
kept, and the next panic is first again. -/
theorem Solo.first_panic (solo : m.Solo) (returns : m.Returns next b goal reply)
    (asked : goal ≠ .close) :
    (∀ failure, reply = .failed failure ↔
        (panics b m.history).head?.map Failure.ofPayload = some failure) ∧
      (∀ payload, (panics b m.history).head? = some payload → ∃ failure,
        reply = .failed failure ∧ failure.payload = payload ∧
        (∀ s, payload = .fixedText s ∨ payload = .ownedText s → failure.message = s) ∧
        ((∀ s, payload ≠ .fixedText s ∧ payload ≠ .ownedText s) →
          failure.message = "<non-string panic payload>")) ∧
      (next.world.system.batch b).barrier.pending = none ∧
      (next.world.system.batch b).barrier.claimed = false := by
  obtain ⟨budget, top⟩ := returns.top
  have sound := solo.sound.scene
  obtain ⟨_, ⟨_, system, signal, _⟩ | ⟨wrong, _⟩⟩ := (returns.moves solo).wait_returns top
  · have live := (Scene.awaited sound.registry sound.custody top asked).2
    have known := batch_known (Stage.opened live)
    obtain ⟨reported, list, keeps⟩ := solo.keepsFirsts b fun _ => Stage.opened live
    have calm : transit b m.scene.frames m.scene.signal = [] := by
      rw [show m.scene.frames = _ from top]
      exact transit_of_ne (by simp)
    rw [calm, List.append_nil] at list
    have told := Signal.returned.inj (returns.signal.symm.trans signal)
    rw [deliver_failure, keeps.pending, ← list] at told
    have emptied : (next.world.system.batch b).barrier =
        (m.scene.system.batch b).barrier.deliver.2 := by
      rw [show next.world.system = _ from system, deliver_system]
      exact barrier_mapBarrier (·.deliver.2) known
    have fails : ∀ failure, reply = .failed failure ↔
        (panics b m.history).head?.map Failure.ofPayload = some failure :=
      fun failure => told ▸ Goal.answer_failed
    refine ⟨fails, fun payload first => ?_, ?_⟩
    · refine ⟨.ofPayload payload, (fails _).mpr (by rw [first, Option.map_some]),
        Failure.payload_ofPayload payload, fun s text => ?_, fun unread => ?_⟩ <;>
        rw [Failure.message_ofPayload]
      · exact Payload.message_of_text text
      · exact Payload.message_of_no_text unread
    obtain ⟨pending, claimed⟩ := emptied ▸ keeps.deliver
    exact ⟨pending, claimed⟩
  · exact absurd wrong asked

/-- A task of a batch that is left by a panic without any text. -/
def wordless : List Op :=
  [.pool (.given "p") .missing .missing .missing .missing,
    .batch (.given "s") (.given "p") .missing (.given false),
    .schedule (.given "s") (.given (.own "task" [.panic (.given .unit)])) (.given .forced) .missing,
    .wait (.given "s") .report false]

/-- The inner task panicked first, and the wait tells its panic. A panic without a text is told with
the placeholder. -/
theorem nested_inner_is_first :
    let waiting := (Machine.load [] .plain nested).run 35
    let waited := (Machine.load [] .plain nested).run 36
    let failure := Failure.ofPayload (.fixedText "inner")
    let waiting' := (Machine.load [] .plain wordless).run 16
    let waited' := (Machine.load [] .plain wordless).run 17
    let failure' := Failure.ofPayload .unit
    (waiting.Solo ∧ waiting.Returns waited ⟨0⟩ .wait (.failed failure) ∧
      panics ⟨0⟩ waiting.history = [.fixedText "inner", .fixedText "outer"] ∧
      (panics ⟨0⟩ waiting.history).head?.map Failure.ofPayload = some failure ∧
      failure.message = "inner" ∧
      (waited.world.system.batch ⟨0⟩).barrier.pending = none ∧
      (waited.world.system.batch ⟨0⟩).barrier.claimed = false) ∧
    waiting'.Solo ∧ waiting'.Returns waited' ⟨0⟩ .wait (.failed failure') ∧
      failure'.message = "<non-string panic payload>" := by
  intro waiting waited failure waiting' waited' failure'
  have solo : waiting.Solo := (Solo.load [] .plain nested).run 35 (by decide)
  have solo' : waiting'.Solo := (Solo.load [] .plain wordless).run 16 (by decide)
  have returns : waiting.Returns waited ⟨0⟩ .wait (.failed failure) := ⟨rfl, rfl, ⟨_, rfl⟩, rfl⟩
  have returns' : waiting'.Returns waited' ⟨0⟩ .wait (.failed failure') :=
    ⟨rfl, rfl, ⟨_, rfl⟩, rfl⟩
  obtain ⟨told, worded, emptied⟩ := Solo.first_panic solo returns (by simp)
  obtain ⟨_, worded', _⟩ := Solo.first_panic solo' returns' (by simp)
  obtain ⟨_, same, _, text, _⟩ := worded (.fixedText "inner") rfl
  obtain ⟨_, same', _, _, placeholder⟩ := worded' .unit rfl
  cases same
  cases same'
  exact ⟨⟨solo, returns, rfl, (told failure).mp rfl, text "inner" (.inl rfl), emptied⟩, solo',
    returns', placeholder (by simp)⟩

end Machine

end TaskPool
