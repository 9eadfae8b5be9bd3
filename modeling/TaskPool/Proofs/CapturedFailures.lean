import TaskPool.Proofs.CaughtPanics
import TaskPool.Proofs.Interleaving

/-!
# What was captured can be captured again

A failure keeps its payload and the text that was read from it, so to capture the payload once more
gives the failure back. This holds of every failure that a machine ever deals with, whichever
threads there are: of those that are pending, and of those that the journal tells of.

Only the report of a finished task captures a failure, and only the end of a wait or of a batch
tells of one that is pending. All other turns are mild, and most of this module finds them so.
-/

namespace TaskPool

open TaskPool.System

/-- To capture the payload of the failure gives the failure. -/
def Failure.IsCaptured (failure : Failure) : Prop :=
  Failure.ofPayload failure.payload = failure

theorem Failure.isCaptured_ofPayload (payload : Payload) : (ofPayload payload).IsCaptured := rfl

def Event.failure? : Event → Option Failure
  | .delivered _ failure => failure
  | .logged notice => notice.failure?
  | _ => none

theorem Event.failure?_script {event : Event} (script : event.isScript = true) :
    event.failure? = none := by
  cases event <;> first | rfl | cases script

theorem Event.failure?_notices {notices : List Notice}
    (silent : ∀ notice ∈ notices, notice.failure? = none) :
    ∀ event ∈ ofNotices notices, event.failure? = none := by
  intro event member
  obtain ⟨notice, told, rfl⟩ := List.mem_map.mp member
  exact silent notice told

theorem Notice.failure?_remark {notice : Notice} (remark : notice.isRemark = true) :
    notice.failure? = none := by
  cases notice <;> first | rfl | cases remark

def World.Agrees (w w' : World) : Prop :=
  ∀ b, Scene.slot w'.system b = Scene.slot w.system b

/-- The turn captures no failure and tells of none. -/
structure Turn.Mild (w : World) (turn : Turn) : Prop where
  agrees : w.Agrees turn.world
  silent : ∀ event ∈ turn.events, event.failure? = none

section

variable {w w' : World} {ctx : Context} {turn : Turn} {begun : Begun}

theorem World.Agrees.refl (w : World) : w.Agrees w := fun _ => rfl

theorem World.Agrees.trans {w'' : World} (first : w.Agrees w') (second : w'.Agrees w'') :
    w.Agrees w'' :=
  fun b => (second b).trans (first b)

theorem World.agrees_roused (w : World) (p : PoolId) (asleep : Bool) :
    w.Agrees (w.roused p asleep) := by
  unfold World.roused
  split <;> exact fun _ => rfl

/-! ## Mild turns -/

namespace Turn.Mild

theorem quiet (agrees : w.Agrees turn.world) (none : turn.events = []) : turn.Mild w :=
  ⟨agrees, by simp [none]⟩

theorem logs {notices : List Notice} (agrees : w.Agrees turn.world)
    (logged : turn.events = Event.ofNotices notices)
    (silent : ∀ notice ∈ notices, notice.failure? = none) : turn.Mild w :=
  ⟨agrees, logged ▸ Event.failure?_notices silent⟩

theorem above (mild : turn.Mild w) (frames : List Frame) : (turn.above frames).Mild w :=
  ⟨mild.agrees, mild.silent⟩

theorem after {events : List Event} (mild : turn.Mild w)
    (silent : ∀ event ∈ events, event.failure? = none) : (turn.after events).Mild w where
  agrees := mild.agrees
  silent event member := (List.mem_append.mp member).elim (silent event) (mild.silent event)

theorem trans (mild : turn.Mild w') (agrees : w.Agrees w') : turn.Mild w :=
  ⟨agrees.trans mild.agrees, mild.silent⟩

end Turn.Mild

theorem Turn.block_mild (ctx : Context) (w : World) (gate : String) :
    (Turn.block ctx w gate).Mild w := by
  unfold Turn.block
  split <;> exact .quiet (.refl w) rfl

theorem Job.launch_mild (ctx : Context) (job : Job Work) (w : World) :
    (job.launch ctx w).Mild w := by
  obtain ⟨id, batch, work⟩ := job
  refine Turn.Mild.above ?_ _
  cases work with
  | body label ops onBatch => exact ⟨.refl w, by simp [Event.failure?]⟩
  | park gate => exact Turn.block_mild ctx w gate

theorem Source.runNext_mild {source : Source} (runs : source.runNext ctx w = some turn) :
    turn.Mild w := by
  simp only [Source.runNext, Option.map_eq_some_iff] at runs
  obtain ⟨⟨job, system⟩, taken, rfl⟩ := runs
  exact ((Job.launch_mild ctx job { w with system }).above _).trans fun _ => Scene.slot_take taken

/-! ## Operations -/

theorem Work.submitted_mild (entry : Entry) (work : Work) :
    (work.submitted ctx entry w).Mild w := by
  have agrees : w.Agrees { w with system := (w.system.submit entry work).system } :=
    fun _ => Scene.slot_submit ..
  refine Turn.Mild.after ?_ fun event member => ?_
  · split
    · exact (Job.launch_mild ..).trans agrees
    · exact .quiet agrees rfl
  · rcases List.mem_append.mp member with notice | own
    · exact Event.failure?_notices
        (fun notice told => Notice.failure?_remark (submit_remarks _ _ notice told)) event notice
    · rw [List.mem_singleton.mp own]
      rfl

theorem Source.executed_mild (source : Source) : (source.executed ctx w).Mild w := by
  unfold Source.executed
  split
  · next runs => exact (Source.runNext_mild runs).above _
  · exact .quiet (.refl w) rfl

theorem System.park_mild (s : System Work) (p : PoolId) (gate : String) (jobs : Nat) :
    (∀ b, Scene.slot (s.park p gate jobs).1 b = Scene.slot s b) ∧
      ∀ event ∈ (s.park p gate jobs).2, event.failure? = none := by
  refine System.park_keeps (fun system events =>
    (∀ b, Scene.slot system b = Scene.slot s b) ∧ ∀ event ∈ events, event.failure? = none)
    ⟨fun _ => rfl, nofun⟩ ?_
  rintro system events - ⟨agrees, silent⟩
  refine ⟨fun b => (Scene.slot_submit ..).trans (agrees b), fun event member => ?_⟩
  refine (List.mem_append.mp member).elim (silent event) fun own => ?_
  rw [List.mem_singleton.mp own]
  rfl

/-- Whatever operation passes its checks, it neither captures a failure nor tells of one. -/
theorem Begun.Accepted.mild (accepted : Begun.Accepted ctx w begun) : begun.toTurn.Mild w := by
  cases accepted with
  | rests same events => exact .quiet (fun _ => by rw [same.system]) events
  | pauses same events => exact .quiet (fun _ => by rw [same.system]) events
  | startsPool =>
      exact .logs (fun _ => rfl) rfl (startPool_notices (fun _ _ _ _ => rfl) fun _ _ _ _ => rfl)
  | issuesToken => exact .logs (fun _ => rfl) rfl (by simp [System.issueToken, Notice.failure?])
  | @makesBatch _ _ _ single =>
      cases single with
      | true =>
          exact .logs (fun _ => (Scene.slot_appendBatch rfl).trans rfl) rfl
            (by simp [System.makeBatch, System.issueToken, Notice.failure?])
      | false =>
          exact .logs (fun _ => Scene.slot_appendBatch rfl) rfl
            (by simp [System.makeBatch, Notice.failure?])
  | dropsPool => exact .logs (fun _ => rfl) rfl (by simp [beginClosingPool, Notice.failure?])
  | dropsToken => exact .logs (fun _ => rfl) rfl (by simp [releaseToken, Notice.failure?])
  | dropsBatch => exact .quiet (fun _ => Scene.slot_modifyBatch rfl rfl) rfl
  | submits => exact Work.submitted_mild ..
  | executes => exact Source.executed_mild _
  | holds => exact ⟨(w.system.park_mild _ _ _).1, (w.system.park_mild _ _ _).2⟩
  | sharesPool | startsShared | forgetsPool | sweeps | waits | triesToWait | movesAway | joins =>
      exact .quiet (fun _ => rfl) rfl

theorem Op.perform_mild (op : Op) (catchAll : Bool) : (op.perform ctx w catchAll).Mild w := by
  simp only [Op.perform]
  cases begins : Begun.ofOp ctx w op.uncaught.2 with
  | error reason => exact .quiet (.refl w) rfl
  | ok begun =>
      have mild := (Begun.ofOp_accepted begins).mild
      exact ⟨mild.agrees, mild.silent⟩

/-! ## Failures -/

def World.Honest (w : World) : Prop :=
  ∀ b failure, (w.system.batch b).barrier.pending = some failure → failure.IsCaptured

/-- Every failure that is pending after the turn or that the turn tells of was captured. -/
structure Turn.Honest (turn : Turn) : Prop where
  world : turn.world.Honest
  told : ∀ event ∈ turn.events, ∀ failure, event.failure? = some failure → failure.IsCaptured

theorem World.Agrees.honest (agrees : w.Agrees w') (honest : w.Honest) : w'.Honest := by
  intro b failure pending
  exact honest b failure ((congrArg Prod.fst (agrees b)).symm.trans pending)

theorem Turn.Mild.honest (mild : turn.Mild w) (honest : w.Honest) : turn.Honest where
  world := mild.agrees.honest honest
  told event member failure told := by
    rw [mild.silent event member] at told
    cases told

theorem World.Honest.quiet (honest : w.Honest) (agrees : w.Agrees turn.world)
    (none : turn.events = []) : turn.Honest :=
  (Turn.Mild.quiet agrees none).honest honest

theorem World.Honest.mapBarrier {s : System Work} {c : BatchId} {f : Barrier → Barrier}
    (honest : ∀ b failure, (s.batch b).barrier.pending = some failure → failure.IsCaptured)
    (kept : ∀ failure, (f (s.batch c).barrier).pending = some failure → failure.IsCaptured) :
    ∀ b failure, ((s.modifyBatch c (·.mapBarrier f)).batch b).barrier.pending = some failure →
      failure.IsCaptured :=
  forall_batch (fun _ batch => ∀ failure, batch.barrier.pending = some failure →
    failure.IsCaptured) honest fun _ => kept

theorem World.Honest.deliver (honest : w.Honest) (b : BatchId) :
    World.Honest { w with system := (w.system.deliver b).2 } := by
  simp only [World.Honest, deliver_system]
  exact World.Honest.mapBarrier honest (by simp)

theorem World.Honest.closeBatch (honest : w.Honest) (b : BatchId) :
    World.Honest { w with system := (w.system.closeBatch b).1 } := by
  have ended : World.Honest { w with system := w.system.endBatch b } :=
    forall_batch (fun _ batch => ∀ failure, batch.barrier.pending = some failure →
      failure.IsCaptured) (honest.deliver b) id
  simp only [World.Honest, closeBatch_system]
  cases (w.system.batch b).kind with
  | single t => exact ended
  | multi => exact ended

theorem World.Honest.settle (honest : w.Honest) (b : BatchId) (job : JobId)
    (panicked : Option Payload) :
    World.Honest { w with system := (w.system.settle b job panicked).1 } := by
  simp only [World.Honest, settle_system]
  refine World.Honest.mapBarrier honest fun failure pending => ?_
  cases panicked with
  | none => exact honest b failure pending
  | some payload =>
      cases claimed : (w.system.batch b).barrier.claimed with
      | true =>
          simp only [Barrier.settle, Barrier.keepFirst, Barrier.claim, claimed] at pending
          exact honest b failure pending
      | false =>
          simp only [Barrier.settle, Barrier.keepFirst, Barrier.claim, claimed] at pending
          cases pending
          exact Failure.isCaptured_ofPayload payload

namespace Frame

theorem resumeSettle_honest (honest : w.Honest) (job : JobId) (b : BatchId) (signal : Signal) :
    (resumeSettle job b w signal).Honest := by
  refine ⟨honest.settle b job _, fun event member failure told => ?_⟩
  cases signal with
  | proceed | returned => cases member
  | raised payload =>
      obtain ⟨notice, inside, rfl⟩ := List.mem_map.mp member
      simp only [List.mem_cons] at inside
      rcases inside with rfl | inside
      · cases told
      · split at inside
        · cases inside
        · cases List.mem_singleton.mp inside
          cases told
          exact Failure.isCaptured_ofPayload payload

theorem closeBatch_told (honest : w.Honest) (b : BatchId) :
    ∀ event ∈ Event.ofNotices (w.system.closeBatch b).2, ∀ failure,
      event.failure? = some failure → failure.IsCaptured := by
  intro event member failure told
  obtain ⟨notice, inside, rfl⟩ := List.mem_map.mp member
  rw [closeBatch_notices, List.mem_cons] at inside
  rcases inside with rfl | released
  · unfold lastNotice at told
    split at told
    · cases told
    · next pending =>
        cases told
        exact honest b _ pending
  · cases kind : (w.system.batch b).kind with
    | multi =>
        rw [kind] at released
        cases released
    | single t =>
        rw [kind] at released
        cases List.mem_singleton.mp released
        cases told

theorem finishWaiting_honest (honest : w.Honest) (b : BatchId) (goal : Goal) :
    (finishWaiting b goal w).Honest := by
  cases goal with
  | close => exact ⟨honest.closeBatch b, closeBatch_told honest b⟩
  | wait | tryWait =>
      refine ⟨honest.deliver b, fun event member failure told => ?_⟩
      cases List.mem_singleton.mp member
      exact honest b failure (deliver_failure.symm.trans told)

theorem Resumed.honest {frame : Frame} {signal : Signal}
    (resumed : frame.Resumed ctx w signal turn) (honest : w.Honest) : turn.Honest := by
  cases resumed with
  | settles => exact resumeSettle_honest honest ..
  | waitEnds => exact finishWaiting_honest honest ..
  | performs => exact ((Op.perform_mild ..).above _).honest honest
  | notes _ same events =>
      refine Turn.Mild.honest ⟨fun _ => by rw [same.system], fun event member => ?_⟩ honest
      exact Event.failure?_script (events event member)
  | ends | unwinds => exact Turn.Mild.honest ⟨.refl w, by simp [Event.failure?]⟩ honest
  | contains =>
      refine Turn.Mild.honest ⟨?_, ?_⟩ honest <;> cases signal <;>
        simp [resumeContain, Turn.reply, Event.failure?, Notice.failure?, World.Agrees]
  | @sweeps _ batch _ _ _ _ runs =>
      have agrees : w.Agrees ((w.freed signal batch).lend (shares batch)) :=
        fun _ => by simp [World.lend]
      exact (((Source.runNext_mild runs).above _).trans agrees).honest honest
  | sweepEnds => exact honest.quiet (fun _ => by simp [Turn.reply]) rfl
  | helps _ _ runs | drains runs => exact ((Source.runNext_mild runs).above _).honest honest
  | @works p asleep _ _ runs =>
      have agrees := w.agrees_roused p asleep
      exact (((Source.runNext_mild runs).above _).trans agrees).honest honest
  | @retires p asleep =>
      exact honest.quiet ((w.agrees_roused p asleep).trans fun _ => rfl) rfl
  | closesPool =>
      refine Turn.Mild.honest (.logs (fun _ => rfl) rfl ?_) honest
      simp [closePool, Notice.failure?]
  | handsOver _ same events | passes _ same events =>
      exact honest.quiet (fun _ => by rw [same.system]) events
  | breaks _ system => exact honest.quiet (fun _ => by rw [system]) rfl
  | finishes | leaves | fallsAsleep | comesBack => exact honest.quiet (fun _ => rfl) rfl

end Frame

theorem Thread.step_honest (honest : w.Honest) {thread : Thread} {step : Step}
    (turned : thread.step w = some step) :
    step.world.Honest ∧
      ∀ event ∈ step.events, ∀ failure, event.failure? = some failure → failure.IsCaptured := by
  unfold Thread.step at turned
  split at turned
  · cases turned
  · simp only [Option.map_eq_some_iff] at turned
    obtain ⟨turn, resumed, rfl⟩ := turned
    have after := (Frame.resumed resumed).honest honest
    exact ⟨after.world, after.told⟩

end

namespace Machine

variable {m : Machine}

/-- Every failure that is pending or on record was captured. -/
structure Honest (m : Machine) : Prop where
  world : m.world.Honest
  told : ∀ event ∈ m.history, ∀ failure, event.failure? = some failure → failure.IsCaptured

theorem Honest.turned (honest : m.Honest) {thread : Thread} {step : Step}
    (turned : thread.step m.world = some step) {next : Machine} (world : next.world = step.world)
    (journal : next.journal = record thread.id step.events m.journal) : next.Honest := by
  obtain ⟨after, told⟩ := Thread.step_honest honest.world turned
  refine ⟨world ▸ after, fun event member => ?_⟩
  rw [history, journal, record_events] at member
  exact (List.mem_append.mp member).elim (honest.told event) (told event)

/-- Every failure was captured, in whatever order the threads take turns. -/
theorem Reached.honest (reached : m.Reached) : m.Honest := by
  induction reached with
  | load => exact ⟨nofun, nofun⟩
  | driver _ turned ih => exact ih.turned turned rfl rfl
  | other _ _ turned ih => exact ih.turned turned rfl rfl
  | rests _ _ ih => exact ⟨ih.world, ih.told⟩

end Machine

end TaskPool
