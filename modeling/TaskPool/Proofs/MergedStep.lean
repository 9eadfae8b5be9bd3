import TaskPool.Proofs.Executing
import TaskPool.Proofs.MergedTurn

/-!
# A turn in the merged world

Every frame of a solo run takes its turn in the merged world as it does in the world itself. Only a
script that begins an operation needs to know that the operation uses the pools as it should; for
the other frames it is enough what the stack says of them: a sweep and a wait hold what they look
into, and a batch that closes has nothing left in its lane.
-/

namespace TaskPool

open TaskPool.System

namespace Merging

variable {μ : Merging} {w : World} {ctx : Context} {signal : Signal} {below : List Frame}
  {history : List Event}

/-! ## Scripts -/

theorem uncaught_asMulti (name : String) (op : Op) :
    (op.asMulti name).uncaught = (op.uncaught.1, op.uncaught.2.asMulti name) := by
  cases op with
  | catching op =>
      have inner := uncaught_asMulti name op
      simp only [Op.asMulti, Op.uncaught, inner]
  | _ => rfl

theorem perform_mapped (ctx : Context) (suits : μ.Suits w) (driver : ctx.thread = .driver)
    {op : Op} {catchAll : Bool} (plain : w.KindFree μ.home op.uncaught.2)
    (keeping : μ.Keeping (op.perform ctx w catchAll).world.system
      (op.perform ctx w catchAll).events) :
    (op.asMulti μ.name).perform ctx (μ.world w) catchAll = μ.turn (op.perform ctx w catchAll) := by
  have began := ofOp_mapped suits driver op.uncaught.2 plain fun begun is => by
    simp only [Op.perform, is] at keeping
    exact keeping
  simp only [Op.perform, uncaught_asMulti, began]
  cases Begun.ofOp ctx w op.uncaught.2 with
  | error => rfl
  | ok begun =>
      simp only [Except.map, Merging.begun, Merging.turn, Turn.above, List.map_append, lend_world]
      rfl

theorem resumeProgram_mapped (suits : μ.Suits w) (driver : ctx.thread = .driver) {rest : List Op}
    (plain : ∀ op later, signal = .proceed → rest = op :: later → w.KindFree μ.home op.uncaught.2)
    (keeping : μ.Keeping (Frame.resumeProgram ctx rest w signal).world.system
      (Frame.resumeProgram ctx rest w signal).events) :
    Frame.resumeProgram ctx (opsAsMulti μ.name rest) (μ.world w) signal =
      μ.turn (Frame.resumeProgram ctx rest w signal) := by
  cases signal with
  | proceed =>
      cases rest with
      | nil => rfl
      | cons op rest =>
          have performed := perform_mapped { ctx with topLevel := true } suits driver
            (plain op rest rfl rfl) keeping
          exact (congrArg (Turn.above _) performed).trans (above_mapped _ [.program rest]).symm
  | returned reply | raised payload =>
      simp only [Frame.resumeProgram, snapshot_world]
      rfl

theorem resumeBody_mapped (suits : μ.Suits w) (driver : ctx.thread = .driver) {job : JobId}
    {label : String} {next : Nat} {rest : List Op} {onBatch : Option String}
    (plain : ∀ op later, signal = .proceed → rest = op :: later → w.KindFree μ.home op.uncaught.2)
    (keeping : μ.Keeping (Frame.resumeBody ctx job label next rest onBatch w signal).world.system
      (Frame.resumeBody ctx job label next rest onBatch w signal).events) :
    Frame.resumeBody ctx job label next (opsAsMulti μ.name rest) onBatch (μ.world w) signal =
      μ.turn (Frame.resumeBody ctx job label next rest onBatch w signal) := by
  cases signal with
  | proceed =>
      cases rest with
      | nil => rfl
      | cons op rest =>
          have performed := perform_mapped ctx suits driver (plain op rest rfl rfl) keeping
          exact (congrArg (Turn.above _) performed).trans
            (above_mapped _ [.body job label next rest onBatch]).symm
  | returned | raised => rfl

theorem nextToDrop_mapped : Frame.nextToDrop (μ.world w) = Frame.nextToDrop w := by
  have same : ∀ {wanted : Object → Bool}, (∀ object, wanted (μ.object object) = wanted object) →
      (μ.world w).names.leastName? wanted = w.names.leastName? wanted :=
    fun same => Table.leastName?_map μ.object same w.names
  unfold Frame.nextToDrop
  rw [same, same, same]
  all_goals
    intro object
    cases object <;> rfl

theorem resumeCleanup_mapped (suits : μ.Suits w) (driver : ctx.thread = .driver)
    (keeping : ∀ turn, Frame.resumeCleanup ctx w = some turn →
      μ.Keeping turn.world.system turn.events) :
    Frame.resumeCleanup ctx (μ.world w) = (Frame.resumeCleanup ctx w).map μ.turn := by
  unfold Frame.resumeCleanup at keeping ⊢
  rw [nextToDrop_mapped]
  cases next : Frame.nextToDrop w with
  | none => rfl
  | some name =>
      have pool : ((w.names.find? name).map μ.object).any Object.isPool =
          (w.names.find? name).any Object.isPool := by
        cases w.names.find? name with
        | none => rfl
        | some object => cases object <;> rfl
      have busy : ((w.names.find? name).map μ.object).any (μ.world w).isBusy =
          (w.names.find? name).any w.isBusy := by
        cases found : w.names.find? name with
        | none => rfl
        | some object => exact suits.isBusy (suits.keeps found)
      simp only [next] at keeping
      simp only [find_names, pool, busy, show (μ.world w).hasClosedGate = w.hasClosedGate from rfl]
      split
      · rfl
      · next waits =>
          rw [if_neg waits] at keeping
          split
          · rfl
          · next free =>
              rw [if_neg free] at keeping
              have keeping := keeping _ rfl
              have dropped : ((Op.drop (.given name)).asMulti μ.name).perform ctx (μ.world w) true =
                  _ := perform_mapped ctx suits driver trivial keeping
              exact congrArg some ((congrArg (Turn.above _) dropped).trans
                (above_mapped _ [.cleanup]).symm)

/-! ## What a frame holds -/

theorem Suits.holds (suits : μ.Suits w) {loans : List Loan}
    (kept : ∀ loan ∈ loans, μ.Keeps loan.object) : μ.Suits { w with loans } :=
  { suits with loans := kept }

theorem kept_shares (batch : Option BatchId) : ∀ loan ∈ Frame.shares batch, μ.Keeps loan.object := by
  intro loan member
  obtain ⟨b, _, rfl⟩ := List.mem_map.mp member
  trivial

theorem shares_mapped (batch : Option BatchId) :
    (Frame.shares batch).map μ.loan = Frame.shares batch := by
  rw [Frame.shares, List.map_map]
  rfl

theorem leaveCall_mapped (onFailure : OnFailure) (caught : Bool) :
    Frame.leaveCall onFailure caught signal (μ.world w) =
      μ.turn (Frame.leaveCall onFailure caught signal w) := by
  cases signal with
  | proceed | raised => rfl
  | returned reply =>
      cases reply with
      | failed failure => cases onFailure <;> rfl
      | _ => rfl

/-! ## Loops that run jobs -/

theorem resumeSweep_mapped (suits : μ.Suits w) {source : Source} {batch : Option BatchId}
    {count : Nat} (handles : μ.Handles w.system source) :
    Frame.resumeSweep ctx (μ.source source) batch count (μ.world w) =
      μ.turn (Frame.resumeSweep ctx source batch count w) := by
  have awaited : batch.any (μ.world w).isAwaited = batch.any w.isAwaited := by
    cases batch with
    | none => rfl
    | some b => exact isAwaited_world b
  have shared : μ.Suits (w.lend (Frame.shares batch)) := by
    refine suits.holds fun loan member => ?_
    rcases List.mem_append.mp member with new | old
    · exact kept_shares batch loan new
    · exact suits.loans loan old
  have lent : (μ.world w).lend (Frame.shares batch) = μ.world (w.lend (Frame.shares batch)) := by
    rw [← lend_world, shares_mapped]
  have ran := runNext_mapped shared handles ctx
  unfold Frame.resumeSweep
  rw [awaited]
  split
  · rfl
  · split
    · simp only [Frame.shares] at lent ran
      rw [lent, ran]
      cases source.runNext ctx (w.lend (batch.toList.map (⟨.batch ·, .share⟩))) with
      | none => rfl
      | some turn => exact (above_mapped turn [.sweep source batch (count + 1)]).symm
    · rfl

theorem finishWaiting_mapped (suits : μ.Suits w) {b : BatchId} {goal : Goal}
    (empty : goal = .close → ∀ t, (w.system.batch b).kind = .single t →
      (w.system.poolOf b).queue (.lane t) = []) :
    Frame.finishWaiting b goal (μ.world w) = μ.turn (Frame.finishWaiting b goal w) := by
  have system : (μ.world w).system = μ.system w.system := rfl
  cases goal with
  | close =>
      have closed := closeBatch suits.covers suits.registry (empty rfl)
      simp only [Frame.finishWaiting, system, closed, ofNotices_mapped]
      rfl
  | wait | tryWait =>
      have delivered := deliver (μ := μ) (s := w.system) b
      simp only [Frame.finishWaiting, system, delivered, batch_system]
      cases (w.system.deliver b).1 <;> rfl

theorem resumeWaiting_mapped (suits : μ.Suits w) {b : BatchId} {budget : Option Nat} {goal : Goal}
    (opened : (w.system.batch b).stage ≠ .closed)
    (unlimited : goal = .close → budget = none)
    (empty : w.system.outstanding b = 0 → ∀ t, (w.system.batch b).kind = .single t →
      (w.system.poolOf b).queue (.lane t) = []) :
    Frame.resumeWaiting ctx b budget goal (μ.world w) =
      (Frame.resumeWaiting ctx b budget goal w).map μ.turn := by
  have system : (μ.world w).system = μ.system w.system := rfl
  have ran := runNext_mapped suits (suits.handles_batch opened) ctx
  unfold Frame.resumeWaiting
  simp only [system, batch_system, Merging.batch, sourceOf_system, ran]
  split
  · next finished =>
      refine congrArg some (finishWaiting_mapped suits fun closing => empty ?_)
      rcases finished with clear | spent
      · exact Barrier.isClear_iff.mp clear
      · rw [unlimited closing] at spent
        cases spent
  · cases (w.system.sourceOf b).runNext ctx w with
    | some turn =>
        exact congrArg some (above_mapped turn [.waiting b (budget.map (· - 1)) goal]).symm
    | none =>
        cases budget with
        | none => rfl
        | some left =>
            refine congrArg some (finishWaiting_mapped suits fun closing => ?_)
            cases unlimited closing

theorem resumeClosing_mapped (suits : μ.Suits w) {p : PoolId} {ran : Nat} :
    Frame.resumeClosing ctx p ran (μ.world w) = (Frame.resumeClosing ctx p ran w).map μ.turn := by
  have system : (μ.world w).system = μ.system w.system := rfl
  have handles : μ.Handles w.system (.pool p) := trivial
  have next := runNext_mapped suits handles ctx
  have working : ((μ.system w.system).pool p).working = (w.system.pool p).working := by
    rw [pool_system]
    rfl
  have closed := closePool (μ := μ) (s := w.system) p ran
  simp only [Merging.source] at next
  unfold Frame.resumeClosing
  simp only [system, working, next, closed, ofNotices_mapped]
  split
  · rfl
  · cases (Source.pool p).runNext ctx w with
    | none => rfl
    | some turn => exact congrArg some (above_mapped turn [.closing p ran]).symm

theorem sweep_mapped (suits : μ.Suits w) {source : Source} {batch : Option BatchId} {count : Nat}
    (handles : μ.Handles w.system source) :
    (Frame.sweep (μ.source source) batch count).resume ctx (μ.world w) signal =
      ((Frame.sweep source batch count).resume ctx w signal).map μ.turn := by
  have returned := suits.giveBack (kept_shares batch)
  rw [shares_mapped] at returned
  have free : μ.Suits (w.giveBack (Frame.shares batch)) := suits.holds fun loan member =>
    suits.loans loan (Scene.mem_of_mem_erased member)
  cases signal with
  | proceed => exact congrArg some (resumeSweep_mapped suits handles)
  | returned =>
      have went : Frame.resumeSweep ctx (μ.source source) batch count
          (μ.world (w.giveBack (Frame.shares batch))) = _ := resumeSweep_mapped free handles
      rw [← returned] at went
      exact congrArg some went
  | raised payload =>
      exact congrArg (fun world => some ({ world, signal := .raised payload } : Turn)) returned

/-! ## Ends of tasks, and threads that wait -/

theorem resumeSettle_mapped (job : JobId) (b : BatchId) :
    Frame.resumeSettle job b (μ.world w) signal = μ.turn (Frame.resumeSettle job b w signal) := by
  have settled := settle (μ := μ) (s := w.system) (b := b) job signal.panic?
  have system : (μ.world w).system = μ.system w.system := rfl
  cases signal <;>
    simp only [Signal.panic?, Frame.resumeSettle, system] at settled ⊢ <;>
    simp only [settled, ofNotices_mapped] <;> rfl

theorem resumeContain_mapped (job : JobId) (p : PoolId) :
    Frame.resumeContain job p (μ.world w) signal = μ.turn (Frame.resumeContain job p w signal) := by
  have name : ((μ.world w).system.pool p).name = (w.system.pool p).name := by
    rw [show (μ.world w).system = μ.system w.system from rfl, pool_system, name_pool]
  cases signal with
  | raised =>
      simp only [Frame.resumeContain, name]
      rfl
  | proceed | returned => rfl

theorem resumeAwait_mapped (condition : Condition) (deadline : Nat) :
    Frame.resumeAwait condition deadline (μ.world w) =
      (Frame.resumeAwait condition deadline w).map μ.turn := by
  have holds : Frame.holds (μ.world w) condition = Frame.holds w condition := by
    cases condition <;> rfl
  simp only [Frame.resumeAwait, holds, show (μ.world w).clock = w.clock from rfl]
  split
  · rfl
  · split <;> rfl

theorem resumeJoining_mapped (threads : List ThreadId) :
    Frame.resumeJoining threads (μ.world w) = (Frame.resumeJoining threads w).map μ.turn := by
  have collected : Frame.collect (μ.world w) threads = Frame.collect w threads := rfl
  simp only [Frame.resumeJoining, collected, Option.map_map]
  rfl

/-! ## Any frame -/

/-- The lane of a batch is empty when nothing of the batch is outstanding. -/
theorem empty_of_clear {σ : Scene} (filed : Filed σ.system σ.history) (balanced : σ.Balanced)
    {b : BatchId} (clear : σ.system.outstanding b = 0) {t : TokenId}
    (owns : (σ.system.batch b).kind = .single t) : (σ.system.poolOf b).queue (.lane t) = [] := by
  rw [List.eq_nil_iff_forall_not_mem]
  intro job member
  have wrapped := ((filed _).of_queue member).own b t rfl owns
  exact Nat.ne_of_gt (balanced.awaits (Pool.mem_contents_of_queue member) wrapped) clear

theorem resume_mapped (ctx : Context) (suits : μ.Suits w) (driver : ctx.thread = .driver)
    {frame : Frame}
    (sound : (w.scene (frame :: below) signal history).Sound)
    (balanced : (w.scene (frame :: below) signal history).Balanced)
    (plain : ∀ op frame', signal = .proceed → frame.Performs op frame' →
      w.KindFree μ.home op.uncaught.2)
    (keeping : ∀ turn, frame.resume ctx w signal = some turn →
      μ.Keeping turn.world.system turn.events) :
    (μ.frame frame).resume ctx (μ.world w) signal = (frame.resume ctx w signal).map μ.turn := by
  have fits : frame.Fits w.system below := sound.custody.stacked.1
  have held : ∀ {loans onFailure caught}, .call loans onFailure caught ∈ frame :: below →
      ∀ loan ∈ loans, w.system.Nameable loan.object := fun member loan inside =>
    (Scene.held_nameable sound.registry sound.custody member loan inside).2
  cases frame with
  | program rest =>
      refine congrArg some (resumeProgram_mapped suits driver ?_ (keeping _ rfl))
      rintro op later proceed rfl
      exact plain op _ proceed .program
  | body job label next rest onBatch =>
      refine congrArg some (resumeBody_mapped suits driver ?_ (keeping _ rfl))
      rintro op later proceed rfl
      exact plain op _ proceed .body
  | cleanup => exact resumeCleanup_mapped suits driver keeping
  | strand | handOver | worker | reclaim =>
      cases fits with
      | pause kind => simp [Frame.isPause] at kind
  | call loans onFailure caught =>
      have kept : ∀ loan ∈ loans, μ.Keeps loan.object := fun loan member =>
        suits.keeps_nameable (held List.mem_cons_self loan member)
      simp only [Merging.frame, Frame.resume, suits.giveBack kept, leaveCall_mapped, Option.map_some]
  | settle job b => exact congrArg some (resumeSettle_mapped job b)
  | contain job p => exact congrArg some (resumeContain_mapped job p)
  | executed => cases signal <;> rfl
  | sweep source batch count =>
      have handles : μ.Handles w.system source := by
        cases fits with
        | pause kind => simp [Frame.isPause] at kind
        | sweep =>
            exact suits.handles_target (held (List.mem_cons_of_mem _ List.mem_cons_self))
      exact sweep_mapped suits handles
  | waiting b budget goal =>
      have opened : (w.system.batch b).stage ≠ .closed :=
        (sound.barred List.mem_cons_self).not_closed sound
      have unlimited : goal = .close → budget = none := by
        rintro rfl
        cases fits with
        | pause kind => simp [Frame.isPause] at kind
        | close => rfl
      have waits : Frame.resumeWaiting ctx b budget goal (μ.world w) = _ :=
        resumeWaiting_mapped suits opened unlimited
          fun clear _ owns => empty_of_clear sound.filed balanced clear owns
      cases signal with
      | proceed | returned => exact waits
      | raised => rfl
  | closing p ran =>
      cases signal with
      | proceed | returned => exact resumeClosing_mapped suits
      | raised => rfl
  | await condition deadline => exact resumeAwait_mapped condition deadline
  | nap deadline =>
      simp only [Merging.frame, Frame.resume, show (μ.world w).clock = w.clock from rfl]
      split <;> rfl
  | joining threads => exact resumeJoining_mapped threads

/-! ## The machine -/

def step (μ : Merging) (step : Step) : Step where
  world := μ.world step.world
  thread := μ.thread step.thread
  events := step.events.filterMap μ.event
  spawn := step.spawn.map μ.thread

theorem batchNames_mapped (frames : List Frame) :
    Frame.batchNames (frames.map μ.frame) = Frame.batchNames frames := by
  rw [Frame.batchNames, Frame.batchNames, List.filterMap_map]
  congr 1
  funext frame
  cases frame <;> rfl

theorem wakesAt?_mapped (thread : Thread) : (μ.thread thread).wakesAt? = thread.wakesAt? := by
  obtain ⟨id, frames, signal⟩ := thread
  cases frames with
  | nil => rfl
  | cons frame below => cases frame <;> rfl

/-- What the journal says of the merged machine. -/
def journal (μ : Merging) (records : List Record) : List Record :=
  records.filterMap fun record => (μ.event record.event).map (⟨record.thread, ·⟩)

theorem record_mapped (thread : ThreadId) (events : List Event) (records : List Record) :
    Machine.record thread (events.filterMap μ.event) (μ.journal records) =
      μ.journal (Machine.record thread events records) := by
  induction events generalizing records with
  | nil => rfl
  | cons event rest ih =>
      have later := ih (⟨thread, event⟩ :: records)
      simp only [Machine.record, journal, List.filterMap_cons, List.foldl_cons] at later ⊢
      cases seen : μ.event event <;> simp only [seen, Option.map_none, Option.map_some] at later ⊢ <;>
        exact later

theorem thread_mapped {m : Machine} (suits : μ.Suits m.world) (solo : m.Solo)
    (plain : ∀ op base, m.Begins op base → m.world.KindFree μ.home op.uncaught.2)
    (keeping : ∀ step, m.driver.step m.world = some step →
      μ.Keeping step.world.system step.events) :
    (μ.thread m.driver).step (μ.world m.world) = (m.driver.step m.world).map μ.step := by
  have scene : m.scene =
      m.world.scene m.driver.frames m.driver.signal m.history := rfl
  have sound := solo.sound.scene
  have balanced := solo.balanced
  rw [scene] at sound balanced
  unfold Thread.step at keeping ⊢
  simp only [Merging.thread]
  cases top : m.driver.frames with
  | nil => rfl
  | cons frame below =>
      rw [top] at sound balanced
      simp only [top] at keeping
      rw [batchNames_mapped, List.map_cons]
      have resumed := resume_mapped
        { thread := m.driver.id, batches := Frame.batchNames (frame :: below) }
        suits solo.driver sound balanced
        (fun op frame' proceed performs =>
          plain op _ ⟨proceed, frame, frame', below, top, performs, rfl⟩)
        fun turn taken => by
          rw [taken] at keeping
          exact keeping _ rfl
      simp only [resumed, Option.map_map]
      congr 1
      funext turn
      simp only [Function.comp_apply, Merging.step, Merging.turn, Merging.thread, List.map_append]

theorem passTime_mapped (m : Machine) : (μ.machine m).passTime = m.passTime.map μ.machine := by
  have instants : ((μ.machine m).driver :: (μ.machine m).others).filterMap Thread.wakesAt? =
      (m.driver :: m.others).filterMap Thread.wakesAt? := by
    simp only [Merging.machine, ← List.map_cons, List.filterMap_map]
    congr 1
    funext thread
    exact wakesAt?_mapped thread
  simp only [Machine.passTime, instants, Option.map_map]
  rfl

/-- The merged machine takes the same turn. -/
theorem step_mapped {m : Machine} (suits : μ.Suits m.world) (solo : m.Solo)
    (plain : ∀ op base, m.Begins op base → m.world.KindFree μ.home op.uncaught.2)
    (keeping : ∀ next, m.step = some next → μ.Keeping next.world.system next.history) :
    (μ.machine m).step = m.step.map μ.machine := by
  have finished : (μ.machine m).driver.frames.isEmpty = m.driver.frames.isEmpty :=
    List.isEmpty_map
  unfold Machine.step at keeping ⊢
  rw [finished]
  split
  · rfl
  · next going =>
      rw [if_neg going] at keeping
      have turned := thread_mapped suits solo plain fun step taken => by
        rw [taken] at keeping
        have keeping := keeping _ rfl
        refine { keeping with wrapped := fun job q inlet home member => ?_ }
        refine keeping.wrapped job q inlet home ?_
        rw [Machine.history, Machine.record_events]
        exact List.mem_append_right _ member
      rw [show (μ.machine m).driver = μ.thread m.driver from rfl,
        show (μ.machine m).world = μ.world m.world from rfl, turned]
      cases m.driver.step m.world with
      | some step =>
          simp only [Option.map_some, Merging.machine, Merging.step, List.map_append]
          exact congrArg some (congrArg (Machine.mk _ _ _) (record_mapped _ _ _))
      | none =>
          have others : (μ.machine m).others = [] := congrArg (List.map μ.thread) solo.others
          simp only [Option.map_none, solo.others, others, Machine.stepFirst]
          exact passTime_mapped m

end Merging

end TaskPool
