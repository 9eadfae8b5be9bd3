import Mathlib.Data.List.Flatten
import TaskPool.Proofs.ObjectOrder
import TaskPool.Proofs.TurnMoves

/-!
# Every turn amends the objects in one of the listed ways

Here every frame and every operation is found among the cases of `World.Amends`. A turn that is calm
leaves all objects alone and puts only frames on stacks that speak for no batch; nearly every turn
is calm. So the objects are in order in every machine that is reached, whichever threads there are.
-/

namespace TaskPool

open TaskPool.System

/-- The frames that a turn puts on stacks, on its own and on those of new threads. -/
def Turn.frames (turn : Turn) : List Frame := turn.push ++ turn.spawn.flatMap (·.frames)

/-- The worlds have the same objects under the same names. -/
structure World.Remains (w w' : World) : Prop where
  system : w.system.Remains w'.system
  names : w'.names = w.names
  common : w'.common = w.common

/-- The turn leaves the objects of the world alone. -/
structure Turn.Calm (w : World) (turn : Turn) : Prop where
  remains : w.Remains turn.world
  plain : Plain turn.frames

section

variable {w w' w'' : World} {ctx : Context} {turn : Turn} {frame : Frame} {begun : Begun}
  {frames new new' : List Frame}

theorem World.Remains.refl (w : World) : w.Remains w := ⟨.refl _, rfl, rfl⟩

theorem World.Remains.trans (first : w.Remains w') (second : w'.Remains w'') : w.Remains w'' where
  system := first.system.trans second.system
  names := second.names.trans first.names
  common := second.common.trans first.common

theorem World.Remains.of_eq (system : w'.system = w.system) (names : w'.names = w.names)
    (common : w'.common = w.common) : w.Remains w' :=
  ⟨system ▸ .refl _, names, common⟩

theorem World.Matches.remains (same : w.Matches w') : w.Remains w' :=
  .of_eq same.system same.names same.common

theorem plain_of_forall
    (each : ∀ frame ∈ frames, frame.reclaims? = none ∧ frame.closing? = none) : Plain frames :=
  ⟨List.filterMap_eq_nil_iff.mpr fun frame member => (each frame member).1,
    List.filterMap_eq_nil_iff.mpr fun frame member => (each frame member).2⟩

theorem plain_crew (p : PoolId) (workers : List Nat) :
    Plain ((p.crew workers).flatMap (·.frames)) := by
  refine plain_of_forall fun frame member => ?_
  obtain ⟨thread, started, inside⟩ := List.mem_flatMap.mp member
  obtain ⟨index, _, rfl⟩ := List.mem_map.mp started
  rw [List.mem_singleton.mp inside]
  exact ⟨rfl, rfl⟩

theorem plain_strands (w : World) (scripts : List (List Op)) :
    Plain ((w.strands scripts).flatMap (·.frames)) := by
  refine plain_of_forall fun frame member => ?_
  obtain ⟨thread, started, inside⟩ := List.mem_flatMap.mp member
  obtain ⟨i, _, rfl⟩ := List.mem_mapIdx.mp started
  rw [List.mem_singleton.mp inside]
  exact ⟨rfl, rfl⟩

theorem closings_above (turn : Turn) (frames : List Frame) :
    (closings (turn.above frames).frames).Perm (closings frames ++ closings turn.frames) := by
  simp only [Turn.frames, Turn.above, closings_append, List.append_assoc]
  exact List.perm_append_comm_assoc ..

theorem reclaims_above (turn : Turn) (frames : List Frame) :
    (reclaims (turn.above frames).frames).Perm (reclaims frames ++ reclaims turn.frames) := by
  simp only [Turn.frames, Turn.above, reclaims_append, List.append_assoc]
  exact List.perm_append_comm_assoc ..

/-! ## Calm turns -/

namespace Turn.Calm

theorem above (calm : turn.Calm w) (plain : Plain frames) : (turn.above frames).Calm w where
  remains := calm.remains
  plain := by
    have reclaims := reclaims_above turn frames
    have closings := closings_above turn frames
    rw [plain.1, calm.plain.1] at reclaims
    rw [plain.2, calm.plain.2] at closings
    exact ⟨reclaims.eq_nil, closings.eq_nil⟩

theorem after (calm : turn.Calm w) (events : List Event) : (turn.after events).Calm w :=
  ⟨calm.remains, calm.plain⟩

theorem trans (calm : turn.Calm w') (remains : w.Remains w') : turn.Calm w :=
  ⟨remains.trans calm.remains, calm.plain⟩

theorem amends (calm : turn.Calm w) (other : frame.reclaims? = none) :
    w.Amends frame turn.world turn.frames := by
  refine .keeps calm.remains.system calm.remains.names calm.remains.common calm.plain.1 ?_ other
  rw [calm.plain.2]
  exact List.nil_subset _

theorem amends_above (calm : turn.Calm w) {stays : Frame} (silent : stays.reclaims? = none)
    (same : stays.closing? = frame.closing?) (other : frame.reclaims? = none) :
    w.Amends frame (turn.above [stays]).world (turn.above [stays]).frames := by
  refine .keeps calm.remains.system calm.remains.names calm.remains.common ?_ ?_ other
  · have none := reclaims_above turn [stays]
    rw [calm.plain.1, List.append_nil, reclaims_cons, silent] at none
    exact none.eq_nil
  · intro object member
    have inside := (closings_above turn [stays]).subset member
    rwa [calm.plain.2, List.append_nil, closings_cons, same, ← closings_cons] at inside

end Turn.Calm

theorem Turn.reply_calm (remains : w.Remains w') (reply : Reply) : (Turn.reply w' reply).Calm w :=
  ⟨remains, plain_nil⟩

theorem Turn.block_calm (ctx : Context) (w : World) (gate : String) :
    (Turn.block ctx w gate).Calm w := by
  unfold Turn.block
  split
  · exact ⟨⟨.refl _, rfl, rfl⟩, plain_nil⟩
  · exact ⟨⟨.refl _, rfl, rfl⟩, rfl, rfl⟩

theorem Job.launch_calm (ctx : Context) (job : Job Work) (w : World) :
    (job.launch ctx w).Calm w := by
  obtain ⟨id, batch, work⟩ := job
  have reports : Plain (batch.toList.map (Frame.settle id)) := by
    cases batch <;> exact ⟨rfl, rfl⟩
  refine Turn.Calm.above ?_ reports
  cases work with
  | body label ops onBatch => exact ⟨.refl _, rfl, rfl⟩
  | park gate => exact Turn.block_calm ctx w gate

theorem Source.runNext_calm {source : Source} (runs : source.runNext ctx w = some turn) :
    turn.Calm w := by
  simp only [Source.runNext, Option.map_eq_some_iff] at runs
  obtain ⟨⟨job, system⟩, taken, rfl⟩ := runs
  have launched := (Job.launch_calm ctx job { w with system }).above
    (show Plain [.contain job.id source.receiver] from ⟨rfl, rfl⟩)
  exact launched.trans ⟨.take taken, rfl, rfl⟩

/-! ## Operations -/

theorem Work.submitted_calm (entry : Entry) (label : String) (ops : List Op)
    (onBatch : Option String) : (Work.submitted ctx entry (.body label ops onBatch) w).Calm w := by
  have remains : w.Remains
      { w with system := (w.system.submit entry (.body label ops onBatch)).system } :=
    ⟨.submit entry _ (.inl ⟨_, _, _, rfl⟩), rfl, rfl⟩
  refine Turn.Calm.after ?_ _
  split
  · exact (Job.launch_calm ..).trans remains
  · exact Turn.reply_calm remains _

theorem Source.executed_calm (source : Source) : (source.executed ctx w).Calm w := by
  unfold Source.executed
  split
  · next runs => exact (Source.runNext_calm runs).above ⟨rfl, rfl⟩
  · exact Turn.reply_calm (.refl w) _

theorem System.remains_park {s : System Work} {p : PoolId} {gate : String} {jobs : Nat}
    (few : jobs ≤ (s.pool p).workers) : s.Remains (s.park p gate jobs).1 := by
  refine System.park_keeps (fun system _ => s.Remains system) (.refl s) ?_
  intro system _ some remains
  refine remains.trans (.submit _ _ (.inr ⟨rfl, ?_⟩))
  rw [show (system.inletOf (.pool p true)).1 = p from rfl, remains.workers]
  exact Nat.lt_of_lt_of_le some few

variable {rest : List Frame}

theorem known_of_resolvePool (ledger : Ledger w rest) {thread : ThreadId} {name : String}
    {p : PoolId} (found : w.resolvePool thread name = .ok p) : p.index < w.system.pools.length := by
  simp only [World.resolvePool, bind_eq_ok] at found
  obtain ⟨object, resolved, kind⟩ := found
  have listed := ledger.listed (World.find_of_resolve resolved)
  cases object with
  | pool q | commonPool q =>
      cases kind
      exact listed
  | token | batch => cases kind

/-- Whatever operation passes its checks, it amends the objects in one of the listed ways. -/
theorem Begun.Accepted.amends (accepted : Begun.Accepted ctx w begun) (ledger : Ledger w rest)
    (other : frame.reclaims? = none) : w.Amends frame begun.world begun.frames := by
  have calm : begun.toTurn.Calm w → w.Amends frame begun.world begun.frames :=
    fun calm => calm.amends other
  cases accepted with
  | rests same events push spawn =>
      refine calm ⟨same.remains, ?_⟩
      rw [Turn.frames, push, spawn]
      exact plain_nil
  | @pauses _ pause same events push kind _ spawn =>
      refine calm ⟨same.remains, ?_⟩
      rw [Turn.frames, push, spawn]
      cases pause <;> first | exact ⟨rfl, rfl⟩ | cases kind
  | startsPool unknown => exact .startsPool unknown rfl rfl rfl (plain_crew ..)
  | sharesPool unknown known => exact .sharesPool unknown known rfl rfl rfl plain_nil
  | startsShared unknown => exact .startsShared unknown rfl rfl rfl (plain_crew ..)
  | issuesToken unknown found =>
      exact .issuesToken unknown (known_of_resolvePool ledger found) rfl rfl rfl plain_nil
  | makesBatch unknown found =>
      exact .makesBatch unknown (known_of_resolvePool ledger found) rfl rfl rfl plain_nil
  | dropsPool named idle =>
      exact .dropsPool named rfl idle
        (.modifyPool rfl rfl fun tasked => ⟨tasked.shared, tasked.lanes⟩) rfl rfl rfl
        (fun b member => by simp [Turn.frames, closings, Frame.closing?] at member)
  | forgetsPool named =>
      exact .dropsPool named rfl rfl (.refl _) rfl rfl rfl fun _ => List.not_mem_nil
  | dropsToken named idle => exact .dropsToken named idle rfl rfl rfl plain_nil
  | dropsBatch named _ idle => exact .dropsBatch named idle rfl rfl rfl rfl rfl
  | movesAway named idle => exact .movesAway named idle rfl rfl rfl rfl rfl
  | submits => exact calm (Work.submitted_calm ..)
  | executes => exact calm (Source.executed_calm _)
  | holds found few => exact calm ⟨⟨System.remains_park few, rfl, rfl⟩, rfl, rfl⟩
  | joins => exact calm ⟨⟨.refl _, rfl, rfl⟩, plain_strands ..⟩
  | sweeps | waits | triesToWait => exact calm ⟨.refl _, rfl, rfl⟩

/-! ## Frames -/

/-- What an operation does to the objects does not depend on what stays below it. -/
theorem World.Amends.congr (amends : w.Amends frame w' new) (system : w''.system = w'.system)
    (names : w''.names = w'.names) (common : w''.common = w'.common)
    (same : reclaims new' = reclaims new) (closes : closings new' = closings new) :
    w.Amends frame w'' new' := by
  cases amends with
  | keeps system' names' common' plain closes' other =>
      exact .keeps (system ▸ system') (names.trans names') (common.trans common')
        (same.trans plain) (closes ▸ closes') other
  | startsPool unknown system' names' common' plain =>
      exact .startsPool unknown (system.trans system') (names.trans names') (common.trans common')
        ⟨same.trans plain.1, closes.trans plain.2⟩
  | sharesPool unknown known system' names' common' plain =>
      exact .sharesPool unknown known (system.trans system') (names.trans names')
        (common.trans common') ⟨same.trans plain.1, closes.trans plain.2⟩
  | startsShared unknown system' names' common' plain =>
      exact .startsShared unknown (system.trans system') (names.trans names')
        (common.trans common') ⟨same.trans plain.1, closes.trans plain.2⟩
  | issuesToken unknown known system' names' common' plain =>
      exact .issuesToken unknown known (system.trans system') (names.trans names')
        (common.trans common') ⟨same.trans plain.1, closes.trans plain.2⟩
  | makesBatch unknown known system' names' common' plain =>
      exact .makesBatch unknown known (system.trans system') (names.trans names')
        (common.trans common') ⟨same.trans plain.1, closes.trans plain.2⟩
  | dropsPool named pool free system' names' common' plain closes' =>
      exact .dropsPool named pool free (system ▸ system') (names.trans names')
        (common.trans common') (same.trans plain) (closes ▸ closes')
  | dropsToken named free system' names' common' plain =>
      exact .dropsToken named free (system.trans system') (names.trans names')
        (common.trans common') ⟨same.trans plain.1, closes.trans plain.2⟩
  | dropsBatch named free system' names' common' plain closes' =>
      exact .dropsBatch named free (system.trans system') (names.trans names')
        (common.trans common') (same.trans plain) (closes.trans closes')
  | movesAway named free system' names' common' waits closes' =>
      exact .movesAway named free (system.trans system') (names.trans names')
        (common.trans common') (same.trans waits) (closes.trans closes')
  | comesBack top system' names' common' plain =>
      exact .comesBack top (system.trans system') (names.trans names') (common.trans common')
        ⟨same.trans plain.1, closes.trans plain.2⟩
  | closesBatch top system' names' common' plain =>
      exact .closesBatch top (system.trans system') (names.trans names') (common.trans common')
        ⟨same.trans plain.1, closes.trans plain.2⟩

theorem Turn.amends_above (amends : w.Amends frame turn.world turn.frames) {stays : List Frame}
    (plain : Plain stays) : w.Amends frame (turn.above stays).world (turn.above stays).frames := by
  refine amends.congr rfl rfl rfl ?_ ?_
  · simp [Turn.frames, Turn.above, plain.1]
  · simp [Turn.frames, Turn.above, plain.2]

variable {rest : List Frame}

theorem Op.perform_amends (ledger : Ledger w rest) (other : frame.reclaims? = none) (op : Op)
    (catchAll : Bool) {stays : Frame} (plain : Plain [stays]) :
    let turn := (op.perform ctx w catchAll).above [stays]
    w.Amends frame turn.world turn.frames := by
  intro turn
  refine Turn.amends_above ?_ plain
  simp only [Op.perform]
  cases begins : Begun.ofOp ctx w op.uncaught.2 with
  | error reason => exact (Turn.reply_calm (.refl w) _).amends other
  | ok begun =>
      have called := Turn.amends_above ((Begun.ofOp_accepted begins).amends ledger other)
        (show Plain [.call begun.loans begun.onFailure (op.uncaught.1 || catchAll)] from
          ⟨rfl, rfl⟩)
      exact called.congr rfl rfl rfl rfl rfl

namespace Frame

theorem finishWaiting_amends (b : BatchId) (budget : Option Nat) (goal : Goal) (w : World) :
    let turn := finishWaiting b goal w
    w.Amends (.waiting b budget goal) turn.world turn.frames := by
  cases goal with
  | close => exact .closesBatch rfl rfl rfl rfl plain_nil
  | wait | tryWait =>
      exact Turn.Calm.amends ⟨⟨.deliver w.system b, rfl, rfl⟩, plain_nil⟩ rfl

theorem remains_modifyPool {s : System Work} {p : PoolId} {f : Pool Work → Pool Work}
    (lanes : (f (s.pool p)).lanes = (s.pool p).lanes)
    (workers : (f (s.pool p)).workers = (s.pool p).workers)
    (shared : (f (s.pool p)).shared = (s.pool p).shared) : s.Remains (s.modifyPool p f) := by
  refine .modifyPool (by rw [lanes]) workers fun tasked => ⟨?_, ?_⟩
  · rw [shared, workers]
    exact tasked.shared
  · rw [lanes, workers]
    exact tasked.lanes

theorem remains_roused (w : World) (p : PoolId) (asleep : Bool) :
    w.Remains (w.roused p asleep) := by
  unfold World.roused
  split
  · exact ⟨remains_modifyPool rfl rfl rfl, rfl, rfl⟩
  · exact .refl w

theorem Proceeds.plain {frame' : Frame} (on : frame.Proceeds frame') :
    frame.reclaims? = none ∧ Plain [frame'] := by
  cases on with
  | here on => cases on <;> exact ⟨rfl, rfl, rfl⟩
  | strand => exact ⟨rfl, rfl, rfl⟩

/-- Whatever frame takes its turn, the objects are amended in one of the listed ways. -/
theorem Resumed.amends {signal : Signal} (resumed : frame.Resumed ctx w signal turn)
    (ledger : Ledger w (frame :: rest)) : w.Amends frame turn.world turn.frames := by
  cases resumed with
  | performs on => exact Op.perform_amends ledger on.plain.1 _ _ on.plain.2
  | notes on same _ push spawn =>
      refine Turn.Calm.amends ⟨same.remains, ?_⟩ on.plain.1
      rw [Turn.frames, push, spawn]
      exact on.plain.2
  | finishes | ends | unwinds => exact Turn.Calm.amends ⟨.refl w, plain_nil⟩ rfl
  | leaves => exact Turn.Calm.amends ⟨⟨.refl _, rfl, rfl⟩, plain_nil⟩ rfl
  | handsOver last same _ push spawn =>
      refine Turn.Calm.amends ⟨same.remains, ?_⟩ ?_
      · rw [Turn.frames, push, spawn]
        exact plain_nil
      · rcases last with rfl | ⟨_, rfl⟩ <;> rfl
  | passes kind same _ push spawn =>
      refine Turn.Calm.amends ⟨same.remains, ?_⟩ ?_
      · rw [Turn.frames, push, spawn]
        exact plain_nil
      · rcases kind with pause | rfl | rfl
        · cases frame <;> first | rfl | cases pause
        · rfl
        · rfl
  | settles => exact Turn.Calm.amends ⟨⟨.settle w.system _ _ _, rfl, rfl⟩, plain_nil⟩ rfl
  | contains => cases signal <;> exact Turn.Calm.amends ⟨.refl w, plain_nil⟩ rfl
  | @sweeps _ batch _ _ _ _ runs =>
      have remains : w.Remains ((w.freed signal batch).lend (shares batch)) :=
        .of_eq (by simp [World.lend]) (by simp [World.lend]) (by simp [World.lend])
      exact (((Source.runNext_calm runs).above ⟨rfl, rfl⟩).trans remains).amends rfl
  | sweepEnds =>
      exact (Turn.reply_calm (.of_eq (by simp) (by simp) (by simp)) _).amends rfl
  | @helps _ _ goal _ _ _ _ runs =>
      refine (Source.runNext_calm runs).amends_above rfl ?_ rfl
      cases goal <;> rfl
  | waitEnds => exact finishWaiting_amends ..
  | drains runs => exact (Source.runNext_calm runs).amends_above rfl rfl rfl
  | closesPool =>
      exact Turn.Calm.amends
        ⟨⟨.modifyPool rfl rfl fun tasked => ⟨tasked.shared, tasked.lanes⟩, rfl, rfl⟩, plain_nil⟩ rfl
  | breaks asks system names common =>
      refine Turn.Calm.amends ⟨.of_eq system names common, plain_nil⟩ ?_
      cases frame <;> first | rfl | cases asks
  | @works p asleep _ _ runs =>
      have remains := remains_roused w p asleep
      exact (((Source.runNext_calm runs).above ⟨rfl, rfl⟩).trans remains).amends rfl
  | fallsAsleep => exact Turn.Calm.amends ⟨⟨remains_modifyPool rfl rfl rfl, rfl, rfl⟩, rfl, rfl⟩ rfl
  | @retires p asleep =>
      have remains := remains_roused w p asleep
      exact Turn.Calm.amends
        ⟨remains.trans ⟨remains_modifyPool rfl rfl rfl, rfl, rfl⟩, plain_nil⟩ rfl
  | comesBack => exact .comesBack rfl rfl rfl rfl plain_nil

end Frame

end

theorem Thread.step_amends {w : World} {thread : Thread} {rest : List Frame} {step : Step}
    (ledger : Ledger w (thread.frames ++ rest)) (turned : thread.step w = some step) :
    ∃ frame below push, thread.frames = frame :: below ∧ step.thread.frames = push ++ below ∧
      w.Amends frame step.world (push ++ step.spawn.flatMap (·.frames)) := by
  unfold Thread.step at turned
  cases stack : thread.frames with
  | nil => simp [stack] at turned
  | cons frame below =>
      simp only [stack, Option.map_eq_some_iff] at turned
      obtain ⟨turn, resumed, rfl⟩ := turned
      rw [stack] at ledger
      exact ⟨frame, below, turn.push, rfl, rfl, (Frame.resumed resumed).amends ledger⟩

theorem Thread.step_ledger {w : World} {thread : Thread} {rest : List Frame} {step : Step}
    (ledger : Ledger w (thread.frames ++ rest)) (turned : thread.step w = some step) :
    Ledger step.world (step.thread.frames ++ rest ++ step.spawn.flatMap (·.frames)) := by
  obtain ⟨frame, below, push, stack, stack', amends⟩ := Thread.step_amends ledger turned
  rw [stack] at ledger
  refine (amends.ledger ledger).perm ?_
  simp only [stack', List.append_assoc]
  exact (List.perm_append_comm.trans (by simp)).append_left _

theorem Thread.left_frames (thread : Thread) : thread.left.flatMap (·.frames) = thread.frames := by
  unfold Thread.left
  split
  · next done => simp [List.isEmpty_iff.mp done]
  · simp

namespace Machine

variable {m next : Machine} {thread : Thread} {step : Step}

theorem ledger_driver (ledger : Ledger m.world m.frames)
    (turned : m.driver.step m.world = some step) :
    Ledger step.world ((step.thread :: (m.others ++ step.spawn)).flatMap (·.frames)) := by
  refine (Thread.step_ledger ledger turned).perm ?_
  simp only [List.flatMap_cons, List.flatMap_append, List.append_assoc]
  exact .refl _

theorem frames_perm {before after : List Thread} (split : m.others = before ++ thread :: after) :
    m.frames.Perm (thread.frames ++
      (m.driver.frames ++ before.flatMap (·.frames) ++ after.flatMap (·.frames))) := by
  simp only [frames, threads, split, List.flatMap_cons, List.flatMap_append, ← List.append_assoc]
  refine List.Perm.append_right _ ?_
  rw [List.append_assoc thread.frames]
  exact List.perm_append_comm

theorem ledger_other {before after : List Thread} (ledger : Ledger m.world m.frames)
    (split : m.others = before ++ thread :: after) (turned : thread.step m.world = some step) :
    Ledger step.world ((m.driver :: (before ++ step.thread.left ++ after ++ step.spawn)).flatMap
      (·.frames)) := by
  refine (Thread.step_ledger (ledger.perm (frames_perm split)) turned).perm ?_
  simp only [List.flatMap_cons, List.flatMap_append, Thread.left_frames, ← List.append_assoc]
  refine List.Perm.append_right _ (List.Perm.append_right _ ?_)
  rw [List.append_assoc]
  exact List.perm_append_comm

/-- The objects are in order in every machine that is reached. -/
theorem Reached.ledger (reached : m.Reached) : Ledger m.world m.frames := by
  induction reached with
  | load bodies host ops => exact .load host bodies _ ⟨rfl, rfl⟩
  | driver reached turned ih => exact ledger_driver ih turned
  | other reached split turned ih =>
      have turned := ledger_other ih split turned
      exact turned
  | rests reached clock ih => exact ih.of_same rfl rfl rfl

theorem Arranged.ledger (arranged : m.Arranged) : Ledger m.world m.frames := by
  obtain ⟨m', reached, world, _, some, perm, sub⟩ := arranged
  rw [world]
  exact (reached.ledger.sublist (sub.flatMap _)).perm (perm.symm.flatMap_right _)

theorem ledger_step (ledger : Ledger m.world m.frames) (stepped : m.step = some next) :
    Ledger next.world next.frames := by
  unfold Machine.step at stepped
  split at stepped
  · cases stepped
  · split at stepped
    · next step turned =>
        cases stepped
        exact ledger_driver ledger turned
    · split at stepped
      · next first =>
          cases stepped
          obtain ⟨before, thread, after, step, split, turned, rfl, rfl, rfl, rfl⟩ :=
            stepFirst_split first
          have turned := ledger_other ledger split turned
          exact turned
      · simp only [passTime, Option.map_eq_some_iff] at stepped
        obtain ⟨clock, _, rfl⟩ := stepped
        exact ledger.of_same rfl rfl rfl

theorem step_amends (ledger : Ledger m.world m.frames) (stepped : m.step = some next) :
    ∃ frame new, m.world.Amends frame next.world new := by
  unfold Machine.step at stepped
  split at stepped
  · cases stepped
  · split at stepped
    · next step turned =>
        cases stepped
        obtain ⟨frame, _, _, _, _, amends⟩ := Thread.step_amends ledger turned
        exact ⟨frame, _, amends⟩
    · split at stepped
      · next first =>
          cases stepped
          obtain ⟨before, thread, after, step, split, turned, rfl, rfl, rfl, rfl⟩ :=
            stepFirst_split first
          obtain ⟨frame, _, _, _, _, amends⟩ :=
            Thread.step_amends (ledger.perm (frames_perm split)) turned
          exact ⟨frame, _, amends⟩
      · simp only [passTime, Option.map_eq_some_iff] at stepped
        obtain ⟨clock, _, rfl⟩ := stepped
        exact ⟨.cleanup, [], .keeps (.refl _) rfl rfl rfl (List.nil_subset _) rfl⟩

theorem ledger_run (ledger : Ledger m.world m.frames) (turns : Nat) :
    Ledger (m.run turns).world (m.run turns).frames := by
  induction turns generalizing m with
  | zero => exact ledger
  | succ turns ih =>
      cases stepped : m.step with
      | some next =>
          rw [run_of_step stepped]
          exact ih (ledger_step ledger stepped)
      | none =>
          rw [run_stuck stepped]
          exact ledger

end Machine

end TaskPool
