import TaskPool.Proofs.FrameTurns
import TaskPool.Proofs.OperationOpenings

/-!
# Every turn is one of the moves

A turn of a solo machine leaves the scene as it is, when only time passes, or makes one of the
moves; and what holds at the start and is kept by every move holds in every scene of a solo run.
-/

namespace TaskPool

open TaskPool.System

def Turn.scene (turn : Turn) (below : List Frame) (history : List Event) : Scene :=
  turn.world.scene (turn.push ++ below) turn.signal (history ++ turn.events)

/-- A turn makes one of the moves, and the shared pool is not asked for. -/
structure Turns (σ : Scene) (below : List Frame) (turn : Turn) : Prop where
  moves : σ.Moves (turn.scene below σ.history)
  common : turn.world.common = none

section

variable {ctx : Context} {w : World} {frame frame' : Frame} {below : List Frame} {signal : Signal}
  {history : List Event} {turn : Turn}

theorem Turns.quiet {σ : Scene} (quiet : turn.events = [])
    (moves : σ.Moves (turn.world.scene (turn.push ++ below) turn.signal σ.history))
    (common : turn.world.common = none) : Turns σ below turn where
  moves := by
    rw [Turn.scene, quiet, List.append_nil]
    exact moves
  common := common

theorem Turn.scene_of_matches (same : w.Matches turn.world) :
    turn.scene below history =
      w.scene (turn.push ++ below) turn.signal (history ++ turn.events) := by
  simp only [scene, World.scene, same.system, same.names, same.loans]

theorem Op.perform_turns {op : Op} {catchAll : Bool} (on : frame.Continues frame')
    (sound : (w.scene (frame :: below) signal history).Sound) (common : w.common = none)
    (batches : ctx.batches = Frame.batchNames (frame :: below))
    (alone : ((op.perform ctx w catchAll).above [frame']).spawn = []) :
    Turns (w.scene (frame :: below) signal history) below
      ((op.perform ctx w catchAll).above [frame']) := by
  unfold Op.perform at alone ⊢
  cases passed : Begun.ofOp ctx w op.uncaught.2 with
  | error reason =>
      simp only [passed]
      exact ⟨.advances rfl on (by simp [Turn.above, Turn.reply]), common⟩
  | ok begun =>
      simp only [passed] at alone ⊢
      have begins := (Begun.ofOp_accepted passed).begins sound common batches alone
      refine ⟨?_, begins.common⟩
      simp only [Turn.scene, Turn.above, List.append_assoc, World.lend, begins.loans]
      exact .opens rfl on begins.opens

theorem Frame.finishWaiting_eq {b : BatchId} {goal : Goal} (asked : goal ≠ .close) :
    finishWaiting b goal w =
      { world := { w with system := (w.system.deliver b).2 }
        events := [.delivered b (w.system.deliver b).1]
        signal := .returned
          (goal.answer (w.system.batch b).barrier.isClear (w.system.deliver b).1) } := by
  unfold finishWaiting
  cases goal with
  | close => exact absurd rfl asked
  | wait | tryWait =>
      dsimp only
      cases (w.system.deliver b).1 <;> rfl

theorem Frame.finishWaiting_turns {b : BatchId} {budget : Option Nat} {goal : Goal}
    (common : w.common = none)
    (finished : (w.scene (.waiting b budget goal :: below) signal history).WaitIsOver b budget) :
    Turns (w.scene (.waiting b budget goal :: below) signal history) below
      (finishWaiting b goal w) := by
  by_cases asked : goal = .close
  · subst asked
    exact ⟨.closesBatch rfl finished, common⟩
  · rw [finishWaiting_eq asked]
    exact ⟨.delivers rfl asked finished, common⟩

theorem World.freed_eq (batch : Option BatchId) (frames : List Frame) (history : List Event) :
    w.freed signal batch = { w with loans := (w.scene frames signal history).freed batch } := by
  cases signal <;> rfl

/-- Any frame of a solo run makes one of the moves in its turn. -/
theorem Frame.Resumed.turns (resumed : frame.Resumed ctx w signal turn)
    (sound : (w.scene (frame :: below) signal history).Sound) (common : w.common = none)
    (batches : ctx.batches = Frame.batchNames (frame :: below)) (alone : turn.spawn = []) :
    Turns (w.scene (frame :: below) signal history) below turn := by
  have here : frame.isElsewhere = false := sound.custody.stacked.1.here
  have calm : Calm (frame :: below) signal := sound.custody.calm
  cases resumed with
  | performs on batches' =>
      cases on with
      | here on => exact Op.perform_turns on sound common (batches'.trans batches) alone
      | strand => cases here
  | notes on same events push =>
      cases on with
      | here on =>
          refine ⟨?_, same.common.trans common⟩
          rw [Turn.scene_of_matches same, push]
          exact .advances rfl on events
      | strand => cases here
  | finishes => exact .quiet rfl (.finishes rfl) common
  | ends => exact ⟨.ends rfl, common⟩
  | unwinds => exact ⟨.unwinds rfl rfl, common⟩
  | handsOver last => rcases last with rfl | ⟨_, rfl⟩ <;> cases here
  | leaves outcome => exact .quiet rfl (.leaves rfl outcome) common
  | passes kind same events push _ outcome =>
      obtain ⟨reply, told⟩ := outcome
      refine ⟨?_, same.common.trans common⟩
      rw [Turn.scene_of_matches same, push, events, List.append_nil, told]
      refine .passes rfl ?_ rfl
      exact kind
  | settles => cases signal <;> exact ⟨.settles rfl, common⟩
  | contains => cases signal <;> exact ⟨.contains rfl, common⟩
  | @sweeps source batch count _ _ free runs =>
      rw [World.freed_eq batch (.sweep source batch count :: below) history] at free runs
      obtain ⟨task, s', taken, rfl⟩ := Source.runNext_eq_some runs sound.filed
      refine ⟨?_, common⟩
      simp only [Turn.scene, Turn.above, List.append_assoc]
      refine .sweeps rfl ?_ taken
      rintro b rfl
      simpa [World.isAwaited] using free
  | @sweepEnds source batch count =>
      rw [World.freed_eq batch (.sweep source batch count :: below) history]
      exact .quiet rfl (.sweepEnds rfl rfl) common
  | helps unclear left runs =>
      obtain ⟨task, s', taken, rfl⟩ := Source.runNext_eq_some runs sound.filed
      refine ⟨?_, common⟩
      simp only [Turn.scene, Turn.above, List.append_assoc]
      exact .helps rfl unclear left taken
  | waitEnds finished => exact finishWaiting_turns common finished
  | drains runs =>
      obtain ⟨task, s', taken, rfl⟩ := Source.runNext_eq_some runs sound.filed
      refine ⟨?_, common⟩
      simp only [Turn.scene, Turn.above, List.append_assoc]
      exact .drains rfl taken
  | closesPool empty => exact ⟨.closesPool rfl empty, common⟩
  | breaks asks => exact absurd asks (Bool.eq_false_iff.mp calm)
  | works | fallsAsleep | retires | comesBack => cases here

end

namespace Machine

/-- What holds of every machine of a solo run, besides what its scene shows. -/
structure Sound (m : Machine) : Prop where
  scene : m.scene.Sound
  common : m.world.common = none

/-- When the driver thread takes its turn, the machine makes a move. -/
theorem turn_moves {m : Machine} {step : Step} (sound : m.Sound)
    (turned : m.driver.step m.world = some step) (still : step.spawn = []) :
    m.scene.Moves
        (step.world.scene step.thread.frames step.thread.signal (m.history ++ step.events)) ∧
      step.world.common = none := by
  unfold Thread.step at turned
  split at turned
  · cases turned
  · next frame below stack =>
      simp only [Option.map_eq_some_iff] at turned
      obtain ⟨turn, taken, rfl⟩ := turned
      have here : m.scene = m.world.scene (frame :: below) m.driver.signal m.history := by
        rw [← stack]
        rfl
      have turns := (Frame.resumed taken).turns (here ▸ sound.scene) sound.common
        (congrArg Frame.batchNames stack) still
      rw [here]
      exact ⟨turns.moves, turns.common⟩

theorem step_moves {m next : Machine} (sound : m.Sound) (alone : m.others = [])
    (stepped : m.step = some next) (still : next.others = []) :
    (next.scene = m.scene ∨ m.scene.Moves next.scene) ∧ next.world.common = none := by
  unfold Machine.step at stepped
  split at stepped
  · cases stepped
  · split at stepped
    · next step turned =>
        cases stepped
        obtain ⟨moves, common⟩ := turn_moves sound turned (List.append_eq_nil_iff.mp still).2
        refine ⟨.inr ?_, common⟩
        simp only [scene, history, record_events]
        exact moves
    · simp only [alone, stepFirst, passTime, Option.map_eq_some_iff] at stepped
      obtain ⟨clock, _, rfl⟩ := stepped
      exact ⟨.inl rfl, sound.common⟩

theorem sound_load (bodies : Table (List Op)) (host : Host) (ops : List Op) :
    (Machine.load bodies host ops).Sound where
  scene :=
    { registry := .empty
      custody :=
        { stacked := ⟨.program, .cleanup, trivial⟩
          loans := rfl
          named := fun _ member => nomatch member
          exclusive := fun _ member => nomatch member
          closing := fun _ member => nomatch member
          once := List.nodup_nil
          calm := trivial }
      filed := fun _ => .mk (fun _ member => nomatch member) fun _ member => nomatch member }
  common := rfl

theorem Solo.sound {m : Machine} (solo : m.Solo) : m.Sound := by
  induction solo with
  | load bodies host ops => exact sound_load bodies host ops
  | turn run stepped still ih =>
      obtain ⟨same | moves, common⟩ := step_moves ih run.others stepped still
      · exact ⟨same ▸ ih.scene, common⟩
      · exact ⟨moves.sound ih.scene, common⟩

/-- A turn of a solo run leaves the scene as it is or makes one of the moves. -/
theorem Solo.moves {m next : Machine} (solo : m.Solo) (stepped : m.step = some next)
    (still : next.others = []) : next.scene = m.scene ∨ m.scene.Moves next.scene :=
  (step_moves solo.sound solo.others stepped still).1

theorem Solo.invariant {holds : Scene → Prop}
    (start : ∀ bodies host ops, holds (Machine.load bodies host ops).scene)
    (kept : ∀ {σ σ' : Scene}, σ.Sound → holds σ → σ.Moves σ' → holds σ')
    {m : Machine} (solo : m.Solo) : holds m.scene := by
  induction solo with
  | load bodies host ops => exact start bodies host ops
  | turn run stepped still ih =>
      rcases run.moves stepped still with same | moves
      · exact same ▸ ih
      · exact kept run.sound.scene ih moves

/-- A wait on a batch returns in this turn, and the run stays on one thread. -/
structure Returns (m next : Machine) (b : BatchId) (goal : Goal) (reply : Reply) : Prop where
  step : m.step = some next
  alone : next.others = []
  top : ∃ budget, m.driver.frames = .waiting b budget goal :: next.driver.frames
  signal : next.driver.signal = .returned reply

end Machine

namespace Scene

variable {σ σ' : Scene} {b : BatchId} {budget : Option Nat} {goal : Goal}

theorem Moves.wait_returns (moves : σ.Moves σ')
    (top : σ.frames = .waiting b budget goal :: σ'.frames) :
    σ.WaitIsOver b budget ∧
      ((goal ≠ .close ∧ σ'.system = (σ.system.deliver b).2 ∧
          σ'.signal = .returned
            (goal.answer (σ.system.batch b).barrier.isClear (σ.system.deliver b).1) ∧
          σ'.history = σ.history ++ [.delivered b (σ.system.deliver b).1]) ∨
        (goal = .close ∧ σ'.system = (σ.system.closeBatch b).1 ∧
          σ'.signal = .returned .nothing ∧
          σ'.history = σ.history ++ Event.ofNotices (σ.system.closeBatch b).2)) := by
  cases moves with
  | advances top' on | opens top' on =>
      rw [top'] at top
      rw [(List.cons.inj top).1] at on
      cases on
  | passes top' kind =>
      rw [top'] at top
      cases top
      simp [Frame.isPause] at kind
  | leaves top' | finishes top' | ends top' | unwinds top' | settles top' | contains top'
  | sweeps top' | sweepEnds top' | drains top' | closesPool top' =>
      rw [top'] at top
      cases top
  | helps top' =>
      rw [top'] at top
      have length := congrArg List.length top
      simp only [List.length_cons, List.length_append] at length
      omega
  | delivers top' asked finished =>
      rw [top'] at top
      cases top
      exact ⟨finished, .inl ⟨asked, rfl, rfl, rfl⟩⟩
  | closesBatch top' finished =>
      rw [top'] at top
      cases top
      exact ⟨finished, .inr ⟨rfl, rfl, rfl, rfl⟩⟩

end Scene

theorem Machine.Returns.moves {m next : Machine} {b : BatchId} {goal : Goal} {reply : Reply}
    (returns : m.Returns next b goal reply) (solo : m.Solo) : m.scene.Moves next.scene := by
  obtain ⟨budget, top⟩ := returns.top
  rcases solo.moves returns.step returns.alone with same | moves
  · have frames : next.driver.frames = m.driver.frames := congrArg Scene.frames same
    rw [frames] at top
    have length := congrArg List.length top
    simp at length
  · exact moves

end TaskPool
