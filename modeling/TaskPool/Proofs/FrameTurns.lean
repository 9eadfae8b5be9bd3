import TaskPool.Proofs.AcceptedOperations
import TaskPool.Proofs.Stack

/-!
# Frames that take their turn

`Frame.Resumed` lists what a frame can do in its turn, on any thread and for pools with workers too.
The rules of the frames are taken apart here. What every turn keeps is proved by cases on the list,
and by `Begun.Accepted` where a script begins an operation.
-/

namespace TaskPool

namespace World

/-- The world in which a sweep takes its turn: after a job, it has given back what it shared. -/
def freed (signal : Signal) (batch : Option BatchId) (w : World) : World :=
  match signal with
  | .proceed => w
  | .returned _ | .raised _ => w.giveBack (Frame.shares batch)

@[simp] theorem freed_system (signal : Signal) (batch : Option BatchId) (w : World) :
    (w.freed signal batch).system = w.system := by cases signal <;> rfl

@[simp] theorem freed_names (signal : Signal) (batch : Option BatchId) (w : World) :
    (w.freed signal batch).names = w.names := by cases signal <;> rfl

@[simp] theorem freed_common (signal : Signal) (batch : Option BatchId) (w : World) :
    (w.freed signal batch).common = w.common := by cases signal <;> rfl

/-- The world in which a worker takes its turn: the worker is awake. -/
def roused (p : PoolId) (asleep : Bool) (w : World) : World :=
  if asleep then
    { w with system := w.system.modifyPool p fun pool => { pool with asleep := pool.asleep - 1 } }
  else w

end World

namespace Frame

/-- The frames of threads other than the driver, and those that wait for such a thread. -/
def isElsewhere : Frame → Bool
  | strand .. | handOver | worker .. | reclaim .. => true
  | _ => false

theorem Fits.here {s : System Work} {frame : Frame} {below : List Frame}
    (fits : frame.Fits s below) : frame.isElsewhere = false := by
  cases fits with
  | pause kind => cases frame <;> first | rfl | simp [isPause] at kind
  | _ => rfl

/-- A script goes on, on whatever thread: only what is left of it and its replies may differ. -/
inductive Proceeds : Frame → Frame → Prop where
  | here {frame frame'} (on : frame.Continues frame') : Proceeds frame frame'
  | strand {rest rest' replies replies'} : Proceeds (.strand rest replies) (.strand rest' replies')

theorem Proceeds.isHost {frame frame' : Frame} (on : frame.Proceeds frame') :
    frame.isHost = false := by
  cases on with
  | here on => cases on <;> rfl
  | strand => rfl

inductive Resumed (ctx : Context) (w : World) : Frame → Signal → Turn → Prop where
  /-- A script begins its next operation, or the clean-up drops the next object. -/
  | performs {frame frame' : Frame} {signal : Signal} {ctx' : Context} {op : Op} {catchAll : Bool}
      (on : frame.Proceeds frame') (batches : ctx'.batches = ctx.batches) :
      Resumed ctx w frame signal ((op.perform ctx' w catchAll).above [frame'])
  /-- A script takes note of a reply, or the clean-up opens the gates. -/
  | notes {frame frame' : Frame} {signal : Signal} {turn : Turn} (on : frame.Proceeds frame')
      (same : w.Matches turn.world) (events : ∀ event ∈ turn.events, event.isScript = true)
      (push : turn.push = [frame']) (spawn : turn.spawn = []) : Resumed ctx w frame signal turn
  | finishes : Resumed ctx w (.program []) .proceed { world := w }
  | ends {job : JobId} {label : String} {next : Nat} {onBatch : Option String} :
      Resumed ctx w (.body job label next [] onBatch) .proceed
        { Turn.reply w .nothing with events := [.ended job label] }
  | unwinds {job : JobId} {label : String} {next : Nat} {rest : List Op} {onBatch : Option String}
      {payload : Payload} :
      Resumed ctx w (.body job label next rest onBatch) (.raised payload)
        { world := w, events := [.unwound job label payload], signal := .raised payload }
  /-- A thread that joins this one gets its replies. -/
  | handsOver {frame : Frame} {signal : Signal} {turn : Turn}
      (last : frame = .handOver ∨ ∃ replies, frame = .strand [] replies)
      (same : w.Matches turn.world) (events : turn.events = []) (push : turn.push = [])
      (spawn : turn.spawn = []) : Resumed ctx w frame signal turn
  | leaves {loans : List Loan} {onFailure : OnFailure} {caught : Bool} {signal told : Signal}
      (outcome : told.isOutcome = true) :
      Resumed ctx w (.call loans onFailure caught) signal
        { world := w.giveBack loans, signal := told }
  /-- A frame that did its work goes away. -/
  | passes {frame : Frame} {signal : Signal} {turn : Turn}
      (kind : frame.isPause = true ∨ frame = .executed ∨ frame = .cleanup)
      (same : w.Matches turn.world) (events : turn.events = []) (push : turn.push = [])
      (spawn : turn.spawn = []) (outcome : ∃ reply, turn.signal = .returned reply) :
      Resumed ctx w frame signal turn
  | settles {job : JobId} {b : BatchId} {signal : Signal} :
      Resumed ctx w (.settle job b) signal (resumeSettle job b w signal)
  | contains {job : JobId} {p : PoolId} {signal : Signal} :
      Resumed ctx w (.contain job p) signal (resumeContain job p w signal)
  | sweeps {source : Source} {batch : Option BatchId} {count : Nat} {signal : Signal} {turn : Turn}
      (free : batch.any (w.freed signal batch).isAwaited = false)
      (runs : source.runNext ctx ((w.freed signal batch).lend (shares batch)) = some turn) :
      Resumed ctx w (.sweep source batch count) signal
        (turn.above [.sweep source batch (count + 1)])
  | sweepEnds {source : Source} {batch : Option BatchId} {count : Nat} {signal : Signal}
      {reply : Reply} :
      Resumed ctx w (.sweep source batch count) signal (Turn.reply (w.freed signal batch) reply)
  | helps {b : BatchId} {budget : Option Nat} {goal : Goal} {signal : Signal} {turn : Turn}
      (unclear : (w.system.batch b).barrier.isClear = false) (left : budget ≠ some 0)
      (runs : (w.system.sourceOf b).runNext ctx w = some turn) :
      Resumed ctx w (.waiting b budget goal) signal
        (turn.above [.waiting b (budget.map (· - 1)) goal])
  | waitEnds {b : BatchId} {budget : Option Nat} {goal : Goal} {signal : Signal}
      (finished : (w.system.batch b).barrier.isClear = true ∨ budget = some 0 ∨
        (budget ≠ none ∧ w.system.take (w.system.sourceOf b) = none)) :
      Resumed ctx w (.waiting b budget goal) signal (finishWaiting b goal w)
  | drains {p : PoolId} {ran ran' : Nat} {signal : Signal} {turn : Turn}
      (runs : (Source.pool p).runNext ctx w = some turn) :
      Resumed ctx w (.closing p ran) signal (turn.above [.closing p ran'])
  | closesPool {p : PoolId} {ran ran' : Nat} {signal : Signal}
      (empty : w.system.take (.pool p) = none) :
      Resumed ctx w (.closing p ran) signal
        { Turn.reply { w with system := (w.system.closePool p ran').1 } .nothing with
          events := Event.ofNotices (w.system.closePool p ran').2 }
  /-- A panic goes past what asks pools for jobs. -/
  | breaks {frame : Frame} {payload : Payload} {w' : World} (asks : frame.isHost = true)
      (system : w'.system = w.system) (names : w'.names = w.names) (common : w'.common = w.common) :
      Resumed ctx w frame (.raised payload) { world := w', signal := .raised payload }
  /-- A worker runs a job. -/
  | works {p : PoolId} {asleep : Bool} {signal : Signal} {turn : Turn}
      (runs : (Source.pool p).runNext ctx (w.roused p asleep) = some turn) :
      Resumed ctx w (.worker p asleep) signal (turn.above [.worker p false])
  | fallsAsleep {p : PoolId} {signal : Signal} :
      Resumed ctx w (.worker p false) signal
        { world :=
            { w with
              system := w.system.modifyPool p fun pool => { pool with asleep := pool.asleep + 1 } }
          push := [.worker p true] }
  /-- A worker stops. -/
  | retires {p : PoolId} {asleep : Bool} {signal : Signal} :
      Resumed ctx w (.worker p asleep) signal
        { world :=
            { w.roused p asleep with
              system := (w.roused p asleep).system.modifyPool p fun pool =>
                { pool with working := pool.working - 1 } }
          signal := .returned .nothing }
  /-- A batch gets its name back. -/
  | comesBack {name : String} {b : BatchId} {thread : ThreadId} {signal : Signal}
      {deliveries : List (ThreadId × List Reply)} {reply : Reply} :
      Resumed ctx w (.reclaim name b thread) signal
        (Turn.reply ({ w with deliveries }.bind name (.batch b)) reply)

variable {ctx : Context} {w : World} {signal : Signal} {turn : Turn}

/-! ## Operations that return -/

theorem leaveCall_eq (onFailure : OnFailure) (caught : Bool) (signal : Signal) (w : World) :
    leaveCall onFailure caught signal w =
      { world := w, signal := (leaveCall onFailure caught signal w).signal } := by
  unfold leaveCall
  cases signal with
  | proceed | raised => rfl
  | returned reply =>
      cases reply with
      | failed => cases onFailure <;> rfl
      | _ => rfl

/-- What an operation tells does not depend on the world. -/
theorem leaveCall_signal {onFailure : OnFailure} {caught : Bool} (w' : World) :
    (leaveCall onFailure caught signal w).signal =
      (leaveCall onFailure caught signal w').signal := by
  unfold leaveCall
  cases signal with
  | proceed | raised => rfl
  | returned reply =>
      cases reply with
      | failed => cases onFailure <;> rfl
      | _ => rfl

theorem leaveCall_tells (onFailure : OnFailure) (caught : Bool) (signal : Signal) (w : World) :
    (leaveCall onFailure caught signal w).signal.isOutcome = true := by
  unfold leaveCall
  cases signal with
  | proceed => rfl
  | raised => cases caught <;> rfl
  | returned reply =>
      cases reply with
      | failed => cases onFailure <;> first | rfl | cases caught <;> rfl
      | _ => rfl

/-! ## One lemma for each rule that has cases -/

theorem resumeProgram_resumed (rest : List Op) :
    Resumed ctx w (.program rest) signal (resumeProgram ctx rest w signal) := by
  unfold resumeProgram
  split
  · exact .finishes
  · exact .performs (.here .program) rfl
  · exact .notes (.here .program) (.refl w) (by simp [Event.isScript]) rfl rfl
  · exact .notes (.here .program) (.refl w) (by simp [Event.isScript]) rfl rfl

theorem resumeStrand_resumed (rest : List Op) (replies : List Reply) :
    Resumed ctx w (.strand rest replies) signal (resumeStrand ctx rest replies w signal) := by
  unfold resumeStrand
  split
  · exact .handsOver (.inr ⟨replies, rfl⟩) ⟨rfl, rfl, rfl, rfl⟩ rfl rfl rfl
  · exact .performs .strand rfl
  · exact .notes .strand (.refl w) nofun rfl rfl
  · exact .notes .strand (.refl w) nofun rfl rfl

theorem resumeBody_resumed (job : JobId) (label : String) (next : Nat) (rest : List Op)
    (onBatch : Option String) :
    Resumed ctx w (.body job label next rest onBatch) signal
      (resumeBody ctx job label next rest onBatch w signal) := by
  unfold resumeBody
  cases signal with
  | proceed =>
      cases rest with
      | nil => exact .ends
      | cons op rest => exact .performs (.here .body) rfl
  | returned reply => exact .notes (.here .body) (.refl w) (by simp [Event.isScript]) rfl rfl
  | raised payload => exact .unwinds

theorem resumeCleanup_resumed (taken : resumeCleanup ctx w = some turn) :
    Resumed ctx w .cleanup signal turn := by
  unfold resumeCleanup at taken
  split at taken
  · cases taken
    exact .passes (.inr (.inr rfl)) (.refl w) rfl rfl rfl ⟨_, rfl⟩
  · dsimp only at taken
    split at taken
    · cases taken
      exact .notes (.here .cleanup) ⟨rfl, rfl, rfl, rfl⟩ nofun rfl rfl
    · split at taken <;> cases taken
      exact .performs (.here .cleanup) rfl

theorem resumeSweep_resumed (source : Source) (batch : Option BatchId) (count : Nat) :
    Resumed ctx w (.sweep source batch count) signal
      (resumeSweep ctx source batch count (w.freed signal batch)) := by
  unfold resumeSweep
  split
  · exact .sweepEnds
  · next free =>
      split
      · split
        · next runs => exact .sweeps (by simpa using free) runs
        · exact .sweepEnds
      · exact .sweepEnds

theorem resumeWaiting_resumed {b : BatchId} {budget : Option Nat} {goal : Goal}
    (taken : resumeWaiting ctx b budget goal w = some turn) :
    Resumed ctx w (.waiting b budget goal) signal turn := by
  unfold resumeWaiting at taken
  split at taken
  · next finished =>
      cases taken
      exact .waitEnds (finished.imp_right .inl)
  · next going =>
      split at taken
      · next runs =>
          cases taken
          rw [not_or, Bool.not_eq_true] at going
          exact .helps going.1 going.2 runs
      · next none =>
          cases taken
          exact .waitEnds (.inr (.inr ⟨by simp, Option.map_eq_none_iff.mp none⟩))
      · cases taken

theorem resumeClosing_resumed {p : PoolId} {ran ran' : Nat}
    (taken : resumeClosing ctx p ran' w = some turn) :
    Resumed ctx w (.closing p ran) signal turn := by
  unfold resumeClosing at taken
  split at taken
  · cases taken
  · split at taken
    · next runs =>
        cases taken
        exact .drains runs
    · next none =>
        cases taken
        exact .closesPool (Option.map_eq_none_iff.mp none)

theorem resumeWorker_resumed {p : PoolId} {asleep : Bool}
    (taken : resumeWorker ctx p asleep w = some turn) :
    Resumed ctx w (.worker p asleep) signal turn := by
  simp only [resumeWorker] at taken
  split at taken
  · cases taken
    exact .retires
  · split at taken
    · next runs =>
        cases taken
        exact .works runs
    · cases asleep <;> cases taken
      exact .fallsAsleep

/-- Whatever a frame does in its turn is on the list. -/
theorem resumed {frame : Frame} (taken : frame.resume ctx w signal = some turn) :
    Resumed ctx w frame signal turn := by
  cases frame with
  | program rest =>
      cases taken
      exact resumeProgram_resumed rest
  | cleanup => exact resumeCleanup_resumed taken
  | strand rest replies =>
      cases taken
      exact resumeStrand_resumed rest replies
  | handOver =>
      cases signal <;> cases taken <;>
        exact .handsOver (.inl rfl) ⟨rfl, rfl, rfl, rfl⟩ rfl rfl rfl
  | worker => exact resumeWorker_resumed taken
  | body job label next rest onBatch =>
      cases taken
      exact resumeBody_resumed job label next rest onBatch
  | call =>
      cases taken
      rw [leaveCall_eq]
      exact .leaves (leaveCall_tells ..)
  | settle =>
      cases taken
      exact .settles
  | contain =>
      cases taken
      exact .contains
  | executed =>
      cases signal <;> cases taken
      · exact .passes (.inr (.inl rfl)) (.refl w) rfl rfl rfl ⟨_, rfl⟩
      · exact .passes (.inr (.inl rfl)) (.refl w) rfl rfl rfl ⟨_, rfl⟩
      · exact .breaks rfl rfl rfl rfl
  | sweep source batch count =>
      cases signal with
      | proceed | returned =>
          cases taken
          exact resumeSweep_resumed source batch count
      | raised =>
          cases taken
          exact .breaks rfl rfl rfl rfl
  | waiting =>
      cases signal with
      | proceed | returned => exact resumeWaiting_resumed taken
      | raised =>
          cases taken
          exact .breaks rfl rfl rfl rfl
  | closing =>
      cases signal with
      | proceed | returned => exact resumeClosing_resumed taken
      | raised =>
          cases taken
          exact .breaks rfl rfl rfl rfl
  | await =>
      simp only [resume, resumeAwait] at taken
      split at taken
      · cases taken
        exact .passes (.inl rfl) (.refl w) rfl rfl rfl ⟨_, rfl⟩
      · split at taken <;> cases taken
        exact .passes (.inl rfl) (.refl w) rfl rfl rfl ⟨_, rfl⟩
  | nap =>
      simp only [resume] at taken
      split at taken <;> cases taken
      exact .passes (.inl rfl) (.refl w) rfl rfl rfl ⟨_, rfl⟩
  | joining =>
      simp only [resume, resumeJoining, Option.map_eq_some_iff] at taken
      obtain ⟨_, _, rfl⟩ := taken
      exact .passes (.inl rfl) ⟨rfl, rfl, rfl, rfl⟩ rfl rfl rfl ⟨_, rfl⟩
  | reclaim =>
      simp only [resume, resumeReclaim, Option.map_eq_some_iff] at taken
      obtain ⟨_, _, rfl⟩ := taken
      exact .comesBack

end Frame

end TaskPool
