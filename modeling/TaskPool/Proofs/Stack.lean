import TaskPool.Proofs.Registry

/-!
# Which stacks can arise

A frame stands only on the frame that pushed it. `Frame.Fits` says what may stand directly on what
in a solo run, and what the frame below holds for the frame above; `Stacked` says it of a whole
stack. What is below a frame does not change while the frame is there, so these facts are settled
when a frame is pushed and are kept by every later turn, as long as batches keep their pool and
their kind.
-/

namespace TaskPool

namespace Frame

def performs : Frame → Bool
  | program _ | cleanup | body .. => true
  | _ => false

def isSettle : Frame → Bool
  | settle .. => true
  | _ => false

/-- What the end of a job is reported to: the operation that runs it at once, or the pool that was
asked for it. -/
def isRunner : Frame → Bool
  | call .. | contain .. => true
  | _ => false

def isHost : Frame → Bool
  | executed | sweep .. | waiting .. | closing .. => true
  | _ => false

/-- What a frame holds. A sweep holds its batch only while a job of it runs. -/
def loans : Frame → List Loan
  | call loans _ _ => loans
  | sweep _ batch _ => shares batch
  | _ => []

def closing? : Frame → Option Object
  | waiting b _ .close => some (.batch b)
  | closing p _ => some (.pool p)
  | _ => none

/-- What may stand directly on what. -/
inductive Fits (s : System Work) : Frame → List Frame → Prop where
  | program {rest} : Fits s (.program rest) [.cleanup]
  | cleanup : Fits s .cleanup []
  | call {loans onFailure caught frame below} (performs : frame.performs) :
      Fits s (.call loans onFailure caught) (frame :: below)
  | body {job label next rest onBatch frame below} (on : frame.isSettle ∨ frame.isRunner) :
      Fits s (.body job label next rest onBatch) (frame :: below)
  | settle {job b frame below} (on : frame.isRunner) : Fits s (.settle job b) (frame :: below)
  | contain {job p frame below} (on : frame.isHost) : Fits s (.contain job p) (frame :: below)
  | pause {frame loans onFailure caught below}
      (kind : frame.isPause ∨ frame = .executed ∨ ∃ p ran, frame = .closing p ran) :
      Fits s frame (.call loans onFailure caught :: below)
  /-- A sweep looks where its operation said, and the operation holds the target. -/
  | sweep {target : Target} {count onFailure caught below}
      (known : ∀ b, target = .batch b → b.index < s.batches.length) :
      Fits s (.sweep (target.source s) target.batch? count)
        (.call (target.loans .use) onFailure caught :: below)
  | wait {b onFailure caught below} :
      Fits s (.waiting b none .wait) (.call [⟨.batch b, .exclude⟩] onFailure caught :: below)
  | tryWait {b left onFailure caught below} :
      Fits s (.waiting b (some left) .tryWait)
        (.call [⟨.batch b, .exclude⟩] onFailure caught :: below)
  | close {b loans onFailure caught below} :
      Fits s (.waiting b none .close) (.call loans onFailure caught :: below)

theorem Fits.grows {s s' : System Work} {frame : Frame} {below : List Frame}
    (fits : Fits s frame below) (grows : s.Grows s') : Fits s' frame below := by
  cases fits with
  | program => exact .program
  | cleanup => exact .cleanup
  | call performs => exact .call performs
  | body on => exact .body on
  | settle on => exact .settle on
  | contain on => exact .contain on
  | pause kind => exact .pause kind
  | @sweep target count onFailure caught below known =>
      have same : target.source s = target.source s' := by
        cases target with
        | pool p => rfl
        | token receiver t => rfl
        | batch b =>
            obtain ⟨_, pool, kind⟩ := grows.batches b (known b rfl)
            simp only [Target.source, System.sourceOf, pool, kind]
      rw [same]
      exact .sweep fun b named => (grows.batches b (known b named)).1
  | wait => exact .wait
  | tryWait => exact .tryWait
  | close => exact .close

theorem Fits.continues {s : System Work} {frame frame' : Frame} {below : List Frame}
    (fits : Fits s frame below) (on : frame.Continues frame') : Fits s frame' below := by
  cases on with
  | program =>
      cases fits with
      | program => exact .program
      | pause kind => simp [isPause] at kind
  | cleanup => exact fits
  | body =>
      cases fits with
      | body on => exact .body on
      | pause kind => simp [isPause] at kind

theorem Fits.sweep_on {s : System Work} {source : Source} {batch : Option BatchId}
    {count : Nat} {below : List Frame} (fits : Fits s (.sweep source batch count) below)
    (count' : Nat) : Fits s (.sweep source batch count') below := by
  cases fits with
  | pause kind => simp [isPause] at kind
  | sweep known => exact .sweep known

theorem Fits.wait_on {s : System Work} {b : BatchId} {budget : Option Nat} {goal : Goal}
    {below : List Frame} (fits : Fits s (.waiting b budget goal) below) :
    Fits s (.waiting b (budget.map (· - 1)) goal) below := by
  cases fits with
  | pause kind => simp [isPause] at kind
  | wait => exact .wait
  | tryWait => exact .tryWait
  | close => exact .close

theorem Fits.settle_below {s : System Work} {frame : Frame} {job : JobId} {b : BatchId}
    {below : List Frame} (fits : Fits s frame (.settle job b :: below)) :
    ∃ job label next rest onBatch, frame = .body job label next rest onBatch := by
  cases fits with
  | body => exact ⟨_, _, _, _, _, rfl⟩
  | call performs => simp [Frame.performs] at performs
  | settle on => simp [isRunner] at on
  | contain on => simp [isHost] at on

/-- A wait that somebody asked for stands on the operation that holds the batch. -/
theorem Fits.asked {s : System Work} {b : BatchId} {budget : Option Nat} {goal : Goal}
    {below : List Frame} (fits : Fits s (.waiting b budget goal) below) (asked : goal ≠ .close) :
    ∃ onFailure caught rest, below = .call [⟨.batch b, .exclude⟩] onFailure caught :: rest := by
  cases fits with
  | pause kind => simp [isPause] at kind
  | wait | tryWait => exact ⟨_, _, _, rfl⟩
  | close => exact absurd rfl asked

theorem Continues.performs {frame frame' : Frame} (on : frame.Continues frame') :
    frame.performs = true ∧ frame'.performs = true := by
  cases on <;> exact ⟨rfl, rfl⟩

theorem Continues.loans {frame frame' : Frame} (on : frame.Continues frame') :
    frame.loans = [] ∧ frame'.loans = [] := by
  cases on <;> exact ⟨rfl, rfl⟩

theorem Continues.closing? {frame frame' : Frame} (on : frame.Continues frame') :
    frame.closing? = none ∧ frame'.closing? = none := by
  cases on <;> exact ⟨rfl, rfl⟩

end Frame

/-- Every frame of a stack fits on the frames below it. -/
def Stacked (s : System Work) : List Frame → Prop
  | [] => True
  | frame :: below => frame.Fits s below ∧ Stacked s below

namespace Stacked

variable {s s' : System Work} {frames : List Frame}

theorem grows (stacked : Stacked s frames) (grows : s.Grows s') : Stacked s' frames := by
  induction frames with
  | nil => trivial
  | cons frame below ih => exact ⟨stacked.1.grows grows, ih stacked.2⟩

theorem task (task : Task) {runner : Frame} {below : List Frame} (on : runner.isRunner = true)
    (stacked : Stacked s (runner :: below)) : Stacked s (task.frames ++ runner :: below) := by
  cases wrapped : task.batch with
  | none =>
      simp only [Task.frames, wrapped, Option.toList_none, List.map_nil, List.cons_append,
        List.nil_append]
      exact ⟨.body (.inr on), stacked⟩
  | some b =>
      simp only [Task.frames, wrapped, Option.toList_some, List.map_cons, List.map_nil,
        List.cons_append, List.nil_append]
      exact ⟨.body (.inl rfl), .settle on, stacked⟩

end Stacked

/-- What the operations of a stack hold. A sweep that is on top and looks for its next job does not
hold its batch. -/
def heldLoans : List Frame → Signal → List Loan
  | .sweep .. :: below, .proceed => below.flatMap Frame.loans
  | frames, _ => frames.flatMap Frame.loans

def closings (frames : List Frame) : List Object := frames.filterMap Frame.closing?

/-- A host is never told of a panic. -/
def Calm : List Frame → Signal → Prop
  | frame :: _, .raised _ => frame.isHost = false
  | _, _ => True

section

variable {frames below : List Frame} {frame : Frame} {signal : Signal}

theorem heldLoans_outcome (outcome : signal.isOutcome = true) :
    heldLoans frames signal = frames.flatMap Frame.loans := by
  cases frames with
  | nil => rfl
  | cons frame below => cases frame <;> cases signal <;> first | rfl | cases outcome

theorem heldLoans_cons (notSweep : ∀ source batch count, frame ≠ .sweep source batch count) :
    heldLoans (frame :: below) signal = frame.loans ++ below.flatMap Frame.loans := by
  cases frame <;> first | rfl | exact absurd rfl (notSweep _ _ _)

@[simp] theorem Task.frames_loans (task : Task) : task.frames.flatMap Frame.loans = [] := by
  cases wrapped : task.batch <;> simp [Task.frames, wrapped, Frame.loans]

theorem mem_heldLoans {loans : List Loan} {onFailure : OnFailure} {caught : Bool} {loan : Loan}
    (member : .call loans onFailure caught ∈ frames) (held : loan ∈ loans) :
    loan ∈ heldLoans frames signal := by
  have inside : loan ∈ frames.flatMap Frame.loans := List.mem_flatMap.mpr ⟨_, member, held⟩
  cases frames with
  | nil => cases member
  | cons frame below =>
      cases frame with
      | sweep =>
          cases signal with
          | proceed =>
              rcases List.mem_cons.mp member with wrong | below
              · cases wrong
              · exact List.mem_flatMap.mpr ⟨_, below, held⟩
          | returned | raised => exact inside
      | _ =>
          rw [heldLoans_cons (by simp)]
          exact inside

theorem heldLoans_of_empty (empty : frame.loans = []) :
    heldLoans (frame :: below) signal = below.flatMap Frame.loans := by
  cases frame with
  | sweep => cases signal <;> simp_all [heldLoans]
  | _ =>
      rw [heldLoans_cons (by simp), empty]
      rfl

theorem heldLoans_task (task : Task) :
    heldLoans (task.frames ++ below) signal = below.flatMap Frame.loans := by
  have loans := task.frames_loans
  rw [Task.frames, List.flatMap_cons, List.append_eq_nil_iff] at loans
  rw [Task.frames, List.cons_append, heldLoans_cons (by simp), List.flatMap_append, loans.2]
  rfl

@[simp] theorem Task.frames_closings (task : Task) : closings task.frames = [] := by
  cases wrapped : task.batch <;> simp [Task.frames, wrapped, closings, Frame.closing?]

@[simp] theorem closings_cons :
    closings (frame :: below) = frame.closing?.toList ++ closings below := by
  cases closes : frame.closing? <;> simp [closings, closes]

@[simp] theorem closings_append (above below : List Frame) :
    closings (above ++ below) = closings above ++ closings below :=
  List.filterMap_append

theorem calm_of_not_host (other : frame.isHost = false) : Calm (frame :: below) signal := by
  cases signal with
  | raised => exact other
  | proceed | returned => trivial

theorem calm_returned (frames : List Frame) (reply : Reply) : Calm frames (.returned reply) := by
  cases frames <;> trivial

/-- Only a frame that keeps panics stands on what asks a pool for jobs. -/
theorem Frame.Fits.calm {s : System Work} (fits : frame.Fits s below)
    (other : ∀ job p, frame ≠ .contain job p) : Calm below signal := by
  cases fits with
  | cleanup => trivial
  | program | pause | sweep | wait | tryWait | close => exact calm_of_not_host rfl
  | call performs =>
      apply calm_of_not_host
      revert performs
      cases ‹Frame› <;> simp [Frame.performs, Frame.isHost]
  | body on =>
      apply calm_of_not_host
      revert on
      cases ‹Frame› <;> simp [Frame.isSettle, Frame.isRunner, Frame.isHost]
  | settle on =>
      apply calm_of_not_host
      revert on
      cases ‹Frame› <;> simp [Frame.isRunner, Frame.isHost]
  | contain => exact absurd rfl (other _ _)

end

end TaskPool
