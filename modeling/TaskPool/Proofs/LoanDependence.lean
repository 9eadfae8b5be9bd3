import TaskPool.Proofs.ScriptOperations
import TaskPool.Proofs.Stack

/-!
# What depends on loans

What an operation holds until it returns keeps others from dropping it, and a batch from being used
or waited for. Nothing else in a world depends on the loans. So a turn does the same in two worlds
that differ in loans of pools and tokens only, but for a drop that is refused in one of them.

The loans of a thread are those of the operations on its stack. A turn lends what the frames hold
that it pushes and takes back what the frame held that it replaces; it leaves the loans of all
others alone, whatever they are.
-/

namespace TaskPool

open TaskPool.System

def World.withLoans (loans : List Loan) (w : World) : World := { w with loans }

def Turn.withLoans (loans : List Loan) (turn : Turn) : Turn :=
  { turn with world := turn.world.withLoans loans }

def Begun.withLoans (loans : List Loan) (begun : Begun) : Begun :=
  { begun with world := begun.world.withLoans loans }

section

variable {ctx : Context} {w : World} {l : List Loan}

theorem Turn.block_withLoans (gate : String) :
    Turn.block ctx (w.withLoans l) gate = (Turn.block ctx w gate).withLoans l := by
  simp only [Turn.block]
  by_cases closed : ctx.thread = .driver ∧ (w.gate gate).isOpen = false
  · rw [if_pos closed]
    exact if_pos closed
  · rw [if_neg closed]
    exact if_neg closed

theorem Job.launch_withLoans (job : Job Work) :
    job.launch ctx (w.withLoans l) = (job.launch ctx w).withLoans l := by
  unfold Job.launch
  cases job.work with
  | body => rfl
  | park gate => exact congrArg (Turn.above _) (Turn.block_withLoans gate)

theorem Source.runNext_withLoans (source : Source) :
    source.runNext ctx (w.withLoans l) = (source.runNext ctx w).map (·.withLoans l) := by
  simp only [Source.runNext, Option.map_map]
  refine congrArg (Option.map · _) (funext ?_)
  rintro ⟨job, system⟩
  exact congrArg (Turn.above _) (Job.launch_withLoans (w := { w with system }) job)

theorem Work.submitted_withLoans (entry : Entry) (work : Work) :
    work.submitted ctx entry (w.withLoans l) = (work.submitted ctx entry w).withLoans l := by
  simp only [Work.submitted, show (w.withLoans l).system = w.system from rfl]
  generalize w.system.submit entry work = made
  cases now : made.route.runsNow with
  | true =>
      simp only [if_true]
      exact congrArg (Turn.after _)
        (Job.launch_withLoans (w := { w with system := made.system }) made.job)
  | false => rfl

namespace Begun

theorem startPool_withLoans (id : Arg String) (threads : Arg Nat) (name : Arg String)
    (multiplier idleMs : Arg Nat) :
    Begun.startPool ctx (w.withLoans l) id threads name multiplier idleMs =
      (·.withLoans l) <$> Begun.startPool ctx w id threads name multiplier idleMs := by
  simp only [Begun.startPool, map_bind]
  rfl

theorem commonPool_withLoans :
    Begun.commonPool (w.withLoans l) =
      ((Begun.commonPool w).1, (Begun.commonPool w).2.1.withLoans l, (Begun.commonPool w).2.2) := by
  unfold Begun.commonPool
  cases common : w.common <;> simp only [World.withLoans, common]

theorem nameCommonPool_withLoans (id : Arg String) :
    Begun.nameCommonPool ctx (w.withLoans l) id =
      (·.withLoans l) <$> Begun.nameCommonPool ctx w id := by
  simp only [Begun.nameCommonPool, map_bind, commonPool_withLoans]
  rfl

theorem issueToken_withLoans (id pool : Arg String) :
    Begun.issueToken ctx (w.withLoans l) id pool =
      (·.withLoans l) <$> Begun.issueToken ctx w id pool := by
  simp only [Begun.issueToken, map_bind]
  rfl

theorem makeBatch_withLoans (id pool : Arg String) (multiplier : Arg Nat) (single : Arg Bool) :
    Begun.makeBatch ctx (w.withLoans l) id pool multiplier single =
      (·.withLoans l) <$> Begun.makeBatch ctx w id pool multiplier single := by
  simp only [Begun.makeBatch, map_bind]
  rfl

theorem execAll_withLoans (on token : Arg String) :
    Begun.execAll ctx (w.withLoans l) on token =
      (·.withLoans l) <$> Begun.execAll ctx w on token := by
  simp only [Begun.execAll, map_bind]
  rfl

theorem hold_withLoans (on gate : Arg String) (workers : Arg Nat) :
    Begun.hold ctx (w.withLoans l) on gate workers =
      (·.withLoans l) <$> Begun.hold ctx w on gate workers := by
  simp only [Begun.hold, map_bind]
  rfl

theorem producers_withLoans (threads : Arg (List (List Op))) :
    Begun.producers ctx (w.withLoans l) threads =
      (·.withLoans l) <$> Begun.producers ctx w threads := by
  simp only [Begun.producers, map_bind]
  rfl

/-! ## Operations that look at loans -/

variable (same : ∀ b hold, ⟨.batch b, hold⟩ ∈ l ↔ ⟨.batch b, hold⟩ ∈ w.loans)

include same

theorem isAwaited_withLoans (b : BatchId) : (w.withLoans l).isAwaited b = w.isAwaited b := by
  rw [World.isAwaited, World.isAwaited, Bool.eq_iff_iff, List.contains_iff_mem,
    List.contains_iff_mem]
  exact same b .exclude

theorem inUse_withLoans (b : BatchId) : (w.withLoans l).inUse (.batch b) = w.inUse (.batch b) := by
  rw [World.inUse, World.inUse, Bool.eq_iff_iff]
  simp only [List.any_eq_true, decide_eq_true_eq]
  constructor <;> rintro ⟨⟨_, hold⟩, member, rfl⟩
  · exact ⟨_, (same b hold).mp member, rfl⟩
  · exact ⟨_, (same b hold).mpr member, rfl⟩

theorem checkShared_withLoans (on : Object) :
    Begun.checkShared (w.withLoans l) on = Begun.checkShared w on := by
  cases on with
  | batch b => rw [Begun.checkShared, Begun.checkShared, isAwaited_withLoans same]
  | pool | commonPool | token => rfl

theorem schedule_withLoans (on : Arg String) (task : Arg (TaskSource Op)) (via : Arg Via)
    (token : Arg String) :
    Begun.schedule ctx (w.withLoans l) on task via token =
      (·.withLoans l) <$> Begun.schedule ctx w on task via token := by
  simp only [Begun.schedule, map_bind, checkShared_withLoans same]
  iterate 9 refine bind_congr fun _ => ?_
  exact congrArg (fun turn : Turn => Except.ok ({ toTurn := turn, loans := _ } : Begun))
    (Work.submitted_withLoans ..)

theorem exec_withLoans (on token : Arg String) :
    Begun.exec ctx (w.withLoans l) on token = (·.withLoans l) <$> Begun.exec ctx w on token := by
  simp only [Begun.exec, map_bind, checkShared_withLoans same, Source.runNext_withLoans]
  iterate 5 refine bind_congr fun _ => ?_
  refine bind_congr fun _ => ?_
  cases Source.runNext ctx _ w <;> rfl

theorem tryWait_withLoans (on : Arg String) (max : Arg Nat) (onFailure : OnFailure) :
    Begun.tryWait ctx (w.withLoans l) on max onFailure =
      (·.withLoans l) <$> Begun.tryWait ctx w on max onFailure := by
  simp only [Begun.tryWait, map_bind]
  iterate 2 refine bind_congr fun _ => ?_
  refine bind_congr fun on => ?_
  cases on with
  | batch b =>
      rw [inUse_withLoans same]
      rfl
  | pool | commonPool | token => rfl

theorem wait_withLoans (on : Arg String) (onFailure : OnFailure) (elsewhere : Bool) :
    Begun.wait ctx (w.withLoans l) on onFailure elsewhere =
      (·.withLoans l) <$> Begun.wait ctx w on onFailure elsewhere := by
  simp only [Begun.wait, map_bind]
  refine bind_congr fun _ => ?_
  refine bind_congr fun on => ?_
  refine bind_congr fun _ => ?_
  cases on with
  | batch b =>
      rw [inUse_withLoans same]
      iterate 3 refine bind_congr fun _ => ?_
      have moves : (w.withLoans l).isLocal (.batch b) = w.isLocal (.batch b) := rfl
      rw [moves]
      cases elsewhere && w.isLocal (.batch b) <;> rfl
  | pool | commonPool | token => rfl

theorem stat_withLoans (on : Arg String) :
    Begun.stat ctx (w.withLoans l) on = (·.withLoans l) <$> Begun.stat ctx w on := by
  simp only [Begun.stat, map_bind]
  refine bind_congr fun _ => ?_
  refine bind_congr fun on => ?_
  cases on with
  | batch b =>
      simp only [isAwaited_withLoans same, map_bind]
      rfl
  | pool | commonPool | token => rfl

end Begun

end

/-- A turn takes the name away from an object that would be busy with other loans. -/
def World.Snatches (w : World) (loans : List Loan) (w' : World) : Prop :=
  ∃ name object, w.names.find? name = some object ∧ w.isBusy object = false ∧
    (w.withLoans loans).isBusy object = true ∧ w'.names = w.names.remove name

/-- Other loans of the same batches, with which everything is busy that is busy now. -/
structure World.Covers (w : World) (loans : List Loan) : Prop where
  batches : ∀ b hold, ⟨.batch b, hold⟩ ∈ loans ↔ ⟨.batch b, hold⟩ ∈ w.loans
  busy : ∀ object, w.isBusy object = true → (w.withLoans loans).isBusy object = true

section

variable {ctx : Context} {w : World} {l : List Loan}

namespace Begun

/-- A drop does the same, or it takes a name away that other loans would keep. -/
theorem drop_withLoans (covers : w.Covers l) (id : Arg String) :
    Begun.drop ctx (w.withLoans l) id = (·.withLoans l) <$> Begun.drop ctx w id ∨
      ∃ begun, Begun.drop ctx w id = .ok begun ∧ w.Snatches l begun.world := by
  have resolve : ∀ name, (w.withLoans l).resolve ctx.thread name = w.resolve ctx.thread name :=
    fun _ => rfl
  simp only [Begun.drop, map_bind, resolve]
  rcases id.require with _ | name
  · exact .inl rfl
  simp only [Bind.bind, Except.bind]
  rcases Refusal.unless (ctx.thread == .driver) .wrongThread with _ | _
  · exact .inl rfl
  rcases Refusal.unless (!ctx.batches.contains name) .wouldDeadlock with _ | _
  · exact .inl rfl
  rcases resolved : w.resolve ctx.thread name with _ | object
  · exact .inl rfl
  cases idle : w.isBusy object with
  | true =>
      simp only [covers.busy object idle, idle]
      exact .inl rfl
  | false =>
      cases busy : (w.withLoans l).isBusy object with
      | true =>
          have named := World.find_of_resolve resolved
          simp only [idle]
          refine .inr ?_
          cases object <;> exact ⟨_, rfl, name, _, named, idle, busy, rfl⟩
      | false =>
          simp only [busy, idle]
          refine .inl ?_
          cases object <;> rfl

/-- An operation does the same with other loans, or it takes a name away that these would keep. -/
theorem ofOp_withLoans (covers : w.Covers l) (op : Op) :
    Begun.ofOp ctx (w.withLoans l) op = (·.withLoans l) <$> Begun.ofOp ctx w op ∨
      ∃ begun, Begun.ofOp ctx w op = .ok begun ∧ w.Snatches l begun.world := by
  cases op with
  | drop id => exact drop_withLoans covers id
  | malformed | catching | defaults | note | thread => exact .inl rfl
  | pool => exact .inl (startPool_withLoans ..)
  | commonPool => exact .inl (nameCommonPool_withLoans ..)
  | token => exact .inl (issueToken_withLoans ..)
  | batch => exact .inl (makeBatch_withLoans ..)
  | schedule => exact .inl (schedule_withLoans covers.batches ..)
  | exec => exact .inl (exec_withLoans covers.batches ..)
  | execAll => exact .inl (execAll_withLoans ..)
  | wait => exact .inl (wait_withLoans covers.batches ..)
  | tryWait => exact .inl (tryWait_withLoans covers.batches ..)
  | stat => exact .inl (stat_withLoans covers.batches ..)
  | hold => exact .inl (hold_withLoans ..)
  | producers => exact .inl (producers_withLoans ..)
  | block gate =>
      simp only [Begun.ofOp, map_bind, Turn.block_withLoans]
      exact .inl rfl
  | panic | sleep | add | count | awaitCount | openGate | awaitArrived =>
      simp only [Begun.ofOp, map_bind]
      exact .inl rfl

end Begun

/-! ## What a turn holds -/

def Frame.isFirst : Frame → Bool
  | program _ | cleanup | strand .. | handOver | worker .. => true
  | _ => false

/-- None of the frames that a turn pushes is one that threads start with. -/
def Turn.Inner (turn : Turn) : Prop := ∀ frame ∈ turn.push, frame.isFirst = false

/-- The frames that a turn pushes hold nothing by themselves. -/
structure Turn.Bare (turn : Turn) : Prop where
  held : ∀ rest, heldLoans (turn.push ++ rest) turn.signal = rest.flatMap Frame.loans
  inner : turn.Inner

namespace Turn

variable {turn : Turn} {frames : List Frame} {frame : Frame}

theorem bare_of_outcome (push : turn.push = []) (outcome : turn.signal.isOutcome = true) :
    turn.Bare where
  held rest := by rw [push, List.nil_append, heldLoans_outcome outcome]
  inner := by simp [Inner, push]

theorem bare_of_frame (push : turn.push = [frame]) (empty : frame.loans = [])
    (inner : frame.isFirst = false) : turn.Bare where
  held rest := by rw [push, List.singleton_append, heldLoans_of_empty empty]
  inner := by simpa [Inner, push] using inner

theorem inner_of_push (push : turn.push = []) : turn.Inner := by
  simp [Inner, push]

theorem Inner.above (inner : turn.Inner) (inner' : ∀ frame ∈ frames, frame.isFirst = false) :
    (turn.above frames).Inner := by
  intro frame member
  rcases List.mem_append.mp member with pushed | below
  · exact inner frame pushed
  · exact inner' frame below

theorem bare_reply (w : World) (reply : Reply) : (Turn.reply w reply).Bare :=
  bare_of_outcome rfl rfl

theorem Bare.above (bare : turn.Bare) (empty : ∀ frame ∈ frames, frame.loans = [])
    (inner : ∀ frame ∈ frames, frame.isFirst = false) : (turn.above frames).Bare where
  held rest := by
    simp only [Turn.above, List.append_assoc, bare.held, List.flatMap_append,
      List.flatMap_eq_nil_iff.mpr empty, List.nil_append]
  inner := bare.inner.above inner

theorem Bare.after (bare : turn.Bare) (events : List Event) : (turn.after events).Bare :=
  ⟨bare.held, bare.inner⟩

theorem bare_block (gate : String) : (Turn.block ctx w gate).Bare := by
  unfold Turn.block
  split
  · exact bare_reply _ _
  · exact bare_of_frame rfl rfl rfl

end Turn

theorem Job.launch_bare (job : Job Work) : (job.launch ctx w).Bare := by
  obtain ⟨id, batch, work⟩ := job
  have bare : ∀ frame ∈ batch.toList.map (Frame.settle id), frame.loans = [] := by
    cases batch <;> simp [Frame.loans]
  have inner : ∀ frame ∈ batch.toList.map (Frame.settle id), frame.isFirst = false := by
    cases batch <;> simp [Frame.isFirst]
  cases work with
  | body => exact Turn.Bare.above (Turn.bare_of_frame rfl rfl rfl) bare inner
  | park gate => exact Turn.Bare.above (Turn.bare_block gate) bare inner

theorem Source.runNext_bare {source : Source} {turn : Turn}
    (runs : source.runNext ctx w = some turn) : turn.Bare := by
  simp only [Source.runNext, Option.map_eq_some_iff] at runs
  obtain ⟨⟨job, system⟩, _, rfl⟩ := runs
  exact (Job.launch_bare job).above (by simp [Frame.loans]) (by simp [Frame.isFirst])

theorem Work.submitted_bare (entry : Entry) (work : Work) :
    (work.submitted ctx entry w).Bare := by
  refine Turn.Bare.after ?_ _
  split
  · exact Job.launch_bare _
  · exact Turn.bare_reply _ _

theorem Source.executed_bare (source : Source) : (source.executed ctx w).Bare := by
  unfold Source.executed
  split
  · next runs =>
      exact (Source.runNext_bare runs).above (by simp [Frame.loans]) (by simp [Frame.isFirst])
  · exact Turn.bare_reply _ _

theorem Begun.Accepted.bare {begun : Begun} (accepted : Begun.Accepted ctx w begun) :
    begun.toTurn.Bare := by
  cases accepted with
  | rests _ _ push _ _ outcome => exact Turn.bare_of_outcome push outcome
  | @pauses _ pause _ _ push kind =>
      cases pause <;> first | exact Turn.bare_of_frame push rfl rfl | cases kind
  | submits => exact Work.submitted_bare ..
  | executes => exact Source.executed_bare _
  | sweeps => exact ⟨fun rest => rfl, by simp [Turn.Inner, Frame.isFirst]⟩
  | startsPool | sharesPool | startsShared | issuesToken | makesBatch | forgetsPool | dropsToken =>
      exact Turn.bare_of_outcome rfl rfl
  | dropsPool | dropsBatch | waits | triesToWait | movesAway | holds | joins =>
      exact Turn.bare_of_frame rfl rfl rfl

/-! ## Turns of frames -/

/-- The same turn, in a world with other loans. What the turn itself lends stays lent. -/
def Turn.over (turn : Turn) (rest : List Frame) (loans : List Loan) : Turn :=
  turn.withLoans (heldLoans (turn.push ++ rest) turn.signal ++ loans)

variable {rest : List Frame} {lent : List Loan}

theorem Turn.Bare.over {turn : Turn} (bare : turn.Bare) :
    turn.over rest lent = turn.withLoans (rest.flatMap Frame.loans ++ lent) := by
  rw [Turn.over, bare.held]

theorem Op.perform_over {stays : Frame} (empty : stays.loans = [])
    (covers : w.Covers (rest.flatMap Frame.loans ++ lent)) (op : Op) (catchAll : Bool)
    (keeps : ¬ w.Snatches (rest.flatMap Frame.loans ++ lent) (op.perform ctx w catchAll).world) :
    (op.perform ctx (w.withLoans (rest.flatMap Frame.loans ++ lent)) catchAll).above [stays] =
      ((op.perform ctx w catchAll).above [stays]).over rest lent := by
  have same : Begun.ofOp ctx (w.withLoans (rest.flatMap Frame.loans ++ lent)) op.uncaught.2 =
      (·.withLoans (rest.flatMap Frame.loans ++ lent)) <$> Begun.ofOp ctx w op.uncaught.2 := by
    refine (Begun.ofOp_withLoans covers op.uncaught.2).resolve_right ?_
    rintro ⟨begun, passed, snatches⟩
    refine keeps ?_
    simp only [Op.perform, passed]
    exact snatches
  cases passed : Begun.ofOp ctx w op.uncaught.2 with
  | error reason =>
      have held : heldLoans ([stays] ++ rest) (.returned (.refused reason)) =
          rest.flatMap Frame.loans := heldLoans_of_empty empty
      rw [passed] at same
      simp only [Op.perform, same, passed, Turn.over, Turn.above, Turn.reply, List.nil_append, held]
      rfl
  | ok begun =>
      have held : heldLoans (begun.push ++ ([.call begun.loans begun.onFailure
          (op.uncaught.1 || catchAll), stays] ++ rest)) begun.signal =
          begun.loans ++ rest.flatMap Frame.loans := by
        rw [(Begun.ofOp_accepted passed).bare.held, List.flatMap_append, List.flatMap_cons,
          List.flatMap_singleton, empty, List.append_nil]
        rfl
      rw [passed] at same
      simp only [Op.perform, same, passed, Functor.map, Except.map, Turn.over, Turn.above,
        List.append_assoc, List.singleton_append, held]
      rfl

/-- Frames that neither start a thread nor hold or carry out anything. -/
def Frame.isSilent : Frame → Bool
  | program _ | cleanup | strand .. | handOver | worker .. | body .. | call .. | sweep .. => false
  | _ => true

namespace Frame

variable {frame : Frame} {signal : Signal} {turn : Turn} {b : BatchId} {budget : Option Nat}
  {goal : Goal}

theorem finishWaiting_withLoans :
    finishWaiting b goal (w.withLoans l) = (finishWaiting b goal w).withLoans l := by
  cases goal <;> rfl

theorem resumeWaiting_withLoans :
    resumeWaiting ctx b budget goal (w.withLoans l) =
      (resumeWaiting ctx b budget goal w).map (·.withLoans l) := by
  have same : (w.withLoans l).system = w.system := rfl
  simp only [resumeWaiting, same, Source.runNext_withLoans, finishWaiting_withLoans]
  split
  · rfl
  · cases (w.system.sourceOf b).runNext ctx w <;> cases budget <;> rfl

theorem resumeClosing_withLoans {p : PoolId} {ran : Nat} :
    resumeClosing ctx p ran (w.withLoans l) =
      (resumeClosing ctx p ran w).map (·.withLoans l) := by
  have same : (w.withLoans l).system = w.system := rfl
  simp only [resumeClosing, same, Source.runNext_withLoans]
  split
  · rfl
  · cases (Source.pool p).runNext ctx w <;> rfl

theorem resumeAwait_withLoans {condition : Condition} {deadline : Nat} :
    resumeAwait condition deadline (w.withLoans l) =
      (resumeAwait condition deadline w).map (·.withLoans l) := by
  have same : holds (w.withLoans l) condition = holds w condition := by cases condition <;> rfl
  simp only [resumeAwait, same, show (w.withLoans l).clock = w.clock from rfl]
  split
  · rfl
  · split <;> rfl

theorem resume_withLoans (silent : frame.isSilent = true) :
    frame.resume ctx (w.withLoans l) signal =
      (frame.resume ctx w signal).map (·.withLoans l) := by
  cases frame with
  | program | cleanup | strand | handOver | worker | body | call | sweep => cases silent
  | settle => cases signal <;> rfl
  | contain => cases signal <;> rfl
  | executed => cases signal <;> rfl
  | waiting b budget goal =>
      cases signal with
      | proceed | returned => exact resumeWaiting_withLoans
      | raised => rfl
  | closing p ran =>
      cases signal with
      | proceed | returned => exact resumeClosing_withLoans
      | raised => rfl
  | await => exact resumeAwait_withLoans
  | nap deadline =>
      simp only [resume, show (w.withLoans l).clock = w.clock from rfl]
      split <;> rfl
  | joining =>
      simp only [resume, resumeJoining, collect, Option.map_map]
      rfl
  | reclaim =>
      simp only [resume, resumeReclaim, Option.map_map]
      rfl

theorem finishWaiting_bare (b : BatchId) (goal : Goal) (w : World) :
    (finishWaiting b goal w).Bare := by
  cases goal <;> exact Turn.bare_of_outcome rfl rfl

theorem Proceeds.isSilent {frame' : Frame} (on : frame.Proceeds frame') :
    frame.isSilent = false := by
  cases on with
  | here on => cases on <;> rfl
  | strand => rfl

theorem Resumed.bare (resumed : frame.Resumed ctx w signal turn) (silent : frame.isSilent = true) :
    turn.Bare := by
  cases resumed with
  | settles | closesPool | breaks | comesBack => exact Turn.bare_of_outcome rfl rfl
  | contains => cases signal <;> exact Turn.bare_of_outcome rfl rfl
  | passes _ _ _ push _ outcome =>
      obtain ⟨reply, told⟩ := outcome
      exact Turn.bare_of_outcome push (told ▸ rfl)
  | helps _ _ runs | drains runs =>
      exact (Source.runNext_bare runs).above (by simp [Frame.loans]) (by simp [isFirst])
  | waitEnds => exact finishWaiting_bare ..
  | performs on | notes on => cases silent.symm.trans on.isSilent
  | handsOver last => rcases last with rfl | ⟨_, rfl⟩ <;> cases silent
  | finishes | ends | unwinds | leaves | sweeps | sweepEnds | works | fallsAsleep | retires =>
      cases silent

theorem resumeBody_over {job : JobId} {label : String} {next : Nat} {ops : List Op}
    {onBatch : Option String} {signal : Signal}
    (covers : w.Covers (rest.flatMap Frame.loans ++ lent))
    (keeps : ¬ w.Snatches (rest.flatMap Frame.loans ++ lent)
      (resumeBody ctx job label next ops onBatch w signal).world) :
    resumeBody ctx job label next ops onBatch (w.withLoans (rest.flatMap Frame.loans ++ lent))
        signal =
      (resumeBody ctx job label next ops onBatch w signal).over rest lent := by
  cases signal with
  | proceed =>
      cases ops with
      | nil => rw [Turn.Bare.over (Turn.bare_of_outcome rfl rfl)]; rfl
      | cons op ops => exact Op.perform_over rfl covers op false keeps
  | returned reply => rw [Turn.Bare.over (Turn.bare_of_frame rfl rfl rfl)]; rfl
  | raised payload => rw [Turn.Bare.over (Turn.bare_of_outcome rfl rfl)]; rfl

theorem giveBack_over (loans : List Loan) :
    (w.withLoans (loans ++ rest.flatMap Frame.loans ++ lent)).giveBack loans =
      (w.giveBack loans).withLoans (rest.flatMap Frame.loans ++ lent) := by
  rw [List.append_assoc]
  exact congrArg ({ w with loans := · }) (Scene.foldl_erase_append loans _)

theorem leaveCall_over {loans : List Loan} {onFailure : OnFailure} {caught : Bool} :
    leaveCall onFailure caught signal
        ((w.withLoans (loans ++ rest.flatMap Frame.loans ++ lent)).giveBack loans) =
      (leaveCall onFailure caught signal (w.giveBack loans)).over rest lent := by
  have bare : (leaveCall onFailure caught signal (w.giveBack loans)).Bare :=
    Turn.bare_of_outcome (congrArg Turn.push (leaveCall_eq ..)) (leaveCall_tells ..)
  rw [bare.over, leaveCall_eq, leaveCall_signal (w.giveBack loans),
    leaveCall_eq _ _ _ (w.giveBack loans), giveBack_over]
  rfl

theorem resumeSweep_over {source : Source} {batch : Option BatchId} {count : Nat}
    (same : ∀ b, (w.withLoans (rest.flatMap Frame.loans ++ lent)).isAwaited b = w.isAwaited b) :
    resumeSweep ctx source batch count (w.withLoans (rest.flatMap Frame.loans ++ lent)) =
      (resumeSweep ctx source batch count w).over rest lent := by
  have awaited : batch.any (w.withLoans (rest.flatMap Frame.loans ++ lent)).isAwaited =
      batch.any w.isAwaited := by
    cases batch <;> simp [same]
  have replied : ∀ reply, (Turn.reply w reply).over rest lent =
      Turn.reply (w.withLoans (rest.flatMap Frame.loans ++ lent)) reply :=
    fun reply => (Turn.bare_reply w reply).over
  unfold resumeSweep
  rw [awaited]
  split
  · exact (replied _).symm
  · split
    · have lends : (w.withLoans (rest.flatMap Frame.loans ++ lent)).lend (shares batch) =
          (w.lend (shares batch)).withLoans
            (shares batch ++ (rest.flatMap Frame.loans ++ lent)) := rfl
      rw [shares] at lends
      rw [lends, Source.runNext_withLoans]
      cases runs : source.runNext ctx (w.lend (batch.toList.map (⟨.batch ·, .share⟩))) with
      | none => exact (replied _).symm
      | some turn =>
          have held := (Source.runNext_bare runs).held (.sweep source batch (count + 1) :: rest)
          simp only [Option.map_some, Turn.over, Turn.above, List.append_assoc,
            List.singleton_append, held]
          simp only [List.flatMap_cons, loans, shares, List.append_assoc]
          rfl
    · exact (replied _).symm

end Frame

/-- With these loans in place of the others, the same is busy: they are of the same batches, and a
pool that is not used any more is needed by a token or a batch. -/
structure World.Exchanges (w : World) (lent lent' : List Loan) : Prop where
  batches : ∀ b hold, ⟨.batch b, hold⟩ ∈ lent ↔ ⟨.batch b, hold⟩ ∈ lent'
  busy : ∀ loan ∈ lent', (∃ other ∈ lent, other.object = loan.object) ∨
    loan.object.isPool ∧ ∀ p, loan.object = .pool p → w.system.dependsOnPool p = true

theorem World.Exchanges.covers {held lent' : List Loan} (exchanges : w.Exchanges lent lent')
    (loans : w.loans = held ++ lent') : w.Covers (held ++ lent) where
  batches b hold := by rw [loans, List.mem_append, List.mem_append, exchanges.batches]
  busy object busy := by
    have used : w.inUse object = true → (w.withLoans (held ++ lent)).inUse object = true ∨
        object.isPool ∧ ∀ p, object = .pool p → w.system.dependsOnPool p = true := by
      rw [World.inUse, World.inUse, loans]
      simp only [List.any_eq_true, decide_eq_true_eq]
      rintro ⟨loan, member, rfl⟩
      rcases List.mem_append.mp member with kept | changed
      · exact .inl ⟨loan, List.mem_append_left _ kept, rfl⟩
      · refine (exchanges.busy loan changed).imp ?_ id
        rintro ⟨other, inside, same⟩
        exact ⟨other, List.mem_append_right _ inside, same⟩
    cases object with
    | pool p =>
        rcases Bool.or_eq_true_iff.mp busy with inUse | needed
        · rcases used inUse with still | ⟨_, needed⟩
          · exact Bool.or_eq_true_iff.mpr (.inl still)
          · exact Bool.or_eq_true_iff.mpr (.inr (needed p rfl))
        · exact Bool.or_eq_true_iff.mpr (.inr needed)
    | commonPool => cases busy
    | token | batch => exact (used busy).resolve_right fun needs => Bool.noConfusion needs.1

variable {frame : Frame} {signal : Signal} {turn : Turn} {lent' : List Loan}

theorem Op.perform_inner (op : Op) (catchAll : Bool) : (op.perform ctx w catchAll).Inner := by
  cases passed : Begun.ofOp ctx w op.uncaught.2 with
  | error =>
      simp only [Op.perform, passed]
      exact (Turn.bare_reply ..).inner
  | ok begun =>
      simp only [Op.perform, passed]
      refine (Begun.ofOp_accepted passed).bare.inner.above fun frame member => ?_
      rw [List.mem_singleton.mp member]
      rfl

namespace Frame

theorem Proceeds.isFirst {frame' : Frame} (on : frame.Proceeds frame') :
    frame'.isFirst = frame.isFirst := by
  cases on with
  | here on => cases on <;> rfl
  | strand => rfl

/-- No turn pushes a frame that threads start with, but that of such a frame. -/
theorem Resumed.inner (resumed : frame.Resumed ctx w signal turn) (inner : frame.isFirst = false) :
    turn.Inner := by
  cases resumed with
  | @performs _ _ _ _ op catchAll on =>
      exact (op.perform_inner catchAll).above (by simpa [on.isFirst] using inner)
  | notes on _ _ push =>
      intro frame member
      rw [push, List.mem_singleton] at member
      rw [member, on.isFirst, inner]
  | sweeps _ runs | helps _ _ runs | drains runs =>
      exact (Source.runNext_bare runs).inner.above (by simp [isFirst])
  | passes _ _ _ push | handsOver _ _ _ push => exact Turn.inner_of_push push
  | waitEnds => exact (finishWaiting_bare ..).inner
  | contains => cases signal <;> exact Turn.inner_of_push rfl
  | ends | unwinds | leaves | settles | sweepEnds | closesPool | breaks | comesBack =>
      exact Turn.inner_of_push rfl
  | finishes | works | fallsAsleep | retires => cases inner

/-- A turn is the same over other loans, unless it takes a name away that these would keep. -/
theorem resume_over (inner : frame.isFirst = false) (exchanges : w.Exchanges lent lent')
    (held : w.loans = heldLoans (frame :: rest) signal ++ lent')
    (keeps : ∀ turn, frame.resume ctx w signal = some turn →
      ¬ w.Snatches (heldLoans (frame :: rest) signal ++ lent) turn.world) :
    frame.resume ctx (w.withLoans (heldLoans (frame :: rest) signal ++ lent)) signal =
      (frame.resume ctx w signal).map (·.over rest lent) := by
  cases silent : frame.isSilent with
  | true =>
      have empty : frame.loans = [] := by cases frame <;> first | rfl | cases silent
      rw [heldLoans_of_empty empty, resume_withLoans silent]
      refine Option.map_congr fun turn turned => ?_
      exact ((resumed turned).bare silent).over.symm
  | false =>
      cases frame with
      | program | cleanup | strand | handOver | worker => cases inner
      | body job label next ops onBatch =>
          have empty : heldLoans (.body job label next ops onBatch :: rest) signal =
              rest.flatMap loans := heldLoans_of_empty rfl
          have covers := exchanges.covers held
          rw [empty] at covers keeps ⊢
          exact congrArg some (resumeBody_over covers (keeps _ rfl))
      | call => exact congrArg some leaveCall_over
      | sweep source batch count =>
          have back : heldLoans (.sweep source batch count :: rest) signal =
                shares batch ++ rest.flatMap loans →
              (w.giveBack (shares batch)).loans = rest.flatMap loans ++ lent' := by
            intro shared
            rw [World.giveBack, held, shared, List.append_assoc]
            exact Scene.foldl_erase_append (shares batch) _
          cases signal with
          | proceed =>
              refine congrArg some (resumeSweep_over fun b => ?_)
              exact Begun.isAwaited_withLoans (exchanges.covers held).batches b
          | returned reply =>
              have exchanges : (w.giveBack (shares batch)).Exchanges lent lent' :=
                ⟨exchanges.batches, exchanges.busy⟩
              have covers := exchanges.covers (back rfl)
              refine congrArg some ((congrArg (resumeSweep ctx source batch count)
                (giveBack_over (shares batch))).trans (resumeSweep_over fun b => ?_))
              exact Begun.isAwaited_withLoans covers.batches b
          | raised payload =>
              have bare : Turn.Bare
                  { world := w.giveBack (shares batch), signal := .raised payload } :=
                Turn.bare_of_outcome rfl rfl
              refine congrArg some (Eq.trans ?_ bare.over.symm)
              exact congrArg (fun w => ({ world := w, signal := .raised payload } : Turn))
                (giveBack_over (shares batch))
      | _ => cases silent

theorem resume_loans (inner : frame.isFirst = false)
    (held : w.loans = heldLoans (frame :: rest) signal ++ lent)
    (turned : frame.resume ctx w signal = some turn) :
    turn.world.loans = heldLoans (turn.push ++ rest) turn.signal ++ lent := by
  have self : w.withLoans (heldLoans (frame :: rest) signal ++ lent) = w := held ▸ rfl
  have exchanges : w.Exchanges lent lent :=
    ⟨fun _ _ => .rfl, fun loan member => .inl ⟨loan, member, rfl⟩⟩
  have same : frame.resume ctx (w.withLoans (heldLoans (frame :: rest) signal ++ lent)) signal =
      (frame.resume ctx w signal).map (·.over rest lent) :=
    resume_over inner exchanges held fun turn _ snatches => by
      obtain ⟨_, _, _, idle, busy, _⟩ := snatches
      rw [self, idle] at busy
      cases busy
  rw [self, turned, Option.map_some, Option.some.injEq] at same
  exact congrArg (·.world.loans) same

end Frame

end

end TaskPool
