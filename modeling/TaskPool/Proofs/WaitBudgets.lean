import TaskPool.Proofs.Executing
import TaskPool.Proofs.Lockstep
import TaskPool.Proofs.WaitProgress

/-!
# Waits with a budget

The loop of a wait stops because the barrier is clear, because its budget is used up, or because
there is no job. It looks at its budget only to see whether it is used up. So two loops with
different budgets run in lockstep until one of them stops, and a loop that stopped without a failure
can be taken up by another one as if it had not been interrupted.
-/

namespace TaskPool

open TaskPool.System

inductive Script where
  | program
  | body (job : JobId) (label : String) (onBatch : Option String)

namespace Script

def frame (script : Script) (next : Nat) (ops : List Op) : Frame :=
  match script with
  | program => .program ops
  | body job label onBatch => .body job label next ops onBatch

def catchesAll : Script → Bool
  | program => true
  | body .. => false

def note (script : Script) (next : Nat) (reply : Reply) (w : World) : Event :=
  match script with
  | program => .answered reply w.snapshot
  | body job label _ => .replied job label next reply

variable {script : Script} {next : Nat} {ops : List Op} {ctx : Context} {w : World}

theorem resume_proceed (script : Script) (next : Nat) (op : Op) (ops : List Op) (ctx : Context)
    (w : World) : ∃ ctx' : Context, ctx'.thread = ctx.thread ∧
    ctx'.batches = ctx.batches ∧ (script.frame next (op :: ops)).resume ctx w .proceed =
      some ((op.perform ctx' w script.catchesAll).above [script.frame next ops]) := by
  cases script with
  | program => exact ⟨{ ctx with topLevel := true }, rfl, rfl, rfl⟩
  | body => exact ⟨ctx, rfl, rfl, rfl⟩

theorem resume_returned {reply : Reply} :
    (script.frame next ops).resume ctx w (.returned reply) =
      some { world := w, events := [script.note next reply w],
             push := [script.frame (next + 1) ops] } := by
  cases script <;> rfl

theorem loans_frame (script : Script) : (script.frame next ops).loans = [] := by
  cases script <;> rfl

theorem batchNames_frame {next' : Nat} {ops' : List Op} (below : List Frame) :
    Frame.batchNames (script.frame next ops :: below) =
      Frame.batchNames (script.frame next' ops' :: below) := by
  cases script <;> rfl

end Script

def Op.waitFor (name : String) (onFailure : OnFailure) : Option Nat → Op
  | none => .wait (.given name) onFailure false
  | some budget => .tryWait (.given name) (.given budget) onFailure

def Goal.ofBudget : Option Nat → Goal
  | none => .wait
  | some _ => .tryWait

theorem Goal.ofBudget_map {f : Nat → Nat} (budget : Option Nat) :
    Goal.ofBudget (budget.map f) = Goal.ofBudget budget := by
  cases budget <;> rfl

theorem Op.waitFor_perform {ctx : Context} {w : World} {name : String} {b : BatchId}
    {budget : Option Nat} (driver : ctx.thread = .driver)
    (named : w.names.find? name = some (.batch b)) (free : w.inUse (.batch b) = false)
    (apart : budget = none → name ∉ ctx.batches) (onFailure : OnFailure) (catchAll : Bool) :
    (Op.waitFor name onFailure budget).perform ctx w catchAll =
      { world := w.lend [⟨.batch b, .exclude⟩]
        push := [.waiting b budget (.ofBudget budget),
          .call [⟨.batch b, .exclude⟩] onFailure catchAll] } := by
  have resolved : w.resolve ctx.thread name = .ok (.batch b) :=
    driver ▸ World.resolve_driver named
  cases budget with
  | some budget =>
      have accepted : Begun.ofOp ctx w (Op.waitFor name onFailure (some budget)) = .ok
          { world := w, push := [.waiting b (some budget) .tryWait],
            loans := [⟨.batch b, .exclude⟩], onFailure } := by
        simp only [Op.waitFor, Begun.ofOp, Begun.tryWait, Arg.require, resolved, Begun.asBatch,
          free, bind, Except.bind]
        rfl
      simp only [Op.perform, Op.waitFor, Op.uncaught]
      rw [Op.waitFor] at accepted
      simp only [accepted]
      rfl
  | none =>
      have apart : ctx.batches.contains name = false := by simpa using apart rfl
      have accepted : Begun.ofOp ctx w (Op.waitFor name onFailure none) = .ok
          { world := w, push := [.waiting b none .wait],
            loans := [⟨.batch b, .exclude⟩], onFailure } := by
        simp only [Op.waitFor, Begun.ofOp, Begun.wait, Arg.require, resolved, Begun.asBatch, free,
          apart, bind, Except.bind, Bool.false_and, Bool.not_false, Bool.or_true]
        rfl
      simp only [Op.perform, Op.waitFor, Op.uncaught]
      rw [Op.waitFor] at accepted
      simp only [accepted]
      rfl

/-- What a wait tells, as a wait with a budget tells it. -/
def Signal.tried : Signal → Signal
  | .returned .finished => .returned (.flag true)
  | signal => signal

namespace Machine

variable {m m' : Machine} {ctx : Context} {b : BatchId} {budget budget' : Option Nat} {goal : Goal}
  {i j turns : Nat} {base base' : List Frame} {past past' : List Event} {outcome : Signal}

/-! ## One round of the loop -/

/-- What the loop of a wait does when it is its turn. -/
inductive Loops (m : Machine) (ctx : Context) (b : BatchId) (budget : Option Nat) : Prop where
  | stops (ended : m.scene.WaitIsOver b budget)
  | helps {turn : Turn} (unclear : (m.world.system.batch b).barrier.isClear = false)
      (left : budget ≠ some 0)
      (ran : (m.world.system.sourceOf b).runNext ctx m.world = some turn)
  | blocked (unlimited : budget = none)
      (stuck : ∀ goal, Frame.resumeWaiting ctx b budget goal m.world = none)

theorem loops (m : Machine) (ctx : Context) (b : BatchId) (budget : Option Nat) :
    m.Loops ctx b budget := by
  by_cases ended : (m.world.system.batch b).barrier.isClear = true ∨ budget = some 0
  · exact .stops (ended.imp_right .inl)
  · obtain ⟨unclear, left⟩ := not_or.mp ended
    cases ran : (m.world.system.sourceOf b).runNext ctx m.world with
    | some turn => exact .helps (Bool.eq_false_iff.mpr unclear) left ran
    | none =>
        cases budget with
        | none =>
            refine .blocked rfl fun goal => ?_
            unfold Frame.resumeWaiting
            rw [if_neg ended, ran]
        | some left => exact .stops (.inr (.inr ⟨nofun, Source.take_of_runNext ran⟩))

theorem waitIsOver_congr (same : m'.world = m.world) (ended : m.scene.WaitIsOver b budget) :
    m'.scene.WaitIsOver b budget := by
  unfold Scene.WaitIsOver at ended ⊢
  rw [show m'.scene.system = m.scene.system from congrArg World.system same]
  exact ended

theorem resumeWaiting_more {left more : Nat} (ended : m.scene.WaitIsOver b (some left)) :
    Frame.resumeWaiting ctx b (some (left + more)) goal m.world =
      Frame.resumeWaiting ctx b (some more) goal m.world := by
  rcases ended with clear | spent | ⟨-, idle⟩
  · rw [resumeWaiting_over (.inl clear), resumeWaiting_over (.inl clear)]
  · rw [Option.some.inj spent, Nat.zero_add]
  · have stops : ∀ spent, m.scene.WaitIsOver b (some spent) :=
      fun spent => .inr (.inr ⟨nofun, idle⟩)
    rw [resumeWaiting_over (stops _), resumeWaiting_over (stops _)]

theorem resumeWaiting_limited (m : Machine) (ctx : Context) (b : BatchId) (left : Nat)
    (goal : Goal) : ∃ turn, Frame.resumeWaiting ctx b (some left) goal m.world = some turn := by
  cases m.loops ctx b (some left) with
  | stops ended => exact ⟨_, resumeWaiting_over ended⟩
  | helps unclear more ran => exact ⟨_, resumeWaiting_helps unclear more ran⟩
  | blocked unlimited => cases unlimited

/-- Next to a loop that could take up where one stopped, a loop that had more to spend than that one
does the same. -/
theorem Paired.more {left more : Nat} (paired : Paired m m' past past')
    (calm : ∀ payload, m.driver.signal ≠ .raised payload)
    (calm' : ∀ payload, m'.driver.signal ≠ .raised payload)
    (top : m.driver.frames = .waiting b (some more) goal :: base)
    (top' : m'.driver.frames = .waiting b (some (left + more)) goal :: base')
    (batches : Frame.batchNames base' = Frame.batchNames base)
    (ended : m.scene.WaitIsOver b (some left)) (alone : (m.run 1).others = []) :
    Twins (m.run 1) (m'.run 1) base base' past past' := by
  obtain ⟨turn, turns⟩ := m.resumeWaiting_limited
    { thread := m.driver.id, batches := Frame.batchNames base } b more goal
  have same : turn.above [] = turn := by simp only [Turn.above, List.append_nil]
  rw [← same] at turns
  have taken := (Frame.resume_waiting calm).trans turns
  have still : (turn.above []).spawn = [] := by
    rw [run_one (step_of_resume top taken)] at alone
    exact (List.append_eq_nil_iff.mp alone).2
  have taken' : (Frame.waiting b (some (left + more)) goal).resume
      { thread := m'.driver.id, batches := Frame.batchNames base' } m'.world m'.driver.signal =
        some (turn.above []) := by
    rw [Frame.resume_waiting calm', paired.world, paired.thread, batches,
      resumeWaiting_more ended]
    exact turns
  exact paired.turned top top' taken taken' still batches

theorem finishes (alone : m.others = []) (calm : ∀ payload, m.driver.signal ≠ .raised payload)
    (top : m.driver.frames = .waiting b budget (.ofBudget budget) :: base)
    (ended : m.scene.WaitIsOver b budget) :
    m.Comes base 1 (.returned ((Goal.ofBudget budget).answer
        (m.world.system.batch b).barrier.isClear (m.world.system.deliver b).1)) ∧
      (m.run 1).world = { m.world with system := (m.world.system.deliver b).2 } ∧
      (m.run 1).history = m.history ++ [.delivered b (m.world.system.deliver b).1] := by
  have asked : Goal.ofBudget budget ≠ .close := by cases budget <;> nofun
  have taken : ∀ ctx, (Frame.waiting b budget (.ofBudget budget)).resume ctx m.world
      m.driver.signal = some (Frame.finishWaiting b (.ofBudget budget) m.world) :=
    fun ctx => (Frame.resume_waiting calm).trans (resumeWaiting_over ended)
  rw [Frame.finishWaiting_eq asked] at taken
  obtain ⟨back, told, still⟩ := run_one_of_reply top (taken _) rfl rfl
  refine ⟨.one alone (still.trans alone) back told, ?_, history_of_turn top (taken _)⟩
  rw [run_one (step_of_resume top (taken _))]

/-! ## Loops in lockstep -/

/-- The loops of two waits for a batch are about to look at it. -/
structure Abreast (m m' : Machine) (b : BatchId) (budget budget' : Option Nat)
    (base base' : List Frame) (past past' : List Event) : Prop
    extends Paired m m' past past' where
  top : m.driver.frames = .waiting b budget (.ofBudget budget) :: base
  top' : m'.driver.frames = .waiting b budget' (.ofBudget budget') :: base'
  calm : ∀ payload, m'.driver.signal ≠ .raised payload
  batches : Frame.batchNames base' = Frame.batchNames base

namespace Abreast

theorem helps (abreast : Abreast m m' b budget budget' base base' past past') (solo : m.Solo)
    {turn : Turn}
    (unclear : (m.world.system.batch b).barrier.isClear = false) (left : budget ≠ some 0)
    (left' : budget' ≠ some 0)
    (ran : (m.world.system.sourceOf b).runNext
      { thread := m.driver.id, batches := Frame.batchNames base } m.world = some turn) :
    base.length + 1 < (m.run 1).height ∧
    Twins (m.run 1) (m'.run 1)
      (.waiting b (budget.map (· - 1)) (.ofBudget budget) :: base)
      (.waiting b (budget'.map (· - 1)) (.ofBudget budget') :: base') past past' := by
  have calm : ∀ payload, m.driver.signal ≠ .raised payload := solo.calm abreast.top
  have taken : (Frame.waiting b budget (.ofBudget budget)).resume
      { thread := m.driver.id
        batches := Frame.batchNames (.waiting b budget (.ofBudget budget) :: base) }
      m.world m.driver.signal =
        some (turn.above [.waiting b (budget.map (· - 1)) (.ofBudget budget)]) :=
    (Frame.resume_waiting calm).trans (resumeWaiting_helps unclear left ran)
  have taken' : (Frame.waiting b budget' (.ofBudget budget')).resume
      { thread := m'.driver.id
        batches := Frame.batchNames (.waiting b budget' (.ofBudget budget') :: base') }
      m'.world m'.driver.signal =
        some (turn.above [.waiting b (budget'.map (· - 1)) (.ofBudget budget')]) := by
    rw [Frame.resume_waiting abreast.calm]
    refine resumeWaiting_helps ?_ left' ?_
    · rw [abreast.world]
      exact unclear
    · rw [abreast.world, abreast.thread]
      exact abreast.batches ▸ ran
  obtain ⟨task, system, _, started⟩ := Source.runNext_eq_some ran solo.sound.scene.filed
  have stepped := run_one (step_of_resume abreast.top taken)
  refine ⟨?_, abreast.turned abreast.top abreast.top' taken taken' (started ▸ rfl) abreast.batches⟩
  rw [stepped, started]
  simp [height, Turn.above, Task.frames]
  omega

theorem not_blocked (top : m.driver.frames = .waiting b budget (.ofBudget budget) :: base)
    (solo : m.Solo) (comes : m.Comes base turns outcome)
    (stuck : Frame.resumeWaiting
      { thread := m.driver.id
        batches := Frame.batchNames (.waiting b budget (.ofBudget budget) :: base) }
      b budget (.ofBudget budget) m.world = none) : False := by
  have blocked := (Frame.resume_waiting (solo.calm top)).trans stuck
  have stepped := step_of_blocked top solo.others blocked
  have sleepless : m.driver.wakesAt? = none := by
    unfold Thread.wakesAt?
    rw [top]
  rw [sleepless] at stepped
  have back := comes.back
  rw [run_stuck stepped, top] at back
  exact absurd (congrArg List.length back) (Nat.succ_ne_self _)

theorem map_sub_sub (budget : Option Nat) (k : Nat) :
    (budget.map (· - 1)).map (· - k) = budget.map (· - (k + 1)) := by
  cases budget with
  | none => rfl
  | some left => simp only [Option.map_some, Nat.sub_sub, Nat.add_comm]

/-- Both loops run the next job, and are about to look at the batch again. -/
theorem round (abreast : Abreast m m' b budget budget' base base' past past') (solo : m.Solo)
    (comes : m.Comes base turns outcome) {turn : Turn}
    (unclear : (m.world.system.batch b).barrier.isClear = false) (left : budget ≠ some 0)
    (left' : budget' ≠ some 0)
    (ran : (m.world.system.sourceOf b).runNext
      { thread := m.driver.id, batches := Frame.batchNames base } m.world = some turn) :
    ∃ i j, turns = i + j ∧ 0 < i ∧ m'.Stays base' i ∧ (m.run i).Solo ∧
      (m.run i).Comes base j outcome ∧
      Abreast (m.run i) (m'.run i) b (budget.map (· - 1)) (budget'.map (· - 1))
        base base' past past' := by
  obtain ⟨high, twins⟩ := abreast.helps solo unclear left left' ran
  obtain ⟨rest, rfl, later⟩ := comes.past_first (Nat.lt_of_succ_lt high)
  have solo' := solo.within comes
  obtain ⟨push, stack, _⟩ := twins.stack
  have above : push ≠ [] := by
    rintro rfl
    rw [height, stack] at high
    exact absurd high (Nat.lt_irrefl _)
  obtain ⟨i, j, told, rfl, span, after⟩ := later.split stack above
  obtain ⟨span', twins'⟩ := twins.comes high span
  have solo'' : ((m.run 1).run i).Solo := solo'.after span.alone
  have low : base'.length < m'.height := by
    rw [height, abreast.top']
    exact Nat.lt_succ_self _
  have stays : (m'.run 1).Stays base' i :=
    .of_comes span' (Nat.lt_of_succ_lt (twins.height.mpr high)) (Nat.lt_succ_self _)
  refine ⟨1 + i, j, (Nat.add_assoc ..).symm, Nat.lt_add_right i Nat.one_pos,
    stays.after_first abreast.alone' low, ?_⟩
  rw [run_add, run_add]
  exact ⟨solo'', after,
    { twins'.toPaired with
      top := by rw [Goal.ofBudget_map]; exact span.back
      top' := by rw [Goal.ofBudget_map]; exact span'.back
      calm := by rw [twins'.signal]; exact solo''.calm span.back
      batches := abreast.batches }⟩

/-- As long as the second loop has something left when the first one has, the loops stay in lockstep
until the first one stops. -/
theorem together (abreast : Abreast m m' b budget budget' base base' past past') (solo : m.Solo)
    (comes : m.Comes base turns outcome)
    (left : ∀ k < turns, budget.map (· - k) ≠ some 0 → budget'.map (· - k) ≠ some 0) :
    ∃ rounds last, turns = last + 1 ∧ (∀ k < rounds, budget.map (· - k) ≠ some 0) ∧
      m'.Stays base' last ∧ (m.run last).scene.WaitIsOver b (budget.map (· - rounds)) ∧
      Abreast (m.run last) (m'.run last) b (budget.map (· - rounds)) (budget'.map (· - rounds))
        base base' past past' := by
  have whole : ∀ budget : Option Nat, budget.map (· - 0) = budget := by simp
  induction turns using Nat.strong_induction_on generalizing m m' budget budget' with
  | _ turns ih =>
      cases m.loops { thread := m.driver.id, batches := Frame.batchNames base } b budget with
      | stops ended =>
          have stops := (finishes solo.others (solo.calm abreast.top) abreast.top ended).1
          obtain ⟨rfl, _⟩ := comes.unique stops
          have low : base'.length < m'.height := by
            rw [height, abreast.top']
            exact Nat.lt_succ_self _
          refine ⟨0, 0, rfl, fun k wrong => absurd wrong (Nat.not_lt_zero k),
            .here abreast.alone' low, ?_⟩
          rw [whole, whole]
          exact ⟨ended, abreast⟩
      | blocked _ stuck => exact absurd (not_blocked abreast.top solo comes (stuck _)) id
      | helps unclear more ran =>
          have more' : budget' ≠ some 0 := by
            have more' := left 0 comes.begun
            rw [whole, whole] at more'
            exact more' more
          obtain ⟨i, j, rfl, begun, stays, solo', after, next⟩ :=
            abreast.round solo comes unclear more more' ran
          obtain ⟨rounds, last, rfl, spent, stays', ended, abreast'⟩ :=
            ih j (Nat.lt_add_of_pos_left begun) next solo' after fun k few => by
              rw [map_sub_sub, map_sub_sub]
              exact left (k + 1) (by omega)
          rw [map_sub_sub] at ended abreast'
          rw [map_sub_sub] at abreast'
          refine ⟨rounds + 1, i + last, (Nat.add_assoc ..).symm, ?_, stays.append stays', ?_⟩
          · intro k few
            cases k with
            | zero => exact (whole budget).symm ▸ more
            | succ k => exact map_sub_sub budget k ▸ spent k (Nat.lt_of_succ_lt_succ few)
          · rw [run_add, run_add]
            exact ⟨ended, abreast'⟩

end Abreast

/-! ## From the script and back to it -/

section

variable {script : Script} {next : Nat} {rest : List Op} {below : List Frame} {name : String}
  {onFailure : OnFailure} {caught : Bool} {loans : List Loan}

/-- The driver thread carries out these operations next, and the batch of this name is not in
use. -/
structure Asking (m : Machine) (script : Script) (next : Nat) (ops : List Op) (below : List Frame)
    (name : String) (b : BatchId) : Prop where
  driver : m.driver.id = .driver
  top : m.driver.frames = script.frame next ops :: below
  proceed : m.driver.signal = .proceed
  named : m.world.names.find? name = some (.batch b)
  free : m.world.inUse (.batch b) = false

def withStack (frames : List Frame) (m : Machine) : Machine :=
  { m with driver := { m.driver with frames } }

theorem Asking.withStack {ops : List Op} (asks : m.Asking script next ops below name b)
    (ops' : List Op) :
    (m.withStack (script.frame next ops' :: below)).Asking script next ops' below name b :=
  { asks with top := rfl }

theorem starts (asks : m.Asking script next (.waitFor name onFailure budget :: rest) below name b)
    (apart : budget = none → name ∉ Frame.batchNames m.driver.frames) :
    m.run 1 =
      { m with
        world := m.world.lend [⟨.batch b, .exclude⟩]
        driver := { m.driver with
          frames := .waiting b budget (.ofBudget budget) ::
            .call [⟨.batch b, .exclude⟩] onFailure script.catchesAll ::
              script.frame next rest :: below } } := by
  obtain ⟨ctx, thread, batches, resumes⟩ := script.resume_proceed next
    (.waitFor name onFailure budget) rest
    { thread := m.driver.id, batches := Frame.batchNames m.driver.frames } m.world
  rw [Op.waitFor_perform (thread.trans asks.driver) asks.named asks.free (batches ▸ apart)]
    at resumes
  rw [asks.top] at resumes
  have taken :=
    (congrArg (fun signal => Frame.resume _ m.world signal _) asks.proceed).trans resumes
  rw [run_one (step_of_resume asks.top taken)]
  simp only [Turn.above, List.cons_append, List.nil_append, List.append_nil, asks.proceed]
  rfl

theorem ends (alone : m.others = []) (calm : ∀ payload, m.driver.signal ≠ .raised payload)
    (top : m.driver.frames =
      .waiting b budget (.ofBudget budget) :: .call loans onFailure caught :: base)
    (ended : m.scene.WaitIsOver b budget) :
    m.Comes base 2 (Frame.leaveCall onFailure caught
        (.returned ((Goal.ofBudget budget).answer (m.world.system.batch b).barrier.isClear
          (m.world.system.deliver b).1)) m.world).signal ∧
      (m.run 2).world =
        World.giveBack loans { m.world with system := (m.world.system.deliver b).2 } ∧
      (m.run 2).history = m.history ++ [.delivered b (m.world.system.deliver b).1] := by
  obtain ⟨out, world, history⟩ := finishes alone calm top ended
  obtain ⟨back, told, still, world', history'⟩ := run_one_leave out.back
  rw [out.outcome, Frame.leaveCall_signal m.world] at told
  rw [← run_add] at back told still world' history'
  refine ⟨out.pop (still.trans (out.alone 1 (Nat.le_refl 1))) back told, ?_, ?_⟩
  · rw [world', world]
  · rw [history', history]

theorem Solo.keeps_name (solo : m.Solo) (stays : m.Stays base turns) {push : List Frame}
    (stack : m.driver.frames = push ++ base) (member : .call loans onFailure caught ∈ base)
    {loan : Loan} (held : loan ∈ loans) (found : m.world.names.find? name = some loan.object) :
    (m.run turns).world.names.find? name = some loan.object := by
  induction turns with
  | zero => exact found
  | succ turns ih =>
      have shorter : m.Stays base turns :=
        { alone := stays.alone.le (Nat.le_succ turns)
          above := fun k few => stays.above k (Nat.le_succ_of_le few) }
      have before := ih shorter
      obtain ⟨above, there⟩ := keeps_below stack
        fun k less => shorter.above k (Nat.le_of_lt less)
      have solo' := solo.after shorter.alone
      have lent := (Scene.held_nameable solo'.sound.scene.registry solo'.sound.scene.custody
        (show .call loans onFailure caught ∈ (m.run turns).scene.frames by
          rw [show (m.run turns).scene.frames = _ from there]
          exact List.mem_append_right _ member) loan held).1
      have turned := solo'.turned stays.alone.later
      rw [← run_add] at turned
      rcases turned with same | moves
      · have names : (m.run (turns + 1)).world.names = _ := congrArg Scene.names same
        rw [names]
        exact before
      · exact moves.keeps_name before lent

theorem Solo.loans_of_wait (solo : m.Solo) {n : Machine} (solo' : n.Solo) {ops ops' : List Op}
    {next' : Nat} (top : m.driver.frames = script.frame next ops :: below)
    (top' : n.driver.frames = .waiting b budget goal ::
      .call [⟨.batch b, .exclude⟩] onFailure caught :: script.frame next' ops' :: below) :
    n.world.loans = ⟨.batch b, .exclude⟩ :: m.world.loans := by
  have held : m.world.loans = heldLoans m.driver.frames m.driver.signal :=
    solo.sound.scene.custody.loans
  have held' : n.world.loans = heldLoans n.driver.frames n.driver.signal :=
    solo'.sound.scene.custody.loans
  rw [held, held', top, top', heldLoans_of_empty script.loans_frame, heldLoans_of_empty rfl]
  simp only [List.flatMap_cons, script.loans_frame]
  rfl

theorem Solo.starts_abreast (solo : m.Solo) {other : Machine} {rest' : List Op}
    {onFailure' : OnFailure}
    (asks : m.Asking script next (.waitFor name onFailure budget :: rest) below name b)
    (apart : budget = none ∨ budget' = none → name ∉ Frame.batchNames m.driver.frames)
    (alike : other = m.withStack
      (script.frame next (.waitFor name onFailure' budget' :: rest') :: below)) :
    Abreast (m.run 1) (other.run 1) b budget budget'
      (.call [⟨.batch b, .exclude⟩] onFailure script.catchesAll :: script.frame next rest :: below)
      (.call [⟨.batch b, .exclude⟩] onFailure' script.catchesAll ::
        script.frame next rest' :: below)
      m.history m.history := by
  subst alike
  have same : Frame.batchNames (script.frame next (.waitFor name onFailure' budget' :: rest') ::
      below) = Frame.batchNames m.driver.frames := by
    rw [asks.top]
    exact Script.batchNames_frame below
  rw [starts asks fun unlimited => apart (.inl unlimited),
    starts (asks.withStack _) fun unlimited => same ▸ apart (.inr unlimited)]
  exact
    { world := rfl
      thread := rfl
      alone := solo.others
      alone' := solo.others
      news := ⟨[], (List.append_nil _).symm, (List.append_nil _).symm⟩
      top := rfl
      top' := rfl
      calm := fun payload raised => nomatch asks.proceed.symm.trans raised
      batches := Script.batchNames_frame below }

theorem leaveCall_tried {failure : Option Failure} (w : World) :
    (Frame.leaveCall onFailure caught (.returned (Goal.wait.answer true failure)) w).signal.tried =
      (Frame.leaveCall onFailure caught
        (.returned (Goal.tryWait.answer true failure)) w).signal := by
  cases failure with
  | none => rfl
  | some failure =>
      cases onFailure with
      | report => rfl
      | rethrow | raiseFailure | raiseText => cases caught <;> rfl

theorem Solo.stops (solo : m.Solo) {other : Machine} {rest' : List Op} {onFailure' : OnFailure}
    (asks : m.Asking script next (.waitFor name onFailure budget :: rest) below name b)
    (apart : budget = none ∨ budget' = none → name ∉ Frame.batchNames m.driver.frames)
    (alike : other = m.withStack
      (script.frame next (.waitFor name onFailure' budget' :: rest') :: below))
    (comes : m.Comes (script.frame next rest :: below) turns outcome)
    (left : ∀ k < turns, budget.map (· - k) ≠ some 0 → budget'.map (· - k) ≠ some 0) :
    ∃ rounds last, turns = last + 2 ∧ (∀ k < rounds, budget.map (· - k) ≠ some 0) ∧
      (m.run last).scene.WaitIsOver b (budget.map (· - rounds)) ∧
      (m.run last).world.names.find? name = some (.batch b) ∧
      (∀ j told, (other.run last).Comes (script.frame next rest' :: below) j told →
        other.Comes (script.frame next rest' :: below) (last + j) told) ∧
      Abreast (m.run last) (other.run last) b (budget.map (· - rounds)) (budget'.map (· - rounds))
        (.call [⟨.batch b, .exclude⟩] onFailure script.catchesAll ::
          script.frame next rest :: below)
        (.call [⟨.batch b, .exclude⟩] onFailure' script.catchesAll ::
          script.frame next rest' :: below)
        m.history m.history := by
  have abreast := solo.starts_abreast asks apart alike
  have high : (script.frame next rest :: below).length + 1 < (m.run 1).height := by
    rw [height, abreast.top]
    exact Nat.lt_succ_self _
  obtain ⟨n, rfl, after⟩ := comes.past_first (Nat.lt_of_succ_lt high)
  have solo₁ := solo.within comes
  obtain ⟨i, j, told, rfl, through, _⟩ := after.split
    (show (m.run 1).driver.frames = [_] ++ _ :: _ from abreast.top) (List.cons_ne_nil _ _)
  obtain ⟨rounds, last, rfl, spent, stays, ended, there⟩ := abreast.together solo₁ through
    fun k few => left k (by omega)
  have stays₁ : (m.run 1).Stays _ last := .of_last through high
  have solo₂ : ((m.run 1).run last).Solo := solo₁.after stays₁.alone
  have other_high : (script.frame next rest' :: below).length < (other.run 1).height := by
    rw [height, abreast.top']
    simp only [List.length_cons]
    omega
  have named₁ : (m.run 1).world.names.find? name = some (.batch b) := by
    rw [starts asks fun unlimited => apart (.inl unlimited)]
    exact asks.named
  have named₂ := solo₁.keeps_name stays₁
    (show (m.run 1).driver.frames = [_] ++ _ from abreast.top) List.mem_cons_self
    List.mem_cons_self named₁
  have whole : (m.run 1).Comes (script.frame next rest :: below) (last + 2) _ :=
    (show (m.run 1).Stays ([_] ++ (script.frame next rest :: below)) last from stays₁).lower.comes
      (ends solo₂.others (solo₂.calm there.top) there.top ended).1
  have same := after.unique whole
  refine ⟨rounds, 1 + last, by omega, spent, ?_⟩
  rw [run_add, run_add]
  refine ⟨ended, named₂, ?_, there⟩
  intro j told after
  have alone : other.others = [] := by
    rw [alike]
    exact solo.others
  have lower : (other.run 1).Stays ([_] ++ (script.frame next rest' :: below)) last := stays
  rw [Nat.add_assoc]
  exact (lower.lower.comes after).after_first alone other_high

/-- A wait with a large budget does what a wait does. -/
theorem Solo.tried_wait (solo : m.Solo)
    (asks : m.Asking script next (.waitFor name onFailure none :: rest) below name b)
    (apart : name ∉ Frame.batchNames m.driver.frames)
    (comes : m.Comes (script.frame next rest :: below) turns outcome) {k : Nat}
    (enough : turns ≤ k) :
    let tried := m.withStack (script.frame next (.waitFor name onFailure (some k) :: rest) :: below)
    tried.Comes (script.frame next rest :: below) turns outcome.tried ∧
      (tried.run turns).world = (m.run turns).world ∧
      (tried.run turns).history = (m.run turns).history := by
  intro tried
  obtain ⟨rounds, last, rfl, _, ended, _, later, there⟩ := solo.stops asks
    (fun _ => apart) (show tried = _ from rfl) comes fun q few _ spent => by
      have spent : k - q = 0 := Option.some.inj spent
      omega
  have solo' := solo.within comes
  have clear : ((m.run last).world.system.batch b).barrier.isClear = true := by
    rcases ended with clear | spent | ⟨limited, _⟩
    · exact clear
    · cases spent
    · exact absurd rfl limited
  have ended' : (tried.run last).scene.WaitIsOver b ((some k).map (· - rounds)) :=
    waitIsOver_congr there.world (.inl clear)
  obtain ⟨out, world, history⟩ := ends solo'.others (solo'.calm there.top) there.top ended
  obtain ⟨out', world', history'⟩ := ends there.alone' there.calm there.top' ended'
  rw [← run_add] at world history world' history'
  rw [there.world] at out' world' history'
  rw [clear] at out out'
  obtain ⟨_, rfl⟩ := (comes.later (Nat.succ_pos 1)).unique out
  refine ⟨?_, world'.trans world.symm, ?_⟩
  · rw [show Goal.ofBudget (none.map (· - rounds)) = .wait from rfl, leaveCall_tried]
    exact later 2 _ out'
  · obtain ⟨new, past, past'⟩ := there.news
    rw [history, history', past, past']

theorem run_one_note {ops : List Op} {reply : Reply}
    (top : m.driver.frames = script.frame next ops :: below)
    (told : m.driver.signal = .returned reply) :
    m.run 1 =
      { m with
        driver := { m.driver with
          frames := script.frame (next + 1) ops :: below, signal := .proceed }
        journal := ⟨m.driver.id, script.note next reply m.world⟩ :: m.journal } := by
  have taken := (congrArg (fun signal => (script.frame next ops).resume
    { thread := m.driver.id, batches := Frame.batchNames (script.frame next ops :: below) }
    m.world signal) told).trans script.resume_returned
  rw [run_one (step_of_resume top taken)]
  simp only [List.append_nil]
  rfl

theorem leaveCall_flag {reply : Reply} {w : World} {told : Bool}
    (tells : .returned (.flag told) =
      (Frame.leaveCall onFailure caught (.returned reply) w).signal) : reply = .flag told := by
  cases reply with
  | failed failure => cases onFailure <;> cases caught <;> cases tells
  | _ => exact (Signal.returned.inj tells).symm

theorem pauses {ops : List Op} {told : Bool} (alone : m.others = [])
    (calm : ∀ payload, m.driver.signal ≠ .raised payload)
    (top : m.driver.frames = .waiting b budget (.ofBudget budget) ::
      .call loans onFailure caught :: script.frame next ops :: below)
    (ended : m.scene.WaitIsOver b budget)
    (comes : m.Comes (script.frame next ops :: below) 2 (.returned (.flag told))) :
    (m.run 2).history = m.history ++ [.delivered b none] ∧
      (m.run 2).world = World.giveBack loans m.world := by
  obtain ⟨out, world, history⟩ := ends alone calm top ended
  obtain ⟨_, nothing⟩ := Goal.answer_flag (leaveCall_flag (comes.unique out).2)
  rw [nothing] at history
  rw [deliver_nothing nothing] at world
  exact ⟨history, world⟩

/-- A wait that begins where the loop of another one would stop, which has more to spend, does from
its first round on what the other one goes on to do. -/
theorem takes_up {left c next' : Nat} {rest' : List Op}
    (asks : m.Asking script next (.waitFor name onFailure (some c) :: rest) below name b)
    (comes : m.Comes (script.frame next rest :: below) turns outcome)
    (world : m'.world = m.world.lend [⟨.batch b, .exclude⟩])
    (thread : m'.driver.id = m.driver.id) (alone' : m'.others = [])
    (calm' : ∀ payload, m'.driver.signal ≠ .raised payload)
    (top' : m'.driver.frames = .waiting b (some (left + c)) .tryWait ::
      .call [⟨.batch b, .exclude⟩] onFailure script.catchesAll ::
        script.frame next' rest' :: below)
    (ended : m'.scene.WaitIsOver b (some left)) :
    ∃ new k, m'.Comes (script.frame next' rest' :: below) k outcome ∧
      (m'.run k).world = (m.run turns).world ∧
      (m.run turns).history = m.history ++ new ∧ (m'.run k).history = m'.history ++ new := by
  have begun := starts asks fun unlimited => by cases unlimited
  have top₁ : (m.run 1).driver.frames = .waiting b (some c) .tryWait ::
      .call [⟨.batch b, .exclude⟩] onFailure script.catchesAll ::
        script.frame next rest :: below := by
    rw [begun]
    rfl
  have high : (script.frame next rest :: below).length < (m.run 1).height := by
    rw [height, top₁]
    exact Nat.lt_succ_of_lt (Nat.lt_succ_self _)
  obtain ⟨n, rfl, after⟩ := comes.past_first high
  have paired : Paired (m.run 1) m' m.history m'.history := by
    rw [begun]
    exact
      { world := world
        thread := thread
        alone := comes.alone 0 (Nat.zero_le _)
        alone' := alone'
        news := ⟨[], (List.append_nil _).symm, (List.append_nil _).symm⟩ }
  have calm : ∀ payload, (m.run 1).driver.signal ≠ .raised payload := by
    intro payload raised
    rw [begun] at raised
    cases asks.proceed.symm.trans raised
  have twins := paired.more calm calm' top₁ top' (Script.batchNames_frame below)
    (waitIsOver_congr paired.world.symm ended)
    (after.alone 1 after.begun)
  have lower : Twins ((m.run 1).run 1) (m'.run 1) (script.frame next rest :: below)
      (script.frame next' rest' :: below) m.history m'.history :=
    (show Twins _ _ ([_] ++ _ :: below) ([_] ++ _ :: below) _ _ from twins).lower
      (Script.batchNames_frame below)
  obtain ⟨out, last⟩ := lower.comes_of_first alone' after
  obtain ⟨new, news, news'⟩ := last.news
  rw [← run_add] at news
  have world' := last.world
  rw [← run_add] at world'
  exact ⟨new, n, out, world', news, news'⟩

/-- A wait with a budget, and another one after it, do what one wait does that has both budgets to
spend. -/
theorem Solo.tried_again (solo : m.Solo) {a c : Nat} {onFailure' : OnFailure} {told : Bool}
    (asks : m.Asking script next
      (.waitFor name onFailure' (some a) :: .waitFor name onFailure (some c) :: rest) below name b)
    (first : m.Comes (script.frame next (.waitFor name onFailure (some c) :: rest) :: below) i
      (.returned (.flag told)))
    (second : (m.run (i + 1)).Comes (script.frame (next + 1) rest :: below) j outcome) :
    let tried := m.withStack
      (script.frame next (.waitFor name onFailure (some (a + c)) :: rest) :: below)
    ∃ turns before after,
      (m.run i).history = m.history ++ before ++ [.delivered b none] ∧
      (m.run (i + 1)).history =
        (m.run i).history ++ [script.note next (.flag told) (m.run i).world] ∧
      (m.run (i + 1 + j)).history = (m.run (i + 1)).history ++ after ∧
      tried.Comes (script.frame next rest :: below) turns outcome ∧
      (tried.run turns).world = (m.run (i + 1 + j)).world ∧
      (tried.run turns).history = m.history ++ before ++ after := by
  intro tried
  obtain ⟨rounds, last, rfl, spent, ended, named', later, there⟩ := solo.stops asks
    (by rintro (wrong | wrong) <;> cases wrong) (show tried = _ from rfl) first
    fun q _ more wrong => more (by
      have wrong : a + c - q = 0 := Option.some.inj wrong
      exact congrArg some (show a - q = 0 by omega))
  -- between the two waits the batch is given back, the answer is noted, and nothing else happens
  have solo' := solo.within first
  have loans := solo.loans_of_wait solo' asks.top there.top
  obtain ⟨history, world⟩ := pauses solo'.others (solo'.calm there.top) there.top ended
    (first.later (Nat.succ_pos 1))
  have noted := run_one_note first.back first.outcome
  rw [← run_add] at history world noted
  have held : (m.run (last + 2 + 1)).world =
      World.giveBack [⟨.batch b, .exclude⟩] (m.run last).world := by
    rw [noted]
    exact world
  have loans' : (m.run (last + 2 + 1)).world.loans = m.world.loans := by
    rw [held]
    simp [World.giveBack, loans]
  have whole : (m.run last).world =
      (m.run (last + 2 + 1)).world.lend [⟨.batch b, .exclude⟩] := by
    rw [World.lend, loans', List.singleton_append, ← loans, held]
    rfl
  -- the loop with both budgets stands where the first wait stopped, with what is left to spend
  have few : rounds ≤ a := by
    refine Nat.le_of_not_lt fun more => spent a more ?_
    simp
  have top' : (tried.run last).driver.frames = .waiting b (some (a - rounds + c)) .tryWait ::
      .call [⟨.batch b, .exclude⟩] onFailure script.catchesAll ::
        script.frame next rest :: below := by
    rw [there.top', show a - rounds + c = a + c - rounds by omega]
    rfl
  have ended' : (tried.run last).scene.WaitIsOver b (some (a - rounds)) :=
    waitIsOver_congr there.world ended
  have asks' : (m.run (last + 2 + 1)).Asking script (next + 1)
      (.waitFor name onFailure (some c) :: rest) below name b :=
    { driver := by
        rw [noted]
        exact (solo.after first.alone).driver
      top := by rw [noted]
      proceed := by rw [noted]
      named := by
        rw [held]
        exact named'
      free := by
        rw [World.inUse, loans']
        exact asks.free }
  have thread : (tried.run last).driver.id = (m.run (last + 2 + 1)).driver.id := by
    rw [there.thread, solo'.driver, asks'.driver]
  obtain ⟨new, k, out', world', history', tried'⟩ := takes_up asks' second
    (there.world.trans whole) thread there.alone' there.calm top' ended'
  obtain ⟨before, past, past'⟩ := there.news
  refine ⟨last + k, before, new, ?_, ?_, ?_, later k outcome out', ?_, ?_⟩
  · rw [history, past]
  · rw [noted]
    simp only [Machine.history, List.reverse_cons, List.map_append, List.map_cons, List.map_nil]
  · rw [← run_add] at history'
    exact history'
  · rw [run_add, world', ← run_add]
  · rw [run_add, tried', past']

/-- Two waits with budgets in a row do what one wait does that has both budgets to spend, but for
the answer of the first one. A wait without a budget does what any wait does whose budget is large
enough. -/
theorem Solo.try_waits_add_up (solo : m.Solo) (proceed : m.driver.signal = .proceed)
    (named : m.world.names.find? name = some (.batch b))
    (free : m.world.inUse (.batch b) = false) :
    (∀ {a c i j told outcome onFailure onFailure'},
      m.driver.frames = script.frame next
        (.tryWait (.given name) (.given a) onFailure ::
          .tryWait (.given name) (.given c) onFailure' :: rest) :: below →
      m.Comes
        (script.frame next (.tryWait (.given name) (.given c) onFailure' :: rest) :: below) i
        (.returned (.flag told)) →
      (m.run (i + 1)).Comes (script.frame (next + 1) rest :: below) j outcome →
      let joined := m.withStack
        (script.frame next (.tryWait (.given name) (.given (a + c)) onFailure' :: rest) :: below)
      ∃ turns before after,
        (m.run i).history = m.history ++ before ++ [.delivered b none] ∧
        (m.run (i + 1)).history =
          (m.run i).history ++ [script.note next (.flag told) (m.run i).world] ∧
        (m.run (i + 1 + j)).history = (m.run (i + 1)).history ++ after ∧
        joined.Comes (script.frame next rest :: below) turns outcome ∧
        (joined.run turns).world = (m.run (i + 1 + j)).world ∧
        (joined.run turns).history = m.history ++ before ++ after) ∧
    (∀ {turns outcome onFailure},
      m.driver.frames =
        script.frame next (.wait (.given name) onFailure false :: rest) :: below →
      name ∉ Frame.batchNames m.driver.frames →
      m.Comes (script.frame next rest :: below) turns outcome →
      ∀ k, turns ≤ k →
        let tried := m.withStack
          (script.frame next (.tryWait (.given name) (.given k) onFailure :: rest) :: below)
        tried.Comes (script.frame next rest :: below) turns outcome.tried ∧
          (tried.run turns).world = (m.run turns).world ∧
          (tried.run turns).history = (m.run turns).history) := by
  refine ⟨?_, ?_⟩
  · intro a c i j told outcome onFailure onFailure' top first second
    exact solo.tried_again ⟨solo.driver, top, proceed, named, free⟩ first second
  · intro turns outcome onFailure top apart comes k enough
    exact solo.tried_wait ⟨solo.driver, top, proceed, named, free⟩ apart comes enough

/-- A batch has three jobs, of which the second one panics, and is about to be waited for with these
budgets, one after the other. -/
def errands (budgets : List (Option Nat)) : Machine :=
  (Machine.load [] .plain ([.pool (.given "p") (.given 0) .missing .missing .missing,
    .batch (.given "s") (.given "p") .missing (.given false),
    .schedule (.given "s") (.given (.own "one" [])) (.given .forced) .missing,
    .schedule (.given "s") (.given (.own "bad" [.panic (.given (.fixedText "boom"))]))
      (.given .forced) .missing,
    .schedule (.given "s") (.given (.own "two" [])) (.given .forced) .missing] ++
    budgets.map (Op.waitFor "s" .report))).run 15

/-- Of the three jobs, the first of two waits runs one and the second one the others, and tells the
panic; so does a wait that may run three jobs, and one that may run as many as there are turns. -/
theorem errands_add_up :
    let panics : Signal := .returned (.failed (Failure.ofPayload (.fixedText "boom")))
    ((errands [some 1, some 2]).Solo ∧ (errands [some 1, some 2]).driver.signal = .proceed ∧
      (errands [some 1, some 2]).world.names.find? "s" = some (.batch ⟨0⟩) ∧
      (errands [some 1, some 2]).world.inUse (.batch ⟨0⟩) = false ∧
      (errands [some 1, some 2]).driver.frames =
        Script.program.frame 0 [.waitFor "s" .report (some 1), .waitFor "s" .report (some 2)] ::
          [.cleanup] ∧
      (errands [some 1, some 2]).Comes
        (Script.program.frame 0 [.waitFor "s" .report (some 2)] :: [.cleanup]) 7
        (.returned (.flag false)) ∧
      ((errands [some 1, some 2]).run 8).Comes (Script.program.frame 1 [] :: [.cleanup]) 13 panics ∧
      ∃ turns, ((errands [some 1, some 2]).withStack
        (Script.program.frame 0 [.waitFor "s" .report (some 3)] :: [.cleanup])).Comes
          (Script.program.frame 0 [] :: [.cleanup]) turns panics) ∧
    (errands [none]).Solo ∧ (errands [none]).driver.signal = .proceed ∧
      (errands [none]).world.names.find? "s" = some (.batch ⟨0⟩) ∧
      (errands [none]).world.inUse (.batch ⟨0⟩) = false ∧
      (errands [none]).driver.frames =
        Script.program.frame 0 [.waitFor "s" .report none] :: [.cleanup] ∧
      "s" ∉ Frame.batchNames (errands [none]).driver.frames ∧
      (errands [none]).Comes (Script.program.frame 0 [] :: [.cleanup]) 17 panics ∧
      ∀ k, 17 ≤ k →
        ((errands [none]).withStack
          (Script.program.frame 0 [.waitFor "s" .report (some k)] :: [.cleanup])).Comes
            (Script.program.frame 0 [] :: [.cleanup]) 17 panics := by
  intro panics
  have solo : (errands [some 1, some 2]).Solo := (Solo.load [] .plain _).run 15 (by decide)
  have solo' : (errands [none]).Solo := (Solo.load [] .plain _).run 15 (by decide)
  have named : (errands [some 1, some 2]).world.names.find? "s" = some (.batch ⟨0⟩) := rfl
  have named' : (errands [none]).world.names.find? "s" = some (.batch ⟨0⟩) := rfl
  have top : (errands [some 1, some 2]).driver.frames =
    Script.program.frame 0 [.waitFor "s" .report (some 1), .waitFor "s" .report (some 2)] ::
      [.cleanup] := rfl
  have top' : (errands [none]).driver.frames =
    Script.program.frame 0 [.waitFor "s" .report none] :: [.cleanup] := rfl
  have alone : ∀ k ≤ 21, ((errands [some 1, some 2]).run k).others.isEmpty = true := by decide
  have first : (errands [some 1, some 2]).Comes
      (Script.program.frame 0 [.waitFor "s" .report (some 2)] :: [.cleanup]) 7
      (.returned (.flag false)) :=
    comes_of_run (m := errands [some 1, some 2]) (i := 0) (by decide)
      (fun k few => alone k (by omega)) rfl (by decide) rfl
  have second : ((errands [some 1, some 2]).run 8).Comes
      (Script.program.frame 1 [] :: [.cleanup]) 13 panics :=
    comes_of_run (by decide) alone rfl (by decide) rfl
  have comes : (errands [none]).Comes (Script.program.frame 0 [] :: [.cleanup]) 17 panics :=
    comes_of_run (m := errands [none]) (i := 0) (by decide) (by decide) rfl (by decide) rfl
  obtain ⟨turns, _, _, _, _, _, joined, _⟩ :=
    (Solo.try_waits_add_up solo rfl named (by decide)).1 top first second
  have tried := (Solo.try_waits_add_up solo' rfl named' (by decide)).2 top' (by decide) comes
  exact ⟨⟨solo, rfl, named, by decide, top, first, second, turns, joined⟩, solo', rfl, named',
    by decide, top', by decide, comes, fun k enough => (tried k enough).1⟩

end

end Machine

end TaskPool
