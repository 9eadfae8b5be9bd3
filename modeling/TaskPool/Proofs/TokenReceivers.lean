import TaskPool.Proofs.Admission
import TaskPool.Proofs.FixedAttributes
import TaskPool.Proofs.LoanExchange

/-!
# Asking another pool through a token

A task that is submitted through a token enters the pool that issued the token, and that pool alone
decides about it. Which pool was asked shows in a warning and in what the operation holds until it
returns; so two submissions that differ in the pool that is asked go the same way, as long as nobody
drops a pool that only one of them holds. A job that is run through a token comes from the lane of
the token, and while the lane is empty it makes no difference that a token was named.
-/

namespace TaskPool

open TaskPool.System

namespace System

variable {s : System Work} {p q : PoolId} {t : TokenId} {forced : Bool} {work : Work}

/-- The warning about a token that another pool issued than the one that is asked. -/
def strayed (s : System Work) (p : PoolId) (t : TokenId) : List Notice :=
  if p = (s.token t).pool then []
  else [.foreignToken t (s.pool p).name (s.pool (s.token t).pool).name]

theorem strayed_line (s : System Work) (p : PoolId) (t : TokenId) :
    (s.strayed p t).map (·.line) = if p = (s.token t).pool then [] else
      [⟨.warn, "Producer token from another pool, queueing there.",
        [("pool_name", .text (s.pool p).name),
          ("token_pool", .text (s.pool (s.token t).pool).name)]⟩] := by
  unfold strayed
  split
  · rfl
  · rw [List.map_cons, List.map_nil, Notice.line_foreignToken]

/-- Whichever pool is asked, the pool that issued the token decides what becomes of the work. Only
queued work is worth a warning. -/
theorem submit_token (s : System Work) (p : PoolId) (t : TokenId) (forced : Bool) (work : Work) :
    let made := s.submit (.token (s.token t).pool t forced) work
    made.route.runsNow = true ∧ s.submit (.token p t forced) work = made ∨
      made.route.runsNow = false ∧ made.notices = [] ∧
        s.submit (.token p t forced) work = { made with notices := s.strayed p t } := by
  intro made
  have queued : (s.submit (.token (s.token t).pool t true) work).notices = [] := if_pos rfl
  cases forced with
  | true => exact .inr ⟨rfl, queued, rfl⟩
  | false =>
      by_cases full : (s.pool (s.token t).pool).isSaturated = true
      · have turnedAway : ∀ q, s.submit (.token q t false) work =
            ({ s with submissions := s.submissions + 1 } : System Work).turnAway (s.token t).pool
              ⟨⟨s.submissions⟩, none, work⟩ := fun _ => if_pos full
        exact .inl ⟨by rw [show made = _ from turnedAway _]; rfl,
          (turnedAway p).trans (turnedAway _).symm⟩
      · have enters : ∀ q, s.submit (.token q t false) work = s.submit (.token q t true) work :=
          fun _ => if_neg full
        rw [show made = _ from enters _, enters p]
        exact .inr ⟨rfl, queued, rfl⟩

theorem take_of_empty (empty : (s.pool (s.token t).pool).waitingIn t = [])
    (once : ((s.pool (s.token t).pool).lanes.map (·.token)).Nodup) (p : PoolId) :
    s.take (.lane p t) = s.take (.pool p) := by
  have none : (s.pool (s.token t).pool).popLane t = .none := by
    rw [← Option.not_isSome_iff_eq_none, Pool.popLane_isSome once]
    exact not_not.mpr empty
  simp only [take, none]

theorem take_of_waiting {job : Job Work} {jobs : List (Job Work)}
    (waiting : (s.pool (s.token t).pool).waitingIn t = job :: jobs)
    (once : ((s.pool (s.token t).pool).lanes.map (·.token)).Nodup) (p : PoolId) :
    ∃ rest, (s.pool (s.token t).pool).Loses (.lane t) job rest ∧
      s.take (.lane p t) = some (job, s.modifyPool (s.token t).pool fun _ => rest) := by
  have found : ((s.pool (s.token t).pool).popLane t).isSome :=
    (Pool.popLane_isSome once).mpr (waiting ▸ List.cons_ne_nil _ _)
  obtain ⟨⟨first, rest⟩, taken⟩ := Option.isSome_iff_exists.mp found
  have loses := Pool.loses_of_popLane taken
  obtain ⟨_, front⟩ | ⟨other, _⟩ := loses.queue once (.lane t)
  · obtain ⟨rfl, _⟩ := List.cons.inj (waiting.symm.trans front)
    exact ⟨rest, loses, by simp only [take, taken]⟩
  · exact absurd rfl other

end System

/-! ## Operations that ask another pool -/

def Op.asking (name : String) : Op → Op
  | .catching op => .catching (op.asking name)
  | .schedule _ task via other => .schedule (.given name) task via other
  | op => op

def Op.tokenless : Op → Op
  | .catching op => .catching op.tokenless
  | .exec on _ => .exec on .missing
  | op => op

theorem Op.asking_uncaught (name : String) (op : Op) :
    (op.asking name).uncaught.1 = op.uncaught.1 := by
  cases op <;> rfl

theorem Op.tokenless_uncaught (op : Op) : op.tokenless.uncaught.1 = op.uncaught.1 := by
  cases op <;> rfl

section

variable {ctx ctx' : Context} {w : World} {thread : ThreadId} {name : String} {on on' : Object}
  {p q : PoolId} {t : TokenId} {forced : Bool} {work : Work} {op : Op}

theorem Begun.held_pool {token : Option Object} {hold : Hold} (is : on.pool? = some p) :
    Begun.held on token hold = ⟨on, .use⟩ :: token.toList.map (⟨·, .use⟩) := by
  cases on <;> cases is <;> rfl

theorem Begun.entryPoint_receiver {way : Via}
    (point : Begun.entryPoint w on way (some (.token t)) = .ok (.token p t forced))
    (is : on'.pool? = some q) :
    Begun.entryPoint w on' way (some (.token t)) = .ok (.token q t forced) := by
  cases on <;> cases way <;> cases point <;> cases on' <;> cases is <;> rfl

theorem World.Submits.asking
    (submits : w.Submits thread on (some (.token t)) (.token p t forced) work op)
    (found : w.resolve thread name = .ok on') (is : on'.pool? = some q) :
    w.Submits thread on' (some (.token t)) (.token q t forced) work (op.asking name) := by
  generalize entry : Entry.token p t forced = point at submits
  induction submits with
  | @schedule asked _ _ _ _ _ _ _ finds body way point =>
      subst entry
      have same : on.knownAs asked = on'.knownAs name := by
        obtain ⟨⟩ | ⟨is'⟩ := Begun.means_of_entryPoint point
        cases on <;> cases is' <;> cases on' <;> cases is <;> rfl
      cases finds with
      | through _ found' =>
          rw [same]
          refine .schedule (.through found found') body way (Begun.entryPoint_receiver point is) ?_
          cases on' <;> cases is <;> rfl
  | catching _ ih => exact .catching (ih entry)

theorem World.Fetches.tokenless
    (fetches : w.Fetches thread on (some (.token t)) (.lane p t) op) :
    on.pool? = some p ∧ w.Fetches thread on none (.pool p) op.tokenless := by
  generalize lane : Source.lane p t = source at fetches
  induction fetches with
  | exec finds found free =>
      subst lane
      cases finds with
      | through found' =>
          refine ⟨?_, .exec (.alone found') ?_ free⟩ <;> cases on <;> cases found <;> rfl
  | catching _ ih => exact ⟨(ih lane).1, .catching (ih lane).2⟩

theorem Job.launch_thread (same : ctx.thread = ctx'.thread) (job : Job Work) (w : World) :
    job.launch ctx w = job.launch ctx' w := by
  unfold Job.launch
  cases job.work with
  | body => rfl
  | park gate => simp only [Turn.block, same]

theorem World.Submits.body {token : Option Object} {entry : Entry}
    (submits : w.Submits thread on token entry work op) :
    ∃ label ops onBatch, work = .body label ops onBatch := by
  induction submits with
  | schedule => exact ⟨_, _, _, rfl⟩
  | catching _ ih => exact ih

/-- A turn that starts no thread, and neither lends nor takes back anything. -/
structure Turn.Modest (turn : Turn) (w : World) : Prop where
  bare : turn.Bare
  spawn : turn.spawn = []
  loans : turn.world.loans = w.loans

theorem Job.launch_modest (job : Job Work) (system : System Work) :
    (job.launch ctx { w with system }).Modest w where
  bare := Job.launch_bare job
  spawn := by
    unfold Job.launch
    cases job.work with
    | body => rfl
    | park gate =>
        simp only [Turn.block]
        split <;> rfl
  loans := by
    unfold Job.launch
    cases job.work with
    | body => rfl
    | park gate =>
        simp only [Turn.block]
        split <;> rfl

theorem Work.submitted_modest (entry : Entry) (work : Work) :
    (work.submitted ctx entry w).Modest w := by
  have made : ((w.system.submit entry work).job.launch ctx
      { w with system := (w.system.submit entry work).system }).Modest w := Job.launch_modest ..
  refine ⟨submitted_bare entry work, ?_, ?_⟩
  · simp only [Work.submitted]
    split
    · exact made.spawn
    · rfl
  · simp only [Work.submitted]
    split
    · exact made.loans
    · rfl

theorem Source.executed_modest (source : Source) : (source.executed ctx w).Modest w := by
  unfold Source.executed
  cases runs : source.runNext ctx w with
  | none => exact ⟨Turn.bare_reply .., rfl, rfl⟩
  | some turn =>
      have bare := runNext_bare runs
      simp only [runNext, Option.map_eq_some_iff] at runs
      obtain ⟨⟨job, system⟩, _, rfl⟩ := runs
      have made : (job.launch ctx { w with system }).Modest w := Job.launch_modest ..
      exact ⟨bare.above (by simp [Frame.loans]) (by simp [Frame.isFirst]), made.spawn, made.loans⟩

theorem Source.executed_ne_nil {source : Source} {taken : Job Work × System Work}
    (found : w.system.take source = some taken) : (source.executed ctx w).push ≠ [] := by
  simp only [Source.executed, Source.runNext, found, Option.map_some]
  exact List.append_ne_nil_of_right_ne_nil _ (List.cons_ne_nil _ _)

theorem Work.submitted_asking (same : ctx.thread = ctx'.thread) {entry entry' : Entry}
    (made : w.system.submit entry work = w.system.submit entry' work) :
    work.submitted ctx entry w = work.submitted ctx' entry' w := by
  simp only [Work.submitted, made, Job.launch_thread same]

theorem Source.executed_tokenless (same : ctx.thread = ctx'.thread)
    (taken : w.system.take (.lane p t) = w.system.take (.pool p)) :
    (Source.lane p t).executed ctx w = (Source.pool p).executed ctx' w := by
  simp only [Source.executed, Source.runNext, taken, Source.receiver, Job.launch_thread same]

theorem World.Snatches.lent {loans : List Loan} {w' : World} (snatches : w.Snatches loans w') :
    ∃ name object, w.names.find? name = some object ∧ w'.names.find? name = none ∧
      (∃ loan ∈ loans, loan.object = object) ∧ ∀ loan ∈ w.loans, loan.object ≠ object := by
  obtain ⟨name, object, named, idle, busy, gone⟩ := snatches
  refine ⟨name, object, named, gone ▸ Table.find?_remove_self .., ?_⟩
  have used : w.inUse object = false ∧ (w.withLoans loans).inUse object = true := by
    cases object with
    | pool p =>
        obtain ⟨unused, independent⟩ := Bool.or_eq_false_iff.mp idle
        refine ⟨unused, (Bool.or_eq_true_iff.mp busy).resolve_right fun needed => ?_⟩
        exact Bool.false_ne_true (independent.symm.trans needed)
    | commonPool => cases busy
    | token | batch => exact ⟨idle, busy⟩
  simpa [World.inUse, World.withLoans] using used.symm

end

namespace Machine

variable {m m' : Machine} {turn : Turn} {w : World} {loans loans' lent lent' : List Loan}
  {caught : Bool} {base base' below : List Frame} {turns k : Nat} {object : Object} {t : TokenId}
  {course : Course} {replies : List Reply} {ops : List Op} {past past' : List Event}

/-- Two operations that begin with the same turn, and hold different objects. -/
theorem Enters.borrowers (enters : m.Enters turn loans caught base)
    (enters' : m'.Enters turn loans' caught base) (thread : m.driver.id = m'.driver.id)
    (alone : m.others = []) (alone' : m'.others = []) (modest : turn.Modest w) :
    Borrowers (m.run 1) (m'.run 1) (.call loans .report caught :: base)
      (.call loans' .report caught :: base) (loans ++ w.loans) (loans' ++ w.loans)
      m.history m'.history where
  thread := enters.thread.trans (thread.trans enters'.thread.symm)
  alone := by rw [enters.others, alone, modest.spawn]; rfl
  alone' := by rw [enters'.others, alone', modest.spawn]; rfl
  news := ⟨turn.events, enters.history, enters'.history⟩
  signal := enters.signal.trans enters'.signal.symm
  batches := rfl
  stack := by
    have empty : heldLoans turn.push turn.signal = [] := by
      have held := modest.bare.held []
      rwa [List.append_nil] at held
    refine ⟨turn.push, enters.frames, enters'.frames, modest.bare.inner, ?_, ?_⟩
    · rw [enters'.world, enters'.signal, empty, ← modest.loans]
      rfl
    · rw [enters.world, enters'.world, enters'.signal, empty, ← modest.loans]
      rfl

/-- No name of the object is taken away during the first turns. -/
def LeavesNamed (m : Machine) (object : Object) (turns : Nat) : Prop :=
  ∀ k < turns, ∀ name, (m.run k).world.names.find? name = some object →
    (m.run (k + 1)).world.names.find? name = some object

theorem LeavesNamed.later (named : m.LeavesNamed object turns) :
    (m.run 1).LeavesNamed object (turns - 1) := by
  intro k few name
  rw [← run_add, ← run_add, ← Nat.add_assoc]
  exact named (1 + k) (by omega) name

/-- When only one of the objects that are lent is not lent in the other machine, it is enough that
this one keeps its name. -/
theorem LeavesNamed.trades (named : m.LeavesNamed object turns)
    (only : ∀ loan ∈ lent, loan.object = object ∨ ∃ other ∈ lent', other.object = loan.object)
    (exchanges : ∀ k < turns, m.Stays base k → (m.run k).world.Exchanges lent lent') :
    m.Trades base lent lent' turns where
  exchanges := exchanges
  keeps k few _ held kept snatches := by
    obtain ⟨name, taken, named', gone, ⟨loan, member, rfl⟩, free⟩ := snatches.lent
    rw [kept] at free
    rcases List.mem_append.mp member with still | changed
    · exact free loan (List.mem_append_left _ still) rfl
    · rcases only loan changed with same | ⟨other, inside, same⟩
      · rw [same] at named'
        rw [named k few name named'] at gone
        cases gone
      · exact free other (List.mem_append_right _ inside) same

theorem Borrowers.needed (twins : Borrowers m m' base base' lent lent' past past')
    (ledger : Ledger m'.world m'.frames) (listed : m'.world.system.Listed (.token t))
    (holds : ∃ hold, ⟨.token t, hold⟩ ∈ lent') (stays : m'.Stays base' k) :
    (m'.run k).world.system.dependsOnPool (m'.world.system.token t).pool = true := by
  have used : ∀ j < k, (m'.run j).world.inUse (.token t) = true := by
    intro j few
    obtain ⟨held, kept⟩ := twins.still_lent (k := j)
      ⟨fun i less => stays.alone i (by omega), fun i less => stays.above i (by omega)⟩
    obtain ⟨hold, member⟩ := holds
    rw [World.inUse, kept, List.any_eq_true]
    exact ⟨_, List.mem_append_right _ member, decide_eq_true rfl⟩
  have opened := (token_listed_run ledger listed used).1
  have issuer := (retains_run ledger k).issuer t (token_known listed.1)
  refine Bool.not_eq_false _ ▸ fun free => ?_
  exact (System.independent free).1 t opened issuer

def atop (m : Machine) (frames : List Frame) : Machine :=
  { m with driver := { m.driver with frames } }

theorem At.atop {before : List Op} (at_ : m.At course replies before below) (after : List Op) :
    (m.atop (course.frame replies after :: below)).At course replies after below :=
  ⟨rfl, at_.proceed⟩

theorem At.ledger {before : List Op} (at_ : m.At course replies before below)
    (ledger : Ledger m.world m.frames) (after : List Op) :
    Ledger (m.atop (course.frame replies after :: below)).world
      (m.atop (course.frame replies after :: below)).frames := by
  have same : ∀ ops, reclaims (m.atop (course.frame replies ops :: below)).frames =
      reclaims (below ++ m.others.flatMap (·.frames)) ∧
      closings (m.atop (course.frame replies ops :: below)).frames =
      closings (below ++ m.others.flatMap (·.frames)) := by
    intro ops
    cases course <;> exact ⟨rfl, rfl⟩
  have stack : m.frames = (m.atop (course.frame replies before :: below)).frames := by
    simp only [Machine.frames, threads, Machine.atop, List.flatMap_cons, at_.top]
  have reclaimed := (same after).1.trans ((same before).1.symm.trans (congrArg reclaims stack.symm))
  have closing := (same after).2.trans ((same before).2.symm.trans (congrArg closings stack.symm))
  refine ledger.keeps (.refl _) (fun _ member => member) rfl ?_ ?_ ?_
  · exact fun b member => reclaimed ▸ member
  · exact fun b member => closing ▸ member
  · rw [holders, reclaimed]
    exact ledger.distinct

theorem Alike.of_spans {outcome : Signal} (span : m.Comes base k outcome)
    (span' : m'.Comes base k outcome) (world : (m.run k).world = (m'.run k).world)
    (new : ∃ new, (m.run k).history = m.history ++ new ∧ (m'.run k).history = m'.history ++ new) :
    m.Alike m' base turns where
  comes told := by
    constructor
    · intro comes
      obtain ⟨rfl, rfl⟩ := comes.span.unique span.span
      exact span'
    · intro comes
      obtain ⟨rfl, rfl⟩ := comes.span.unique span'.span
      exact span
  same told comes := by
    obtain ⟨rfl, rfl⟩ := comes.span.unique span.span
    exact ⟨world, new⟩

theorem tells_executed {job : JobId} {p : PoolId}
    (top : m.driver.frames = .contain job p :: .executed :: .call loans .report caught :: base) :
    (m.run 3).driver.frames = base ∧ (m.run 3).driver.signal = .returned (.flag true) ∧
      (m.run 3).world.system = m.world.system := by
  obtain ⟨top', told, _⟩ := run_one_contain top
  obtain ⟨top'', told', _⟩ := run_one_executed top' told
  obtain ⟨back, told'', _, world'', _⟩ := call_returns top'' told'
  have world : (m.run 1).world = m.world := by
    rw [run_one (step_of_resume top rfl)]
    cases m.driver.signal <;> rfl
  have resumes : ∀ ctx, Frame.executed.resume ctx (m.run 1).world (m.run 1).driver.signal =
      some (Turn.reply (m.run 1).world (.flag true)) := fun _ => by rw [told]; rfl
  have world' : ((m.run 1).run 1).world = (m.run 1).world := by
    rw [run_one (step_of_resume top' (resumes _))]
    rfl
  rw [world', world] at world''
  rw [← run_add, ← run_add] at back told'' world''
  exact ⟨back, told'', congrArg (·.system) world''⟩

/-! ## Submissions and jobs through a token -/

section

variable {op : Op} {on on' : Object} {name : String} {p : PoolId} {forced : Bool} {work : Work}

/-- Queued work leaves the same state, and at most a warning more. -/
theorem At.queues_alike (at_ : m.At course replies (op :: ops) below)
    (submits : m.world.Submits m.driver.id on (some (.token t)) (.token p t forced) work op)
    (found : m.world.resolve m.driver.id name = .ok on')
    (is : on'.pool? = some (m.world.system.token t).pool)
    (queued : (m.world.system.submit (.token p t forced) work).route.runsNow = false) :
    let base := course.frame replies ops :: below
    let m' := m.atop (course.frame replies (op.asking name :: ops) :: below)
    m.Span base 2 (.returned .nothing) ∧ m'.Span base 2 (.returned .nothing) ∧
      (m.run 2).world = (m'.run 2).world ∧
      ∃ new, (m'.run 2).history = m.history ++ new ∧
        (m.run 2).history =
          m.history ++ (Event.ofNotices (m.world.system.strayed p t) ++ new) := by
  intro base m'
  have at' : m'.At course replies (op.asking name :: ops) below := at_.atop _
  have submits' := submits.asking found is
  obtain ⟨now, same⟩ | ⟨queued', silent, same⟩ := submit_token m.world.system p t forced work
  · rw [same, now] at queued
    cases queued
  · obtain ⟨span, world, events, after, _⟩ := at_.queues submits queued
    obtain ⟨span', world', events', after', _⟩ := at'.queues submits' queued'
    rw [same] at world events
    rw [show m'.world.system = m.world.system from rfl] at world' events'
    rw [silent] at events'
    refine ⟨span, span', world.trans world'.symm, _, after'.trans (events'.trans ?_),
      after.trans (events.trans (List.append_assoc ..))⟩
    exact congrArg (· ++ _) (List.append_nil m.history)

theorem At.needs_issuer (at_ : m.At course replies (op :: ops) below) (alone : m.others = [])
    (ledger : Ledger m.world m.frames)
    (submits : m.world.Submits m.driver.id on (some (.token t)) (.token p t forced) work op)
    (stays : (m.run 1).Stays (.call (Begun.held on (some (.token t)) .share) .report
      (op.uncaught.1 || course.catchesAll) :: course.frame replies ops :: below) k) :
    ((m.run 1).run k).world.system.dependsOnPool (m.world.system.token t).pool = true := by
  obtain ⟨ctx, _, enters⟩ := at_.submitted submits
  obtain ⟨means, _, listed⟩ := submits.means ledger
  have twins := enters.borrowers enters rfl alone alone (Work.submitted_modest ..)
  obtain ⟨label, body, onBatch, rfl⟩ := submits.body
  have remains : m.world.system.Remains (m.run 1).world.system := by
    rw [enters.world]
    exact (Work.submitted_calm (.token p t forced) label body onBatch).remains.system
  have own : (m.run 1).world.system.token t = m.world.system.token t :=
    congrArg (·.getD t.index default) remains.tokens
  refine own ▸ twins.needed (ledger_run ledger 1) ((listed _ rfl).keeps remains) ⟨.use, ?_⟩ stays
  cases means with
  | token is => simp [Begun.held_pool is]

/-- Work that runs at once goes the same way, unless it drops the pool that only one of the
operations holds. -/
theorem At.runs_alike (at_ : m.At course replies (op :: ops) below) (alone : m.others = [])
    (ledger : Ledger m.world m.frames)
    (submits : m.world.Submits m.driver.id on (some (.token t)) (.token p t forced) work op)
    (found : m.world.resolve m.driver.id name = .ok on')
    (is : on'.pool? = some (m.world.system.token t).pool)
    (now : (m.world.system.submit (.token p t forced) work).route.runsNow = true)
    (named :
      (m.atop (course.frame replies (op.asking name :: ops) :: below)).LeavesNamed on turns) :
    m.Alike (m.atop (course.frame replies (op.asking name :: ops) :: below))
      (course.frame replies ops :: below) turns := by
  have at' := at_.atop (op.asking name :: ops)
  have submits' := submits.asking found is
  have is' : on.pool? = some p := by
    cases (submits.means ledger).1 with
    | token is' => exact is'
  obtain ⟨_, same⟩ | ⟨queued, _, same⟩ := submit_token m.world.system p t forced work
  · obtain ⟨ctx, thread, enters⟩ := at_.submitted submits
    obtain ⟨ctx', thread', enters'⟩ := at'.submitted submits'
    have needed := fun {k} => At.needs_issuer at' alone (at_.ledger ledger _) submits' (k := k)
    rw [Work.submitted_asking (thread.trans thread'.symm) same] at enters
    rw [Op.asking_uncaught] at enters' needed
    have twins := enters.borrowers enters' rfl alone alone (Work.submitted_modest ..)
    rw [Begun.held_pool is', Begun.held_pool is] at twins
    rw [Begun.held_pool is] at needed
    refine twins.alike alone alone ?_
      (named.later.trades ?_ fun k few stays => ⟨fun b hold => ?_, ?_⟩)
    · obtain ⟨label, body, onBatch, rfl⟩ := submits.body
      obtain ⟨_, _, _, frames, _⟩ := at'.runs submits' (same ▸ now)
      rw [height, frames]
      simp only [List.length_cons, List.length_append]
      omega
    · intro loan member
      rcases List.mem_cons.mp member with rfl | member
      · exact .inl rfl
      · exact .inr ⟨loan, List.mem_cons_of_mem _ member, rfl⟩
    · cases on <;> cases is' <;> cases on' <;> cases is <;> simp
    · intro loan member
      rcases List.mem_cons.mp member with rfl | member
      · refine .inr ⟨?_, fun q itself => ?_⟩
        · cases on' <;> cases is <;> rfl
        · rw [show on' = .pool q from itself] at is
          cases is
          exact needed stays
      · exact .inl ⟨loan, List.mem_cons_of_mem _ member, rfl⟩
  · rw [same, queued] at now
    cases now

theorem At.finds_waiting (at_ : m.At course replies (op :: ops) below)
    (ledger : Ledger m.world m.frames)
    (fetches : m.world.Fetches m.driver.id on (some (.token t)) (.lane p t) op) {job : Job Work}
    {jobs : List (Job Work)}
    (waiting : (m.world.system.pool (m.world.system.token t).pool).waitingIn t = job :: jobs) :
    ∃ (task : Task) (rest : Pool Work) (loans : List Loan) (caught : Bool), job = task.job ∧
      (m.world.system.pool (m.world.system.token t).pool).Loses (.lane t) job rest ∧
      (m.run 1).world.system =
        m.world.system.modifyPool (m.world.system.token t).pool (fun _ => rest) ∧
      (m.run 1).history = m.history ++ [task.started] ∧
      (m.run 1).driver.frames = task.frames ++ .contain task.id p ::
        .executed :: .call loans .report caught :: course.frame replies ops :: below := by
  obtain ⟨rest, loses, taken⟩ := take_of_waiting waiting (ledger.ordered.once _) p
  have member : job ∈ (m.world.system.pool (m.world.system.token t).pool).queue (.lane t) := by
    rw [Pool.queue, waiting]
    exact List.mem_cons_self
  obtain ⟨wrong, _⟩ | ⟨task, rfl⟩ := (ledger.tasked _).of_queue member
  · cases wrong
  · obtain ⟨loans, caught, frames, system, history⟩ := at_.finds fetches taken
    exact ⟨task, rest, loans, caught, rfl, loses, system, history, frames⟩

theorem At.fetches_alike (at_ : m.At course replies (op :: ops) below) (alone : m.others = [])
    (ledger : Ledger m.world m.frames)
    (fetches : m.world.Fetches m.driver.id on (some (.token t)) (.lane p t) op)
    (empty : (m.world.system.pool (m.world.system.token t).pool).waitingIn t = [])
    (named : (m.atop (course.frame replies (op.tokenless :: ops) :: below)).LeavesNamed
      (.token t) turns) :
    m.Alike (m.atop (course.frame replies (op.tokenless :: ops) :: below))
      (course.frame replies ops :: below) turns := by
  have at' := at_.atop (op.tokenless :: ops)
  obtain ⟨is, fetches'⟩ := fetches.tokenless
  have taken := take_of_empty empty (ledger.ordered.once _) p
  cases found : m.world.system.take (.pool p) with
  | none =>
      obtain ⟨span, world, others, history⟩ := at_.finds_none fetches (taken.trans found)
      obtain ⟨span', world', others', history'⟩ := at'.finds_none fetches' found
      refine .of_spans (span.comes fun k few => (others k few).trans alone)
        (span'.comes fun k few => (others' k few).trans alone) (world.trans world'.symm)
        ⟨[], ?_, ?_⟩
      · rw [history, List.append_nil]
      · rw [history', List.append_nil]
  | some first =>
      obtain ⟨ctx, thread, enters⟩ := at_.fetched fetches
      obtain ⟨ctx', thread', enters'⟩ := at'.fetched fetches'
      rw [Source.executed_tokenless (thread.trans thread'.symm) taken] at enters
      rw [Op.tokenless_uncaught] at enters'
      have twins := enters.borrowers enters' rfl alone alone (Source.executed_modest ..)
      rw [Begun.held_pool is, Begun.held_pool is] at twins
      refine twins.alike alone alone ?_
        (named.later.trades ?_ fun k few stays => ⟨fun b hold => ?_, ?_⟩)
      · have started : ((Source.pool p).executed ctx' m.world).push ≠ [] :=
          Source.executed_ne_nil found
        have pushed := List.length_pos_iff.mpr started
        have frames := congrArg List.length enters'.frames
        rw [List.length_append, List.length_cons] at frames
        rw [height, frames]
        exact Nat.lt_add_of_pos_left pushed
      · intro loan member
        simp only [Option.toList, List.map_cons, List.map_nil, List.cons_append, List.nil_append,
          List.mem_cons] at member ⊢
        rcases member with rfl | rfl | member
        · exact .inr ⟨_, .inl rfl, rfl⟩
        · exact .inl rfl
        · exact .inr ⟨loan, .inr member, rfl⟩
      · simp
      · intro loan member
        simp only [Option.toList, List.map_cons, List.map_nil, List.cons_append, List.nil_append,
          List.mem_cons] at member ⊢
        exact .inl ⟨loan, member.imp_right .inr, rfl⟩

/-- Which pool is asked does not matter to a submission through a token. If it is queued, it leaves
the same state and log, but for a warning if another pool than the one that issued the token was
asked. If it runs at once, both calls come to the same end in
the same state; a call holds the pool that it asks until it returns, so what runs meanwhile is work
that does not drop this pool in the other case either. A job that is run through a token is the
oldest of its lane; only this lane and the count of its pool change before it starts, and nothing
after it has ended. While the lane is empty, the token might as well not be named. -/
theorem Arranged.receiver_irrelevant (arranged : m.Arranged) (alone : m.others = [])
    (at_ : m.At course replies (op :: ops) below) :
    let s := m.world.system
    let base := course.frame replies ops :: below
    let instead (other : Op) := m.atop (course.frame replies (other :: ops) :: below)
    (∀ on p t forced work,
      m.world.Submits m.driver.id on (some (.token t)) (.token p t forced) work op →
      ∀ name on', m.world.resolve m.driver.id name = .ok on' → on'.pool? = some (s.token t).pool →
        let q := (s.token t).pool
        let m' := instead (op.asking name)
        let route := (s.submit (.token p t forced) work).route
        m.world.Submits m.driver.id on' (some (.token t)) (.token q t forced) work
          (op.asking name) ∧
        route = (s.submit (.token q t forced) work).route ∧
        (route.runsNow = false →
          m.Span base 2 (.returned .nothing) ∧ m'.Span base 2 (.returned .nothing) ∧
          (m.run 2).world = (m'.run 2).world ∧
          (∀ r, r ≠ q → (m.run 2).world.system.pool r = s.pool r) ∧
          (∃ new, (m'.run 2).history = m.history ++ new ∧
            (m.run 2).history = m.history ++ (Event.ofNotices (s.strayed p t) ++ new)) ∧
          (s.strayed p t).map (·.line) = if p = q then [] else
            [⟨.warn, "Producer token from another pool, queueing there.",
              [("pool_name", .text (s.pool p).name), ("token_pool", .text (s.pool q).name)]⟩]) ∧
        (route.runsNow = true → ∀ turns, m'.LeavesNamed on turns → m.Alike m' base turns)) ∧
    ∀ on p t, m.world.Fetches m.driver.id on (some (.token t)) (.lane p t) op →
      let q := (s.token t).pool
      (∀ job jobs, (s.pool q).waitingIn t = job :: jobs →
        ∃ (task : Task) (rest : Pool Work) (loans : List Loan) (caught : Bool),
          let contained := .contain task.id p :: .executed :: .call loans .report caught :: base
          job = task.job ∧ (s.pool q).Loses (.lane t) job rest ∧
          (m.run 1).world.system = s.modifyPool q (fun _ => rest) ∧
          (m.run 1).history = m.history ++ [task.started] ∧
          (m.run 1).driver.frames = task.frames ++ contained ∧
          ∀ turns outcome, (m.run 1).Span contained turns outcome →
            (m.run (1 + turns + 3)).driver.frames = base ∧
            (m.run (1 + turns + 3)).driver.signal = .returned (.flag true) ∧
            (m.run (1 + turns + 3)).world.system = (m.run (1 + turns)).world.system) ∧
      ((s.pool q).waitingIn t = [] →
        let m' := instead op.tokenless
        m.world.Fetches m.driver.id on none (.pool p) op.tokenless ∧
        ∀ turns, m'.LeavesNamed (.token t) turns → m.Alike m' base turns) := by
  intro s base instead
  have ledger := arranged.ledger
  refine ⟨fun on p t forced work submits name on' found is => ?_, fun on p t fetches => ⟨?_, ?_⟩⟩
  · intro q m' route
    refine ⟨submits.asking found is, ?_, fun queued => ?_, fun now turns named =>
      at_.runs_alike alone ledger submits found is now named⟩
    · obtain ⟨_, same⟩ | ⟨_, _, same⟩ := submit_token s p t forced work <;>
        exact congrArg (·.route) same
    · obtain ⟨span, span', world, new⟩ := at_.queues_alike submits found is queued
      refine ⟨span, span', world, fun r other => ?_, new, s.strayed_line p t⟩
      rw [(at_.queues submits queued).2.1]
      exact (submit_gains (ledger.ready submits) queued).2.pools r other
  · intro job jobs waiting
    obtain ⟨task, rest, loans, caught, same, loses, system, history, frames⟩ :=
      at_.finds_waiting ledger fetches waiting
    refine ⟨task, rest, loans, caught, same, loses, system, history, frames,
      fun turns outcome span => ?_⟩
    obtain ⟨back, told, left⟩ := tells_executed span.back
    simp only [← run_add] at back told left
    exact ⟨back, told, left⟩
  · intro empty m'
    exact ⟨fetches.tokenless.2, fun turns named =>
      at_.fetches_alike alone ledger fetches empty named⟩

/-- A task that adds one to a counter, submitted through a token to a pool that did not issue it. -/
def forwarded (label : String) : Op :=
  .schedule (.given "p") (.given (.own label [.add (.given "n") .missing])) .missing (.given "t")

/-- A script that submits two tasks through a token of the pool `q` by asking the pool `p`, a third
one to `p` itself, and then asks `p` through the token for jobs. -/
def forwarding (turns : Nat) : Machine :=
  (Machine.load [] .plain
    [.pool (.given "p") .missing .missing .missing .missing,
      .pool (.given "q") .missing .missing .missing .missing,
      .token (.given "t") (.given "q"), forwarded "a", forwarded "b",
      .schedule (.given "p") (.given (.own "c" [])) .missing .missing,
      .exec (.given "p") (.given "t"), .exec (.given "p") (.given "t")]).run turns

theorem LeavesNamed.of_same (same : ∀ k ≤ turns, (m.run k).world.names = m.world.names) :
    m.LeavesNamed object turns := by
  intro k few name
  rw [same k (Nat.le_of_lt few), same (k + 1) few]
  exact id

/-- The pool `q` queues the first task, with a warning, and turns the second one away. Later the job
of its lane is run, and then, while the lane is empty, the job of `p`. -/
theorem forwarding_receiver :
    let p : PoolId := ⟨0⟩
    let q : PoolId := ⟨1⟩
    let t : TokenId := ⟨0⟩
    let task (label : String) : Work := .body label [.add (.given "n") .missing] none
    let exec : Op := .exec (.given "p") (.given "t")
    let later : List Op :=
      [.schedule (.given "p") (.given (.own "c" [])) .missing .missing, exec, exec]
    let instead (turns : Nat) (op : Op) (ops : List Op) :=
      (forwarding turns).atop [.program (op :: ops), .cleanup]
    let first := instead 9 ((forwarded "a").asking "q") (forwarded "b" :: later)
    let second := instead 12 ((forwarded "b").asking "q") later
    let last := instead 31 exec.tokenless []
    ((forwarding 9).Arranged ∧ (forwarding 9).others = [] ∧
      (forwarding 9).At .program [] (forwarded "a" :: forwarded "b" :: later) [.cleanup] ∧
      (forwarding 9).world.Submits .driver (.pool p) (some (.token t)) (.token p t false)
        (task "a") (forwarded "a") ∧
      (forwarding 9).world.resolve .driver "q" = .ok (.pool q) ∧
      ∃ warning new, (first.run 2).history = (forwarding 9).history ++ new ∧
        ((forwarding 9).run 2).history = (forwarding 9).history ++ (.logged warning :: new) ∧
        warning.line = ⟨.warn, "Producer token from another pool, queueing there.",
          [("pool_name", .text "p"), ("token_pool", .text "q")]⟩) ∧
    ((forwarding 12).At .program [] (forwarded "b" :: later) [.cleanup] ∧
      (forwarding 12).world.Submits .driver (.pool p) (some (.token t)) (.token p t false)
        (task "b") (forwarded "b") ∧
      second.LeavesNamed (.pool p) 6 ∧ (forwarding 18).world = (second.run 6).world) ∧
    ((forwarding 22).At .program [] [exec, exec] [.cleanup] ∧
      (forwarding 22).world.Fetches .driver (.pool p) (some (.token t)) (.lane p t) exec ∧
      ∃ task : Task, ((forwarding 22).world.system.pool q).waitingIn t = [task.job] ∧
        (forwarding 23).history = (forwarding 22).history ++ [task.started]) ∧
    (forwarding 31).At .program [] [exec] [.cleanup] ∧
      ((forwarding 31).world.system.pool q).waitingIn t = [] ∧
      last.LeavesNamed (.token t) 5 ∧ (forwarding 36).world = (last.run 5).world := by
  intro p q t task exec later instead first second last
  have arranged : ∀ turns, (forwarding turns).Arranged := fun turns =>
    ((Reached.load [] .plain _).run turns).arranged
  have alone₁ : (forwarding 9).others = [] := List.isEmpty_iff.mp (by decide)
  have alone₃ : (forwarding 22).others = [] := List.isEmpty_iff.mp (by decide)
  have quiet₂ : ∀ k ≤ 6, ((forwarding 12).run k).others.isEmpty = true := by decide
  have quiet₄ : ∀ k ≤ 5, ((forwarding 31).run k).others.isEmpty = true := by decide
  have at₁ : (forwarding 9).At .program [] (forwarded "a" :: forwarded "b" :: later) [.cleanup] :=
    ⟨rfl, rfl⟩
  have at₂ : (forwarding 12).At .program [] (forwarded "b" :: later) [.cleanup] := ⟨rfl, rfl⟩
  have at₃ : (forwarding 22).At .program [] [exec, exec] [.cleanup] := ⟨rfl, rfl⟩
  have at₄ : (forwarding 31).At .program [] [exec] [.cleanup] := ⟨rfl, rfl⟩
  have submits₁ : (forwarding 9).world.Submits .driver (.pool p) (some (.token t))
      (.token p t false) (task "a") (forwarded "a") := .schedule (.through rfl rfl) rfl rfl rfl rfl
  have submits₂ : (forwarding 12).world.Submits .driver (.pool p) (some (.token t))
      (.token p t false) (task "b") (forwarded "b") := .schedule (.through rfl rfl) rfl rfl rfl rfl
  have fetches₃ : (forwarding 22).world.Fetches .driver (.pool p) (some (.token t)) (.lane p t)
      exec := .exec (.through rfl rfl) rfl rfl
  have fetches₄ : (forwarding 31).world.Fetches .driver (.pool p) (some (.token t)) (.lane p t)
      exec := .exec (.through rfl rfl) rfl rfl
  have named₂ : second.LeavesNamed (.pool p) 6 := .of_same (by decide)
  have named₄ : last.LeavesNamed (.token t) 5 := .of_same (by decide)
  have comes₂ : (forwarding 12).Comes [.program later, .cleanup] 6 (.returned .nothing) :=
    { begun := by decide
      alone := fun k few => List.isEmpty_iff.mp (quiet₂ k few)
      back := rfl
      inside := fun k positive few => by
        have high : ∀ k < 6, k = 0 ∨ 2 < ((forwarding 12).run k).height := by decide
        exact (high k few).resolve_left (by omega)
      outcome := rfl }
  have comes₄ : (forwarding 31).Comes [.program [], .cleanup] 5 (.returned (.flag true)) :=
    { begun := by decide
      alone := fun k few => List.isEmpty_iff.mp (quiet₄ k few)
      back := rfl
      inside := fun k positive few => by
        have high : ∀ k < 5, k = 0 ∨ 2 < ((forwarding 31).run k).height := by decide
        exact (high k few).resolve_left (by omega)
      outcome := rfl }
  obtain ⟨_, _, queues, _⟩ := (Arranged.receiver_irrelevant (arranged 9) alone₁ at₁).1
    _ _ _ _ _ submits₁ "q" (.pool q) rfl rfl
  obtain ⟨_, _, _, runs⟩ := (Arranged.receiver_irrelevant (arranged 12) (comes₂.alone 0 (by decide))
    at₂).1 _ _ _ _ _ submits₂ "q" (.pool q) rfl rfl
  obtain ⟨executes, _⟩ := (Arranged.receiver_irrelevant (arranged 22) alone₃ at₃).2 _ _ _ fetches₃
  obtain ⟨_, skips⟩ := (Arranged.receiver_irrelevant (arranged 31) (comes₄.alone 0 (by decide))
    at₄).2 _ _ _ fetches₄
  obtain ⟨_, _, _, _, ⟨new, without, with_⟩, lines⟩ := queues rfl
  obtain ⟨task, _, _, _, same, _, _, started, _⟩ := executes _ _ rfl
  refine ⟨⟨arranged 9, alone₁, at₁, submits₁, rfl, .foreignToken t "p" "q", new, without, with_,
      List.cons.inj lines |>.1⟩,
    ⟨at₂, submits₂, named₂, ((runs rfl 6 named₂).same _ comes₂).1⟩,
    ⟨at₃, fetches₃, task, ?_, started⟩, at₄, rfl, named₄,
    (((skips rfl).2 5 named₄).same _ comes₄).1⟩
  rw [← same]
  rfl

end

end Machine

end TaskPool
