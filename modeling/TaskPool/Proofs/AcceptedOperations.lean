import TaskPool.Proofs.SoloRuns

/-!
# Operations that pass their checks

`Begun.Accepted` lists what an operation can do in its first turn, together with what its checks
have found out. The checks are taken apart here and are not looked at again: what every operation
keeps is proved by cases on the list. The list holds on every thread, and for pools with workers
too.
-/

namespace TaskPool

theorem bind_eq_ok {α β : Type} {e : Except Refusal α} {f : α → Except Refusal β} {r : β} :
    e >>= f = .ok r ↔ ∃ a, e = .ok a ∧ f a = .ok r := by
  cases e <;> simp [bind, Except.bind]

theorem Refusal.of_unless {condition : Bool} {refusal : Refusal} {u : Unit}
    (passed : Refusal.unless condition refusal = .ok u) : condition = true := by
  cases condition with
  | true => rfl
  | false => cases passed

/-! ## Names -/

namespace World

variable {w : World} {thread : ThreadId} {name : String} {object : Object}

theorem find_of_resolve (found : w.resolve thread name = .ok object) :
    w.names.find? name = some object := by
  unfold resolve at found
  split at found
  · cases found
  · next known =>
      split at found
      · cases found
      · rw [known, Except.ok.inj found]

theorem unknown_of_checkFresh {u : Unit} (fresh : w.checkFresh thread name = .ok u) :
    w.names.find? name = none := by
  simp only [checkFresh, bind_eq_ok] at fresh
  obtain ⟨_, _, passed⟩ := fresh
  exact Option.isNone_iff_eq_none.mp (Refusal.of_unless passed)

/-- A name leads to an object, and a second argument, if there is one, to another. -/
inductive Finds (w : World) (thread : ThreadId) (name : String) (on : Object) :
    Arg String → Option Object → Prop where
  | alone (found : w.resolve thread name = .ok on) : Finds w thread name on .missing none
  | through {other object} (found : w.resolve thread name = .ok on)
      (found' : w.resolve thread other = .ok object) :
      Finds w thread name on (.given other) (some object)

theorem Finds.named {on : Object} {arg : Arg String} {token : Option Object}
    (finds : w.Finds thread name on arg token) :
    (∃ name, w.names.find? name = some on) ∧
      ∀ object, token = some object → ∃ name, w.names.find? name = some object := by
  cases finds with
  | alone found => exact ⟨⟨_, find_of_resolve found⟩, nofun⟩
  | through found found' =>
      refine ⟨⟨_, find_of_resolve found⟩, ?_⟩
      rintro _ ⟨⟩
      exact ⟨_, find_of_resolve found'⟩

/-- The worlds have the same objects under the same names, and the same is lent. Counters, gates and
the number of threads may differ. -/
structure Matches (w w' : World) : Prop where
  system : w'.system = w.system
  names : w'.names = w.names
  loans : w'.loans = w.loans
  common : w'.common = w.common

theorem Matches.refl (w : World) : w.Matches w := ⟨rfl, rfl, rfl, rfl⟩

end World

/-! ## What operations do -/

def Object.pool? : Object → Option PoolId
  | .pool p | .commonPool p => some p
  | .token _ | .batch _ => none

def Object.batch? : Object → Option BatchId
  | .batch b => some b
  | _ => none

/-- The name of its batch that a task knows. -/
def Object.knownAs (name : String) : Object → Option String
  | .batch _ => some name
  | _ => none

/-- Work is submitted. What is to run at once is started in the same turn. -/
def Work.submitted (ctx : Context) (entry : Entry) (work : Work) (w : World) : Turn :=
  let made := w.system.submit entry work
  let w := { w with system := made.system }
  let turn : Turn :=
    if made.route.runsNow then made.job.launch ctx w else Turn.reply w .nothing
  turn.after (Event.ofNotices made.notices ++
    [.submitted made.job.id made.job.batch made.route])

/-- One job from the source is started, if there is any. -/
def Source.executed (ctx : Context) (source : Source) (w : World) : Turn :=
  match source.runNext ctx w with
  | some turn => turn.above [.executed]
  | none => Turn.reply w (.flag false)

def World.strands (w : World) (scripts : List (List Op)) : List Thread :=
  scripts.mapIdx fun i ops => { id := .spawned (w.spawned + i), frames := [.strand ops []] }

/-- The pool is given jobs that wait at a gate, and what is told of it. -/
def System.park (s : System Work) (p : PoolId) (gate : String) (jobs : Nat) :
    System Work × List Event :=
  (List.range jobs).foldl
    (fun (system, events) _ =>
      let submission := system.submit (.pool p true) (.park gate)
      (submission.system,
        events ++ [.submitted submission.job.id submission.job.batch submission.route]))
    (s, [])

theorem System.park_keeps {s : System Work} {p : PoolId} {gate : String} {jobs : Nat}
    (holds : System Work → List Event → Prop) (start : holds s [])
    (kept : ∀ system events, 0 < jobs → holds system events →
      holds (system.submit (.pool p true) (.park gate)).system
        (events ++ [.submitted (system.submit (.pool p true) (.park gate)).job.id
          (system.submit (.pool p true) (.park gate)).job.batch
          (system.submit (.pool p true) (.park gate)).route])) :
    holds (s.park p gate jobs).1 (s.park p gate jobs).2 := by
  have each : ∀ (indices : List Nat) (parked : System Work × List Event),
      (indices ≠ [] → 0 < jobs) → holds parked.1 parked.2 →
      let parked := indices.foldl
        (fun (system, events) _ =>
          let submission := system.submit (.pool p true) (.park gate)
          (submission.system,
            events ++ [.submitted submission.job.id submission.job.batch submission.route]))
        parked
      holds parked.1 parked.2 := by
    intro indices
    induction indices with
    | nil => exact fun _ _ holds => holds
    | cons index indices ih =>
        intro parked some holds
        have some : 0 < jobs := some (List.cons_ne_nil _ _)
        exact ih _ (fun _ => some) (kept _ _ some holds)
  refine each (List.range jobs) (s, []) (fun some => Nat.pos_of_ne_zero ?_) start
  rintro rfl
  exact some rfl

namespace Begun

/-- What an operation that passes its checks does in its first turn. -/
inductive Accepted (ctx : Context) (w : World) : Begun → Prop where
  /-- The operation is over, and nothing happened to any object. -/
  | rests {begun : Begun} (same : w.Matches begun.world) (events : begun.events = [])
      (push : begun.push = []) (spawn : begun.spawn = []) (loans : begun.loans = [])
      (outcome : begun.signal.isOutcome = true) : Accepted ctx w begun
  /-- The operation waits for something outside of pools. -/
  | pauses {begun : Begun} {pause : Frame} (same : w.Matches begun.world)
      (events : begun.events = []) (push : begun.push = [pause]) (kind : pause.isPause = true)
      (proceed : begun.signal = .proceed) (spawn : begun.spawn = []) (loans : begun.loans = []) :
      Accepted ctx w begun
  | startsPool {name : String} {reasons : Nat → Option String} {config : PoolConfig} {reply : Reply}
      (unknown : w.names.find? name = none) :
      Accepted ctx w
        { Begun.reply ({ w with system := (w.system.startPool reasons config).2.1 }.bind name
            (.pool (w.system.startPool reasons config).1)) reply with
          events := Event.ofNotices (w.system.startPool reasons config).2.2
          spawn := (w.system.startPool reasons config).1.crew (config.started reasons) }
  | sharesPool {name : String} {p : PoolId} {reply : Reply} (unknown : w.names.find? name = none)
      (known : w.common = some p) :
      Accepted ctx w (Begun.reply (w.bind name (.commonPool p)) reply)
  /-- The pool that the whole process shares is asked for first. -/
  | startsShared {name : String} {reasons : Nat → Option String} {config : PoolConfig}
      {reply : Reply} (unknown : w.names.find? name = none) (absent : w.common = none)
      (staffed : config.started reasons ≠ []) :
      Accepted ctx w
        { Begun.reply
            ({ w with
                system := (w.system.startPool reasons config).2.1
                common := some (w.system.startPool reasons config).1 }.bind name
              (.commonPool (w.system.startPool reasons config).1)) reply with
          spawn := (w.system.startPool reasons config).1.crew (config.started reasons) }
  | issuesToken {name pool : String} {p : PoolId} (unknown : w.names.find? name = none)
      (found : w.resolvePool ctx.thread pool = .ok p) :
      Accepted ctx w
        { Begun.reply ({ w with system := (w.system.issueToken p).2.1 }.bind name
            (.token (w.system.issueToken p).1)) .nothing with
          events := Event.ofNotices (w.system.issueToken p).2.2 }
  | makesBatch {name pool : String} {p : PoolId} {single : Bool} {multiplier : Nat} {reply : Reply}
      (unknown : w.names.find? name = none) (found : w.resolvePool ctx.thread pool = .ok p) :
      Accepted ctx w
        { Begun.reply ({ w with system := (w.system.makeBatch p single multiplier).2.1 }.bind name
            (.batch (w.system.makeBatch p single multiplier).1)) reply with
          events := Event.ofNotices (w.system.makeBatch p single multiplier).2.2 }
  | dropsPool {name : String} {p : PoolId} (named : w.names.find? name = some (.pool p))
      (idle : w.isBusy (.pool p) = false) :
      Accepted ctx w
        { world := { w.unbind name with system := (w.system.beginClosingPool p).1 }
          events := Event.ofNotices (w.system.beginClosingPool p).2
          push := [.closing p 0] }
  /-- The shared pool loses a name, and nothing else. -/
  | forgetsPool {name : String} {p : PoolId} (named : w.names.find? name = some (.commonPool p)) :
      Accepted ctx w (Begun.reply (w.unbind name) .nothing)
  | dropsToken {name : String} {t : TokenId} (named : w.names.find? name = some (.token t))
      (idle : w.inUse (.token t) = false) :
      Accepted ctx w
        { Begun.reply { w.unbind name with system := (w.system.releaseToken t).1 } .nothing with
          events := Event.ofNotices (w.system.releaseToken t).2 }
  | dropsBatch {name : String} {b : BatchId} (named : w.names.find? name = some (.batch b))
      (apart : name ∉ ctx.batches) (idle : w.inUse (.batch b) = false) :
      Accepted ctx w
        { world := { w.unbind name with system := w.system.beginClosingBatch b }
          push := [.waiting b none .close] }
  | submits {name : String} {arg : Arg String} {on : Object} {token : Option Object} {via : Via}
      {entry : Entry} {label : String} {ops : List Op}
      (finds : w.Finds ctx.thread name on arg token)
      (point : Begun.entryPoint w on via token = .ok entry)
      (free : Begun.checkShared w on = .ok ()) :
      Accepted ctx w
        { Work.submitted ctx entry (.body label ops (on.knownAs name)) w with
          loans := Begun.held on token .share }
  | executes {name : String} {arg : Arg String} {on : Object} {token : Option Object}
      {source : Source} (finds : w.Finds ctx.thread name on arg token)
      (found : Begun.sourceOf w on token = .ok source) (free : Begun.checkShared w on = .ok ()) :
      Accepted ctx w { source.executed ctx w with loans := Begun.held on token .share }
  | sweeps {name : String} {arg : Arg String} {on : Object} {token : Option Object}
      {source : Source} (finds : w.Finds ctx.thread name on arg token)
      (found : Begun.sourceOf w on token = .ok source) :
      Accepted ctx w
        { world := w, push := [.sweep source on.batch? 0], loans := Begun.held on token .use }
  | waits {name : String} {b : BatchId} {onFailure : OnFailure}
      (named : w.names.find? name = some (.batch b)) (apart : name ∉ ctx.batches)
      (idle : w.inUse (.batch b) = false) :
      Accepted ctx w
        { world := w, push := [.waiting b none .wait], loans := [⟨.batch b, .exclude⟩], onFailure }
  | triesToWait {name : String} {b : BatchId} {budget : Nat} {onFailure : OnFailure}
      (named : w.names.find? name = some (.batch b)) (idle : w.inUse (.batch b) = false) :
      Accepted ctx w
        { world := w, push := [.waiting b (some budget) .tryWait],
          loans := [⟨.batch b, .exclude⟩], onFailure }
  /-- A batch is waited for on a thread of its own. -/
  | movesAway {name : String} {b : BatchId} {onFailure : OnFailure}
      (named : w.names.find? name = some (.batch b)) (idle : w.inUse (.batch b) = false) :
      Accepted ctx w
        { world := { w.unbind name with spawned := w.spawned + 1 }
          push := [.reclaim name b (.spawned w.spawned)]
          spawn := [{ id := .spawned w.spawned, frames := [.waiting b none .wait, .handOver] }]
          onFailure }
  /-- Workers of a pool are given jobs that wait at a gate. -/
  | holds {name gate : String} {p : PoolId} {jobs : Nat}
      (found : w.resolvePool ctx.thread name = .ok p) (few : jobs ≤ (w.system.pool p).workers) :
      Accepted ctx w
        { Turn.await { w with system := (w.system.park p gate jobs).1 } (.arrived gate jobs) with
          events := (w.system.park p gate jobs).2
          loans := [⟨.pool p, .use⟩] }
  /-- Scripts are carried out on threads of their own. -/
  | joins {scripts : List (List Op)} :
      Accepted ctx w
        { world := { w with spawned := w.spawned + scripts.length }
          push := [.joining ((w.strands scripts).map (·.id))]
          spawn := w.strands scripts }

variable {ctx : Context} {w : World} {begun : Begun} {on token : Arg String}

/-! ## One lemma for each operation that has checks -/

theorem startPool_accepted {id name : Arg String} {threads multiplier idleMs : Arg Nat}
    (passed : Begun.startPool ctx w id threads name multiplier idleMs = .ok begun) :
    Accepted ctx w begun := by
  simp only [Begun.startPool, bind_eq_ok] at passed
  obtain ⟨id, _, _, fresh, workers, _, _, _, name, _, multiplier, _, idleMs, _, made⟩ := passed
  cases made
  exact @Accepted.startsPool ctx w _ w.reasons { name, workers, multiplier, idleMs } _
    (World.unknown_of_checkFresh fresh)

theorem nameCommonPool_accepted {id : Arg String}
    (passed : Begun.nameCommonPool ctx w id = .ok begun) : Accepted ctx w begun := by
  simp only [Begun.nameCommonPool, bind_eq_ok] at passed
  obtain ⟨id, _, _, fresh, made⟩ := passed
  have unknown := World.unknown_of_checkFresh fresh
  cases known : w.common with
  | some p =>
      simp only [commonPool, known] at made
      cases made
      exact .sharesPool unknown known
  | none =>
      simp only [commonPool, known] at made
      cases made
      refine @Accepted.startsShared ctx w _ (fun _ => none)
        { PoolConfig.standard w.host.cores with name := "taskset-global" } _ unknown known ?_
      rw [PoolConfig.started_none, Ne, List.range_eq_nil]
      exact Nat.ne_of_gt (Nat.lt_of_lt_of_le Nat.one_pos (Nat.le_max_right ..))

theorem issueToken_accepted {id pool : Arg String}
    (passed : Begun.issueToken ctx w id pool = .ok begun) : Accepted ctx w begun := by
  simp only [Begun.issueToken, bind_eq_ok] at passed
  obtain ⟨id, _, _, fresh, pool, _, p, found, made⟩ := passed
  cases made
  exact .issuesToken (World.unknown_of_checkFresh fresh) found

theorem makeBatch_accepted {id pool : Arg String} {multiplier : Arg Nat} {single : Arg Bool}
    (passed : Begun.makeBatch ctx w id pool multiplier single = .ok begun) :
    Accepted ctx w begun := by
  simp only [Begun.makeBatch, bind_eq_ok] at passed
  obtain ⟨id, _, _, fresh, pool, _, p, found, multiplier, _, single, _, made⟩ := passed
  cases made
  exact .makesBatch (World.unknown_of_checkFresh fresh) found

theorem drop_accepted {id : Arg String} (passed : Begun.drop ctx w id = .ok begun) :
    Accepted ctx w begun := by
  simp only [Begun.drop, bind_eq_ok] at passed
  obtain ⟨name, _, _, _, _, apart, object, resolved, _, idle, made⟩ := passed
  have named := World.find_of_resolve resolved
  have idle : w.isBusy object = false := by simpa using Refusal.of_unless idle
  cases object with
  | pool p =>
      cases made
      exact .dropsPool named idle
  | commonPool p =>
      cases made
      exact .forgetsPool named
  | token t =>
      cases made
      exact .dropsToken named idle
  | batch b =>
      cases made
      exact .dropsBatch named (by simpa using Refusal.of_unless apart) idle

theorem finds_of_resolve {name : String} {object : Object} {other : Option String}
    {token' : Option Object} (resolved : w.resolve ctx.thread name = .ok object)
    (given : token.optional = .ok other)
    (resolved' : Begun.resolveOptional ctx w other = .ok token') :
    w.Finds ctx.thread name object token token' := by
  cases token with
  | malformed => cases given
  | missing =>
      cases given
      cases resolved'
      exact .alone resolved
  | given name' =>
      cases given
      rw [Begun.resolveOptional] at resolved'
      cases found : w.resolve ctx.thread name' with
      | error reason =>
          rw [found] at resolved'
          cases resolved'
      | ok object' =>
          rw [found] at resolved'
          cases resolved'
          exact .through resolved found

theorem schedule_accepted {task : Arg (TaskSource Op)} {via : Arg Via}
    (passed : Begun.schedule ctx w on task via token = .ok begun) : Accepted ctx w begun := by
  simp only [Begun.schedule, bind_eq_ok] at passed
  obtain ⟨name, _, task, _, ⟨label, body⟩, _, via, _, other, given, on, resolved, token, resolved',
    entry, point, _, free, made⟩ := passed
  cases made
  exact .submits (finds_of_resolve resolved given resolved') point free

theorem exec_accepted (passed : Begun.exec ctx w on token = .ok begun) : Accepted ctx w begun := by
  simp only [Begun.exec, bind_eq_ok] at passed
  obtain ⟨name, _, other, given, on, resolved, token, resolved', source, found, _, free, made⟩ :=
    passed
  have executes := Accepted.executes (finds_of_resolve resolved given resolved') found free
  rw [Source.executed] at executes
  split at made <;> cases made
  · next runs =>
      rw [runs] at executes
      exact executes
  · next none =>
      rw [none] at executes
      exact executes

theorem execAll_accepted (passed : Begun.execAll ctx w on token = .ok begun) :
    Accepted ctx w begun := by
  simp only [Begun.execAll, bind_eq_ok] at passed
  obtain ⟨name, _, other, given, on, resolved, token, resolved', source, found, made⟩ := passed
  cases made
  exact .sweeps (finds_of_resolve resolved given resolved') found

theorem wait_accepted {onFailure : OnFailure} {elsewhere : Bool}
    (passed : Begun.wait ctx w on onFailure elsewhere = .ok begun) : Accepted ctx w begun := by
  simp only [Begun.wait, bind_eq_ok] at passed
  obtain ⟨name, _, object, resolved, _, apart, b, kind, _, _, _, idle, made⟩ := passed
  have named := World.find_of_resolve resolved
  have idle : w.inUse object = false := by simpa using Refusal.of_unless idle
  cases object with
  | pool | commonPool | token => cases kind
  | batch c =>
      cases kind
      split at made <;> cases made
      · exact .movesAway named idle
      · exact .waits named (by simpa using Refusal.of_unless apart) idle

theorem tryWait_accepted {max : Arg Nat} {onFailure : OnFailure}
    (passed : Begun.tryWait ctx w on max onFailure = .ok begun) : Accepted ctx w begun := by
  simp only [Begun.tryWait, bind_eq_ok] at passed
  obtain ⟨max, _, name, _, object, resolved, b, kind, _, idle, made⟩ := passed
  have named := World.find_of_resolve resolved
  have idle : w.inUse object = false := by simpa using Refusal.of_unless idle
  cases object with
  | pool | commonPool | token => cases kind
  | batch c =>
      cases kind
      cases made
      exact .triesToWait named idle

theorem reply_accepted (reply : Reply) : Accepted ctx w (Begun.reply w reply) :=
  .rests (.refl w) rfl rfl rfl rfl rfl

theorem stat_accepted (passed : Begun.stat ctx w on = .ok begun) : Accepted ctx w begun := by
  simp only [Begun.stat, bind_eq_ok] at passed
  obtain ⟨name, _, object, _, made⟩ := passed
  cases object with
  | pool | commonPool =>
      cases made
      exact reply_accepted _
  | token => cases made
  | batch =>
      obtain ⟨_, _, made⟩ := bind_eq_ok.mp made
      cases made
      exact reply_accepted _

theorem hold_accepted {gate : Arg String} {workers : Arg Nat}
    (passed : Begun.hold ctx w on gate workers = .ok begun) : Accepted ctx w begun := by
  simp only [Begun.hold, bind_eq_ok] at passed
  obtain ⟨name, _, p, found, gate, _, jobs, _, _, few, made⟩ := passed
  cases made
  exact .holds found (by simpa using Refusal.of_unless few)

theorem producers_accepted {threads : Arg (List (List Op))}
    (passed : Begun.producers ctx w threads = .ok begun) : Accepted ctx w begun := by
  simp only [Begun.producers, bind_eq_ok] at passed
  obtain ⟨_, _, scripts, _, _, _, made⟩ := passed
  cases made
  exact .joins

theorem block_accepted (gate : String) : Accepted ctx w { Turn.block ctx w gate with } := by
  unfold Turn.block
  split
  · exact .rests ⟨rfl, rfl, rfl, rfl⟩ rfl rfl rfl rfl rfl
  · exact .pauses ⟨rfl, rfl, rfl, rfl⟩ rfl rfl rfl rfl rfl rfl

/-- Whatever operation passes its checks, what it does is on the list. -/
theorem ofOp_accepted {op : Op} (passed : Begun.ofOp ctx w op = .ok begun) :
    Accepted ctx w begun := by
  cases op with
  | malformed | catching => cases passed
  | pool => exact startPool_accepted passed
  | commonPool => exact nameCommonPool_accepted passed
  | token => exact issueToken_accepted passed
  | batch => exact makeBatch_accepted passed
  | drop => exact drop_accepted passed
  | schedule => exact schedule_accepted passed
  | exec => exact exec_accepted passed
  | execAll => exact execAll_accepted passed
  | wait => exact wait_accepted passed
  | tryWait => exact tryWait_accepted passed
  | stat => exact stat_accepted passed
  | hold => exact hold_accepted passed
  | producers => exact producers_accepted passed
  | defaults | note | thread =>
      cases passed
      exact reply_accepted _
  | panic | count | openGate =>
      obtain ⟨_, _, made⟩ := bind_eq_ok.mp passed
      cases made
      exact .rests ⟨rfl, rfl, rfl, rfl⟩ rfl rfl rfl rfl rfl
  | add =>
      simp only [ofOp, bind_eq_ok] at passed
      obtain ⟨_, _, _, _, made⟩ := passed
      cases made
      exact .rests ⟨rfl, rfl, rfl, rfl⟩ rfl rfl rfl rfl rfl
  | sleep =>
      obtain ⟨_, _, made⟩ := bind_eq_ok.mp passed
      cases made
      exact .pauses (.refl w) rfl rfl rfl rfl rfl rfl
  | awaitCount | awaitArrived =>
      simp only [ofOp, bind_eq_ok] at passed
      obtain ⟨_, _, _, _, made⟩ := passed
      cases made
      exact .pauses (.refl w) rfl rfl rfl rfl rfl rfl
  | block =>
      obtain ⟨_, _, made⟩ := bind_eq_ok.mp passed
      cases made
      exact block_accepted _

end Begun

end TaskPool
