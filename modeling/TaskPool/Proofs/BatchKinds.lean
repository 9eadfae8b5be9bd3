import TaskPool.Proofs.ClosedBatches
import TaskPool.Proofs.MergedStep

/-!
# Both kinds of batch behave alike

When one batch at a time is alive on a pool, and all jobs of the pool are submitted to it, nobody
can tell which kind of batch it is. A batch with a single producer then has all jobs of the pool in
its lane, a batch with many producers has them in the shared queue, in the same order. So the script
whose batches on the pools of a name have a single producer and the script whose batches there have
many make the same turns, and each machine is the other one with the lanes of these pools merged.
-/

namespace TaskPool

open TaskPool.System

/-! ## What can be seen -/

/-- What an event tells, besides in which queue a job waits and how a batch submits. -/
inductive Seen where
  | submitted (job : JobId) (batch : Option BatchId) (runsNow : Bool)
  | logged (level : Level) (message : String) (fields : List (String × Field))
  /-- Any other event, with all that belongs to it. -/
  | told (event : Event)

/-- A log event is seen by its level, its text and its fields, except for the kind of a batch. -/
def Event.seen : Event → Seen
  | .submitted job batch route => .submitted job batch route.runsNow
  | .logged notice => .logged notice.level notice.message (notice.fields.filter (·.1 ≠ "kind"))
  | event => .told event

/-- The event only tells that a token of the pools comes or goes. -/
def Event.isTokenOf (s : System Work) (pools : PoolId → Bool) : Event → Bool
  | .logged (.tokenRegistered t _) | .logged (.tokenReleased t _ _) => pools (s.token t).pool
  | _ => false

namespace Machine

/-- The pools are those that go by the name, one after the other. On each of them one batch at a
time is alive, its tokens are those of batches, its jobs are submitted to batches, and no operation
depends on what kind of batch there is. -/
structure Reserved (m : Machine) (name : String) (pools : PoolId → Bool) : Prop where
  named : ∀ other p, m.world.names.find? other = some (.pool p) → (other = name ↔ pools p = true)
  alone : ∀ b c, (m.world.system.batch b).stage ≠ .closed → (m.world.system.batch c).stage ≠ .closed →
    pools (m.world.system.batch b).pool = true →
    (m.world.system.batch b).pool = (m.world.system.batch c).pool → b = c
  owned : ∀ t, t.index < m.world.system.tokens.length → pools (m.world.system.token t).pool = true →
    ∃ b, (m.world.system.batch b).kind = .single t
  wrapped : ∀ job p inlet, pools p = true → .submitted job none (.queued p inlet) ∉ m.history
  plain : ∀ op base, m.Begins op base → m.world.KindFree pools op.uncaught.2

/-- Two machines that differ in nothing that can be seen, but for the tokens of the pools. -/
structure LooksLike (m m' : Machine) (pools : PoolId → Bool) : Prop where
  alone : m'.others = []
  seen : m'.history.map Event.seen =
    (m.history.filter (!·.isTokenOf m.world.system pools)).map Event.seen
  outstanding : ∀ b, m'.world.system.outstanding b = m.world.system.outstanding b
  queued : ∀ q, (m'.world.system.pool q).queued = (m.world.system.pool q).queued
  counters : m'.world.counters = m.world.counters
  finished : m'.driver.frames = [] ↔ m.driver.frames = []

variable {m : Machine} {turns : Nat}

theorem Solo.grows (solo : m.Solo) (alone : m.Alone turns) :
    m.world.system.Grows (m.run turns).world.system := by
  induction turns generalizing m with
  | zero => exact .refl _
  | succ turns ih =>
      cases stepped : m.step with
      | none =>
          rw [run_stuck stepped]
          exact .refl _
      | some next =>
          have still : next.others = [] := by
            have first := alone 1 (by omega)
            rwa [run_one stepped] at first
          have later : next.Alone turns := by
            intro k below
            rw [← run_of_step stepped]
            exact alone (k + 1) (by omega)
          have first : m.world.system.Grows next.world.system := by
            rcases solo.moves stepped still with same | moves
            · have system : next.world.system = m.world.system := congrArg Scene.system same
              rw [system]
              exact .refl _
            · exact moves.grows solo.sound.scene.registry
          rw [run_of_step stepped]
          exact first.trans (ih (.turn solo stepped still) later)

end Machine

namespace Merging

variable {μ : Merging} {s s' : System Work} {m : Machine} {turns : Nat}

theorem Covers.earlier (covers : μ.Covers s') (grows : s.Grows s') : μ.Covers s := by
  intro t known
  obtain ⟨known', pool⟩ := grows.tokens t known
  rw [covers t known', pool]

/-- Reserved pools are used as the merging needs it. The jobs of such a pool are those of batches
that are not closed, since nothing is left of a closed one, and there is only one such batch. -/
theorem Suits.of_reserved (solo : m.Solo) (reserved : m.Reserved μ.name μ.home)
    (covers : μ.Covers m.world.system) : μ.Suits m.world := by
  have sound := solo.sound.scene
  have registry : Registry m.world.system m.world.names := sound.registry
  have owned : ∀ t, μ.own t = true → t.index < m.world.system.tokens.length →
      ∃ b, (m.world.system.batch b).kind = .single t :=
    fun t own known => reserved.owned t known ((covers t known).symm.trans own)
  refine
    { registry
      covers
      owned
      narrow := ?_
      named := reserved.named
      opened := ?_
      loans := ?_ }
  · intro b opened home inlet apart
    rw [List.eq_nil_iff_forall_not_mem]
    intro job member
    have filing := (sound.filed _).of_queue member
    cases wrapped : job.batch with
    | none =>
        obtain ⟨inlet', logged⟩ := filing.logged
        exact reserved.wrapped job.id _ inlet' home (wrapped ▸ logged)
    | some c =>
        have waiting := solo.balanced.awaits (Pool.mem_contents_of_queue member) wrapped
        have opened' : (m.world.system.batch c).stage ≠ .closed :=
          fun closed => Nat.ne_of_gt waiting (solo.settled c closed).1
        cases reserved.alone b c opened opened' home (filing.home c wrapped).2.symm
        exact apart ((solo.accounted opened).inlet _ inlet job member wrapped).2
  · intro t opened own
    have known := token_known opened
    obtain ⟨b, owns⟩ := owned t own known
    refine ⟨b, ?_, fun closed => opened ((solo.settled b closed).2 t owns)⟩
    exact (registry.owned b t owns).2.1.symm
  · intro loan member
    obtain ⟨name, found⟩ := sound.custody.named loan member
    exact keeps_of_nameable owned (registry.named name _ (Table.mem_of_find? found))

/-! ## Whole runs -/

/-- As long as the pools are reserved, the merged machine runs in step with the machine. -/
theorem run_mapped (solo : m.Solo) (alone : m.Alone turns)
    (reserved : ∀ k ≤ turns, (m.run k).Reserved μ.name μ.home)
    (covers : μ.Covers (m.run turns).world.system) :
    (μ.machine m).run turns = μ.machine (m.run turns) := by
  induction turns generalizing m with
  | zero => rfl
  | succ turns ih =>
      have here := reserved 0 (Nat.zero_le _)
      have suits := Suits.of_reserved solo here (covers.earlier (solo.grows alone))
      have later : ∀ next, m.step = some next → next.Alone turns := by
        intro next stepped k below
        rw [← Machine.run_of_step stepped]
        exact alone (k + 1) (by omega)
      have solo' : ∀ next, m.step = some next → next.Solo := fun next stepped =>
        .turn solo stepped (later next stepped 0 (Nat.zero_le _))
      have keeping : ∀ next, m.step = some next → μ.Keeping next.world.system next.history := by
        intro next stepped
        have there := reserved 1 (by omega)
        rw [Machine.run_one stepped] at there
        rw [Machine.run_of_step stepped] at covers
        have covers := covers.earlier ((solo' next stepped).grows (later next stepped))
        exact
          { covers
            owned := fun t own known => there.owned t known ((covers t known).symm.trans own)
            wrapped := there.wrapped }
      have mapped := step_mapped suits solo here.plain keeping
      cases stepped : m.step with
      | none =>
          rw [stepped] at mapped
          rw [Machine.run_stuck mapped, Machine.run_stuck stepped]
      | some next =>
          rw [stepped] at mapped
          rw [Machine.run_of_step mapped, Machine.run_of_step stepped]
          rw [Machine.run_of_step stepped] at covers
          refine ih (solo' next stepped) (later next stepped) (fun k below => ?_) covers
          rw [← Machine.run_of_step stepped]
          exact reserved (k + 1) (by omega)

theorem load_mapped (bodies : Table (List Op)) (host : Host) (ops : List Op) :
    μ.machine (Machine.load bodies host ops) =
      Machine.load (bodiesAsMulti μ.name bodies) host (opsAsMulti μ.name ops) := rfl

/-! ## What is seen of them -/

theorem history_mapped (m : Machine) : (μ.machine m).history = m.history.filterMap μ.event := by
  simp only [Machine.history, Merging.machine, ← List.filterMap_reverse, List.map_filterMap,
    List.filterMap_map]
  congr 1
  funext record
  simp only [Function.comp_apply, Option.map_map]
  cases μ.event record.event <;> rfl

theorem seen_mapped (own : ∀ t, μ.own t = μ.home (s.token t).pool) (event : Event) :
    (μ.event event).map Event.seen =
      if event.isTokenOf s μ.home then none else some event.seen := by
  cases event with
  | logged notice =>
      cases notice with
      | tokenRegistered t | tokenReleased t =>
          simp only [Merging.event, Merging.notice, Event.isTokenOf, ← own]
          cases μ.own t <;> rfl
      | batchClosed b name kind | failureUnobserved b name kind =>
          exact congrArg (fun fields => some (Seen.logged _ _ fields)) rfl
      | _ => rfl
  | submitted job batch route => cases route <;> rfl
  | _ => rfl

theorem history_seen (own : ∀ t, μ.own t = μ.home (s.token t).pool)
    (history : List Event) :
    (history.filterMap μ.event).map Event.seen =
      (history.filter (!·.isTokenOf s μ.home)).map Event.seen := by
  induction history with
  | nil => rfl
  | cons event rest ih =>
      have first := seen_mapped own event
      cases token : event.isTokenOf s μ.home with
      | true =>
          rw [token, if_pos rfl, Option.map_eq_none_iff] at first
          rw [List.filterMap_cons_none first, List.filter_cons_of_neg (by simp [token]), ih]
      | false =>
          rw [token, if_neg Bool.false_ne_true, Option.map_eq_some_iff] at first
          obtain ⟨event', becomes, same⟩ := first
          rw [List.filterMap_cons_some becomes, List.filter_cons_of_pos (by simp [token]),
            List.map_cons, List.map_cons, same, ih]

theorem looksLike_machine (own : ∀ t, μ.own t = μ.home (m.world.system.token t).pool)
    (solo : m.Solo) : m.LooksLike (μ.machine m) μ.home where
  alone := congrArg (List.map μ.thread) solo.others
  seen := by
    rw [history_mapped]
    exact history_seen own m.history
  outstanding b := by
    have batch : (μ.machine m).world.system.batch b = μ.batch (m.world.system.batch b) :=
      batch_system b
    rw [outstanding, batch]
    rfl
  queued q := by
    have pool : (μ.machine m).world.system.pool q = μ.pool (m.world.system.pool q) :=
      pool_system q
    rw [pool]
    rfl
  counters := rfl
  finished := List.map_eq_nil_iff

end Merging

namespace Machine

/-- Batches with a single producer and batches with many are interchangeable on pools that are
reserved for one batch at a time: every operation has the same reply, the tasks start and end in the
same order, the same is outstanding and queued after every turn, and the log is the same but for the
tokens and the kinds of the batches. -/
theorem single_looks_like_multi {bodies : Table (List Op)} {host : Host} {ops : List Op}
    {name : String} {pools : PoolId → Bool} {turns : Nat}
    (alone : (load bodies host ops).Alone turns)
    (reserved : ∀ k ≤ turns, ((load bodies host ops).run k).Reserved name pools) :
    ∀ k ≤ turns, ((load bodies host ops).run k).LooksLike
      ((load (bodiesAsMulti name bodies) host (opsAsMulti name ops)).run k) pools := by
  intro k below
  have alone := alone.le below
  have solo := Solo.load bodies host ops
  let final := (load bodies host ops).run k
  let μ : Merging := ⟨name, pools, fun t => pools (final.world.system.token t).pool⟩
  have ran : (μ.machine (load bodies host ops)).run k = μ.machine final :=
    Merging.run_mapped solo alone (fun j before => reserved j (Nat.le_trans before below))
      fun _ _ => rfl
  rw [← Merging.load_mapped (μ := μ) bodies host ops, ran]
  exact Merging.looksLike_machine (fun _ => rfl) (solo.after alone)

end Machine

/-! ## Checking that pools are reserved -/

/-- The operation means the same for both kinds of batch, whatever there is in the world. -/
def Op.isKindFree : Op → Bool
  | .schedule _ _ (.given .skip) _ | .wait _ _ true => false
  | _ => true

theorem World.kindFree_of_op {w : World} {pools : PoolId → Bool} {op : Op}
    (free : op.isKindFree = true) : w.KindFree pools op := by
  unfold World.KindFree
  split
  · cases free
  · cases free
  · trivial

namespace Machine

def beginning? (m : Machine) : Option Op :=
  match m.driver.signal, m.driver.frames with
  | .proceed, .program (op :: _) :: _ | .proceed, .body _ _ _ (op :: _) _ :: _ => some op
  | _, _ => none

/-- Whether the pools are reserved, as far as a look at the machine tells. -/
def reserves (m : Machine) (name : String) (pools : PoolId → Bool) : Bool :=
  let s := m.world.system
  let alive := ((List.range s.batches.length).map BatchId.mk).filter fun b =>
    (s.batch b).stage ≠ .closed ∧ pools (s.batch b).pool = true
  m.world.names.all (fun (other, object) =>
      match object with
      | .pool p => decide (other = name ↔ pools p = true)
      | _ => true) &&
    alive.all (fun b => alive.all fun c => (s.batch b).pool = (s.batch c).pool → b = c) &&
    (List.range s.tokens.length).all (fun t =>
      !pools (s.token ⟨t⟩).pool || s.batches.any (·.kind = .single ⟨t⟩)) &&
    m.history.all (fun
      | .submitted _ none (.queued p _) => !pools p
      | _ => true) &&
    m.beginning?.all (·.uncaught.2.isKindFree)

theorem Reserved.of_reserves {m : Machine} {name : String} {pools : PoolId → Bool}
    (check : m.reserves name pools = true) :
    m.Reserved name pools := by
  simp only [reserves, Bool.and_eq_true, List.all_eq_true, List.mem_filter, List.mem_map,
    List.mem_range, decide_eq_true_eq, Bool.or_eq_true, List.any_eq_true] at check
  obtain ⟨⟨⟨⟨names, alive⟩, tokens⟩, history⟩, begins⟩ := check
  have known : ∀ b, (m.world.system.batch b).stage ≠ .closed →
      ∃ i < m.world.system.batches.length, BatchId.mk i = b :=
    fun b opened => ⟨b.index, batch_known opened, rfl⟩
  refine
    { named := fun other q found => of_decide_eq_true (names _ (Table.mem_of_find? found))
      alone := fun b c opened opened' home same =>
        alive b ⟨known b opened, opened, home⟩ c ⟨known c opened', opened', same ▸ home⟩ same
      owned := ?_
      wrapped := ?_
      plain := ?_ }
  · intro t below home
    rcases tokens t.index below with other | ⟨batch, member, kind⟩
    · rw [home] at other
      cases other
    · obtain ⟨i, inside, rfl⟩ := List.mem_iff_getElem.mp member
      exact ⟨⟨i⟩, by simpa [System.batch, List.getD_eq_getElem?_getD, inside] using kind⟩
  · intro job p inlet home logged
    have other : (!pools p) = true := history _ logged
    rw [home] at other
    cases other
  · rintro op base ⟨proceed, frame, frame', below, top, performs, rfl⟩
    refine World.kindFree_of_op ?_
    cases performs <;> simpa [beginning?, proceed, top] using begins

/-- Two batches follow each other on one pool, and a third one is made on the next pool of that
name. The first runs a task that submits another one to the batch and then panics, the second is
dropped before its task has run. -/
def renewed : List Op :=
  [.pool (.given "p") .missing .missing .missing .missing,
    .batch (.given "s") (.given "p") .missing (.given true),
    .schedule (.given "s") (.given (.own "outer"
      [.schedule (.given "s") (.given (.own "inner" [])) (.given .forced) .missing,
        .panic (.given (.fixedText "outer"))])) (.given .forced) .missing,
    .exec (.given "p") .missing,
    .wait (.given "s") .report false,
    .drop (.given "s"),
    .batch (.given "t") (.given "p") .missing (.given true),
    .schedule (.given "t") (.given (.own "last" [])) .missing .missing,
    .drop (.given "t"),
    .drop (.given "p"),
    .pool (.given "p") .missing .missing .missing .missing,
    .batch (.given "u") (.given "p") .missing (.given true)]

/-- Nobody can tell the kind of the three batches up to the end of the script. -/
theorem renewed_looks_alike :
    let single := load [] .plain renewed
    let multi := load [] .plain (opsAsMulti "p" renewed)
    let pools : PoolId → Bool := (·.index < 2)
    single.Alone 65 ∧ (∀ k ≤ 65, (single.run k).Reserved "p" pools) ∧
      (single.run 65).driver.frames = [] ∧ (single.run 65).LooksLike (multi.run 65) pools := by
  intro single multi pools
  have alone : single.Alone 65 :=
    fun k below => List.isEmpty_iff.mp ((by decide : ∀ k ≤ 65, (single.run k).others.isEmpty = true)
      k below)
  have checked : ∀ k ≤ 65, (single.run k).reserves "p" pools = true := by decide
  have reserved : ∀ k ≤ 65, (single.run k).Reserved "p" pools :=
    fun k below => .of_reserves (checked k below)
  exact ⟨alone, reserved, List.isEmpty_iff.mp (by decide),
    single_looks_like_multi alone reserved 65 (Nat.le_refl 65)⟩

end Machine

end TaskPool
