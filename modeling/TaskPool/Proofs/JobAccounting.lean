import Mathlib.Data.List.Nodup
import TaskPool.Proofs.Queues
import TaskPool.SharedPool

/-!
# Every job is somewhere, and is counted until it is handed out

However the steps interleave, the count of a pool is the number of jobs in its queues and in the
hands of the threads, and every job that was submitted is in one of these places or was handed to
one thread. No place is left over when the closing of the pool has ended, so by then all jobs were
handed out.
-/

namespace TaskPool

variable {Work : Type}

/-! ## The pieces together -/

namespace Lane

theorem takeFrom_split {token : TokenId} {passed : List (Lane Work)} (jobs : List (Job Work))
    (later : List (Lane Work)) (absent : ∀ lane ∈ passed, lane.token ≠ token) :
    takeFrom token (passed ++ ⟨token, jobs⟩ :: later) = match jobs with
      | [] => none
      | job :: jobs => some (job, passed ++ ⟨token, jobs⟩ :: later) := by
  induction passed with
  | nil => cases jobs <;> simp [takeFrom]
  | cons lane rest ih =>
      have other := absent lane List.mem_cons_self
      have rest := ih fun lane member => absent lane (List.mem_cons_of_mem _ member)
      simp only [List.cons_append, takeFrom, other, if_false, rest]
      cases jobs <;> rfl

end Lane

namespace Pool

variable {p rest : Pool Work} {inlet : Inlet} {job : Job Work} {token : TokenId}

@[simp] theorem file_count : p.count.file inlet job = p.push inlet job := by
  cases inlet <;> rfl

theorem loses_of_draw (drawn : p.draw inlet = some (job, rest)) :
    p.Loses inlet job rest.discount ∧ rest.queued = p.queued := by
  cases inlet with
  | shared =>
      cases front : p.shared with
      | nil => simp [draw, front] at drawn
      | cons first jobs =>
          simp only [draw, front, Option.some.injEq, Prod.mk.injEq] at drawn
          obtain ⟨rfl, rfl⟩ := drawn
          exact ⟨.shared front, rfl⟩
  | lane token =>
      simp only [draw, Option.map_eq_some_iff, Prod.mk.injEq] at drawn
      obtain ⟨⟨_, lanes⟩, found, rfl, rfl⟩ := drawn
      exact ⟨.lane (Lane.takeFrom_loses found), rfl⟩

theorem popLane_eq_draw (token : TokenId) (p : Pool Work) :
    p.popLane token = (p.draw (.lane token)).map fun (job, rest) => (job, rest.discount) := by
  simp only [popLane, draw, Option.map_map]
  rfl

/-- Jobs move around, and all else stays as it is but the count. -/
structure Moves (p rest : Pool Work) : Prop where
  tokens : rest.lanes.map (·.token) = p.lanes.map (·.token)
  stage : rest.stage = p.stage
  working : rest.working = p.working

theorem Moves.refl (p : Pool Work) : p.Moves p := ⟨rfl, rfl, rfl⟩

theorem moves_file (inlet : Inlet) (job : Job Work) (p : Pool Work) :
    p.Moves (p.file inlet job) := by
  cases inlet with
  | shared => exact ⟨rfl, rfl, rfl⟩
  | lane token => exact ⟨Lane.push_tokens token job p.lanes, rfl, rfl⟩

@[simp] theorem queued_file (inlet : Inlet) (job : Job Work) (p : Pool Work) :
    (p.file inlet job).queued = p.queued := by
  cases inlet <;> rfl

theorem shared_of_missed (missed : p.draw .shared = none) : p.shared = [] := by
  cases front : p.shared with
  | nil => rfl
  | cons first jobs => simp [draw, front] at missed

theorem moves_draw (drawn : p.draw inlet = some (job, rest)) : p.Moves rest := by
  have loses := (loses_of_draw drawn).1
  exact ⟨loses.tokens, loses.stage, loses.workers.2.2⟩

theorem draw_perm (drawn : p.draw inlet = some (job, rest)) :
    p.contents.Perm (job :: rest.contents) := (loses_of_draw drawn).1.perm

theorem file_perm (inlet : Inlet) (job : Job Work)
    (once : ∀ token, inlet = .lane token → (p.lanes.map (·.token)).count token = 1) :
    (p.file inlet job).contents.Perm (job :: p.contents) := by
  have pushed := push_perm job once
  cases inlet <;> exact pushed

theorem detach_perm (token : TokenId) (p : Pool Work) :
    ((p.detach token).2.contents ++ (p.detach token).1).Perm p.contents := by
  have released := release_perm token p
  simp only [contents, release, List.append_assoc] at released
  refine List.Perm.trans ?_ released
  simp only [detach, contents, List.append_assoc]
  exact List.perm_append_comm.append_left _

end Pool

/-! ## Places -/

namespace Hand

/-- The job that is on its way from one place to another. -/
def carried : Hand Work → List (Job Work)
  | counted _ job | drawn job _ | moving job _ => [job]
  | _ => []

def detached : Hand Work → List (Job Work)
  | emptying left | moving _ left => left
  | _ => []

def jobs (hand : Hand Work) : List (Job Work) := hand.carried ++ hand.detached

def isFiling : Hand Work → Bool
  | counted .. => true
  | _ => false

def isDiscounting : Hand Work → Bool
  | drawn .. => true
  | _ => false

def isMoving : Hand Work → Bool
  | moving .. => true
  | _ => false

/-- Whether the shared queue was found empty. -/
def isPast : Hand Work → Bool
  | turning | scanning _ => true
  | _ => false

end Hand

/-- Where a job can be. -/
inductive Place where
  | shared
  | lane (token : TokenId)
  /-- In the queue of a token that a thread is releasing. -/
  | detached (thread : Nat)
  /-- On its way into a queue, out of a queue or from one queue to another. -/
  | carried (thread : Nat)
  | handed (thread : Nat)
  deriving Repr, DecidableEq

namespace SharedPool

variable {s s' : SharedPool Work} {before after : List (Party Work)} {duty : Duty}
  {old new : Hand Work} {pool : Pool Work} {job : Job Work} {config : PoolConfig} {guests : Nat}

def held (s : SharedPool Work) : List (Job Work) := s.threads.flatMap (·.hand.jobs)

def detached (s : SharedPool Work) : List (Job Work) := s.threads.flatMap (·.hand.detached)

def places (s : SharedPool Work) : List (Place × Job Work) :=
  s.pool.shared.map (.shared, ·) ++
  s.pool.lanes.flatMap (fun lane => lane.jobs.map (.lane lane.token, ·)) ++
  s.threads.zipIdx.flatMap (fun (thread, i) =>
    thread.hand.carried.map (.carried i, ·) ++ thread.hand.detached.map (.detached i, ·)) ++
  s.handed.map (fun (i, job) => (.handed i, job))

theorem places_jobs (s : SharedPool Work) :
    s.places.map (·.2) = s.pool.contents ++ s.held ++ s.handed.map (·.2) := by
  have threads : s.held = s.threads.zipIdx.flatMap (·.1.hand.jobs) := by
    conv => lhs; rw [held, ← List.zipIdx_map_fst 0 s.threads]
    exact List.flatMap_map ..
  simp [places, Pool.contents, Lane.contents, threads, Hand.jobs, List.map_flatMap,
    Function.comp_def]

/-- The count of jobs in hands, by what the threads are doing. -/
theorem held_length (s : SharedPool Work) : s.held.length = s.detached.length +
    s.threads.countP (·.hand.isFiling) + s.threads.countP (·.hand.isDiscounting) +
    s.threads.countP (·.hand.isMoving) := by
  simp only [held, detached]
  induction s.threads with
  | nil => rfl
  | cons thread rest ih =>
      obtain ⟨duty, hand⟩ := thread
      simp only [List.flatMap_cons, List.length_append, List.countP_cons, ih]
      cases hand <;> simp [Hand.jobs, Hand.carried, Hand.detached, Hand.isFiling,
        Hand.isDiscounting, Hand.isMoving] <;> omega

end SharedPool

/-! ## What holds however the steps interleave -/

namespace Party

/-- A worker that has not left its loop. -/
def isAtWork : Party Work → Bool
  | ⟨.worker, .stopped⟩ => false
  | ⟨.worker, _⟩ => true
  | _ => false

/-- The thread leaves the pool to the one that closes it. Workers may still look for a job; the
closing thread does so when they have stopped. -/
def Withdraws (pool : Pool Work) : Party Work → Prop
  | ⟨.guest, hand⟩ => hand = .free
  | ⟨.worker, hand⟩ => hand.isBorrowing = false
  | ⟨.closer, hand⟩ => hand.isBorrowing = false ∧ (hand = .free ∨ pool.working = 0) ∧
      (hand.isPast = true → pool.shared = [])

theorem Withdraws.idle {pool : Pool Work} {party : Party Work} (withdraws : party.Withdraws pool) :
    party.hand.isBorrowing = false := by
  obtain ⟨duty, hand⟩ := party
  cases duty with
  | guest => cases withdraws; rfl
  | worker => exact withdraws
  | closer => exact withdraws.1

theorem Withdraws.onward {pool : Pool Work} {duty : Duty} {old new : Hand Work}
    (withdraws : Withdraws pool ⟨duty, old⟩) (busy : old ≠ .free) (idle : new.isBorrowing = false)
    (past : new.isPast = true → old.isPast = true ∨ pool.shared = []) :
    Withdraws pool ⟨duty, new⟩ := by
  cases duty with
  | guest => exact absurd withdraws busy
  | worker => exact idle
  | closer =>
      obtain ⟨_, joined, spent⟩ := withdraws
      exact ⟨idle, .inr (joined.resolve_left busy), fun found => (past found).elim spent id⟩

theorem Withdraws.mono {pool rest : Pool Work} {party : Party Work}
    (withdraws : party.Withdraws pool) (working : pool.working = 0 → rest.working = 0)
    (shared : pool.shared = [] → rest.shared = []) : party.Withdraws rest := by
  obtain ⟨duty, hand⟩ := party
  cases duty with
  | guest | worker => exact withdraws
  | closer =>
      obtain ⟨idle, joined, spent⟩ := withdraws
      exact ⟨idle, joined.imp_right working, fun past => shared (spent past)⟩

end Party

namespace SharedPool

variable {s s' : SharedPool Work} {before after : List (Party Work)} {duty duty' : Duty}
  {old new : Hand Work} {pool : Pool Work} {job : Job Work} {config : PoolConfig} {guests : Nat}

/-- The count, and where the jobs are. -/
structure Balanced (s : SharedPool Work) : Prop where
  counted : s.pool.queued = s.pool.contents.length + s.held.length
  somewhere : s.accepted.Perm (s.pool.contents ++ s.held ++ s.handed.map (·.2))
  numbered : s.accepted.map (·.id.index) = List.range s.accepted.length

/-- The lanes on the list. -/
structure Listed (s : SharedPool Work) : Prop where
  once : (s.pool.lanes.map (·.token)).Nodup
  issued : ∀ token ∈ s.pool.lanes.map (·.token), token.index < s.issued
  /-- A lane stays on the list while a job is filed in it. -/
  used : ∀ thread ∈ s.threads, ∀ token, thread.hand.isUsing token = true →
    token ∈ s.pool.lanes.map (·.token)

/-- How far the closing has come. -/
structure Closing (s : SharedPool Work) : Prop where
  working : s.pool.working = s.threads.countP (·.isAtWork)
  closers : s.threads.countP (·.duty = .closer) = if s.pool.stage = .live then 0 else 1
  withdrawn : s.pool.stage ≠ .live →
    s.pool.lanes = [] ∧ ∀ thread ∈ s.threads, thread.Withdraws s.pool
  ended : s.pool.stage = .closed → s.pool.contents = [] ∧ s.held = []

/-- What holds however the steps interleave. -/
structure Kept (s : SharedPool Work) : Prop where
  balanced : s.Balanced
  lanes : s.Listed
  closing : s.Closing

def others (before after : List (Party Work)) : List (Job Work) :=
  (before ++ after).flatMap (·.hand.jobs)

theorem held_perm (thread : s.threads = before ++ ⟨duty, old⟩ :: after) :
    s.held.Perm (old.jobs ++ others before after) := by
  have split : (before ++ (⟨duty, old⟩ : Party Work) :: after).Perm
      (⟨duty, old⟩ :: (before ++ after)) := List.perm_middle
  rw [held, thread]
  exact split.flatMap_right (·.hand.jobs)

theorem held_turn : (s.turn before duty new after pool).held.Perm
    (new.jobs ++ others before after) := held_perm rfl

/-- What leaves the queues comes to hand, and the other way round. -/
theorem turn_perm (duty' : Duty) (thread : s.threads = before ++ ⟨duty, old⟩ :: after)
    (same : (pool.contents ++ new.jobs).Perm (s.pool.contents ++ old.jobs)) :
    (pool.contents ++ (s.turn before duty' new after pool).held).Perm
      (s.pool.contents ++ s.held) := by
  have moved := same.append_right (others before after)
  simp only [List.append_assoc] at moved
  exact (held_turn.append_left _).trans
    (moved.trans ((held_perm thread).symm.append_left _))

theorem countP_split (p : Party Work → Bool) (party : Party Work) :
    (before ++ party :: after).countP p = before.countP p + after.countP p + (p party).toNat := by
  cases held : p party <;> simp [held, Nat.add_assoc]

theorem mem_split {party other : Party Work} (member : party ∈ before ++ other :: after) :
    party ∈ before ++ after ∨ party = other := by
  simp only [List.mem_append, List.mem_cons] at member ⊢
  rcases member with inside | rfl | inside
  · exact .inl (.inl inside)
  · exact .inr rfl
  · exact .inl (.inr inside)

theorem mem_of_others {party other : Party Work} (member : party ∈ before ++ after) :
    party ∈ before ++ other :: after := by
  simp only [List.mem_append, List.mem_cons] at member ⊢
  exact member.imp_right .inr

/-! ### Jobs change places -/

theorem Balanced.moves (balanced : s.Balanced)
    (thread : s.threads = before ++ ⟨duty, old⟩ :: after) (queued : pool.queued = s.pool.queued)
    (same : (pool.contents ++ new.jobs).Perm (s.pool.contents ++ old.jobs)) :
    (s.turn before duty' new after pool).Balanced := by
  have total := turn_perm duty' thread same
  have length := total.length_eq
  simp only [List.length_append] at length
  exact
    { counted := queued.trans (balanced.counted.trans length.symm)
      somewhere := balanced.somewhere.trans (total.symm.append_right _)
      numbered := balanced.numbered }

theorem Balanced.counts (balanced : s.Balanced) (inlet : Inlet)
    (thread : s.threads = before ++ ⟨duty, .free⟩ :: after)
    (fresh : job.id.index = s.accepted.length) :
    Balanced { s.turn before duty (.counted inlet job) after s.pool.count with
      accepted := s.accepted ++ [job] } := by
  have rest : (others before after).Perm s.held := (held_perm thread).symm
  have gained : (s.turn before duty (.counted inlet job) after s.pool.count).held.Perm
      (job :: s.held) := held_turn.trans (rest.cons job)
  have one := gained.length_eq
  exact
    { counted := by
        have counted := balanced.counted
        simp only [List.length_cons] at one
        simp only [Pool.count, turn, held, Pool.contents] at counted one ⊢
        omega
      somewhere := by
        have somewhere := (balanced.somewhere.append_right [job]).trans
          (List.perm_append_singleton job _)
        refine somewhere.trans ?_
        have inside := (gained.symm.append_left s.pool.contents).append_right
          (s.handed.map (·.2))
        refine List.Perm.trans ?_ inside
        simp only [List.append_assoc, List.cons_append]
        exact List.perm_middle.symm
      numbered := by
        rw [List.map_append, List.length_append, balanced.numbered, List.map_singleton, fresh]
        exact List.range_succ.symm }

theorem Balanced.discounts (balanced : s.Balanced) {locked : Bool}
    (thread : s.threads = before ++ ⟨duty, .drawn job locked⟩ :: after) :
    0 < s.pool.queued ∧
    Balanced { s.turn before duty .free after s.pool.discount with
      handed := s.handed ++ [(before.length, job)] } := by
  have rest : (s.turn before duty .free after s.pool.discount).held.Perm
      (others before after) := held_turn
  have lost : s.held.Perm
      (job :: (s.turn before duty .free after s.pool.discount).held) :=
    (held_perm thread).trans (rest.symm.cons job)
  have one := lost.length_eq
  have counted := balanced.counted
  simp only [List.length_cons] at one
  refine ⟨by omega, ?_⟩
  exact
    { counted := by
        simp only [Pool.discount, turn, held, Pool.contents] at counted one ⊢
        omega
      somewhere := by
        have somewhere := balanced.somewhere.trans
          ((lost.append_left s.pool.contents).append_right (s.handed.map (·.2)))
        refine somewhere.trans ?_
        simp only [List.map_append, List.map_singleton, ← List.append_assoc]
        refine List.Perm.trans ?_ (List.perm_append_singleton job _).symm
        simp only [List.append_assoc, List.cons_append]
        exact List.perm_middle
      numbered := balanced.numbered }

/-! ### Lanes come and go -/

theorem Listed.moves (listed : s.Listed) (thread : s.threads = before ++ ⟨duty, old⟩ :: after)
    (tokens : pool.lanes.map (·.token) = s.pool.lanes.map (·.token))
    (used : ∀ token, new.isUsing token = true → token ∈ s.pool.lanes.map (·.token)) :
    (s.turn before duty' new after pool).Listed where
  once := tokens ▸ listed.once
  issued := tokens ▸ listed.issued
  used party member token filing := by
    rcases mem_split member with member | rfl
    · have inside := listed.used party (by rw [thread]; exact mem_of_others member) token filing
      exact tokens ▸ inside
    · exact tokens ▸ used token filing

theorem Listed.registers (listed : s.Listed)
    (thread : s.threads = before ++ ⟨duty, .free⟩ :: after) :
    Listed { s.turn before duty .free after (s.pool.register ⟨s.issued⟩) with
      issued := s.issued + 1 } := by
  have tokens : (s.pool.register ⟨s.issued⟩).lanes.map (·.token) =
      s.pool.lanes.map (·.token) ++ [⟨s.issued⟩] := by simp [Pool.register]
  exact
    { once := by
        rw [turn, tokens, List.nodup_append]
        refine ⟨listed.once, by simp, ?_⟩
        intro token member other last same
        have older := listed.issued token member
        rw [same, List.mem_singleton.mp last] at older
        exact absurd older (Nat.lt_irrefl _)
      issued := by
        intro token member
        rw [turn, tokens, List.mem_append] at member
        rcases member with member | member
        · exact Nat.lt_succ_of_lt (listed.issued token member)
        · rw [List.mem_singleton.mp member]
          exact Nat.lt_succ_self _
      used := by
        intro party member token filing
        rw [turn, tokens, List.mem_append]
        rcases mem_split member with member | rfl
        · exact .inl (listed.used party (by rw [thread]; exact mem_of_others member) token filing)
        · cases filing }

theorem Listed.unregisters (listed : s.Listed) (token : TokenId)
    (thread : s.threads = before ++ ⟨duty, .free⟩ :: after)
    (unused : ∀ thread ∈ s.threads, thread.hand.isUsing token = false) :
    (s.turn before duty (.emptying (s.pool.detach token).1) after
      (s.pool.detach token).2).Listed := by
  have tokens : (s.pool.detach token).2.lanes.map (·.token) =
      (s.pool.lanes.map (·.token)).filter (· ≠ token) := by
    simp [Pool.detach, List.filter_map, Function.comp_def]
  exact
    { once := by
        rw [turn, tokens]
        exact listed.once.filter _
      issued := by
        intro other member
        rw [turn, tokens] at member
        exact listed.issued other (List.mem_filter.mp member).1
      used := by
        intro party member other filing
        rw [turn, tokens]
        rcases mem_split member with member | rfl
        · have member : party ∈ s.threads := by rw [thread]; exact mem_of_others member
          refine List.mem_filter.mpr ⟨listed.used party member other filing, ?_⟩
          refine decide_eq_true fun same => ?_
          rw [same, unused party member] at filing
          cases filing
        · cases filing }

/-! ### The closing goes on -/

theorem Closing.live (closing : s.Closing)
    (thread : s.threads = before ++ ⟨duty, old⟩ :: after) (borrowing : old.isBorrowing = true) :
    s.pool.stage = .live := by
  refine Decidable.byContradiction fun begun => ?_
  have idle := ((closing.withdrawn begun).2 ⟨duty, old⟩ (by simp [thread])).idle
  rw [borrowing] at idle
  cases idle

/-- Before the closing begins there is nothing to it but to count the workers. -/
theorem Closing.moves_live (closing : s.Closing)
    (thread : s.threads = before ++ ⟨duty, old⟩ :: after) (live : s.pool.stage = .live)
    (stage : pool.stage = s.pool.stage) (working : pool.working = s.pool.working)
    (atWork : Party.isAtWork ⟨duty, new⟩ = Party.isAtWork ⟨duty, old⟩) :
    (s.turn before duty new after pool).Closing where
  working := by
    have counted := closing.working
    rw [thread, countP_split, ← atWork] at counted
    simp only [turn, countP_split, working]
    exact counted
  closers := by
    have closers := closing.closers
    rw [thread, countP_split] at closers
    simp only [turn, countP_split, stage]
    exact closers
  withdrawn begun := absurd (stage.trans live) begun
  ended closed := by
    rw [show (s.turn before duty new after pool).pool.stage = .live from stage.trans live] at closed
    cases closed

theorem Closing.moves (closing : s.Closing)
    (thread : s.threads = before ++ ⟨duty, old⟩ :: after) (moves : s.pool.Moves pool)
    (gone : s.pool.contents = [] → old.jobs = [] → pool.contents = [] ∧ new.jobs = [])
    (atWork : Party.isAtWork ⟨duty, new⟩ = Party.isAtWork ⟨duty, old⟩)
    (shared : s.pool.shared = [] → pool.shared = [])
    (withdraws : s.pool.stage ≠ .live → Party.Withdraws s.pool ⟨duty, old⟩ →
      Party.Withdraws s.pool ⟨duty, new⟩) :
    (s.turn before duty new after pool).Closing := by
  by_cases live : s.pool.stage = .live
  · exact closing.moves_live thread live moves.stage moves.working atWork
  · obtain ⟨released, withdrawn⟩ := closing.withdrawn live
    exact
      { working := by
          have counted := closing.working
          rw [thread, countP_split, ← atWork] at counted
          simp only [turn, countP_split, moves.working]
          exact counted
        closers := by
          have closers := closing.closers
          rw [thread, countP_split] at closers
          simp only [turn, countP_split, moves.stage]
          exact closers
        withdrawn := by
          intro _
          refine ⟨?_, ?_⟩
          · have tokens := moves.tokens
            rw [released] at tokens
            exact List.map_eq_nil_iff.mp tokens
          · intro party member
            have withdrew : party.Withdraws s.pool := by
              rcases mem_split member with member | rfl
              · exact withdrawn party (by rw [thread]; exact mem_of_others member)
              · exact withdraws live (withdrawn _ (by simp [thread]))
            exact withdrew.mono (fun joined => moves.working.trans joined) shared
        ended := by
          intro closed
          obtain ⟨empty, free⟩ := closing.ended (moves.stage ▸ closed)
          have nothing := (held_perm thread).symm
          rw [free] at nothing
          obtain ⟨own, rest⟩ := List.append_eq_nil_iff.mp nothing.eq_nil
          obtain ⟨empty', own'⟩ := gone empty own
          refine ⟨empty', ?_⟩
          have held : (s.turn before duty new after pool).held.Perm
              (new.jobs ++ others before after) := held_turn
          rw [own', rest] at held
          exact held.eq_nil }

/-! ### One step -/

theorem Kept.moves (kept : s.Kept) (thread : s.threads = before ++ ⟨duty, old⟩ :: after)
    (moves : s.pool.Moves pool) (queued : pool.queued = s.pool.queued)
    (same : (pool.contents ++ new.jobs).Perm (s.pool.contents ++ old.jobs))
    (unused : ∀ token, new.isUsing token = false)
    (atWork : Party.isAtWork ⟨duty, new⟩ = Party.isAtWork ⟨duty, old⟩)
    (shared : s.pool.shared = [] → pool.shared = [])
    (withdraws : s.pool.stage ≠ .live → Party.Withdraws s.pool ⟨duty, old⟩ →
      Party.Withdraws s.pool ⟨duty, new⟩) :
    (s.turn before duty new after pool).Kept where
  balanced := kept.balanced.moves thread queued same
  lanes := kept.lanes.moves thread moves.tokens fun token filing => by
    rw [unused token] at filing
    cases filing
  closing := by
    refine kept.closing.moves thread moves ?_ atWork shared withdraws
    intro empty own
    rw [empty, own] at same
    exact List.append_eq_nil_iff.mp same.eq_nil

theorem Kept.looks (kept : s.Kept) (thread : s.threads = before ++ ⟨duty, old⟩ :: after)
    (same : new.jobs = old.jobs) (unused : ∀ token, new.isUsing token = false)
    (atWork : Party.isAtWork ⟨duty, new⟩ = Party.isAtWork ⟨duty, old⟩)
    (withdraws : s.pool.stage ≠ .live → Party.Withdraws s.pool ⟨duty, old⟩ →
      Party.Withdraws s.pool ⟨duty, new⟩) :
    (s.turn before duty new after s.pool).Kept :=
  kept.moves thread (.refl _) rfl (by rw [same]) unused atWork id withdraws

theorem Kept.draws (kept : s.Kept) (thread : s.threads = before ++ ⟨duty, old⟩ :: after)
    {inlet : Inlet} {rest : Pool Work} (locked : Bool)
    (drawn : s.pool.draw inlet = some (job, rest)) (empty : old.jobs = [])
    (atWork : Party.isAtWork ⟨duty, .drawn job locked⟩ = Party.isAtWork ⟨duty, old⟩)
    (withdraws : s.pool.stage ≠ .live → Party.Withdraws s.pool ⟨duty, old⟩ →
      Party.Withdraws s.pool ⟨duty, .drawn job locked⟩) :
    (s.turn before duty (.drawn job locked) after rest).Kept := by
  refine kept.moves thread (Pool.moves_draw drawn) (Pool.loses_of_draw drawn).2 ?_ (fun _ => rfl)
    atWork ?_ withdraws
  · rw [empty, List.append_nil]
    exact (List.perm_append_singleton job rest.contents).trans (Pool.draw_perm drawn).symm
  · intro spent
    cases inlet with
    | shared => simp [Pool.draw, spent] at drawn
    | lane token =>
        simp only [Pool.draw, Option.map_eq_some_iff, Prod.mk.injEq] at drawn
        obtain ⟨_, _, _, rfl⟩ := drawn
        exact spent

theorem Kept.counts (kept : s.Kept) (inlet : Inlet)
    (thread : s.threads = before ++ ⟨duty, .free⟩ :: after) (live : s.pool.stage = .live)
    (fresh : job.id.index = s.accepted.length)
    (listed : ∀ token, inlet = .lane token → token ∈ s.pool.lanes.map (·.token)) :
    Kept { s.turn before duty (.counted inlet job) after s.pool.count with
      accepted := s.accepted ++ [job] } := by
  have lanes : (s.turn before duty (.counted inlet job) after s.pool.count).Listed := by
    refine kept.lanes.moves thread rfl ?_
    intro token filing
    cases inlet with
    | shared => cases filing
    | lane t => exact of_decide_eq_true filing ▸ listed t rfl
  have closing : (s.turn before duty (.counted inlet job) after s.pool.count).Closing :=
    kept.closing.moves_live thread live rfl rfl (by cases duty <;> rfl)
  exact ⟨kept.balanced.counts inlet thread fresh, { lanes with }, { closing with }⟩

theorem Kept.files (kept : s.Kept) {inlet : Inlet}
    (thread : s.threads = before ++ ⟨duty, .counted inlet job⟩ :: after) :
    (s.turn before duty .free after (s.pool.file inlet job)).Kept := by
  have live := kept.closing.live thread rfl
  have once : ∀ token, inlet = .lane token →
      (s.pool.lanes.map (·.token)).count token = 1 := by
    rintro token rfl
    have used := kept.lanes.used ⟨duty, .counted (.lane token) job⟩ (by simp [thread]) token
      (by simp [Hand.isUsing])
    have once := List.nodup_iff_count.mp kept.lanes.once token
    have present := List.count_pos_iff.mpr used
    omega
  have filed := (Pool.file_perm inlet job once).trans
    (List.perm_append_singleton job s.pool.contents).symm
  have moves := s.pool.moves_file inlet job
  exact
    { balanced := kept.balanced.moves thread (s.pool.queued_file _ job)
        (by simpa only [Hand.jobs, Hand.carried, Hand.detached, List.append_nil] using filed)
      lanes := kept.lanes.moves thread moves.tokens fun _ wrong => nomatch wrong
      closing := kept.closing.moves_live thread live moves.stage moves.working
        (by cases duty <;> rfl) }

theorem Kept.lays (kept : s.Kept) {left : List (Job Work)}
    (thread : s.threads = before ++ ⟨duty, .moving job left⟩ :: after) :
    (s.turn before duty (.emptying left) after (s.pool.file .shared job)).Kept := by
  have live := kept.closing.live thread rfl
  have filed := Pool.file_perm (p := s.pool) .shared job nofun
  have moves := s.pool.moves_file .shared job
  exact
    { balanced := kept.balanced.moves thread (s.pool.queued_file _ job)
        ((filed.append_right left).trans List.perm_middle.symm)
      lanes := kept.lanes.moves thread moves.tokens fun _ wrong => nomatch wrong
      closing := kept.closing.moves_live thread live moves.stage moves.working
        (by cases duty <;> rfl) }

theorem Kept.discounts (kept : s.Kept) {locked : Bool}
    (thread : s.threads = before ++ ⟨duty, .drawn job locked⟩ :: after) :
    Kept { s.turn before duty .free after s.pool.discount with
      handed := s.handed ++ [(before.length, job)] } := by
  have lanes : (s.turn before duty .free after s.pool.discount).Listed :=
    kept.lanes.moves thread rfl fun _ wrong => nomatch wrong
  have closing : (s.turn before duty .free after s.pool.discount).Closing := by
    refine kept.closing.moves thread ⟨rfl, rfl, rfl⟩ (fun empty _ => ⟨empty, rfl⟩)
      (by cases duty <;> rfl) id ?_
    exact fun _ withdrew => withdrew.onward nofun rfl nofun
  exact ⟨(kept.balanced.discounts thread).2, { lanes with }, { closing with }⟩

theorem Kept.registers (kept : s.Kept) (thread : s.threads = before ++ ⟨duty, .free⟩ :: after)
    (live : s.pool.stage = .live) :
    Kept { s.turn before duty .free after (s.pool.register ⟨s.issued⟩) with
      issued := s.issued + 1 } := by
  have balanced : (s.turn before duty .free after (s.pool.register ⟨s.issued⟩)).Balanced :=
    kept.balanced.moves thread rfl (by rw [Pool.contents_register])
  have closing : (s.turn before duty .free after (s.pool.register ⟨s.issued⟩)).Closing :=
    kept.closing.moves_live thread live rfl rfl rfl
  exact ⟨{ balanced with }, kept.lanes.registers thread, { closing with }⟩

theorem Kept.unregisters (kept : s.Kept) (token : TokenId)
    (thread : s.threads = before ++ ⟨duty, .free⟩ :: after) (live : s.pool.stage = .live)
    (unused : ∀ thread ∈ s.threads, thread.hand.isUsing token = false) :
    (s.turn before duty (.emptying (s.pool.detach token).1) after
      (s.pool.detach token).2).Kept where
  balanced := by
    refine kept.balanced.moves thread rfl ?_
    simpa [Hand.jobs, Hand.carried, Hand.detached] using Pool.detach_perm token s.pool
  lanes := kept.lanes.unregisters token thread unused
  closing := kept.closing.moves_live thread live rfl rfl (by cases duty <;> rfl)

theorem Kept.closes (kept : s.Kept) (thread : s.threads = before ++ ⟨.guest, .free⟩ :: after)
    (live : s.pool.stage = .live) (released : s.pool.lanes = []) (left : IsLeft s.threads) :
    (s.turn before .closer .free after { s.pool with stage := .closing }).Kept where
  balanced := kept.balanced.moves thread rfl (.refl _)
  lanes := kept.lanes.moves thread rfl fun _ wrong => nomatch wrong
  closing :=
    { working := by
        have working := kept.closing.working
        rw [thread, countP_split] at working
        simp only [turn, countP_split]
        exact working
      closers := by
        have closers := kept.closing.closers
        rw [thread, countP_split, if_pos live] at closers
        simp only [turn, countP_split]
        simp at closers ⊢
        omega
      withdrawn := by
        intro _
        refine ⟨released, ?_⟩
        intro party member
        rcases mem_split member with member | rfl
        · obtain ⟨duty, hand⟩ := party
          have left := left ⟨duty, hand⟩ (by rw [thread]; exact mem_of_others member)
          cases duty with
          | worker | guest => exact left
          | closer =>
              cases left
              exact ⟨rfl, .inl rfl, fun wrong => nomatch wrong⟩
        · exact ⟨rfl, .inl rfl, fun wrong => nomatch wrong⟩
      ended := fun wrong => nomatch wrong }

theorem Kept.stops (kept : s.Kept) (thread : s.threads = before ++ ⟨.worker, .free⟩ :: after)
    (begun : s.pool.stage ≠ .live) :
    (s.turn before .worker .stopped after
      { s.pool with working := s.pool.working - 1 }).Kept where
  balanced := kept.balanced.moves thread rfl (.refl _)
  lanes := kept.lanes.moves thread rfl fun _ wrong => nomatch wrong
  closing :=
    { working := by
        have working := kept.closing.working
        rw [thread, countP_split] at working
        simp only [turn, countP_split, working]
        rfl
      closers := by
        have closers := kept.closing.closers
        rw [thread, countP_split] at closers
        simp only [turn, countP_split]
        exact closers
      withdrawn := by
        intro _
        obtain ⟨released, withdrawn⟩ := kept.closing.withdrawn begun
        refine ⟨released, ?_⟩
        intro party member
        rcases mem_split member with member | rfl
        · have withdrew := withdrawn party (by rw [thread]; exact mem_of_others member)
          exact withdrew.mono (fun joined => by simp [turn, joined]) id
        · rfl
      ended := by
        intro closed
        obtain ⟨empty, free⟩ := kept.closing.ended closed
        refine ⟨empty, ?_⟩
        rw [← free, held, held, thread]
        simp [turn, Hand.jobs, Hand.carried, Hand.detached] }

/-- When the closing thread has found nothing left, nobody holds anything either. -/
theorem Kept.spent (kept : s.Kept)
    (thread : s.threads = before ++ ⟨.closer, .scanning []⟩ :: after) :
    s.pool.stage ≠ .live ∧ s.pool.contents = [] ∧ s.held = [] := by
  have closers := kept.closing.closers
  rw [thread, countP_split] at closers
  have begun : s.pool.stage ≠ .live := by
    intro live
    rw [if_pos live] at closers
    simp at closers
  obtain ⟨released, withdrawn⟩ := kept.closing.withdrawn begun
  obtain ⟨_, joined, past⟩ := withdrawn ⟨.closer, .scanning []⟩ (by simp [thread])
  have joined : s.pool.working = 0 := joined.resolve_left fun wrong => nomatch wrong
  refine ⟨begun, by simp [Pool.contents, past rfl, released], ?_⟩
  have stopped := kept.closing.working
  rw [joined] at stopped
  have stopped := List.countP_eq_zero.mp stopped.symm
  have alone : (before ++ after).countP (·.duty = .closer) = 0 := by
    rw [if_neg begun] at closers
    simp only [List.countP_append]
    simp at closers ⊢
    omega
  rw [held, List.flatMap_eq_nil_iff]
  intro party member
  have member' := member
  rw [thread] at member'
  rcases mem_split member' with other | rfl
  · obtain ⟨duty, hand⟩ := party
    have withdrew := withdrawn _ member
    cases duty with
    | guest =>
        cases withdrew
        rfl
    | worker =>
        have left := stopped _ member
        cases hand <;> first | rfl | exact absurd rfl left
    | closer => exact absurd (decide_eq_true rfl) (List.countP_eq_zero.mp alone _ other)
  · rfl

theorem Kept.ends (kept : s.Kept)
    (thread : s.threads = before ++ ⟨.closer, .scanning []⟩ :: after) :
    (s.turn before .closer .free after { s.pool with stage := .closed }).Kept := by
  obtain ⟨begun, empty, free⟩ := kept.spent thread
  obtain ⟨released, withdrawn⟩ := kept.closing.withdrawn begun
  exact
    { balanced := kept.balanced.moves thread rfl (.refl _)
      lanes := kept.lanes.moves thread rfl fun _ wrong => nomatch wrong
      closing :=
        { working := by
            have working := kept.closing.working
            rw [thread, countP_split] at working
            simp only [turn, countP_split]
            exact working
          closers := by
            have closers := kept.closing.closers
            rw [thread, countP_split, if_neg begun] at closers
            simp only [turn, countP_split]
            exact closers
          withdrawn := by
            intro _
            refine ⟨released, ?_⟩
            intro party member
            rcases mem_split member with member | rfl
            · have withdrew := withdrawn party (by rw [thread]; exact mem_of_others member)
              exact withdrew.mono id id
            · exact ⟨rfl, .inl rfl, fun wrong => nomatch wrong⟩
          ended := by
            intro _
            refine ⟨empty, ?_⟩
            rw [← free, held, held, thread]
            simp [turn, Hand.jobs, Hand.carried, Hand.detached] } }

theorem Step.kept (step : s.Step s') (kept : s.Kept) : s'.Kept := by
  cases step with
  | counts inlet job thread live fresh listed => exact kept.counts inlet thread live fresh listed
  | files thread => exact kept.files thread
  | @asks _ duty _ thread may =>
      refine kept.looks thread rfl (fun _ => rfl) (by cases duty <;> rfl) ?_
      intro begun _
      obtain ⟨rfl, _, joined⟩ := may.resolve_left begun
      exact ⟨rfl, .inr joined, fun wrong => nomatch wrong⟩
  | @draws _ duty _ _ _ thread drawn =>
      exact kept.draws thread false drawn rfl (by cases duty <;> rfl)
        fun _ withdrew => withdrew.onward nofun rfl nofun
  | @misses _ duty _ thread missed =>
      exact kept.looks thread rfl (fun _ => rfl) (by cases duty <;> rfl)
        fun _ withdrew => withdrew.onward nofun rfl fun _ => .inr (Pool.shared_of_missed missed)
  | @locks _ duty _ thread =>
      exact kept.looks thread rfl (fun _ => rfl) (by cases duty <;> rfl)
        fun _ withdrew => withdrew.onward nofun rfl fun _ => .inl rfl
  | @finds _ duty _ _ _ _ _ thread drawn =>
      exact kept.draws thread true drawn rfl (by cases duty <;> rfl)
        fun _ withdrew => withdrew.onward nofun rfl nofun
  | @passes _ duty _ _ _ thread missed =>
      exact kept.looks thread rfl (fun _ => rfl) (by cases duty <;> rfl)
        fun _ withdrew => withdrew.onward nofun rfl fun _ => .inl rfl
  | @leaves _ duty _ thread other =>
      exact kept.looks thread rfl (fun _ => rfl) (by cases duty <;> rfl)
        fun _ withdrew => withdrew.onward nofun rfl nofun
  | @prefers _ duty _ _ _ token thread live drawn =>
      exact kept.draws thread false drawn rfl (by cases duty <;> rfl)
        fun begun => absurd live begun
  | discounts thread => exact kept.discounts thread
  | registers thread live => exact kept.registers thread live
  | unregisters token thread live _ _ unused => exact kept.unregisters token thread live unused
  | @lifts _ duty _ _ _ thread =>
      have live := kept.closing.live thread rfl
      exact kept.looks thread rfl (fun _ => rfl) (by cases duty <;> rfl)
        fun begun => absurd live begun
  | lays thread => exact kept.lays thread
  | @releases _ duty _ thread =>
      have live := kept.closing.live thread rfl
      exact kept.looks thread rfl (fun _ => rfl) (by cases duty <;> rfl)
        fun begun => absurd live begun
  | closes thread live released left => exact kept.closes thread live released left
  | stops thread begun => exact kept.stops thread begun
  | ends thread => exact kept.ends thread

theorem start_kept (config : PoolConfig) (guests : Nat) :
    (start config guests : SharedPool Work).Kept := by
  have free : (start config guests : SharedPool Work).held = [] := by
    simp [start, held, Hand.jobs, Hand.carried, Hand.detached]
  exact
    { balanced :=
        { counted := by rw [free]; rfl
          somewhere := by rw [free]; exact .refl _
          numbered := rfl }
      lanes :=
        { once := List.nodup_nil
          issued := fun _ member => nomatch member
          used := by
            intro party member token filing
            simp only [start, List.mem_append, List.mem_replicate] at member
            rcases member with ⟨_, rfl⟩ | ⟨_, rfl⟩ <;> cases filing }
      closing :=
        { working := by simp [start, Pool.start, Party.isAtWork, List.countP_replicate]
          closers := by simp [start, Pool.start, List.countP_replicate]
          withdrawn := fun begun => absurd rfl begun
          ended := fun wrong => nomatch wrong } }

theorem Reachable.kept (reachable : Reachable config guests s) : s.Kept := by
  induction reachable with
  | refl => exact start_kept config guests
  | step _ step ih => exact step.kept ih

/-! ## What a run may rely on -/

theorem Balanced.ids (balanced : s.Balanced) : (s.places.map (·.2.id)).Nodup := by
  have numbers : (s.accepted.map (·.id.index)).Nodup := by
    rw [balanced.numbered]
    exact List.nodup_range
  have somewhere := balanced.somewhere.map (·.id.index)
  rw [← places_jobs, List.map_map] at somewhere
  have indices : s.places.map ((·.id.index) ∘ (·.2)) =
      (s.places.map (·.2.id)).map (·.index) := by simp
  rw [indices] at somewhere
  exact (somewhere.nodup_iff.mp numbers).of_map _

theorem Balanced.mem_accepted (balanced : s.Balanced) :
    job ∈ s.accepted ↔ ∃ place, (place, job) ∈ s.places := by
  rw [balanced.somewhere.mem_iff, ← places_jobs]
  simp

theorem Balanced.place_unique (balanced : s.Balanced) {place place' : Place}
    (here : (place, job) ∈ s.places) (there : (place', job) ∈ s.places) : place = place' := by
  have same := List.inj_on_of_nodup_map balanced.ids here there rfl
  exact congrArg Prod.fst same

theorem mem_places_of_handed {i : Nat} (member : (i, job) ∈ s.handed) :
    (.handed i, job) ∈ s.places :=
  List.mem_append_right _ (List.mem_map.mpr ⟨_, member, rfl⟩)

/-- However the steps interleave, the count of the pool is the number of jobs in the shared queue,
in the queues of all tokens and in the hands of the threads that are about to file one, to discount
one, or to lay one into the shared queue. So it does not wrap when a job is discounted, and it is
never below the number of jobs in the queues. A job that was submitted is in one of these places or
was handed to a thread, and never in two of them. When the closing of the pool has ended, every job
was handed to one thread. -/
theorem Reachable.jobs_accounted (reachable : Reachable config guests s) :
    s.pool.queued = s.pool.contents.length + s.detached.length +
      s.threads.countP (·.hand.isFiling) + s.threads.countP (·.hand.isDiscounting) +
      s.threads.countP (·.hand.isMoving) ∧
    (∀ thread ∈ s.threads, thread.hand.isDiscounting = true → 0 < s.pool.queued) ∧
    (s.pool.contents ++ s.detached).length ≤ s.pool.queued ∧
    (s.places.map (·.2.id)).Nodup ∧
    (∀ job ∈ s.accepted, ∃! place, (place, job) ∈ s.places) ∧
    (∀ place job, (place, job) ∈ s.places → job ∈ s.accepted) ∧
    (s.pool.stage = .closed → s.pool.queued = 0 ∧ s.pool.contents = [] ∧ s.held = [] ∧
      ∀ job ∈ s.accepted, ∃! i, (i, job) ∈ s.handed) := by
  have kept := reachable.kept
  have balanced := kept.balanced
  have counted := balanced.counted
  have held := s.held_length
  refine ⟨by omega, ?_, by rw [List.length_append]; omega, balanced.ids, ?_, ?_, ?_⟩
  · intro thread member discounting
    have positive : 0 < s.threads.countP (·.hand.isDiscounting) :=
      List.countP_pos_iff.mpr ⟨thread, member, discounting⟩
    omega
  · intro job member
    obtain ⟨place, here⟩ := balanced.mem_accepted.mp member
    exact ⟨place, here, fun other there => balanced.place_unique there here⟩
  · exact fun place job here => balanced.mem_accepted.mpr ⟨place, here⟩
  · intro closed
    obtain ⟨empty, free⟩ := kept.closing.ended closed
    have none : s.pool.queued = 0 := by rw [counted, empty, free]; rfl
    refine ⟨none, empty, free, ?_⟩
    intro job member
    rw [balanced.somewhere.mem_iff, empty, free] at member
    obtain ⟨⟨i, job⟩, got, rfl⟩ := List.mem_map.mp member
    refine ⟨i, got, ?_⟩
    intro j again
    have same := balanced.place_unique (mem_places_of_handed again) (mem_places_of_handed got)
    exact Place.handed.inj same

/-- A worker has drawn a job from a lane while another job is counted and not filed. Later the
token is released with a job in its lane, and then one of the guests closes the pool. -/
theorem closing_accounted :
    let config : PoolConfig := { workers := 1 }
    let a : Job Unit := ⟨⟨0⟩, none, ()⟩
    let b : Job Unit := ⟨⟨1⟩, none, ()⟩
    let c : Job Unit := ⟨⟨2⟩, none, ()⟩
    let early : SharedPool Unit :=
      { pool := { Pool.start config.workers config with lanes := [⟨⟨0⟩, []⟩], queued := 2 }
        threads := [⟨.worker, .drawn a true⟩, ⟨.guest, .free⟩, ⟨.guest, .counted .shared b⟩]
        issued := 1
        accepted := [a, b] }
    let late : SharedPool Unit :=
      { pool := { Pool.start config.workers config with shared := [b], queued := 2 }
        threads := [⟨.worker, .free⟩, ⟨.guest, .moving c []⟩, ⟨.guest, .free⟩]
        issued := 1
        accepted := [a, b, c]
        handed := [(0, a)] }
    let last : SharedPool Unit :=
      { pool := { Pool.start config.workers config with working := 0, stage := .closed }
        threads := [⟨.worker, .stopped⟩, ⟨.guest, .free⟩, ⟨.closer, .free⟩]
        issued := 1
        accepted := [a, b, c]
        handed := [(0, a), (2, b), (2, c)] }
    early.Reachable config 2 ∧ early.pool.queued = 2 ∧ (∃! place, (place, a) ∈ early.places) ∧
      late.Reachable config 2 ∧ late.pool.queued = 2 ∧ (∃! place, (place, c) ∈ late.places) ∧
      last.Reachable config 2 ∧ last.pool.queued = 0 ∧
      ∀ job ∈ last.accepted, ∃! i, (i, job) ∈ last.handed := by
  intro config a b c early late last
  let worker : Party Unit := ⟨.worker, .free⟩
  let guest : Party Unit := ⟨.guest, .free⟩
  let filing : Party Unit := ⟨.guest, .counted .shared b⟩
  let lane : Inlet := .lane ⟨0⟩
  have listed : ∀ token, lane = .lane token → token ∈ [(⟨0⟩ : TokenId)] := by simp [lane]
  have registered := (Reaches.refl (s := (start config 2 : SharedPool Unit))).step
    (@Step.registers _ _ [worker] .guest [guest] rfl rfl (by unfold IsUnlocked; decide))
  have counted := (registered.step
    (@Step.counts _ _ [worker] .guest [guest] lane a rfl rfl rfl listed)).step
    (@Step.counts _ _ [worker, ⟨.guest, .counted lane a⟩] .guest [] .shared b rfl rfl rfl nofun)
  have filed := counted.step (@Step.files _ _ [worker] .guest lane a [filing] rfl)
  have scanning := ((filed.step (@Step.asks _ _ [] .worker [guest, filing] rfl (.inl rfl))).step
    (@Step.misses _ _ [] .worker [guest, filing] rfl rfl)).step
    (@Step.locks _ _ [] .worker [guest, filing] rfl)
  have reached : early.Reachable config 2 :=
    scanning.step (@Step.finds _ _ [] .worker ⟨0⟩ [] [guest, filing] a _ rfl rfl)
  have handed := (reached.step
    (@Step.files _ _ [⟨.worker, .drawn a true⟩, guest] .guest .shared b [] rfl)).step
    (@Step.discounts _ _ [] .worker a true [guest, guest] rfl)
  have again := (handed.step
    (@Step.counts _ _ [worker] .guest [guest] lane c rfl rfl rfl listed)).step
    (@Step.files _ _ [worker] .guest lane c [guest] rfl)
  have detached := again.step (@Step.unregisters _ _ [worker] .guest [guest] ⟨0⟩ rfl rfl
    (by unfold IsUnlocked; decide) (by decide) (by decide))
  have reached' : late.Reachable config 2 :=
    detached.step (@Step.lifts _ _ [worker] .guest c [] [guest] rfl)
  have released := (reached'.step (@Step.lays _ _ [worker] .guest c [] [guest] rfl)).step
    (@Step.releases _ _ [worker] .guest [guest] rfl)
  have left : IsLeft [worker, guest, guest] := by
    unfold IsLeft
    simp [worker, guest, Hand.isBorrowing]
  have joined := (released.step (@Step.closes _ _ [worker, guest] [] rfl rfl rfl left)).step
    (@Step.stops _ _ [] [guest, ⟨.closer, .free⟩] rfl nofun)
  let gone : List (Party Unit) := [⟨.worker, .stopped⟩, guest]
  have drained := ((joined.step (@Step.asks _ _ gone .closer [] rfl (.inr ⟨rfl, rfl, rfl⟩))).step
    (@Step.draws _ _ gone .closer [] b _ rfl rfl)).step
    (@Step.discounts _ _ gone .closer b false [] rfl)
  have drained' := ((drained.step
    (@Step.asks _ _ gone .closer [] rfl (.inr ⟨rfl, rfl, rfl⟩))).step
    (@Step.draws _ _ gone .closer [] c _ rfl rfl)).step
    (@Step.discounts _ _ gone .closer c false [] rfl)
  have empty := ((drained'.step
    (@Step.asks _ _ gone .closer [] rfl (.inr ⟨rfl, rfl, rfl⟩))).step
    (@Step.misses _ _ gone .closer [] rfl rfl)).step (@Step.locks _ _ gone .closer [] rfl)
  have reached'' : last.Reachable config 2 := empty.step (@Step.ends _ _ gone [] rfl)
  obtain ⟨count, _, _, _, somewhere, _⟩ := Reachable.jobs_accounted reached
  obtain ⟨count', _, _, _, somewhere', _⟩ := Reachable.jobs_accounted reached'
  obtain ⟨_, _, _, _, _, _, closed⟩ := Reachable.jobs_accounted reached''
  obtain ⟨none, _, _, once⟩ := closed rfl
  exact ⟨reached, count, somewhere a (by simp [early]), reached', count',
    somewhere' c (by simp [late]), reached'', none, once⟩

/-! ## Without interference -/

theorem Reaches.trans {s s' s'' : SharedPool Work} (first : s.Reaches s')
    (second : s'.Reaches s'') :
    s.Reaches s'' := by
  induction second with
  | refl => exact first
  | step _ step ih => exact ih.step step

/-- A submission in one go is a run of these steps. -/
theorem push_reaches (inlet : Inlet) (thread : s.threads = before ++ ⟨duty, .free⟩ :: after)
    (live : s.pool.stage = .live) (fresh : job.id.index = s.accepted.length)
    (listed : ∀ token, inlet = .lane token → token ∈ s.pool.lanes.map (·.token)) :
    s.Reaches { s with pool := s.pool.push inlet job, accepted := s.accepted ++ [job] } := by
  have counted := Reaches.refl.step (Step.counts inlet job thread live fresh listed)
  have filed := counted.step (.files rfl)
  rw [turn, turn, ← thread] at filed
  rw [← Pool.file_count]
  exact filed

theorem popLane_reaches {token : TokenId} {rest : Pool Work}
    (thread : s.threads = before ++ ⟨duty, .free⟩ :: after) (live : s.pool.stage = .live)
    (taken : s.pool.popLane token = some (job, rest)) :
    s.Reaches { s with pool := rest, handed := s.handed ++ [(before.length, job)] } := by
  rw [Pool.popLane_eq_draw, Option.map_eq_some_iff] at taken
  obtain ⟨⟨_, drawn⟩, found, same⟩ := taken
  cases same
  have held := Reaches.refl.step (Step.prefers token thread live found)
  have discounted := held.step (.discounts rfl)
  simp only [turn] at discounted
  rwa [← thread] at discounted

theorem scan_reaches (passed : List (Lane Work)) {ahead lanes : List (Lane Work)}
    (thread : s.threads = before ++ ⟨duty, .scanning (ahead.map (·.token))⟩ :: after)
    (split : s.pool.lanes = passed ++ ahead) (once : (s.pool.lanes.map (·.token)).Nodup)
    (taken : Lane.takeFirst ahead = some (job, lanes)) :
    s.Reaches { s.turn before duty .free after
        { s.pool with lanes := passed ++ lanes, queued := s.pool.queued - 1 } with
      handed := s.handed ++ [(before.length, job)] } := by
  induction ahead generalizing s passed lanes with
  | nil => cases taken
  | cons lane later ih =>
      obtain ⟨token, jobs⟩ := lane
      have absent : ∀ lane ∈ passed, lane.token ≠ token := by
        intro lane member same
        rw [split, List.map_append, List.nodup_append] at once
        exact once.2.2 lane.token (List.mem_map.mpr ⟨lane, member, rfl⟩) token (by simp) same
      have own := Lane.takeFrom_split jobs later absent
      cases jobs with
      | nil =>
          simp only [Lane.takeFirst, Option.map_eq_some_iff, Prod.mk.injEq] at taken
          obtain ⟨⟨_, rest⟩, found, rfl, rfl⟩ := taken
          have missed : s.pool.draw (.lane token) = none := by
            rw [Pool.draw, split, own]
            rfl
          have passes := Reaches.refl.step (Step.passes thread missed)
          have onward := ih (s := s.turn before duty (.scanning (later.map (·.token))) after s.pool)
            (passed ++ [⟨token, []⟩]) rfl (by simp [turn, split]) once found
          simp only [List.append_assoc, List.singleton_append] at onward
          exact passes.trans onward
      | cons first rest =>
          simp only [Lane.takeFirst, Option.some.injEq, Prod.mk.injEq] at taken
          obtain ⟨rfl, rfl⟩ := taken
          have drawn : s.pool.draw (.lane token) =
              some (first, { s.pool with lanes := passed ++ ⟨token, rest⟩ :: later }) := by
            rw [Pool.draw, split, own]
            rfl
          have held := Reaches.refl.step (Step.finds thread drawn)
          exact held.step (.discounts rfl)

theorem pop_reaches {rest : Pool Work} (kept : s.Kept)
    (thread : s.threads = before ++ ⟨duty, .free⟩ :: after) (may : s.MayAsk duty)
    (taken : s.pool.pop = some (job, rest)) :
    s.Reaches { s with pool := rest, handed := s.handed ++ [(before.length, job)] } := by
  have asking := Reaches.refl.step (Step.asks thread may)
  cases front : s.pool.shared with
  | cons first jobs =>
      simp only [Pool.pop, front, Option.some.injEq, Prod.mk.injEq] at taken
      obtain ⟨rfl, rfl⟩ := taken
      have drawn : s.pool.draw .shared = some (first, { s.pool with shared := jobs }) := by
        simp [Pool.draw, front]
      have discounted := (asking.step (.draws rfl drawn)).step (.discounts rfl)
      simp only [turn] at discounted
      rwa [← thread] at discounted
  | nil =>
      simp only [Pool.pop, front, Option.map_eq_some_iff, Prod.mk.injEq] at taken
      obtain ⟨⟨_, lanes⟩, found, rfl, rfl⟩ := taken
      have missed : s.pool.draw .shared = none := by simp [Pool.draw, front]
      have scanning := (asking.step (.misses rfl missed)).step (.locks rfl)
      have discounted := scanning.trans
        (scan_reaches [] rfl rfl kept.lanes.once found)
      simp only [turn, List.nil_append] at discounted
      rwa [← thread, front] at discounted

theorem empty_reaches {left : List (Job Work)}
    (thread : s.threads = before ++ ⟨duty, .emptying left⟩ :: after) :
    s.Reaches (s.turn before duty .free after
      { s.pool with shared := s.pool.shared ++ left }) := by
  induction left generalizing s with
  | nil =>
      have released := Reaches.refl.step (Step.releases thread)
      simpa only [turn, List.append_nil] using released
  | cons job rest ih =>
      have laid := (Reaches.refl.step (Step.lifts thread)).step (.lays rfl)
      have onward := laid.trans (ih rfl)
      simpa [turn, Pool.file] using onward

theorem release_reaches {token : TokenId} (thread : s.threads = before ++ ⟨duty, .free⟩ :: after)
    (live : s.pool.stage = .live) (unlocked : s.IsUnlocked)
    (listed : token ∈ s.pool.lanes.map (·.token))
    (unused : ∀ thread ∈ s.threads, thread.hand.isUsing token = false) :
    s.Reaches { s with pool := s.pool.release token } := by
  have detached := Reaches.refl.step (Step.unregisters token thread live unlocked listed unused)
  have released := detached.trans (empty_reaches rfl)
  simp only [turn] at released
  rwa [← thread] at released

end SharedPool

end TaskPool
