import TaskPool.Proofs.JobAccounting
import TaskPool.SleepWake

/-!
# No wake-up is lost

Take the worker that was the last one to fall asleep. When it read the count of jobs there was none,
in any queue or hand, so every job that is in a queue now was filed later. Whoever files a job is
bound to look whether somebody is asleep, and the worker had counted itself by then. So as long as
there are jobs and all workers doze, somebody is on the way to rouse one of them, and whichever it
is, it does not doze any more.
-/

namespace TaskPool

variable {Work : Type}

/-! ## A step at the queues, as seen from the dormitory -/

namespace SharedPool

variable {s s' : SharedPool Work} {before after : List (Party Work)} {old new p q : Party Work}
  {i : Nat}

theorem Acts.acting (acts : s.Acts s' i old new) (was : s.threads = before ++ p :: after)
    (becomes : s'.threads = before ++ q :: after) (changed : p ≠ q) : old = p ∧ new = q := by
  have here : s.threads[before.length]? = some p := by simp [was]
  have there : s'.threads[before.length]? = some q := by simp [becomes]
  rw [acts.becomes, List.getElem?_set] at there
  by_cases same : i = before.length
  · subst same
    have inside : before.length < s.threads.length := by simp [was]
    rw [if_pos rfl, if_pos inside] at there
    exact ⟨Option.some.inj (acts.was.symm.trans here), Option.some.inj there⟩
  · rw [if_neg same, here] at there
    exact absurd (Option.some.inj there) changed

theorem Acts.same (acts : s.Acts s' i old new) (threads : s'.threads = s.threads) : new = old := by
  have inside := (List.getElem?_eq_some_iff.mp acts.was).1
  have here : s'.threads[i]? = some new := by
    rw [acts.becomes, List.getElem?_set_self inside]
  rw [threads] at here
  exact Option.some.inj (here.symm.trans acts.was)

/-- What a step at the queues comes to for the thread that takes it. -/
inductive Deed (s s' : SharedPool Work) : Party Work → Party Work → Prop where
  | files {duty inlet job} : Deed s s' ⟨duty, .counted inlet job⟩ ⟨duty, .free⟩
  | lifts {duty job left} (contents : s'.pool.contents = s.pool.contents) :
      Deed s s' ⟨duty, .emptying (job :: left)⟩ ⟨duty, .moving job left⟩
  | lays {duty job left} : Deed s s' ⟨duty, .moving job left⟩ ⟨duty, .emptying left⟩
  | releases {duty} (contents : s'.pool.contents = s.pool.contents) :
      Deed s s' ⟨duty, .emptying []⟩ ⟨duty, .free⟩
  | closes (contents : s'.pool.contents = s.pool.contents) (stage : s'.pool.stage ≠ .live) :
      Deed s s' ⟨.guest, .free⟩ ⟨.closer, .free⟩
  /-- Without a new job in the queues. -/
  | other {duty old new} (idle : old.isBorrowing = false)
      (contents : s.pool.contents = [] → s'.pool.contents = []) : Deed s s' ⟨duty, old⟩ ⟨duty, new⟩

theorem Step.deed (step : s.Step s') (acts : s.Acts s' i old new) : Deed s s' old new := by
  -- A draw and a detached lane leave fewer jobs in the queues.
  have drawn {inlet : Inlet} {job : Job Work} {rest : Pool Work}
      (draw : s.pool.draw inlet = some (job, rest)) (empty : s.pool.contents = []) :
      rest.contents = [] := by
    have perm := Pool.draw_perm draw
    rw [empty] at perm
    exact absurd perm.symm.eq_nil (List.cons_ne_nil _ _)
  cases step with
  | counts inlet job thread =>
      obtain ⟨rfl, rfl⟩ := acts.acting thread rfl (by simp)
      exact .other rfl id
  | files thread =>
      obtain ⟨rfl, rfl⟩ := acts.acting thread rfl (by simp)
      exact .files
  | asks thread | misses thread | locks thread | passes thread | leaves thread
  | discounts thread | stops thread | ends thread =>
      obtain ⟨rfl, rfl⟩ := acts.acting thread rfl (by simp)
      exact .other rfl id
  | draws thread draw | finds thread draw =>
      obtain ⟨rfl, rfl⟩ := acts.acting thread rfl (by simp)
      exact .other rfl (drawn draw)
  | prefers token thread live draw =>
      obtain ⟨rfl, rfl⟩ := acts.acting thread rfl (by simp)
      exact .other rfl (drawn draw)
  | registers thread =>
      -- No thread looks different afterwards, so the one that acts had a free hand.
      obtain ⟨duty, hand⟩ := old
      obtain rfl : new = ⟨duty, hand⟩ := acts.same thread.symm
      cases acts.moved rfl
      refine .other rfl fun empty => ?_
      have register : (s.pool.register ⟨s.issued⟩).contents = s.pool.contents := by
        simp [Pool.register, Pool.contents, Lane.contents]
      exact register.trans empty
  | unregisters token thread =>
      obtain ⟨rfl, rfl⟩ := acts.acting thread rfl (by simp)
      refine .other rfl fun empty => ?_
      have perm := Pool.detach_perm token s.pool
      rw [empty] at perm
      exact (List.append_eq_nil_iff.mp perm.eq_nil).1
  | lifts thread =>
      obtain ⟨rfl, rfl⟩ := acts.acting thread rfl (by simp)
      exact .lifts rfl
  | lays thread =>
      obtain ⟨rfl, rfl⟩ := acts.acting thread rfl (by simp)
      exact .lays
  | releases thread =>
      obtain ⟨rfl, rfl⟩ := acts.acting thread rfl (by simp)
      exact .releases rfl
  | closes thread =>
      obtain ⟨rfl, rfl⟩ := acts.acting thread rfl (by simp)
      exact .closes rfl Stage.noConfusion

theorem Deed.worker (deed : Deed s s' old new) : new.duty = .worker ↔ old.duty = .worker := by
  cases deed with
  | closes => simp
  | files | lifts | lays | releases | other => rfl

theorem Step.asleep (step : s.Step s') : s'.pool.asleep = s.pool.asleep := by
  have drawn {inlet : Inlet} {job : Job Work} {rest : Pool Work}
      (draw : s.pool.draw inlet = some (job, rest)) : rest.asleep = s.pool.asleep :=
    (Pool.loses_of_draw draw).1.workers.2.1
  have filed (inlet : Inlet) (job : Job Work) :
      (s.pool.file inlet job).asleep = s.pool.asleep := by cases inlet <;> rfl
  cases step with
  | draws thread draw | finds thread draw => exact drawn draw
  | prefers token thread live draw => exact drawn draw
  | files thread | lays thread => exact filed ..
  | counts | asks | misses | locks | passes | leaves | discounts | registers | unregisters
  | lifts | releases | closes | stops | ends => rfl

theorem Step.closing (step : s.Step s') (closing : s.pool.stage ≠ .live) :
    s'.pool.stage ≠ .live := by
  have drawn {inlet : Inlet} {job : Job Work} {rest : Pool Work}
      (draw : s.pool.draw inlet = some (job, rest)) : rest.stage = s.pool.stage :=
    (Pool.moves_draw draw).stage
  cases step with
  | draws thread draw | finds thread draw => exact (drawn draw).trans_ne closing
  | prefers token thread live draw => exact (drawn draw).trans_ne closing
  | files thread | lays thread => exact (Pool.moves_file ..).stage.trans_ne closing
  | closes | ends => nofun
  | counts | asks | misses | locks | passes | leaves | discounts | registers | unregisters
  | lifts | releases | stops => exact closing

end SharedPool

/-! ## Kinds of posts -/

namespace Doing

def isCounted : Doing → Bool
  | listening | checking | resolved | asleep | stirring | rising => true
  | _ => false

/-- Only workers go to sleep. -/
def isResting : Doing → Bool
  | drowsy | settling => true
  | doing => doing.isCounted

/-- The worker found no job when it was among the sleepers already, and was not roused since. -/
def isDozing : Doing → Bool
  | checking | resolved | asleep => true
  | _ => false

/-- The worker found the pool live when it was among the sleepers already, and was not roused
since. -/
def isLost : Doing → Bool
  | resolved | asleep => true
  | _ => false

/-- The thread is bound to look for sleepers, or does so. -/
def isBound : Doing → Bool
  | laying => true
  | doing => doing.isCalling

def isClosing : Doing → Bool
  | shutting | tolling => true
  | _ => false

end Doing

attribute [local simp] Doing.isUp Doing.isCounted Doing.isResting Doing.isDozing Doing.isLost
  Doing.isBound Doing.isClosing Doing.isLocking Doing.isCalling Doing.rouse

namespace Doing

@[simp] theorem isLocking_rouse (doing : Doing) : doing.rouse.isLocking = doing.isLocking := by
  cases doing <;> rfl

@[simp] theorem isResting_rouse (doing : Doing) : doing.rouse.isResting = doing.isResting := by
  cases doing <;> rfl

@[simp] theorem isCounted_rouse (doing : Doing) : doing.rouse.isCounted = doing.isCounted := by
  cases doing <;> rfl

@[simp] theorem isBound_rouse (doing : Doing) : doing.rouse.isBound = doing.isBound := by
  cases doing <;> rfl

variable {s s' : SharedPool Work} {old new : Party Work} {doing : Doing}

theorem away (up : doing.isResting = false) :
    doing.isCounted = false ∧ doing.isDozing = false ∧ doing.isLost = false := by
  cases doing <;> simp_all

theorem resting_of_up (up : doing.isUp = true) : doing.isResting = false := by
  cases doing <;> simp_all

theorem counted_of_dozing (dozing : doing.isDozing = true) : doing.isCounted = true := by
  cases doing <;> simp_all

theorem asleep_or_locking (dozing : doing.isDozing = true) :
    doing = .asleep ∨ doing.isLocking = true := by
  cases doing <;> simp_all

theorem laying_or_calling (bound : doing.isBound = true) :
    doing = .laying ∨ doing.isCalling = true := by
  cases doing <;> simp_all

theorem laying_of_up (up : doing.isUp = true) (bound : doing.isBound = true) :
    doing = .laying := by
  cases doing <;> simp_all

theorem dozing_of_rouse (dozing : doing.rouse.isDozing = true) : doing.isDozing = true := by
  cases doing <;> simp_all

theorem resolved_of_rouse (lost : doing.rouse.isLost = true) : doing = .resolved := by
  cases doing <;> simp_all

theorem laying_of_rouse (lays : doing.rouse = .laying) : doing = .laying := by
  cases doing <;> simp_all

/-- Who is at the queues does not go to sleep by what it does there, and takes no lock. -/
theorem next_up (up : doing.isUp = true) :
    (doing.next old new).isLocking = false ∧ (doing.next old new).isResting = false := by
  unfold next
  split
  · split
    · exact ⟨rfl, rfl⟩
    · exact ⟨rfl, rfl⟩
    · cases doing <;> simp_all
    · split <;> exact ⟨rfl, rfl⟩
    · exact ⟨rfl, rfl⟩
    · exact ⟨rfl, rfl⟩
  · exact ⟨rfl, rfl⟩

theorem next_of_idle {duty : Duty} {old new : Hand Work} (idle : old.isBorrowing = false) :
    doing.next ⟨duty, old⟩ ⟨duty, new⟩ = .idle ∨ doing.next ⟨duty, old⟩ ⟨duty, new⟩ = .awake := by
  cases old with
  | counted | emptying | moving => cases idle
  | scanning ahead => cases ahead <;> cases new <;> simp [next]
  | free | asking | turning | drawn | stopped => exact .inr (if_pos rfl)

/-- Who puts a job into a queue is bound to look for sleepers afterwards. -/
theorem bound_of_gain (doing : Doing) (deed : SharedPool.Deed s s' old new)
    (jobs : s'.pool.contents ≠ []) :
    s.pool.contents ≠ [] ∨ (doing.next old new).isBound = true := by
  cases deed with
  | files | lays => exact .inr (by simp [next, isBound, isCalling])
  | lifts contents | releases contents | closes contents =>
      rw [contents] at jobs
      exact .inl jobs
  | other idle contents => exact .inl fun empty => jobs (contents empty)

theorem bound_of_bound (deed : SharedPool.Deed s s' old new) (up : doing.isUp = true)
    (laying : doing = .laying → old.hand.isBorrowing = true)
    (bound : old.hand.isFiling = true ∨ doing.isBound = true) :
    (doing.next old new).isBound = true := by
  have lays (idle : old.hand.isFiling = false) : doing = .laying :=
    laying_of_up up (bound.resolve_left (by simp [idle]))
  cases deed with
  | files | lays => simp [next, isBound, isCalling]
  | lifts | releases =>
      have lays := lays rfl
      subst lays
      simp [next, isBound, isCalling]
  | closes => cases laying (lays rfl)
  | @other duty hand _ idle =>
      have none : hand.isFiling = false := by
        cases hand with
        | counted => cases idle
        | free | asking | turning | scanning | drawn | emptying | moving | stopped => rfl
      exact absurd (laying (lays none)) (by simp [idle])

theorem laying_of_next (deed : SharedPool.Deed s s' old new)
    (lays : doing.next old new = .laying) : new.hand.isBorrowing = true := by
  cases deed with
  | lifts | lays => rfl
  | files | closes => simp [next] at lays
  | releases =>
      simp only [next, if_true] at lays
      split at lays <;> cases lays
  | other idle => rcases next_of_idle idle with is | is <;> rw [is] at lays <;> cases lays

theorem stage_of_next (deed : SharedPool.Deed s s' old new) (up : doing.isUp = true)
    (closes : (doing.next old new).isClosing = true) : s'.pool.stage ≠ .live := by
  cases deed with
  | closes _ stage => exact stage
  | files | lays => simp [next, isClosing] at closes
  | lifts =>
      simp only [next, if_true] at closes
      cases doing <;> simp_all
  | releases =>
      simp only [next, if_true] at closes
      split at closes <;> cases closes
  | other idle => rcases next_of_idle idle with is | is <;> rw [is] at closes <;> cases closes

end Doing

namespace SleepWake

variable {s s' : SleepWake Work} {i k : Nat} {party : Party Work} {old new post : Post}
  {config : PoolConfig} {guests : Nat}

/-! ## What holds however the steps interleave -/

structure Mans (s : SleepWake Work) (i : Nat) (party : Party Work) (post : Post) : Prop where
  thread : s.shared.threads[i]? = some party
  post : s.posts[i]? = some post

def IsDozing (s : SleepWake Work) : Prop :=
  ∀ i (party : Party Work) post, s.Mans i party post → party.duty = .worker →
    post.doing.isDozing = true

def IsAlarmed (s : SleepWake Work) : Prop :=
  ∃ i party post, s.Mans i party post ∧
    (party.hand.isFiling = true ∨ post.doing.isBound = true)

structure Watched (s : SleepWake Work) : Prop where
  kept : s.shared.Kept
  manned : s.posts.length = s.shared.threads.length
  staffed : ∃ (i : Nat) (party : Party Work),
    s.shared.threads[i]? = some party ∧ party.duty = .worker
  counted : s.shared.pool.asleep = s.posts.countP (·.doing.isCounted)
  /-- One thread at most has the lock. -/
  locked : ∀ (i j : Nat) (post post' : Post), s.posts[i]? = some post → s.posts[j]? = some post' →
    post.doing.isLocking = true → post'.doing.isLocking = true → i = j
  resting : ∀ i (party : Party Work) post, s.Mans i party post → post.doing.isResting = true →
    party.duty = .worker
  laying : ∀ i (party : Party Work) post, s.Mans i party post → post.doing = .laying →
    party.hand.isBorrowing = true
  closing : ∀ post ∈ s.posts, post.doing.isClosing = true → s.shared.pool.stage ≠ .live
  announced : s.announced = true →
    s.shared.pool.stage ≠ .live ∧ ∀ post ∈ s.posts, post.doing.isLost = false
  /-- Where there are jobs and all workers doze, somebody is on the way to rouse one. -/
  alarm : s.shared.pool.contents ≠ [] → s.IsDozing → s.IsAlarmed

theorem Watched.mans_thread (watched : s.Watched) (thread : s.shared.threads[i]? = some party) :
    ∃ post, s.Mans i party post := by
  have inside := (List.getElem?_eq_some_iff.mp thread).1
  rw [← watched.manned] at inside
  exact ⟨s.posts[i], thread, List.getElem?_eq_getElem inside⟩

theorem Watched.mans_post (watched : s.Watched) (here : s.posts[i]? = some post) :
    ∃ party, s.Mans i party post := by
  have inside := (List.getElem?_eq_some_iff.mp here).1
  rw [watched.manned] at inside
  exact ⟨s.shared.threads[i], List.getElem?_eq_getElem inside, here⟩

/-- One thread has another hand and another post, and the others have not. -/
structure Replaces (s s' : SleepWake Work) (i : Nat) (old new : Party Work)
    (post post' : Post) : Prop where
  was : s.Mans i old post
  here : s'.Mans i new post'
  there : ∀ k, k ≠ i → ∀ (party : Party Work) other, s'.Mans k party other ↔ s.Mans k party other

namespace Replaces

variable {hand hand' : Party Work} {other : Post} (replaces : Replaces s s' i hand hand' old new)

include replaces

theorem mans_before (mans : s'.Mans k party other) :
    k = i ∧ party = hand' ∧ other = new ∨ k ≠ i ∧ s.Mans k party other := by
  by_cases same : k = i
  · subst same
    exact .inl ⟨rfl, Option.some.inj (mans.thread.symm.trans replaces.here.thread),
      Option.some.inj (mans.post.symm.trans replaces.here.post)⟩
  · exact .inr ⟨same, (replaces.there k same party other).mp mans⟩

theorem dozing (dozing : s'.IsDozing) (worker : hand.duty = .worker → hand'.duty = .worker)
    (dozes : new.doing.isDozing = true → old.doing.isDozing = true) : s.IsDozing := by
  intro k party post mans works
  by_cases same : k = i
  · subst same
    obtain rfl := Option.some.inj (replaces.was.thread.symm.trans mans.thread)
    obtain rfl := Option.some.inj (replaces.was.post.symm.trans mans.post)
    exact dozes (dozing k hand' new replaces.here (worker works))
  · exact dozing k party post ((replaces.there k same party post).mpr mans) works

theorem alarmed (alarmed : s.IsAlarmed)
    (own : hand.hand.isFiling = true ∨ old.doing.isBound = true → s'.IsAlarmed) :
    s'.IsAlarmed := by
  obtain ⟨k, party, post, mans, calls⟩ := alarmed
  by_cases same : k = i
  · subst same
    obtain rfl := Option.some.inj (replaces.was.thread.symm.trans mans.thread)
    obtain rfl := Option.some.inj (replaces.was.post.symm.trans mans.post)
    exact own calls
  · exact ⟨k, party, post, (replaces.there k same party post).mpr mans, calls⟩

end Replaces

theorem turn_replaces (mans : s.Mans i party old) (f : Nat → Nat) (new : Post) :
    Replaces s ((s.sleepers f).turn i new) i party party old new where
  was := mans
  here := ⟨mans.thread, List.getElem?_set_self (List.getElem?_eq_some_iff.mp mans.post).1⟩
  there k other _ _ := by
    have there : (s.posts.set i new)[k]? = s.posts[k]? :=
      List.getElem?_set_ne fun same => other same.symm
    exact ⟨fun mans => ⟨mans.thread, there.symm.trans mans.post⟩,
      fun mans => ⟨mans.thread, there.trans mans.post⟩⟩

theorem works_replaces {shared : SharedPool Work} {hand hand' : Party Work}
    (acts : s.shared.Acts shared i hand hand') (thread : s.posts[i]? = some old) (new : Post) :
    Replaces s { s with shared, posts := s.posts.set i new } i hand hand' old new where
  was := ⟨acts.was, thread⟩
  here := by
    refine ⟨?_, List.getElem?_set_self (List.getElem?_eq_some_iff.mp thread).1⟩
    rw [acts.becomes, List.getElem?_set_self (List.getElem?_eq_some_iff.mp acts.was).1]
  there k other _ _ := by
    have there : shared.threads[k]? = s.shared.threads[k]? := by
      rw [acts.becomes, List.getElem?_set_ne fun same => other same.symm]
    have there' : (s.posts.set i new)[k]? = s.posts[k]? :=
      List.getElem?_set_ne fun same => other same.symm
    exact ⟨fun mans => ⟨there.symm.trans mans.thread, there'.symm.trans mans.post⟩,
      fun mans => ⟨there.trans mans.thread, there'.trans mans.post⟩⟩

theorem getElem?_turn {post' : Post} (here : (s.posts.set i new)[k]? = some post') :
    k = i ∧ post' = new ∨ k ≠ i ∧ s.posts[k]? = some post' := by
  rw [List.getElem?_set] at here
  by_cases same : i = k
  · rw [if_pos same] at here
    split at here
    · exact .inl ⟨same.symm, (Option.some.inj here).symm⟩
    · cases here
  · rw [if_neg same] at here
    exact .inr ⟨fun other => same other.symm, here⟩

theorem countP_turn (f : Post → Bool) (new : Post) (thread : s.posts[i]? = some old) :
    (s.posts.set i new).countP f + (f old).toNat = s.posts.countP f + (f new).toNat := by
  obtain ⟨inside, here⟩ := List.getElem?_eq_some_iff.mp thread
  have positive : f old = true → 0 < s.posts.countP f := fun holds =>
    List.countP_pos_iff.mpr ⟨old, List.mem_of_getElem? thread, holds⟩
  rw [List.countP_set inside, here]
  cases before : f old with
  | false => cases f new <;> simp
  | true =>
      have positive := positive before
      cases f new <;> simp <;> omega

/-- What a thread may turn to when it is not at the queues. -/
structure Turns (s : SleepWake Work) (i : Nat) (old new : Doing) (asleep : Nat) : Prop where
  counted : asleep + old.isCounted.toNat = s.shared.pool.asleep + new.isCounted.toNat := by rfl
  locking : new.isLocking = true → old.isLocking = true ∨ s.IsUnlocked := by simp
  resting : new.isResting = true → old.isResting = true ∨
    ∃ party : Party Work, s.shared.threads[i]? = some party ∧ party.duty = .worker := by simp
  laying : new ≠ .laying := by simp
  closing : new.isClosing = true → old.isClosing = true := by simp
  lost : new.isLost = true → old.isLost = true ∨ s.shared.pool.stage = .live := by simp
  dozing : new.isDozing = true → old.isDozing = true ∨ s.shared.pool.contents = [] := by simp
  /-- Who is bound to look for sleepers stays so until a worker is awake. -/
  bound : old.isBound = true → new.isBound = true ∨ new.isDozing = false ∧
    ∃ (k : Nat) (party : Party Work) (post : Post), s.Mans k party post ∧
      party.duty = .worker ∧ post.doing.isDozing = false := by simp

theorem kept_sleepers (kept : s.shared.Kept) (count : Nat → Nat) :
    (s.sleepers count).shared.Kept where
  balanced := ⟨kept.balanced.counted, kept.balanced.somewhere, kept.balanced.numbered⟩
  lanes := ⟨kept.lanes.once, kept.lanes.issued, kept.lanes.used⟩
  closing := by
    obtain ⟨working, closers, withdrawn, ended⟩ := kept.closing
    refine ⟨working, closers, fun closing => ?_, ended⟩
    obtain ⟨lanes, withdraws⟩ := withdrawn closing
    exact ⟨lanes, fun thread member => (withdraws thread member).mono id id⟩

theorem Watched.alarm_turn (watched : s.Watched) {f : Nat → Nat}
    (thread : s.posts[i]? = some old)
    (turns : s.Turns i old.doing new.doing (f s.shared.pool.asleep))
    (jobs : s.shared.pool.contents ≠ []) (dozing : ((s.sleepers f).turn i new).IsDozing) :
    ((s.sleepers f).turn i new).IsAlarmed := by
  obtain ⟨party, mans⟩ := watched.mans_post thread
  have replaces := turn_replaces mans f new
  have before : s.IsDozing :=
    replaces.dozing dozing id fun dozes => (turns.dozing dozes).resolve_right jobs
  refine replaces.alarmed (watched.alarm jobs before) ?_
  rintro (filing | bound)
  · exact ⟨i, party, new, replaces.here, .inl filing⟩
  · rcases turns.bound bound with bound | ⟨up, j, party', post', mans', worker, awake⟩
    · exact ⟨i, party, new, replaces.here, .inr bound⟩
    · have dozes := before j party' post' mans' worker
      rw [awake] at dozes
      cases dozes

theorem Watched.turn (watched : s.Watched) {f : Nat → Nat} (thread : s.posts[i]? = some old)
    (turns : s.Turns i old.doing new.doing (f s.shared.pool.asleep)) :
    ((s.sleepers f).turn i new).Watched where
  kept := kept_sleepers watched.kept f
  manned := List.length_set.trans watched.manned
  staffed := watched.staffed
  counted := by
    have balance := countP_turn (fun post => post.doing.isCounted) new thread
    have counted := watched.counted
    have turned := turns.counted
    change f s.shared.pool.asleep = (s.posts.set i new).countP (·.doing.isCounted)
    omega
  locked := by
    intro j k post post' first second locks locks'
    have alone {k : Nat} {post' : Post} (there : s.posts[k]? = some post')
        (locks : new.doing.isLocking = true) (locks' : post'.doing.isLocking = true) : i = k := by
      rcases turns.locking locks with held | unlocked
      · exact watched.locked _ _ _ _ thread there held locks'
      · have free := unlocked _ (List.mem_of_getElem? there)
        rw [free] at locks'
        cases locks'
    rcases getElem?_turn first with ⟨rfl, rfl⟩ | ⟨_, here⟩ <;>
      rcases getElem?_turn second with ⟨rfl, rfl⟩ | ⟨_, there⟩
    · rfl
    · exact alone there locks locks'
    · exact (alone here locks' locks).symm
    · exact watched.locked _ _ _ _ here there locks locks'
  resting := by
    intro k party post mans rests
    rcases getElem?_turn mans.post with ⟨rfl, rfl⟩ | ⟨other, here⟩
    · rcases turns.resting rests with rested | ⟨party', here, worker⟩
      · exact watched.resting _ _ _ ⟨mans.thread, thread⟩ rested
      · obtain rfl := Option.some.inj (here.symm.trans mans.thread)
        exact worker
    · exact watched.resting _ _ _ ⟨mans.thread, here⟩ rests
  laying := by
    intro k party post mans lays
    rcases getElem?_turn mans.post with ⟨rfl, rfl⟩ | ⟨other, here⟩
    · exact absurd lays turns.laying
    · exact watched.laying _ _ _ ⟨mans.thread, here⟩ lays
  closing := by
    intro post member closes
    rcases List.mem_or_eq_of_mem_set member with member | rfl
    · exact watched.closing post member closes
    · exact watched.closing old (List.mem_of_getElem? thread) (turns.closing closes)
  announced := by
    intro announced
    obtain ⟨closing, found⟩ := watched.announced announced
    refine ⟨closing, fun post member => ?_⟩
    rcases List.mem_or_eq_of_mem_set member with member | rfl
    · exact found post member
    · by_contra lost
      rw [Bool.not_eq_false] at lost
      rcases turns.lost lost with lost | live
      · rw [found old (List.mem_of_getElem? thread)] at lost
        cases lost
      · exact closing live
  alarm := watched.alarm_turn thread turns

theorem Watched.awake_of_none (watched : s.Watched) (none : s.shared.pool.asleep = 0) :
    ∃ (k : Nat) (party : Party Work) (post : Post), s.Mans k party post ∧
      party.duty = .worker ∧ post.doing.isDozing = false := by
  obtain ⟨k, party, thread, worker⟩ := watched.staffed
  obtain ⟨post, mans⟩ := watched.mans_thread thread
  refine ⟨k, party, post, mans, worker, ?_⟩
  have zero : s.posts.countP (·.doing.isCounted) = 0 := watched.counted.symm.trans none
  by_contra dozes
  rw [Bool.not_eq_false] at dozes
  exact List.countP_eq_zero.mp zero post (List.mem_of_getElem? mans.post)
    (Doing.counted_of_dozing dozes)

/-- While one thread has the lock, a worker that dozes waits. -/
theorem Watched.awake_of_nobody (watched : s.Watched) (thread : s.posts[i]? = some old)
    (locks : old.doing.isLocking = true) (up : old.doing.isDozing = false)
    (nobody : ∀ post ∈ s.posts, post.doing ≠ .asleep) :
    ∃ (k : Nat) (party : Party Work) (post : Post), s.Mans k party post ∧
      party.duty = .worker ∧ post.doing.isDozing = false := by
  obtain ⟨k, party, here, worker⟩ := watched.staffed
  obtain ⟨post, mans⟩ := watched.mans_thread here
  refine ⟨k, party, post, mans, worker, ?_⟩
  by_contra dozes
  rw [Bool.not_eq_false] at dozes
  have holds := (Doing.asleep_or_locking dozes).resolve_left
    (nobody post (List.mem_of_getElem? mans.post))
  obtain rfl := watched.locked _ _ _ _ thread mans.post locks holds
  obtain rfl := Option.some.inj (thread.symm.trans mans.post)
  rw [up] at dozes
  cases dozes

/-! ## All who wait are roused -/

theorem post_of_roused {post' : Post} (here : s.rouseAll.posts[k]? = some post') :
    ∃ post, s.posts[k]? = some post ∧ post'.doing = post.doing.rouse := by
  simp only [SleepWake.rouseAll, List.getElem?_map, Option.map_eq_some_iff] at here
  obtain ⟨post, here, rfl⟩ := here
  exact ⟨post, here, rfl⟩

theorem mans_roused (mans : s.Mans k party post) :
    s.rouseAll.Mans k party { post with doing := post.doing.rouse } :=
  ⟨mans.thread, by simp [SleepWake.rouseAll, mans.post]⟩

theorem counted_rouseAll (s : SleepWake Work) :
    s.rouseAll.posts.countP (·.doing.isCounted) = s.posts.countP (·.doing.isCounted) := by
  have same : (fun post => Doing.isCounted post.doing) ∘
      (fun post : Post => { post with doing := post.doing.rouse }) =
      fun post => post.doing.isCounted := by
    funext post
    exact Doing.isCounted_rouse post.doing
  rw [SleepWake.rouseAll, List.countP_map, same]

/-- The thread that rouses the others has the lock, so nobody is about to wait. -/
theorem Watched.none_lost (watched : s.Watched) (thread : s.posts[i]? = some old)
    (tolls : old.doing = .tolling) : ∀ post ∈ s.rouseAll.posts, post.doing.isLost = false := by
  intro post member
  obtain ⟨k, here⟩ := List.mem_iff_getElem?.mp member
  obtain ⟨was, here, is⟩ := post_of_roused here
  rw [is]
  by_contra lost
  rw [Bool.not_eq_false] at lost
  have resolved := Doing.resolved_of_rouse lost
  obtain rfl := watched.locked _ _ _ _ thread here (by simp [tolls]) (by simp [resolved])
  obtain rfl := Option.some.inj (thread.symm.trans here)
  rw [tolls] at resolved
  cases resolved

theorem Watched.alarm_rouseAll (watched : s.Watched) (jobs : s.shared.pool.contents ≠ [])
    (dozing : s.rouseAll.IsDozing) : s.rouseAll.IsAlarmed := by
  have dozed : s.IsDozing := fun k party _ mans worker =>
    Doing.dozing_of_rouse (dozing k party _ (mans_roused mans) worker)
  obtain ⟨k, party, post, mans, calls⟩ := watched.alarm jobs dozed
  refine ⟨k, party, _, mans_roused mans, ?_⟩
  rwa [Doing.isBound_rouse]

theorem Watched.rouseAll (watched : s.Watched) (thread : s.posts[i]? = some old)
    (tolls : old.doing = .tolling) : s.rouseAll.Watched := by
  have live := watched.closing old (List.mem_of_getElem? thread) (by simp [tolls])
  exact
    { kept := watched.kept
      manned := (List.length_map _).trans watched.manned
      staffed := watched.staffed
      counted := watched.counted.trans (counted_rouseAll s).symm
      locked := by
        intro j k post post' first second locks locks'
        obtain ⟨was, here, is⟩ := post_of_roused first
        obtain ⟨was', there, is'⟩ := post_of_roused second
        rw [is, Doing.isLocking_rouse] at locks
        rw [is', Doing.isLocking_rouse] at locks'
        exact watched.locked _ _ _ _ here there locks locks'
      resting := by
        intro k party post mans rests
        obtain ⟨was, here, is⟩ := post_of_roused mans.post
        rw [is, Doing.isResting_rouse] at rests
        exact watched.resting _ _ _ ⟨mans.thread, here⟩ rests
      laying := by
        intro k party post mans lays
        obtain ⟨was, here, is⟩ := post_of_roused mans.post
        rw [is] at lays
        exact watched.laying _ _ _ ⟨mans.thread, here⟩ (Doing.laying_of_rouse lays)
      closing := fun _ _ _ => live
      announced := fun _ => ⟨live, watched.none_lost thread tolls⟩
      alarm := watched.alarm_rouseAll }

/-! ## A step at the queues -/

theorem Watched.alarm_works {shared : SharedPool Work} {old new : Party Work} (watched : s.Watched)
    (deed : s.shared.Deed shared old new) (acts : s.shared.Acts shared i old new)
    (thread : s.posts[i]? = some post) (up : post.doing.isUp = true)
    (jobs : shared.pool.contents ≠ [])
    (dozing : IsDozing { s with shared, posts := s.posts.set i (post.next old new) }) :
    IsAlarmed { s with shared, posts := s.posts.set i (post.next old new) } := by
  have replaces := works_replaces acts thread (post.next old new)
  rcases Doing.bound_of_gain post.doing deed jobs with jobs' | bound
  · have awake : (post.doing.next old new).isDozing = false := (Doing.away (Doing.next_up up).2).2.1
    have dozed : s.IsDozing :=
      replaces.dozing dozing deed.worker.mpr fun dozes => by cases awake.symm.trans dozes
    refine replaces.alarmed (watched.alarm jobs' dozed) fun calls => ?_
    have bound := Doing.bound_of_bound deed up (watched.laying _ _ _ replaces.was) calls
    exact ⟨i, new, _, replaces.here, .inr bound⟩
  · exact ⟨i, new, _, replaces.here, .inr bound⟩

theorem Watched.works {shared : SharedPool Work} {old new : Party Work} (watched : s.Watched)
    (step : s.shared.Step shared) (acts : s.shared.Acts shared i old new)
    (thread : s.posts[i]? = some post) (up : post.doing.isUp = true) :
    Watched { s with shared, posts := s.posts.set i (post.next old new) } := by
  have deed := step.deed acts
  have replaces := works_replaces acts thread (post.next old new)
  obtain ⟨unlocked, awake⟩ : (post.doing.next old new).isLocking = false ∧
      (post.doing.next old new).isResting = false := Doing.next_up up
  exact
    { kept := step.kept watched.kept
      manned := by
        simp only [acts.becomes, List.length_set]
        exact watched.manned
      staffed := by
        obtain ⟨k, party, found, worker⟩ := watched.staffed
        obtain ⟨post', mans⟩ := watched.mans_thread found
        by_cases same : k = i
        · subst same
          obtain rfl := Option.some.inj (acts.was.symm.trans found)
          exact ⟨k, new, replaces.here.thread, deed.worker.mpr worker⟩
        · exact ⟨k, party, ((replaces.there k same party post').mpr mans).thread, worker⟩
      counted := by
        have balance := countP_turn (fun post => post.doing.isCounted) (post.next old new) thread
        have out := (Doing.away (Doing.resting_of_up up)).1
        have out' : (post.next old new).doing.isCounted = false := (Doing.away awake).1
        rw [out, out'] at balance
        exact step.asleep.trans (watched.counted.trans (Nat.add_right_cancel balance).symm)
      locked := by
        intro j k post' post'' first second locks locks'
        rcases getElem?_turn first with ⟨rfl, rfl⟩ | ⟨_, first⟩
        · cases unlocked.symm.trans locks
        · rcases getElem?_turn second with ⟨rfl, rfl⟩ | ⟨_, second⟩
          · cases unlocked.symm.trans locks'
          · exact watched.locked _ _ _ _ first second locks locks'
      resting := by
        intro k party post' mans rests
        rcases replaces.mans_before mans with ⟨rfl, rfl, rfl⟩ | ⟨_, mans⟩
        · cases awake.symm.trans rests
        · exact watched.resting _ _ _ mans rests
      laying := by
        intro k party post' mans lays
        rcases replaces.mans_before mans with ⟨rfl, rfl, rfl⟩ | ⟨_, mans⟩
        · exact Doing.laying_of_next deed lays
        · exact watched.laying _ _ _ mans lays
      closing := by
        intro post' member closes
        rcases List.mem_or_eq_of_mem_set member with member | rfl
        · exact step.closing (watched.closing post' member closes)
        · exact Doing.stage_of_next deed up closes
      announced := by
        intro announced
        obtain ⟨closing, found⟩ := watched.announced announced
        refine ⟨step.closing closing, fun post' member => ?_⟩
        rcases List.mem_or_eq_of_mem_set member with member | rfl
        · exact found post' member
        · exact (Doing.away awake).2.2
      alarm := watched.alarm_works deed acts thread up }

/-! ## Every step -/

/-- The worker that is roused is awake, so nobody needs to look for sleepers any more. -/
theorem Watched.rings {i jobs j jobs' : Nat} (watched : s.Watched)
    (thread : s.posts[i]? = some ⟨.ringing, jobs⟩) (sleeper : s.posts[j]? = some ⟨.asleep, jobs'⟩) :
    ((s.turn i ⟨.parting, jobs⟩).turn j ⟨.stirring, jobs'⟩).Watched := by
  have other : i ≠ j := by
    rintro rfl
    cases thread.symm.trans sleeper
  obtain ⟨party, mans⟩ := watched.mans_post sleeper
  have worker := watched.resting _ _ _ mans rfl
  have roused : (s.turn j ⟨.stirring, jobs'⟩).Watched := watched.turn (f := id) sleeper {}
  have up : (s.turn j ⟨.stirring, jobs'⟩).Mans j party ⟨.stirring, jobs'⟩ :=
    (turn_replaces mans id _).here
  have thread' : (s.turn j ⟨.stirring, jobs'⟩).posts[i]? = some ⟨.ringing, jobs⟩ :=
    (List.getElem?_set_ne other.symm).trans thread
  have swap : (s.turn i ⟨.parting, jobs⟩).turn j ⟨.stirring, jobs'⟩ =
      (s.turn j ⟨.stirring, jobs'⟩).turn i ⟨.parting, jobs⟩ := by
    simp only [SleepWake.turn, List.set_comm _ _ other]
  rw [swap]
  exact roused.turn (f := id) thread'
    { bound := fun _ => .inr ⟨rfl, j, party, _, up, worker, rfl⟩ }

theorem Step.watched (step : Step s s') (watched : s.Watched) : s'.Watched := by
  cases step with
  | works step acts thread up => exact watched.works step acts thread up
  | ends party thread up =>
      rename_i duty doing jobs
      have idle : doing.isBound = false := by
        by_contra bound
        rw [Bool.not_eq_false] at bound
        cases watched.laying _ _ _ ⟨party, thread⟩ (Doing.laying_of_up up bound)
      have out := (Doing.away (Doing.resting_of_up up)).1
      refine watched.turn (f := id) thread { counted := ?_, bound := fun bound => ?_ }
      · rw [out]
        rfl
      · rw [idle] at bound
        cases bound
  | looks thread =>
      refine watched.turn (f := id) thread ?_
      by_cases none : s.shared.pool.asleep = 0
      · rw [if_pos none]
        exact { bound := fun _ => .inr ⟨rfl, watched.awake_of_none none⟩ }
      · rw [if_neg none]
        exact {}
  | reaches thread unlocked =>
      exact watched.turn (f := id) thread { locking := fun _ => .inr unlocked }
  | rings thread sleeper => exact watched.rings thread sleeper
  | ringsInVain thread nobody =>
      exact watched.turn (f := id) thread
        { bound := fun _ => .inr ⟨rfl, watched.awake_of_nobody thread rfl rfl nobody⟩ }
  | tires party thread =>
      exact watched.turn (f := id) thread { resting := fun _ => .inr ⟨_, party, rfl⟩ }
  | retires thread unlocked =>
      exact watched.turn (f := id) thread { locking := fun _ => .inr unlocked }
  | settles thread => exact watched.turn thread {}
  | listens thread =>
      refine watched.turn (f := id) thread ?_
      by_cases none : s.shared.pool.queued = 0
      · -- with a count of zero there is no job in any queue, nor in any hand
        have counted := watched.kept.balanced.counted
        have empty : s.shared.pool.contents = [] := List.eq_nil_of_length_eq_zero (by omega)
        rw [if_pos none]
        exact { dozing := fun _ => .inr empty }
      · rw [if_neg none]
        exact {}
  | checks thread =>
      refine watched.turn (f := id) thread ?_
      by_cases live : s.shared.pool.stage = .live
      · rw [if_pos live]
        exact { lost := fun _ => .inr live }
      · rw [if_neg live]
        exact {}
  | waits thread => exact watched.turn (f := id) thread {}
  | stirs thread => exact watched.turn (f := id) thread {}
  | returns thread unlocked =>
      exact watched.turn (f := id) thread { locking := fun _ => .inr unlocked }
  | rises thread =>
      have counted := watched.counted
      have among : 0 < s.posts.countP (·.doing.isCounted) :=
        List.countP_pos_iff.mpr ⟨_, List.mem_of_getElem? thread, rfl⟩
      refine watched.turn thread { counted := ?_ }
      simp
      omega
  | shuts thread unlocked =>
      exact watched.turn (f := id) thread { locking := fun _ => .inr unlocked }
  | tolls thread =>
      rename_i i jobs
      have thread' : s.rouseAll.posts[i]? = some ⟨.tolling, jobs⟩ := by
        simp [SleepWake.rouseAll, thread]
      exact (watched.rouseAll thread rfl).turn (f := id) thread' {}
  | parts thread => exact watched.turn (f := id) thread {}

theorem start_watched (staffed : 0 < config.workers) :
    (start config guests : SleepWake Work).Watched := by
  have up {k : Nat} {post : Post}
      (here : (start config guests : SleepWake Work).posts[k]? = some post) : post = {} :=
    (List.mem_replicate.mp (List.mem_of_getElem? here)).2
  exact
    { kept := SharedPool.start_kept config guests
      manned := by simp [start, SharedPool.start]
      staffed := by
        refine ⟨0, ⟨.worker, .free⟩, ?_, rfl⟩
        rw [start, SharedPool.start, List.getElem?_append_left (by simpa using staffed),
          List.getElem?_replicate, if_pos staffed]
      counted := by simp [start, SharedPool.start, Pool.start, List.countP_replicate]
      locked := by
        intro j k post post' first second locks
        rw [up first] at locks
        cases locks
      resting := by
        intro k party post mans rests
        rw [up mans.post] at rests
        cases rests
      laying := by
        intro k party post mans lays
        rw [up mans.post] at lays
        cases lays
      closing := by
        intro post member closes
        obtain ⟨k, here⟩ := List.mem_iff_getElem?.mp member
        rw [up here] at closes
        cases closes
      announced := nofun
      alarm := fun jobs => absurd rfl jobs }

theorem Reachable.watched (reachable : Reachable config guests s) (staffed : 0 < config.workers) :
    s.Watched := by
  induction reachable with
  | refl => exact start_watched staffed
  | step _ step ih => exact step.watched ih

/-- However the steps interleave, the workers do not all wait unroused while a job is in the shared
queue or in a lane, unless a submission, a waking or the release of a token is in progress. When the
closing thread has roused all who wait, nobody waits again. Neither needs anyone to stop waiting on
his own. -/
theorem Reachable.no_lost_wake (reachable : Reachable config guests s)
    (staffed : 0 < config.workers) :
    (s.shared.pool.contents ≠ [] → s.IsQuiet →
      ∃ (i : Nat) (party : Party Work) (post : Post), s.shared.threads[i]? = some party ∧
        s.posts[i]? = some post ∧ party.duty = .worker ∧ post.doing ≠ .asleep) ∧
    (s.announced = true → ∀ post ∈ s.posts, post.doing ≠ .asleep) := by
  have watched := reachable.watched staffed
  refine ⟨fun jobs quiet => ?_, fun announced post member waits => ?_⟩
  · by_contra all
    have dozing : s.IsDozing := by
      intro i party post mans worker
      by_contra awake
      refine all ⟨i, party, post, mans.thread, mans.post, worker, ?_⟩
      rintro waits
      simp [waits] at awake
    obtain ⟨i, party, post, mans, calls⟩ := watched.alarm jobs dozing
    have idle := quiet.1 party (List.mem_of_getElem? mans.thread)
    have silent := quiet.2 post (List.mem_of_getElem? mans.post)
    have filing : party.hand.isFiling = false := by
      cases hand : party.hand with
      | counted => simp [hand, Hand.isBorrowing] at idle
      | free | asking | turning | scanning | drawn | emptying | moving | stopped => rfl
    have laying : post.doing = .laying := by
      have bound := calls.resolve_left (by simp [filing])
      refine (Doing.laying_or_calling bound).resolve_right fun calls => ?_
      cases silent.symm.trans calls
    have lays := watched.laying i party post mans laying
    exact absurd lays (by simp [idle])
  · have lost := (watched.announced announced).2 post member
    simp [waits] at lost

/-- The only worker waits when a guest submits a job and rouses it, or closes the pool and rouses
it. -/
theorem sleeper_roused :
    let config : PoolConfig := { workers := 1 }
    let job : Job Unit := ⟨⟨0⟩, none, ()⟩
    let rung : SleepWake Unit :=
      { shared :=
          { pool := { Pool.start config.workers config with shared := [job], queued := 1, asleep := 1 }
            threads := [⟨.worker, .free⟩, ⟨.guest, .free⟩]
            accepted := [job] }
        posts := [⟨.stirring, 0⟩, ⟨.parting, 0⟩] }
    let closed : SleepWake Unit :=
      { shared :=
          { pool := { Pool.start config.workers config with asleep := 1, stage := .closing }
            threads := [⟨.worker, .free⟩, ⟨.closer, .free⟩] }
        posts := [⟨.stirring, 0⟩, ⟨.parting, 0⟩]
        announced := true }
    rung.Reachable config 1 ∧ rung.shared.pool.contents ≠ [] ∧ rung.IsQuiet ∧
      (∃ (i : Nat) (party : Party Unit) (post : Post), rung.shared.threads[i]? = some party ∧
        rung.posts[i]? = some post ∧ party.duty = .worker ∧ post.doing ≠ .asleep) ∧
      closed.Reachable config 1 ∧ closed.announced = true ∧
      ∀ post ∈ closed.posts, post.doing ≠ .asleep := by
  intro config job rung closed
  let free : Pool Unit := Pool.start config.workers config
  let worker : Party Unit := ⟨.worker, .free⟩
  let guest : Party Unit := ⟨.guest, .free⟩
  let looks (hand : Hand Unit) (doing : Doing) : SleepWake Unit :=
    { shared := { pool := free, threads := [⟨.worker, hand⟩, guest] }
      posts := [⟨doing, 0⟩, ⟨.awake, 0⟩] }
  have fresh : (looks .free .awake).Reachable config 1 := Reaches.refl
  have asks := @SharedPool.Step.asks _ (looks .free .awake).shared [] .worker [guest] rfl (.inl rfl)
  have asking : (looks .asking .awake).Reachable config 1 := fresh.step
    (.works (i := 0) asks ⟨rfl, rfl, by simp⟩ rfl rfl (by simp [Party.Fits]) (absurd rfl))
  have misses :=
    @SharedPool.Step.misses _ (looks .asking .awake).shared [] .worker [guest] rfl rfl
  have turning : (looks .turning .awake).Reachable config 1 := asking.step
    (.works (i := 0) misses ⟨rfl, rfl, by simp⟩ rfl rfl (by simp [Party.Fits]) (absurd rfl))
  have locks := @SharedPool.Step.locks _ (looks .turning .awake).shared [] .worker [guest] rfl
  have scanning : (looks (.scanning []) .awake).Reachable config 1 := turning.step
    (.works (i := 0) locks ⟨rfl, rfl, by simp⟩ rfl rfl (by simp [Party.Fits]) (absurd rfl))
  have leaves :=
    @SharedPool.Step.leaves _ (looks (.scanning []) .awake).shared [] .worker [guest] rfl nofun
  have idle : (looks .free .idle).Reachable config 1 := scanning.step
    (.works (i := 0) leaves ⟨rfl, rfl, by simp⟩ rfl rfl (by simp [Party.Fits]) (absurd rfl))
  let sleeps (pool : Pool Unit) (hand : Hand Unit) (doing : Doing) (accepted : List (Job Unit)) :
      SleepWake Unit :=
    { shared := { pool := { pool with asleep := 1 }, threads := [worker, ⟨.guest, hand⟩], accepted }
      posts := [⟨.asleep, 0⟩, ⟨doing, 0⟩] }
  have settling : (looks .free .settling).Reachable config 1 :=
    (idle.step (.tires (i := 0) rfl rfl)).step
      (.retires (i := 0) rfl (by unfold IsUnlocked; decide))
  have asleep : (sleeps free .free .awake []).Reachable config 1 :=
    (((settling.step (.settles (i := 0) rfl)).step (.listens (i := 0) rfl)).step
      (.checks (i := 0) rfl)).step (.waits (i := 0) rfl)
  have counts := @SharedPool.Step.counts _ (sleeps free .free .awake []).shared [worker] .guest []
    .shared job rfl rfl rfl nofun
  let full : Pool Unit := { free with shared := [job], queued := 1 }
  have counted : (sleeps { free with queued := 1 } (.counted .shared job) .awake [job]).Reachable
      config 1 := asleep.step
    (.works (i := 1) counts ⟨rfl, rfl, by simp⟩ rfl rfl (by simp [Party.Fits]) (absurd rfl))
  have files := @SharedPool.Step.files _
    (sleeps { free with queued := 1 } (.counted .shared job) .awake [job]).shared [worker] .guest
    .shared job [] rfl
  have filed : (sleeps full .free .looking [job]).Reachable config 1 := counted.step
    (.works (i := 1) files ⟨rfl, rfl, by simp⟩ rfl rfl (by simp [Party.Fits]) (absurd rfl))
  have reached : rung.Reachable config 1 :=
    ((filed.step (.looks (i := 1) rfl)).step
      (.reaches (i := 1) rfl (by unfold IsUnlocked; decide))).step (.rings (i := 1) (j := 0) rfl rfl)
  let closes (doing : Doing) : SleepWake Unit :=
    { shared :=
        { pool := { free with asleep := 1, stage := .closing }
          threads := [worker, ⟨.closer, .free⟩] }
      posts := [⟨.asleep, 0⟩, ⟨doing, 0⟩] }
  have left : SharedPool.IsLeft [worker, guest] := by
    unfold SharedPool.IsLeft
    simp [worker, guest, Hand.isBorrowing]
  have begins :=
    @SharedPool.Step.closes _ (sleeps free .free .awake []).shared [worker] [] rfl rfl rfl
    left
  have shutting : (closes .shutting).Reachable config 1 := asleep.step
    (.works (i := 1) begins ⟨rfl, rfl, by simp⟩ rfl rfl (by simp [Party.Fits])
      (fun _ => by unfold IsQuiet; decide))
  have reached' : closed.Reachable config 1 :=
    (shutting.step (.shuts (i := 1) rfl (by unfold IsUnlocked; decide))).step (.tolls (i := 1) rfl)
  have jobs : rung.shared.pool.contents ≠ [] := List.cons_ne_nil _ _
  have quiet : rung.IsQuiet := by unfold IsQuiet; decide
  exact ⟨reached, jobs, quiet, (Reachable.no_lost_wake reached (by decide)).1 jobs quiet,
    reached', rfl, (Reachable.no_lost_wake reached' (by decide)).2 rfl⟩

end SleepWake

end TaskPool
