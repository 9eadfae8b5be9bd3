import TaskPool.Pool

/-!
# Queues as collections

Counting jobs needs no order, only that the contents of a pool stay the same up to order when a job
enters, leaves or moves. Both ways of taking a job are one relation, `Pool.Loses`, which names the
inlet at which the job waited. Facts about single jobs are carried by `Pool.Each`: what holds of
every job at the inlet where it waits.
-/

namespace TaskPool

variable {Work : Type}

namespace Lane

variable {lanes rest : List (Lane Work)} {token : TokenId} {job : Job Work}

/-- The lane of a token loses its oldest job, and the other lanes stay as they are. -/
def Loses (lanes : List (Lane Work)) (token : TokenId) (job : Job Work)
    (rest : List (Lane Work)) : Prop :=
  ∃ before jobs after, lanes = before ++ ⟨token, job :: jobs⟩ :: after ∧
    rest = before ++ ⟨token, jobs⟩ :: after

theorem Loses.cons (lane : Lane Work) (loses : Loses lanes token job rest) :
    Loses (lane :: lanes) token job (lane :: rest) := by
  obtain ⟨before, jobs, after, rfl, rfl⟩ := loses
  exact ⟨lane :: before, jobs, after, rfl, rfl⟩

theorem takeFirst_loses (taken : takeFirst lanes = some (job, rest)) :
    ∃ token, Loses lanes token job rest := by
  induction lanes generalizing rest with
  | nil => simp [takeFirst] at taken
  | cons lane tail ih =>
      obtain ⟨owner, waiting⟩ := lane
      cases waiting with
      | cons first jobs =>
          simp only [takeFirst, Option.some.injEq, Prod.mk.injEq] at taken
          obtain ⟨rfl, rfl⟩ := taken
          exact ⟨owner, [], jobs, tail, rfl, rfl⟩
      | nil =>
          simp only [takeFirst, Option.map_eq_some_iff, Prod.mk.injEq] at taken
          obtain ⟨⟨_, left⟩, found, rfl, rfl⟩ := taken
          obtain ⟨token, loses⟩ := ih found
          exact ⟨token, loses.cons _⟩

theorem takeFrom_loses (taken : takeFrom token lanes = some (job, rest)) :
    Loses lanes token job rest := by
  induction lanes generalizing rest with
  | nil => simp [takeFrom] at taken
  | cons lane tail ih =>
      obtain ⟨owner, waiting⟩ := lane
      by_cases own : owner = token
      · subst own
        cases waiting with
        | nil => simp [takeFrom] at taken
        | cons first jobs =>
            simp only [takeFrom, if_true, Option.some.injEq, Prod.mk.injEq] at taken
            obtain ⟨rfl, rfl⟩ := taken
            exact ⟨[], jobs, tail, rfl, rfl⟩
      · simp only [takeFrom, own, if_false, Option.map_eq_some_iff, Prod.mk.injEq] at taken
        obtain ⟨⟨_, left⟩, found, rfl, rfl⟩ := taken
        exact (ih found).cons _

theorem Loses.perm (loses : Loses lanes token job rest) :
    (contents lanes).Perm (job :: contents rest) := by
  obtain ⟨before, jobs, after, rfl, rfl⟩ := loses
  simp only [contents, List.flatMap_append, List.flatMap_cons, List.cons_append]
  exact List.perm_middle

theorem Loses.tokens (loses : Loses lanes token job rest) :
    rest.map (·.token) = lanes.map (·.token) := by
  obtain ⟨before, jobs, after, rfl, rfl⟩ := loses
  simp

@[simp] theorem push_tokens (token : TokenId) (job : Job Work) (lanes : List (Lane Work)) :
    (push token job lanes).map (·.token) = lanes.map (·.token) := by
  simp only [push, List.map_map]
  apply List.map_congr_left
  intro lane _
  by_cases own : lane.token = token <;> simp [own]

/-- A job enters exactly one lane if its token has exactly one. -/
theorem push_perm (job : Job Work) (once : (lanes.map (·.token)).count token = 1) :
    (contents (push token job lanes)).Perm (job :: contents lanes) := by
  induction lanes with
  | nil => simp at once
  | cons lane tail ih =>
      by_cases own : lane.token = token
      · have absent : ∀ other ∈ tail, other.token ≠ token := by
          intro other member same
          have positive : 0 < (tail.map (·.token)).count token :=
            List.count_pos_iff.mpr (List.mem_map.mpr ⟨other, member, same⟩)
          simp only [List.map_cons, List.count_cons, own, beq_self_eq_true, if_true] at once
          omega
        have unchanged : push token job tail = tail := push_eq_self job absent
        simp only [push, List.map_cons, own, if_true, contents_cons] at unchanged ⊢
        rw [unchanged, List.append_assoc]
        exact List.perm_middle
      · have later : (tail.map (·.token)).count token = 1 := by
          simpa [List.count_cons, own] using once
        have pushed := ih later
        simp only [push, List.map_cons, own, if_false, contents_cons] at pushed ⊢
        exact (pushed.append_left _).trans List.perm_middle

end Lane

namespace Pool

variable {p rest : Pool Work} {inlet : Inlet} {token : TokenId} {job : Job Work}

def queue (p : Pool Work) : Inlet → List (Job Work)
  | .shared => p.shared
  | .lane token => p.waitingIn token

theorem mem_contents_of_queue (member : job ∈ p.queue inlet) : job ∈ p.contents := by
  cases inlet with
  | shared => exact List.mem_append_left _ member
  | lane t =>
      obtain ⟨lane, inside, member⟩ := List.mem_flatMap.mp member
      exact List.mem_append_right _
        (List.mem_flatMap.mpr ⟨lane, (List.mem_filter.mp inside).1, member⟩)

/-- A pool loses the oldest job that waits at an inlet. -/
inductive Loses (p : Pool Work) : Inlet → Job Work → Pool Work → Prop where
  | shared {job jobs} (front : p.shared = job :: jobs) :
      Loses p .shared job { p with shared := jobs, queued := p.queued - 1 }
  | lane {token job lanes} (loses : Lane.Loses p.lanes token job lanes) :
      Loses p (.lane token) job { p with lanes, queued := p.queued - 1 }

theorem loses_of_pop (taken : p.pop = some (job, rest)) : ∃ inlet, p.Loses inlet job rest := by
  unfold pop at taken
  split at taken
  · next first jobs front =>
      simp only [Option.some.injEq, Prod.mk.injEq] at taken
      obtain ⟨rfl, rfl⟩ := taken
      exact ⟨.shared, .shared front⟩
  · simp only [Option.map_eq_some_iff, Prod.mk.injEq] at taken
    obtain ⟨⟨_, lanes⟩, found, rfl, rfl⟩ := taken
    obtain ⟨token, loses⟩ := Lane.takeFirst_loses found
    exact ⟨.lane token, .lane loses⟩

theorem loses_of_popLane (taken : p.popLane token = some (job, rest)) :
    p.Loses (.lane token) job rest := by
  simp only [popLane, Option.map_eq_some_iff, Prod.mk.injEq] at taken
  obtain ⟨⟨_, lanes⟩, found, rfl, rfl⟩ := taken
  exact .lane (Lane.takeFrom_loses found)

namespace Loses

theorem perm (loses : p.Loses inlet job rest) : p.contents.Perm (job :: rest.contents) := by
  cases loses with
  | shared front => simp [contents, front]
  | lane loses =>
      simp only [contents]
      exact (loses.perm.append_left _).trans List.perm_middle

theorem tokens (loses : p.Loses inlet job rest) :
    rest.lanes.map (·.token) = p.lanes.map (·.token) := by
  cases loses with
  | shared => rfl
  | lane loses => exact loses.tokens

theorem stage (loses : p.Loses inlet job rest) : rest.stage = p.stage := by
  cases loses <;> rfl

theorem workers (loses : p.Loses inlet job rest) :
    rest.workers = p.workers ∧ rest.asleep = p.asleep ∧ rest.working = p.working := by
  cases loses <;> exact ⟨rfl, rfl, rfl⟩

end Loses

/-- Every job of a pool, at the inlet where it waits. -/
structure Each (holds : Inlet → Job Work → Prop) (p : Pool Work) : Prop where
  shared : ∀ job ∈ p.shared, holds .shared job
  lanes : ∀ lane ∈ p.lanes, ∀ job ∈ lane.jobs, holds (.lane lane.token) job

namespace Each

variable {holds other : Inlet → Job Work → Prop}

/-- A weaker fact is enough at the lanes that the pool really has. -/
theorem weaken (each : p.Each holds)
    (weaker : ∀ inlet job, (∀ token, inlet = .lane token → token ∈ p.lanes.map (·.token)) →
      holds inlet job → other inlet job) : p.Each other where
  shared job member := weaker _ _ (fun _ wrong => nomatch wrong) (each.shared job member)
  lanes lane inside job member := by
    refine weaker _ _ ?_ (each.lanes lane inside job member)
    intro token same
    cases same
    exact List.mem_map.mpr ⟨lane, inside, rfl⟩

theorem of_queue (each : p.Each holds) (member : job ∈ p.queue inlet) : holds inlet job := by
  cases inlet with
  | shared => exact each.shared job member
  | lane token =>
      obtain ⟨lane, inside, member⟩ := List.mem_flatMap.mp member
      obtain ⟨inside, own⟩ := List.mem_filter.mp inside
      exact of_decide_eq_true own ▸ each.lanes lane inside job member

theorem of_mem (each : p.Each holds) (member : job ∈ p.contents) :
    ∃ inlet, job ∈ p.queue inlet ∧ (∀ token, inlet = .lane token → token ∈ p.lanes.map (·.token)) ∧
      holds inlet job := by
  simp only [contents, Lane.contents, List.mem_append, List.mem_flatMap] at member
  rcases member with waiting | ⟨lane, inside, waiting⟩
  · refine ⟨.shared, waiting, ?_, each.shared job waiting⟩
    intro token wrong
    cases wrong
  · refine ⟨.lane lane.token, ?_, ?_, each.lanes lane inside job waiting⟩
    · exact List.mem_flatMap.mpr ⟨lane, List.mem_filter.mpr ⟨inside, by simp⟩, waiting⟩
    · intro token same
      cases same
      exact List.mem_map.mpr ⟨lane, inside, rfl⟩

theorem loses (each : p.Each holds) (loses : p.Loses inlet job rest) :
    holds inlet job ∧ rest.Each holds := by
  cases loses with
  | shared front =>
      have all := each.shared
      simp only [front, List.mem_cons, forall_eq_or_imp] at all
      exact ⟨all.1, all.2, each.lanes⟩
  | lane loses =>
      obtain ⟨before, jobs, after, split, rfl⟩ := loses
      have all := each.lanes
      simp only [split, List.mem_append, List.mem_cons] at all
      have taken := all _ (.inr (.inl rfl))
      refine ⟨taken job List.mem_cons_self, each.shared, ?_⟩
      intro lane inside waiting member
      simp only [List.mem_append, List.mem_cons] at inside
      rcases inside with inside | rfl | inside
      · exact all lane (.inl inside) waiting member
      · exact taken waiting (List.mem_cons_of_mem _ member)
      · exact all lane (.inr (.inr inside)) waiting member

theorem push (each : p.Each holds) (entering : holds inlet job) :
    (p.push inlet job).Each holds := by
  cases inlet with
  | shared =>
      refine ⟨?_, each.lanes⟩
      intro waiting member
      simp only [Pool.push, List.mem_append, List.mem_singleton] at member
      rcases member with member | rfl
      · exact each.shared waiting member
      · exact entering
  | lane token =>
      refine ⟨each.shared, ?_⟩
      intro lane inside waiting member
      simp only [Pool.push, Lane.push, List.mem_map] at inside
      obtain ⟨old, inside, rfl⟩ := inside
      by_cases own : old.token = token
      · simp only [own, if_true, List.mem_append, List.mem_singleton] at member ⊢
        rcases member with member | rfl
        · exact own ▸ each.lanes old inside waiting member
        · exact entering
      · simp only [own, if_false] at member ⊢
        exact each.lanes old inside waiting member

theorem release (each : p.Each holds)
    (handed : ∀ job, holds (.lane token) job → holds .shared job) :
    (p.release token).Each holds := by
  constructor
  · intro waiting member
    simp only [Pool.release, waitingIn, Lane.contents, List.mem_append, List.mem_flatMap,
      List.mem_filter, decide_eq_true_eq] at member
    rcases member with member | ⟨lane, ⟨inside, own⟩, member⟩
    · exact each.shared waiting member
    · exact handed waiting (own ▸ each.lanes lane inside waiting member)
  · intro lane inside
    exact each.lanes lane (List.mem_filter.mp inside).1

theorem register (each : p.Each holds) (token : TokenId) : (p.register token).Each holds := by
  refine ⟨each.shared, ?_⟩
  intro lane inside waiting member
  simp only [Pool.register, List.mem_append, List.mem_singleton] at inside
  rcases inside with inside | rfl
  · exact each.lanes lane inside waiting member
  · simp at member

end Each

/-- A job that enters is there once. A lane takes it once if its token has exactly one lane. -/
theorem push_perm (job : Job Work)
    (once : ∀ token, inlet = .lane token → (p.lanes.map (·.token)).count token = 1) :
    (p.push inlet job).contents.Perm (job :: p.contents) := by
  cases inlet with
  | shared =>
      rw [contents_push_shared]
      exact List.perm_middle
  | lane token =>
      simp only [push, contents]
      exact ((Lane.push_perm job (once token rfl)).append_left _).trans List.perm_middle

@[simp] theorem push_tokens (inlet : Inlet) (job : Job Work) (p : Pool Work) :
    (p.push inlet job).lanes.map (·.token) = p.lanes.map (·.token) := by
  cases inlet with
  | shared => rfl
  | lane token => exact Lane.push_tokens token job p.lanes

@[simp] theorem push_stage (inlet : Inlet) (job : Job Work) (p : Pool Work) :
    (p.push inlet job).stage = p.stage := by
  cases inlet <;> rfl

@[simp] theorem push_workers (inlet : Inlet) (job : Job Work) (p : Pool Work) :
    (p.push inlet job).workers = p.workers ∧ (p.push inlet job).asleep = p.asleep ∧
      (p.push inlet job).working = p.working := by
  cases inlet <;> exact ⟨rfl, rfl, rfl⟩

/-- Dissolving a lane moves its jobs and loses none. -/
theorem release_perm (token : TokenId) (p : Pool Work) :
    (p.release token).contents.Perm p.contents := by
  simp only [contents, release, waitingIn, List.append_assoc]
  apply List.Perm.append_left _
  simp only [Lane.contents, ← List.flatMap_append, ne_eq, decide_not]
  exact (List.filter_append_perm (fun lane : Lane Work => decide (lane.token = token))
    p.lanes).flatMap_right _

end Pool

end TaskPool
