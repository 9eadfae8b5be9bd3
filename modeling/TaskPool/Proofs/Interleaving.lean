import TaskPool.Proofs.Spans

/-!
# Threads that take turns in any order

`Machine.run` lets the threads take turns in one of the orders in which they may. A machine is
reached if it comes out of a script in any order at all: at each instant any thread that can take a
turn may take the next one, and time may pass. From a machine that was reached, any of its threads
may go on as long as it can before the others do, and some may rest: such a machine is arranged.
-/

namespace TaskPool

/-- What is left of a thread that took a turn: a thread that is finished leaves. -/
def Thread.left (thread : Thread) : List Thread := if thread.frames.isEmpty then [] else [thread]

namespace Machine

variable {m next : Machine} {thread : Thread}

def threads (m : Machine) : List Thread := m.driver :: m.others

def frames (m : Machine) : List Frame := m.threads.flatMap (·.frames)

/-- A machine that is reached by carrying out a script, with the turns of the threads in any order.
-/
inductive Reached : Machine → Prop where
  | load (bodies : Table (List Op)) (host : Host) (ops : List Op) :
      Reached (Machine.load bodies host ops)
  | driver {m : Machine} {step : Step} (reached : Reached m)
      (turned : m.driver.step m.world = some step) :
      Reached
        { world := step.world
          driver := step.thread
          others := m.others ++ step.spawn
          journal := record m.driver.id step.events m.journal }
  | other {m : Machine} {before after : List Thread} {thread : Thread} {step : Step}
      (reached : Reached m) (split : m.others = before ++ thread :: after)
      (turned : thread.step m.world = some step) :
      Reached
        { m with
          world := step.world
          others := before ++ step.thread.left ++ after ++ step.spawn
          journal := record thread.id step.events m.journal }
  | rests {m : Machine} (reached : Reached m) (clock : Nat) :
      Reached { m with world := { m.world with clock } }

/-- The machine goes on from one that was reached, with some of its threads. The one that goes on
first stands in the place of the driver thread. -/
def Arranged (m : Machine) : Prop :=
  ∃ m' : Machine, m'.Reached ∧ m.world = m'.world ∧ m.journal = m'.journal ∧
    ∃ some, m.threads.Perm some ∧ some.Sublist m'.threads

theorem Reached.arranged (reached : m.Reached) : m.Arranged :=
  ⟨m, reached, rfl, rfl, m.threads, .refl _, .refl _⟩

theorem stepFirst_split {w w' : World} {threads threads' : List Thread} {id : ThreadId}
    {events : List Event} (stepped : stepFirst w threads = some (id, events, w', threads')) :
    ∃ before thread after step, threads = before ++ thread :: after ∧
      thread.step w = some step ∧ id = thread.id ∧ events = step.events ∧ w' = step.world ∧
      threads' = before ++ step.thread.left ++ after ++ step.spawn := by
  induction threads generalizing threads' with
  | nil => cases stepped
  | cons thread rest ih =>
      unfold stepFirst at stepped
      cases turned : thread.step w with
      | some step =>
          simp only [turned, Option.some.injEq, Prod.mk.injEq] at stepped
          obtain ⟨rfl, rfl, rfl, rfl⟩ := stepped
          refine ⟨[], thread, rest, step, rfl, turned, rfl, rfl, rfl, ?_⟩
          unfold Thread.left
          split <;> rfl
      | none =>
          simp only [turned, Option.map_eq_some_iff, Prod.mk.injEq] at stepped
          obtain ⟨⟨_, _, _, rest'⟩, later, rfl, rfl, rfl, rfl⟩ := stepped
          obtain ⟨before, other, after, step, rfl, turned', rfl, rfl, rfl, rfl⟩ := ih later
          exact ⟨thread :: before, other, after, step, rfl, turned', rfl, rfl, rfl, rfl⟩

theorem Reached.step (reached : m.Reached) (stepped : m.step = some next) : next.Reached := by
  unfold Machine.step at stepped
  split at stepped
  · cases stepped
  · split at stepped
    · next step turned =>
        cases stepped
        exact reached.driver turned
    · split at stepped
      · next first =>
          cases stepped
          obtain ⟨before, thread, after, step, split, turned, rfl, rfl, rfl, rfl⟩ :=
            stepFirst_split first
          exact reached.other split turned
      · simp only [passTime, Option.map_eq_some_iff] at stepped
        obtain ⟨clock, _, rfl⟩ := stepped
        exact reached.rests clock

theorem Reached.run (reached : m.Reached) (turns : Nat) : (m.run turns).Reached := by
  induction turns generalizing m with
  | zero => exact reached
  | succ turns ih =>
      cases stepped : m.step with
      | some next =>
          rw [run_of_step stepped]
          exact ih (reached.step stepped)
      | none =>
          rw [run_stuck stepped]
          exact reached

end Machine

end TaskPool
