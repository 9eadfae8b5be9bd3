import TaskPool.Machine.Step

/-!
# Running threads together

The driver thread runs as long as it can; when it is blocked, the first other thread that can take a
turn does. Turns take no time. When no thread can take one, the clock goes to the first instant at
which a sleeping thread wakes up or a waiting thread gives up. This is one of the orders in which
the threads may run. A script whose outcome depends on the order has no outcome of its own.
-/

namespace TaskPool

structure Machine where
  world : World
  driver : Thread
  others : List Thread := []
  /-- What happened so far, the last event first. -/
  journal : List Record := []

namespace Machine

def record (thread : ThreadId) (events : List Event) (journal : List Record) : List Record :=
  events.foldl (fun journal event => ⟨thread, event⟩ :: journal) journal

/-- The first of some threads that can take a turn takes it. A thread that is finished leaves. -/
def stepFirst (w : World) : List Thread → Option (ThreadId × List Event × World × List Thread)
  | [] => none
  | thread :: rest =>
    match thread.step w with
    | some step =>
      let rest := if step.thread.frames.isEmpty then rest else step.thread :: rest
      some (thread.id, step.events, step.world, rest ++ step.spawn)
    | none =>
      (stepFirst w rest).map fun (id, events, w, rest) => (id, events, w, thread :: rest)

/-- Time passes until the first thread that waits for an instant can go on. -/
def passTime (m : Machine) : Option Machine :=
  ((m.driver :: m.others).filterMap Thread.wakesAt?).min?.map fun clock =>
    { m with world := { m.world with clock } }

/-- One turn of some thread. There is none when the driver thread is finished, or when every thread
is blocked for ever. -/
def step (m : Machine) : Option Machine :=
  if m.driver.frames.isEmpty then
    none
  else
    match m.driver.step m.world with
    | some step =>
      some
        { world := step.world
          driver := step.thread
          others := m.others ++ step.spawn
          journal := record m.driver.id step.events m.journal }
    | none =>
      match stepFirst m.world m.others with
      | some (id, events, world, others) =>
        some { m with world, others, journal := record id events m.journal }
      | none => m.passTime

/-- Takes turns until there is none, at most `fuel` of them. -/
def run : Nat → Machine → Machine
  | 0, m => m
  | fuel + 1, m =>
    match m.step with
    | some m => run fuel m
    | none => m

/-- The machine that carries out a script on the driver thread and then drops what is left. -/
def load (bodies : Table (List Op)) (host : Host) (ops : List Op) : Machine where
  world := { bodies, host }
  driver := { id := .driver, frames := [.program ops, .cleanup] }

end Machine

end TaskPool
