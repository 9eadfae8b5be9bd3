import TaskPool.Machine.Run
import TaskPool.Report

/-!
# Sessions

A session carries out one script in an empty world and reports on it. A script may run for ever, so
a session takes a bounded number of turns.
-/

namespace TaskPool

/-- A script, and what is to be shown of it. -/
structure Session where
  ops : List Op
  /-- The task bodies that the script refers to by name. -/
  bodies : Table (List Op) := []
  detail : Detail := {}
  maxThreads : Nat := 8

/-- Carries out the script on a host with `cores` processors that starts every thread, and reports
on it. There is no report if the driver thread does not finish in `fuel` turns. -/
def Session.report? (session : Session) (cores fuel : Nat) : Option Report :=
  let host : Host := { cores, maxThreads := session.maxThreads }
  let final := (Machine.load session.bodies host session.ops).run fuel
  if final.driver.frames.isEmpty then
    some (Report.ofJournal session.detail final.journal.reverse final.world.counters)
  else
    none

end TaskPool
