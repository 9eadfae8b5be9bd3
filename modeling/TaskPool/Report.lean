import TaskPool.Journal

/-!
# Reports

A report is what a reader is shown of a journal: for each top-level operation its reply and the
traces that the driver thread left during it, the traces of the clean-up, and the traces of all
other threads, ordered by the label of the task. A script that leaves it open which thread runs a
task is reported as a bag: all traces go into one list.
-/

namespace TaskPool

inductive Trace where
  | started (label : String)
  | replied (label : String) (index : Nat) (reply : Reply)
  | ended (label : String)
  | unwound (label : String)
  | logged (notice : Notice)
  deriving Repr

/-- What a reader wants to be shown. -/
structure Detail where
  /-- Show the log events of the driver thread. -/
  log : Bool := false
  /-- Show the counts of pools and batches after each operation. -/
  watch : Bool := false
  /-- Do not tell threads apart. -/
  bag : Bool := false
  deriving Repr

structure Answered where
  reply : Reply
  traces : List Trace
  snapshot : Option Snapshot
  deriving Repr

structure Report where
  steps : List Answered
  /-- The traces of the clean-up. -/
  finish : List Trace
  others : List Trace
  counters : List (String × Int)
  deriving Repr

namespace Trace

def ofTaskEvent : Event → Option Trace
  | .started _ label => some (.started label)
  | .replied _ label index reply => some (.replied label index reply)
  | .ended _ label => some (.ended label)
  | .unwound _ label _ => some (.unwound label)
  | _ => none

def ofDriverEvent (detail : Detail) (event : Event) : Option Trace :=
  match event with
  | .logged notice => if detail.log then some (.logged notice) else none
  | event => ofTaskEvent event

def label : Trace → String
  | started label | replied label _ _ | ended label | unwound label => label
  | logged _ => ""

/-- Orders traces by label and keeps the order of those with one label. -/
def sortByLabel (traces : List Trace) : List Trace :=
  traces.mergeSort fun a b => decide (a.label ≤ b.label)

end Trace

namespace Report

/-- The steps of a run and the traces after the last of them, where `current` are the traces since
the last step. -/
def stepsOf (detail : Detail) (current : List Trace) : List Event → List Answered × List Trace
  | [] => ([], current)
  | .answered reply snapshot :: rest =>
    let (steps, finish) := stepsOf detail [] rest
    (⟨reply, current, if detail.watch then some snapshot else none⟩ :: steps, finish)
  | event :: rest =>
    let shown := if detail.bag then none else Trace.ofDriverEvent detail event
    stepsOf detail (current ++ shown.toList) rest

/-- The report on a journal, whose first entry is the first thing that happened. -/
def ofJournal (detail : Detail) (journal : List Record) (counters : List (String × Int)) : Report :=
  let onDriver (record : Record) : Bool := record.thread = .driver
  let (steps, finish) := stepsOf detail [] ((journal.filter onDriver).map (·.event))
  let elsewhere := journal.filter fun record => detail.bag || !onDriver record
  { steps
    finish
    others := Trace.sortByLabel (elsewhere.filterMap (Trace.ofTaskEvent ·.event))
    counters }

end Report

end TaskPool
