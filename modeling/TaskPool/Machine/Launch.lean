import TaskPool.Machine.Frame

/-!
# Running a job

A job runs on the thread that launches it. If it is wrapped for a batch, its end is reported to the
batch before anybody else learns of it. If it was taken from a queue, the pool that was asked for it
contains its panic; a job that the submitting thread runs at once has nobody to contain it.

The report is what `package_task` wraps around a task, and to contain a panic is what `run_job`
does.
-/

namespace TaskPool

/-- Comes to a gate, which is known from then on. The driver thread does not wait at a closed gate,
since nobody could open it. Any other thread arrives and waits until the gate is open. -/
def Turn.block (ctx : Context) (w : World) (gate : String) : Turn :=
  if ctx.thread = .driver ∧ (w.gate gate).isOpen = false then
    Turn.reply (w.meetGate gate) (.refused .wouldBlock)
  else
    Turn.await (w.arrive gate) (.opened gate)

def Job.launch (ctx : Context) (job : Job Work) (w : World) : Turn :=
  let turn : Turn :=
    match job.work with
    | .body label ops onBatch =>
      { world := w, events := [.started job.id label], push := [.body job.id label 0 ops onBatch] }
    | .park gate => Turn.block ctx w gate
  turn.above (job.batch.toList.map (.settle job.id))

/-- Takes the next job from a source and starts it, or does nothing if there is none. -/
def Source.runNext (ctx : Context) (source : Source) (w : World) : Option Turn :=
  (w.system.take source).map fun (job, system) =>
    (job.launch ctx { w with system }).above [.contain job.id source.receiver]

end TaskPool
