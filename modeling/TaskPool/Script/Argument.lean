/-!
# Arguments and refusals

The arguments of an operation are looked at one by one, in an order that belongs to the operation.
An argument that is absent or of the wrong form is refused only when its turn comes, so it stays in
the operation as it was found.
-/

namespace TaskPool

inductive Refusal where
  /-- The operation is unknown, or an argument is missing or of the wrong form. -/
  | badOp
  /-- No live object goes by that name here. -/
  | noSuch
  /-- The object does not have the operation. -/
  | unsupported
  /-- The name is in use. -/
  | duplicate
  /-- Only the driver thread may make and drop objects. -/
  | wrongThread
  /-- An operation that is in progress excludes this one. -/
  | busy
  /-- The operation would wait for a task that is running it. -/
  | wouldDeadlock
  /-- The driver thread would wait at a closed gate. -/
  | wouldBlock
  /-- No task body goes by that name. -/
  | noSuchTask
  /-- What was awaited did not come. -/
  | timeout
  deriving Repr, DecidableEq

def Refusal.code : Refusal → String
  | .badOp => "bad_op"
  | .noSuch => "no_such"
  | .unsupported => "unsupported"
  | .duplicate => "duplicate"
  | .wrongThread => "wrong_thread"
  | .busy => "busy"
  | .wouldDeadlock => "would_deadlock"
  | .wouldBlock => "would_block"
  | .noSuchTask => "no_such_task"
  | .timeout => "timeout"

/-- An argument as it was found. -/
inductive Arg (α : Type) where
  | missing
  | malformed
  | given (value : α)
  deriving Repr

namespace Arg

variable {α : Type}

def require : Arg α → Except Refusal α
  | missing | malformed => .error .badOp
  | given value => .ok value

/-- The argument, or `fallback` if it is absent; one of the wrong form is still refused. -/
def orDefault (fallback : α) : Arg α → Except Refusal α
  | missing => .ok fallback
  | malformed => .error .badOp
  | given value => .ok value

def optional : Arg α → Except Refusal (Option α)
  | missing => .ok none
  | malformed => .error .badOp
  | given value => .ok (some value)

end Arg

def Refusal.unless (condition : Bool) (refusal : Refusal) : Except Refusal Unit :=
  if condition then .ok () else .error refusal

end TaskPool
