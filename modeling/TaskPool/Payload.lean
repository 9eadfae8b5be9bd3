/-!
# What a panic carries

A panic is a value that leaves a task body early. Its payload is kept as it is, kind and all, from
the place where it is raised to the place where somebody reads it. A `Failure` is a payload together
with the text that describes it; the text is taken from the payload once, when the failure is
captured.

`Failure` is `TaskSetError`, with `from_panic`, `into_payload` and the way from a payload to its
message.
-/

namespace TaskPool

/-- Plain data that task bodies hand around and that no rule of this library looks into. A number is
`mantissa * 10 ^ (-exponent)`. -/
inductive Value where
  | null
  | bool (b : Bool)
  | number (mantissa : Int) (exponent : Nat)
  | text (s : String)
  | list (items : List Value)
  | record (fields : List (String × Value))
  deriving Repr, Inhabited

/-- The payload of a panic. Three kinds hold text, and they stay distinct: text fixed in the
program, text built at run time, and boxed text. A `failure` is a captured failure that was raised
again as a payload of its own; it keeps the payload that was captured. To drop a payload is taken to
do nothing. -/
inductive Payload where
  | fixedText (s : String)
  | ownedText (s : String)
  | boxedText (s : String)
  | int (i : Int)
  | list (items : List Value)
  | unit
  | failure (message : String) (cause : Payload)
  deriving Repr, Inhabited

namespace Payload

/-- The text that stands for a payload in which no text can be read. -/
def unreadable : String := "<non-string panic payload>"

/-- The text of a payload. Only fixed and owned text can be read; boxed text and raised failures
cannot, although they hold text too. -/
def message : Payload → String
  | fixedText s | ownedText s => s
  | _ => unreadable

theorem message_of_text {p : Payload} {s : String} (text : p = fixedText s ∨ p = ownedText s) :
    p.message = s := by
  rcases text with rfl | rfl <;> rfl

theorem message_of_no_text {p : Payload} (unread : ∀ s, p ≠ fixedText s ∧ p ≠ ownedText s) :
    p.message = "<non-string panic payload>" := by
  cases p with
  | fixedText s => exact absurd rfl (unread s).1
  | ownedText s => exact absurd rfl (unread s).2
  | boxedText | int | list | unit | failure => rfl

end Payload

/-- A captured panic: its payload, and the text read from it at the time of capture. -/
structure Failure where
  message : String
  payload : Payload
  deriving Repr, Inhabited

namespace Failure

def ofPayload (p : Payload) : Failure := ⟨p.message, p⟩

/-- The line that reports a failure. -/
def describe (f : Failure) : String := "Task panicked during execution: " ++ f.message

/-- The payload of a panic that carries the failure itself. -/
def toPayload (f : Failure) : Payload := .failure f.message f.payload

/-- Capturing loses nothing: the payload comes out as it went in. -/
@[simp] theorem payload_ofPayload (p : Payload) : (ofPayload p).payload = p := rfl

@[simp] theorem message_ofPayload (p : Payload) : (ofPayload p).message = p.message := rfl

end Failure

end TaskPool
