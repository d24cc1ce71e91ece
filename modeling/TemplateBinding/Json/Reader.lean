import TemplateBinding.Json.Token

/-!
# Reading JSON

A machine with a stack of unfinished containers consumes the tokens one at a time.  A text is read
when the machine ends with exactly one finished value.  The stack may grow without limit, so a
limit on nesting is left to the decoders.
-/
namespace TemplateBinding.Json
set_option autoImplicit false

/-- A container part way through, with its finished elements in reverse. -/
inductive Frame where
  | array (done : List Json)
  | object (done : List (Option String × Json)) (key : Option String)
  deriving Repr

/-- What the machine has read and what it may read next. -/
inductive Machine where
  /-- A value must follow. -/
  | atValue (frames : List Frame)
  /-- An array was opened: a value or its end must follow. -/
  | atFirstItem (frames : List Frame)
  /-- An object was opened: a key or its end must follow. -/
  | atFirstKey (frames : List Frame)
  /-- A comma in an object: a key must follow. -/
  | atKey (done : List (Option String × Json)) (frames : List Frame)
  /-- A key was read: a colon must follow. -/
  | atColon (done : List (Option String × Json)) (key : Option String) (frames : List Frame)
  /-- An element was read: a comma or the end of its container must follow. -/
  | afterElement (frame : Frame) (frames : List Frame)
  /-- The whole value was read: nothing may follow. -/
  | finished (value : Json)
  deriving Repr

namespace Machine

/-- Hands a finished value to the innermost container. -/
def finish (value : Json) : List Frame → Machine
  | [] => finished value
  | .array done :: frames => afterElement (.array (value :: done)) frames
  | .object done key :: frames => afterElement (.object ((key, value) :: done) key) frames

def begin (frames : List Frame) : Token → Option Machine
  | .scalar value => some (finish value frames)
  | .string (some text) => some (finish (string text) frames)
  | .string none => some (finish unsupported frames)
  | .openArray => some (atFirstItem frames)
  | .openObject => some (atFirstKey frames)
  | _ => none

def step : Machine → Token → Option Machine
  | atValue frames, token => begin frames token
  | atFirstItem frames, .closeArray => some (finish (array []) frames)
  | atFirstItem frames, token => begin (.array [] :: frames) token
  | atFirstKey frames, .closeObject => some (finish (object []) frames)
  | atFirstKey frames, .string text => some (atColon [] text frames)
  | atKey done frames, .string text => some (atColon done text frames)
  | atColon done text frames, .colon => some (atValue (.object done text :: frames))
  | afterElement (.array done) frames, .comma => some (atValue (.array done :: frames))
  | afterElement (.array done) frames, .closeArray => some (finish (array done.reverse) frames)
  | afterElement (.object done _) frames, .comma => some (atKey done frames)
  | afterElement (.object done _) frames, .closeObject => some (finish (ofMembers done.reverse) frames)
  | _, _ => none

def run (machine : Machine) : List Token → Option Machine
  | [] => some machine
  | token :: rest => (machine.step token).bind (·.run rest)

def result? : Machine → Option Json
  | finished value => some value
  | _ => none

end Machine

/-- Reads one value, with nothing but blanks around it. -/
def read? (text : String) : Option Json := do
  let tokens ← tokens text.toList
  let machine ← (Machine.atValue []).run tokens
  machine.result?

end TemplateBinding.Json
