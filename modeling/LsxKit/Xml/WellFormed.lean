import LsxKit.Error
import LsxKit.Text.Blank
import LsxKit.Xml.Attribute
import LsxKit.Xml.Reference

/-!
# Well-formed documents

A document is well formed when its markup can be read, its attributes and references are
correct, it has exactly one root element, every element is closed, and no text stands outside
the root.

* `checkWellFormed`: accepts the well-formed documents; otherwise reports the first fault with
  its position.
-/

namespace LsxKit.Xml

namespace WellFormed

/-- What a check has seen: the open elements, innermost first, each with the offset of its tag, and
whether the root element has begun. -/
structure State where
  opened : List (String × Nat)
  rootSeen : Bool
  deriving Repr

/-- The state before the first event. -/
def State.initial : State := ⟨[], false⟩

/-- The offset at which markup is reported that begins at the byte `offset` of the document
after its byte order mark: an offset right after an opening bracket stands for the bracket. -/
def reportOffset (text : List Char) (offset : Nat) : Nat :=
  if 0 < offset ∧ Text.startingAt? (offset - 1) text = some '<' then offset - 1 else offset

/-- The fault of the attributes of a tag, if there is one. -/
def checkAttributes (t : Tag) : Except DocumentFault Unit :=
  match t.attributes.2 with
  | some fault => .error (.attribute fault)
  | none => .ok ()

/-- The text of a run, or the fault of a reference in it. -/
def resolveText (raw : List Char) : Except DocumentFault (List Char) :=
  (unescape raw).mapError .reference

/-- The white space that is skipped to report text outside the root. -/
def isLeadingSpace (c : Char) : Bool := isSpace c || c == '\x0c'

/-- What a check of a text knows after an event at an offset; a fault comes with the offset at which
it is reported. -/
def step (text : List Char) (s : State) (offset : Nat) :
    Event → Except (Nat × DocumentFault) State
  | .start tag => do
    let name := String.ofList tag.name
    if s.opened.isEmpty && s.rootSeen then .error (reportOffset text offset, .secondRoot name)
    (checkAttributes tag).mapError fun fault => (reportOffset text offset, fault)
    return ⟨(name, offset) :: s.opened, true⟩
  | .empty tag => do
    if s.opened.isEmpty && s.rootSeen then
      .error (reportOffset text offset, .secondRoot (String.ofList tag.name))
    (checkAttributes tag).mapError fun fault => (reportOffset text offset, fault)
    return ⟨s.opened, true⟩
  | .close _ => return ⟨s.opened.drop 1, s.rootSeen⟩
  | .text raw => do
    let resolved ← (resolveText raw).mapError fun fault => (reportOffset text offset, fault)
    if s.opened.isEmpty && !resolved.all Text.isBlank then
      .error (reportOffset text offset + (raw.takeWhile isLeadingSpace).length, .strayText)
    return s
  | .characterData _ | .declaration _ | .other => return s

/-- Checks events in order. -/
def run (text : List Char) (s : State) :
    List (Nat × Event) → Except (Nat × DocumentFault) State
  | [] => .ok s
  | (offset, e) :: events => do run text (← step text s offset e) events

/-- What is wrong at the end of a text, if anything is. -/
def finish (text : List Char) (s : State) : Except (Nat × DocumentFault) Unit :=
  match s.opened with
  | (name, offset) :: _ => .error (reportOffset text offset, .unclosed name)
  | [] => if s.rootSeen then .ok () else .error (Text.size text, .noRoot)

/-- Checks a document; a fault comes with its byte offset. -/
def check (text : List Char) : Except (Nat × DocumentFault) Unit := do
  let r := Event.reading text
  let s ← run text State.initial r.events
  match r.fault with
  | some (offset, fault) => .error (reportOffset text offset, .markup fault)
  | none => finish text s

end WellFormed

/-- Accepts the well-formed documents, and reports the first fault of any other. -/
def checkWellFormed (text : String) : Except Error Unit :=
  (WellFormed.check text.toList).mapError fun (offset, fault) =>
    .document (Position.ofOffset text.toList offset) fault

end LsxKit.Xml
