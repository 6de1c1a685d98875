import LsxKit.Xml.Token

/-!
# Markup events

The tokens of a document in order, with the names of tags set apart and every end tag matched
with the start tag it closes. Reading ends at the end of the text or at the first fault.

* `Event.reading`: the events of a text, each with the byte offset at which it begins, and the
  fault that ended reading, if one did.
-/

namespace LsxKit.Xml

/-- A start tag: its name, and the rest of its content. -/
structure Tag where
  name : List Char
  /-- What follows the name. -/
  rest : List Char
  deriving Repr, DecidableEq

/-- The content of the tag. -/
def Tag.content (t : Tag) : List Char := t.name ++ t.rest

/-- The tag with the given content; the name ends at the first space. -/
def Tag.ofContent (content : List Char) : Tag where
  name := content.takeWhile (!isSpace ·)
  rest := content.dropWhile (!isSpace ·)

@[simp] theorem Tag.content_ofContent (content : List Char) :
    (Tag.ofContent content).content = content :=
  List.takeWhile_append_dropWhile

/-- What a token says. -/
inductive Event where
  | start (tag : Tag)
  | empty (tag : Tag)
  | close (name : List Char)
  | text (raw : List Char)
  | characterData (raw : List Char)
  /-- An XML declaration: what stands between `<?` and `?>`. -/
  | declaration (content : List Char)
  /-- A comment, a document type or an instruction. -/
  | other
  deriving Repr, DecidableEq

/-- The events of a text, and the fault that ended reading. -/
structure Reading where
  events : List (Nat × Event)
  fault : Option (Nat × Fault)
  deriving Repr

namespace Event

/-- The event of a tag: a slash at the end makes it an empty element. -/
def ofTag (content : List Char) : Event :=
  if content.getLast? = some '/' then .empty (Tag.ofContent content.dropLast)
  else .start (Tag.ofContent content)

/-- The event of an instruction: the word `xml` and a space make it a declaration. -/
def ofInstruction (content : List Char) : Event :=
  match content with
  | 'x' :: 'm' :: 'l' :: c :: _ => if isSpace c then .declaration content else .other
  | _ => .other

/-- The name in an end tag: its content without space at the end, unless it is all space. -/
def closeName (content : List Char) : List Char :=
  if content.all isSpace then content
  else (content.reverse.dropWhile isSpace).reverse

/-- The event of a token among open elements, innermost first, or the fault of an end tag that
does not close the innermost of them. -/
def ofToken? (opened : List (List Char)) : Token → Except Fault Event
  | .text raw => .ok (.text raw)
  | .tag content => .ok (ofTag content)
  | .instruction content => .ok (ofInstruction content)
  | .characterData content => .ok (.characterData content)
  | .comment _ => .ok .other
  | .doctype _ => .ok .other
  | .close content =>
    match opened with
    | [] => .error (.wrongEnd "" (String.ofList content))
    | name :: _ =>
      if closeName content = name then .ok (.close name)
      else .error (.wrongEnd (String.ofList name) (String.ofList (closeName content)))

/-- The open elements after an event. -/
def nextOpened (opened : List (List Char)) : Event → List (List Char)
  | .start tag => tag.name :: opened
  | .close _ => opened.drop 1
  | _ => opened

/-- The events of a text that begins at the byte `offset` inside the elements `opened`. -/
def readingFrom (opened : List (List Char)) (offset : Nat) (cs : List Char) : Reading :=
  match _h : step cs with
  | .done => ⟨[], none⟩
  | .failed fault => ⟨[], some (offset, fault)⟩
  | .token t source rest =>
    match ofToken? opened t with
    | .error fault => ⟨[], some (offset, fault)⟩
    | .ok e =>
      let r := readingFrom (nextOpened opened e) (offset + Text.size source) rest
      ⟨(offset, e) :: r.events, r.fault⟩
termination_by cs.length
decreasing_by exact step_length _h

/-- A text without the byte order mark at its beginning. -/
def dropMark : List Char → List Char
  | c :: cs => if c.toNat = 0xFEFF then cs else c :: cs
  | [] => []

/-- The events of a document. Offsets do not count a byte order mark at the beginning. -/
def reading (text : List Char) : Reading :=
  readingFrom [] 0 (dropMark text)

end Event

end LsxKit.Xml
