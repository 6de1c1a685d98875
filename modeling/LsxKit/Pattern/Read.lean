import LsxKit.Pattern.Build
import LsxKit.Pattern.Class

/-!
# Reading patterns

The written form of patterns: literals, `.`, `^`, `$`, classes in brackets, escapes, groups,
choices with `|`, repetitions with `*`, `+`, `?` and counts in braces, and flags. A pattern is
read from left to right; the groups that are open wait until they are closed.

* `Pattern.read?`: the pattern that a text writes; none if it is not a pattern.
-/

namespace LsxKit.Pattern

/-! ## Repetitions -/

/-- Reads a count, blanks around it ignored. -/
def count? (f : Flags) (s : List Char) : Option (Nat × List Char) :=
  let (digits, s) := f.span Char.isDigit (s.dropWhile Text.isBlank)
  let n := Nat.ofDigitChars 10 digits 0
  if digits.isEmpty || UInt32.size ≤ n then none
  else some (n, (f.span Text.isBlank s).2)

/-- Reads the counts of a repetition after the opening brace. Without a limit the comma is
directly before the closing brace. -/
def counts? (f : Flags) (s : List Char) : Option ((Nat × Option Nat) × List Char) := do
  let (least, s) ← count? f (f.skip s)
  match s with
  | '}' :: s => return ((least, some least), s)
  | ',' :: s =>
    match f.skip s with
    | '}' :: s => return ((least, none), s)
    | s => do
      let (most, s) ← count? f s
      match s with
      | '}' :: s => if least ≤ most then return ((least, some most), s) else none
      | _ => none
  | _ => none

/-- Reads the mark of a repetition that prefers few pieces: whether it is not there, and the text
after it. -/
def greed : List Char → Bool × List Char
  | '?' :: s => (false, s)
  | s => (true, s)

/-! ## Flags and groups -/

/-- A flag by its letter set or unset. -/
def Flags.put? (f : Flags) (letter : Char) (on : Bool) : Option Flags :=
  match letter with
  | 'i' => some { f with ignoreCase := on }
  | 'm' => some { f with everyLine := on }
  | 's' => some { f with dotAll := on }
  | 'U' => some { f with swapGreed := on }
  | 'u' => some { f with unicode := on }
  | 'R' => some { f with anyLineEnd := on }
  | 'x' => some { f with spaced := on }
  | _ => none

/-- Reads flags up to a colon or a closing parenthesis, which is left; `on` tells whether they are
set, and none may be among those `seen` before. A hyphen, which unsets those after it, may not be
the last. -/
def flags? (f : Flags) (on : Bool) (seen : List Char) : List Char → Option (Flags × List Char)
  | [] => none
  | c :: s =>
    if c = ':' ∨ c = ')' then
      if seen.head? = some '-' then none else some (f, c :: s)
    else if c ∈ seen then none
    else if c = '-' then flags? f false (c :: seen) s
    else
      match f.put? c on with
      | some f => flags? f on (c :: seen) s
      | none => none

/-- Reads the name of a group up to its closing bracket. -/
def groupName? (s : List Char) : Option (List Char × List Char) :=
  match s.takeWhile (· ≠ '>'), s.dropWhile (· ≠ '>') with
  | c :: cs, _ :: rest =>
    let begins := Text.isLetter c || c = '_'
    let continues (d : Char) : Bool :=
      Text.isLetterOrNumber d || d = '_' || d = '.' || d = '[' || d = ']'
    if begins && cs.all continues then some (c :: cs, rest) else none
  | _, _ => none

/-- What follows an opening parenthesis. -/
inductive GroupHead where
  | numbered (rest : List Char)
  | named (name rest : List Char)
  /-- A group without a number, with the flags inside it. -/
  | plain (f : Flags) (rest : List Char)
  /-- New flags for the rest of the group that is open. -/
  | flags (f : Flags) (rest : List Char)

/-- Reads what follows an opening parenthesis. -/
def groupHead? (f : Flags) (s : List Char) : Option GroupHead :=
  match f.skip s with
  | '?' :: 'P' :: '<' :: s => (groupName? s).map fun (name, rest) => .named name rest
  | '?' :: '<' :: s => (groupName? s).map fun (name, rest) => .named name rest
  | '?' :: s =>
    match flags? f true [] s with
    | some (g, ':' :: rest) => some (.plain g rest)
    | some (g, _ :: rest) => if s.head? = some ')' then none else some (.flags g rest)
    | _ => none
  | s => some (.numbered s)

/-! ## Characters -/

/-- The pattern of a character under the flags. -/
def ofChar (f : Flags) (c : Char) : Pattern :=
  if f.ignoreCase && (f.unicode || c.toNat < 0x80) then
    let variants := CharSet.ofRanges ((caseVariants c).map fun d => (d.toNat, d.toNat))
    ofSet (if f.unicode then variants else variants.inter Flags.ascii)
  else .literal [c]

/-- The pattern of an atom under the flags. -/
def ofAtom (f : Flags) : Atom → Pattern
  | .literal c => ofChar f c
  | .set s => ofSet s
  | .boundary b => .boundary b

/-- Any character under the flags. -/
def anyChar? (f : Flags) : Option Pattern :=
  if !f.unicode then none
  else if f.dotAll then some (ofSet .all)
  else if f.anyLineEnd then some (ofSet (((CharSet.single '\n').union (.single '\r')).compl))
  else some (ofSet (CharSet.single '\n').compl)

/-- The beginning of a text or of a line under the flags. -/
def startPlace (f : Flags) : Pattern :=
  .boundary (if !f.everyLine then .textStart else if f.anyLineEnd then .lineStartAny
    else .lineStart)

/-- The end of a text or of a line under the flags. -/
def endPlace (f : Flags) : Pattern :=
  .boundary (if !f.everyLine then .textEnd else if f.anyLineEnd then .lineEndAny else .lineEnd)

/-! ## Open groups -/

/-- A part of a pattern and its height. -/
structure Part where
  pattern : Pattern
  height : Nat

/-- What was read of a group: the flags that hold, the choices before and the items of the last
choice, latest first. An item without a pattern stands for flags, which cannot be repeated. -/
structure Level where
  flags : Flags
  choices : List Part
  items : List (Option Part)

namespace Level

/-- A group of which nothing was read. -/
def start (f : Flags) : Level := ⟨f, [], []⟩

/-- A level with one more item. -/
def add (l : Level) (p : Pattern) (height : Nat) : Level :=
  { l with items := some ⟨p, height⟩ :: l.items }

/-- The sequence of the items. -/
def sequence (l : Level) : Part :=
  match l.items with
  | [] => ⟨.empty, 0⟩
  | [none] => ⟨.empty, 0⟩
  | [some p] => p
  | items =>
    let parts := items.filterMap id
    ⟨concat (parts.reverse.map (·.pattern)), 1 + (parts.map (·.height)).foldl max 0⟩

/-- All that was read as one part. -/
def close (l : Level) : Part :=
  match l.choices with
  | [] => l.sequence
  | choices =>
    let parts := (l.sequence :: choices).reverse
    ⟨alternation (parts.map (·.pattern)), 1 + (parts.map (·.height)).foldl max 0⟩

end Level

/-- What was read of a pattern: the innermost open group, those around it with the number of the
group inside each, the number of groups so far and their names. -/
structure Reading where
  level : Level
  around : List (Level × Option Nat)
  groups : Nat
  names : List (List Char)

namespace Reading

/-- Nothing. -/
def start : Reading := ⟨.start .initial, [], 0, []⟩

/-- A reading with one more item. -/
def add (r : Reading) (p : Pattern) (height : Nat) : Reading :=
  { r with level := r.level.add p height }

/-- A reading in which a group begins. -/
def openGroup? (r : Reading) (f : Flags) (number : Option Nat) : Option Reading :=
  if r.around.length < maxHeight then
    some { r with level := .start f, around := (r.level, number) :: r.around }
  else none

/-- A reading in which a numbered group begins. -/
def openNumbered? (r : Reading) : Option Reading :=
  openGroup? { r with groups := r.groups + 1 } r.level.flags (some (r.groups + 1))

/-- A reading in which the last item is repeated. -/
def repeat? (r : Reading) (least : Nat) (most : Option Nat) (greedy : Bool) : Option Reading :=
  match r.level.items with
  | some p :: items =>
    if p.height < maxHeight then
      let greedy := greedy != r.level.flags.swapGreed
      let part : Part := ⟨repeated p.pattern least most greedy, 1 + p.height⟩
      some { r with level := { r.level with items := some part :: items } }
    else none
  | _ => none

/-- Reads what follows an opening parenthesis. -/
def openParenthesis? (r : Reading) (s : List Char) : Option (Reading × List Char) := do
  match ← groupHead? r.level.flags s with
  | .numbered s => return (← r.openNumbered?, s)
  | .named name s =>
    guard (name ∉ r.names)
    return (← openNumbered? { r with names := name :: r.names }, s)
  | .plain f s => return (← r.openGroup? f none, s)
  | .flags f s =>
    let level := { r.level with flags := f, items := none :: r.level.items }
    return ({ r with level }, s)

/-- A reading in which the innermost group ends. -/
def closeGroup? (r : Reading) : Option Reading :=
  match r.around with
  | [] => none
  | (level, number) :: around =>
    let part := r.level.close
    let p := match number with
      | some index => .group index part.pattern
      | none => part.pattern
    some { r with level := level.add p (1 + part.height), around }

/-- A reading in which the next choice begins. -/
def nextChoice (r : Reading) : Reading :=
  { r with level := { r.level with choices := r.level.sequence :: r.level.choices, items := [] } }

/-- Reads what a character begins that was just read; `fuel` is at least the length of the rest. -/
def step? (r : Reading) (fuel : Nat) (c : Char) (s : List Char) : Option (Reading × List Char) :=
  let f := r.level.flags
  let repeatMarked (least : Nat) (most : Option Nat) (s : List Char) :=
    let (greedy, s) := greed s
    (r.repeat? least most greedy).map (·, s)
  match c with
  | '(' => r.openParenthesis? s
  | ')' => r.closeGroup?.map (·, s)
  | '|' => some (r.nextChoice, s)
  | '*' => repeatMarked 0 none s
  | '+' => repeatMarked 1 none s
  | '?' => repeatMarked 0 (some 1) s
  | '{' => do
    let ((least, most), s) ← counts? f s
    repeatMarked least most (f.skip s)
  | '[' => do
    let ((chars, height), s) ← classAfter? f (2 * fuel + 2) maxHeight s
    return (r.add (ofSet chars) height, s)
  | '\\' => do
    let (atom, s) ← escape? f s
    return (r.add (ofAtom f atom) 0, s)
  | '.' => do return (r.add (← anyChar? f) 0, s)
  | '^' => some (r.add (startPlace f) 0, s)
  | '$' => some (r.add (endPlace f) 0, s)
  | c => some (r.add (ofChar f c) 0, s)

/-- Reads a text to its end; `fuel` is greater than its length. -/
def run? : Nat → Reading → List Char → Option Reading
  | 0, _, _ => none
  | fuel + 1, r, s =>
    match r.level.flags.skip s with
    | [] => some r
    | c :: s =>
      match r.step? fuel c s with
      | some (r, s) => run? fuel r s
      | none => none

end Reading

/-- The pattern that a text writes. -/
def read? (source : String) : Option Pattern := do
  let s := source.toList
  let r ← Reading.run? (s.length + 1) .start s
  guard r.around.isEmpty
  let part := r.level.close
  if part.height ≤ maxHeight then some part.pattern else none

end LsxKit.Pattern
