import LsxKit.Pattern.Escape

/-!
# Classes in patterns

A class in brackets lists characters, ranges, sets and classes inside it, and joins such lists by
`&&`, `--` and `~~`. Each class has a height, by which the nesting of patterns is limited.

* `classAfter?`: the class after its opening bracket.
-/

namespace LsxKit.Pattern

/-- How far patterns may nest. -/
def maxHeight : Nat := 250

/-- The ASCII class with a name. -/
def asciiClass? (name : String) : Option CharSet :=
  let upper := CharSet.range 'A' 'Z'
  let lower := CharSet.range 'a' 'z'
  let digits := CharSet.range '0' '9'
  let alnum := CharSet.unions [digits, upper, lower]
  match name with
  | "alnum" => some alnum
  | "alpha" => some (upper.union lower)
  | "ascii" => some Flags.ascii
  | "blank" => some ((CharSet.single '\t').union (.single ' '))
  | "cntrl" => some ((CharSet.range '\x00' '\x1f').union (.single '\x7f'))
  | "digit" => some digits
  | "graph" => some (.range '!' '~')
  | "lower" => some lower
  | "print" => some (.range ' ' '~')
  | "punct" => some ((CharSet.range '!' '~').diff alnum)
  | "space" => some asciiBlanks
  | "upper" => some upper
  | "word" => some asciiWords
  | "xdigit" => some (.unions [digits, .range 'A' 'F', .range 'a' 'f'])
  | _ => none

/-- Reads an ASCII class after `[:`; none if there is no such class. -/
def namedClass? (s : List Char) : Option (Bool × CharSet × List Char) :=
  let (negated, s) := match s with
    | '^' :: s => (true, s)
    | s => (false, s)
  match s.dropWhile (· ≠ ':') with
  | ':' :: ']' :: rest =>
    (asciiClass? (String.ofList (s.takeWhile (· ≠ ':')))).map (negated, ·, rest)
  | _ => none

/-! ## Members -/

/-- Reads one member of a class. -/
def classAtom? (f : Flags) : List Char → Option (Atom × List Char)
  | [] => none
  | '\\' :: s => escape? f s
  | c :: s => some (.literal c, s)

/-- A character of a class; only ASCII where other characters are not known. -/
def classChar? (f : Flags) : Atom → Option Char
  | .literal c => if f.unicode || c.toNat < 0x80 then some c else none
  | _ => none

/-- The first character after the one at hand that is not skipped, or that begins a comment. -/
def peekNext? (f : Flags) (s : List Char) : Option Char :=
  if f.spaced then
    match s.dropWhile Text.isBlank with
    | '#' :: s => (s.dropWhile Text.isBlank).head?
    | s => s.head?
  else s.head?

/-- The members of a class so far: their characters, their number and the greatest of their
heights. -/
structure Members where
  set : CharSet
  count : Nat
  height : Nat

namespace Members

/-- No members. -/
def none : Members := ⟨.empty, 0, 0⟩

/-- One more member. -/
def add (m : Members) (set : CharSet) (height : Nat) : Members :=
  ⟨m.set.union set, m.count + 1, max m.height height⟩

/-- The height of a list of members: two and more make a list of their own. -/
def listHeight (m : Members) : Nat := if m.count < 2 then m.height else m.height + 1

end Members

/-- Reads a member of a class or a range of two. -/
def member? (f : Flags) (s : List Char) : Option (CharSet × List Char) := do
  let (first, s) ← classAtom? f s
  match f.skip s with
  | [] => none
  | '-' :: rest =>
    let next := peekNext? f rest
    if next = some ']' ∨ next = some '-' then return (← alone first, '-' :: rest)
    else
      let (last, rest) ← classAtom? f (f.skip rest)
      let low ← classChar? f first
      let high ← classChar? f last
      if low ≤ high then return (.range low high, rest) else none
  | s => return (← alone first, s)
where
  /-- A member that is no range. -/
  alone : Atom → Option CharSet
    | .literal c => (classChar? f (.literal c)).map .single
    | .set s => some s
    | .boundary _ => none

/-! ## Operations -/

/-- An operation between the parts of a class. -/
inductive ClassOp where
  | inter
  | diff
  | symmDiff

/-- The result of an operation. -/
def ClassOp.apply : ClassOp → CharSet → CharSet → CharSet
  | .inter, a, b => a.inter b
  | .diff, a, b => a.diff b
  | .symmDiff, a, b => a.symmDiff b

/-- A part of a class: its characters and its height. -/
abbrev ClassPart := CharSet × Nat

/-- The members read last, joined to the part before them. -/
def closePart (f : Flags) (before : Option (ClassPart × ClassOp)) (m : Members) : ClassPart :=
  match before with
  | some ((set, height), op) =>
    (op.apply (f.fold set) (f.fold m.set), 1 + max height m.listHeight)
  | none => (m.set, m.listHeight)

/-- Reads the beginning of a class: whether it is negated, and hyphens or a bracket, which are
members there. -/
def classStart (f : Flags) (s : List Char) : Bool × Members × List Char :=
  let s := f.skip s
  let (negated, s) := match s with
    | '^' :: s => (true, f.skip s)
    | s => (false, s)
  match f.span (· = '-') s with
  | ([], ']' :: s) => (negated, Members.none.add (.single ']') 0, s)
  | (hyphens, s) => (negated, hyphens.foldl (fun m c => m.add (.single c) 0) .none, s)

mutual

/-- Reads a class after its opening bracket: its characters and its height. `depth` is how far
classes may nest in it, and `fuel` is greater than twice the length of the text. -/
def classAfter? (f : Flags) : Nat → Nat → List Char → Option (ClassPart × List Char)
  | 0, _, _ => none
  | fuel + 1, depth, s => do
    let (negated, m, s) := classStart f s
    let ((set, height), s) ← classBody? f fuel depth none m s
    return ((← f.negate? negated (f.fold set), 1 + height), s)

/-- Reads the members of a class up to its closing bracket. -/
def classBody? (f : Flags) : Nat → Nat → Option (ClassPart × ClassOp) → Members → List Char →
    Option (ClassPart × List Char)
  | 0, _, _, _, _ => none
  | fuel + 1, depth, before, m, s =>
    let operation (op : ClassOp) (s : List Char) :=
      classBody? f fuel depth (some (closePart f before m, op)) .none s
    let inner (s : List Char) : Option (ClassPart × List Char) := do
      match depth with
      | 0 => none
      | depth + 1 =>
        let ((set, height), s) ← classAfter? f fuel depth s
        classBody? f fuel (depth + 1) before (m.add set height) s
    match f.skip s with
    | [] => none
    | ']' :: s => some (closePart f before m, s)
    | '[' :: ':' :: s =>
      match namedClass? s with
      | some (negated, set, s) => do
        let set ← f.negate? negated (f.fold set)
        classBody? f fuel depth before (m.add set 0) s
      | none => inner (':' :: s)
    | '[' :: s => inner s
    | '&' :: '&' :: s => operation .inter s
    | '-' :: '-' :: s => operation .diff s
    | '~' :: '~' :: s => operation .symmDiff s
    | s => do
      let (set, s) ← member? f s
      classBody? f fuel depth before (m.add set 0) s

end

end LsxKit.Pattern
