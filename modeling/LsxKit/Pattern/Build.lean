import LsxKit.Pattern.Basic

/-!
# Building patterns

Sequences, choices and repetitions in a simple form: no sequence in the first part of another, no
literals side by side, no choice between single characters, no common beginning of choices.

* `Pattern.ofSet`: a character of a set.
* `Pattern.cat`, `Pattern.concat`: pieces one after the other.
* `Pattern.alternation`: a piece of one of several patterns.
* `Pattern.repeated`: a repetition.
-/

namespace LsxKit.Pattern

/-- The pattern of a character of a set. -/
def ofSet (s : CharSet) : Pattern :=
  match s.single? with
  | some c => .literal [c]
  | none => .oneOf s

/-! ## Sequences -/

/-- A piece of a pattern that is no sequence, then one of another. -/
def attach (p q : Pattern) : Pattern :=
  match p, q with
  | p, .empty => p
  | .literal s, .literal t => .literal (s ++ t)
  | .literal s, .seq (.literal t) q => .seq (.literal (s ++ t)) q
  | p, q => .seq p q

/-- A piece of one pattern, then one of another. -/
def cat : Pattern → Pattern → Pattern
  | .empty, r => r
  | .seq p q, r => cat p (cat q r)
  | p, r => attach p r

/-- Pieces of several patterns one after the other. -/
def concat (ps : List Pattern) : Pattern := ps.foldr cat .empty

/-- The patterns of a sequence. -/
def items : Pattern → List Pattern
  | .seq p q => p :: items q
  | p => [p]

/-! ## Choices -/

/-- The patterns of a choice. -/
def branches : Pattern → List Pattern
  | .choice p q => branches p ++ branches q
  | p => [p]

/-- The characters of a choice between single characters. -/
def singles? (ps : List Pattern) : Option CharSet := do
  let codes ← ps.mapM fun p =>
    match p with
    | .literal [c] => some (c.toNat, c.toNat)
    | _ => none
  return .ofRanges codes

/-- The characters of a choice between sets. -/
def sets? (ps : List Pattern) : Option CharSet := do
  let sets ← ps.mapM fun p =>
    match p with
    | .oneOf s => some s
    | _ => none
  return .unions sets

/-- The longest common beginning of two lists. -/
def commonItems : List Pattern → List Pattern → List Pattern
  | p :: ps, q :: qs => if p = q then p :: commonItems ps qs else []
  | _, _ => []

/-- The patterns with which all of several sequences begin. -/
def commonStart (ps : List Pattern) : List Pattern :=
  match ps with
  | [] => []
  | p :: rest =>
    if ps.all fun p => 1 < p.items.length then
      rest.foldl (fun common q => commonItems common q.items) p.items
    else []

/-- A choice between patterns as it stands. -/
def choices : List Pattern → Pattern
  | [] => .oneOf .empty
  | [p] => p
  | p :: ps => .choice p (choices ps)

/-- A piece of one of several patterns. A choice between characters is a set, and a common
beginning is taken out, at most `fuel` times. -/
def simplified : Nat → List Pattern → Pattern
  | 0, ps => choices ps
  | fuel + 1, ps =>
    let ps := ps.flatMap branches
    match ps with
    | [p] => p
    | ps =>
      match singles? ps <|> sets? ps with
      | some s => ofSet s
      | none =>
        match commonStart ps with
        | [] => choices ps
        | start =>
          let rests := ps.map fun p => concat (p.items.drop start.length)
          concat (start ++ [simplified fuel rests])

/-- A piece of one of several patterns. -/
def alternation (ps : List Pattern) : Pattern :=
  simplified (1 + (ps.flatMap fun p => p.items).length) ps

/-! ## Repetitions -/

/-- A repetition. A piece that can only be empty is not repeated. -/
def repeated (p : Pattern) (least : Nat) (most : Option Nat) (greedy : Bool) : Pattern :=
  let (least, most) :=
    if p.isOnlyEmpty then (min least 1, some (min (most.getD 1) 1)) else (least, most)
  if least = 0 ∧ most = some 0 then .empty
  else if least = 1 ∧ most = some 1 then p
  else .many p least most greedy

end LsxKit.Pattern
