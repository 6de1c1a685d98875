import LsxKit.Pattern.Basic

/-!
# Matching patterns

A text is read character by character while marks move through the pattern: a mark stands at a
character of the pattern that a piece has just reached. A piece ends where a mark can leave the
pattern, or where the pattern has an empty piece.

* `Tracker.advance`: the marks after one more character.
* `Pattern.occursIn`: whether a text has a piece of the pattern.
-/

namespace LsxKit

/-- What is known of the part of a pattern at a position of a text. -/
structure Tracker.Status where
  /-- Whether there is an empty piece here. -/
  nullable : Bool
  /-- Whether a piece ends here that is not empty. -/
  final : Bool
  /-- Whether there are marks. -/
  live : Bool
  /-- Whether empty pieces do not depend on the position. -/
  steady : Bool

/-- A pattern with marks, at a position of a text. -/
inductive Tracker where
  | empty
  | char (s : CharSet) (marked : Bool)
  | boundary (b : Boundary) (holds : Bool)
  | seq (status : Tracker.Status) (p q : Tracker)
  | choice (status : Tracker.Status) (p q : Tracker)
  | star (status : Tracker.Status) (p : Tracker)

namespace Tracker

/-- What is known of a pattern with marks. -/
def status : Tracker → Status
  | .empty => ⟨true, false, false, true⟩
  | .char _ marked => ⟨false, marked, marked, true⟩
  | .boundary _ holds => ⟨holds, false, false, false⟩
  | .seq s _ _ => s
  | .choice s _ _ => s
  | .star s _ => s

/-- One pattern after the other. -/
def mkSeq (p q : Tracker) : Tracker :=
  let a := p.status
  let b := q.status
  .seq ⟨a.nullable && b.nullable, b.final || (a.final && b.nullable), a.live || b.live,
    a.steady && b.steady⟩ p q

/-- Either of two patterns. -/
def mkChoice (p q : Tracker) : Tracker :=
  let a := p.status
  let b := q.status
  .choice ⟨a.nullable || b.nullable, a.final || b.final, a.live || b.live,
    a.steady && b.steady⟩ p q

/-- Any number of pieces of a pattern. -/
def mkStar (p : Tracker) : Tracker := .star { p.status with nullable := true } p

/-! ## Patterns without marks -/

/-- Patterns side by side in pairs. -/
def pairs : List Tracker → List Tracker
  | p :: q :: ps => mkSeq p q :: pairs ps
  | ps => ps

/-- Patterns one after the other; `fuel` is at least their number. -/
def row : Nat → List Tracker → Tracker
  | _, [] => .empty
  | _, [p] => p
  | 0, p :: _ => p
  | fuel + 1, ps => row fuel (pairs ps)

/-- A pattern `count` times, halved at most `fuel` times. -/
def power (p : Tracker) : Nat → Nat → Tracker
  | _, 0 => .empty
  | _, 1 => p
  | 0, _ => p
  | fuel + 1, count =>
    let half := power p fuel (count / 2)
    if count % 2 = 0 then mkSeq half half else mkSeq (mkSeq half half) p

/-- A pattern `count` times. -/
def copies (p : Tracker) (count : Nat) : Tracker := power p count.log2 count

/-- A pattern without marks, where `holds` tells which places are at the position. -/
def ofPattern (holds : Boundary → Bool) : Pattern → Tracker
  | .empty => .empty
  | .literal s => row s.length (s.map fun c => .char (.single c) false)
  | .oneOf s => .char s false
  | .boundary b => .boundary b (holds b)
  | .seq p q => mkSeq (ofPattern holds p) (ofPattern holds q)
  | .choice p q => mkChoice (ofPattern holds p) (ofPattern holds q)
  | .many p least most _ =>
    let t := ofPattern holds p
    let further := match most with
      | none => mkStar t
      | some most => copies (mkChoice t .empty) (most - least)
    mkSeq (copies t least) further
  | .group _ p => ofPattern holds p

/-! ## Reading -/

/-- The marks after the character `c`; `enters` tells whether a piece can begin before it, and
`holds` which places are after it. A pattern without marks that no piece enters stays as it is. -/
def advance (c : Char) (holds : Boundary → Bool) (enters : Bool) (t : Tracker) : Tracker :=
  if !enters && !t.status.live && t.status.steady then t
  else
    match t with
    | .empty => .empty
    | .char s _ => .char s (enters && s.contains c)
    | .boundary b _ => .boundary b (holds b)
    | .seq _ p q =>
      let entersNext := p.status.final || (enters && p.status.nullable)
      mkSeq (advance c holds enters p) (advance c holds entersNext q)
    | .choice _ p q => mkChoice (advance c holds enters p) (advance c holds enters q)
    | .star s p => mkStar (advance c holds (enters || s.final) p)

/-- Whether a piece ends at the position. -/
def accepts (t : Tracker) : Bool := t.status.final || t.status.nullable

/-- Whether a piece that begins anywhere ends at the position, `before` which there is a character
or none, or in the text after it. -/
def search (t : Tracker) : List Char → Bool
  | [] => t.accepts
  | c :: s => t.accepts || search (t.advance c (·.holds (some c) s.head?) true) s

end Tracker

/-- Whether a piece of the text, anywhere in it, is of the pattern. -/
def Pattern.occursIn (p : Pattern) (text : String) : Bool :=
  let s := text.toList
  (Tracker.ofPattern (·.holds none s.head?) p).search s

end LsxKit
