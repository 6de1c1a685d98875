import LsxKit.CharSet.Bytes
import LsxKit.Pattern.Basic
import Std.Data.TreeMap

/-!
# The size of patterns

A pattern is searched for by an automaton that reads bytes, and by another that reads them from
the end of a text. Both must fit into a limit, or the pattern is not taken. The states of an
automaton are numbered in the order in which they are made; states for the bytes of a set are
shared as far as a table of them remembers those made before.

* `Pattern.extent?`: the extent of an automaton; none if it exceeds the limit.
* `Pattern.fits`: whether both automata fit.
-/

namespace LsxKit.Pattern

/-- The number of states of an automaton, and the bytes of what they hold besides. -/
structure Extent where
  states : Nat
  held : Nat

namespace Extent

/-- The bytes of a state, of a choice of next states, and of a range of bytes. -/
def stateBytes : Nat := 32

/-- The bytes of one of several next states. -/
def arrowBytes : Nat := 4

/-- The bytes of a range of bytes with its next state. -/
def rangeBytes : Nat := 8

/-- The bytes that an automaton may take. -/
def limit : Nat := 10 * 0x100000

/-- The bytes of an automaton. -/
def bytes (e : Extent) : Nat := e.states * stateBytes + e.held

end Extent

/-- A step that makes states; none if the limit is exceeded. -/
abbrev Making := StateT Extent Option

/-- Makes a state that holds `held` bytes and gives its number. -/
def makeState (held : Nat) : Making Nat := fun e =>
  let next : Extent := ⟨e.states + 1, e.held + held⟩
  if next.bytes ≤ Extent.limit then some (e.states, next) else none

/-- Makes a number of states that hold nothing. -/
def makeStates (count : Nat) : Making Unit := fun e =>
  let next : Extent := ⟨e.states + count, e.held⟩
  if next.bytes ≤ Extent.limit then some ((), next) else none

/-- Adds a number of next states to states that were made. -/
def addArrows (count : Nat) : Making Unit := fun e =>
  let next : Extent := ⟨e.states, e.held + Extent.arrowBytes * count⟩
  if next.bytes ≤ Extent.limit then some ((), next) else none

/-! ## Literals to choose from -/

/-- The parts of a list of words at its empty words: what follows the last of them, and the other
parts from the last to the first. An empty word counts at the beginning only once. -/
def wordParts (parts : List (List (List Nat))) (part : List (List Nat)) :
    List (List Nat) → List (List Nat) × List (List (List Nat))
  | [] => (part.reverse, parts)
  | [] :: words =>
    if part.isEmpty && !parts.isEmpty && parts.all (·.isEmpty) then wordParts parts part words
    else wordParts (part.reverse :: parts) [] words
  | word :: words => wordParts parts (word :: part) words

/-- Words by their first bytes, in the order in which these come first. -/
def byFirst (words : List (List Nat)) : List (List (List Nat)) :=
  let firsts := (words.filterMap List.head?).eraseDups
  firsts.map fun b => (words.filter fun w => w.head? = some b).map List.tail

/-- Makes the states by which words are told apart byte by byte; `depth` is greater than their
lengths. A single word takes two states and one next state for each byte. -/
def makeWords : Nat → List (List Nat) → Making Unit
  | 0, _ => pure ()
  | _, [word] => do
    makeStates (2 * word.length)
    addArrows word.length
  | depth + 1, words => do
    let (last, before) := wordParts [] [] words
    let groups := (before.reverse ++ [last]).map byFirst
    for group in groups do
      for tails in group do
        if tails.any fun w => !w.isEmpty then makeWords depth tails
      match group.length with
      | 0 => pure ()
      | 1 => do let _ ← makeState 0
      | n => do let _ ← makeState (n * Extent.rangeBytes)
    let _ ← makeState 0
    addArrows ((groups.filter fun group => !group.isEmpty).length + before.length)

/-! ## Sets -/

/-- One step of mixing a number into a code. -/
def mix (code : UInt64) (n : Nat) : UInt64 := (code ^^^ n.toUInt64) * 1099511628211

/-- The place of numbers in a table of `size` places. -/
def place (size : Nat) (numbers : List Nat) : Nat :=
  (numbers.foldl mix 14695981039346656037).toNat % size

/-- A table of states by the numbers that tell what they are. Each place remembers the state put
there last. -/
abbrev Memory := Std.TreeMap Nat (List Nat × Nat)

/-- The state that numbers tell, found in the table or made now. -/
def remember (size held : Nat) (numbers : List Nat) (memory : Memory) : Making (Nat × Memory) :=
  let i := place size numbers
  let made : Making (Nat × Memory) := do
    let state ← makeState held
    return (state, memory.insert i (numbers, state))
  match memory[i]? with
  | some (known, state) => if known = numbers then pure (state, memory) else made
  | none => made

/-- Sequences by their first ranges, as far as equal ones are side by side. -/
def byFirstRange : List (List ByteRange) → List (ByteRange × List (List ByteRange))
  | [] => []
  | [] :: sequences => byFirstRange sequences
  | (range :: rest) :: sequences =>
    match byFirstRange sequences with
    | (next, rests) :: groups =>
      if next = range then (range, rest :: rests) :: groups
      else (range, [rest]) :: (next, rests) :: groups
    | [] => [(range, [rest])]

/-- Makes the states that read sequences of ranges and go on to the state `target`: those for the
rests first, then the one for the first range. -/
def makeForward (target : Nat) : Nat → List (List ByteRange) → Memory → Making (Nat × Memory)
  | 0, _, memory => pure (target, memory)
  | depth + 1, sequences, memory => do
    let mut memory := memory
    let mut numbers : List Nat := []
    let mut count := 0
    for ((low, high), rests) in byFirstRange sequences do
      let mut next := target
      if rests.any fun rest => !rest.isEmpty then
        let (state, known) ← makeForward target depth rests memory
        next := state
        memory := known
      numbers := next :: high :: low :: numbers
      count := count + 1
    remember 10000 (count * Extent.rangeBytes) numbers.reverse memory

/-- Makes the states that read the ranges of a sequence from the last to the first and go on to
the state `target`. -/
def makeBackward (target : Nat) (memory : Memory) : List ByteRange → Making (Nat × Memory)
  | [] => pure (target, memory)
  | (low, high) :: ranges => do
    let (state, memory) ← remember 1000 0 [target, low, high] memory
    makeBackward state memory ranges

/-- Makes the states of a set. -/
def makeSet (backward : Bool) (s : CharSet) : Making Unit := do
  if s.isAscii then
    let _ ← makeState 0
    let _ ← makeState (s.ranges.size * Extent.rangeBytes)
  else if backward then
    let _ ← makeState 0
    let target ← makeState 0
    let mut memory : Memory := ∅
    for sequence in s.byteSequences do
      let (_, known) ← makeBackward target memory sequence
      memory := known
      addArrows 1
  else
    let target ← makeState 0
    let _ ← makeForward target 4 s.byteSequences ∅

/-! ## Patterns -/

/-- The literals of a choice between literals. -/
def literals? : Pattern → Option (List (List Char))
  | .literal s => some [s]
  | .choice p q => do return (← p.literals?) ++ (← q.literals?)
  | _ => none

/-- The bytes of a literal, from the last to the first if `backward`. -/
def literalBytes (backward : Bool) (s : List Char) : List Nat :=
  let bytes := (String.ofList s).toUTF8.toList.map UInt8.toNat
  if backward then bytes.reverse else bytes

/-- A step `count` times. -/
def times (step : Making Unit) : Nat → Extent → Option (Unit × Extent)
  | 0, e => some ((), e)
  | count + 1, e =>
    match step e with
    | some ((), e) => times step count e
    | none => none

/-- Makes the states for a repetition of a piece; `piece` makes those for one, and gives how many
next states are added where another state follows. Gives the same for the repetition. -/
def makeMany (piece : Making Nat) (nonempty : Bool) (least : Nat) (most : Option Nat) :
    Making Nat := do
  let linked (arrows : Nat) : Making Unit := do addArrows ((← piece) + arrows)
  match least, most with
  | 0, some 1 =>
    makeStates 1
    linked 2
    makeStates 1
    return 0
  | 0, none =>
    if nonempty then
      makeStates 1
      linked 1
      return 1
    else
      linked 4
      makeStates 3
      return 0
  | least, none =>
    times (linked 0) least
    makeStates 1
    addArrows 1
    return 1
  | 0, some most =>
    makeStates 2
    times (do makeStates 1; linked 2) most
    return 0
  | least + 1, some most =>
    times (linked 0) least
    if least + 1 = most then piece
    else
      linked 0
      makeStates 1
      times (do makeStates 1; linked 2) (most - (least + 1))
      return 0

/-- How a pattern stands among those of a choice. -/
inductive ChoiceRank where
  | alone
  | second
  | later
  deriving DecidableEq

/-- Makes what belongs to a choice after one of its patterns: the states that begin and end it
are made after the second, and each pattern is one of several next states. -/
def makeBranch (rank : ChoiceRank) (arrows : Nat) : Making Nat := do
  match rank with
  | .alone => return arrows
  | .second =>
    makeStates 2
    addArrows (1 + arrows)
    return 0
  | .later =>
    addArrows (1 + arrows)
    return 0

/-- Makes the states of a pattern; gives how many next states are added where another state
follows: one if what the pattern ends with goes on to several states. -/
def make (backward : Bool) : ChoiceRank → Pattern → Making Nat
  | rank, .empty => do
    makeStates 1
    makeBranch rank 0
  | rank, .literal s => do
    makeStates (literalBytes false s).length
    makeBranch rank 0
  | rank, .oneOf s => do
    makeSet backward s
    makeBranch rank 0
  | rank, .boundary _ => do
    makeStates 1
    makeBranch rank 0
  | rank, .seq p q => do
    if backward then
      addArrows (← make backward .alone q)
      makeBranch rank (← make backward .alone p)
    else
      addArrows (← make backward .alone p)
      makeBranch rank (← make backward .alone q)
  | rank, .choice p q => do
    match if rank = .alone then literals? (.choice p q) else none with
    | some words =>
      makeStates 1
      let words := words.map (literalBytes backward)
      makeWords (1 + (words.map List.length).foldl max 0) words
      return 0
    | none =>
      let arrows ← make backward .alone p
      match rank with
      | .alone => addArrows (1 + arrows)
      | rank => let _ ← makeBranch rank arrows
      make backward (if rank = .alone then .second else .later) q
  | rank, .many p least most _ => do
    let nonempty := match p.minLength? with
      | some n => 0 < n
      | none => false
    let arrows ← makeMany (make backward .alone p) nonempty least most
    makeBranch rank arrows
  | rank, .group _ p => do
    if backward then makeBranch rank (← make backward .alone p)
    else
      makeStates 1
      addArrows (← make backward .alone p)
      makeStates 1
      makeBranch rank 0

/-! ## Automata -/

/-- Whether every piece is at the beginning of a text. -/
def beginsText : Pattern → Bool
  | .boundary b => b = .textStart
  | .seq p q => p.beginsText || (p.isOnlyEmpty && q.beginsText)
  | .choice p q => p.beginsText && q.beginsText
  | .many p least _ _ => 0 < least && p.beginsText
  | .group _ p => p.beginsText
  | _ => false

/-- Whether every piece is at the end of a text. -/
def endsText : Pattern → Bool
  | .boundary b => b = .textEnd
  | .seq p q => q.endsText || (q.isOnlyEmpty && p.endsText)
  | .choice p q => p.endsText && q.endsText
  | .many p least _ _ => 0 < least && p.endsText
  | .group _ p => p.endsText
  | _ => false

/-- Makes an automaton: the states that skip what is before a piece, unless it is at the beginning,
then those of the pattern, within a group unless `backward`, and the last state. -/
def makeAutomaton (backward : Bool) (p : Pattern) : Making Unit := do
  if if backward then p.endsText else p.beginsText then makeStates 1
  else
    makeStates 2
    let _ ← makeState Extent.rangeBytes
    addArrows 2
  if backward then
    addArrows (← make backward .alone p)
  else
    makeStates 1
    addArrows (← make backward .alone p)
    makeStates 1
  makeStates 1

/-- The extent of the automaton of a pattern. -/
def extent? (backward : Bool) (p : Pattern) : Option Extent :=
  (makeAutomaton backward p ⟨0, 0⟩).map (·.2)

/-- Whether both automata of a pattern fit. -/
def fits (p : Pattern) : Bool := (extent? false p).isSome && (extent? true p).isSome

end LsxKit.Pattern
