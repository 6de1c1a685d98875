import LsxKit.Error
import LsxKit.Pattern.Match
import LsxKit.Pattern.Read
import LsxKit.Pattern.Size
import LsxKit.Schema.Violation

/-!
# Validation

A validator is a schema with its patterns read. It lists every violation of a value: members in
the order in which the schema declares them, elements by position. A value of the wrong type is
not looked at any further.

* `Validator.ofSchema`: the validator of a schema whose patterns can all be read.
* `Validator.violations`: the violations of a value.
-/

namespace LsxKit.Schema

open Json Decimal

/-- A schema with its patterns read. -/
structure Validator where
  schema : Schema
  patterns : Entries String Pattern

/-- Reads patterns that were not read before; the first that is none, or that does not fit, is an
error. -/
def readPatterns (known : Entries String Pattern) :
    List String → Except Error (Entries String Pattern)
  | [] => .ok known
  | source :: sources =>
    if known.contains source then readPatterns known sources
    else
      match (Pattern.read? source).filter Pattern.fits with
      | some p => readPatterns (known.insert source p) sources
      | none => .error (.pattern source)

/-- The validator of a schema. -/
def Validator.ofSchema (s : Schema) : Except Error Validator := do
  return ⟨s, ← readPatterns [] s.patterns⟩

/-! ## Keywords without sub-schemas -/

/-- The breach of the type, if the type is wrong. -/
def typeBreach? (own : Keywords) (v : Value) : Option Breach :=
  match own.types with
  | some types => if types.accepts v then none else some (.type types)
  | none => none

/-- The breach of the constant. -/
def constantBreach (own : Keywords) (v : Value) : List Breach :=
  match own.constant with
  | some expected => if v.same expected then [] else [.constant expected]
  | none => []

/-- The breach of the listed values. -/
def optionsBreach (own : Keywords) (v : Value) : List Breach :=
  match own.options with
  | some values => if values.any fun w => w.same v then [] else [.options values]
  | none => []

/-- The breach of the pattern, by a string. A pattern that was not read is not checked. -/
def patternBreach (patterns : Entries String Pattern) (own : Keywords) (s : String) :
    List Breach :=
  match own.pattern with
  | some source =>
    match patterns.get? source with
    | some p => if p.occursIn s then [] else [.pattern source]
    | none => []
  | none => []

/-- The breach of the least number, by a number. -/
def minimumBreach (own : Keywords) (n : Number) : List Breach :=
  match own.minimum, n.toBinary64 with
  | some least, some x => if least.exceeds x then [.minimum least] else []
  | _, _ => []

/-- The breaches of required keys, by an object. -/
def requiredBreaches (own : Keywords) (members : Entries String Value) : List Breach :=
  (own.required.filter fun key => !members.contains key).map .required

/-- The keys of an object without a sub-schema, if such keys are not allowed. -/
def additionalKeys (own : Keywords) (properties : List (String × Schema))
    (members : Entries String Value) : List String :=
  if own.additional = some false then
    members.keys.filter fun key => !properties.any fun p => p.1 = key
  else []

/-- Whether two elements are the same. -/
def hasRepetition : List Value → Bool
  | [] => false
  | v :: vs => vs.any (fun w => w.same v) || hasRepetition vs

/-- The breach of distinct elements, by an array. -/
def uniqueBreach (own : Keywords) (items : List Value) : List Breach :=
  if own.unique = some true && hasRepetition items then [.repeated] else []

/-! ## Values -/

mutual

/-- The violations of a value at a path. -/
def violationsAt (patterns : Entries String Pattern) (path : List Step) (v : Value) :
    Schema → List Violation
  | .mk own properties items anyOf =>
    match typeBreach? own v with
    | some breach => [⟨path, breach⟩]
    | none =>
      let here := (constantBreach own v ++ optionsBreach own v).map (⟨path, ·⟩ : Breach → Violation)
      let inside := match v with
        | .string s => (patternBreach patterns own s).map (⟨path, ·⟩)
        | .number n => (minimumBreach own n).map (⟨path, ·⟩)
        | .object members =>
          (requiredBreaches own members).map (⟨path, ·⟩) ++
            memberViolations patterns path members properties ++
            (additionalKeys own properties members).map
              fun key => ⟨path ++ [.key key], .additional key⟩
        | .array elements =>
          itemViolations patterns path elements items ++
            (uniqueBreach own elements).map (⟨path, ·⟩)
        | .bool _ | .null => []
      let alternatives :=
        if anyOf.isEmpty || satisfiesOne patterns v anyOf then []
        else [⟨path, .noneOf anyOf.length⟩]
      here ++ inside ++ alternatives
  termination_by structural s => s

/-- The violations of the members of an object that have a sub-schema. -/
def memberViolations (patterns : Entries String Pattern) (path : List Step)
    (members : Entries String Value) : List (String × Schema) → List Violation
  | [] => []
  | (key, s) :: properties =>
    (match members.get? key with
      | some v => violationsAt patterns (path ++ [.key key]) v s
      | none => []) ++ memberViolations patterns path members properties
  termination_by structural properties => properties

/-- The violations of the elements of an array. -/
def itemViolations (patterns : Entries String Pattern) (path : List Step)
    (elements : List Value) : Items → List Violation
  | .free => []
  | .each s =>
    elements.zipIdx.flatMap fun (v, i) => violationsAt patterns (path ++ [.index i]) v s
  | .tuple ss => tupleViolations patterns path 0 elements ss
  termination_by structural i => i

/-- The violations of elements from position `i` on, each by the schema at its place. -/
def tupleViolations (patterns : Entries String Pattern) (path : List Step) (i : Nat)
    (elements : List Value) : List Schema → List Violation
  | [] => []
  | s :: ss =>
    match elements with
    | [] => []
    | v :: vs =>
      violationsAt patterns (path ++ [.index i]) v s ++ tupleViolations patterns path (i + 1) vs ss
  termination_by structural ss => ss

/-- Whether a value has no violation of one of several schemas. -/
def satisfiesOne (patterns : Entries String Pattern) (v : Value) : List Schema → Bool
  | [] => false
  | s :: ss => (violationsAt patterns [] v s).isEmpty || satisfiesOne patterns v ss
  termination_by structural ss => ss

end

/-- The violations of a value, in order. -/
def Validator.violations (validator : Validator) (v : Value) : List Violation :=
  violationsAt validator.patterns [] v validator.schema

end LsxKit.Schema
