import LsxKit.Json.Term

/-!
# Reading JSON

Of two members with one key the later one counts, in the place of the earlier.

* `Term.toValue`: the value that a tree stands for.
* `Value.read`: the value of a text.
-/

namespace LsxKit.Json

namespace Term

/-- The text of a key. -/
def keyText : Option String → Except Cause String
  | some key => .ok key
  | none => .error .loneSurrogate

mutual

/-- The value that a tree stands for. -/
def toValue : Term → Except Cause Value
  | .null => .ok .null
  | .bool b => .ok (.bool b)
  | .number n => .ok (.number n)
  | .string s => .ok (.string s)
  | .array ts => return .array (← toValues ts)
  | .object ms => return .object (Entries.extend [] (← toMembers ms))
  | .broken cause => .error cause
  termination_by structural t => t

/-- The values of the elements of an array. -/
def toValues : List Term → Except Cause (List Value)
  | [] => .ok []
  | t :: ts => return (← toValue t) :: (← toValues ts)
  termination_by structural ts => ts

/-- The members of an object, with repetitions. -/
def toMembers : List (Option String × Term) → Except Cause (List (String × Value))
  | [] => .ok []
  | (key, t) :: ms => do
    let k ← keyText key
    return (k, ← toValue t) :: (← toMembers ms)
  termination_by structural ms => ms

end

/-- Reads a whole text as what its tree stands for. -/
def readAs {α : Type} (meaning : Term → Except Cause α) (text : String) : Except Fault α := do
  let t ← (Term.read text.toList).mapError (Fault.ofStop text.toList)
  (meaning t).mapError fun cause => ⟨cause, none⟩

end Term

/-- The value of a JSON text. -/
def Value.read (text : String) : Except Fault Value := Term.readAs Term.toValue text

end LsxKit.Json
