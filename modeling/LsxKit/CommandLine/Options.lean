import LsxKit.Entries

/-!
# Options on a command line

A level of a command line is a command with its options, its operands and the commands below it.
Arguments are read from left to right, and the first that does not fit ends the reading.

* `Level.read`: what the arguments of a level say, up to the name of a command below it.
-/

namespace LsxKit.CommandLine

/-- What an option does. -/
inductive OptionKind where
  /-- It is set or not. -/
  | switch
  /-- It takes a value of which a condition holds. -/
  | value (accepts : String → Bool)
  /-- It asks for the version of the program. -/
  | version
  /-- It asks for help. -/
  | help

/-- An option, with two hyphens before its long name and one before its short name. -/
structure OptionSpec where
  long : String
  short : Option Char
  kind : OptionKind

/-- A command: its options, its operands and the commands below it. -/
structure Level where
  options : List OptionSpec
  commands : List String
  /-- The greatest number of operands, if there is one. -/
  operandLimit : Option Nat
  /-- The condition on operands. -/
  acceptsOperand : String → Bool

/-- Why arguments are not a command. -/
inductive Refusal where
  | usage
  | version
  | help
  deriving Repr, DecidableEq

/-- What the arguments of a level say. -/
structure Reading where
  /-- The options that are set, by their long names, with their values. -/
  found : Entries String String
  operands : List String
  /-- The name of the command below, and its arguments. -/
  command : Option (String × List String)
  deriving Repr

namespace Level

/-- Sets an option, once. -/
def set (r : Reading) (o : OptionSpec) (value : String) : Except Refusal Reading :=
  if r.found.contains o.long then .error .usage
  else .ok { r with found := r.found.insert o.long value }

/-- Whether an argument is a value where one is expected: a hyphen in front makes it an option,
unless it stands alone. -/
def isValue (arg : String) : Bool := arg = "-" || arg.toList.head? ≠ some '-'

/-- Sets an option that takes no value. -/
def setSwitch (r : Reading) (o : OptionSpec) : Except Refusal Reading :=
  match o.kind with
  | .switch => set r o ""
  | .version => .error .version
  | .help => .error .help
  | .value _ => .error .usage

/-- Sets an option to a value. -/
def setValue (r : Reading) (o : OptionSpec) (value : String) : Except Refusal Reading :=
  match o.kind with
  | .value accepts => if accepts value then set r o value else .error .usage
  | _ => .error .usage

/-- Whether an option takes a value. -/
def takesValue (o : OptionSpec) : Bool :=
  match o.kind with
  | .value _ => true
  | _ => false

/-- What an argument of short options says: the options that are set, and the one at its end that
takes the next argument as its value. -/
def readShort (l : Level) (r : Reading) : List Char → Except Refusal (Reading × Option OptionSpec)
  | [] => .ok (r, none)
  | c :: cs =>
    match l.options.find? (·.short = some c) with
    | none => .error .usage
    | some o =>
      if takesValue o then
        match cs with
        | [] => .ok (r, some o)
        | '=' :: value => (setValue r o (String.ofList value)).map fun r => (r, none)
        | value => (setValue r o (String.ofList value)).map fun r => (r, none)
      else (setSwitch r o).bind fun r => readShort l r cs

/-- What an argument with a long option says, as for short options. -/
def readLong (l : Level) (r : Reading) (arg : List Char) :
    Except Refusal (Reading × Option OptionSpec) :=
  let name := arg.takeWhile (· ≠ '=')
  match l.options.find? (·.long.toList = name) with
  | none => .error .usage
  | some o =>
    match arg.drop name.length with
    | _ :: value => (setValue r o (String.ofList value)).map fun r => (r, none)
    | [] => if takesValue o then .ok (r, some o) else (setSwitch r o).map fun r => (r, none)

/-- Adds an operand. -/
def addOperand (l : Level) (r : Reading) (arg : String) : Except Refusal Reading :=
  if l.operandLimit.all (r.operands.length < ·) && l.acceptsOperand arg then
    .ok { r with operands := r.operands ++ [arg] }
  else .error .usage

/-- Reads arguments. After two hyphens alone all are operands (`onlyOperands`); an option that
takes the next argument as its value is `waiting` for it. -/
def readFrom (l : Level) (r : Reading) (onlyOperands : Bool) (waiting : Option OptionSpec) :
    List String → Except Refusal Reading
  | [] => if waiting.isSome then .error .usage else .ok r
  | arg :: args =>
    match waiting with
    | some o =>
      if isValue arg then do readFrom l (← setValue r o arg) false none args else .error .usage
    | none =>
      if onlyOperands then do readFrom l (← addOperand l r arg) true none args
      else if arg ∈ l.commands then .ok { r with command := some (arg, args) }
      else if arg = "--" then readFrom l r true none args
      else
        match arg.toList with
        | '-' :: '-' :: cs => do
          let (r, waiting) ← readLong l r cs
          readFrom l r false waiting args
        | '-' :: c :: cs => do
          let (r, waiting) ← readShort l r (c :: cs)
          readFrom l r false waiting args
        | _ => do readFrom l (← addOperand l r arg) false none args

/-- What the arguments of a level say. -/
def read (l : Level) (args : List String) : Except Refusal Reading :=
  readFrom l ⟨[], [], none⟩ false none args

end Level

end LsxKit.CommandLine
