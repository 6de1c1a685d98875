import LsxKit.Text.Quoted

/-!
# Faults of markup

Everything that can be wrong with the markup of a document, each with its wording.

* `AttributeFault`: the attributes of a tag; positions count bytes from the start of the tag.
* `ReferenceFault`: character and entity references; ranges count bytes of the text they are in.
* `Fault`: markup as a whole.
* `DocumentFault`: what makes a document not well formed.
-/

namespace LsxKit.Xml

/-- What is wrong with the attributes of a tag. -/
inductive AttributeFault where
  | missingEquals (position : Nat)
  | missingValue (position : Nat)
  | unquotedValue (position : Nat)
  | missingQuote (position : Nat) (quote : Char)
  | duplicate (position previous : Nat)
  deriving Repr, DecidableEq

/-- The wording of a fault of attributes. -/
def AttributeFault.message : AttributeFault → String
  | .missingEquals p => s!"position {p}: attribute key must be directly followed by `=` or space"
  | .missingValue p => s!"position {p}: `=` must be followed by an attribute value"
  | .unquotedValue p => s!"position {p}: attribute value must be enclosed in `\"` or `'`"
  | .missingQuote p q =>
    s!"position {p}: missing closing quote `{String.singleton q}` in attribute value"
  | .duplicate p first =>
    s!"position {p}: duplicated attribute, previous declaration at position {first}"

/-- What is wrong with a reference. -/
inductive ReferenceFault where
  | unterminated (start stop : Nat)
  | unknown (start stop : Nat) (name : String)
  | decimalTooLong
  | hexadecimalTooLong
  | notDecimal (c : Char)
  | notHexadecimal (c : Char)
  | zero (start stop : Nat)
  | notScalar (code : Nat)
  deriving Repr, DecidableEq

/-- The wording of a fault of a reference. -/
def ReferenceFault.message : ReferenceFault → String
  | .unterminated a b =>
    s!"Error while escaping character at range {a}..{b}: Cannot find ';' after '&'"
  | .unknown a b name =>
    s!"Error while escaping character at range {a}..{b}: Unrecognized escape symbol: " ++
      Text.quoted name
  | .decimalTooLong => "Cannot convert decimal to utf8"
  | .hexadecimalTooLong => "Cannot convert hexadecimal to utf8"
  | .notDecimal c => s!"'{String.singleton c}' is not a valid decimal character"
  | .notHexadecimal c => s!"'{String.singleton c}' is not a valid hexadecimal character"
  | .zero a b =>
    s!"Error while escaping character at range {a}..{b}: Null character entity not allowed"
  | .notScalar n => s!"'{n}' is not a valid codepoint"

/-- Markup that can end before it is complete. -/
inductive Construct where
  | markup
  | comment
  | characterData
  | doctype
  | declaration
  deriving Repr, DecidableEq

/-- The name under which a construct is reported. -/
def Construct.name : Construct → String
  | .markup => "Bang"
  | .comment => "Comment"
  | .characterData => "CData"
  | .doctype => "DOCTYPE"
  | .declaration => "XmlDecl"

/-- What is wrong with markup. -/
inductive Fault where
  /-- An exclamation mark that begins nothing known; `c` is the first byte after it. -/
  | unknownMarkup (c : Char)
  | unfinished (construct : Construct)
  | emptyDoctype
  | wrongEnd (expected found : String)
  /-- A declaration whose first attribute is not the version. -/
  | versionNotFirst (found : Option String)
  | declarationAttribute (fault : AttributeFault)
  | reference (fault : ReferenceFault)
  deriving Repr, DecidableEq

/-- The wording of a fault of markup. -/
def Fault.message : Fault → String
  | .unknownMarkup c =>
    "Only Comment (`--`), CDATA (`[CDATA[`) and DOCTYPE (`DOCTYPE`) nodes can start with a '!', " ++
      s!"but symbol `{String.singleton c}` found"
  | .unfinished construct => "Unexpected EOF during reading " ++ construct.name
  | .emptyDoctype => "DOCTYPE declaration must not be empty"
  | .wrongEnd expected found => s!"Expecting </{expected}> found </{found}>"
  | .versionNotFirst none => "XmlDecl must start with 'version' attribute, found None"
  | .versionNotFirst (some name) =>
    s!"XmlDecl must start with 'version' attribute, found Some({Text.quoted name})"
  | .declarationAttribute fault => "error while parsing attribute: " ++ fault.message
  | .reference fault => fault.message

/-- What makes a document not well formed. -/
inductive DocumentFault where
  | markup (fault : Fault)
  | attribute (fault : AttributeFault)
  | reference (fault : ReferenceFault)
  | secondRoot (name : String)
  | strayText
  | unclosed (name : String)
  | noRoot
  deriving Repr, DecidableEq

/-- The wording of a fault of a document. -/
def DocumentFault.message : DocumentFault → String
  | .markup fault => fault.message
  | .attribute fault => fault.message
  | .reference fault => fault.message
  | .secondRoot name => s!"Multiple root elements: `{name}` follows the root element"
  | .strayText => "Text data outside of root node"
  | .unclosed name => s!"Unclosed tag `{name}`"
  | .noRoot => "Start tag expected"

end LsxKit.Xml
