import LsxKit.Proofs.Text.Trim
import LsxKit.Xml.Document
import LsxKit.Xml.Writer

/-!
# Elements with their text in front

What a document tree says about an element: its name, its attributes, its text and the elements
inside it. The text stands in front of the children when such an element is written.

* `isName`: the ordinary names of elements and attributes.
* `Element.node`, `Element.marks`: an element as content of a document, and as it is written.
* `Element.Writable`: the elements that can be written and read back.
* `Root`: what stands at the top of a document.
-/

namespace LsxKit.Xml

/-! ## Names -/

/-- The characters of ordinary names: letters and digits, the four marks, and every character
beyond ASCII. -/
def isNameChar (c : Char) : Bool :=
  c.isAlphanum || c == '_' || c == '-' || c == '.' || c == ':' || 0x80 ≤ c.toNat

/-- Whether a text is an ordinary name. -/
def isName (s : String) : Bool := !s.toList.isEmpty && s.toList.all isNameChar

theorem isName_iff {s : String} :
    isName s = true ↔ s.toList ≠ [] ∧ ∀ c ∈ s.toList, isNameChar c = true := by
  simp [isName]

theorem not_mem_of_isName {s : String} (h : isName s = true) {c : Char}
    (hc : isNameChar c = false) : c ∉ s.toList := by
  intro hmem
  have := (isName_iff.1 h).2 c hmem
  rw [hc] at this
  contradiction

theorem isNameChar_of_isSpace {c : Char} (h : isSpace c = true) : isNameChar c = false := by
  simp only [isSpace, Bool.or_eq_true, beq_iff_eq] at h
  rcases h with ((rfl | rfl) | rfl) | rfl <;> decide

theorem not_isSpace_of_isName {s : String} (h : isName s = true) :
    ∀ c ∈ s.toList, isSpace c = false := by
  intro c hc
  by_contra hs
  exact not_mem_of_isName h (isNameChar_of_isSpace (by simpa using hs)) hc

/-! ## Elements -/

/-- An element: its text stands in front of its children. -/
inductive Element where
  | mk (name : String) (attributes : List (String × String)) (text : String)
      (children : List Element)

/-- The name of an element. -/
def Element.name : Element → String
  | .mk name _ _ _ => name

/-- The content that a text stands for: nothing if it is empty. -/
def textNodes (text : String) : List Node := if text = "" then [] else [.text text]

/-- The marks of a text: none if it is empty. -/
def textMarks (text : String) : List Mark := if text = "" then [] else [.text text]

mutual

/-- An element as content of a document. -/
def Element.node : Element → Node
  | .mk name attributes text children =>
    .element name attributes (textNodes text ++ nodesOf children)
  termination_by structural e => e

/-- Elements as content of a document. -/
def nodesOf : List Element → List Node
  | [] => []
  | e :: es => e.node :: nodesOf es
  termination_by structural es => es

end

mutual

/-- The marks of an element: one empty tag if it has neither text nor children. -/
def Element.marks : Element → List Mark
  | .mk name attributes text children =>
    if text = "" ∧ children = [] then [.empty name attributes]
    else .start name attributes :: (textMarks text ++ (marksOf children ++ [.close name]))
  termination_by structural e => e

/-- The marks of elements, one after the other. -/
def marksOf : List Element → List Mark
  | [] => []
  | e :: es => e.marks ++ marksOf es
  termination_by structural es => es

end

theorem nodesOf_append (es es' : List Element) :
    nodesOf (es ++ es') = nodesOf es ++ nodesOf es' := by
  induction es with
  | nil => rfl
  | cons e es ih => simp [nodesOf, ih]

theorem marksOf_append (es es' : List Element) :
    marksOf (es ++ es') = marksOf es ++ marksOf es' := by
  induction es with
  | nil => rfl
  | cons e es ih => simp [marksOf, ih]

/-- Whether attributes can be written and read back: their names are ordinary and distinct. -/
def AttributesNamed (attributes : List (String × String)) : Prop :=
  (∀ a ∈ attributes, isName a.1 = true) ∧ (attributes.map Prod.fst).Nodup

mutual

/-- Whether an element can be written and read back: its names are ordinary, its attributes have
distinct names, and its text has no blanks at its ends. -/
def Element.Writable : Element → Prop
  | .mk name attributes text children =>
    isName name = true ∧ AttributesNamed attributes ∧
      Text.Trimmed Text.isBlank text.toList ∧ AllWritable children
  termination_by structural e => e

/-- Whether elements can be written and read back. -/
def AllWritable : List Element → Prop
  | [] => True
  | e :: es => e.Writable ∧ AllWritable es
  termination_by structural es => es

end

theorem allWritable_append {es es' : List Element} :
    AllWritable (es ++ es') ↔ AllWritable es ∧ AllWritable es' := by
  induction es with
  | nil => simp [AllWritable]
  | cons e es ih => simp [AllWritable, ih, and_assoc]

theorem allWritable_iff {es : List Element} : AllWritable es ↔ ∀ e ∈ es, e.Writable := by
  induction es with
  | nil => simp [AllWritable]
  | cons e es ih => simp [AllWritable, ih]

/-! ## Documents -/

/-- What stands at the top of a document. -/
inductive Root where
  | declaration (d : Declaration)
  | element (e : Element)

/-- A declaration or an element as an item of a document. -/
def Root.item : Root → Item
  | .declaration d => .declaration d
  | .element (.mk name attributes text children) =>
    .element name attributes (textNodes text ++ nodesOf children)

/-- The marks of a declaration or an element. -/
def Root.marks : Root → List Mark
  | .declaration d => [.declaration d.version d.encoding d.standalone]
  | .element e => e.marks

/-- Whether a declaration can be written and read back: nothing in its values would end a value
or the declaration. -/
def DeclarationWritable (d : Declaration) : Prop :=
  ∀ v ∈ d.version :: d.encoding.toList ++ d.standalone.toList, '"' ∉ v.toList ∧ '>' ∉ v.toList

/-- Whether a declaration or an element can be written and read back. -/
def Root.Writable : Root → Prop
  | .declaration d => DeclarationWritable d
  | .element e => e.Writable

end LsxKit.Xml
