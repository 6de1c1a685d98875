import LsxKit.Proofs.Xml.Readable
import Mathlib.Data.List.Forall2

/-!
# Elements where they occur

The elements of a text with the offsets at which their tags begin. They are put together from the
events of the text alone, whether or not attributes and references can be read.

* `occurrences`: the root elements of a text.
* `describes_occurrences`: the document that is read from a text has these elements.
-/

namespace LsxKit.Xml

/-- An element as it occurs in a text: the offset at which its tag begins, that tag, and the
elements directly inside it in order. -/
structure Occurrence where
  offset : Nat
  tag : Tag
  inside : List Occurrence

namespace Occurrence

/-- The name of the element. -/
def name (e : Occurrence) : String := String.ofList e.tag.name

mutual

/-- An element and all elements inside it, in the order in which their tags begin. -/
def preorder : Occurrence → List Occurrence
  | e@⟨_, _, inside⟩ => e :: preorderAll inside
  termination_by structural e => e

/-- Elements and all elements inside them, in the order in which their tags begin. -/
def preorderAll : List Occurrence → List Occurrence
  | [] => []
  | e :: es => e.preorder ++ preorderAll es
  termination_by structural es => es

end

theorem preorderAll_cons (e : Occurrence) (es : List Occurrence) :
    preorderAll (e :: es) = e :: (preorderAll e.inside ++ preorderAll es) := by
  cases e
  rfl

/-- The elements with a name among `es`. -/
def named (name : String) (es : List Occurrence) : List Occurrence := es.filter (·.name = name)

end Occurrence

/-! ## Putting elements together -/

/-- Elements that are put together: those that have not ended, innermost first, and the complete
roots. What is inside an element that has not ended is kept latest first, and so are the roots. -/
structure Occurring where
  opened : List Occurrence
  roots : List Occurrence

namespace Occurring

/-- Adds a complete element. -/
def put (q : Occurring) (e : Occurrence) : Occurring :=
  match q.opened with
  | [] => { q with roots := e :: q.roots }
  | b :: bs => { q with opened := { b with inside := e :: b.inside } :: bs }

/-- Takes an event at an offset into account. -/
def add (q : Occurring) (offset : Nat) : Event → Occurring
  | .start tag => { q with opened := ⟨offset, tag, []⟩ :: q.opened }
  | .empty tag => q.put ⟨offset, tag, []⟩
  | .close _ =>
    match q.opened with
    | [] => q
    | b :: bs => put { q with opened := bs } { b with inside := b.inside.reverse }
  | _ => q

/-- Takes events in order into account. -/
def run (q : Occurring) (events : List (Nat × Event)) : Occurring :=
  events.foldl (fun q e => q.add e.1 e.2) q

theorem run_cons (q : Occurring) (e : Nat × Event) (events : List (Nat × Event)) :
    q.run (e :: events) = (q.add e.1 e.2).run events := rfl

theorem length_opened_put (q : Occurring) (e : Occurrence) :
    (q.put e).opened.length = q.opened.length := by
  unfold put
  split
  · rfl
  · next hopened => simp [hopened]

/-- The elements of a text. -/
def ofText (text : List Char) : Occurring := run ⟨[], []⟩ (Event.reading text).events

end Occurring

/-- The root elements of a text. -/
def occurrences (text : List Char) : List Occurrence := (Occurring.ofText text).roots.reverse

/-! ## Elements of a document -/

/-- Whether the elements of a content are the given ones, by their names, in order and down to
the innermost. -/
inductive Describes : List Node → List Occurrence → Prop
  | nil : Describes [] []
  | text (chars : String) {ns : List Node} {es : List Occurrence} (h : Describes ns es) :
      Describes (.text chars :: ns) es
  | element (attributes : List (String × String)) {name : String} {content ns : List Node}
      {e : Occurrence} {es : List Occurrence} (hname : e.name = name)
      (hinside : Describes content e.inside) (h : Describes ns es) :
      Describes (.element name attributes content :: ns) (e :: es)

theorem Describes.append {ns ns' : List Node} {es es' : List Occurrence} (h : Describes ns es)
    (h' : Describes ns' es') : Describes (ns ++ ns') (es ++ es') := by
  induction h with
  | nil => exact h'
  | text chars _ ih => exact .text chars ih
  | element attributes hname hinside _ _ ih => exact .element attributes hname hinside ih

/-- The root element that an item is, if it is one. -/
def Item.nodes : Item → List Node
  | .declaration _ => []
  | .element name attributes content => [.element name attributes content]

/-- The root elements of a document. -/
def Document.nodes (d : Document) : List Node := d.flatMap Item.nodes

namespace Document

variable {keep : Bool} {p p' : Partial} {q : Occurring}

/-- Whether an open element of a document that is being read is the given one. -/
def Opened.Matches (o : Opened) (b : Occurrence) : Prop :=
  b.name = o.name ∧ Describes o.content.reverse b.inside.reverse

/-- Whether what has been read of a document has the given elements. -/
structure Partial.Matches (p : Partial) (q : Occurring) : Prop where
  opened : List.Forall₂ Opened.Matches p.opened q.opened
  roots : Describes (Document.nodes p.items.reverse) q.roots.reverse

theorem Partial.Matches.put (h : p.Matches q) {name : String} {content : List Node}
    {e : Occurrence} (attributes : List (String × String)) (hname : e.name = name)
    (hinside : Describes content e.inside) :
    (p.addElement name attributes content).Matches (q.put e) := by
  have hone : Describes [.element name attributes content] [e] :=
    .element attributes hname hinside .nil
  obtain ⟨opened, items⟩ := p
  obtain ⟨begun, roots⟩ := q
  obtain ⟨hopened, hroots⟩ := h
  cases hopened with
  | nil =>
    refine ⟨.nil, ?_⟩
    have h := hroots.append hone
    simpa [Partial.addElement, Occurring.put, Document.nodes, Item.nodes] using h
  | cons hfirst hrest =>
    refine ⟨.cons ⟨hfirst.1, ?_⟩ hrest, hroots⟩
    simpa using hfirst.2.append hone

theorem Partial.Matches.addText (h : p.Matches q) (chars : List Char) :
    (p.addText chars).Matches q := by
  obtain ⟨opened, items⟩ := p
  obtain ⟨begun, roots⟩ := q
  obtain ⟨hopened, hroots⟩ := h
  cases hopened with
  | nil => exact ⟨.nil, hroots⟩
  | cons hfirst hrest =>
    refine ⟨.cons ⟨hfirst.1, ?_⟩ hrest, hroots⟩
    simpa using hfirst.2.append (.text (String.ofList chars) .nil)

/-- An event adds the same element on both sides. -/
theorem Partial.Matches.add (h : p.Matches q) (offset : Nat) {e : Event}
    (hadd : p.add keep e = .ok p') : p'.Matches (q.add offset e) := by
  cases e with
  | start tag =>
    obtain ⟨attributes, -, hadd⟩ := bind_eq_ok_iff.1 hadd
    obtain rfl := Except.ok.inj hadd
    exact ⟨.cons ⟨rfl, .nil⟩ h.opened, h.roots⟩
  | empty tag =>
    obtain ⟨attributes, -, hadd⟩ := bind_eq_ok_iff.1 hadd
    obtain rfl := Except.ok.inj hadd
    exact h.put attributes rfl .nil
  | close name =>
    obtain ⟨opened, items⟩ := p
    obtain ⟨begun, roots⟩ := q
    obtain ⟨hopened, hroots⟩ := h
    cases hopened with
    | nil =>
      obtain rfl := Except.ok.inj hadd
      exact ⟨.nil, hroots⟩
    | @cons o b os bs hfirst hrest =>
      obtain rfl := Except.ok.inj hadd
      have hmatches : Partial.Matches ⟨os, items⟩ ⟨bs, roots⟩ := ⟨hrest, hroots⟩
      exact hmatches.put (e := { b with inside := b.inside.reverse }) _ hfirst.1 hfirst.2
  | text raw =>
    simp only [Partial.add] at hadd
    split_ifs at hadd
    · rwa [← Except.ok.inj hadd]
    · obtain ⟨cs, -, hadd⟩ := bind_eq_ok_iff.1 hadd
      rw [← Except.ok.inj hadd]
      exact h.addText cs
  | declaration content =>
    simp only [Partial.add] at hadd
    split_ifs at hadd
    · obtain ⟨d, -, hadd⟩ := bind_eq_ok_iff.1 hadd
      rw [← Except.ok.inj hadd]
      refine ⟨h.opened, ?_⟩
      simpa [Document.nodes, Item.nodes, Occurring.add] using h.roots
    · rwa [← Except.ok.inj hadd]
  | characterData raw =>
    rw [← Except.ok.inj hadd]
    exact h.addText raw
  | other => rwa [← Except.ok.inj hadd]

theorem Partial.Matches.run (h : p.Matches q) {events : List (Nat × Event)}
    (hfold : events.foldlM (fun p (_, e) => Partial.add keep p e) p = .ok p') :
    p'.Matches (q.run events) := by
  induction events generalizing p q with
  | nil => rwa [← Except.ok.inj hfold]
  | cons e events ih =>
    obtain ⟨next, hadd, hrest⟩ := bind_eq_ok_iff.1 hfold
    exact ih (h.add e.1 hadd) hrest

/-- A document that is read has the elements that occur in the text, all of them complete. -/
theorem describes_occurrences {text : String} {d : Document} (h : read keep text = .ok d) :
    Describes d.nodes (occurrences text.toList) ∧ (Occurring.ofText text.toList).opened = [] := by
  obtain ⟨p, hfold, h⟩ := bind_eq_ok_iff.1 h
  have hempty : Partial.Matches ⟨[], []⟩ ⟨[], []⟩ := ⟨.nil, .nil⟩
  have hmatches : p.Matches (Occurring.ofText text.toList) := hempty.run hfold
  cases hfault : (Event.reading text.toList).fault with
  | some fault =>
    rw [hfault] at h
    contradiction
  | none =>
    cases hopened : p.opened with
    | cons o os =>
      rw [hfault, hopened] at h
      contradiction
    | nil =>
      rw [hfault, hopened] at h
      obtain rfl := Except.ok.inj h
      have hall := hmatches.opened
      rw [hopened] at hall
      exact ⟨hmatches.roots, List.forall₂_nil_left_iff.1 hall⟩

end Document

end LsxKit.Xml
