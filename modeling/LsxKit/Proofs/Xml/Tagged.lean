import LsxKit.Proofs.Xml.Content

/-!
# The names of elements and of their attributes

What holds of the names of elements in a text, and of those of attributes, holds of the elements in
its document. None of them has a name that begins with a question mark: such a tag would be an
instruction.

* `elementNames`, `attributeNames`: the names in a text, apart.
* `AllTagged`: whether all elements in content have good names, and their attributes too.
* `head?_name`: the first character of a name.
* `tagged_of_read`: the elements of a document that is read.
-/

namespace LsxKit.Xml

open Document Fragment

variable {good goodKey : String → Prop}

mutual

/-- Whether an element and all elements inside it have good names, and their attributes too. -/
def Node.Tagged (good goodKey : String → Prop) : Node → Prop
  | .text _ => True
  | .element name attributes content =>
    good name ∧ (∀ a ∈ attributes, goodKey a.1) ∧ AllTagged good goodKey content
  termination_by structural n => n

/-- Whether all elements in content have good names, and their attributes too. -/
def AllTagged (good goodKey : String → Prop) : List Node → Prop
  | [] => True
  | n :: ns => n.Tagged good goodKey ∧ AllTagged good goodKey ns
  termination_by structural ns => ns

end

theorem allTagged_iff {ns : List Node} :
    AllTagged good goodKey ns ↔ ∀ n ∈ ns, n.Tagged good goodKey := by
  induction ns with
  | nil => simp [AllTagged]
  | cons n ns ih => rw [AllTagged, ih, List.forall_mem_cons]

/-! ## Tags -/

/-- The tag with which an element begins. -/
def Event.tag? : Event → Option Tag
  | .start tag | .empty tag => some tag
  | _ => none

/-- The names of elements in a text. -/
def elementNames (text : String) : List String :=
  (Event.reading text.toList).events.flatMap fun e =>
    e.2.tag?.toList.map fun tag => String.ofList tag.name

/-- The names of attributes in a text. -/
def attributeNames (text : String) : List String :=
  (Event.reading text.toList).events.flatMap fun e =>
    e.2.tag?.toList.flatMap fun tag => tag.attributes.1.map fun a => String.ofList a.key

theorem elementNames_subset (text : String) : elementNames text ⊆ names text := by
  intro n hn
  obtain ⟨e, he, hn⟩ := List.mem_flatMap.1 hn
  refine List.mem_flatMap.2 ⟨e, he, ?_⟩
  obtain ⟨offset, e⟩ := e
  cases e with
  | start tag | empty tag =>
    obtain rfl : n = String.ofList tag.name := by simpa [Event.tag?] using hn
    exact List.mem_cons_self
  | _ => contradiction

/-- A tag is read from a bracket and its content, which does not begin with a question mark: that
would make an instruction. -/
theorem content_of_step {cs content source rest : List Char}
    (h : step cs = .token (.tag content) source rest) :
    content.head? ≠ some '?' ∧ ∃ left, cs = '<' :: (content ++ left) := by
  unfold step at h
  split at h
  · contradiction
  · contradiction
  · unfold bang at h
    repeat' split at h
    all_goals first
      | contradiction
      | simp [Step.markup] at h
  · simp [close, Step.markup] at h
  · unfold instruction at h
    split_ifs at h
    simp [Step.markup] at h
  · next cs _ _ _ hmark =>
    simp only [Step.markup, Step.token.injEq, Token.tag.injEq] at h
    obtain ⟨rfl, -, -⟩ := h
    have happend := splitTag_append none cs
    refine ⟨fun hhead => ?_, _, by rw [happend]⟩
    obtain ⟨content, hcontent⟩ := List.head?_eq_some_iff.1 hhead
    rw [hcontent, List.cons_append] at happend
    exact hmark _ happend.symm
  · simp at h

/-- The name of a tag begins the content of its token. -/
theorem prefix_of_ofToken? {opened : List (List Char)} {t : Token} {e : Event} {tag : Tag}
    (h : Event.ofToken? opened t = .ok e) (htag : e.tag? = some tag) :
    ∃ content, t = .tag content ∧ tag.name <+: content := by
  cases t with
  | tag content =>
    refine ⟨content, rfl, ?_⟩
    obtain rfl := Except.ok.inj h
    unfold Event.ofTag at htag
    split_ifs at htag
    · obtain rfl := Option.some.inj htag
      exact (List.takeWhile_prefix _).trans (List.dropLast_prefix _)
    · obtain rfl := Option.some.inj htag
      exact List.takeWhile_prefix _
  | instruction content =>
    obtain rfl := Except.ok.inj h
    unfold Event.ofInstruction at htag
    split at htag
    · split_ifs at htag
      · contradiction
      · contradiction
    · contradiction
  | close content =>
    simp only [Event.ofToken?] at h
    split at h
    · contradiction
    · split_ifs at h
      obtain rfl := Except.ok.inj h
      contradiction
  | _ =>
    obtain rfl := Except.ok.inj h
    contradiction

/-- The name of an element does not begin with a question mark. -/
theorem head?_name {opened : List (List Char)} {offset : Nat} {cs : List Char} :
    ∀ e ∈ (Event.readingFrom opened offset cs).events, ∀ tag, e.2.tag? = some tag →
      tag.name.head? ≠ some '?' := by
  fun_induction Event.readingFrom opened offset cs with
  | case4 opened offset cs t source rest hstep e hevent r ih =>
    rw [List.forall_mem_cons]
    refine ⟨fun tag htag hhead => ?_, ih⟩
    obtain ⟨content, rfl, hprefix⟩ := prefix_of_ofToken? hevent htag
    obtain ⟨name, hname⟩ := List.head?_eq_some_iff.1 hhead
    obtain ⟨tail, rfl⟩ := hprefix
    exact (content_of_step hstep).1 (by rw [hname]; rfl)
  | _ => simp

/-! ## Documents -/

/-- Whether an element that begins with a tag has a good name, and its attributes too. -/
def Tag.Good (good goodKey : String → Prop) (tag : Tag) : Prop :=
  good (String.ofList tag.name) ∧ ∀ a ∈ tag.attributes.1, goodKey (String.ofList a.key)

theorem goodKey_values {tag : Tag} (h : tag.Good good goodKey) : ∀ a ∈ tag.values, goodKey a.1 := by
  intro a ha
  obtain ⟨x, hx, rfl⟩ := List.mem_map.1 ha
  exact h.2 x hx

mutual

theorem tagged_nodes (f : Fragment)
    (h : ∀ e ∈ f.events, ∀ tag, e.tag? = some tag → tag.Good good goodKey) :
    AllTagged good goodKey f.nodes := by
  match f with
  | .element tag inside =>
    rw [events, List.forall_mem_cons, List.forall_mem_append] at h
    exact ⟨⟨(h.1 tag rfl).1, goodKey_values (h.1 tag rfl), tagged_nodesAll inside h.2.1⟩, trivial⟩
  | .empty tag =>
    have htag := h _ List.mem_cons_self tag rfl
    exact ⟨⟨htag.1, goodKey_values htag, trivial⟩, trivial⟩
  | .text raw =>
    rw [Fragment.nodes]
    split_ifs <;> simp [AllTagged, Node.Tagged]
  | .characterData _ => exact ⟨trivial, trivial⟩
  | .declaration _ | .other => trivial
  termination_by structural f

theorem tagged_nodesAll (fs : List Fragment)
    (h : ∀ e ∈ eventsAll fs, ∀ tag, e.tag? = some tag → tag.Good good goodKey) :
    AllTagged good goodKey (nodesAll fs) := by
  match fs with
  | [] => trivial
  | f :: fs =>
    rw [eventsAll, List.forall_mem_append] at h
    rw [nodesAll, allTagged_iff, List.forall_mem_append, ← allTagged_iff, ← allTagged_iff]
    exact ⟨tagged_nodes f h.1, tagged_nodesAll fs h.2⟩
  termination_by structural fs

end

theorem eventsAll_filter_subset (fs : List Fragment) :
    eventsAll (fs.filter isElement) ⊆ eventsAll fs := by
  induction fs with
  | nil => exact List.Subset.refl _
  | cons f fs ih =>
    rw [eventsAll, List.filter_cons]
    split_ifs
    · rw [eventsAll]
      exact List.append_subset.2 ⟨List.subset_append_left _ _,
        List.Subset.trans ih (List.subset_append_right _ _)⟩
    · exact List.Subset.trans ih (List.subset_append_right _ _)

/-- The elements of a document have names of its text, of those that do not begin with a question
mark, and so have their attributes. -/
theorem tagged_of_read {keep : Bool} {text : String} {d : Document}
    (hnames : ∀ n ∈ elementNames text, n.toList.head? ≠ some '?' → good n)
    (hkeys : ∀ k ∈ attributeNames text, goodKey k) (h : read keep text = .ok d) :
    AllTagged good goodKey (Document.nodes d) := by
  obtain ⟨fs, hfs, hnodes, -⟩ := exists_fragments_of_read h
  rw [hnodes]
  refine tagged_nodesAll _ fun e he tag htag => ?_
  have hevent := eventsAll_filter_subset fs he
  rw [hfs] at hevent
  obtain ⟨e, hmem, rfl⟩ := List.mem_map.1 hevent
  refine ⟨hnames _ ?_ (by simpa using head?_name e hmem tag htag), fun a ha => hkeys _ ?_⟩
  · exact List.mem_flatMap.2 ⟨e, hmem, by simp [htag]⟩
  · exact List.mem_flatMap.2 ⟨e, hmem, by simpa [htag] using ⟨a, ha, rfl⟩⟩

end LsxKit.Xml
