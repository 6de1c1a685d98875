import LsxKit.Proofs.Xml.Fragment
import LsxKit.Proofs.Xml.Names
import LsxKit.Proofs.Xml.Occurrence

/-!
# Fragments that are read

Reading keeps the elements that have begun and goes from event to event. What it makes of a text is
said here by recursion on the fragments of the text.

* `unescape_append`: references are resolved in each part of a text.
* `Fragment.nodes`: the content that a fragment is read as.
* `foldlM_events`: inside an element, the events of a fragment add that content.
* `exists_fragments_of_read`: a text that is read has fragments, and its elements are read as such.
-/

namespace LsxKit.Xml

open Document Fragment

/-! ## References -/

namespace Reference

/-- What a text resolves to does not depend on what stands before. -/
theorem resolveFrom_of_ok {done : List Char} {offset : Nat} {opened : Option (List Char)}
    {cs r : List Char} (h : resolveFrom done offset opened cs = .ok r) :
    ∃ x, r = done.reverse ++ x ∧ ∀ done' offset',
      resolveFrom done' offset' opened cs = .ok (done'.reverse ++ x) := by
  induction cs generalizing done offset opened with
  | nil =>
    cases opened with
    | none =>
      obtain rfl := Except.ok.inj h
      exact ⟨[], by simp, fun done' _ => by simp [resolveFrom]⟩
    | some name => exact absurd ⟨r, h⟩ (resolveFrom_unterminated _ _ _)
  | cons c cs ih =>
    cases opened with
    | none =>
      simp only [resolveFrom] at h ⊢
      split_ifs at h ⊢ with hc
      · obtain ⟨x, hr, hx⟩ := ih h
        exact ⟨x, hr, fun _ _ => hx _ _⟩
      · obtain ⟨x, hr, hx⟩ := ih h
        refine ⟨c :: x, by simpa using hr, fun done' offset' => ?_⟩
        rw [hx]
        simp
    | some name =>
      simp only [resolveFrom] at h ⊢
      split_ifs at h ⊢ with hc hc'
      · cases hname : resolve (offset - Text.size name - 1) offset name.reverse with
        | error fault =>
          rw [hname] at h
          contradiction
        | ok c' =>
          rw [hname] at h
          obtain ⟨x, hr, hx⟩ := ih h
          refine ⟨c' :: x, by simpa using hr, fun done' offset' => ?_⟩
          rw [resolve_ok hname]
          dsimp only
          rw [hx]
          simp
      · obtain ⟨x, hr, hx⟩ := ih h
        exact ⟨x, hr, fun _ _ => hx _ _⟩

theorem resolveFrom_of_unescape {cs u : List Char} (h : unescape cs = .ok u) (done : List Char)
    (offset : Nat) : resolveFrom done offset none cs = .ok (done.reverse ++ u) := by
  obtain ⟨x, hx, hall⟩ := resolveFrom_of_ok h
  obtain rfl : u = x := hx
  exact hall done offset

theorem resolveFrom_append {done : List Char} {offset : Nat} {opened : Option (List Char)}
    {s t r u : List Char} (hs : resolveFrom done offset opened s = .ok r)
    (ht : unescape t = .ok u) : resolveFrom done offset opened (s ++ t) = .ok (r ++ u) := by
  induction s generalizing done offset opened with
  | nil =>
    cases opened with
    | none =>
      obtain rfl := Except.ok.inj hs
      exact resolveFrom_of_unescape ht done offset
    | some name => exact absurd ⟨r, hs⟩ (resolveFrom_unterminated _ _ _)
  | cons c s ih =>
    rw [List.cons_append]
    cases opened with
    | none =>
      rw [resolveFrom] at hs ⊢
      split_ifs at hs ⊢
      · exact ih hs
      · exact ih hs
    | some name =>
      rw [resolveFrom] at hs ⊢
      split_ifs at hs ⊢
      · cases hname : resolve (offset - Text.size name - 1) offset name.reverse with
        | error fault =>
          rw [hname] at hs
          contradiction
        | ok c' =>
          rw [hname] at hs
          exact ih hs
      · exact ih hs

end Reference

/-- References are resolved in each part of a text. -/
theorem unescape_append {s t u v : List Char} (hs : unescape s = .ok u) (ht : unescape t = .ok v) :
    unescape (s ++ t) = .ok (u ++ v) :=
  Reference.resolveFrom_append hs ht

/-- There is no reference in space. -/
theorem unescape_space {cs : List Char} (h : ∀ c ∈ cs, isSpace c = true) :
    unescape cs = .ok cs := by
  induction cs with
  | nil => rfl
  | cons c cs ih =>
    obtain ⟨hc, hcs⟩ := List.forall_mem_cons.1 h
    have hampersand : c ≠ '&' := by
      rintro rfl
      contradiction
    rw [unescape, Reference.resolveFrom, if_neg hampersand]
    exact Reference.resolveFrom_of_unescape (ih hcs) [c] _

/-- The space around a text is kept when its references are resolved. -/
theorem unescape_of_trimBy {raw u : List Char} (h : unescape (Text.trimBy isSpace raw) = .ok u) :
    unescape raw = .ok (Text.gapBefore isSpace raw ++ (u ++ Text.gapAfter isSpace raw)) := by
  have hall := unescape_append
    (unescape_space (Text.of_mem_gapBefore (s := raw)))
    (unescape_append h (unescape_space (Text.of_mem_gapAfter (s := raw))))
  rwa [Text.gaps_trimBy] at hall

/-- A text with its references resolved, and nothing if one of them stands for no character. -/
def resolved (raw : List Char) : List Char := (unescape raw).toOption.getD []

theorem resolved_eq {raw cs : List Char} (h : unescape raw = .ok cs) : resolved raw = cs := by
  rw [resolved, h]
  rfl

theorem Resolves.unescape_eq {raw : List Char} (h : Resolves raw) :
    unescape raw = .ok (resolved raw) := by
  obtain ⟨cs, hcs⟩ := h
  rw [resolved_eq hcs, hcs]

/-! ## Attributes -/

/-- The attributes in a tag, values resolved, in order. -/
def Tag.values (t : Tag) : List (String × String) :=
  t.attributes.1.map fun a => (String.ofList a.key, String.ofList (resolved a.value))

theorem mapM_values {raw : List RawAttribute} {attributes : List (String × String)}
    (h : raw.mapM (fun a => do
      let value ← (unescape a.value).mapError fun f => Error.markup (.reference f)
      return (String.ofList a.key, String.ofList value)) = .ok attributes) :
    attributes = raw.map fun a => (String.ofList a.key, String.ofList (resolved a.value)) := by
  induction raw generalizing attributes with
  | nil => exact (Except.ok.inj h).symm
  | cons a raw ih =>
    rw [List.mapM_cons] at h
    obtain ⟨first, hfirst, h⟩ := bind_eq_ok_iff.1 h
    obtain ⟨rest, hrest, h⟩ := bind_eq_ok_iff.1 h
    obtain ⟨value, hvalue, hpair⟩ := bind_eq_ok_iff.1 hfirst
    obtain rfl := Except.ok.inj h
    obtain rfl := Except.ok.inj hpair
    rw [ih hrest, List.map_cons, resolved_eq (mapError_eq_ok_iff.1 hvalue)]

theorem readAttributes_values {t : Tag} {attributes : List (String × String)}
    (h : readAttributes t = .ok attributes) : attributes = t.values := by
  unfold readAttributes at h
  unfold Tag.values
  cases hraw : t.attributes with
  | mk raw fault =>
    rw [hraw] at h
    obtain ⟨attributes', hmap, h⟩ := bind_eq_ok_iff.1 h
    cases fault with
    | some fault => contradiction
    | none =>
      obtain rfl := Except.ok.inj h
      exact mapM_values hmap

/-! ## The content of fragments -/

/-- Whether the attributes of a tag are read, or the references of a text resolve. -/
def Event.Read : Event → Prop
  | .start tag | .empty tag => readAttributes tag = .ok tag.values
  | .text raw => Resolves raw
  | _ => True

namespace Fragment

/-- The attributes of an element, values resolved, in order. -/
def attributes (f : Fragment) : List (String × String) := (f.tag?.map Tag.values).getD []

mutual

/-- The content that a fragment is read as. A text is taken without the space at its ends, and not
at all if it is nothing but space. -/
def nodes : Fragment → List Node
  | .element tag inside => [.element (String.ofList tag.name) tag.values (nodesAll inside)]
  | .empty tag => [.element (String.ofList tag.name) tag.values []]
  | .text raw =>
    let run := Text.trimBy isSpace raw
    if run.isEmpty then [] else [.text (String.ofList (resolved run))]
  | .characterData raw => [.text (String.ofList raw)]
  | .declaration _ | .other => []
  termination_by structural f => f

/-- The content that fragments are read as. -/
def nodesAll : List Fragment → List Node
  | [] => []
  | f :: fs => f.nodes ++ nodesAll fs
  termination_by structural fs => fs

end

theorem mem_elementsAll {parent : Option String} {fs : List Fragment} {x : String × Fragment} :
    x ∈ elementsAll parent fs ↔ ∃ f ∈ fs, x ∈ elements parent f := by
  induction fs with
  | nil => simp [elementsAll]
  | cons f fs ih => simp [elementsAll, ih]

theorem isElement_of_mem_elements {parent : Option String} {f : Fragment} {x : String × Fragment}
    (h : x ∈ elements parent f) : f.isElement = true := by
  cases f with
  | element tag inside => rfl
  | empty tag => rfl
  | _ => contradiction

mutual

/-- What is listed are elements, and their events are among those of the fragments they stand in. -/
theorem of_mem_elements (parent : Option String) (f : Fragment) :
    ∀ x ∈ elements parent f, (∃ tag, x.2.tag? = some tag) ∧ x.2.events ⊆ f.events := by
  match f with
  | .element tag inside =>
    intro x hx
    rw [elements, List.mem_cons] at hx
    rcases hx with rfl | hx
    · exact ⟨⟨tag, rfl⟩, List.Subset.refl _⟩
    · obtain ⟨htag, hsubset⟩ := of_mem_elementsAll _ inside x hx
      refine ⟨htag, fun e he => ?_⟩
      rw [events]
      exact List.mem_cons_of_mem _ (List.mem_append_left _ (hsubset he))
  | .empty tag =>
    intro x hx
    obtain rfl := List.mem_singleton.1 hx
    exact ⟨⟨tag, rfl⟩, List.Subset.refl _⟩
  | .text _ | .characterData _ | .declaration _ | .other => exact nofun
  termination_by structural f

theorem of_mem_elementsAll (parent : Option String) (fs : List Fragment) :
    ∀ x ∈ elementsAll parent fs, (∃ tag, x.2.tag? = some tag) ∧ x.2.events ⊆ eventsAll fs := by
  match fs with
  | [] => exact nofun
  | f :: fs =>
    intro x hx
    rw [elementsAll, List.mem_append] at hx
    rw [eventsAll]
    rcases hx with hx | hx
    · obtain ⟨htag, hsubset⟩ := of_mem_elements parent f x hx
      exact ⟨htag, List.Subset.trans hsubset (List.subset_append_left _ _)⟩
    · obtain ⟨htag, hsubset⟩ := of_mem_elementsAll parent fs x hx
      exact ⟨htag, List.Subset.trans hsubset (List.subset_append_right _ _)⟩
  termination_by structural fs

end

theorem events_subset_eventsAll {f : Fragment} {fs : List Fragment} (h : f ∈ fs) :
    f.events ⊆ eventsAll fs := by
  induction fs with
  | nil => contradiction
  | cons f' fs ih =>
    rw [eventsAll]
    rcases List.mem_cons.1 h with rfl | h
    · exact List.subset_append_left _ _
    · exact List.Subset.trans (ih h) (List.subset_append_right _ _)

theorem eventsAll_inside_subset (f : Fragment) : eventsAll f.inside ⊆ f.events := by
  cases f with
  | element tag inside =>
    intro e he
    rw [events]
    exact List.mem_cons_of_mem _ (List.mem_append_left _ he)
  | _ => exact List.nil_subset _

/-- The event of the tag with which an element begins. -/
theorem mem_events_of_tag? {f : Fragment} {tag : Tag} (h : f.tag? = some tag) :
    .start tag ∈ f.events ∨ .empty tag ∈ f.events := by
  cases f with
  | element tag' inside =>
    obtain rfl := Option.some.inj h
    exact .inl List.mem_cons_self
  | empty tag' =>
    obtain rfl := Option.some.inj h
    exact .inr List.mem_cons_self
  | _ => contradiction

theorem readAttributes_of_read {f : Fragment} {tag : Tag} (h : f.tag? = some tag)
    (hread : ∀ e ∈ f.events, e.Read) : readAttributes tag = .ok f.attributes := by
  have hattributes : f.attributes = tag.values := by rw [attributes, h]; rfl
  rw [hattributes]
  rcases mem_events_of_tag? h with hmem | hmem
  · exact hread _ hmem
  · exact hread _ hmem

end Fragment

/-! ## Reading fragments -/

section Reading

variable {keep : Bool}

/-- Whether none of the items of a document is an element. -/
def NoElements (items : List Item) : Prop := ∀ i ∈ items, i.nodes = []

theorem noElements_nil : NoElements [] := by simp [NoElements]

theorem NoElements.append {ds ds' : List Item} (h : NoElements ds) (h' : NoElements ds') :
    NoElements (ds ++ ds') :=
  List.forall_mem_append.2 ⟨h, h'⟩

theorem NoElements.nodes_reverse {ds : List Item} (h : NoElements ds) :
    Document.nodes ds.reverse = [] :=
  List.flatMap_eq_nil_iff.2 fun i hi => h i (List.mem_reverse.1 hi)

theorem foldlM_single {p p' : Partial} {e : Event}
    (h : [e].foldlM (Partial.add keep) p = .ok p') : p.add keep e = .ok p' := by
  obtain ⟨next, hadd, hnil⟩ := bind_eq_ok_iff.1 h
  rwa [← Except.ok.inj hnil]

/-- The events of an element add it with what stands inside it, if those inside do so. -/
theorem foldlM_tags {tag : Tag} {inside : List Fragment} {os : List Opened} {items : List Item}
    {p' : Partial}
    (hinside : ∀ p, (eventsAll inside).foldlM (Partial.add keep)
      ⟨⟨String.ofList tag.name, tag.values, []⟩ :: os, items⟩ = .ok p →
      (∀ e ∈ eventsAll inside, e.Read) ∧ ∃ ds : List Item, NoElements ds ∧
        p = ⟨⟨String.ofList tag.name, tag.values, (nodesAll inside).reverse⟩ :: os, ds ++ items⟩)
    (h : (Fragment.element tag inside).events.foldlM (Partial.add keep) ⟨os, items⟩ = .ok p') :
    (∀ e ∈ (Fragment.element tag inside).events, e.Read) ∧
      ∃ ds : List Item, NoElements ds ∧
        p' = Partial.addElement ⟨os, ds ++ items⟩ (String.ofList tag.name) tag.values
          (nodesAll inside) := by
  -- `os` may be empty, so this holds of a root element as well as of one inside another element
  obtain ⟨begun, hstart, h⟩ := bind_eq_ok_iff.1 h
  obtain ⟨attributes, hattributes, hstart⟩ := bind_eq_ok_iff.1 hstart
  obtain rfl := readAttributes_values hattributes
  obtain rfl := Except.ok.inj hstart
  rw [List.foldlM_append] at h
  obtain ⟨filled, hfilled, h⟩ := bind_eq_ok_iff.1 h
  obtain ⟨hread, ds, hds, rfl⟩ := hinside filled hfilled
  have hclose := Except.ok.inj (foldlM_single h)
  rw [List.reverse_reverse] at hclose
  refine ⟨?_, ds, hds, hclose.symm⟩
  rw [events]
  refine List.forall_mem_cons.2 ⟨hattributes, List.forall_mem_append.2 ⟨hread, ?_⟩⟩
  exact List.forall_mem_singleton.2 trivial

theorem add_declaration {p p' : Partial} {content : List Char}
    (h : p.add keep (.declaration content) = .ok p') :
    ∃ ds : List Item, NoElements ds ∧ p' = ⟨p.opened, ds ++ p.items⟩ := by
  simp only [Partial.add] at h
  split_ifs at h
  · obtain ⟨d, -, h⟩ := bind_eq_ok_iff.1 h
    obtain rfl := Except.ok.inj h
    exact ⟨[.declaration d], by simp [NoElements, Item.nodes], rfl⟩
  · obtain rfl := Except.ok.inj h
    exact ⟨[], noElements_nil, rfl⟩

mutual

/-- Inside an element, the events of a fragment add its content to that of the element, and
nothing but declarations to the document. -/
theorem foldlM_events (f : Fragment) {o : Opened} {os : List Opened} {items : List Item}
    {p' : Partial} (h : f.events.foldlM (Partial.add keep) ⟨o :: os, items⟩ = .ok p') :
    (∀ e ∈ f.events, e.Read) ∧ ∃ ds : List Item, NoElements ds ∧
      p' = ⟨{ o with content := f.nodes.reverse ++ o.content } :: os, ds ++ items⟩ := by
  match f with
  | .element tag inside =>
    refine foldlM_tags (fun p hp => ?_) h
    have hall := foldlM_eventsAll inside hp
    rwa [List.append_nil] at hall
  | .empty tag =>
    obtain ⟨attributes, hattributes, hadd⟩ := bind_eq_ok_iff.1 (foldlM_single h)
    obtain rfl := readAttributes_values hattributes
    obtain rfl := Except.ok.inj hadd
    exact ⟨by simpa [events, Event.Read] using hattributes, [], noElements_nil, rfl⟩
  | .text raw =>
    have hadd := foldlM_single h
    rw [events, List.forall_mem_singleton, Fragment.nodes]
    simp only [Partial.add, List.isEmpty_cons, Bool.or_false] at hadd
    split_ifs at hadd ⊢ with hrun
    · obtain rfl := Except.ok.inj hadd
      have hempty : unescape (Text.trimBy isSpace raw) = .ok [] := by
        rw [List.isEmpty_iff.1 hrun]
        rfl
      exact ⟨⟨_, unescape_of_trimBy hempty⟩, [], noElements_nil, rfl⟩
    · obtain ⟨cs, hcs, hadd⟩ := bind_eq_ok_iff.1 hadd
      have hresolved := mapError_eq_ok_iff.1 hcs
      obtain rfl := Except.ok.inj hadd
      refine ⟨⟨_, unescape_of_trimBy hresolved⟩, [], noElements_nil, ?_⟩
      rw [resolved_eq hresolved]
      rfl
  | .characterData raw =>
    obtain rfl := Except.ok.inj (foldlM_single h)
    exact ⟨by simp [events, Event.Read], [], noElements_nil, rfl⟩
  | .declaration content =>
    exact ⟨by simp [events, Event.Read], add_declaration (foldlM_single h)⟩
  | .other =>
    obtain rfl := Except.ok.inj (foldlM_single h)
    exact ⟨by simp [events, Event.Read], [], noElements_nil, rfl⟩
  termination_by structural f

theorem foldlM_eventsAll (fs : List Fragment) {o : Opened} {os : List Opened} {items : List Item}
    {p' : Partial} (h : (eventsAll fs).foldlM (Partial.add keep) ⟨o :: os, items⟩ = .ok p') :
    (∀ e ∈ eventsAll fs, e.Read) ∧ ∃ ds : List Item, NoElements ds ∧
      p' = ⟨{ o with content := (nodesAll fs).reverse ++ o.content } :: os, ds ++ items⟩ := by
  match fs with
  | [] =>
    obtain rfl := Except.ok.inj h
    exact ⟨by simp [eventsAll], [], noElements_nil, rfl⟩
  | f :: fs =>
    rw [eventsAll, List.foldlM_append] at h
    obtain ⟨next, hfirst, hrest⟩ := bind_eq_ok_iff.1 h
    obtain ⟨hread, ds, hds, rfl⟩ := foldlM_events f hfirst
    obtain ⟨hreads, ds', hds', rfl⟩ := foldlM_eventsAll fs hrest
    refine ⟨?_, ds' ++ ds, hds'.append hds, ?_⟩
    · rw [eventsAll]
      exact List.forall_mem_append.2 ⟨hread, hreads⟩
    · rw [nodesAll, List.reverse_append, List.append_assoc, List.append_assoc]
  termination_by structural fs

end

/-- Outside all elements, the events of a fragment add it to the document if it is an element. -/
theorem foldlM_root (f : Fragment) {items : List Item} {p' : Partial}
    (h : f.events.foldlM (Partial.add keep) ⟨[], items⟩ = .ok p') :
    (f.isElement = true → ∀ e ∈ f.events, e.Read) ∧ ∃ new,
      Document.nodes new.reverse = nodesAll ([f].filter isElement) ∧ p' = ⟨[], new ++ items⟩ := by
  cases f with
  | element tag inside =>
    obtain ⟨hread, ds, hds, rfl⟩ := foldlM_tags (fun p hp => by
      have hall := foldlM_eventsAll inside hp
      rwa [List.append_nil] at hall) h
    refine ⟨fun _ => hread, .element (String.ofList tag.name) tag.values (nodesAll inside) :: ds,
      ?_, rfl⟩
    rw [List.reverse_cons, Document.nodes, List.flatMap_append, ← Document.nodes,
      hds.nodes_reverse]
    rfl
  | empty tag =>
    obtain ⟨attributes, hattributes, hadd⟩ := bind_eq_ok_iff.1 (foldlM_single h)
    obtain rfl := readAttributes_values hattributes
    obtain rfl := Except.ok.inj hadd
    exact ⟨fun _ => by simpa [events, Event.Read] using hattributes,
      [.element (String.ofList tag.name) tag.values []], rfl, rfl⟩
  | text raw =>
    have hadd := foldlM_single h
    simp only [Partial.add, List.isEmpty_nil, Bool.or_true, if_true] at hadd
    obtain rfl := Except.ok.inj hadd
    exact ⟨fun h => absurd h Bool.false_ne_true, [], rfl, rfl⟩
  | declaration content =>
    obtain ⟨ds, hds, rfl⟩ := add_declaration (foldlM_single h)
    exact ⟨fun h => absurd h Bool.false_ne_true, ds, hds.nodes_reverse, rfl⟩
  | characterData raw =>
    obtain rfl := Except.ok.inj (foldlM_single h)
    exact ⟨fun h => absurd h Bool.false_ne_true, [], rfl, rfl⟩
  | other =>
    obtain rfl := Except.ok.inj (foldlM_single h)
    exact ⟨fun h => absurd h Bool.false_ne_true, [], rfl, rfl⟩

theorem nodesAll_append (fs fs' : List Fragment) :
    nodesAll (fs ++ fs') = nodesAll fs ++ nodesAll fs' := by
  induction fs with
  | nil => rfl
  | cons f fs ih => rw [List.cons_append, nodesAll, nodesAll, ih, List.append_assoc]

/-- Outside all elements, the events of fragments add the elements among them to the document. -/
theorem foldlM_roots (fs : List Fragment) {items : List Item} {p' : Partial}
    (h : (eventsAll fs).foldlM (Partial.add keep) ⟨[], items⟩ = .ok p') :
    (∀ f ∈ fs, f.isElement = true → ∀ e ∈ f.events, e.Read) ∧ ∃ new,
      Document.nodes new.reverse = nodesAll (fs.filter isElement) ∧ p' = ⟨[], new ++ items⟩ := by
  induction fs generalizing items with
  | nil =>
    obtain rfl := Except.ok.inj h
    exact ⟨by simp, [], rfl, rfl⟩
  | cons f fs ih =>
    rw [eventsAll, List.foldlM_append] at h
    obtain ⟨next, hfirst, hrest⟩ := bind_eq_ok_iff.1 h
    obtain ⟨hread, new, hnew, rfl⟩ := foldlM_root f hfirst
    obtain ⟨hreads, new', hnew', rfl⟩ := ih hrest
    refine ⟨List.forall_mem_cons.2 ⟨hread, hreads⟩, new' ++ new, ?_, ?_⟩
    · rw [← List.singleton_append, List.filter_append, nodesAll_append, ← hnew, ← hnew',
        List.reverse_append, Document.nodes, Document.nodes, Document.nodes, List.flatMap_append]
    · rw [List.append_assoc]

end Reading

namespace Occurring

theorem length_opened_add {q : Occurring} {opened : List (List Char)}
    (h : q.opened.length = opened.length) (offset : Nat) (e : Event) :
    (q.add offset e).opened.length = (Event.nextOpened opened e).length := by
  cases e with
  | start tag => exact congrArg (· + 1) h
  | empty tag => rwa [add, length_opened_put]
  | close name =>
    rw [Event.nextOpened, List.length_drop, ← h, add]
    cases hopened : q.opened with
    | nil => rw [hopened]; rfl
    | cons b bs => rw [length_opened_put]; rfl
  | _ => exact h

theorem length_opened_run {q : Occurring} {opened : List (List Char)}
    (h : q.opened.length = opened.length) (events : List (Nat × Event)) :
    (q.run events).opened.length = (openedAfter opened (events.map Prod.snd)).length := by
  induction events generalizing q opened with
  | nil => exact h
  | cons e events ih => exact ih (length_opened_add h e.1 e.2)

end Occurring

/-- A text that is read has fragments. Its root elements are read as their content says, and
everything in them can be read. -/
theorem exists_fragments_of_read {keep : Bool} {text : String} {d : Document}
    (h : read keep text = .ok d) :
    ∃ fs, FragmentsOf text fs ∧ Document.nodes d = nodesAll (fs.filter isElement) ∧
      ∀ x ∈ elementsAll none fs, ∀ e ∈ x.2.events, e.Read := by
  -- the tree of occurrences has as many open elements as tags were left open, and it has none
  have hopened : (Occurring.ofText text.toList).opened = [] := (describes_occurrences h).2
  have hlength : (Occurring.ofText text.toList).opened.length =
      (openedAfter [] ((Event.reading text.toList).events.map Prod.snd)).length :=
    Occurring.length_opened_run rfl _
  rw [hopened, List.length_nil, eq_comm, List.length_eq_zero_iff] at hlength
  obtain ⟨fs, hfs⟩ := exists_fragmentsOf hlength
  refine ⟨fs, hfs, ?_⟩
  obtain ⟨p, hfold, h⟩ := bind_eq_ok_iff.1 h
  have hevents : (eventsAll fs).foldlM (Partial.add keep) ⟨[], []⟩ = .ok p := by
    rw [hfs, List.foldlM_map]
    exact hfold
  obtain ⟨hread, new, hnew, rfl⟩ := foldlM_roots fs hevents
  constructor
  · split at h
    · contradiction
    · contradiction
    · obtain rfl := Except.ok.inj h
      rw [List.append_nil]
      exact hnew
  · intro x hx
    obtain ⟨f, hf, hx⟩ := mem_elementsAll.1 hx
    have hsubset := (of_mem_elements none f x hx).2
    exact fun e he => hread f hf (isElement_of_mem_elements hx) e (hsubset he)

end LsxKit.Xml
