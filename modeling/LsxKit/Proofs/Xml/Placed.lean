import LsxKit.Proofs.Xml.Occurrence
import LsxKit.Proofs.Xml.Tagged
import Mathlib.Data.List.Basic

/-!
# Attributes where they stand

An attribute is known from its key and its value. Here it is followed back to the text: to the
characters with which it is written in its tag, after those of the attributes before it, and the tag
to the root element to which it belongs.

* `Tag.Places`: where an attribute of a tag stands; `Tag.exists_places`: each stands somewhere.
* `exists_left_of_tag`: the text of an event that begins an element.
* `rooted_of_checkWellFormed`: a well-formed document has no more than one root element.
* `findSome?_tag_of_root`: its tag is the first one among the events.
-/

namespace LsxKit.Xml

/-! ## Attributes as they are written -/

/-- Whether some characters are an attribute as it is written: its key, an equals sign with space
around it, and its value in quotes that do not occur in it. -/
def RawAttribute.WrittenAs (x : RawAttribute) (source : List Char) : Prop :=
  ∃ space space' quote,
    source = x.key ++ (space ++ '=' :: (space' ++ quote :: (x.value ++ [quote]))) ∧
      (∀ c ∈ space, isSpace c = true) ∧ (∀ c ∈ space', isSpace c = true) ∧
      (quote = '"' ∨ quote = '\'') ∧ quote ∉ x.value

/-- Whether attributes are written one after the other in some characters, with any space before
them, between them and after them. -/
inductive AttributesIn : List Char → List RawAttribute → Prop
  | nil : AttributesIn [] []
  | space {c : Char} {cs : List Char} {xs : List RawAttribute} (hc : isSpace c = true)
      (h : AttributesIn cs xs) : AttributesIn (c :: cs) xs
  | cons {x : RawAttribute} {source cs : List Char} {xs : List RawAttribute}
      (hx : x.WrittenAs source) (h : AttributesIn cs xs) : AttributesIn (source ++ cs) (x :: xs)

/-- Whether an attribute of a tag is written as `source` after the characters `before` of the
content of the tag: the attributes before it and after it are written around it. -/
def Tag.Places (t : Tag) (x : RawAttribute) (before source : List Char) : Prop :=
  ∃ xs xs' cs cs', t.attributes.1 = xs ++ x :: xs' ∧ t.rest = cs ++ (source ++ cs') ∧
    before = t.name ++ cs ∧ AttributesIn cs xs ∧ x.WrittenAs source ∧ AttributesIn cs' xs'

variable {cs rest value : List Char} {xs : List RawAttribute} {x : RawAttribute} {total : Nat}

theorem AttributesIn.append_space {space : List Char} (hspace : ∀ c ∈ space, isSpace c = true)
    (h : AttributesIn cs xs) : AttributesIn (space ++ cs) xs := by
  induction space with
  | nil => exact h
  | cons c space ih =>
    rw [List.forall_mem_cons] at hspace
    exact .space hspace.1 (ih hspace.2)

/-- An attribute among others has those before it and those after it. -/
theorem AttributesIn.exists_of_mem (h : AttributesIn cs xs) (hx : x ∈ xs) :
    ∃ xs₁ xs₂ cs₁ source cs₂, xs = xs₁ ++ x :: xs₂ ∧ cs = cs₁ ++ (source ++ cs₂) ∧
      AttributesIn cs₁ xs₁ ∧ x.WrittenAs source ∧ AttributesIn cs₂ xs₂ := by
  induction h with
  | nil => contradiction
  | @space c cs xs hc _ ih =>
    obtain ⟨xs₁, xs₂, cs₁, source, cs₂, hxs, rfl, hbefore, hsource, hafter⟩ := ih hx
    exact ⟨xs₁, xs₂, c :: cs₁, source, cs₂, hxs, rfl, .space hc hbefore, hsource, hafter⟩
  | @cons y written cs xs hy hrest ih =>
    rcases List.mem_cons.1 hx with rfl | hx
    · exact ⟨[], xs, [], written, cs, rfl, rfl, .nil, hy, hrest⟩
    · obtain ⟨xs₁, xs₂, cs₁, source, cs₂, rfl, rfl, hbefore, hsource, hafter⟩ := ih hx
      exact ⟨y :: xs₁, xs₂, written ++ cs₁, source, cs₂, rfl, by simp, .cons hy hbefore,
        hsource, hafter⟩

namespace Attribute

/-- Skipped space is space before what is left. -/
theorem exists_skipSpace (cs : List Char) :
    ∃ space, cs = space ++ skipSpace cs ∧ ∀ c ∈ space, isSpace c = true :=
  ⟨cs.takeWhile isSpace, List.takeWhile_append_dropWhile.symm,
    List.all_eq_true.1 List.all_takeWhile⟩

theorem exists_afterEquals? (h : afterEquals? total cs = .ok rest) :
    ∃ space, cs = space ++ '=' :: rest ∧ ∀ c ∈ space, isSpace c = true := by
  obtain ⟨space, hcs, hspace⟩ := exists_skipSpace cs
  unfold afterEquals? at h
  split at h
  · contradiction
  · next c left hskip =>
    split_ifs at h with hc
    obtain rfl := Except.ok.inj h
    exact ⟨space, by rw [hcs, hskip, hc], hspace⟩

theorem exists_value? (h : value? total cs = .ok (value, rest)) :
    ∃ space quote, cs = space ++ quote :: (value ++ quote :: rest) ∧
      (∀ c ∈ space, isSpace c = true) ∧ (quote = '"' ∨ quote = '\'') ∧ quote ∉ value := by
  obtain ⟨space, hcs, hspace⟩ := exists_skipSpace cs
  unfold value? at h
  split at h
  · contradiction
  · next quote left hskip =>
    split_ifs at h with hquote
    split at h
    · contradiction
    · next c after hdrop =>
      obtain ⟨rfl, rfl⟩ := Prod.mk.inj (Except.ok.inj h)
      have hsplit := List.takeWhile_append_dropWhile (p := (· ≠ quote)) (l := left)
      have hc : c = quote := by
        have hhead := List.head?_dropWhile_not (· ≠ quote) left
        rw [hdrop] at hhead
        simpa using hhead
      rw [hdrop, hc] at hsplit
      refine ⟨space, quote, ?_, hspace, hquote, fun hmem => ?_⟩
      · rw [hcs, hskip, hsplit]
      · simpa using List.all_eq_true.1 List.all_takeWhile quote hmem

/-- Attributes that are read are written in the characters. -/
theorem attributesIn_of_scan {distinct : Bool} {seen : List (List Char × List Char)}
    (h : scan distinct total seen cs = (xs, none)) : AttributesIn cs xs := by
  fun_induction scan distinct total seen cs generalizing xs with
  | case1 seen cs hskip =>
    obtain ⟨rfl, -⟩ := Prod.mk.inj h
    obtain ⟨space, hcs, hspace⟩ := exists_skipSpace cs
    rw [hskip] at hcs
    rw [hcs]
    exact AttributesIn.nil.append_space hspace
  | case2 => cases (Prod.mk.inj h).2
  | case3 => cases (Prod.mk.inj h).2
  | case4 => cases (Prod.mk.inj h).2
  | case5 seen cs k r hskip key left hequals hfound value rest hvalue attributes
      fault hscan =>
    obtain ⟨rfl, rfl⟩ := Prod.mk.inj h
    obtain ⟨space, hcs, hspace⟩ := exists_skipSpace cs
    obtain ⟨space', hafter, hspace'⟩ := exists_afterEquals? hequals
    obtain ⟨space'', quote, hquoted, hspace'', hquote, hnot⟩ := exists_value? hvalue
    have hkey : k :: r = key ++ (space' ++ '=' :: left) := by
      rw [← hafter, List.cons_append, List.takeWhile_append_dropWhile]
    have hwritten : RawAttribute.WrittenAs ⟨key, value⟩
        (key ++ (space' ++ '=' :: (space'' ++ quote :: (value ++ [quote])))) :=
      ⟨space', space'', quote, rfl, hspace', hspace'', hquote, hnot⟩
    rename_i ih
    have hall := ((ih hscan).cons hwritten).append_space hspace
    rw [hcs, hskip, hkey, hquoted]
    simpa using hall

end Attribute

/-- Each attribute of a tag that is read without a fault stands somewhere in it. -/
theorem Tag.exists_places {t : Tag} (h : t.attributes.2 = none) (hx : x ∈ t.attributes.1) :
    ∃ before source, t.Places x before source := by
  have hread : AttributesIn t.rest t.attributes.1 :=
    Attribute.attributesIn_of_scan (Prod.ext rfl h)
  obtain ⟨xs₁, xs₂, cs₁, source, cs₂, hxs, hrest, hbefore, hsource, hafter⟩ :=
    hread.exists_of_mem hx
  exact ⟨t.name ++ cs₁, source, xs₁, xs₂, cs₁, cs₂, hxs, hrest, rfl, hbefore, hsource, hafter⟩

/-- The attribute as it is written is a part of the content of the tag. -/
theorem Tag.Places.content {t : Tag} {before source : List Char} (h : t.Places x before source) :
    x.WrittenAs source ∧ ∃ after, t.content = before ++ (source ++ after) := by
  obtain ⟨xs, xs', cs, cs', -, hrest, rfl, -, hsource, -⟩ := h
  exact ⟨hsource, cs', by rw [Tag.content, hrest, List.append_assoc]⟩

/-! ## Tags in the text -/

/-- The text of an event that begins an element is a bracket and the content of its tag. -/
theorem exists_left_of_tag {t : Token} {source : List Char} {opened : List (List Char)} {e : Event}
    {tag : Tag} (hstep : step cs = .token t source rest) (he : Event.ofToken? opened t = .ok e)
    (htag : e.tag? = some tag) : ∃ left, cs = '<' :: (tag.content ++ left) := by
  obtain ⟨content, rfl, -⟩ := prefix_of_ofToken? he htag
  obtain ⟨-, left, rfl⟩ := content_of_step hstep
  obtain rfl := Except.ok.inj he
  unfold Event.ofTag at htag
  split_ifs at htag with hslash
  · obtain rfl := Option.some.inj htag
    obtain ⟨init, rfl⟩ := List.getLast?_eq_some_iff.1 hslash
    rw [List.dropLast_concat, Tag.content_ofContent]
    exact ⟨'/' :: left, by simp⟩
  · obtain rfl := Option.some.inj htag
    rw [Tag.content_ofContent]
    exact ⟨left, rfl⟩

/-! ## The root element -/

namespace Occurring

variable {q : Occurring} {s s' : WellFormed.State} {text : List Char}

/-- The outermost elements so far, complete or not, with the offsets at which they begin. -/
def begun (q : Occurring) : List (Nat × Tag) :=
  (q.roots.reverse ++ q.opened.reverse).map fun e => (e.offset, e.tag)

theorem head?_begun_cons (roots bs : List Occurrence) (b : Occurrence) :
    (begun ⟨b :: bs, roots⟩).head? = (begun ⟨bs, roots⟩).head?.or (some (b.offset, b.tag)) := by
  simp [begun, List.head?_append]

theorem head?_begun_put (q : Occurring) (e : Occurrence) :
    (q.put e).begun.head? = q.begun.head?.or (some (e.offset, e.tag)) := by
  obtain ⟨opened, roots⟩ := q
  cases opened with
  | nil => simp [begun, put, List.head?_append]
  | cons b bs =>
    rw [put, head?_begun_cons, head?_begun_cons, Option.or_assoc]
    rfl

/-- The first of the outermost elements is that of the first tag. -/
theorem head?_begun_add (q : Occurring) (offset : Nat) (e : Event) :
    (q.add offset e).begun.head? = q.begun.head?.or (e.tag?.map (offset, ·)) := by
  cases e with
  | start tag => exact head?_begun_cons q.roots q.opened ⟨offset, tag, []⟩
  | empty tag => exact head?_begun_put q ⟨offset, tag, []⟩
  | close name =>
    obtain ⟨opened, roots⟩ := q
    cases opened with
    | nil => exact (Option.or_none).symm
    | cons b bs =>
      rw [add, head?_begun_put, head?_begun_cons]
      exact (Option.or_none).symm
  | _ => exact (Option.or_none).symm

theorem head?_begun_run (q : Occurring) (events : List (Nat × Event)) :
    (q.run events).begun.head? =
      q.begun.head?.or (events.findSome? fun e => e.2.tag?.map (e.1, ·)) := by
  induction events generalizing q with
  | nil => simp [run]
  | cons e events ih =>
    rw [run_cons, ih, head?_begun_add, List.findSome?_cons, Option.or_assoc]
    cases e.2.tag? <;> simp

/-- Whether the check of a document and its elements agree: as many elements are open, and there is
no root, complete or not, before the check has seen one, and then one at most. -/
structure Rooted (s : WellFormed.State) (q : Occurring) : Prop where
  opened : q.opened.length = s.opened.length
  roots : q.roots.length + min 1 q.opened.length ≤ s.rootSeen.toNat

/-- Where a tag is accepted that begins an element, no root is complete. -/
theorem Rooted.roots_eq_nil (h : Rooted s q) (hguard : (s.opened.isEmpty && s.rootSeen) = false) :
    q.roots = [] := by
  obtain ⟨hopened, hroots⟩ := h
  have hle := s.rootSeen.toNat_le
  refine List.eq_nil_of_length_eq_zero ?_
  cases hs : s.opened with
  | nil =>
    rw [hs, List.isEmpty_nil, Bool.true_and] at hguard
    rw [hguard, Bool.toNat_false] at hroots
    omega
  | cons o os =>
    rw [hs, List.length_cons] at hopened
    omega

theorem guard_of_step {offset : Nat} {e : Event} {tag : Tag} (htag : e.tag? = some tag)
    (h : WellFormed.step text s offset e = .ok s') : (s.opened.isEmpty && s.rootSeen) = false := by
  refine Bool.eq_false_iff.2 fun hguard => ?_
  cases e with
  | start tag' =>
    simp only [WellFormed.step, hguard, if_true] at h
    contradiction
  | empty tag' =>
    simp only [WellFormed.step, hguard, if_true] at h
    contradiction
  | _ => contradiction

/-- An element that is complete becomes a root if no other is open. -/
theorem rooted_put {e : Occurrence} (hopened : q.opened.length = s.opened.length)
    (hroots : q.roots.length + 1 ≤ s.rootSeen.toNat) : Rooted s (q.put e) := by
  refine ⟨by rw [length_opened_put, hopened], ?_⟩
  obtain ⟨opened, roots⟩ := q
  cases opened with
  | nil => exact hroots
  | cons b bs =>
    have hroots : roots.length + 1 ≤ s.rootSeen.toNat := hroots
    show roots.length + min 1 (bs.length + 1) ≤ s.rootSeen.toNat
    omega

theorem rooted_add {offset : Nat} {e : Event} (h : Rooted s q)
    (hstep : WellFormed.step text s offset e = .ok s') : Rooted s' (q.add offset e) := by
  cases e with
  | start tag =>
    obtain ⟨-, rfl⟩ := WellFormed.step_start hstep
    refine ⟨congrArg (· + 1) h.opened, ?_⟩
    show q.roots.length + min 1 (q.opened.length + 1) ≤ 1
    rw [h.roots_eq_nil (guard_of_step rfl hstep), List.length_nil]
    omega
  | empty tag =>
    obtain ⟨-, rfl⟩ := WellFormed.step_empty hstep
    refine rooted_put h.opened ?_
    rw [h.roots_eq_nil (guard_of_step rfl hstep)]
    exact Nat.le_refl 1
  | close name =>
    obtain rfl := Except.ok.inj hstep
    obtain ⟨opened, roots⟩ := q
    obtain ⟨hopened, hroots⟩ := h
    cases opened with
    | nil =>
      refine ⟨?_, hroots⟩
      rw [List.length_drop, ← hopened]
      rfl
    | cons b bs =>
      have hlength : bs.length + 1 = s.opened.length := hopened
      have hroots : roots.length + min 1 (bs.length + 1) ≤ s.rootSeen.toNat := hroots
      refine rooted_put (q := ⟨bs, roots⟩) ?_ ?_
      · show bs.length = (s.opened.drop 1).length
        rw [List.length_drop]
        omega
      · show roots.length + 1 ≤ s.rootSeen.toNat
        omega
  | text raw =>
    obtain ⟨-, rfl⟩ := WellFormed.step_text hstep
    exact h
  | _ =>
    obtain rfl := Except.ok.inj hstep
    exact h

theorem rooted_run {events : List (Nat × Event)} (h : Rooted s q)
    (hrun : WellFormed.run text s events = .ok s') : Rooted s' (q.run events) := by
  induction events generalizing s q with
  | nil =>
    obtain rfl := Except.ok.inj hrun
    exact h
  | cons e events ih =>
    obtain ⟨next, hstep, hrun⟩ := bind_eq_ok_iff.1 hrun
    exact ih (rooted_add h hstep) hrun

end Occurring

variable {text : String}

/-- At the end of a well-formed document no element is open, and there is one root at most. -/
theorem rooted_of_checkWellFormed (h : checkWellFormed text = .ok ()) :
    (Occurring.ofText text.toList).opened = [] ∧ (occurrences text.toList).length ≤ 1 := by
  obtain ⟨-, s, hrun, hopened, hseen⟩ := checkWellFormed_ok h
  have hstart : Occurring.Rooted .initial ⟨[], []⟩ := ⟨rfl, Nat.le_refl 0⟩
  obtain ⟨hlength, hroots⟩ := Occurring.rooted_run hstart hrun
  rw [hopened, List.length_nil, List.length_eq_zero_iff] at hlength
  refine ⟨hlength, ?_⟩
  rw [hseen] at hroots
  rw [occurrences, List.length_reverse]
  exact Nat.le_trans (Nat.le_add_right _ _) hroots

/-- The tag of the root element is the first among the events of a well-formed document. -/
theorem findSome?_tag_of_root (h : checkWellFormed text = .ok ()) {e : Occurrence}
    (he : e ∈ occurrences text.toList) :
    ((Event.reading text.toList).events.findSome? fun x => x.2.tag?.map (x.1, ·)) =
      some (e.offset, e.tag) := by
  obtain ⟨hopened, hlength⟩ := rooted_of_checkWellFormed h
  have hone : occurrences text.toList = [e] := by
    obtain ⟨e', h⟩ := List.length_eq_one_iff.1
      (Nat.le_antisymm hlength (List.length_pos_of_mem he))
    rw [h, List.mem_singleton] at he
    rw [h, he]
  have hbegun : (Occurring.ofText text.toList).begun = [(e.offset, e.tag)] := by
    rw [Occurring.begun, hopened, List.reverse_nil, List.append_nil]
    show (occurrences text.toList).map _ = _
    rw [hone]
    rfl
  have hfirst := Occurring.head?_begun_run ⟨[], []⟩ (Event.reading text.toList).events
  rw [show Occurring.run _ _ = Occurring.ofText text.toList from rfl, hbegun] at hfirst
  exact hfirst.symm

end LsxKit.Xml
