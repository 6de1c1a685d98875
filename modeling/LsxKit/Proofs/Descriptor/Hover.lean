import LsxKit.Proofs.Descriptor.Bump
import LsxKit.Proofs.Descriptor.Entry
import LsxKit.Proofs.Descriptor.Frame
import LsxKit.Proofs.Descriptor.LineEnds
import LsxKit.Proofs.Tree.Shown
import LsxKit.Proofs.Version.Line

/-!
# The version in a line of a saved descriptor

The version is shown for the line in which its element stands. A bump writes the digits of a number
to that element. When the descriptor is saved, the element is on one line, and what stands before it
there are start tags of the elements around it and a text, so it is the first of its form there.

* `ShowsVersion`: whether the version of a descriptor is read from a line of its text.
* `savedChars?`, `toXml_eq_ok_iff`: the characters of the saved text.
* `writtenDocument_run`: edits keep that a descriptor can be saved.
* `shown_version`, `exists_line_of_marks`: the element is shown in the tree, and so on a line.
* `showsVersion_of_bump`: after a bump the version is read from a line.
-/

namespace LsxKit.Descriptor

open Json LsxKit.Tree Version Text
open Xml (Mark spaceEmptyTags Shown Keyed elementNames attributeNames)

variable {d s s' : Descriptor} {text value : String} {good : String → Prop}

/-- Whether a descriptor has a version that is read from some line of its text. -/
def ShowsVersion (d : Descriptor) : Prop :=
  ∃ saved line v, d.toXml = .ok saved ∧ line ∈ lines saved.toList ∧ d.version = .ok v ∧
    inLine? (String.ofList line) = some v

/-- The characters of the text of a descriptor, if it can be saved. -/
def savedChars? (d : Descriptor) : Option (List Char) :=
  (marks .descriptor d.tree).toOption.map fun ms =>
    let cs := spaceEmptyTags (Mark.layout 0 false ms) ++ if d.endsLine then ['\n'] else []
    if d.crlf then toCrlf cs else cs

theorem toXml_eq_ok_iff {saved : String} :
    d.toXml = .ok saved ↔ ∃ cs ∈ savedChars? d, String.ofList cs = saved := by
  unfold toXml Tree.write savedChars?
  cases marks .descriptor d.tree with
  | error fault => simp [Except.toOption, bind, Except.bind]
  | ok ms => simp [Except.toOption, bind, Except.bind, pure, Except.pure]

/-- The version in a line is known from its characters. -/
theorem inLine?_ofList (line : List Char) :
    inLine? (String.ofList line) = ((firstDigits? line).bind Version.packed?).map unpack := by
  rw [inLine?, String.toList_ofList]
  cases firstDigits? line with
  | none => rfl
  | some digits => cases h : Version.packed? digits <;> simp [h]

instance (d : Descriptor) : Decidable (ShowsVersion d) :=
  decidable_of_iff (∃ cs ∈ savedChars? d, ∃ v ∈ d.version.toOption,
      ∃ line ∈ lines cs, ((firstDigits? line).bind Version.packed?).map unpack = some v) <| by
    constructor
    · rintro ⟨cs, hcs, v, hv, line, hline, hshown⟩
      refine ⟨_, line, v, toXml_eq_ok_iff.2 ⟨cs, hcs, rfl⟩, ?_, ok_of_toOption hv, ?_⟩
      · rwa [String.toList_ofList]
      · rwa [inLine?_ofList]
    · rintro ⟨saved, line, v, hxml, hline, hv, hshown⟩
      obtain ⟨cs, hcs, rfl⟩ := toXml_eq_ok_iff.1 hxml
      rw [String.toList_ofList] at hline
      rw [inLine?_ofList] at hshown
      exact ⟨cs, hcs, v, by rw [hv]; rfl, line, hline, hshown⟩

/-! ## Descriptors that can be saved -/

/-- An edit writes no attribute but `value`. -/
theorem writtenDocument_set {field : ModuleField} (hvalue : good "value")
    (h : WrittenDocument .descriptor good s.tree) (hset : s.set field value = .ok s') :
    WrittenDocument .descriptor good s'.tree := by
  obtain ⟨node, q, own, hnode, hown, hfind, rfl⟩ := set_eq_ok hset
  obtain ⟨hq, -, hat⟩ := attribute?_spec hnode hfind
  obtain ⟨-, r, ⟨-, hhead, hgroup⟩, hpath⟩ := attributePlaces_reached (reached_node? hnode) hq
  rw [hpath, hown] at hat
  show WrittenDocument .descriptor good (s.tree.replaceAt q.path _)
  rw [hpath]
  refine writtenDocument_replaceAt rfl (by decide) hgroup hhead (fun hgood k hk => ?_) h hat
  rcases Entries.mem_keys_insert.1 hk with rfl | hk
  · exact hvalue
  · exact hgood k hk

/-- Edits keep that a descriptor can be saved. -/
theorem writtenDocument_run (hvalue : good "value")
    (h : WrittenDocument .descriptor good d.tree) (edits : List Edit) :
    WrittenDocument .descriptor good (d.run edits).tree := by
  induction edits generalizing d with
  | nil => exact h
  | cons e edits ih =>
    refine ih (d := d.edit e) ?_
    rcases edit_cases d e with he | ⟨field, value, hset⟩
    · rwa [he]
    · exact writtenDocument_set hvalue h hset

/-! ## The element of the version -/

/-- The mark of the element of the version. -/
def versionMark (value : String) : Mark :=
  .empty "attribute" (versionAttributes value)

/-- The element has no other marks. -/
theorem valueMarks_version (value : String) :
    valueMarks .descriptor "attribute" (bareElement (versionAttributes value)) =
      .ok [versionMark value] := by
  rfl

theorem getLast?_versionMark (value : String) :
    (versionMark value).chars.getLast? = some '>' := by
  rw [versionMark, Mark.chars, List.getLast?_append]
  rfl

/-- It is written in the form that is read from a line. -/
theorem spaceEmptyTags_versionMark (n : Nat) :
    spaceEmptyTags (versionMark (toString n)).chars = elementChars (Nat.toDigits 10 n) := by
  have hescape : Xml.escape (Nat.toDigits 10 n) = Nat.toDigits 10 n := by
    refine (List.flatMap_congr fun c hc => ?_).trans (List.flatMap_singleton' _)
    have hdigit : c.isDigit = true := (spellsNumber_toDigits n).2.1 c hc
    unfold Xml.Reference.escapeChar
    split
    all_goals first | contradiction | rfl
  have hchars : (versionMark (toString n)).chars =
      elementFront (Nat.toDigits 10 n) ++ ['/', '>'] := by
    unfold elementFront
    simp only [versionMark, versionAttributes, Mark.chars, Mark.attributeChars, List.flatMap_cons,
      List.flatMap_nil, toList_toString, hescape]
    simp only [String.reduceToList, List.append_assoc, List.cons_append, List.nil_append,
      List.append_nil]
    rfl
  have hslash : (elementFront (Nat.toDigits 10 n)).getLast? ≠ some '/' := by
    rw [getLast?_elementFront]
    decide
  rw [hchars, Xml.spaceEmptyTags_append fun he => absurd he hslash,
    Xml.spaceEmptyTags_eq_self (not_mem_elementFront (.inr rfl) (not_mem_digits rfl n))]
  rfl

/-- The element is shown in the tree in which it stands. -/
theorem shown_version {tree : Value} {ms : List Mark}
    (h : Bare tree "Version64" (versionAttributes value)) (hms : marks .descriptor tree = .ok ms)
    (hkeyed : Keyed ('<' ∉ ·.toList) ms) : Shown (versionMark value).chars ms := by
  obtain ⟨path, helement⟩ := bare_iff.1 h
  obtain ⟨node, hnode, hfind⟩ := Option.bind_eq_some_iff.1 helement
  refine around_attribute hnode (List.mem_of_find?_eq_some hfind) _ ?_ ms hms hkeyed
  intro own hown _
  obtain rfl := Except.ok.inj ((valueMarks_version value).symm.trans hown)
  exact Xml.shown_empty _ _ _

/-! ## Lines of the saved text -/

/-- A tag that is written stands on a line of the saved text, after what stands before it on its
line. -/
theorem exists_line_of_marks {ms : List Mark} {before piece after : List Char}
    (hms : marks .descriptor d.tree = .ok ms)
    (hspaced : spaceEmptyTags (Mark.layout 0 false ms) = before ++ (piece ++ after))
    (hline : '\n' ∉ piece) (hlast : piece.getLast? = some '>') :
    ∃ cs ∈ savedChars? d, ∃ rest, lastLine before ++ (piece ++ rest) ∈ lines cs := by
  have hsaved : ∃ before' rest', before' ++ (piece ++ rest') ∈ savedChars? d ∧
      lastLine before' = lastLine before := by
    simp only [savedChars?, hms, Except.toOption, Option.map_some, hspaced, List.append_assoc,
      Option.mem_some]
    cases d.crlf with
    | true =>
      refine ⟨toCrlf before, toCrlf (after ++ if d.endsLine then ['\n'] else []), ?_,
        lastLine_toCrlf before⟩
      rw [if_pos rfl, toCrlf_append, toCrlf_append, toCrlf_of_not_mem hline]
    | false => exact ⟨before, _, rfl, rfl⟩
  obtain ⟨before', rest', hcs, hbefore⟩ := hsaved
  have hne : piece ≠ [] := by
    rintro rfl
    contradiction
  have hend : piece.getLast? ≠ some '\r' := by
    rw [hlast]
    decide
  obtain ⟨rest, hget⟩ := exists_line_at hne hline hend before' rest'
  rw [hbefore] at hget
  exact ⟨_, hcs, rest, List.mem_of_getElem? hget⟩

/-- After a bump of a descriptor that was read, and perhaps edited before, the version is read from
a line, if no element has the name of a group of attributes and no bracket is in the name of an
attribute. -/
theorem showsVersion_of_bump {kind : VersionKind} {b : Version}
    (hparse : Descriptor.parse text = .ok d)
    (helements : attributesGroup ∉ elementNames text)
    (hkeys : ∀ k ∈ attributeNames text, '<' ∉ k.toList)
    (hbare : Bare d.tree "Version64" (versionAttributes value)) (edits : List Edit)
    (hbump : (d.run edits).bump kind = .ok (s', b)) : ShowsVersion s' := by
  have hset := set_eq_of_bump hbump
  obtain ⟨-, -, -, hpacked⟩ := bump_eq_ok hbump
  -- The tree has marks, and the element of the version is shown in them with the number.
  have hwritten : WrittenDocument .descriptor ('<' ∉ ·.toList) s'.tree :=
    writtenDocument_set (by decide) (writtenDocument_run (by decide)
      (writtenDocument_of_parse rfl (by decide) helements hkeys (parse_eq_ok hparse).1) edits) hset
  obtain ⟨ms, hms, hkeyed⟩ := hwritten
  obtain ⟨value', hbefore⟩ := bare_run hbare edits
  have hafter : Bare s'.tree "Version64" (versionAttributes (toString b.pack.toNat)) :=
    bare_set hbefore hset
  have hshown := shown_version hafter hms hkeyed
  -- So the number stands on a line of the saved text, in the form that is read from it.
  obtain ⟨before, after, hspaced, hcalm⟩ :=
    Xml.exists_written_of_shown hshown rfl (getLast?_versionMark _)
  rw [spaceEmptyTags_versionMark] at hspaced
  have hnot : '\n' ∉ elementChars (Nat.toDigits 10 b.pack.toNat) := by
    rw [elementChars, List.mem_append, not_or]
    exact ⟨not_mem_elementFront (.inl rfl) (not_mem_digits rfl _), by decide⟩
  have hlast : (elementChars (Nat.toDigits 10 b.pack.toNat)).getLast? = some '>' := by
    rw [elementChars, List.getLast?_append]
    rfl
  obtain ⟨cs, hcs, rest, hline⟩ := exists_line_of_marks hms hspaced hnot hlast
  rw [← String.toList_ofList (l := cs)] at hline
  exact ⟨_, _, _, toXml_eq_ok_iff.2 ⟨cs, hcs, rfl⟩, hline, version_eq_ok_iff.2 ⟨_, hpacked, rfl⟩,
    inLine?_written hcalm b.pack rest⟩

/-- Two bumps of a version after a text, in a descriptor with carriage returns. -/
theorem showsVersion_of_bump_twice :
    ∃ d s' b, Descriptor.parse
        (textWith "x\r\n<attribute id=\"Version64\" type=\"int64\" value=\" 7 \"/>") = .ok d ∧
      (d.run [.bump .build]).bump .minor = .ok (s', b) ∧ ShowsVersion s' := by
  have hread : (Descriptor.parse (textWith
      "x\r\n<attribute id=\"Version64\" type=\"int64\" value=\" 7 \"/>")).toOption.bind (fun d =>
        ((d.run [.bump .build]).bump .minor).toOption.map fun r =>
          (decide (Bare d.tree "Version64" (versionAttributes " 7 ")), r.2)) =
      some (true, ⟨0, 1, 0, 0⟩) := by decide +kernel
  obtain ⟨d, hparse, hread⟩ := Option.bind_eq_some_iff.1 hread
  obtain ⟨⟨s', b⟩, hbump, hread⟩ := Option.map_eq_some_iff.1 hread
  have hbare := of_decide_eq_true (Prod.mk.inj hread).1
  have hd := ok_of_toOption hparse
  exact ⟨d, s', b, hd, ok_of_toOption hbump,
    showsVersion_of_bump hd (by decide +kernel) (by decide +kernel) hbare _ (ok_of_toOption hbump)⟩

/-- A text of which a bumped descriptor does not show its version. -/
theorem exists_not_showsVersion (text : String)
    (h : (Descriptor.parse text).toOption.bind (fun d => (d.bump .build).toOption.map fun r =>
      (decide (Bare d.tree "Version64" (versionAttributes "1")), decide (ShowsVersion r.1))) =
        some (true, false)) :
    ∃ d s' b, Descriptor.parse text = .ok d ∧ Bare d.tree "Version64" (versionAttributes "1") ∧
      d.bump .build = .ok (s', b) ∧ ¬ ShowsVersion s' := by
  obtain ⟨d, hparse, h⟩ := Option.bind_eq_some_iff.1 h
  obtain ⟨⟨s', b⟩, hbump, h⟩ := Option.map_eq_some_iff.1 h
  obtain ⟨hbare, hnot⟩ := Prod.mk.inj h
  exact ⟨d, s', b, ok_of_toOption hparse, of_decide_eq_true hbare, ok_of_toOption hbump,
    of_decide_eq_false hnot⟩

/-- With an element in the place of a group of attributes a descriptor may be impossible to save.
With a bracket in the name of an attribute another element of the form may stand before that of the
version. -/
theorem not_showsVersion_of_bump :
    (¬ ∀ text d value, Descriptor.parse text = .ok d →
      Bare d.tree "Version64" (versionAttributes value) →
      (∀ k ∈ attributeNames text, '<' ∉ k.toList) →
      ∀ kind s' b, d.bump kind = .ok (s', b) → ShowsVersion s') ∧
    ¬ ∀ text d value, Descriptor.parse text = .ok d →
      Bare d.tree "Version64" (versionAttributes value) →
      attributesGroup ∉ elementNames text →
      ∀ kind s' b, d.bump kind = .ok (s', b) → ShowsVersion s' := by
  constructor
  · intro hall
    obtain ⟨d, s', b, hparse, hbare, hbump, hnot⟩ := exists_not_showsVersion (textWith
      "<attribute id=\"Version64\" type=\"int64\" value=\"1\"/><x a=\"1\"><_@_/></x>")
      (by decide +kernel)
    exact hnot (hall _ d _ hparse hbare (by decide +kernel) _ s' b hbump)
  · intro hall
    -- The closing bracket is inside quotes, so that the tag goes on; read by its attributes, the
    -- quotes are parts of their names.
    obtain ⟨d, s', b, hparse, hbare, hbump, hnot⟩ := exists_not_showsVersion
      ("<save><region><node id=\"root\"><children><node id=\"ModuleInfo\" a'=\"1\" " ++
        "<attribute\u2003id=\"Version64\" type=\"int64\" value=\"5\" />'=\"2\">x" ++
        "<attribute id=\"Version64\" type=\"int64\" value=\"1\"/>" ++
        "</node></children></node></region></save>")
      (by decide +kernel)
    exact hnot (hall _ d _ hparse hbare (by decide +kernel) _ s' b hbump)

end LsxKit.Descriptor
