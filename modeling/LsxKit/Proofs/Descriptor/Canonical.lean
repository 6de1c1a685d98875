import LsxKit.Proofs.Descriptor.Save

/-!
# Saved descriptors as fixed points

A saved descriptor that is read and saved once more stays as it is, character by character, and so
it does with the other kind of line ends, provided that no line ends inside its texts.

* `ofCrlf`: a text with the carriage returns before line feeds taken away.
* `noLineEnd_chars`: what is written of a tree without line ends has none inside a mark.
* `exists_parse_spaced`: all that is known of a descriptor that is read from marks.
* `toXml_fixed`: saved texts are fixed points of reading and saving.
-/

namespace LsxKit

open Json

/-! ## Texts without line ends -/

/-- A text without carriage returns and line feeds. -/
def NoLineEnd (s : List Char) : Prop := '\r' ∉ s ∧ '\n' ∉ s

instance (s : List Char) : Decidable (NoLineEnd s) := inferInstanceAs (Decidable (_ ∧ _))

@[simp] theorem noLineEnd_nil : NoLineEnd [] := ⟨List.not_mem_nil, List.not_mem_nil⟩

@[simp] theorem noLineEnd_append {s t : List Char} :
    NoLineEnd (s ++ t) ↔ NoLineEnd s ∧ NoLineEnd t := by
  simp only [NoLineEnd, List.mem_append, not_or]
  exact and_and_and_comm

@[simp] theorem noLineEnd_cons {c : Char} {s : List Char} :
    NoLineEnd (c :: s) ↔ (c ≠ '\r' ∧ c ≠ '\n') ∧ NoLineEnd s := by
  simp only [NoLineEnd, List.mem_cons, not_or, ne_eq, eq_comm]
  exact and_and_and_comm

namespace Xml

open Reference

theorem noLineEnd_of_isName {name : String} (h : isName name = true) : NoLineEnd name.toList :=
  ⟨not_mem_of_isName h (by decide), not_mem_of_isName h (by decide)⟩

theorem noLineEnd_escape {s : List Char} (h : NoLineEnd s) : NoLineEnd (escape s) := by
  induction s with
  | nil => exact noLineEnd_nil
  | cons c s ih =>
    have hcons : escape (c :: s) = escapeChar c ++ escape s := rfl
    rw [noLineEnd_cons] at h
    rw [hcons, noLineEnd_append]
    refine ⟨?_, ih h.2⟩
    unfold escapeChar
    split <;> simp [h.1]

/-- The texts of a mark, names apart. -/
def Mark.texts : Mark → List String
  | .declaration version encoding standalone => version :: (encoding.toList ++ standalone.toList)
  | .start _ attributes => attributes.map Prod.snd
  | .empty _ attributes => attributes.map Prod.snd
  | .close _ => []
  | .text s => [s]

theorem noLineEnd_attributesChars {attributes : List (String × String)}
    (hnames : ∀ a ∈ attributes, isName a.1 = true)
    (h : ∀ s ∈ attributes.map Prod.snd, NoLineEnd s.toList) :
    NoLineEnd (attributesChars attributes) := by
  induction attributes with
  | nil => exact noLineEnd_nil
  | cons a attributes ih =>
    rw [List.map_cons, List.forall_mem_cons] at h
    rw [List.forall_mem_cons] at hnames
    have hcons : attributesChars (a :: attributes) =
        Mark.attributeChars a ++ attributesChars attributes := rfl
    rw [hcons, noLineEnd_append, attributeChars_eq, fieldChars]
    refine ⟨?_, ih hnames.2 h.2⟩
    simp [noLineEnd_of_isName hnames.1, noLineEnd_escape h.1]

theorem noLineEnd_optionalChars {key : List Char} (hkey : NoLineEnd key) {value : Option String}
    (h : ∀ s ∈ value.toList, NoLineEnd s.toList) : NoLineEnd (optionalChars key value) := by
  cases value with
  | none => exact noLineEnd_nil
  | some s =>
    have hs : NoLineEnd s.toList := h s (List.mem_singleton_self s)
    simp [optionalChars, declaredChars_eq, fieldChars, hkey, hs]

/-- A mark has line ends in its texts only. -/
theorem noLineEnd_chars {m : Mark} (hm : m.Clean) (h : ∀ s ∈ m.texts, NoLineEnd s.toList) :
    NoLineEnd m.chars := by
  cases m with
  | declaration version encoding standalone =>
    simp only [Mark.texts, List.forall_mem_cons, List.forall_mem_append] at h
    have hversion : NoLineEnd (Mark.declaredChars ['v', 'e', 'r', 's', 'i', 'o', 'n'] version) := by
      simp [declaredChars_eq, fieldChars, h.1]
    have hencoding := noLineEnd_optionalChars
      (by decide : NoLineEnd ['e', 'n', 'c', 'o', 'd', 'i', 'n', 'g']) h.2.1
    have hstandalone := noLineEnd_optionalChars
      (by decide : NoLineEnd ['s', 't', 'a', 'n', 'd', 'a', 'l', 'o', 'n', 'e']) h.2.2
    simp [chars_declaration, declarationChars, hversion, hencoding, hstandalone]
  | start name attributes =>
    have hattributes := noLineEnd_attributesChars hm.2.1 h
    rw [attributesChars] at hattributes
    simp [Mark.chars, noLineEnd_of_isName hm.1, hattributes]
  | empty name attributes =>
    have hattributes := noLineEnd_attributesChars hm.2.1 h
    rw [attributesChars] at hattributes
    simp [Mark.chars, noLineEnd_of_isName hm.1, hattributes]
  | close name =>
    have hname : isName name = true := hm
    simp [Mark.chars, noLineEnd_of_isName hname]
  | text s => exact noLineEnd_escape (h s (List.mem_singleton_self s))

/-- A layout adds no carriage returns. -/
theorem not_mem_layout {ms : List Mark} (h : ∀ m ∈ ms, NoLineEnd m.chars) (depth : Nat)
    (breakLine : Bool) : '\r' ∉ Mark.layout depth breakLine ms := by
  induction ms generalizing depth breakLine with
  | nil => exact List.not_mem_nil
  | cons m ms ih =>
    rw [List.forall_mem_cons] at h
    obtain ⟨gap, depth', breakLine', hgap, -, hlayout⟩ := layout_cons_indent depth breakLine m ms
    rw [hlayout, List.mem_append, List.mem_append, not_or, not_or]
    refine ⟨fun hmem => ?_, h.1.1, ih h.2 depth' breakLine'⟩
    rcases hgap _ hmem with hc | hc <;> contradiction

/-- The last line of a layout is not ended. -/
theorem getLast?_layout {ms : List Mark} (h : ∀ m ∈ ms, NoLineEnd m.chars) (depth : Nat)
    (breakLine : Bool) : (Mark.layout depth breakLine ms).getLast? ≠ some '\n' := by
  induction ms generalizing depth breakLine with
  | nil => exact nofun
  | cons m ms ih =>
    rw [List.forall_mem_cons] at h
    obtain ⟨gap, depth', breakLine', -, hnil, hlayout⟩ := layout_cons_indent depth breakLine m ms
    have hrest := ih h.2 depth' breakLine'
    have hchars : m.chars.getLast? ≠ some '\n' := fun hlast => h.1.2 (List.mem_of_getLast? hlast)
    rw [hlayout, List.getLast?_append, List.getLast?_append]
    intro hlast
    rcases Option.or_eq_some_iff.1 hlast with hlast | ⟨hnone, hlast⟩
    · rcases Option.or_eq_some_iff.1 hlast with hlast | ⟨-, hlast⟩
      · exact hrest hlast
      · exact hchars hlast
    · -- an indentation at the end would be followed by a mark without characters
      have hempty : m.chars = [] := List.getLast?_eq_none_iff.1 (Option.or_eq_none_iff.1 hnone).2
      rw [hnil hempty] at hlast
      contradiction

theorem getLast?_spaceEmptyTags (s : List Char) : (spaceEmptyTags s).getLast? = s.getLast? := by
  fun_induction spaceEmptyTags s with
  | case1 => rfl
  | case2 cs ih => simp [List.getLast?_cons, ih]
  | case3 c cs _ ih => simp [List.getLast?_cons, ih]

end Xml

namespace Tree

variable {o : Options} {group : String}

theorem eq_self_of_map_eq_self {α : Type} {f : α → α} {as : List α} (h : as.map f = as) :
    ∀ a ∈ as, f a = a :=
  List.map_inj_left.1 (h.trans (List.map_id as).symm)

theorem texts_mapMark (f : String → String) (m : Xml.Mark) :
    (mapMark f m).texts = m.texts.map f := by
  cases m with
  | declaration version encoding standalone =>
    cases encoding <;> cases standalone <;> rfl
  | start name attributes => simp [mapMark, Xml.Mark.texts]
  | empty name attributes => simp [mapMark, Xml.Mark.texts]
  | close name => rfl
  | text s => rfl

/-- A change that leaves the texts of a tree alone leaves its marks alone. -/
theorem map_marks_eq_self {f : String → String} (hg : o.group = some group)
    (hconvert : o.convert = false) (hf : KeepsShape f) {tree : Value} (h : ShapedDocument o tree)
    (hfixed : ∀ s ∈ texts tree, f s = s) :
    (documentMarksOf o tree).map (mapMark f) = documentMarksOf o tree := by
  have hmarks := marks_mapText hg hconvert hf h
  rw [mapText_eq_self tree hfixed, marks_eq h] at hmarks
  exact (Except.ok.inj hmarks).symm

end Tree

namespace Descriptor

open LsxKit.Tree Xml

/-! ## Line ends there and back -/

/-- A text with the carriage returns before line feeds taken away. -/
def ofCrlf : List Char → List Char
  | '\r' :: '\n' :: s => '\n' :: ofCrlf s
  | c :: s => c :: ofCrlf s
  | [] => []

/-- A text with lines that end with a line feed alone. -/
def withLf (s : String) : String := String.ofList (ofCrlf s.toList)

theorem ofCrlf_cons {c : Char} {s : List Char} (h : c ≠ '\r' ∨ s.head? ≠ some '\n') :
    ofCrlf (c :: s) = c :: ofCrlf s := by
  rw [ofCrlf.eq_def]
  split
  · simp_all
  · next heq => simp_all
  · contradiction

theorem ofCrlf_of_not_mem {s : List Char} (h : '\r' ∉ s) : ofCrlf s = s := by
  induction s with
  | nil => rfl
  | cons c s ih =>
    rw [List.mem_cons, not_or] at h
    rw [ofCrlf_cons (.inl (Ne.symm h.1)), ih h.2]

theorem head?_toCrlf_ne (s : List Char) : (toCrlf s).head? ≠ some '\n' := by
  cases s with
  | nil => exact nofun
  | cons c s =>
    rw [toCrlf_cons]
    split_ifs with hc
    · simp
    · simpa using hc

/-- Line ends that were changed can be changed back. -/
theorem ofCrlf_toCrlf (s : List Char) : ofCrlf (toCrlf s) = s := by
  induction s with
  | nil => rfl
  | cons c s ih =>
    by_cases hc : c = '\n'
    · subst hc
      rw [toCrlf_cons, if_pos rfl]
      exact congrArg _ ih
    · rw [toCrlf_cons_of_ne hc, ofCrlf_cons (.inr (head?_toCrlf_ne s)), ih]

theorem hasCrlf_of_not_mem {s : List Char} (h : '\r' ∉ s) : hasCrlf s = false := by
  fun_induction hasCrlf s with
  | case1 => simp at h
  | case2 c s _ ih => exact ih fun hmem => h (List.mem_cons_of_mem c hmem)
  | case3 => rfl

theorem hasCrlf_toCrlf_iff {s : List Char} : hasCrlf (toCrlf s) = true ↔ '\n' ∈ s := by
  induction s with
  | nil => simp [hasCrlf]
  | cons c s ih =>
    by_cases hc : c = '\n'
    · simp [hc, toCrlf_cons, hasCrlf]
    · have hhead := head?_toCrlf_ne s
      have hskip : hasCrlf (c :: toCrlf s) = hasCrlf (toCrlf s) := by
        rw [hasCrlf.eq_def]
        split <;> simp_all
      rw [toCrlf_cons_of_ne hc, hskip, ih, List.mem_cons, or_iff_right (Ne.symm hc)]

/-- Whether line ends were changed shows in the text, unless nothing was changed. -/
theorem toCrlf_if_hasCrlf (s : List Char) :
    (if hasCrlf (toCrlf s) then toCrlf s else s) = toCrlf s := by
  split_ifs with h
  · rfl
  · exact (toCrlf_of_not_mem (mt hasCrlf_toCrlf_iff.2 h)).symm

theorem getLast?_toCrlf_iff {s : List Char} :
    (toCrlf s).getLast? = some '\n' ↔ s.getLast? = some '\n' := by
  refine ⟨getLast?_toCrlf, fun h => ?_⟩
  obtain ⟨init, rfl⟩ := List.getLast?_eq_some_iff.1 h
  rw [toCrlf_append, List.getLast?_append]
  rfl

/-! ## Marks without line ends -/

/-- A text with a tab in the place of every carriage return and every line feed. -/
def withTabs (s : String) : String :=
  String.ofList (s.toList.map fun c => if c = '\r' ∨ c = '\n' then '\t' else c)

theorem noLineEnd_of_withTabs {s : String} (h : withTabs s = s) : NoLineEnd s.toList := by
  rw [withTabs, ← String.toList_inj, String.toList_ofList] at h
  have hself := eq_self_of_map_eq_self h
  constructor
  · intro hmem
    have htab := hself _ hmem
    rw [if_pos (.inl rfl)] at htab
    contradiction
  · intro hmem
    have htab := hself _ hmem
    rw [if_pos (.inr rfl)] at htab
    contradiction

theorem withTabs_of_noLineEnd {s : String} (h : NoLineEnd s.toList) : withTabs s = s := by
  rw [withTabs, ← String.toList_inj, String.toList_ofList]
  refine (List.map_congr_left fun c hc => if_neg ?_).trans (List.map_id s.toList)
  rintro (rfl | rfl)
  · exact h.1 hc
  · exact h.2 hc

theorem keepsShape_withTabs : KeepsShape withTabs where
  empty s := by
    rw [withTabs, ← String.toList_inj, String.toList_ofList, ← String.toList_inj]
    exact List.map_eq_nil_iff
  trimmed s hs := by
    -- a line end is a blank, so there is none at the ends of the text
    have hkept : ∀ c, Text.isBlank c = false →
        Text.isBlank (if c = '\r' ∨ c = '\n' then '\t' else c) = false := by
      intro c hc
      rwa [if_neg]
      rintro (rfl | rfl) <;> contradiction
    rw [withTabs, String.toList_ofList]
    constructor
    · intro c hc
      rw [List.head?_map] at hc
      obtain ⟨d, hd, rfl⟩ := Option.map_eq_some_iff.1 hc
      exact hkept d (hs.1 d hd)
    · intro c hc
      rw [List.getLast?_map] at hc
      obtain ⟨d, hd, rfl⟩ := Option.map_eq_some_iff.1 hc
      exact hkept d (hs.2 d hd)
  mem s c hc hmem := by
    rw [withTabs, String.toList_ofList, List.mem_map] at hmem
    obtain ⟨d, hd, hcd⟩ := hmem
    split_ifs at hcd
    · subst hcd
      exact absurd hc (by decide)
    · exact hcd ▸ hd

variable {tree : Value}

/-- If no line ends inside the texts of a tree, none ends inside a mark. -/
theorem noLineEnd_of_mem_marks (h : ShapedDocument .descriptor tree)
    (hlines : ∀ s ∈ texts tree, NoLineEnd s.toList) {m : Mark}
    (hm : m ∈ documentMarksOf .descriptor tree) : NoLineEnd m.chars := by
  have hmap := map_marks_eq_self rfl rfl keepsShape_withTabs h fun s hs =>
    withTabs_of_noLineEnd (hlines s hs)
  have htexts : m.texts.map withTabs = m.texts := by
    rw [← texts_mapMark, eq_self_of_map_eq_self hmap m hm]
  have hclean := clean_roots (writable_rootsOf (by decide) h).1
  exact noLineEnd_chars (hclean m hm) fun s hs =>
    noLineEnd_of_withTabs (eq_self_of_map_eq_self htexts s hs)

/-- What is written for such a tree has no carriage returns, and its last line is not ended. -/
theorem write_noLineEnd (h : ShapedDocument .descriptor tree)
    (hlines : ∀ s ∈ texts tree, NoLineEnd s.toList) {written : String}
    (hwrite : Tree.write .descriptor tree = .ok written) :
    '\r' ∉ written.toList ∧ written.toList.getLast? ≠ some '\n' := by
  rw [Tree.write, marks_eq h] at hwrite
  obtain rfl := Except.ok.inj hwrite
  have hmarks : ∀ m ∈ documentMarksOf .descriptor tree, NoLineEnd m.chars :=
    fun m hm => noLineEnd_of_mem_marks h hlines hm
  rw [String.toList_ofList, getLast?_spaceEmptyTags]
  refine ⟨fun hmem => ?_, getLast?_layout hmarks 0 false⟩
  exact not_mem_layout hmarks 0 false ((mem_spaceEmptyTags (by decide)).1 hmem)

/-! ## Saving again -/

section Ended

variable {written : String} (hreturn : '\r' ∉ written.toList)
  (hlast : written.toList.getLast? ≠ some '\n')

include hreturn in
theorem not_mem_ended (endsLine : Bool) : '\r' ∉ ended written endsLine := by
  rw [ended, List.mem_append, not_or]
  refine ⟨hreturn, ?_⟩
  split_ifs <;> decide

include hlast in
theorem getLast?_ended (endsLine : Bool) :
    decide ((ended written endsLine).getLast? = some '\n') = endsLine := by
  cases endsLine with
  | false => simpa [ended] using hlast
  | true => simp [ended]

include hreturn in
theorem withLf_toXml {d : Descriptor} (hwrite : Tree.write .descriptor d.tree = .ok written)
    {saved : String} (hsaved : d.toXml = .ok saved) :
    withLf saved = String.ofList (ended written d.endsLine) := by
  rw [toXml_eq hwrite] at hsaved
  obtain rfl := Except.ok.inj hsaved
  rw [withLf, String.toList_ofList]
  split_ifs
  · rw [ofCrlf_toCrlf]
  · rw [ofCrlf_of_not_mem (not_mem_ended hreturn d.endsLine)]

end Ended

/-- A text of the marks of a descriptor is read as its tree, and saved with its own line ends. -/
theorem exists_parse_spaced (h : ShapedDocument .descriptor tree)
    (hnode : ∃ node, node? tree .moduleInfo = some node) {written : String}
    (hwrite : Tree.write .descriptor tree = .ok written) {cs : List Char}
    (hcs : Spaced (documentMarksOf .descriptor tree) cs) :
    ∃ d, Descriptor.parse (String.ofList cs) = .ok d ∧ d.toXml = .ok (String.ofList
      (if hasCrlf cs then toCrlf (ended written (cs.getLast? = some '\n'))
        else ended written (cs.getLast? = some '\n'))) := by
  obtain ⟨node, hnode⟩ := hnode
  unfold Descriptor.parse
  rw [tree_of_spaced h hcs]
  simp only [bind, Except.bind, infoOf_eq hnode, pure, Except.pure, String.toList_ofList]
  exact ⟨_, rfl, toXml_eq hwrite⟩

/-- A saved descriptor without line ends inside its texts is a fixed point of reading and saving,
with either kind of line ends. -/
theorem toXml_fixed {text : String} {d : Descriptor} (hparse : Descriptor.parse text = .ok d)
    (hnames : ∀ n ∈ names text, isName n = true)
    (hvalues : ∀ v ∈ declaredValues text, '"' ∉ v)
    (hlines : ∀ s ∈ texts d.tree, '\r' ∉ s.toList ∧ '\n' ∉ s.toList) :
    ∃ saved d₁ d₂, d.toXml = .ok saved ∧
      Descriptor.parse (withLf saved) = .ok d₁ ∧ d₁.toXml = .ok (withLf saved) ∧
      Descriptor.parse (withCrlf (withLf saved)) = .ok d₂ ∧
        d₂.toXml = .ok (withCrlf (withLf saved)) := by
  have hshaped := shaped_descriptor hparse hnames hvalues
  have hnode := (tracks_parse hparse).node
  obtain ⟨written, hwrite, hspaced⟩ := spaced_write (by decide) hshaped
  obtain ⟨hreturn, hlast⟩ := write_noLineEnd hshaped hlines hwrite
  have hsaved := toXml_eq hwrite
  -- with line feeds alone
  have hended := spaced_ended hspaced d.endsLine
  obtain ⟨d₁, hparse₁, hxml₁⟩ := exists_parse_spaced hshaped hnode hwrite hended
  rw [hasCrlf_of_not_mem (not_mem_ended hreturn _), getLast?_ended hlast,
    if_neg Bool.false_ne_true] at hxml₁
  -- with carriage returns, which reach none of the marks
  have hmarks := map_marks_eq_self rfl rfl keepsShape_withCrlf hshaped fun s hs =>
    withCrlf_eq_self_iff.2 (hlines s hs).2
  have hcrlf := spaced_toCrlf (clean_roots (writable_rootsOf (by decide) hshaped).1) hended
  rw [← documentMarksOf, hmarks] at hcrlf
  obtain ⟨d₂, hparse₂, hxml₂⟩ := exists_parse_spaced hshaped hnode hwrite hcrlf
  have hlast₂ : decide ((toCrlf (ended written d.endsLine)).getLast? = some '\n') = d.endsLine :=
    (decide_eq_decide.2 getLast?_toCrlf_iff).trans (getLast?_ended hlast d.endsLine)
  rw [hlast₂, toCrlf_if_hasCrlf] at hxml₂
  refine ⟨_, d₁, d₂, hsaved, ?_⟩
  rw [withLf_toXml hreturn hwrite hsaved, withCrlf, String.toList_ofList]
  exact ⟨hparse₁, hxml₁, hparse₂, hxml₂⟩

/-- A descriptor with lines that end in either way. -/
theorem toXml_fixed_name :
    ∃ saved d₁ d₂, Descriptor.parse (withLf saved) = .ok d₁ ∧ d₁.toXml = .ok (withLf saved) ∧
      Descriptor.parse (withCrlf (withLf saved)) = .ok d₂ ∧
        d₂.toXml = .ok (withCrlf (withLf saved)) := by
  have hread : (Descriptor.parse
      (textWith "\r\n<attribute id=\"Name\" value=\"a\"/>\n")).toOption.map
        (fun d : Descriptor => decide (∀ s ∈ texts d.tree, '\r' ∉ s.toList ∧ '\n' ∉ s.toList)) =
      some true := by decide +kernel
  obtain ⟨d, hparse, hlines⟩ := Option.map_eq_some_iff.1 hread
  obtain ⟨saved, d₁, d₂, -, hfixed⟩ := toXml_fixed (ok_of_toOption hparse) (by decide +kernel)
    (by decide +kernel) (of_decide_eq_true hlines)
  exact ⟨saved, d₁, d₂, hfixed⟩

end Descriptor

end LsxKit
