import LsxKit.Descriptor.Basic
import LsxKit.Proofs.Text.Lines
import LsxKit.Proofs.Tree.Places
import LsxKit.Proofs.Tree.Texts

/-!
# Line ends

Line ends with a carriage return are written over the whole text of a descriptor, so they reach
the line feeds in its attributes and texts as well.

* `toCrlf_eq_self_iff`, `lastLine_toCrlf`: the texts and the line that this leaves alone.
* `keepsShape_withCrlf`, `keepsNodes_mapText`: the tree keeps its shape, and its nodes are found.
* `spaced_toCrlf`: a text of marks becomes a text of the changed marks.
-/

namespace LsxKit.Descriptor

open Json LsxKit.Tree Xml

/-- A text with a carriage return before every line feed. -/
def withCrlf (s : String) : String := String.ofList (toCrlf s.toList)

/-! ## Characters -/

@[simp] theorem toCrlf_nil : toCrlf [] = [] := rfl

@[simp] theorem toCrlf_append (s t : List Char) : toCrlf (s ++ t) = toCrlf s ++ toCrlf t :=
  List.flatMap_append

theorem toCrlf_cons (c : Char) (s : List Char) :
    toCrlf (c :: s) = (if c = '\n' then ['\r', '\n'] else [c]) ++ toCrlf s := rfl

theorem toCrlf_cons_of_ne {c : Char} (hc : c ≠ '\n') (s : List Char) :
    toCrlf (c :: s) = c :: toCrlf s := by
  rw [toCrlf_cons, if_neg hc, List.singleton_append]

theorem mem_toCrlf {c : Char} {s : List Char} (h : c ∈ toCrlf s) : c ∈ s ∨ c = '\r' := by
  obtain ⟨d, hd, hc⟩ := List.mem_flatMap.1 h
  split_ifs at hc with hline
  · rcases List.mem_cons.1 hc with rfl | hc
    · exact .inr rfl
    · rw [List.mem_singleton.1 hc, ← hline]
      exact .inl hd
  · rw [List.mem_singleton.1 hc]
    exact .inl hd

theorem toCrlf_of_not_mem {s : List Char} (h : '\n' ∉ s) : toCrlf s = s := by
  induction s with
  | nil => rfl
  | cons c s ih =>
    rw [List.mem_cons, not_or] at h
    rw [toCrlf_cons_of_ne (Ne.symm h.1), ih h.2]

/-- No carriage return is put into the last line. -/
theorem lastLine_toCrlf (s : List Char) : Text.lastLine (toCrlf s) = Text.lastLine s := by
  obtain ⟨hnot, hs | ⟨earlier, hs⟩⟩ := Text.exists_lastLine s
  · rw [← hs] at hnot
    rw [toCrlf_of_not_mem hnot]
  · have hline : toCrlf s = (toCrlf earlier ++ ['\r']) ++ '\n' :: Text.lastLine s := by
      conv_lhs => rw [hs]
      simp [toCrlf_cons, toCrlf_of_not_mem hnot]
    rw [hline, Text.lastLine_append_cons _ hnot]

theorem length_toCrlf (s : List Char) : (toCrlf s).length = s.length + s.count '\n' := by
  induction s with
  | nil => rfl
  | cons c s ih =>
    rw [toCrlf_cons, List.length_append, ih, List.length_cons, List.count_cons]
    by_cases hc : c = '\n'
    · simp [hc]
      omega
    · simp [hc]
      omega

/-- Only texts without a line feed stay as they are. -/
theorem toCrlf_eq_self_iff {s : List Char} : toCrlf s = s ↔ '\n' ∉ s := by
  refine ⟨fun h => ?_, toCrlf_of_not_mem⟩
  have hlength := length_toCrlf s
  rw [h] at hlength
  exact List.count_eq_zero.1 (by omega)

theorem withCrlf_eq_self_iff {s : String} : withCrlf s = s ↔ '\n' ∉ s.toList := by
  rw [← toCrlf_eq_self_iff, withCrlf, ← String.toList_inj, String.toList_ofList]

/-- A text without a line feed comes from no other text. -/
theorem withCrlf_eq_iff {s t : String} (ht : '\n' ∉ t.toList) : withCrlf s = t ↔ s = t := by
  constructor
  · rintro rfl
    refine (withCrlf_eq_self_iff.2 fun hmem => ht ?_).symm
    rw [withCrlf, String.toList_ofList]
    exact List.mem_flatMap.2 ⟨'\n', hmem, by simp⟩
  · rintro rfl
    exact withCrlf_eq_self_iff.2 ht

theorem head?_toCrlf {s : List Char} {c : Char} (h : c ∈ (toCrlf s).head?) :
    c ∈ s.head? ∨ '\n' ∈ s.head? := by
  cases s with
  | nil => contradiction
  | cons d s =>
    by_cases hd : d = '\n'
    · exact .inr (by simp [hd])
    · rw [toCrlf_cons_of_ne hd] at h
      exact .inl h

theorem getLast?_toCrlf {s : List Char} {c : Char} (h : c ∈ (toCrlf s).getLast?) :
    c ∈ s.getLast? := by
  rcases List.eq_nil_or_concat s with rfl | ⟨init, d, hs⟩
  · contradiction
  · rw [List.concat_eq_append] at hs
    subst hs
    rw [toCrlf_append, toCrlf_cons] at h
    by_cases hd : d = '\n'
    · simpa [hd, List.getLast?_append] using h
    · simpa [hd, List.getLast?_append] using h

/-- Line ends inside a text put no blanks at its ends. -/
theorem keepsShape_withCrlf : KeepsShape withCrlf where
  empty s := by
    have hnil : toCrlf s.toList = [] ↔ s.toList = [] := by
      cases s.toList with
      | nil => simp
      | cons c cs =>
        rw [toCrlf_cons]
        split_ifs <;> simp
    rw [withCrlf, ← String.toList_inj, String.toList_ofList, ← String.toList_inj]
    exact hnil
  trimmed s hs := by
    rw [withCrlf, String.toList_ofList]
    refine ⟨fun c hc => ?_, fun c hc => hs.2 c (getLast?_toCrlf hc)⟩
    rcases head?_toCrlf hc with hc | hline
    · exact hs.1 c hc
    · exact absurd (hs.1 _ hline) (by decide)
  mem s c hc hmem := by
    rw [withCrlf, String.toList_ofList] at hmem
    rcases mem_toCrlf hmem with hmem | rfl
    · exact hmem
    · exact absurd hc (by decide)

/-! ## Nodes -/

theorem asString?_mapText (f : String → String) (v : Value) :
    (mapText f v).asString? = v.asString?.map f := by
  cases v <;> rfl

/-- Nodes are found in a tree with other texts if the ids that are looked for stay apart from
all others. -/
theorem keepsNodes_mapText {f : String → String}
    (hf : ∀ id ∈ ["Config", "root", "ModuleInfo"], ∀ s, f s = id ↔ s = id) :
    KeepsNodes (mapText f) where
  get? v k _ := get?_mapText k v
  array vs := by rw [mapText, mapItems_eq]
  isArray v := isArray_mapText v
  id v id hid := by
    have hmap : Place.idOf (mapText f v) = (Place.idOf v).map f := by
      unfold Place.idOf
      rw [get?_mapText]
      cases v.get? attributesGroup with
      | none => rfl
      | some own =>
        rw [Option.map_some, Option.bind_some, Option.bind_some, get?_mapText]
        cases own.get? "id" with
        | none => rfl
        | some w => exact asString?_mapText f w
    rw [hmap, Option.map_eq_some_iff]
    cases Place.idOf v with
    | none => simp
    | some s => simpa using hf id hid s

theorem keepsNodes_withCrlf : KeepsNodes (mapText withCrlf) :=
  keepsNodes_mapText fun id hid s => withCrlf_eq_iff (by revert id; decide)

/-! ## Marks -/

theorem toCrlf_escapeChar (c : Char) :
    toCrlf (Reference.escapeChar c) = (toCrlf [c]).flatMap Reference.escapeChar := by
  by_cases hc : c = '\n'
  · subst hc
    decide
  · rw [toCrlf_cons_of_ne hc, toCrlf_nil, List.flatMap_singleton, toCrlf_of_not_mem]
    unfold Reference.escapeChar
    split <;> simp_all [eq_comm]

/-- Escaping leaves line feeds where they are. -/
theorem toCrlf_escape (s : List Char) : toCrlf (escape s) = escape (toCrlf s) := by
  induction s with
  | nil => rfl
  | cons c s ih =>
    have hsplit : escape (c :: s) = Reference.escapeChar c ++ escape s := rfl
    have hcons : toCrlf (c :: s) = toCrlf [c] ++ toCrlf s := toCrlf_append [c] s
    rw [hsplit, toCrlf_append, toCrlf_escapeChar, ih, hcons]
    exact List.flatMap_append.symm

theorem toCrlf_name {name : String} (h : isName name = true) :
    toCrlf name.toList = name.toList :=
  toCrlf_of_not_mem (not_mem_of_isName h (by decide))

theorem toCrlf_fieldChars {key : List Char} (hkey : '\n' ∉ key) (value : List Char) :
    toCrlf (fieldChars key value) = fieldChars key (toCrlf value) := by
  simp [fieldChars, toCrlf_cons_of_ne, toCrlf_of_not_mem hkey]

theorem toCrlf_attributesChars {attributes : List (String × String)}
    (h : ∀ a ∈ attributes, isName a.1 = true) :
    toCrlf (attributesChars attributes) =
      attributesChars (attributes.map fun a => (a.1, withCrlf a.2)) := by
  induction attributes with
  | nil => rfl
  | cons a attributes ih =>
    rw [List.forall_mem_cons] at h
    have hfield : toCrlf (Mark.attributeChars a) = Mark.attributeChars (a.1, withCrlf a.2) := by
      rw [attributeChars_eq, attributeChars_eq,
        toCrlf_fieldChars (not_mem_of_isName h.1 (by decide)), toCrlf_escape, withCrlf,
        String.toList_ofList]
    have ih := ih h.2
    unfold attributesChars at ih ⊢
    rw [List.flatMap_cons, toCrlf_append, hfield, ih, List.map_cons, List.flatMap_cons]

theorem toCrlf_declaredChars {key : List Char} (hkey : '\n' ∉ key) (value : String) :
    toCrlf (Mark.declaredChars key value) = Mark.declaredChars key (withCrlf value) := by
  rw [declaredChars_eq, declaredChars_eq, toCrlf_fieldChars hkey, withCrlf, String.toList_ofList]

theorem toCrlf_optionalChars {key : List Char} (hkey : '\n' ∉ key) (value : Option String) :
    toCrlf (optionalChars key value) = optionalChars key (value.map withCrlf) := by
  cases value with
  | none => rfl
  | some v => exact toCrlf_declaredChars hkey v

/-- Line ends in a mark are those in its texts. -/
theorem toCrlf_written {m : Mark} (hm : m.Clean) :
    toCrlf m.written = (mapMark withCrlf m).written := by
  cases m with
  | declaration version encoding standalone =>
    simp only [mapMark, Mark.written, chars_declaration, declarationChars]
    simp [toCrlf_cons_of_ne, toCrlf_declaredChars, toCrlf_optionalChars]
  | start name attributes =>
    have hchars : ∀ as, Mark.chars (.start name as) = '<' :: tagChars name as ++ ['>'] := by
      intro as
      simp [Mark.chars, tagChars, attributesChars]
    simp only [mapMark, Mark.written, hchars, tagChars]
    simp [toCrlf_cons_of_ne, toCrlf_name hm.1, toCrlf_attributesChars hm.2.1]
  | empty name attributes =>
    simp only [mapMark, Mark.written, tagChars]
    simp [toCrlf_cons_of_ne, toCrlf_name hm.1, toCrlf_attributesChars hm.2.1]
  | close name =>
    have hname : isName name = true := hm
    simp [mapMark, Mark.written, Mark.chars, toCrlf_cons_of_ne, toCrlf_name hname]
  | text s =>
    simp only [mapMark, Mark.written, Mark.chars]
    rw [toCrlf_escape, withCrlf, String.toList_ofList]

/-- A text of marks becomes a text of the marks with other line ends. -/
theorem spaced_toCrlf {ms : List Mark} (hms : ∀ m ∈ ms, m.Clean) {cs : List Char}
    (h : Spaced ms cs) : Spaced (ms.map (mapMark withCrlf)) (toCrlf cs) := by
  have hspace : ∀ gap : List Char, (∀ c ∈ gap, isSpace c = true) →
      ∀ c ∈ toCrlf gap, isSpace c = true := by
    intro gap hgap c hc
    rcases mem_toCrlf hc with hc | rfl
    · exact hgap c hc
    · decide
  induction ms generalizing cs with
  | nil => exact hspace cs h
  | cons m ms ih =>
    rw [List.forall_mem_cons] at hms
    obtain ⟨gap, rest, hgap, rfl, hrest⟩ := h
    refine ⟨toCrlf gap, toCrlf rest, hspace gap hgap, ?_, ih hms.2 hrest⟩
    rw [toCrlf_append, toCrlf_append, toCrlf_written hms.1]

end LsxKit.Descriptor
