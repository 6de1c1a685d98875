import LsxKit.Proofs.Xml.Spaced
import Mathlib.Data.List.Nodup
import Mathlib.Data.List.TakeWhile

/-!
# Reading a single mark

What the reader makes of the characters of one mark when it stands at the beginning of a text.

* `scan_fields`: fields of a tag are read back as its attributes.
* `readAttributes_eq`, `readDeclaration_eq`: so are the attributes and the declaration as a whole.
* `step_tag`, `step_close`, `step_instruction`, `step_text`: the token at the beginning of a text.
-/

namespace LsxKit.Xml

open Attribute

/-! ## Quotes in tags -/

/-- A piece of a tag without a bracket outside its quotes, whose quotes are closed. -/
def Balanced (cs : List Char) : Prop :=
  ∀ rest, splitTag none (cs ++ rest) = (cs ++ (splitTag none rest).1, (splitTag none rest).2)

theorem balanced_nil : Balanced [] := fun _ => rfl

theorem Balanced.append {a b : List Char} (ha : Balanced a) (hb : Balanced b) :
    Balanced (a ++ b) := by
  intro rest
  rw [List.append_assoc, ha, hb, List.append_assoc]

theorem balanced_of_plain {cs : List Char} (h : ∀ c ∈ cs, c ≠ '>' ∧ c ≠ '"' ∧ c ≠ '\'') :
    Balanced cs := by
  induction cs with
  | nil => exact balanced_nil
  | cons c cs ih =>
    intro rest
    have ih := ih (fun c hc => h c (by simp [hc])) rest
    obtain ⟨h1, h2, h3⟩ := h c (by simp)
    simp [splitTag, h1, h2, h3, ih]

theorem splitTag_quoted {v : List Char} (hv : '"' ∉ v) (rest : List Char) :
    splitTag (some '"') (v ++ '"' :: rest) =
      (v ++ '"' :: (splitTag none rest).1, (splitTag none rest).2) := by
  induction v with
  | nil => simp [splitTag]
  | cons c v ih =>
    have hc : c ≠ '"' := fun h => hv (by simp [h])
    have ih := ih fun h => hv (by simp [h])
    simp [splitTag, hc, ih]

theorem balanced_quoted {v : List Char} (hv : '"' ∉ v) : Balanced ('"' :: v ++ ['"']) := by
  intro rest
  have := splitTag_quoted hv rest
  simp [splitTag, this]

theorem balanced_name {s : String} (h : isName s = true) : Balanced s.toList := by
  apply balanced_of_plain
  intro c hc
  refine ⟨?_, ?_, ?_⟩ <;> rintro rfl <;> exact not_mem_of_isName h (by decide) hc

theorem balanced_attributesChars {attributes : List (String × String)}
    (ha : ∀ a ∈ attributes, isName a.1 = true) : Balanced (attributesChars attributes) := by
  induction attributes with
  | nil => exact balanced_nil
  | cons a attributes ih =>
    have hfield : Balanced (Mark.attributeChars a) := by
      have hsplit : Mark.attributeChars a =
          [' '] ++ (a.1.toList ++ (['='] ++ ('"' :: escape a.2.toList ++ ['"']))) := by
        simp [attributeChars_eq, fieldChars]
      rw [hsplit]
      exact (balanced_of_plain (by simp)).append ((balanced_name (ha a (by simp))).append
        ((balanced_of_plain (by simp)).append (balanced_quoted (not_mem_escape (by decide) _))))
    exact hfield.append (ih fun a h => ha a (by simp [h]))

theorem balanced_tagChars {name : String} {attributes : List (String × String)}
    (hn : isName name = true) (ha : AttributesNamed attributes) :
    Balanced (tagChars name attributes) :=
  (balanced_name hn).append (balanced_attributesChars ha.1)

theorem Balanced.splitTag_eq {cs : List Char} (h : Balanced cs) (rest : List Char) :
    splitTag none (cs ++ '>' :: rest) = (cs, '>' :: rest) := by
  simpa [splitTag] using h ('>' :: rest)

/-! ## Fields -/

theorem dropWhile_append_of_neg {p : Char → Bool} {s : List Char} {c : Char} {t : List Char}
    (hs : ∀ d ∈ s, p d = true) (hc : p c = false) : (s ++ c :: t).dropWhile p = c :: t := by
  rw [List.dropWhile_append_of_pos hs, List.dropWhile_cons_of_neg (by simp [hc])]

theorem takeWhile_append_of_neg {p : Char → Bool} {s : List Char} {c : Char} {t : List Char}
    (hs : ∀ d ∈ s, p d = true) (hc : p c = false) : (s ++ c :: t).takeWhile p = s := by
  rw [List.takeWhile_append_of_pos hs, List.takeWhile_cons_of_neg (by simp [hc]), List.append_nil]

/-- Whether a field is read back: its key is one, and its value does not hold its quote. -/
def FieldClean (f : List Char × List Char) : Prop :=
  f.1 ≠ [] ∧ (∀ c ∈ f.1, inKey c = true) ∧ '"' ∉ f.2

theorem fieldClean_mk {key value : List Char} (hne : key ≠ []) (hkey : key.all inKey = true)
    (hv : '"' ∉ value) : FieldClean (key, value) :=
  ⟨hne, List.all_eq_true.1 hkey, hv⟩

theorem value?_quoted {v : List Char} (hv : '"' ∉ v) (total : Nat) (rest : List Char) :
    value? total ('"' :: (v ++ '"' :: rest)) = .ok (v, rest) := by
  have hne : ∀ c ∈ v, decide (c ≠ '"') = true := by
    intro c hc
    simp only [ne_eq, decide_not, Bool.not_eq_true', decide_eq_false_iff_not]
    rintro rfl
    exact hv hc
  have hskip : skipSpace ('"' :: (v ++ '"' :: rest)) = '"' :: (v ++ '"' :: rest) := rfl
  simp only [value?, hskip, true_or, if_true]
  rw [dropWhile_append_of_neg hne (by decide), takeWhile_append_of_neg hne (by decide)]

/-- A field at the beginning of a text is read as an attribute. -/
theorem scan_field {distinct : Bool} (total : Nat) {seen : List (List Char × List Char)}
    {f : List Char × List Char} (hf : FieldClean f)
    (hseen : distinct = true → f.1 ∉ seen.map Prod.fst) (rest : List Char) :
    ∃ text, scan distinct total seen (fieldChars f.1 f.2 ++ rest) =
      (⟨f.1, f.2⟩ :: (scan distinct total ((f.1, text) :: seen) rest).1,
        (scan distinct total ((f.1, text) :: seen) rest).2) := by
  obtain ⟨key, value⟩ := f
  obtain ⟨hne, hkey, hv⟩ := hf
  obtain ⟨k, ks, rfl⟩ := List.exists_cons_of_ne_nil hne
  have hspace : isSpace k = false := by
    have := hkey k (by simp)
    simp [inKey] at this
    exact this.2
  have hks : ∀ c ∈ ks, inKey c = true := fun c hc => hkey c (by simp [hc])
  have hskip : skipSpace (fieldChars (k :: ks) value ++ rest) =
      k :: (ks ++ '=' :: '"' :: (value ++ '"' :: rest)) := by
    have hblank : isSpace ' ' = true := by decide
    simp [skipSpace, fieldChars, List.dropWhile, hspace, hblank]
  have htake : (ks ++ '=' :: '"' :: (value ++ '"' :: rest)).takeWhile inKey = ks :=
    takeWhile_append_of_neg hks (by decide)
  have hdrop : (ks ++ '=' :: '"' :: (value ++ '"' :: rest)).dropWhile inKey =
      '=' :: '"' :: (value ++ '"' :: rest) := dropWhile_append_of_neg hks (by decide)
  have hequals : afterEquals? total ('=' :: '"' :: (value ++ '"' :: rest)) =
      .ok ('"' :: (value ++ '"' :: rest)) := rfl
  have hnew : (if distinct then seen.find? (·.1 = k :: ks) else none) = none := by
    split_ifs with hd
    · simp only [List.find?_eq_none, decide_eq_true_eq]
      intro p hp hk
      exact hseen hd (List.mem_map.2 ⟨p, hp, hk⟩)
    · rfl
  refine ⟨k :: (ks ++ '=' :: '"' :: (value ++ '"' :: rest)), ?_⟩
  rw [scan]
  split
  · next h => simp [hskip] at h
  · next k' r h =>
    rw [hskip] at h
    injection h with h1 h2
    subst h1 h2
    simp only [htake]
    split
    · next fault he =>
      rw [hdrop, hequals] at he
      contradiction
    · next r' he =>
      rw [hdrop, hequals] at he
      injection he with he
      subst he
      simp only [hnew]
      split
      · next fault hval =>
        rw [value?_quoted hv] at hval
        contradiction
      · next value' rest' hval =>
        rw [value?_quoted hv] at hval
        injection hval with hval
        injection hval with h1 h2
        subst h1 h2
        rfl

theorem scan_space {distinct : Bool} {total : Nat} {seen : List (List Char × List Char)}
    {cs : List Char} (h : ∀ c ∈ cs, isSpace c = true) :
    scan distinct total seen cs = ([], none) := by
  have hskip : skipSpace cs = [] := List.dropWhile_eq_nil_iff.2 h
  rw [scan]
  split
  · rfl
  · next hs => simp [hskip] at hs

/-- Fields of a tag are read back as its attributes, whatever space follows them. -/
theorem scan_fields {distinct : Bool} {total : Nat} {seen : List (List Char × List Char)}
    {fields : List (List Char × List Char)} (hf : ∀ f ∈ fields, FieldClean f)
    (hseen : distinct = true →
      (fields.map Prod.fst).Nodup ∧ ∀ f ∈ fields, f.1 ∉ seen.map Prod.fst)
    {tail : List Char} (htail : ∀ c ∈ tail, isSpace c = true) :
    scan distinct total seen (fields.flatMap (fun f => fieldChars f.1 f.2) ++ tail) =
      (fields.map fun f => ⟨f.1, f.2⟩, none) := by
  induction fields generalizing seen with
  | nil => simpa using scan_space htail
  | cons f fields ih =>
    rw [List.flatMap_cons, List.append_assoc]
    obtain ⟨text, hscan⟩ := scan_field total (hf f (by simp))
      (fun hd => (hseen hd).2 f (by simp)) (fields.flatMap (fun f => fieldChars f.1 f.2) ++ tail)
    rw [hscan, ih (fun f h => hf f (by simp [h]))]
    · simp
    · intro hd
      obtain ⟨hnodup, hold⟩ := hseen hd
      simp only [List.map_cons, List.nodup_cons] at hnodup
      refine ⟨hnodup.2, fun g hg => ?_⟩
      simp only [List.map_cons, List.mem_cons, not_or]
      refine ⟨?_, hold g (by simp [hg])⟩
      intro he
      exact hnodup.1 (List.mem_map.2 ⟨g, hg, he⟩)

/-! ## Attributes and declarations -/

theorem inKey_of_isName {s : String} (h : isName s = true) : ∀ c ∈ s.toList, inKey c = true := by
  intro c hc
  have hspace := not_isSpace_of_isName h c hc
  have heq : c ≠ '=' := by
    rintro rfl
    exact not_mem_of_isName h (by decide) hc
  simp [inKey, hspace, heq]

theorem unescape_eq_ok (s : String) :
    ((unescape (escape s.toList)).mapError fun f => Error.markup (.reference f)) =
      .ok s.toList := by
  rw [unescape_escape]
  rfl

/-- The attributes of a written tag are those that were written. -/
theorem readAttributes_eq {name : List Char} {attributes : List (String × String)}
    (ha : AttributesNamed attributes) {tail : List Char}
    (htail : ∀ c ∈ tail, isSpace c = true) :
    Document.readAttributes ⟨name, attributesChars attributes ++ tail⟩ = .ok attributes := by
  have hfields : attributesChars attributes =
      (attributes.map fun a => (a.1.toList, escape a.2.toList)).flatMap
        fun f => fieldChars f.1 f.2 := by
    rw [List.flatMap_map]
    rfl
  have hscan : Tag.attributes ⟨name, attributesChars attributes ++ tail⟩ =
      (attributes.map fun a => ⟨a.1.toList, escape a.2.toList⟩, none) := by
    unfold Tag.attributes
    simp only
    rw [hfields, scan_fields _ _ htail]
    · simp
    · intro f hf
      obtain ⟨a, hmem, rfl⟩ := List.mem_map.1 hf
      exact ⟨(isName_iff.1 (ha.1 a hmem)).1, inKey_of_isName (ha.1 a hmem),
        not_mem_escape (by decide) _⟩
    · intro _
      refine ⟨?_, by simp⟩
      have : (attributes.map fun a => (a.1.toList, escape a.2.toList)).map Prod.fst =
          (attributes.map Prod.fst).map String.toList := by simp
      rw [this]
      exact List.Nodup.map (fun a b h => String.toList_inj.1 h) ha.2
  have hvalues : ∀ as : List (String × String),
      (as.map fun a => (⟨a.1.toList, escape a.2.toList⟩ : RawAttribute)).mapM (fun a => do
        let value ← (unescape a.value).mapError fun f => Error.markup (.reference f)
        return (String.ofList a.key, String.ofList value)) = (.ok as : Except Error _) := by
    intro as
    induction as with
    | nil => rfl
    | cons a as ih =>
      rw [List.map_cons, List.mapM_cons, ih]
      simp [unescape_eq_ok, bind, Except.bind, pure, Except.pure]
  unfold Document.readAttributes
  rw [hscan]
  simp only [hvalues]
  rfl

/-- The fields of a declaration, in the order in which they are written. -/
def declarationFields (version : String) (encoding standalone : Option String) :
    List (List Char × List Char) :=
  (['v', 'e', 'r', 's', 'i', 'o', 'n'], version.toList) ::
    (encoding.toList.map fun e => (['e', 'n', 'c', 'o', 'd', 'i', 'n', 'g'], e.toList)) ++
    (standalone.toList.map fun s =>
      (['s', 't', 'a', 'n', 'd', 'a', 'l', 'o', 'n', 'e'], s.toList))

theorem drop_declarationChars (version : String) (encoding standalone : Option String) :
    (declarationChars version encoding standalone).drop 3 =
      (declarationFields version encoding standalone).flatMap (fun f => fieldChars f.1 f.2) ++
        [] := by
  cases encoding <;> cases standalone <;>
    simp [declarationChars, declarationFields, optionalChars, declaredChars_eq]

theorem fieldClean_declarationFields {version : String} {encoding standalone : Option String}
    (h : (Mark.declaration version encoding standalone).Clean) :
    ∀ f ∈ declarationFields version encoding standalone, FieldClean f := by
  intro f hf
  simp only [declarationFields, List.cons_append, List.mem_cons, List.mem_append, List.mem_map,
    Option.mem_toList] at hf
  rcases hf with rfl | ⟨e, rfl, rfl⟩ | ⟨s, rfl, rfl⟩
  · exact fieldClean_mk (by decide) (by decide) (h version (by simp)).1
  · exact fieldClean_mk (by decide) (by decide) (h e (by simp)).1
  · exact fieldClean_mk (by decide) (by decide) (h s (by simp)).1

/-- A written declaration is read back as it was. -/
theorem readDeclaration_eq {version : String} {encoding standalone : Option String}
    (h : (Mark.declaration version encoding standalone).Clean) :
    Document.readDeclaration (declarationChars version encoding standalone) =
      .ok ⟨version, encoding, standalone⟩ := by
  have hscan : ∀ total, scan false total []
      ((declarationChars version encoding standalone).drop 3) =
        ((declarationFields version encoding standalone).map fun f => ⟨f.1, f.2⟩, none) := by
    intro total
    rw [drop_declarationChars]
    exact scan_fields (fieldClean_declarationFields h) (by simp) (by simp)
  simp only [Document.readDeclaration, Document.findAttribute, hscan]
  cases encoding <;> cases standalone <;>
    simp [declarationFields, bind, Except.bind, pure, Except.pure]

/-! ## The first token -/

theorem not_special_of_isName {s : String} (h : isName s = true) :
    ∃ c cs, s.toList = c :: cs ∧ c ≠ '!' ∧ c ≠ '/' ∧ c ≠ '?' := by
  obtain ⟨c, cs, hc⟩ := List.exists_cons_of_ne_nil (isName_iff.1 h).1
  have hmem : c ∈ s.toList := by simp [hc]
  refine ⟨c, cs, hc, ?_, ?_, ?_⟩ <;> rintro rfl <;> exact not_mem_of_isName h (by decide) hmem

/-- A tag ends at the first bracket after balanced characters. -/
theorem step_tag {c : Char} {cs : List Char} (hb : Balanced (c :: cs)) (h1 : c ≠ '!')
    (h2 : c ≠ '/') (h3 : c ≠ '?') (rest : List Char) :
    step ('<' :: (c :: cs ++ '>' :: rest)) =
      .token (.tag (c :: cs)) ('<' :: (c :: cs ++ ['>'])) rest := by
  have hsplit := hb.splitTag_eq rest
  rw [List.cons_append] at hsplit ⊢
  rw [step.eq_6 _ (by simp) (by simp [h1]) (by simp [h2]) (by simp [h3]), hsplit]
  simp [Step.markup]

theorem step_close {content : List Char} (h : '>' ∉ content) (rest : List Char) :
    step ('<' :: '/' :: (content ++ '>' :: rest)) =
      .token (.close content) ('<' :: '/' :: (content ++ ['>'])) rest := by
  have hne : ∀ c ∈ content, decide (c ≠ '>') = true := by
    intro c hc
    simp only [ne_eq, decide_not, Bool.not_eq_true', decide_eq_false_iff_not]
    rintro rfl
    exact h hc
  have htake : (content ++ '>' :: rest).takeWhile (fun c => decide (c ≠ '>')) = content :=
    takeWhile_append_of_neg hne (by decide)
  have hdrop : (content ++ '>' :: rest).dropWhile (fun c => decide (c ≠ '>')) = '>' :: rest :=
    dropWhile_append_of_neg hne (by decide)
  simp only [step, close, htake, hdrop, Step.markup]
  simp

theorem step_instruction {content : List Char} (h : '>' ∉ content) (hne : content ≠ [])
    (rest : List Char) :
    step ('<' :: '?' :: (content ++ '?' :: '>' :: rest)) =
      .token (.instruction content) ('<' :: '?' :: (content ++ ['?', '>'])) rest := by
  have hall : ∀ c ∈ content ++ ['?'], decide (c ≠ '>') = true := by
    intro c hc
    simp only [ne_eq, decide_not, Bool.not_eq_true', decide_eq_false_iff_not]
    rintro rfl
    simp [h] at hc
  have hsplit : content ++ '?' :: '>' :: rest = (content ++ ['?']) ++ '>' :: rest := by simp
  have htake : (content ++ '?' :: '>' :: rest).takeWhile (fun c => decide (c ≠ '>')) =
      content ++ ['?'] := by
    rw [hsplit]
    exact takeWhile_append_of_neg hall (by decide)
  have hdrop : (content ++ '?' :: '>' :: rest).dropWhile (fun c => decide (c ≠ '>')) =
      '>' :: rest := by
    rw [hsplit]
    exact dropWhile_append_of_neg hall (by decide)
  have hlength : 2 ≤ (content ++ ['?']).length := by
    have := List.length_pos_iff.2 hne
    simp only [List.length_append, List.length_singleton]
    omega
  simp only [step, instruction, htake, hdrop, Step.markup]
  rw [if_pos ⟨hlength, by simp⟩]
  simp

/-- A run of text ends at the next tag or at the end. -/
theorem step_text {raw rest : List Char} (hne : raw ≠ []) (hraw : '<' ∉ raw)
    (hrest : rest = [] ∨ ∃ cs, rest = '<' :: cs) :
    step (raw ++ rest) = .token (.text raw) raw rest := by
  have hall : ∀ c ∈ raw, decide (c ≠ '<') = true := by
    intro c hc
    simp only [ne_eq, decide_not, Bool.not_eq_true', decide_eq_false_iff_not]
    rintro rfl
    exact hraw hc
  have htake : (raw ++ rest).takeWhile (fun c => decide (c ≠ '<')) = raw := by
    rcases hrest with rfl | ⟨cs, rfl⟩
    · rw [List.append_nil, List.takeWhile_eq_self_iff.2 hall]
    · exact takeWhile_append_of_neg hall (by decide)
  have hdrop : (raw ++ rest).dropWhile (fun c => decide (c ≠ '<')) = rest := by
    rcases hrest with rfl | ⟨cs, rfl⟩
    · rw [List.append_nil, List.dropWhile_eq_nil_iff.2 hall]
    · exact dropWhile_append_of_neg hall (by decide)
  obtain ⟨c, cs, rfl⟩ := List.exists_cons_of_ne_nil hne
  have hc : c ≠ '<' := fun h => hraw (by simp [h])
  rw [List.cons_append] at htake hdrop ⊢
  unfold step
  split <;> simp_all

end LsxKit.Xml
