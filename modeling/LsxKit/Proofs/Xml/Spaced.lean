import LsxKit.Proofs.Xml.Element

/-!
# Marks with space between them

A text of marks is known up to the space in front of each mark and at the end. Reading such a
text back does not depend on the layout, only on the marks.

* `Spaced`: a text that consists of marks with nothing but space between them.
* `Mark.layout_cons_eq`: the layout of marks, by the first one.
* `spaced_layout`: the layout of marks, its empty tags spaced, is such a text.
-/

namespace LsxKit.Xml

open Reference

/-! ## Escaped text -/

theorem not_mem_escapeChar {d : Char} (hd : d ∈ ['<', '>', '\'', '"']) (c : Char) :
    d ∉ escapeChar c := by
  simp only [List.mem_cons, List.not_mem_nil, or_false] at hd
  unfold escapeChar
  rcases hd with rfl | rfl | rfl | rfl <;> split <;> simp_all [eq_comm]

/-- The four markup characters do not occur in escaped text. -/
theorem not_mem_escape {d : Char} (hd : d ∈ ['<', '>', '\'', '"']) (cs : List Char) :
    d ∉ escape cs := by
  simp only [escape, List.mem_flatMap, not_exists, not_and]
  exact fun c _ => not_mem_escapeChar hd c

theorem escapeChar_ne_nil (c : Char) : escapeChar c ≠ [] := by
  unfold escapeChar
  split <;> simp

theorem escape_eq_nil_iff {cs : List Char} : escape cs = [] ↔ cs = [] := by
  cases cs <;> simp [escape, escapeChar_ne_nil]

/-! ## Fields of a tag -/

/-- A key with a quoted value and its leading blank. -/
def fieldChars (key value : List Char) : List Char :=
  ' ' :: key ++ '=' :: '"' :: value ++ ['"']

theorem attributeChars_eq (a : String × String) :
    Mark.attributeChars a = fieldChars a.1.toList (escape a.2.toList) := rfl

theorem declaredChars_eq (key : List Char) (value : String) :
    Mark.declaredChars key value = fieldChars key value.toList := rfl

/-- The fields of attributes. -/
def attributesChars (attributes : List (String × String)) : List Char :=
  attributes.flatMap Mark.attributeChars

/-- The characters between the brackets of a start tag. -/
def tagChars (name : String) (attributes : List (String × String)) : List Char :=
  name.toList ++ attributesChars attributes

theorem not_mem_attributesChars {attributes : List (String × String)} {d : Char}
    (ha : ∀ a ∈ attributes, isName a.1 = true) (hd : d = '<' ∨ d = '>') :
    d ∉ attributesChars attributes := by
  intro hmem
  simp only [attributesChars, List.mem_flatMap] at hmem
  obtain ⟨a, hmem, hc⟩ := hmem
  have hname : d ∉ a.1.toList :=
    not_mem_of_isName (ha a hmem) (by rcases hd with rfl | rfl <;> decide)
  have hvalue : d ∉ escape a.2.toList :=
    not_mem_escape (by rcases hd with rfl | rfl <;> decide) _
  rcases hd with rfl | rfl <;>
    simp [attributeChars_eq, fieldChars, hname, hvalue] at hc

theorem not_mem_tagChars {name : String} {attributes : List (String × String)} {d : Char}
    (hn : isName name = true) (ha : ∀ a ∈ attributes, isName a.1 = true)
    (hd : d = '<' ∨ d = '>') : d ∉ tagChars name attributes := by
  have hname : d ∉ name.toList :=
    not_mem_of_isName hn (by rcases hd with rfl | rfl <;> decide)
  simp [tagChars, hname, not_mem_attributesChars ha hd]

theorem getLast?_append_cons (s : List Char) (c : Char) (t : List Char) :
    (s ++ c :: t).getLast? = (c :: t).getLast? := by
  simp [List.getLast?_append, List.getLast?_cons]

/-- Fields end with a quote. -/
theorem getLast?_cons_attributesChars (c : Char) (attributes : List (String × String)) :
    (c :: attributesChars attributes).getLast? = some (if attributes = [] then c else '"') := by
  induction attributes generalizing c with
  | nil => rfl
  | cons a attributes ih =>
    have hsplit : c :: attributesChars (a :: attributes) =
        (c :: ' ' :: a.1.toList ++ '=' :: '"' :: escape a.2.toList) ++
          '"' :: attributesChars attributes := by
      simp [attributesChars, attributeChars_eq, fieldChars]
    rw [hsplit, getLast?_append_cons, ih]
    simp

/-- A tag does not end with a slash before its bracket. -/
theorem getLast?_tagChars {name : String} (hn : isName name = true)
    (attributes : List (String × String)) : (tagChars name attributes).getLast? ≠ some '/' := by
  obtain ⟨hne, hchars⟩ := isName_iff.1 hn
  obtain ⟨init, c, hc⟩ := List.eq_nil_or_concat name.toList |>.resolve_left hne
  have hslash : c ≠ '/' := by
    rintro rfl
    have hmem : '/' ∈ name.toList := by simp [hc]
    exact not_mem_of_isName hn (by decide) hmem
  have hsplit : tagChars name attributes = init ++ c :: attributesChars attributes := by
    simp [tagChars, hc]
  rw [hsplit, getLast?_append_cons, getLast?_cons_attributesChars]
  split_ifs <;> simp [hslash]

/-! ## Marks -/

/-- Whether a mark stands for itself in a text: the names are ordinary, and nothing that is
written as it is would end the mark. -/
def Mark.Clean : Mark → Prop
  | .declaration version encoding standalone => DeclarationWritable ⟨version, encoding, standalone⟩
  | .start name attributes => isName name = true ∧ AttributesNamed attributes
  | .empty name attributes => isName name = true ∧ AttributesNamed attributes
  | .close name => isName name = true
  | .text _ => True

mutual

/-- The marks of an element that can be written stand for themselves. -/
theorem clean_marks (e : Element) (he : e.Writable) : ∀ m ∈ e.marks, m.Clean := by
  match e with
  | .mk name attributes text children =>
    obtain ⟨hn, ha, -, hchildren⟩ := he
    intro m hm
    unfold Element.marks at hm
    split_ifs at hm
    · rw [List.mem_singleton] at hm
      subst hm
      exact ⟨hn, ha⟩
    · rw [List.mem_cons, List.mem_append, List.mem_append, List.mem_singleton] at hm
      rcases hm with rfl | hm | hm | rfl
      · exact ⟨hn, ha⟩
      · unfold textMarks at hm
        split_ifs at hm
        · contradiction
        · rw [List.mem_singleton] at hm
          subst hm
          trivial
      · exact clean_marksOf children hchildren m hm
      · exact hn
  termination_by structural e

/-- So do those of several elements. -/
theorem clean_marksOf (es : List Element) (hes : AllWritable es) : ∀ m ∈ marksOf es, m.Clean := by
  match es with
  | [] => simp [marksOf]
  | e :: es =>
    intro m hm
    rcases List.mem_append.1 hm with hm | hm
    · exact clean_marks e hes.1 m hm
    · exact clean_marksOf es hes.2 m hm
  termination_by structural es

end

/-- The marks of roots that can be written stand for themselves. -/
theorem clean_roots {roots : List Root} (h : ∀ r ∈ roots, r.Writable) :
    ∀ m ∈ roots.flatMap Root.marks, m.Clean := by
  intro m hm
  obtain ⟨r, hr, hm⟩ := List.mem_flatMap.1 hm
  cases r with
  | declaration d =>
    obtain rfl := List.mem_singleton.1 hm
    exact h _ hr
  | element e => exact clean_marks e (h _ hr) m hm

/-- The characters of a mark with a blank before the slash of an empty tag. -/
def Mark.written : Mark → List Char
  | .empty name attributes => '<' :: tagChars name attributes ++ [' ', '/', '>']
  | m => m.chars

/-- A text of marks, with nothing but space in front of each of them and at the end. -/
def Spaced : List Mark → List Char → Prop
  | [], cs => ∀ c ∈ cs, isSpace c = true
  | m :: ms, cs => ∃ gap rest, (∀ c ∈ gap, isSpace c = true) ∧
      cs = gap ++ (m.written ++ rest) ∧ Spaced ms rest

theorem spaced_append {ms : List Mark} {cs gap : List Char} (h : Spaced ms cs)
    (hgap : ∀ c ∈ gap, isSpace c = true) : Spaced ms (cs ++ gap) := by
  induction ms generalizing cs with
  | nil => exact List.forall_mem_append.2 ⟨h, hgap⟩
  | cons m ms ih =>
    obtain ⟨space, rest, hspace, rfl, hrest⟩ := h
    exact ⟨space, rest ++ gap, hspace, by simp, ih hrest⟩

/-! ## The blank of empty tags -/

theorem spaceEmptyTags_append {a b : List Char}
    (h : a.getLast? = some '/' → b.head? ≠ some '>') :
    spaceEmptyTags (a ++ b) = spaceEmptyTags a ++ spaceEmptyTags b := by
  fun_induction spaceEmptyTags a with
  | case1 => rfl
  | case2 cs ih =>
    have ih := ih fun hl => h (by
      cases cs with
      | nil => simp at hl
      | cons c cs => simpa using hl)
    simp [spaceEmptyTags, ih]
  | case3 c cs hc ih =>
    cases cs with
    | nil =>
      cases b with
      | nil => simp [spaceEmptyTags]
      | cons d b =>
        have : ¬ (c = '/' ∧ d = '>') := by
          rintro ⟨rfl, rfl⟩
          exact h rfl rfl
        rw [List.singleton_append, spaceEmptyTags.eq_3]
        · rfl
        · rintro cs rfl hd
          simp only [List.cons.injEq] at hd
          exact this ⟨rfl, hd.1⟩
    | cons d cs =>
      have ih := ih (by simpa using h)
      rw [List.cons_append, spaceEmptyTags.eq_3, ih]
      · rfl
      · rintro cs' rfl hd
        simp only [List.cons_append, List.cons.injEq] at hd
        exact hc cs rfl (by rw [hd.1])

/-- Nothing but blanks is written more. -/
theorem mem_spaceEmptyTags {c : Char} {s : List Char} (hc : c ≠ ' ') :
    c ∈ spaceEmptyTags s ↔ c ∈ s := by
  fun_induction spaceEmptyTags s with
  | case1 => rfl
  | case2 cs ih => simp [hc, ih]
  | case3 d cs hne ih => simp [ih]

theorem spaceEmptyTags_eq_self {a : List Char} (h : '>' ∉ a) : spaceEmptyTags a = a := by
  fun_induction spaceEmptyTags a <;> simp_all

theorem spaceEmptyTags_tag {name : String} {attributes : List (String × String)}
    (hn : isName name = true) (ha : AttributesNamed attributes) (rest : List Char) :
    spaceEmptyTags ('<' :: tagChars name attributes ++ rest) =
      '<' :: tagChars name attributes ++ spaceEmptyTags rest := by
  have hlast : ('<' :: tagChars name attributes).getLast? ≠ some '/' := by
    have hne : tagChars name attributes ≠ [] := by simp [tagChars, (isName_iff.1 hn).1]
    obtain ⟨c, cs, hc⟩ := List.exists_cons_of_ne_nil hne
    have := getLast?_tagChars hn attributes
    rw [hc] at this ⊢
    simpa [List.getLast?_cons] using this
  rw [spaceEmptyTags_append fun h => absurd h hlast, spaceEmptyTags_eq_self]
  simpa using not_mem_tagChars hn ha.1 (.inr rfl)

/-- The field of a declaration that may be left out. -/
def optionalChars (key : List Char) (value : Option String) : List Char :=
  (value.map (Mark.declaredChars key)).getD []

/-- The characters between the question marks of a declaration. -/
def declarationChars (version : String) (encoding standalone : Option String) : List Char :=
  'x' :: 'm' :: 'l' ::
    (Mark.declaredChars ['v', 'e', 'r', 's', 'i', 'o', 'n'] version ++
      optionalChars ['e', 'n', 'c', 'o', 'd', 'i', 'n', 'g'] encoding ++
      optionalChars ['s', 't', 'a', 'n', 'd', 'a', 'l', 'o', 'n', 'e'] standalone)

theorem chars_declaration (version : String) (encoding standalone : Option String) :
    Mark.chars (.declaration version encoding standalone) =
      '<' :: '?' :: declarationChars version encoding standalone ++ ['?', '>'] := by
  simp [Mark.chars, declarationChars, optionalChars]

theorem not_mem_declarationChars {version : String} {encoding standalone : Option String}
    (h : (Mark.declaration version encoding standalone).Clean) :
    '>' ∉ declarationChars version encoding standalone := by
  have hfield : ∀ key v, '>' ∉ key → '>' ∉ v.toList → '>' ∉ Mark.declaredChars key v := by
    intro key v hk hv
    simp [declaredChars_eq, fieldChars, hk, hv]
  have hversion := hfield ['v', 'e', 'r', 's', 'i', 'o', 'n'] version (by decide)
    (h version (by simp)).2
  have hencoding : '>' ∉ optionalChars ['e', 'n', 'c', 'o', 'd', 'i', 'n', 'g'] encoding := by
    cases encoding with
    | none => simp [optionalChars]
    | some e => exact hfield _ e (by decide) (h e (by simp)).2
  have hstandalone :
      '>' ∉ optionalChars ['s', 't', 'a', 'n', 'd', 'a', 'l', 'o', 'n', 'e'] standalone := by
    cases standalone with
    | none => simp [optionalChars]
    | some e => exact hfield _ e (by decide) (h e (by simp)).2
  simp [declarationChars, hversion, hencoding, hstandalone]

/-- The blank of an empty tag is all that is written differently. -/
theorem spaceEmptyTags_chars {m : Mark} (hm : m.Clean) : spaceEmptyTags m.chars = m.written := by
  cases m with
  | declaration version encoding standalone =>
    have hsplit : Mark.chars (.declaration version encoding standalone) =
        ('<' :: '?' :: declarationChars version encoding standalone ++ ['?']) ++ ['>'] := by
      simp [chars_declaration]
    have hlast : ('<' :: '?' :: declarationChars version encoding standalone ++ ['?']).getLast? ≠
        some '/' := by
      rw [getLast?_append_cons]
      simp
    simp only [Mark.written]
    rw [hsplit, spaceEmptyTags_append fun h => absurd h hlast, spaceEmptyTags_eq_self]
    · simp [spaceEmptyTags]
    · simp [not_mem_declarationChars hm]
  | start name attributes =>
    have hchars : Mark.chars (.start name attributes) =
        '<' :: tagChars name attributes ++ ['>'] := by
      simp [Mark.chars, tagChars, attributesChars]
    rw [hchars, spaceEmptyTags_tag hm.1 hm.2]
    simpa [Mark.written, spaceEmptyTags] using hchars.symm
  | empty name attributes =>
    have hchars : Mark.chars (.empty name attributes) =
        '<' :: tagChars name attributes ++ ['/', '>'] := by
      simp [Mark.chars, tagChars, attributesChars]
    rw [hchars, spaceEmptyTags_tag hm.1 hm.2]
    simp [Mark.written, spaceEmptyTags]
  | close name =>
    have hn : isName name = true := hm
    have hlast : ('<' :: '/' :: name.toList).getLast? ≠ some '/' := by
      obtain ⟨c, cs, hc⟩ := List.exists_cons_of_ne_nil (isName_iff.1 hn).1
      have := getLast?_tagChars hn []
      simp only [tagChars, attributesChars, List.flatMap_nil, List.append_nil] at this
      rw [hc] at this ⊢
      simpa [List.getLast?_cons] using this
    have hmem : '>' ∉ name.toList := not_mem_of_isName hn (by decide)
    simp only [Mark.written, Mark.chars]
    rw [spaceEmptyTags_append fun h => absurd h hlast, spaceEmptyTags_eq_self (by simp [hmem])]
    simp [spaceEmptyTags]
  | text s => exact spaceEmptyTags_eq_self (not_mem_escape (by decide) _)

/-! ## The layout -/

namespace Mark

/-- Whether a mark is text. -/
def isText : Mark → Bool
  | .text _ => true
  | _ => false

/-- The depth after a mark. -/
def depthAfter (depth : Nat) : Mark → Nat
  | .start _ _ => depth + 1
  | .close _ => depth - 1
  | _ => depth

/-- What is laid out in front of a mark. -/
def gap (depth : Nat) (breakLine : Bool) : Mark → List Char
  | .text _ => []
  | .close _ => indent breakLine (depth - 1)
  | _ => indent breakLine depth

theorem layout_cons_eq (depth : Nat) (breakLine : Bool) (m : Mark) (ms : List Mark) :
    layout depth breakLine (m :: ms) =
      m.gap depth breakLine ++ (m.chars ++ layout (m.depthAfter depth) (!m.isText) ms) := by
  cases m <;> simp [layout, gap, depthAfter, isText]

theorem mem_gap {depth : Nat} {breakLine : Bool} {m : Mark} {c : Char}
    (h : c ∈ m.gap depth breakLine) : c = '\n' ∨ c = '\t' := by
  have hindent : ∀ n, c ∈ indent breakLine n → c = '\n' ∨ c = '\t' := by
    intro n hc
    unfold indent at hc
    split_ifs at hc
    · exact (List.mem_cons.1 hc).imp_right fun hc => (List.mem_replicate.1 hc).2
    · contradiction
  cases m with
  | text s => contradiction
  | _ => exact hindent _ h

end Mark

/-- A layout is the first mark after a line break with tabs, or at once, and the layout of the
others. -/
theorem layout_cons_indent (depth : Nat) (breakLine : Bool) (m : Mark) (ms : List Mark) :
    ∃ gap depth' breakLine', (∀ c ∈ gap, c = '\n' ∨ c = '\t') ∧ (m.chars = [] → gap = []) ∧
      Mark.layout depth breakLine (m :: ms) =
        gap ++ (m.chars ++ Mark.layout depth' breakLine' ms) := by
  refine ⟨_, _, _, fun c => Mark.mem_gap, fun hempty => ?_, Mark.layout_cons_eq _ _ _ _⟩
  cases m with
  | text s => rfl
  | _ => contradiction

/-- A layout is the first mark after some space, and the layout of the others. -/
theorem layout_cons (depth : Nat) (breakLine : Bool) (m : Mark) (ms : List Mark) :
    ∃ gap depth' breakLine', (∀ c ∈ gap, isSpace c = true) ∧
      Mark.layout depth breakLine (m :: ms) =
        gap ++ (m.chars ++ Mark.layout depth' breakLine' ms) := by
  obtain ⟨gap, depth', breakLine', hgap, -, hlayout⟩ := layout_cons_indent depth breakLine m ms
  refine ⟨gap, depth', breakLine', fun c hc => ?_, hlayout⟩
  rcases hgap c hc with rfl | rfl <;> decide

theorem head?_chars (m : Mark) : m.chars.head? ≠ some '>' := by
  cases m with
  | text s =>
    intro h
    exact not_mem_escape (by decide) s.toList (List.mem_of_mem_head? h)
  | _ => simp [Mark.chars]

/-- A layout does not begin with a closing bracket, which could end a tag before it. -/
theorem head?_layout (depth : Nat) (breakLine : Bool) (ms : List Mark) :
    (Mark.layout depth breakLine ms).head? ≠ some '>' := by
  induction ms generalizing depth breakLine with
  | nil => simp [Mark.layout]
  | cons m ms ih =>
    obtain ⟨gap, depth', breakLine', hgap, hlayout⟩ := layout_cons depth breakLine m ms
    rw [hlayout]
    cases gap with
    | cons c gap =>
      have : isSpace c = true := hgap c (by simp)
      simp only [List.cons_append, List.head?_cons, ne_eq, Option.some.injEq]
      rintro rfl
      contradiction
    | nil =>
      cases hm : m.chars with
      | nil => simpa using ih depth' breakLine'
      | cons c cs => simpa [hm] using head?_chars m

/-- The layout of marks is a text of them. -/
theorem spaced_layout {ms : List Mark} (hms : ∀ m ∈ ms, m.Clean) (depth : Nat)
    (breakLine : Bool) : Spaced ms (spaceEmptyTags (Mark.layout depth breakLine ms)) := by
  induction ms generalizing depth breakLine with
  | nil => simp [Mark.layout, spaceEmptyTags, Spaced]
  | cons m ms ih =>
    obtain ⟨gap, depth', breakLine', hgap, hlayout⟩ := layout_cons depth breakLine m ms
    have hrest := ih (fun m hm => hms m (by simp [hm])) depth' breakLine'
    refine ⟨gap, _, hgap, ?_, hrest⟩
    have hslash : '/' ∉ gap := fun h => by simpa [isSpace] using hgap _ h
    have hclose : '>' ∉ gap := fun h => by simpa [isSpace] using hgap _ h
    rw [hlayout,
      spaceEmptyTags_append fun h => absurd (List.mem_of_getLast? h) hslash,
      spaceEmptyTags_eq_self hclose,
      spaceEmptyTags_append fun _ => head?_layout depth' breakLine' ms,
      spaceEmptyTags_chars (hms m (by simp))]

end LsxKit.Xml
