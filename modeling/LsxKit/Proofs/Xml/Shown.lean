import LsxKit.Proofs.Text.Lines
import LsxKit.Proofs.Version.Line
import LsxKit.Proofs.Xml.Spaced

/-!
# What stands before a tag on its line

A tag begins a line unless it follows text, and text stands right after the start tag of its
element. So what stands on the line of a tag before it are start tags of the elements around it,
and their texts.

* `layout_append`: the layout of marks after others.
* `Shown`: whether some characters are laid out on a line after calm text only.
* `shown_element`, `shown_append`: what is shown inside an element, or among other marks, is shown.
* `exists_written_of_shown`: a tag that is shown is written after calm text.
-/

namespace LsxKit.Xml

open Version Text

variable {ms ms' : List Mark} {piece s : List Char} {name : String}
  {attributes : List (String × String)}

/-! ## The layout after marks -/

namespace Mark

/-- Whether a tag after marks begins a new line. -/
def breaksAfter (breakLine : Bool) (ms : List Mark) : Bool :=
  (ms.getLast?.map (!·.isText)).getD breakLine

theorem breaksAfter_cons (breakLine : Bool) (m : Mark) (ms : List Mark) :
    breaksAfter breakLine (m :: ms) = breaksAfter (!m.isText) ms := by
  rw [breaksAfter, breaksAfter, List.getLast?_cons]
  cases ms.getLast? <;> rfl

/-- The layout of marks goes on with the layout of those that follow. -/
theorem layout_append (depth : Nat) (breakLine : Bool) (ms ms' : List Mark) :
    ∃ depth', layout depth breakLine (ms ++ ms') =
      layout depth breakLine ms ++ layout depth' (breaksAfter breakLine ms) ms' := by
  induction ms generalizing depth breakLine with
  | nil => exact ⟨depth, rfl⟩
  | cons m ms ih =>
    obtain ⟨depth', h⟩ := ih (m.depthAfter depth) (!m.isText)
    refine ⟨depth', ?_⟩
    rw [List.cons_append, layout_cons_eq, layout_cons_eq, h, breaksAfter_cons, List.append_assoc,
      List.append_assoc]

end Mark

/-- Whether marks do not end with text. -/
def EndsWithTag (ms : List Mark) : Prop := ∀ m ∈ ms.getLast?, m.isText = false

theorem endsWithTag_append (hms : EndsWithTag ms) (hms' : EndsWithTag ms') :
    EndsWithTag (ms ++ ms') := by
  intro m hm
  rw [List.getLast?_append, Option.mem_def, Option.or_eq_some_iff] at hm
  rcases hm with hm | ⟨-, hm⟩
  · exact hms' m hm
  · exact hms m hm

theorem breaksAfter_of_endsWithTag (h : EndsWithTag ms) (hne : ms ≠ []) (breakLine : Bool) :
    Mark.breaksAfter breakLine ms = true := by
  have hlast := List.getLast?_eq_some_getLast hne
  rw [Mark.breaksAfter, hlast, Option.map_some, Option.getD_some, h _ hlast]
  rfl

/-! ## What is shown -/

theorem calm_lastLine (hs : Calm s) : Calm (lastLine s) := by
  obtain ⟨-, h | ⟨earlier, h⟩⟩ := exists_lastLine s
  · rwa [← h]
  · rw [h, List.append_cons] at hs
    exact calm_of_append hs

theorem calm_lastLine_append (hs : Calm s) {t : List Char} (ht : Calm (lastLine t)) :
    Calm (lastLine (s ++ t)) := by
  by_cases hline : '\n' ∈ t
  · rwa [lastLine_append_of_mem s hline]
  · rw [lastLine_of_not_mem hline] at ht
    exact calm_lastLine (calm_append hs ht)

/-- Whether some characters are among those of marks, on a line on which calm text stands before
them. If a tag begins a line where the marks begin, so does the line of the characters. -/
def Shown (piece : List Char) (ms : List Mark) : Prop :=
  ∀ depth breakLine, ∃ before after,
    Mark.layout depth breakLine ms = before ++ (piece ++ after) ∧ Calm (lastLine before) ∧
      (breakLine = true → '\n' ∈ before)

theorem mem_indent_of_breakLine {breakLine : Bool} (h : breakLine = true) (depth : Nat) :
    '\n' ∈ Mark.indent breakLine depth := by
  simp [Mark.indent, h]

theorem calm_indent (breakLine : Bool) (depth : Nat) : Calm (Mark.indent breakLine depth) := by
  apply calm_of_not_mem
  unfold Mark.indent
  split_ifs
  · simp [List.mem_replicate]
  · simp

/-- The characters of an empty element are shown. -/
theorem shown_empty (name : String) (attributes : List (String × String)) (ms : List Mark) :
    Shown (Mark.chars (.empty name attributes)) (.empty name attributes :: ms) := by
  intro depth breakLine
  exact ⟨_, _, Mark.layout_cons_eq _ _ _ _, calm_lastLine (calm_indent _ _),
    fun h => mem_indent_of_breakLine h depth⟩

/-- What is shown is shown with other marks after it. -/
theorem shown_append (h : Shown piece ms) (ms' : List Mark) : Shown piece (ms ++ ms') := by
  intro depth breakLine
  obtain ⟨before, after, hlayout, hcalm, hbreak⟩ := h depth breakLine
  obtain ⟨depth', happend⟩ := Mark.layout_append depth breakLine ms ms'
  exact ⟨before, _, by rw [happend, hlayout, List.append_assoc, List.append_assoc], hcalm, hbreak⟩

/-- Before it, other marks end their line, unless they end with text. -/
theorem shown_append_left (hms : EndsWithTag ms) (h : Shown piece ms') :
    Shown piece (ms ++ ms') := by
  by_cases hne : ms = []
  · rwa [hne, List.nil_append]
  · intro depth breakLine
    obtain ⟨depth', happend⟩ := Mark.layout_append depth breakLine ms ms'
    rw [breaksAfter_of_endsWithTag hms hne] at happend
    obtain ⟨before, after, hlayout, hcalm, hbreak⟩ := h depth' true
    refine ⟨Mark.layout depth breakLine ms ++ before, after, ?_, ?_, fun _ => ?_⟩
    · rw [happend, hlayout, List.append_assoc]
    · rwa [lastLine_append_of_mem _ (hbreak rfl)]
    · exact List.mem_append_right _ (hbreak rfl)

/-- What is shown inside an element is shown, its start tag and its text being calm. -/
theorem shown_element (hstart : Calm (Mark.chars (.start name attributes))) (text : String)
    (h : Shown piece ms) :
    Shown piece (.start name attributes :: ((if text = "" then [] else [.text text]) ++ ms)) := by
  split_ifs with htext
  · have htag : EndsWithTag [Mark.start name attributes] := by simp [EndsWithTag, Mark.isText]
    exact shown_append_left htag h
  · intro depth breakLine
    obtain ⟨before, after, hlayout, hcalm, -⟩ := h (depth + 1) false
    have htext : Calm (Mark.chars (.text text)) := calm_of_not_mem (not_mem_escape (by decide) _)
    refine ⟨Mark.indent breakLine depth ++ (Mark.chars (.start name attributes) ++
      (Mark.chars (.text text) ++ before)), after, ?_, ?_, fun hbreak => ?_⟩
    · simp [Mark.layout, hlayout]
    · exact calm_lastLine_append (calm_indent _ _)
        (calm_lastLine_append hstart (calm_lastLine_append htext hcalm))
    · exact List.mem_append_left _ (mem_indent_of_breakLine hbreak depth)

/-- A start tag is calm if its name begins with another letter than the element that is looked for,
and no bracket is in a name. -/
theorem calm_start {c : Char} {rest : List Char} (hname : name.toList = c :: rest) (hc : c ≠ 'a')
    (hbracket : '<' ∉ name.toList) (hattributes : ∀ a ∈ attributes, '<' ∉ a.1.toList) :
    Calm (Mark.chars (.start name attributes)) := by
  have hfields : '<' ∉ attributes.flatMap Mark.attributeChars := by
    rw [List.mem_flatMap]
    rintro ⟨a, ha, hmem⟩
    have hkey := hattributes a ha
    have hvalue : '<' ∉ escape a.2.toList := not_mem_escape (by decide) _
    simp [Mark.attributeChars, hkey, hvalue] at hmem
  have hinside : Calm (name.toList ++ (attributes.flatMap Mark.attributeChars ++ ['>'])) := by
    apply calm_of_not_mem
    simp [hbracket, hfields]
  rw [Mark.chars, List.cons_append, List.cons_append, List.append_assoc]
  exact ⟨fun _ => ⟨c, by simp [hname], hc⟩, hinside⟩

/-! ## The text that is written -/

theorem head?_spaceEmptyTags (s : List Char) :
    (spaceEmptyTags s).head? = s.head? ∨ (spaceEmptyTags s).head? = some ' ' := by
  unfold spaceEmptyTags
  split <;> simp

theorem calm_spaceEmptyTags (h : Calm s) : Calm (spaceEmptyTags s) := by
  fun_induction spaceEmptyTags s with
  | case1 => trivial
  | case2 cs ih => exact ⟨by simp, by simp, by simp, ih h.2.2⟩
  | case3 c cs hne ih =>
    refine ⟨fun hc => ?_, ih h.2⟩
    obtain ⟨d, hd, hda⟩ := h.1 hc
    rcases head?_spaceEmptyTags cs with hhead | hhead
    · exact ⟨d, by rwa [hhead], hda⟩
    · exact ⟨' ', hhead, by decide⟩

/-- The blanks of empty tags are put into each line by itself. -/
theorem lastLine_spaceEmptyTags (s : List Char) :
    lastLine (spaceEmptyTags s) = spaceEmptyTags (lastLine s) := by
  obtain ⟨hnot, h⟩ := exists_lastLine s
  generalize lastLine s = last at hnot h ⊢
  have hspaced : '\n' ∉ spaceEmptyTags last := by rwa [mem_spaceEmptyTags (by decide)]
  rcases h with rfl | ⟨earlier, rfl⟩
  · exact lastLine_of_not_mem hspaced
  · have hline : spaceEmptyTags (earlier ++ '\n' :: last) =
        spaceEmptyTags earlier ++ '\n' :: spaceEmptyTags last := by
      rw [spaceEmptyTags_append (by simp)]
      simp [spaceEmptyTags]
    rw [hline, lastLine_append_cons _ hspaced]

/-- A tag that is shown is written, its slash spaced, after calm text on its line. -/
theorem exists_written_of_shown (h : Shown piece ms) (hfirst : piece.head? = some '<')
    (hlast : piece.getLast? = some '>') :
    ∃ before after, spaceEmptyTags (Mark.layout 0 false ms) =
      before ++ (spaceEmptyTags piece ++ after) ∧ Calm (lastLine before) := by
  obtain ⟨before, after, hlayout, hcalm, -⟩ := h 0 false
  have hnot : (piece ++ after).head? ≠ some '>' := by
    rw [List.head?_append, hfirst, Option.some_or]
    decide
  have hslash : piece.getLast? ≠ some '/' := by
    rw [hlast]
    decide
  refine ⟨spaceEmptyTags before, spaceEmptyTags after, ?_, ?_⟩
  · rw [hlayout, spaceEmptyTags_append fun _ => hnot,
      spaceEmptyTags_append fun he => absurd he hslash]
  · rw [lastLine_spaceEmptyTags]
    exact calm_spaceEmptyTags hcalm

end LsxKit.Xml
