import LsxKit.Proofs.Diagnosis.Agreement
import LsxKit.Proofs.Diagnosis.Ranges
import LsxKit.Proofs.Xml.Placed
import LsxKit.Proofs.Xml.Rooted

/-!
# Where the check reports elements

The check reports an element that is not closed and a second root element where their tags begin.
It has the offset of a tag from the reader, which skips a byte order mark without counting it; the
position is found in the text with the mark.

* `Xml.Begins`: where an event begins an element, with the events before it and after it.
* `Xml.LeavesOpen`: events that leave elements open; `leavesOpen_step` and `leavesOpen_run`: the
  check knows the elements that are open.
* `exists_before_of_readingFrom`: the characters before a tag.
* `ofOffset_reportOffset_iff`: where an offset of the reader is reported.
* `checkWellFormed_position_iff`: elements are reported where they begin exactly if the text has no
  byte order mark.
-/

namespace LsxKit

open Xml Xml.Fragment

/-! ## Offsets -/

namespace Text

theorem exists_of_startingAt? {n : Nat} {s : List Char} {c : Char}
    (h : startingAt? n s = some c) : ∃ before rest, s = before ++ c :: rest ∧ size before = n := by
  fun_induction startingAt? n s with
  | case1 => contradiction
  | case2 c' s =>
    obtain rfl := Option.some.inj h
    exact ⟨[], s, rfl, rfl⟩
  | case3 n c' s hc ih =>
    obtain ⟨before, rest, rfl, hsize⟩ := ih h
    refine ⟨c' :: before, rest, rfl, ?_⟩
    rw [size_cons, hsize]
    omega
  | case4 => contradiction

/-- A bracket one byte before the end of some characters is the last of them. -/
theorem getLast?_of_startingAt? {s rest : List Char} (hpos : 0 < size s)
    (h : startingAt? (size s - 1) (s ++ rest) = some '<') : s.getLast? = some '<' := by
  obtain ⟨before, after, happend, hsize⟩ := exists_of_startingAt? h
  have hbracket : size (before ++ ['<']) = size s := by
    rw [size_append, hsize]
    show size s - 1 + 1 = size s
    omega
  have htake : takeBytes (size (before ++ ['<'])) (before ++ ['<'] ++ after) = before ++ ['<'] :=
    takeBytes_size _ after
  rw [hbracket, List.append_assoc, List.singleton_append, ← happend, takeBytes_size] at htake
  rw [htake, List.getLast?_concat]

end Text

namespace Xml

/-! ## Where tags stand -/

variable {text before : List Char} {offset : Nat} {e : Event} {es es' : List (Nat × Event)}

/-- Whether an event begins an element in a text: its tag stands right after the characters
`before`, the events `es` come before it and the events `es'` after it. -/
structure Begins (text before : List Char) (tag : Tag) (es : List Event) (e : Event)
    (es' : List Event) : Prop where
  tag?_eq : e.tag? = some tag
  events : ∃ offset xs xs', (Event.reading text).events = xs ++ (offset, e) :: xs' ∧
    xs.map Prod.snd = es ∧ xs'.map Prod.snd = es' ∧
    Text.size before = Text.size (Outline.mark text) + offset
  text_eq : ∃ left, text = before ++ '<' :: (tag.content ++ left)

/-- Whether the tag after some characters is that of the innermost element that is open at the end
of a text: it is a start tag, and all after it is complete. -/
def InnermostOpen (text before : List Char) (tag : Tag) : Prop :=
  (Event.reading text).fault = none ∧
    ∃ es es' fs, Begins text before tag es (.start tag) es' ∧ eventsAll fs = es'

/-- Whether the tag after some characters is that of a second root element: all before it is
complete, and one element is among it. -/
def SecondRoot (text before : List Char) (tag : Tag) : Prop :=
  ∃ es e es' fs, Begins text before tag es e es' ∧ eventsAll fs = es ∧ OneRoot fs

theorem getLast?_markup {t t' : Token} {head content left source rest : List Char}
    (h : Step.markup t' head content left = .token t source rest) (hends : Outline.EndsTag left)
    (hrest : rest ≠ []) : source.getLast? = some '>' := by
  obtain ⟨-, rfl, rfl⟩ := Step.token.inj h
  cases left with
  | nil => contradiction
  | cons c left =>
    obtain rfl := hends c rfl
    rw [List.take_succ_cons, List.take_zero, List.getLast?_concat]

/-- No token ends with an opening bracket if something comes after it. -/
theorem getLast?_source {t : Token} {cs source rest : List Char}
    (h : step cs = .token t source rest) (hrest : rest ≠ []) : source.getLast? ≠ some '<' := by
  have hne : some '>' ≠ some '<' := by decide
  unfold step at h
  split at h
  · contradiction
  · contradiction
  · intro hlast
    exact absurd (ends_of_bang h _ hlast) (by decide)
  · exact (getLast?_markup h (Outline.endsTag_dropWhile _) hrest).trans_ne hne
  · unfold instruction at h
    split_ifs at h
    exact (getLast?_markup h (Outline.endsTag_dropWhile _) hrest).trans_ne hne
  · exact (getLast?_markup h (Outline.endsTag_splitTag none _) hrest).trans_ne hne
  · obtain ⟨-, rfl, -⟩ := Step.token.inj h
    intro hlast
    simpa using List.all_eq_true.1 List.all_takeWhile _ (List.mem_of_getLast? hlast)

/-- The characters before the tag of an event are as many as its offset says. -/
theorem exists_before_of_readingFrom {opened : List (List Char)} {start : Nat} {cs : List Char}
    {tag : Tag} (htag : e.tag? = some tag)
    (h : (Event.readingFrom opened start cs).events = es ++ (offset, e) :: es') :
    ∃ before left, cs = before ++ '<' :: (tag.content ++ left) ∧
      start + Text.size before = offset ∧ before.getLast? ≠ some '<' := by
  fun_induction Event.readingFrom opened start cs generalizing es with
  | case4 opened start cs t source rest hstep e' he' r =>
    rename_i ih
    cases es with
    | nil =>
      obtain ⟨hhead, -⟩ := List.cons.inj h
      obtain ⟨rfl, rfl⟩ := Prod.mk.inj hhead
      obtain ⟨left, rfl⟩ := exists_left_of_tag hstep he' htag
      exact ⟨[], left, rfl, rfl, by simp⟩
    | cons x es =>
      obtain ⟨before, left, hrest, hsize, hlast⟩ := ih (List.cons.inj h).2
      refine ⟨source ++ before, left, ?_, ?_, ?_⟩
      · rw [← step_source hstep, hrest, List.append_assoc]
      · rw [Text.size_append, ← hsize, Nat.add_assoc]
      · -- an empty `before` leaves the end of this token, which is no bracket
        rw [List.getLast?_append]
        cases hbefore : before.getLast? with
        | none => exact getLast?_source hstep (by simp [hrest])
        | some c => rwa [Option.some_or, ← hbefore]
  | _ => simp at h

/-- An offset of the reader is reported at its place exactly if the text has no byte order mark. -/
theorem ofOffset_reportOffset_iff {rest : List Char}
    (htext : text = Outline.mark text ++ before ++ rest) (hlast : before.getLast? ≠ some '<') :
    Position.ofOffset text (WellFormed.reportOffset text (Text.size before)) =
        Position.after (Outline.mark text ++ before) ↔
      Outline.mark text = [] := by
  constructor
  · intro hposition
    by_contra hmark
    have hreport : WellFormed.reportOffset text (Text.size before) ≤ Text.size before := by
      unfold WellFormed.reportOffset
      split_ifs
      · exact Nat.sub_le _ _
      · exact Nat.le_refl _
    -- the mark is not counted, so the offset is inside what stands before the tag
    have hlt : WellFormed.reportOffset text (Text.size before) <
        Text.size (Outline.mark text ++ before) := by
      have hpos := Text.size_pos hmark
      rw [Text.size_append]
      omega
    obtain ⟨cs, hcs, hne⟩ := Text.takeBytes_of_lt rest hlt
    rw [← htext] at hcs
    rw [hcs] at hposition
    exact hne (Position.eq_nil_of_after_append hposition.symm)
  · intro hmark
    rw [hmark, List.nil_append] at htext ⊢
    have hreport : WellFormed.reportOffset text (Text.size before) = Text.size before := by
      refine if_neg fun h => hlast ?_
      rw [htext] at h
      exact Text.getLast?_of_startingAt? h.1 h.2
    rw [hreport, Position.ofOffset, htext, Text.takeBytes_size]

/-- The place of a tag, and whether the check reports the tag there. -/
theorem exists_begins {tag : Tag} (htag : e.tag? = some tag)
    (h : (Event.reading text).events = es ++ (offset, e) :: es') :
    ∃ before, Begins text before tag (es.map Prod.snd) e (es'.map Prod.snd) ∧
      (Position.ofOffset text (WellFormed.reportOffset text offset) = Position.after before ↔
        Outline.mark text = []) := by
  obtain ⟨before, left, hbefore, hsize, hlast⟩ := exists_before_of_readingFrom htag h
  rw [Nat.zero_add] at hsize
  have htext : text = Outline.mark text ++ before ++ '<' :: (tag.content ++ left) := by
    rw [List.append_assoc, ← hbefore, Outline.mark_append]
  refine ⟨Outline.mark text ++ before, ⟨htag, ?_, left, htext⟩, ?_⟩
  · exact ⟨offset, es, es', h, rfl, rfl, by rw [Text.size_append, hsize]⟩
  · rw [← hsize]
    exact ofOffset_reportOffset_iff htext hlast

/-! ## Elements that are open -/

/-- Whether events leave elements open, innermost first: complete fragments stand before the
outermost of them and after the tag of each. -/
def LeavesOpen : List (Nat × Event) → List (String × Nat) → Prop
  | es, [] => ∃ fs, eventsAll fs = es.map Prod.snd
  | es, (name, offset) :: opened =>
    ∃ before tag after fs, es = before ++ (offset, .start tag) :: after ∧
      name = String.ofList tag.name ∧ eventsAll fs = after.map Prod.snd ∧ LeavesOpen before opened

theorem eventsAll_concat (fs : List Fragment) (f : Fragment) :
    eventsAll (fs ++ [f]) = eventsAll fs ++ f.events := by
  induction fs with
  | nil => simp [eventsAll]
  | cons f' fs ih => rw [List.cons_append, eventsAll, eventsAll, ih, List.append_assoc]

/-- A fragment leaves open what was open. -/
theorem LeavesOpen.fragment {opened : List (String × Nat)} {f : Fragment}
    (h : LeavesOpen es opened) (hf : es'.map Prod.snd = f.events) :
    LeavesOpen (es ++ es') opened := by
  cases opened with
  | nil =>
    obtain ⟨fs, hfs⟩ := h
    exact ⟨fs ++ [f], by rw [eventsAll_concat, hfs, List.map_append, hf]⟩
  | cons o opened =>
    obtain ⟨before, tag, after, fs, rfl, hname, hfs, hbefore⟩ := h
    exact ⟨before, tag, after ++ es', fs ++ [f], by simp, hname,
      by rw [eventsAll_concat, hfs, List.map_append, hf], hbefore⟩

theorem Matched.left {opened : List (List Char)} {es es' : List Event}
    (h : Matched opened (es ++ es')) : Matched opened es := by
  induction es generalizing opened with
  | nil => exact trivial
  | cons e es ih => exact ⟨h.1, ih h.2⟩

namespace WellFormed

variable {s s' : State}

/-- The names of the open elements, innermost first. -/
def State.names (s : State) : List (List Char) := s.opened.map fun o => o.1.toList

theorem names_step (h : step text s offset e = .ok s') :
    s'.names = Event.nextOpened s.names e := by
  cases e with
  | start tag =>
    rw [(step_start h).2]
    simp [State.names, Event.nextOpened]
  | empty tag =>
    rw [(step_empty h).2]
    rfl
  | close name =>
    obtain rfl := Except.ok.inj h
    exact List.map_drop
  | text raw =>
    rw [(step_text h).2]
    rfl
  | _ =>
    obtain rfl := Except.ok.inj h
    rfl

/-- After an event that is accepted the check knows again the elements that are open. -/
theorem leavesOpen_step (hopen : LeavesOpen es s.opened)
    (hclose : ∀ name, e = .close name → s.names.head? = some name)
    (h : step text s offset e = .ok s') : LeavesOpen (es ++ [(offset, e)]) s'.opened := by
  cases e with
  | start tag =>
    rw [(step_start h).2]
    exact ⟨es, tag, [], [], rfl, rfl, rfl, hopen⟩
  | empty tag =>
    rw [(step_empty h).2]
    exact hopen.fragment (f := .empty tag) rfl
  | close name =>
    obtain rfl := Except.ok.inj h
    obtain ⟨opened, seen⟩ := s
    have hhead := hclose name rfl
    cases opened with
    | nil => contradiction
    | cons o opened =>
      obtain ⟨before, tag, after, fs, rfl, hname, hfs, hbefore⟩ := hopen
      obtain rfl : tag.name = name := by simpa [State.names, hname] using hhead
      -- the innermost element is complete now
      have helement : ((o.2, .start tag) :: (after ++ [(offset, .close tag.name)])).map Prod.snd =
          (Fragment.element tag fs).events := by
        simp [events, hfs]
      simpa using hbefore.fragment helement
  | text raw =>
    rw [(step_text h).2]
    exact hopen.fragment (f := .text raw) rfl
  | characterData raw =>
    obtain rfl := Except.ok.inj h
    exact hopen.fragment (f := .characterData raw) rfl
  | declaration content =>
    obtain rfl := Except.ok.inj h
    exact hopen.fragment (f := .declaration content) rfl
  | other =>
    obtain rfl := Except.ok.inj h
    exact hopen.fragment (f := .other) rfl

theorem leavesOpen_run (hopen : LeavesOpen es s.opened)
    (hmatched : Matched s.names (es'.map Prod.snd)) (h : run text s es' = .ok s') :
    LeavesOpen (es ++ es') s'.opened := by
  induction es' generalizing s es with
  | nil =>
    obtain rfl := Except.ok.inj h
    rwa [List.append_nil]
  | cons e es' ih =>
    obtain ⟨next, hstep, hrun⟩ := bind_eq_ok_iff.1 h
    obtain ⟨hclose, hmatched⟩ := hmatched
    rw [← names_step hstep] at hmatched
    have hnext := ih (leavesOpen_step hopen hclose hstep) hmatched hrun
    rwa [List.append_assoc] at hnext

/-- What the check knows after the first events of a text. -/
theorem leavesOpen_reading (hevents : (Event.reading text).events = es ++ es')
    (h : run text .initial es = .ok s) : LeavesOpen es s.opened := by
  have hmatched : Matched [] ((es ++ es').map Prod.snd) :=
    hevents ▸ matched_readingFrom [] 0 (Event.dropMark text)
  rw [List.map_append] at hmatched
  have hstart : LeavesOpen [] State.initial.opened := ⟨[], rfl⟩
  exact leavesOpen_run hstart hmatched.left h

/-- A check that fails does so at one of the events, after it accepted those before it. -/
theorem exists_of_run_error {fault : Nat × DocumentFault} (h : run text s es = .error fault) :
    ∃ before offset e after next, es = before ++ (offset, e) :: after ∧
      run text s before = .ok next ∧ step text next offset e = .error fault := by
  induction es generalizing s with
  | nil => contradiction
  | cons x es ih =>
    rcases bind_eq_error_iff.1 h with hstep | ⟨next, hstep, hrun⟩
    · exact ⟨[], x.1, x.2, es, s, rfl, rfl, hstep⟩
    · obtain ⟨before, offset, e, after, last, rfl, hbefore, hlast⟩ := ih hrun
      exact ⟨x :: before, offset, e, after, last, rfl, bind_eq_ok_iff.2 ⟨next, hstep, hbefore⟩,
        hlast⟩

theorem eq_attribute_of_checkAttributes {tag : Tag} {fault : DocumentFault}
    (h : checkAttributes tag = .error fault) : ∃ f, fault = .attribute f := by
  unfold checkAttributes at h
  split at h
  · next f _ => exact ⟨f, (Except.error.inj h).symm⟩
  · contradiction

/-- A fault at one event says of no element that it is open, and of one that it is a second root
only at its tag, outside all elements and after a root. -/
theorem secondRoot_of_step {n : Nat} {fault : DocumentFault}
    (h : step text s offset e = .error (n, fault)) :
    (∃ tag, e.tag? = some tag ∧ fault = .secondRoot (String.ofList tag.name) ∧
      n = reportOffset text offset ∧ s.opened = [] ∧ s.rootSeen = true) ∨
    ∀ name, fault ≠ .secondRoot name ∧ fault ≠ .unclosed name := by
  cases e with
  | start tag | empty tag =>
    simp only [step] at h
    split_ifs at h with hguard
    · obtain ⟨rfl, rfl⟩ := Prod.mk.inj (Except.error.inj h)
      simp only [Bool.and_eq_true, List.isEmpty_iff] at hguard
      exact .inl ⟨tag, rfl, rfl, rfl, hguard⟩
    · rcases bind_eq_error_iff.1 h with h | ⟨_, -, h⟩
      · obtain ⟨fault', hcheck, heq⟩ := mapError_eq_error_iff.1 h
        obtain ⟨-, rfl⟩ := Prod.mk.inj heq
        obtain ⟨f, rfl⟩ := eq_attribute_of_checkAttributes hcheck
        exact .inr fun name => by simp
      · contradiction
  | text raw =>
    refine .inr fun name => ?_
    simp only [step] at h
    rcases bind_eq_error_iff.1 h with h | ⟨resolved, -, h⟩
    · obtain ⟨fault', hresolve, heq⟩ := mapError_eq_error_iff.1 h
      obtain ⟨-, rfl⟩ := Prod.mk.inj heq
      obtain ⟨f, -, rfl⟩ := mapError_eq_error_iff.1 hresolve
      simp
    · split_ifs at h
      · obtain ⟨-, rfl⟩ := Prod.mk.inj (Except.error.inj h)
        simp
      · contradiction
  | _ => contradiction

/-- What is missing at the end is the end of the innermost open element, or a root. -/
theorem unclosed_of_finish {n : Nat} {fault : DocumentFault}
    (h : finish text s = .error (n, fault)) :
    (∃ name offset opened, s.opened = (name, offset) :: opened ∧ n = reportOffset text offset ∧
      fault = .unclosed name) ∨ fault = .noRoot := by
  unfold finish at h
  split at h
  · next name offset opened hopened =>
    obtain ⟨rfl, rfl⟩ := Prod.mk.inj (Except.error.inj h)
    exact .inl ⟨name, offset, opened, hopened, rfl, rfl⟩
  · split_ifs at h
    exact .inr (Prod.mk.inj (Except.error.inj h)).2.symm

/-- A check fails at an event, or where the markup is wrong, or at the end. -/
theorem check_error_cases {fault : Nat × DocumentFault} (h : check text = .error fault) :
    (∃ before offset e after s, (Event.reading text).events = before ++ (offset, e) :: after ∧
      run text .initial before = .ok s ∧ step text s offset e = .error fault) ∨
    (∃ f, fault.2 = .markup f) ∨
    (Event.reading text).fault = none ∧ ∃ s,
      run text .initial (Event.reading text).events = .ok s ∧ finish text s = .error fault := by
  rcases bind_eq_error_iff.1 h with hrun | ⟨s, hrun, h⟩
  · exact .inl (exists_of_run_error hrun)
  · cases hfault : (Event.reading text).fault with
    | some f =>
      rw [hfault] at h
      obtain rfl := Except.error.inj h
      exact .inr (.inl ⟨f.2, rfl⟩)
    | none =>
      rw [hfault] at h
      exact .inr (.inr ⟨rfl, s, hrun, h⟩)

/-- An open element is reported where all is read, and it is the innermost of those that are
open. -/
theorem unclosed_of_check {n : Nat} {name : String} (h : check text = .error (n, .unclosed name)) :
    (Event.reading text).fault = none ∧ ∃ s offset opened,
      run text .initial (Event.reading text).events = .ok s ∧
        s.opened = (name, offset) :: opened ∧ n = reportOffset text offset := by
  rcases check_error_cases h with
    ⟨-, _, e, -, s, -, -, hstep⟩ | ⟨f, hf⟩ | ⟨hread, s, hrun, hfinish⟩
  · rcases secondRoot_of_step hstep with ⟨tag, -, hfault, -⟩ | hne
    · contradiction
    · exact absurd rfl (hne name).2
  · contradiction
  · rcases unclosed_of_finish hfinish with ⟨name', offset, opened, hopened, hn, hfault⟩ | hfault
    · obtain rfl := DocumentFault.unclosed.inj hfault
      exact ⟨hread, s, offset, opened, hrun, hopened, hn⟩
    · contradiction

/-- A second root is reported at its tag, outside all elements and after a root. -/
theorem secondRoot_of_check {n : Nat} {name : String}
    (h : check text = .error (n, .secondRoot name)) :
    ∃ before offset e after tag, (Event.reading text).events = before ++ (offset, e) :: after ∧
      e.tag? = some tag ∧ String.ofList tag.name = name ∧ n = reportOffset text offset ∧
      run text .initial before = .ok ⟨[], true⟩ := by
  rcases check_error_cases h with
    ⟨before, offset, e, after, ⟨opened, seen⟩, hevents, hbefore, hstep⟩ | ⟨f, hf⟩ |
      ⟨-, s, -, hfinish⟩
  · rcases secondRoot_of_step hstep with ⟨tag, htag, hfault, hn, rfl, rfl⟩ | hne
    · exact ⟨before, offset, e, after, tag, hevents, htag,
        (DocumentFault.secondRoot.inj hfault).symm, hn, hbefore⟩
    · exact absurd rfl (hne name).1
  · contradiction
  · rcases unclosed_of_finish hfinish with ⟨_, _, _, -, -, hfault⟩ | hfault
    · contradiction
    · contradiction

end WellFormed

/-! ## Reported positions -/

/-- An element that is not closed is reported where the innermost of those begins that are open at
the end, and a second root element where it begins, exactly if the text has no byte order mark. -/
theorem checkWellFormed_position_iff (text : String) (position : Position) (name : String) :
    (checkWellFormed text = .error (.document position (.unclosed name)) →
      ∃ before tag, InnermostOpen text.toList before tag ∧ String.ofList tag.name = name ∧
        (position = Position.after before ↔ Outline.mark text.toList = [])) ∧
    (checkWellFormed text = .error (.document position (.secondRoot name)) →
      ∃ before tag, SecondRoot text.toList before tag ∧ String.ofList tag.name = name ∧
        (position = Position.after before ↔ Outline.mark text.toList = [])) := by
  constructor
  · intro h
    obtain ⟨⟨n, fault⟩, hcheck, heq⟩ := mapError_eq_error_iff.1 h
    obtain ⟨rfl, rfl⟩ := Error.document.inj heq
    obtain ⟨hfault, s, offset, opened, hrun, hopened, rfl⟩ := WellFormed.unclosed_of_check hcheck
    have hopen := WellFormed.leavesOpen_reading (List.append_nil _).symm hrun
    rw [hopened] at hopen
    obtain ⟨es, tag, es', fs, hevents, hname, hfs, -⟩ := hopen
    obtain ⟨before, hbegins, hposition⟩ := exists_begins rfl hevents
    exact ⟨before, tag, ⟨hfault, _, _, fs, hbegins, hfs⟩, hname.symm, hposition⟩
  · intro h
    obtain ⟨⟨n, fault⟩, hcheck, heq⟩ := mapError_eq_error_iff.1 h
    obtain ⟨rfl, rfl⟩ := Error.document.inj heq
    obtain ⟨es, offset, e, es', tag, hevents, htag, hname, rfl, hrun⟩ :=
      WellFormed.secondRoot_of_check hcheck
    obtain ⟨fs, hfs⟩ := WellFormed.leavesOpen_reading hevents hrun
    have hroot := WellFormed.oneRoot_of_run hfs.symm hrun rfl
    obtain ⟨before, hbegins, hposition⟩ := exists_begins htag hevents
    exact ⟨before, tag, ⟨_, e, _, fs, hbegins, hfs, hroot⟩, hname, hposition⟩

/-- Characters of several bytes, line ends of two characters, comments and text before a tag do not
matter. -/
theorem checkWellFormed_position_lines :
    (checkWellFormed "<a>é\r\n<!-- <x> -->ü <b>" =
        .error (.document ⟨1, 14⟩ (.unclosed "b")) ∧
      ∃ before tag, InnermostOpen "<a>é\r\n<!-- <x> -->ü <b>".toList before tag ∧
        String.ofList tag.name = "b" ∧ ⟨1, 14⟩ = Position.after before) ∧
    (checkWellFormed "<a>é</a>\r\n<!-- ü --> <b/>" =
        .error (.document ⟨1, 11⟩ (.secondRoot "b")) ∧
      ∃ before tag, SecondRoot "<a>é</a>\r\n<!-- ü --> <b/>".toList before tag ∧
        String.ofList tag.name = "b" ∧ ⟨1, 11⟩ = Position.after before) := by
  have hopen : checkWellFormed "<a>é\r\n<!-- <x> -->ü <b>" =
      .error (.document ⟨1, 14⟩ (.unclosed "b")) := by decide +kernel
  have hsecond : checkWellFormed "<a>é</a>\r\n<!-- ü --> <b/>" =
      .error (.document ⟨1, 11⟩ (.secondRoot "b")) := by decide +kernel
  obtain ⟨before, tag, hinnermost, hname, hposition⟩ :=
    (checkWellFormed_position_iff _ _ _).1 hopen
  obtain ⟨before', tag', hroot, hname', hposition'⟩ :=
    (checkWellFormed_position_iff _ _ _).2 hsecond
  exact ⟨⟨hopen, before, tag, hinnermost, hname, hposition.2 (by decide)⟩,
    ⟨hsecond, before', tag', hroot, hname', hposition'.2 (by decide)⟩⟩

/-- After a byte order mark and two line feeds a tag is reported on the first line. -/
theorem not_checkWellFormed_position :
    ¬ ∀ (text : String) (position : Position) (name : String),
      (checkWellFormed text = .error (.document position (.unclosed name)) →
        ∃ before tag, InnermostOpen text.toList before tag ∧ String.ofList tag.name = name ∧
          position = Position.after before) ∧
      (checkWellFormed text = .error (.document position (.secondRoot name)) →
        ∃ before tag, SecondRoot text.toList before tag ∧ String.ofList tag.name = name ∧
          position = Position.after before) := by
  intro hall
  have hopen : checkWellFormed "\uFEFF\n\n<a>" = .error (.document ⟨0, 0⟩ (.unclosed "a")) := by
    decide +kernel
  obtain ⟨before, tag, ⟨-, _, _, _, hbegins, -⟩, -, hposition⟩ := (hall _ _ _).1 hopen
  obtain ⟨left, htext⟩ := hbegins.text_eq
  -- the text has one bracket, so the tag stands on the third line
  have hsplit : ['\uFEFF', '\n', '\n'] ++ '<' :: ['a', '>'] =
      before ++ '<' :: (tag.content ++ left) := htext
  obtain ⟨rfl, -⟩ := (List.append_cons_inj_of_notMem (by decide) (by decide)).1 hsplit
  exact absurd hposition (by decide)

end Xml

end LsxKit
