import LsxKit.Proofs.Diagnosis.Outline
import LsxKit.Proofs.Xml.Readable

/-!
# Outlines and events

An outline takes every closing bracket for the end of a comment, of character data and of a document
type. So it sees the tags of elements where markup has none, if brackets follow. It also ends names
at slashes and at blanks that are no space for markup, and sees a tag in a bracket at the very end.

* `Xml.pieces`: the tokens of a text with their characters, and what is left.
* `Xml.Token.fits`: whether an outline sees a token as it is.
* `scan_piece`: what a scan finds in a piece of markup that fits.
* `elementTags_ofLines_iff`: an outline has the tags of the elements of a document, and no others,
  exactly if all its pieces fit and nothing is left.
-/

namespace LsxKit

/-! ## Pieces of markup -/

namespace Xml

/-- The tokens of a text, each with its characters, and what is left when reading ends. -/
def pieces (cs : List Char) : List (Token × List Char) × List Char :=
  match _h : step cs with
  | .token t source rest => ((t, source) :: (pieces rest).1, (pieces rest).2)
  | _ => ([], cs)
termination_by cs.length
decreasing_by all_goals exact step_length _h

/-- Whether no tag of an element seems to begin in some characters: outside marks every bracket
begins a mark, a declaration, a comment and the like, and every mark ends at the next closing
bracket. `inside` is whether a mark has begun before. -/
def quiet : (inside : Bool) → List Char → Bool
  | _, [] => true
  | true, c :: cs => quiet (c ≠ '>') cs
  | false, c :: cs =>
    if c = '<' then Outline.kindOf cs = .other && quiet true cs else quiet false cs

/-- Whether an outline sees a token with the characters `source` as it is: it keeps the name of a
tag, and no tag seems to begin in a comment, in character data or in a document type. -/
def Token.fits (source : List Char) : Token → Bool
  | .tag content => (Event.ofTag content).name?.all (·.all Outline.inName)
  | .close content => (Event.closeName content).all Outline.inName
  | .comment _ | .characterData _ | .doctype _ => quiet false source
  | .text _ | .instruction _ => true

variable {cs source rest content left : List Char} {t : Token}

theorem pieces_of_token (h : step cs = .token t source rest) :
    pieces cs = ((t, source) :: (pieces rest).1, (pieces rest).2) := by
  rw [pieces]
  split
  · next h' =>
    obtain ⟨rfl, rfl, rfl⟩ := Step.token.inj (h.symm.trans h')
    rfl
  · next hne => exact absurd h (hne t source rest)

theorem pieces_of_done (h : step cs = .done) : pieces cs = ([], cs) := by
  rw [pieces]
  split
  · next h' => exact absurd (h.symm.trans h') nofun
  · rfl

/-! ## Ends of pieces -/

theorem head?_splitWhen? {complete : List Char → Bool} {read : List Char}
    (h : splitWhen? complete read cs = some (content, left)) : left.head? = some '>' := by
  fun_induction splitWhen? complete read cs with
  | case1 => contradiction
  | case2 read c cs hc =>
    obtain ⟨-, rfl⟩ := Prod.mk.inj (Option.some.inj h)
    rw [hc.1, List.head?_cons]
  | case3 read c cs hc ih => exact ih h

theorem head?_splitBalanced? {depth : Nat} (h : splitBalanced? depth cs = some (content, left)) :
    left.head? = some '>' := by
  induction cs generalizing depth content with
  | nil => contradiction
  | cons c cs ih =>
    unfold splitBalanced? at h
    split at h
    · next hc =>
      obtain ⟨-, rfl⟩ := Prod.mk.inj (Option.some.inj h)
      rw [hc.1, List.head?_cons]
    · obtain ⟨⟨content', left'⟩, hsplit, hcontent⟩ := Option.map_eq_some_iff.1 h
      obtain ⟨-, rfl⟩ := Prod.mk.inj hcontent
      exact ih hsplit

/-- Markup after an exclamation mark ends with a closing bracket, and fits if it is quiet. -/
theorem exists_markup_of_bang (h : bang cs = .token t source rest) :
    ∃ head content left, Step.markup t head content ('>' :: left) = .token t source rest ∧
      t.fits source = quiet false source := by
  have hmarkup : ∀ {t' : Token} {head content left : List Char},
      Step.markup t' head content left = .token t source rest → left.head? = some '>' →
      t'.fits source = quiet false source →
      ∃ head content left, Step.markup t head content ('>' :: left) = .token t source rest ∧
        t.fits source = quiet false source := by
    intro t' head content left h hleft hfits
    obtain ⟨left, rfl⟩ := List.head?_eq_some_iff.1 hleft
    obtain rfl : t' = t := (Step.token.inj h).1
    exact ⟨head, content, left, h, hfits⟩
  unfold bang at h
  repeat' split at h
  all_goals first
    | contradiction
    | (next hsplit _ _ _ => exact hmarkup h (head?_splitWhen? hsplit) rfl)
    | (next hsplit _ _ _ _ => exact hmarkup h (head?_splitBalanced? hsplit) rfl)

theorem ends_of_bang (h : bang cs = .token t source rest) : ∀ c ∈ source.getLast?, c = '>' := by
  obtain ⟨head, content, left, hmarkup, -⟩ := exists_markup_of_bang h
  obtain ⟨-, hsource, -⟩ := Step.token.inj hmarkup
  have hlast : source.getLast? = some '>' := by
    rw [← hsource, List.take_succ_cons, List.getLast?_append]
    rfl
  intro c hc
  exact Option.some.inj (hc.symm.trans hlast)

theorem fits_of_bang (h : bang cs = .token t source rest) : t.fits source = quiet false source := by
  obtain ⟨-, -, -, -, hfits⟩ := exists_markup_of_bang h
  exact hfits

end Xml

/-! ## Positions of tags -/

/-- The position of the bracket of a tag. -/
def OutlineTag.position (tag : OutlineTag) : Position := ⟨tag.line, tag.column⟩

namespace Outline

open Xml

variable {before source rest cs : List Char} {d : Nat} {t : Token} {e : Event}
  {opened : List (List Char)} {inside : Bool}

/-- The tags that begin or end elements. -/
def elementTags (tags : List OutlineTag) : List OutlineTag := tags.filter (·.kind ≠ .other)

theorem elementTags_append (tags tags' : List OutlineTag) :
    elementTags (tags ++ tags') = elementTags tags ++ elementTags tags' :=
  List.filter_append tags tags'

/-! ## Scanning marks -/

/-- The state outside tags, or inside a mark. -/
def State.marked (inside : Bool) (d : Nat) : State :=
  ⟨if inside then some .other else none, none, d⟩

theorem scan_marked (before : List Char) (d : Nat) (c : Char) (cs : List Char) :
    scan before (.marked true d) (c :: cs) = scan (before ++ [c]) (.marked (c ≠ '>') d) cs := by
  by_cases hc : c = '>' <;> simp [scan, step, State.marked, hc, depthAfter]

theorem scan_unmarked {c : Char} (hc : c ≠ '<') (before : List Char) (d : Nat) (cs : List Char) :
    scan before (.marked false d) (c :: cs) = scan (before ++ [c]) (.marked false d) cs :=
  scan_outside before d (show '<' ∉ [c] by simpa using Ne.symm hc) cs

theorem scan_mark (hkind : kindOf cs = .other) (before : List Char) (d : Nat) :
    elementTags (scan before (.marked false d) ('<' :: cs)) =
      elementTags (scan (before ++ ['<']) (.marked true d) cs) := by
  have hopen : scan before ⟨none, none, d⟩ ('<' :: cs) = _ := scan_open cs
  rw [hkind] at hopen
  exact (congrArg elementTags hopen).trans rfl

/-- The tag that is found where one begins or ends an element. -/
theorem mem_scan_element (cs : List Char) (hkind : kindOf cs ≠ .other) (before : List Char)
    (d : Nat) :
    ⟨(Position.after before).line, (Position.after before).column, kindOf cs,
        nameOf (kindOf cs) cs, d⟩ ∈ elementTags (scan before ⟨none, none, d⟩ ('<' :: cs)) := by
  rw [scan_open]
  exact List.mem_filter.2 ⟨List.mem_cons_self, by simpa using hkind⟩

/-- What remains of a piece that ends with a closing bracket still ends with one. -/
theorem ends_of_cons {c : Char} (hlast : ∀ c' ∈ (c :: cs).getLast?, c' = '>') :
    (∀ c' ∈ cs.getLast?, c' = '>') ∧ (cs = [] → c = '>') := by
  constructor
  · intro c' hc'
    refine hlast c' ?_
    rw [List.getLast?_cons, Option.mem_def.1 hc']
    rfl
  · rintro rfl
    exact hlast c rfl

/-- No tag of an element is found in quiet characters. -/
theorem scan_quiet (hquiet : quiet inside source = true) (hlast : ∀ c ∈ source.getLast?, c = '>')
    (hempty : source = [] → inside = false) (before rest : List Char) (d : Nat) :
    elementTags (scan before (.marked inside d) (source ++ rest)) =
      elementTags (scan (before ++ source) (.marked false d) rest) := by
  fun_induction quiet inside source generalizing before with
  | case1 inside => rw [hempty rfl, List.nil_append, List.append_nil]
  | case2 c cs ih =>
    obtain ⟨hends, hnil⟩ := ends_of_cons hlast
    rw [List.cons_append, scan_marked, ih hquiet hends (by simpa using hnil), List.append_assoc]
    rfl
  | case3 cs ih =>
    obtain ⟨hends, hnil⟩ := ends_of_cons hlast
    obtain ⟨hkind, hquiet⟩ := Bool.and_eq_true_iff.1 hquiet
    have hne : cs ≠ [] := fun he => absurd (hnil he) (by decide)
    have hother : kindOf (cs ++ rest) = .other :=
      (kindOf_append_of_ne_nil hne rest).trans (of_decide_eq_true hkind)
    rw [List.cons_append, scan_mark hother, ih hquiet hends fun he => absurd he hne,
      List.append_assoc]
    rfl
  | case4 c cs hc ih =>
    rw [List.cons_append, scan_unmarked hc, ih hquiet (ends_of_cons hlast).1 fun _ => rfl,
      List.append_assoc]
    rfl

/-- In characters that are not quiet the tag of an element is found. -/
theorem exists_mem_scan (hquiet : quiet inside source = false)
    (hlast : ∀ c ∈ source.getLast?, c = '>') (before rest : List Char) (d : Nat) :
    ∃ p q tag, source = p ++ '<' :: q ∧ tag.position = Position.after (before ++ p) ∧
      tag ∈ elementTags (scan before (.marked inside d) (source ++ rest)) := by
  fun_induction quiet inside source generalizing before with
  | case1 inside => contradiction
  | case2 c cs ih =>
    obtain ⟨p, q, tag, rfl, hposition, hmem⟩ :=
      ih hquiet (ends_of_cons hlast).1 (before ++ [c])
    refine ⟨c :: p, q, tag, rfl, by rw [hposition, List.append_assoc]; rfl, ?_⟩
    rwa [List.cons_append, scan_marked]
  | case3 cs ih =>
    obtain ⟨hends, hnil⟩ := ends_of_cons hlast
    have hne : cs ≠ [] := fun he => absurd (hnil he) (by decide)
    have hsame := kindOf_append_of_ne_nil hne rest
    by_cases hkind : kindOf cs = .other
    · rw [decide_eq_true hkind, Bool.true_and] at hquiet
      obtain ⟨p, q, tag, rfl, hposition, hmem⟩ := ih hquiet hends (before ++ ['<'])
      refine ⟨'<' :: p, q, tag, rfl, by rw [hposition, List.append_assoc]; rfl, ?_⟩
      rwa [List.cons_append, scan_mark (hsame.trans hkind)]
    · exact ⟨[], cs, _, rfl, by rw [List.append_nil]; rfl,
        mem_scan_element (cs ++ rest) (by rwa [hsame]) before d⟩
  | case4 c cs hc ih =>
    obtain ⟨p, q, tag, rfl, hposition, hmem⟩ :=
      ih hquiet (ends_of_cons hlast).1 (before ++ [c])
    refine ⟨c :: p, q, tag, rfl, by rw [hposition, List.append_assoc]; rfl, ?_⟩
    rwa [List.cons_append, scan_unmarked hc]

/-! ## Scanning pieces -/

theorem of_not_isPlain (h : ¬e.IsPlain) (at_ : Position) (d : Nat) :
    e.outlineTag? at_ d = none ∧ e.depthAfter d = d := by
  cases e with
  | characterData raw => exact ⟨rfl, rfl⟩
  | other => exact ⟨rfl, rfl⟩
  | _ => exact absurd trivial h

/-- A tag fits if the outline keeps its name. -/
theorem fits_tag_iff {content : List Char} :
    (Token.tag content).fits source = true ↔ (Event.ofTag content).KeepsName := by
  rw [Token.fits, Event.KeepsName]
  generalize (Event.ofTag content).name? = name
  cases name <;> simp

/-- Instructions and declarations end where a scan ends them. -/
theorem scan_instruction (before cs : List Char) (d : Nat) :
    elementTags (scan before ⟨none, none, d⟩ ('<' :: '?' :: cs)) =
      elementTags (scan (before ++ ('<' :: ['?'] ++ cs.takeWhile (· ≠ '>') ++
        (cs.dropWhile (· ≠ '>')).take 1)) ⟨none, none, d⟩ ((cs.dropWhile (· ≠ '>')).drop 1)) := by
  have hmark : ('?' :: cs).takeWhile (· ≠ '>') = '?' :: cs.takeWhile (· ≠ '>') := rfl
  have hleft : ('?' :: cs).dropWhile (· ≠ '>') = cs.dropWhile (· ≠ '>') := rfl
  have hkind : kindOf ('?' :: cs) = .other := rfl
  refine (scan_mark hkind before d).trans ?_
  rw [State.marked, if_pos rfl, scan_takeWhile (by decide) ('?' :: cs), hmark, hleft,
    scan_bracket .other (endsTag_dropWhile cs)]
  simp [depthAfter]

/-- What a scan finds in a piece that fits: its tag, if it is one. -/
theorem scan_piece (hstep : Xml.step cs = .token t source rest)
    (he : Event.ofToken? opened t = .ok e) (hfits : t.fits source = true) (before : List Char)
    (d : Nat) :
    elementTags (scan before ⟨none, none, d⟩ cs) =
      elementTags (e.outlineTag? (Position.after before) d).toList ++
        elementTags (scan (before ++ source) ⟨none, none, e.depthAfter d⟩ rest) := by
  by_cases houtlined : e.Outlined
  · rw [scan_token hstep he houtlined, elementTags_append]
  -- left are the pieces without a tag of an element: their marks end at the first closing bracket
  have hsource := step_source hstep
  unfold Xml.step at hstep
  split at hstep
  · contradiction
  · contradiction
  · obtain ⟨htag, hdepth⟩ :=
      of_not_isPlain (not_isPlain_of_bang hstep he) (Position.after before) d
    have hquiet := scan_quiet ((fits_of_bang hstep).symm.trans hfits) (ends_of_bang hstep)
      (fun _ => rfl) before rest d
    rw [htag, hdepth, ← hsource]
    exact hquiet
  · next cs =>
    simp only [close, Step.markup, Step.token.injEq] at hstep
    obtain ⟨rfl, -, -⟩ := hstep
    obtain rfl := eq_close_of_ofToken? he
    refine absurd ⟨trivial, ?_⟩ houtlined
    rintro name ⟨⟩
    exact List.all_eq_true.1 hfits
  · next cs =>
    unfold instruction at hstep
    split_ifs at hstep
    simp only [Step.markup, Step.token.injEq] at hstep
    obtain ⟨rfl, rfl, rfl⟩ := hstep
    obtain rfl := Except.ok.inj he
    have hother : ¬(Event.ofInstruction (cs.takeWhile (· ≠ '>')).dropLast).IsPlain := by
      intro hplain
      refine houtlined ⟨hplain, ?_⟩
      rw [(takeWhile_declaration hplain []).2]
      intro name hname
      exact absurd hname (Option.not_mem_none name)
    obtain ⟨htag, hdepth⟩ := of_not_isPlain hother (Position.after before) d
    rw [htag, hdepth, scan_instruction]
    rfl
  · next cs hnil hbang hslash hquestion =>
    simp only [Step.markup, Step.token.injEq] at hstep
    obtain ⟨rfl, -, -⟩ := hstep
    obtain rfl := Except.ok.inj he
    refine absurd ⟨?_, fits_tag_iff.1 hfits⟩ houtlined
    unfold Event.ofTag
    split_ifs <;> trivial
  · next c cs hnil hbang hslash hquestion hc =>
    simp only [Step.token.injEq] at hstep
    obtain ⟨rfl, -, -⟩ := hstep
    obtain rfl := Except.ok.inj he
    refine absurd ⟨trivial, ?_⟩ houtlined
    intro name hname
    exact absurd hname (Option.not_mem_none name)

/-- The name that an outline gives to a tag ends where it ends names. -/
theorem inName_of_mem_nameOf {kind : TagKind} {c : Char} (h : c ∈ nameOf kind cs) :
    inName c = true := by
  unfold nameOf at h
  split at h
  · exact List.all_eq_true.1 List.all_takeWhile c h
  · exact List.all_eq_true.1 List.all_takeWhile c h

/-- Where a piece does not fit, a scan finds the tag of an element that begins in the piece and is
not its tag. -/
theorem scan_of_not_fits (hstep : Xml.step cs = .token t source rest)
    (he : Event.ofToken? opened t = .ok e) (hfits : t.fits source = false) (before : List Char)
    (d : Nat) :
    ∃ p q tag, source = p ++ '<' :: q ∧ tag.position = Position.after (before ++ p) ∧
      e.outlineTag? (Position.after before) d ≠ some tag ∧
      tag ∈ elementTags (scan before ⟨none, none, d⟩ cs) := by
  have hsource := step_source hstep
  unfold Xml.step at hstep
  split at hstep
  · contradiction
  · contradiction
  · obtain ⟨p, q, tag, hp, hposition, hmem⟩ :=
      exists_mem_scan ((fits_of_bang hstep).symm.trans hfits) (ends_of_bang hstep) before rest d
    refine ⟨p, q, tag, hp, hposition, ?_, hsource ▸ hmem⟩
    rw [(of_not_isPlain (not_isPlain_of_bang hstep he) _ d).1]
    exact (Option.some_ne_none tag).symm
  · next cs =>
    simp only [close, Step.markup, Step.token.injEq] at hstep
    obtain ⟨rfl, rfl, -⟩ := hstep
    obtain rfl := eq_close_of_ofToken? he
    have hkind : kindOf ('/' :: cs) = .closing := rfl
    refine ⟨[], _, _, rfl, by rw [List.append_nil]; rfl, fun hsame => ?_,
      mem_scan_element ('/' :: cs) (by rw [hkind]; decide) before d⟩
    have hname : Event.closeName (cs.takeWhile (· ≠ '>')) = nameOf .closing ('/' :: cs) :=
      congrArg OutlineTag.name (Option.some.inj hsame)
    have hall : (Event.closeName (cs.takeWhile (· ≠ '>'))).all inName = true :=
      List.all_eq_true.2 fun c hc => inName_of_mem_nameOf (hname ▸ hc)
    exact absurd hall (Bool.eq_false_iff.1 hfits)
  · next cs =>
    unfold instruction at hstep
    split_ifs at hstep
    simp only [Step.markup, Step.token.injEq] at hstep
    obtain ⟨rfl, -, -⟩ := hstep
    contradiction
  · next cs hnil hbang hslash hquestion =>
    simp only [Step.markup, Step.token.injEq] at hstep
    obtain ⟨rfl, rfl, -⟩ := hstep
    obtain rfl := Except.ok.inj he
    have hkind : kindOf cs = .opening := kindOf.eq_4 cs hslash hquestion hbang
    refine ⟨[], _, _, rfl, by rw [List.append_nil]; rfl, fun hsame => ?_,
      mem_scan_element cs (by rw [hkind]; decide) before d⟩
    refine absurd (fits_tag_iff.2 ?_) (Bool.eq_false_iff.1 hfits)
    intro name hname c hc
    have hnames : name = nameOf (kindOf cs) cs := by
      unfold Event.ofTag at hname hsame
      split_ifs at hname hsame
      · exact (Option.some.inj hname).symm.trans
          (congrArg OutlineTag.name (Option.some.inj hsame))
      · exact (Option.some.inj hname).symm.trans
          (congrArg OutlineTag.name (Option.some.inj hsame))
    exact inName_of_mem_nameOf (hnames ▸ hc)
  · simp only [Step.token.injEq] at hstep
    obtain ⟨rfl, -, -⟩ := hstep
    contradiction

/-! ## Scanning a document -/

/-- The tags of events begin where the events do. -/
theorem exists_position_of_mem_tags {text : List Char} {tag : OutlineTag} (before : List Char)
    (d : Nat) (htext : before ++ cs = Event.dropMark text)
    (hmem : tag ∈ tags text d (Event.readingFrom opened (Text.size before) cs).events) :
    ∃ p, tag.position = Position.after (mark text ++ before ++ p) := by
  generalize hoffset : Text.size before = offset at *
  fun_induction Event.readingFrom opened offset cs generalizing before d with
  | case1 opened offset cs hstep => contradiction
  | case2 opened offset cs fault hstep => contradiction
  | case3 opened offset cs t source rest hstep fault he => contradiction
  | case4 opened offset cs t source rest hstep e he r ih =>
    rw [tags, List.mem_append, Option.mem_toList] at hmem
    rcases hmem with hmem | hmem
    · have hposition : position text offset = Position.after (mark text ++ before) := by
        rw [position, ← htext, ← hoffset, Text.takeBytes_size]
      refine ⟨[], ?_⟩
      rw [List.append_nil, ← hposition]
      cases e <;> first | contradiction | exact (Option.some.inj hmem) ▸ rfl
    · have hsource := step_source hstep
      obtain ⟨p, hp⟩ := ih (before ++ source) (e.depthAfter d)
        (by rw [List.append_assoc, hsource, htext]) (by rw [Text.size_append, hoffset]) hmem
      exact ⟨source ++ p, by rw [hp]; simp only [List.append_assoc]⟩

/-- Scanning a text from a piece of markup on finds the tags of the elements there, and no others,
exactly if all pieces from there on fit and nothing is left. -/
theorem scan_readingFrom_iff (text before cs : List Char) (opened : List (List Char))
    (htext : before ++ cs = Event.dropMark text)
    (hfault : (Event.readingFrom opened (Text.size before) cs).fault = none) :
    elementTags (scan (mark text ++ before) ⟨none, none, opened.length⟩ cs) =
        elementTags (tags text opened.length
          (Event.readingFrom opened (Text.size before) cs).events) ↔
      (∀ p ∈ (pieces cs).1, p.1.fits p.2 = true) ∧ (pieces cs).2 = [] := by
  generalize hoffset : Text.size before = offset at *
  fun_induction Event.readingFrom opened offset cs generalizing before with
  | case1 opened offset cs hstep =>
    rw [pieces_of_done hstep]
    rcases eq_of_step_done hstep with rfl | rfl
    · exact iff_of_true rfl ⟨List.forall_mem_nil _, rfl⟩
    · refine iff_of_false (fun h => ?_) fun h => absurd h.2 (List.cons_ne_nil _ _)
      have hmem := mem_scan_element [] (by decide) (mark text ++ before) opened.length
      rw [h] at hmem
      exact absurd hmem List.not_mem_nil
  | case2 opened offset cs fault hstep => exact absurd hfault (Option.some_ne_none _)
  | case3 opened offset cs t source rest hstep fault he =>
    exact absurd hfault (Option.some_ne_none _)
  | case4 opened offset cs t source rest hstep e he r ih =>
    have hsource := step_source hstep
    have hposition : position text offset = Position.after (mark text ++ before) :=
      hoffset ▸ position_size htext
    have htext' : before ++ source ++ rest = Event.dropMark text := by
      rw [List.append_assoc, hsource, htext]
    have hoffset' : Text.size (before ++ source) = offset + Text.size source := by
      rw [Text.size_append, hoffset]
    rw [pieces_of_token hstep, List.forall_mem_cons, tags, elementTags_append, hposition]
    cases hfits : t.fits source with
    | true =>
      have hrest := ih (before ++ source) htext' hoffset' hfault
      rw [scan_piece hstep he hfits, List.append_cancel_left_eq, ← Event.length_nextOpened,
        List.append_assoc, hrest]
      simp
    | false =>
      refine iff_of_false (fun h => ?_) fun h => absurd h.1.1 Bool.false_ne_true
      obtain ⟨p, q, tag, hp, hat, hne, hmem⟩ :=
        scan_of_not_fits hstep he hfits (mark text ++ before) opened.length
      rw [h] at hmem
      rcases List.mem_append.1 hmem with hmem | hmem
      · exact hne (Option.mem_toList.1 (List.mem_filter.1 hmem).1)
      · -- all other tags begin after the piece
        obtain ⟨p', hp'⟩ := exists_position_of_mem_tags (before ++ source) _ htext'
          (by rw [hoffset']; exact (List.mem_filter.1 hmem).1)
        have hlonger : mark text ++ (before ++ source) ++ p' =
            mark text ++ before ++ p ++ ('<' :: q ++ p') := by
          rw [hp]
          simp only [List.append_assoc, List.cons_append]
        rw [hat, hlonger] at hp'
        exact absurd (Position.eq_nil_of_after_append hp'.symm) (List.cons_ne_nil _ _)

/-- The outline of a well-formed text has the tags that begin and end its elements, in order, with
their names and depths, and no others, exactly if an outline sees all its pieces as they are and
nothing is left: no name has a character at which the outline ends names, no tag of an element seems
to begin in a comment, in character data or in a document type, and there is no bracket at the very
end. -/
theorem elementTags_ofLines_iff {text : String} (h : checkWellFormed text = .ok ()) :
    elementTags (ofLines (Text.lines text.toList)) =
        elementTags (tags text.toList 0 (Event.reading text.toList).events) ↔
      (∀ p ∈ (pieces (Event.dropMark text.toList)).1, p.1.fits p.2 = true) ∧
        (pieces (Event.dropMark text.toList)).2 = [] := by
  have hscan := scan_readingFrom_iff text.toList [] (Event.dropMark text.toList) [] rfl
    (checkWellFormed_ok h).1
  rw [List.append_nil] at hscan
  rw [ofLines_lines, scan_dropMark]
  exact hscan

/-- A comment with brackets in which no tag of an element seems to begin. -/
theorem elementTags_ofLines_comment :
    checkWellFormed "<a>\n<!-- 1 > 0 <? -->\n<b c='>'/>\n</a>" = .ok () ∧
      elementTags (ofLines (Text.lines "<a>\n<!-- 1 > 0 <? -->\n<b c='>'/>\n</a>".toList)) =
        elementTags (tags "<a>\n<!-- 1 > 0 <? -->\n<b c='>'/>\n</a>".toList 0
          (Event.reading "<a>\n<!-- 1 > 0 <? -->\n<b c='>'/>\n</a>".toList).events) := by
  have h : checkWellFormed "<a>\n<!-- 1 > 0 <? -->\n<b c='>'/>\n</a>" = .ok () := by
    decide +kernel
  exact ⟨h, (elementTags_ofLines_iff h).2 (by decide +kernel)⟩

/-- Two empty elements in a comment: the second one is taken for an element. -/
theorem elementTags_ofLines_two_tags :
    ¬ ∀ text, checkWellFormed text = .ok () →
      (elementTags (ofLines (Text.lines text.toList))).map (fun t => (t.kind, t.name, t.depth)) =
        (elementTags (tags text.toList 0 (Event.reading text.toList).events)).map fun t =>
          (t.kind, t.name, t.depth) := by
  intro hall
  have h := hall "<a>\n<!-- <b/> <c/> -->\n<c/>\n</a>" (by decide +kernel)
  revert h
  decide +kernel

end Outline

end LsxKit
