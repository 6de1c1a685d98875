import LsxKit.Proofs.Diagnosis.Forward
import LsxKit.Proofs.Diagnosis.Siblings
import LsxKit.Proofs.Xml.Placed
import LsxKit.Proofs.Xml.Rooted

/-!
# Attributes of the root element

The columns of an attribute are found by a search in the characters of a line, from its tag on,
which knows nothing of quotes. So it finds an attribute of the root element unless something before
it reads as one of its name, in a value for example, and only if there is a blank before it.

* `PrologFits`: what comes before the root element that an outline sees as it is.
* `scan_root`, `exists_root`: the search for the name of the root element finds its tag.
* `ComesFirst`: an attribute that is the first one of its name on a line.
* `locate_rootAttribute_iff`: the columns are those of the attribute exactly if its name can be
  looked for and it comes first.
* `not_locate_rootAttribute`: they are not, with an attribute of its name in a value.
-/

namespace LsxKit

/-! ## The tag of the root element -/

/-- Whether a token is a start tag or the tag of an empty element. -/
def Xml.Token.isTag : Token → Bool
  | .tag _ => true
  | _ => false

namespace Outline

open Locator Xml

/-- Whether an outline sees what comes before the first tag of a text as it is: no tag seems to
begin in a comment, in character data or in a document type there. -/
def PrologFits (text : List Char) : Prop :=
  ∀ p ∈ (pieces (Event.dropMark text)).1.takeWhile (!·.1.isTag), p.1.fits p.2 = true

instance (text : List Char) : Decidable (PrologFits text) :=
  inferInstanceAs (Decidable (∀ p ∈ _, _))

variable {before cs : List Char} {offset start : Nat} {tag : Tag} {t : Token} {e : Event}
  {opened : List (List Char)} {k : String}

theorem isTag_of_ofToken? (he : Event.ofToken? opened t = .ok e) :
    t.isTag = e.tag?.isSome := by
  cases htag : e.tag? with
  | some tag =>
    obtain ⟨content, rfl, -⟩ := prefix_of_ofToken? he htag
    rfl
  | none =>
    cases t with
    | tag content =>
      obtain rfl := Except.ok.inj he
      unfold Event.ofTag at htag
      split_ifs at htag
      · contradiction
      · contradiction
    | _ => rfl

theorem outlineTag?_of_tag (h : e.tag? = some tag) (at_ : Position) (d : Nat) :
    e.name? = some tag.name ∧
      e.outlineTag? at_ d = some ⟨at_.line, at_.column, .opening, tag.name, d⟩ := by
  cases e with
  | start tag' | empty tag' =>
    obtain rfl := Option.some.inj h
    exact ⟨rfl, rfl⟩
  | _ => contradiction

/-- Outside all elements, what begins none has no tag of an element, and leaves none open. -/
theorem of_tag?_eq_none (he : Event.ofToken? [] t = .ok e) (h : e.tag? = none) (at_ : Position) :
    Event.nextOpened [] e = [] ∧ elementTags (e.outlineTag? at_ 0).toList = [] := by
  cases e with
  | start tag => contradiction
  | empty tag => contradiction
  | close name => exact absurd rfl (ne_nil_of_ofToken? he)
  | _ => exact ⟨rfl, rfl⟩

/-- The first tag of an element that a scan finds is that of the root element, if what comes before
it fits. -/
theorem scan_root (hfirst : ((Event.readingFrom [] offset cs).events.findSome? fun x =>
      x.2.tag?.map (x.1, ·)) = some (start, tag))
    (hfits : ∀ p ∈ (pieces cs).1.takeWhile (!·.1.isTag), p.1.fits p.2 = true)
    (hname : ∀ c ∈ tag.name, inName c = true) (before : List Char) :
    ∃ skipped rest tags, cs = skipped ++ '<' :: (tag.content ++ rest) ∧
      start = offset + Text.size skipped ∧
      elementTags (scan before ⟨none, none, 0⟩ cs) =
        ⟨(Position.after (before ++ skipped)).line, (Position.after (before ++ skipped)).column,
          .opening, tag.name, 0⟩ :: tags := by
  generalize hopened : ([] : List (List Char)) = opened at *
  fun_induction Event.readingFrom opened offset cs generalizing before with
  | case1 => contradiction
  | case2 => contradiction
  | case3 => contradiction
  | case4 _ offset cs t source rest hstep e he r =>
    rename_i ih
    subst hopened
    have hsource := step_source hstep
    rw [List.findSome?_cons] at hfirst
    rw [pieces_of_token hstep, List.takeWhile_cons, isTag_of_ofToken? he] at hfits
    cases htag : e.tag? with
    | some tag' =>
      rw [htag, Option.map_some] at hfirst
      obtain ⟨rfl, rfl⟩ := Prod.mk.inj (Option.some.inj hfirst)
      obtain ⟨left, hleft⟩ := exists_left_of_tag hstep he htag
      obtain ⟨hkept, hmark⟩ := outlineTag?_of_tag htag (Position.after before) 0
      have hfits : t.fits source = true := by
        obtain ⟨content, rfl, -⟩ := prefix_of_ofToken? he htag
        obtain rfl := Except.ok.inj he
        rw [fits_tag_iff, Event.KeepsName, hkept]
        rintro name ⟨⟩
        exact hname
      refine ⟨[], left, elementTags (scan (before ++ source) ⟨none, none, e.depthAfter 0⟩ rest),
        hleft, rfl, ?_⟩
      rw [scan_piece hstep he hfits, hmark, List.append_nil]
      rfl
    | none =>
      rw [htag, Option.map_none] at hfirst
      rw [htag, Option.isSome_none, Bool.not_false, if_pos rfl, List.forall_mem_cons] at hfits
      obtain ⟨hopened, hnone⟩ := of_tag?_eq_none he htag (Position.after before)
      obtain ⟨skipped, left, tags, hrest, hstart, hscan⟩ :=
        ih hfits.2 (before ++ source) hopened.symm hfirst
      have hdepth : e.depthAfter 0 = 0 := by
        have hlength := Event.length_nextOpened [] e
        rw [hopened] at hlength
        exact hlength.symm
      refine ⟨source ++ skipped, left, tags, ?_, ?_, ?_⟩
      · rw [← hsource, hrest, List.append_assoc]
      · rw [hstart, Text.size_append, Nat.add_assoc]
      · rw [scan_piece hstep he hfits.1, hnone, hdepth, List.nil_append, hscan, List.append_assoc]

/-- What begins no element has another name than what begins one. -/
theorem not_opens_of_other {s : State} {t t' : OutlineTag} (ht : t ∈ scan before s cs)
    (hother : t.kind = .other) (ht' : t' ∈ scan before s cs) (hopening : t'.kind = .opening) :
    t.opens t'.name = false := by
  refine Bool.eq_false_iff.2 fun hopens => ?_
  have hsame : t.name = t'.name := of_decide_eq_true (Bool.and_eq_true_iff.1 hopens).2
  have hmark := (kind_eq_other_iff ht (by rw [hother]; decide)).1 hother
  rw [hsame] at hmark
  have hkind := (kind_eq_other_iff ht' (by rw [hopening]; decide)).2 hmark
  rw [hopening] at hkind
  contradiction

/-- Tags that begin or end no element do not matter to a search that they do not end. -/
theorem map_findOpening_elementTags {name : List Char} {ts : List OutlineTag}
    (h : ∀ t ∈ ts, t.kind = .other → t.opens name = false) :
    (findOpening name (elementTags ts)).map Prod.fst = (findOpening name ts).map Prod.fst := by
  induction ts with
  | nil => rfl
  | cons t ts ih =>
    rw [List.forall_mem_cons] at h
    by_cases hkind : t.kind = .other
    · rw [findOpening_cons (h.1 hkind), ← ih h.2, elementTags, elementTags,
        List.filter_cons_of_neg (by simpa using hkind)]
    · rw [elementTags, List.filter_cons_of_pos (by simpa using hkind)]
      by_cases hopens : t.opens name = true
      · rw [findOpening, findOpening, if_pos hopens, if_pos hopens]
        rfl
      · rw [findOpening, findOpening, if_neg hopens, if_neg hopens]
        exact ih h.2

end Outline

namespace Locator

open Json Xml Outline

/-! ## The first attribute of a name -/

/-- Whether an attribute of the name that is written after the characters `before` of the text `s`
is the first one: it can begin there, and where one can begin before, none of the name is
written. -/
structure ComesFirst (name s before : List Char) : Prop where
  begins : canBegin before = true
  alone : ∀ p source rest, p ++ (source ++ rest) = s → p.length < before.length →
    canBegin p = true → ¬ Written name source

variable {name before source rest : List Char} {l : Locator} {anchor : Option Anchor}

theorem firstAfter_iff_comesFirst (h : Written name source) :
    FirstAfter name [] (before ++ (source ++ rest)) before source.length ↔
      ComesFirst name (before ++ (source ++ rest)) before := by
  constructor
  · intro hfirst
    refine ⟨hfirst.begins, fun p source' rest' hp hlt hbegin hwritten => ?_⟩
    have hnone := hfirst.first p (source' ++ rest') hp hlt hbegin
    rw [attributeLength?_eq_some_iff.2 ⟨source', rest', rfl, rfl, hwritten⟩] at hnone
    contradiction
  · intro hcomes
    refine ⟨hcomes.begins, ⟨source ++ rest, rfl, ?_⟩, fun p t ht hlt hbegin => ?_⟩
    · exact attributeLength?_eq_some_iff.2 ⟨source, rest, rfl, rfl, h⟩
    · refine Option.eq_none_iff_forall_ne_some.2 fun n hn => ?_
      obtain ⟨source', rest', rfl, -, hwritten⟩ := attributeLength?_eq_some_iff.1 hn
      exact hcomes.alone p source' rest' ht hlt hbegin hwritten

/-- Where an attribute is written, the search finds it exactly if it comes first. -/
theorem findAttribute?_eq_iff_comesFirst (h : Written name source) (before rest : List Char)
    (column : Nat) :
    findAttribute? name column true (before ++ (source ++ rest)) =
        some (column + before.length, source.length) ↔
      ComesFirst name (before ++ (source ++ rest)) before := by
  rw [← firstAfter_iff_comesFirst h]
  refine (findAttribute?_eq_some_iff []).trans ?_
  constructor
  · rintro ⟨skipped, hlength, hfirst⟩
    obtain ⟨rest', hsplit, -⟩ := hfirst.found
    obtain ⟨rfl, -⟩ := List.append_inj hsplit (by omega)
    exact hfirst
  · intro hfirst
    exact ⟨before, rfl, hfirst⟩

/-- The columns of an attribute are those of the one that is found on the line, if its name can be
looked for. -/
theorem locateAttribute_eq_iff {line : List Char} (h : l.lines[(place anchor).1]? = some line)
    (k : String) (start n : Nat) :
    l.locateAttribute anchor k = ⟨(place anchor).1, some (start, start + n)⟩ ↔
      isSearchable k = true ∧
        findAttribute? k.toList (place anchor).2 true (line.drop (place anchor).2) =
          some (start, n) := by
  constructor
  · intro hlocate
    obtain ⟨text, htext, hsearchable, m, hfound, hm⟩ :=
      columns_locateAttribute_eq_some_iff.1 (congrArg Location.columns hlocate)
    obtain rfl := Option.some.inj (h.symm.trans htext)
    obtain rfl := Nat.add_left_cancel hm
    exact ⟨hsearchable, hfound⟩
  · rintro ⟨hsearchable, hfound⟩
    have hcolumns := columns_locateAttribute_eq_some_iff.2 ⟨line, h, hsearchable, n, hfound, rfl⟩
    exact congrArg (Location.mk (place anchor).1) hcolumns

/-- An attribute of an element that is found first. -/
theorem locate_attribute {r : String} {a : Anchor} (hgroup : r ≠ l.group) (htext : r ≠ Tree.textKey)
    (hfound : findOpening r.toList l.tags = some a) (k : String) :
    l.locate [.key r, .key l.group, .key k] = l.locateAttribute (some a) k := by
  rw [locate, follow_key hgroup htext none hfound, follow.eq_def]
  simp only [if_true]

/-- An attribute as it is written in a tag is one as it is looked for. -/
theorem written_of_writtenAs {x : RawAttribute} (h : x.WrittenAs source) :
    Written x.key source := by
  obtain ⟨space, space', quote, rfl, hspace, hspace', hquote, hvalue⟩ := h
  exact ⟨space, space', quote, x.value, rfl, fun c hc => isBlank_of_isSpace (hspace c hc),
    fun c hc => isBlank_of_isSpace (hspace' c hc), hquote, hvalue⟩

theorem getLast?_of_written (h : Written name source) :
    source.getLast? = some '"' ∨ source.getLast? = some '\'' := by
  obtain ⟨blanks, blanks', quote, value, rfl, -, -, hquote, -⟩ := h
  have hlast : ∀ init : List Char, (init ++ [quote]).getLast? = some quote := by simp
  have hsource : name ++ (blanks ++ '=' :: (blanks' ++ quote :: (value ++ [quote]))) =
      name ++ (blanks ++ '=' :: (blanks' ++ quote :: value)) ++ [quote] := by simp
  rw [hsource, hlast]
  exact hquote.imp (congrArg some) (congrArg some)

/-! ## Attributes of the root element -/

variable {text : String} {e : Occurrence}

/-- What stands in the text at the root element, and what a search for its name finds. -/
theorem exists_root (hcheck : checkWellFormed text = .ok ()) (he : e ∈ occurrences text.toList)
    (hprolog : PrologFits text.toList) (hname : ∀ c ∈ e.tag.name, inName c = true) :
    ∃ before rest a, text.toList = before ++ '<' :: (e.tag.content ++ rest) ∧
      position text.toList e.offset = Position.after before ∧
      findOpening e.name.toList (Outline.ofLines (Text.lines text.toList)) = some a ∧
      a.1.position = position text.toList e.offset := by
  obtain ⟨skipped, rest, tags, hdrop, hstart, hscan⟩ :=
    scan_root (findSome?_tag_of_root hcheck he) hprolog hname (mark text.toList)
  have hposition : position text.toList e.offset =
      Position.after (mark text.toList ++ skipped) := by
    rw [hstart, Nat.zero_add]
    exact position_size hdrop.symm
  have hlist : elementTags (scan [] .initial text.toList) = beginTag text.toList 0 e :: tags := by
    rw [← hposition] at hscan
    rw [scan_dropMark]
    exact hscan
  have hroot : beginTag text.toList 0 e ∈ scan [] .initial text.toList := by
    have hmem : beginTag text.toList 0 e ∈ elementTags (scan [] .initial text.toList) := by
      rw [hlist]
      exact List.mem_cons_self
    exact (List.mem_filter.1 hmem).1
  have hother : ∀ t ∈ scan [] .initial text.toList, t.kind = .other →
      t.opens e.name.toList = false := by
    intro t ht hkind
    rw [← name_eq_iff.1 (rfl : e.name = e.name)]
    exact not_opens_of_other ht hkind hroot rfl
  have hfound := map_findOpening_elementTags hother
  rw [hlist, findOpening_beginTag rfl, ← ofLines_lines] at hfound
  obtain ⟨a, ha, htag⟩ := Option.map_eq_some_iff.1 hfound.symm
  refine ⟨mark text.toList ++ skipped, rest, a, ?_, hposition, ha, by rw [htag]; rfl⟩
  conv => lhs; rw [← mark_append text.toList, hdrop]
  rw [List.append_assoc]

/-- The attributes of the root element are written correctly. -/
theorem attributes_of_root (hcheck : checkWellFormed text = .ok ())
    (he : e ∈ occurrences text.toList) : e.tag.attributes.2 = none := by
  obtain ⟨-, s, hrun, -⟩ := checkWellFormed_ok hcheck
  obtain ⟨⟨offset, event⟩, hmem, hevent⟩ :=
    List.exists_of_findSome?_eq_some (findSome?_tag_of_root hcheck he)
  obtain ⟨tag, htag, hpair⟩ := Option.map_eq_some_iff.1 hevent
  obtain ⟨-, rfl⟩ := Prod.mk.inj hpair
  have hsound := WellFormed.sound_of_run hrun _ hmem
  cases event with
  | start tag | empty tag =>
    obtain rfl := Option.some.inj htag
    exact hsound
  | _ => contradiction

/-- An attribute of a tag that is written on one line stands on the line of the tag. -/
theorem exists_line_of_places {tag : Tag} {x : RawAttribute}
    (hplaces : tag.Places x before source) (hline : '\n' ∉ tag.content) (above below : List Char) :
    ∃ line rest, (Text.lines (above ++ '<' :: (tag.content ++ below)))[
        (Position.after above).line]? = some line ∧
      line.drop (Position.after above).column = '<' :: (before ++ (source ++ rest)) := by
  obtain ⟨hwritten, after, hcontent⟩ := hplaces.content
  have hlast : ('<' :: (before ++ source)).getLast? = source.getLast? := by
    have hne := List.length_pos_iff.1 (length_pos_of_written (written_of_writtenAs hwritten))
    rw [← List.cons_append, List.getLast?_append_of_ne_nil _ hne]
  have hend : ('<' :: (before ++ source)).getLast? ≠ some '\r' := by
    rcases getLast?_of_written (written_of_writtenAs hwritten) with hquote | hquote
    · rw [hlast, hquote]
      decide
    · rw [hlast, hquote]
      decide
  have hpiece : '\n' ∉ '<' :: (before ++ source) := by
    rw [hcontent, ← List.append_assoc, List.mem_append, not_or] at hline
    rw [List.mem_cons, not_or]
    exact ⟨by decide, hline.1⟩
  obtain ⟨rest, hget⟩ :=
    Text.exists_line_at (List.cons_ne_nil _ _) hpiece hend above (after ++ below)
  refine ⟨Text.lastLine above ++ ('<' :: (before ++ source) ++ rest), rest, ?_, ?_⟩
  · rw [hcontent, ← hget]
    simp
  · rw [Position.after_eq]
    simp

/-- The columns of an attribute of the root element are its own exactly if its name can be looked
for and it comes first: there is a blank before it, and no attribute of its name seems to be
written before it on the line. The outline has to keep the name of the element, and to see what
comes before it as it is. -/
theorem locate_rootAttribute_iff {group : String} (hcheck : checkWellFormed text = .ok ())
    (he : e ∈ occurrences text.toList) (hprolog : PrologFits text.toList)
    (hline : '\n' ∉ e.tag.content) (hname : ∀ c ∈ e.tag.name, inName c = true)
    (hgroup : e.name ≠ group) (htext : e.name ≠ Tree.textKey) {x : RawAttribute}
    (hx : x ∈ e.tag.attributes.1) :
    (∃ before source, e.tag.Places x before source) ∧
    ∀ before source, e.tag.Places x before source →
      ∃ line rest, (Text.lines text.toList)[(position text.toList e.offset).line]? = some line ∧
        line.drop (position text.toList e.offset).column = '<' :: (before ++ (source ++ rest)) ∧
        ((ofText text group).locate [.key e.name, .key group, .key (String.ofList x.key)] =
            ⟨(position text.toList e.offset).line,
              some ((position text.toList e.offset).column + (before.length + 1),
                (position text.toList e.offset).column + (before.length + 1) + source.length)⟩ ↔
          isSearchable (String.ofList x.key) = true ∧
            ComesFirst x.key ('<' :: (before ++ (source ++ rest))) ('<' :: before)) := by
  refine ⟨Tag.exists_places (attributes_of_root hcheck he) hx, fun before source hplaces => ?_⟩
  obtain ⟨above, below, a, hsplit, hposition, hfound, ha⟩ := exists_root hcheck he hprolog hname
  obtain ⟨line, rest, hget, hdrop⟩ := exists_line_of_places hplaces hline above below
  rw [← hsplit, ← hposition] at hget
  rw [← hposition] at hdrop
  refine ⟨line, rest, hget, hdrop, ?_⟩
  have hplace : place (some a) = ((position text.toList e.offset).line,
      (position text.toList e.offset).column) := by
    rw [← ha]
    rfl
  have hfind := findAttribute?_eq_iff_comesFirst (written_of_writtenAs hplaces.content.1)
    ('<' :: before) rest (position text.toList e.offset).column
  rw [List.cons_append, ← hdrop] at hfind
  have hanchor : (ofText text group).lines[(place (some a)).1]? = some line := by
    rw [hplace]
    exact hget
  have hcolumns := locateAttribute_eq_iff hanchor (String.ofList x.key)
    ((position text.toList e.offset).column + (before.length + 1)) source.length
  rw [hplace, String.toList_ofList] at hcolumns
  have hlocate : (ofText text group).locate [.key e.name, .key group, .key (String.ofList x.key)] =
      _ := locate_attribute (l := ofText text group) hgroup htext hfound _
  rw [hlocate, ← hdrop]
  exact hcolumns.trans (and_congr_right' hfind)

/-! ## Attributes in values -/

/-- The tag `a` with an attribute `k` and, in a value before it, what reads as an attribute `n`. -/
def quotedTag (n : Char) : Tag :=
  ⟨['a'], [' ', 'x', '=', '\'', ' ', n, '=', '"', '1', '"', '\'', ' ', 'k', '=', '"', '2', '"']⟩

/-- A document with one element that has this tag. -/
def quotedText (n : Char) : String :=
  String.ofList ('<' :: ((quotedTag n).content ++ ['/', '>']))

/-- What stands before the attribute `k` in the tag. -/
def quotedBefore (n : Char) : List Char :=
  ['a', ' ', 'x', '=', '\'', ' ', n, '=', '"', '1', '"', '\'', ' ']

/-- What running the check and the search for the attribute `k` tells of such a document. -/
structure QuotedRun (n : Char) (columns : Nat × Nat) : Prop where
  check : checkWellFormed (quotedText n) = .ok ()
  prolog : PrologFits (quotedText n).toList
  plain : ∀ x ∈ (Event.reading (quotedText n).toList).events, x.2.IsPlain
  root : (occurrences (quotedText n).toList).map (fun e => (e.offset, e.tag)) = [(0, quotedTag n)]
  position : position (quotedText n).toList 0 = ⟨0, 0⟩
  line : '\n' ∉ (quotedTag n).content
  attributes : (quotedTag n).attributes.1 =
    [⟨['x'], [' ', n, '=', '"', '1', '"']⟩, ⟨['k'], ['2']⟩]
  place : (ofText (quotedText n) "_@_").locate [.key "a", .key "_@_", .key "k"] =
    ⟨0, some columns⟩

theorem quotedRun_other : QuotedRun 'j' (14, 19) := by
  constructor <;> decide +kernel

theorem quotedRun_same : QuotedRun 'k' (7, 12) := by
  constructor <;> decide +kernel

variable {n : Char} {columns : Nat × Nat}

theorem QuotedRun.exists_root (h : QuotedRun n columns) :
    ∃ e ∈ occurrences (quotedText n).toList, e.tag = quotedTag n ∧ e.name = "a" ∧
      Outline.position (quotedText n).toList e.offset = ⟨0, 0⟩ := by
  obtain ⟨e, rest, hlist, he, -⟩ := List.map_eq_cons_iff.1 h.root
  obtain ⟨hoffset, htag⟩ := Prod.mk.inj he
  have hmem : e ∈ occurrences (quotedText n).toList := by
    rw [hlist]
    exact List.mem_cons_self
  have hname : e.name = "a" := by
    rw [name_eq_iff, htag]
    rfl
  have hposition : Outline.position (quotedText n).toList e.offset = ⟨0, 0⟩ := by
    rw [hoffset]
    exact h.position
  exact ⟨e, hmem, htag, hname, hposition⟩

theorem QuotedRun.places (h : QuotedRun n columns) (hn : n ≠ '\'') :
    (quotedTag n).Places ⟨['k'], ['2']⟩ (quotedBefore n) ['k', '=', '"', '2', '"'] := by
  have hfirst : RawAttribute.WrittenAs ⟨['x'], [' ', n, '=', '"', '1', '"']⟩
      ['x', '=', '\'', ' ', n, '=', '"', '1', '"', '\''] :=
    ⟨[], [], '\'', rfl, nofun, nofun, .inr rfl, by simp [Ne.symm hn]⟩
  have hsecond : RawAttribute.WrittenAs ⟨['k'], ['2']⟩ ['k', '=', '"', '2', '"'] :=
    ⟨[], [], '"', rfl, nofun, nofun, .inl rfl, by decide⟩
  have hbefore : AttributesIn [' '] [] := .space rfl .nil
  exact ⟨[_], [], _, [], h.attributes, rfl, rfl, .space rfl (.cons hfirst hbefore), hsecond, .nil⟩

/-- The columns of an attribute are its own if the value before it has one of another name. -/
theorem locate_rootAttribute_quoted :
    (ofText (quotedText 'j') "_@_").locate [.key "a", .key "_@_", .key "k"] = ⟨0, some (14, 19)⟩ ∧
      (quotedTag 'j').Places ⟨['k'], ['2']⟩ (quotedBefore 'j') ['k', '=', '"', '2', '"'] ∧
      ∃ rest, ComesFirst ['k'] ('<' :: (quotedBefore 'j' ++ (['k', '=', '"', '2', '"'] ++ rest)))
        ('<' :: quotedBefore 'j') := by
  have h := quotedRun_other
  obtain ⟨e, he, htag, hname, hposition⟩ := h.exists_root
  have hplaces := h.places (by decide)
  have hkept : ∀ c ∈ e.tag.name, inName c = true := by
    intro c hc
    rw [htag] at hc
    obtain rfl : c = 'a' := List.mem_singleton.1 hc
    decide
  have hgroup : e.name ≠ "_@_" := by rw [hname]; decide
  have htext : e.name ≠ Tree.textKey := by rw [hname]; decide
  have hx : ⟨['k'], ['2']⟩ ∈ e.tag.attributes.1 := by rw [htag, h.attributes]; decide
  obtain ⟨-, hall⟩ := locate_rootAttribute_iff h.check he h.prolog (by rw [htag]; exact h.line)
    hkept hgroup htext hx
  obtain ⟨line, rest, -, -, hiff⟩ := hall _ _ (htag ▸ hplaces)
  rw [hname, hposition] at hiff
  exact ⟨h.place, hplaces, rest, (hiff.1 h.place).2⟩

/-- The columns of an attribute are not its own if the value before it has one of its name. -/
theorem not_locate_rootAttribute :
    ¬ ∀ (text : String) (e : Occurrence) (x : RawAttribute) (before source : List Char),
      checkWellFormed text = .ok () →
      (∀ event ∈ (Event.reading text.toList).events, event.2.IsPlain) →
      e ∈ occurrences text.toList → '\n' ∉ e.tag.content → x ∈ e.tag.attributes.1 →
      e.tag.Places x before source →
      (ofText text "_@_").locate [.key e.name, .key "_@_", .key (String.ofList x.key)] =
        ⟨(position text.toList e.offset).line,
          some ((position text.toList e.offset).column + (before.length + 1),
            (position text.toList e.offset).column + (before.length + 1) + source.length)⟩ := by
  intro hall
  have h := quotedRun_same
  obtain ⟨e, he, htag, hname, hposition⟩ := h.exists_root
  have hown := hall _ e ⟨['k'], ['2']⟩ _ _ h.check h.plain he (by rw [htag]; exact h.line)
    (by rw [htag, h.attributes]; decide) (htag ▸ h.places (by decide))
  rw [hname, hposition] at hown
  exact absurd (h.place.symm.trans hown) (by decide)

end Locator

end LsxKit
