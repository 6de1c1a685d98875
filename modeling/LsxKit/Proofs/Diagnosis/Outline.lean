import LsxKit.Diagnosis.Outline
import LsxKit.Proofs.Text.Offset
import LsxKit.Proofs.Text.Trim
import LsxKit.Xml.Event

/-!
# Outlines of markup

An outline is found line by line and knows nothing of markup. Scanning the whole text at once
gives the same tags, and so the outline of a document can be compared with its events one token
after the other.

* `ofLines_lines`: the outline of the lines of a text is a scan of the text.
* `scan_token`: what a scan finds in one token of markup.
* `outline_eq`: the outline of a document without comments and the like has the tags of its
  events, in order, at their positions and depths.
-/

namespace LsxKit

/-! ## Scanning a text at once -/

namespace Outline

/-- Scans the rest of a text after the characters `before`. -/
def scan (before : List Char) (s : State) : List Char → List OutlineTag
  | [] => []
  | c :: cs =>
    let next := step s (Position.after before).line (Position.after before).column
      (before.getLast?.getD '\x00') c cs
    next.1.toList ++ scan (before ++ [c]) next.2 cs

variable {before line rest cs : List Char} {s : State} {d n column : Nat} {previous c : Char}

/-- Whether a name that comes before a text ends there. -/
def EndsName (rest : List Char) : Prop := ∀ c ∈ rest.head?, Text.isBlank c = true

theorem not_inName_of_endsName (h : EndsName rest) : ∀ c ∈ rest.head?, inName c = false := by
  intro c hc
  simp [inName, h c hc]

theorem ne_of_endsName (h : EndsName (c :: rest)) : c ≠ '/' ∧ c ≠ '?' ∧ c ≠ '!' := by
  have hc : Text.isBlank c = true := h c rfl
  refine ⟨?_, ?_, ?_⟩ <;> rintro rfl <;> exact absurd hc (by decide)

theorem kindOf_append_of_ne_nil (hne : cs ≠ []) (rest : List Char) :
    kindOf (cs ++ rest) = kindOf cs := by
  cases cs with
  | nil => contradiction
  | cons c cs =>
    unfold kindOf
    rw [List.cons_append]
    split <;> simp_all

theorem kindOf_append (cs : List Char) (h : EndsName rest) : kindOf (cs ++ rest) = kindOf cs := by
  cases cs with
  | nil =>
    cases rest with
    | nil => rfl
    | cons c rest =>
      obtain ⟨h1, h2, h3⟩ := ne_of_endsName h
      exact kindOf.eq_4 (c :: rest) (by simp [h1]) (by simp [h2]) (by simp [h3])
  | cons c cs => exact kindOf_append_of_ne_nil (List.cons_ne_nil c cs) rest

theorem nameOf_append (kind : TagKind) (cs : List Char) (h : EndsName rest) :
    nameOf kind (cs ++ rest) = nameOf kind cs := by
  by_cases hslash : kind = .closing ∧ ∃ cs', cs = '/' :: cs'
  · obtain ⟨rfl, cs', rfl⟩ := hslash
    exact Text.takeWhile_append_of_head cs' (not_inName_of_endsName h)
  · have hslash' : ¬(kind = .closing ∧ ∃ cs', cs ++ rest = '/' :: cs') := by
      rintro ⟨hkind, cs', hcs⟩
      cases cs with
      | nil =>
        obtain rfl : rest = '/' :: cs' := hcs
        exact (ne_of_endsName h).1 rfl
      | cons c cs =>
        obtain ⟨rfl, -⟩ := List.cons.inj hcs
        exact hslash ⟨hkind, cs, rfl⟩
    rw [nameOf.eq_2 _ _ fun cs' hkind hcs => hslash' ⟨hkind, cs', hcs⟩,
      nameOf.eq_2 _ _ fun cs' hkind hcs => hslash ⟨hkind, cs', hcs⟩,
      Text.takeWhile_append_of_head cs (not_inName_of_endsName h)]

/-- The same step is taken whatever follows the name. -/
theorem step_append (s : State) (n column : Nat) {previous previous' : Char}
    (hprevious : previous = '/' ↔ previous' = '/') (c : Char) (cs : List Char)
    (h : EndsName rest) :
    step s n column previous' c (cs ++ rest) = step s n column previous c cs := by
  have hdepth : ∀ kind, depthAfter kind previous' s.depth = depthAfter kind previous s.depth := by
    intro kind
    unfold depthAfter
    simp only [hprevious]
  unfold step
  simp only [kindOf_append cs h, nameOf_append _ cs h, hdepth]

/-- The tag that begins with a character, if one does, stands there. -/
theorem of_mem_step {t : OutlineTag} (h : t ∈ (step s n column previous c cs).1) :
    t.line = n ∧ t.column = column ∧ t.kind = kindOf cs ∧ t.name = nameOf (kindOf cs) cs := by
  unfold step at h
  split at h
  · split_ifs at h
    · obtain rfl := Option.mem_some.1 h
      exact ⟨rfl, rfl, rfl, rfl⟩
    · exact absurd h (Option.not_mem_none t)
  · exact absurd h (Option.not_mem_none t)
  · split_ifs at h <;> exact absurd h (Option.not_mem_none t)

/-- Whether the quote that has begun, if any, is one. -/
def State.Quoted (s : State) : Prop := ∀ q ∈ s.quote, q = '"' ∨ q = '\''

theorem quoted_step (h : s.Quoted) (n column : Nat) (previous c : Char) (cs : List Char) :
    (step s n column previous c cs).2.Quoted := by
  obtain ⟨inside, quote, depth⟩ := s
  cases inside with
  | none =>
    simp only [step]
    split_ifs
    · exact h
    · exact h
  | some kind =>
    cases quote with
    | none =>
      simp only [step]
      split_ifs with hq
      · rintro q ⟨⟩
        exact hq.2
      · exact h
      · exact h
    | some q =>
      simp only [step]
      split_ifs
      · exact nofun
      · exact h

theorem scanLine_cons (n : Nat) (s : State) (column : Nat) (previous c : Char) (cs : List Char) :
    scanLine n s column previous (c :: cs) =
      ((step s n column previous c cs).1.toList ++
          (scanLine n (step s n column previous c cs).2 (column + 1) c cs).1,
        (scanLine n (step s n column previous c cs).2 (column + 1) c cs).2) := rfl

theorem quoted_scanLine (h : s.Quoted) (line : List Char) (n column : Nat) (previous : Char) :
    (scanLine n s column previous line).2.Quoted := by
  induction line generalizing s column previous with
  | nil => exact h
  | cons c line ih => exact ih (quoted_step h n column previous c line) _ _

/-- A line end changes nothing. -/
theorem step_lineEnd (h : s.Quoted) (hc : c = '\n' ∨ c = '\r') (n column : Nat) (previous : Char)
    (cs : List Char) : step s n column previous c cs = (none, s) := by
  have hne : c ≠ '<' ∧ c ≠ '>' ∧ c ≠ '"' ∧ c ≠ '\'' := by
    rcases hc with rfl | rfl <;> decide
  obtain ⟨inside, quote, depth⟩ := s
  cases inside with
  | none => simp [step, hne.1]
  | some kind =>
    cases quote with
    | none => simp [step, hne]
    | some q =>
      have hq : c ≠ q := by
        rcases h q rfl with rfl | rfl
        · exact hne.2.2.1
        · exact hne.2.2.2
      simp [step, hq]

/-- Scanning a line is scanning its characters in the text. -/
theorem scan_line (hline : '\n' ∉ line) (hrest : EndsName rest)
    (hprevious : previous = '/' ↔ before.getLast?.getD '\x00' = '/') :
    scan before s (line ++ rest) =
      (scanLine (Position.after before).line s (Position.after before).column previous line).1 ++
        scan (before ++ line)
          (scanLine (Position.after before).line s (Position.after before).column previous line).2
          rest := by
  induction line generalizing before s previous with
  | nil => simp [scanLine]
  | cons c line ih =>
    rw [List.mem_cons, not_or] at hline
    have hafter := Position.after_append_singleton before (Ne.symm hline.1)
    have hlast : c = '/' ↔ (before ++ [c]).getLast?.getD '\x00' = '/' := by simp
    rw [List.cons_append, scan, step_append s _ _ hprevious c line hrest]
    simp only [ih hline.2 hlast, hafter, scanLine, List.append_assoc, List.singleton_append]

/-- A carriage return at the end of a line changes nothing. -/
theorem scanLine_dropCarriageReturn (h : s.Quoted) (line : List Char) (n column : Nat)
    (previous : Char) :
    scanLine n s column previous (Text.dropCarriageReturn line) =
      scanLine n s column previous line := by
  have hends : EndsName ['\r'] := by
    intro c hc
    obtain rfl := Option.mem_some.1 hc
    decide
  have hconcat : ∀ init : List Char, scanLine n s column previous (init ++ ['\r']) =
      scanLine n s column previous init := by
    intro init
    induction init generalizing s column previous with
    | nil => simp [scanLine, step_lineEnd h]
    | cons c init ih =>
      rw [List.cons_append, scanLine_cons, scanLine_cons,
        step_append s n column Iff.rfl c init hends, ih (quoted_step h n column previous c init)]
  unfold Text.dropCarriageReturn
  split
  · next hlast =>
    obtain ⟨init, rfl⟩ := List.getLast?_eq_some_iff.1 hlast
    rw [List.dropLast_concat, hconcat]
  · rfl

theorem scanLines_lines (before cs : List Char) (h : s.Quoted)
    (hcolumn : (Position.after before).column = 0) (hbefore : before.getLast?.getD '\x00' ≠ '/') :
    scanLines (Position.after before).line s (Text.lines cs) = scan before s cs := by
  -- a line is scanned as a whole, so the induction is on the length of what comes after it
  induction hlength : cs.length using Nat.strongRecOn generalizing cs before s with
  | ind length ih =>
    have hprevious : '\x00' = '/' ↔ before.getLast?.getD '\x00' = '/' :=
      iff_of_false (by decide) hbefore
    rcases Text.exists_line cs with hline | ⟨line, rest, hline, rfl⟩
    · have hscan := scan_line (s := s) hline (nofun : EndsName []) hprevious
      rw [List.append_nil, hcolumn] at hscan
      rw [Text.lines_of_not_mem hline, hscan]
      cases cs with
      | nil => rfl
      | cons c line => simp [scanLines, scan]
    · have hends : EndsName ('\n' :: rest) := by
        intro c hc
        obtain rfl := Option.mem_some.1 hc
        decide
      have hquoted := quoted_scanLine h line (Position.after before).line 0 '\x00'
      have hnext := Position.after_line_feed (before ++ line)
      have hstart : (Position.after (before ++ line)).line = (Position.after before).line := by
        simp [Position.after, List.count_eq_zero.2 hline]
      rw [Text.lines_append hline, scanLines, scanLine_dropCarriageReturn h,
        scan_line hline hends hprevious, hcolumn, scan, step_lineEnd hquoted (.inl rfl)]
      have hshorter : rest.length < length := by
        rw [← hlength, List.length_append, List.length_cons]
        omega
      rw [← ih rest.length hshorter _ rest hquoted (by rw [hnext]) (by simp) rfl, hnext, hstart]
      rfl

/-- The outline of the lines of a text is a scan of the text. -/
theorem ofLines_lines (text : List Char) : ofLines (Text.lines text) = scan [] .initial text :=
  scanLines_lines [] text (by simp [State.Quoted, State.initial]) rfl (by decide)

/-! ## Scanning a token -/

/-- Nothing begins outside tags without a bracket. -/
theorem scan_outside (before : List Char) (d : Nat) {raw : List Char} (h : '<' ∉ raw)
    (rest : List Char) :
    scan before ⟨none, none, d⟩ (raw ++ rest) = scan (before ++ raw) ⟨none, none, d⟩ rest := by
  induction raw generalizing before with
  | nil => simp
  | cons c raw ih =>
    rw [List.mem_cons, not_or] at h
    have hstep : ∀ n column previous, step ⟨none, none, d⟩ n column previous c (raw ++ rest) =
        (none, ⟨none, none, d⟩) := by
      intro n column previous
      simp [step, Ne.symm h.1]
    simp only [List.cons_append, scan, hstep, ih _ h.2, List.append_assoc]
    rfl

/-- A start tag goes on up to the first closing bracket outside quotes. -/
theorem scan_splitTag (q : Option Char) (cs : List Char) :
    scan before ⟨some .opening, q, d⟩ cs =
      scan (before ++ (Xml.splitTag q cs).1) ⟨some .opening, none, d⟩ (Xml.splitTag q cs).2 := by
  fun_induction Xml.splitTag q cs generalizing before with
  | case1 q => rfl
  | case2 cs => simp
  | case3 c cs hc content rest hsplit ih =>
    have hstep : ∀ n column previous, step ⟨some .opening, none, d⟩ n column previous c cs =
        (none, ⟨some .opening, if c = '"' ∨ c = '\'' then some c else none, d⟩) := by
      intro n column previous
      by_cases hq : c = '"' ∨ c = '\'' <;> simp [step, hq, hc]
    simp only [scan, hstep, ih, hsplit, List.append_assoc]
    rfl
  | case4 q c cs content rest hsplit ih =>
    have hstep : ∀ n column previous, step ⟨some .opening, some q, d⟩ n column previous c cs =
        (none, ⟨some .opening, if c = q then none else some q, d⟩) := by
      intro n column previous
      by_cases hq : c = q <;> simp [step, hq]
    simp only [scan, hstep, ih, hsplit, List.append_assoc]
    rfl

/-- Any other tag goes on up to the first closing bracket. -/
theorem scan_takeWhile {kind : TagKind} (hkind : kind ≠ .opening) (cs : List Char) :
    scan before ⟨some kind, none, d⟩ cs =
      scan (before ++ cs.takeWhile (· ≠ '>')) ⟨some kind, none, d⟩
        (cs.dropWhile (· ≠ '>')) := by
  induction cs generalizing before with
  | nil => rfl
  | cons c cs ih =>
    by_cases hc : c = '>'
    · simp [hc]
    · have hstep : ∀ n column previous, step ⟨some kind, none, d⟩ n column previous c cs =
          (none, ⟨some kind, none, d⟩) := by
        intro n column previous
        simp [step, hc, hkind]
      rw [List.takeWhile_cons_of_pos (by simpa using hc),
        List.dropWhile_cons_of_pos (by simpa using hc)]
      simp only [scan, hstep, ih, List.append_assoc]
      rfl

/-- What follows the content of a tag: its closing bracket, unless the text ended. -/
def EndsTag (rest : List Char) : Prop := ∀ c ∈ rest.head?, c = '>'

theorem endsTag_splitTag (q : Option Char) (cs : List Char) : EndsTag (Xml.splitTag q cs).2 := by
  fun_induction Xml.splitTag q cs <;> simp_all [EndsTag]

theorem endsTag_dropWhile (cs : List Char) : EndsTag (cs.dropWhile (· ≠ '>')) := by
  intro c hc
  have := List.head?_dropWhile_not (· ≠ '>') cs
  rw [Option.mem_def.1 hc] at this
  simpa using this

/-- A closing bracket ends a tag. -/
theorem scan_bracket (kind : TagKind) (hrest : EndsTag rest) :
    scan before ⟨some kind, none, d⟩ rest =
      scan (before ++ rest.take 1)
        ⟨none, none, depthAfter kind (before.getLast?.getD '\x00') d⟩ (rest.drop 1) := by
  cases rest with
  | nil => rfl
  | cons c rest =>
    obtain rfl : c = '>' := hrest c rfl
    simp [scan, step]

/-- A tag begins with its bracket. -/
theorem scan_open (cs : List Char) :
    scan before ⟨none, none, d⟩ ('<' :: cs) =
      ⟨(Position.after before).line, (Position.after before).column, kindOf cs,
          nameOf (kindOf cs) cs, d⟩ ::
        scan (before ++ ['<']) ⟨some (kindOf cs), none, d⟩ cs := rfl

/-! ## Names -/

theorem not_inName_of_isSpace (hc : Xml.isSpace c = true) : inName c = false := by
  simp only [Xml.isSpace, Bool.or_eq_true, beq_iff_eq] at hc
  rcases hc with ((rfl | rfl) | rfl) | rfl <;> decide

theorem head?_endsTag (h : EndsTag rest) : ∀ c ∈ rest.head?, inName c = false := by
  intro c hc
  rw [h c hc]
  decide

/-- The name of a tag in front of what follows it. -/
theorem takeWhile_ofContent (content : List Char) (hrest : ∀ c ∈ rest.head?, inName c = false) :
    (content ++ rest).takeWhile inName = (Xml.Tag.ofContent content).name.takeWhile inName := by
  have hcontent : content =
      (Xml.Tag.ofContent content).name ++ content.dropWhile (!Xml.isSpace ·) :=
    List.takeWhile_append_dropWhile.symm
  have hhead : ∀ c ∈ (content.dropWhile (!Xml.isSpace ·) ++ rest).head?, inName c = false := by
    intro c hc
    cases hdrop : content.dropWhile (!Xml.isSpace ·) with
    | nil =>
      rw [hdrop] at hc
      exact hrest c hc
    | cons c' tail =>
      rw [hdrop] at hc
      obtain rfl : c' = c := Option.some.inj hc
      have hspace := List.head?_dropWhile_not (!Xml.isSpace ·) content
      rw [hdrop] at hspace
      exact not_inName_of_isSpace (by simpa using hspace)
  have hsplit : content ++ rest = (Xml.Tag.ofContent content).name ++
      (content.dropWhile (!Xml.isSpace ·) ++ rest) := by
    rw [← List.append_assoc, ← hcontent]
  rw [hsplit, Text.takeWhile_append_of_head _ hhead]

/-- An end tag is its name, then space. -/
theorem exists_closeName (content : List Char) :
    ∃ tail, content = Xml.Event.closeName content ++ tail ∧ ∀ c ∈ tail, Xml.isSpace c = true := by
  unfold Xml.Event.closeName
  split_ifs
  · exact ⟨[], by simp, nofun⟩
  · refine ⟨(content.reverse.takeWhile Xml.isSpace).reverse, ?_, fun c hc => ?_⟩
    · rw [← List.reverse_append, List.takeWhile_append_dropWhile, List.reverse_reverse]
    · exact List.all_eq_true.1 List.all_takeWhile c (List.mem_reverse.1 hc)

theorem takeWhile_closeName (content : List Char) (hrest : ∀ c ∈ rest.head?, inName c = false) :
    (content ++ rest).takeWhile inName = (Xml.Event.closeName content).takeWhile inName := by
  obtain ⟨tail, hcontent, hspace⟩ := exists_closeName content
  have hhead : ∀ c ∈ (tail ++ rest).head?, inName c = false := by
    intro c hc
    cases tail with
    | nil => exact hrest c hc
    | cons c' tail =>
      obtain rfl : c' = c := Option.some.inj hc
      exact not_inName_of_isSpace (hspace c' List.mem_cons_self)
  have hsplit : content ++ rest = Xml.Event.closeName content ++ (tail ++ rest) := by
    rw [← List.append_assoc, ← hcontent]
  rw [hsplit, Text.takeWhile_append_of_head _ hhead]

end Outline

/-! ## Scanning markup -/

namespace Xml.Event

/-- Whether an event is no character data, comment, document type or instruction. -/
def IsPlain : Event → Prop
  | .characterData _ | .other => False
  | _ => True

instance : DecidablePred IsPlain
  | .characterData _ | .other => isFalse id
  | .start _ | .empty _ | .close _ | .text _ | .declaration _ => isTrue trivial

/-- The name of the element that a tag begins or ends. -/
def name? : Event → Option (List Char)
  | .start t | .empty t => some t.name
  | .close name => some name
  | _ => none

/-- Whether an outline keeps the name in a tag: no character of it ends a name there. -/
def KeepsName (e : Event) : Prop := ∀ name ∈ e.name?, ∀ c ∈ name, Outline.inName c = true

instance : DecidablePred KeepsName := fun e =>
  decidable_of_iff (e.name?.toList.all (·.all Outline.inName) = true) (by simp [KeepsName])

/-- Whether an outline has the tag of an event as it is. -/
def Outlined (e : Event) : Prop := e.IsPlain ∧ e.KeepsName

/-- The tag of an event at a position inside `depth` elements. -/
def outlineTag? (at_ : Position) (depth : Nat) : Event → Option OutlineTag
  | .start t | .empty t => some ⟨at_.line, at_.column, .opening, t.name, depth⟩
  | .close name => some ⟨at_.line, at_.column, .closing, name, depth⟩
  | .declaration _ => some ⟨at_.line, at_.column, .other, ['?', 'x', 'm', 'l'], depth⟩
  | _ => none

/-- The number of open elements after an event. -/
def depthAfter (depth : Nat) : Event → Nat
  | .start _ => depth + 1
  | .close _ => depth - 1
  | _ => depth

theorem length_nextOpened (opened : List (List Char)) (e : Event) :
    (nextOpened opened e).length = e.depthAfter opened.length := by
  cases e <;> simp [nextOpened, depthAfter]

end Xml.Event

/-- A tag as an outline has it: its name is cut off where a name ends there. -/
def OutlineTag.clip (t : OutlineTag) : OutlineTag :=
  { t with name := t.name.takeWhile Outline.inName }

theorem OutlineTag.clip_eq_self {t : OutlineTag} (h : ∀ c ∈ t.name, Outline.inName c = true) :
    t.clip = t := by
  rw [clip, List.takeWhile_eq_self_iff.2 h]

/-- The tag of an event the name of which is kept is not cut off. -/
theorem Xml.Event.clip_outlineTag? {e : Event} (h : e.KeepsName) (at_ : Position) (depth : Nat) :
    (e.outlineTag? at_ depth).map OutlineTag.clip = e.outlineTag? at_ depth := by
  cases e with
  | start tag => exact congrArg some (OutlineTag.clip_eq_self (h _ rfl))
  | empty tag => exact congrArg some (OutlineTag.clip_eq_self (h _ rfl))
  | close name => exact congrArg some (OutlineTag.clip_eq_self (h _ rfl))
  | declaration content => rfl
  | _ => rfl

namespace Outline

open Xml

variable {before source rest cs : List Char} {d : Nat} {t : Token} {e : Event}
  {opened : List (List Char)}

/-- Markup after an exclamation mark is not plain. -/
theorem not_isPlain_of_bang (hstep : bang cs = .token t source rest)
    (he : Event.ofToken? opened t = .ok e) : ¬e.IsPlain := by
  have hmarkup : ∀ {t' : Token} {head content left : List Char} {e' : Event},
      Step.markup t' head content left = .token t source rest →
      Event.ofToken? opened t' = .ok e' → ¬e'.IsPlain → ¬e.IsPlain := by
    intro t' head content left e' h he' hnot
    simp only [Step.markup, Step.token.injEq] at h
    obtain ⟨rfl, -, -⟩ := h
    rwa [Except.ok.inj (he.symm.trans he')]
  unfold bang at hstep
  repeat' split at hstep
  all_goals first
    | contradiction
    | exact hmarkup hstep rfl id

theorem nameOf_opening (h : kindOf cs = .opening) :
    nameOf (kindOf cs) cs = cs.takeWhile inName := by
  rw [h]
  rfl

theorem depthAfter_opening (content : List Char) :
    depthAfter .opening ((before ++ ['<'] ++ content).getLast?.getD '\x00') d =
      if content.getLast? = some '/' then d else d + 1 := by
  rcases List.eq_nil_or_concat' content with rfl | ⟨init, c, rfl⟩
  · simp [depthAfter]
  · rw [← List.append_assoc, List.getLast?_concat, List.getLast?_concat]
    simp [depthAfter]

/-- What a scan finds in a start tag or in the tag of an empty element. -/
theorem scan_tag (hkind : kindOf cs = .opening) :
    scan before ⟨none, none, d⟩ ('<' :: cs) =
      (((Event.ofTag (splitTag none cs).1).outlineTag? (Position.after before) d).map
          OutlineTag.clip).toList ++
        scan (before ++ ('<' :: [] ++ (splitTag none cs).1 ++ (splitTag none cs).2.take 1))
          ⟨none, none, (Event.ofTag (splitTag none cs).1).depthAfter d⟩
          ((splitTag none cs).2.drop 1) := by
  have hsplit := splitTag_append none cs
  have hends := endsTag_splitTag none cs
  rw [scan_open, nameOf_opening hkind, hkind, scan_splitTag, scan_bracket .opening hends,
    depthAfter_opening]
  generalize (splitTag none cs).1 = content at *
  generalize (splitTag none cs).2 = left at *
  subst hsplit
  simp only [Event.ofTag]
  split_ifs with hslash
  · obtain ⟨init, rfl⟩ := List.getLast?_eq_some_iff.1 hslash
    rw [List.dropLast_concat]
    have hname : (init ++ ('/' :: left)).takeWhile inName =
        (Tag.ofContent init).name.takeWhile inName :=
      takeWhile_ofContent init (by simp [inName])
    simp [Event.outlineTag?, Event.depthAfter, OutlineTag.clip, hname]
  · have hname := takeWhile_ofContent content (head?_endsTag hends)
    simp [Event.outlineTag?, Event.depthAfter, OutlineTag.clip, hname]

/-- What a scan finds in an end tag. -/
theorem scan_close (cs : List Char) :
    scan before ⟨none, none, d⟩ ('<' :: '/' :: cs) =
      ⟨(Position.after before).line, (Position.after before).column, .closing,
          (Event.closeName (cs.takeWhile (· ≠ '>'))).takeWhile inName, d⟩ ::
        scan (before ++ ('<' :: ['/'] ++ cs.takeWhile (· ≠ '>') ++
            (cs.dropWhile (· ≠ '>')).take 1))
          ⟨none, none, d - 1⟩ ((cs.dropWhile (· ≠ '>')).drop 1) := by
  have hends := endsTag_dropWhile cs
  have hnameOf : nameOf .closing ('/' :: cs) =
      (Event.closeName (cs.takeWhile (· ≠ '>'))).takeWhile inName := by
    rw [nameOf.eq_1]
    conv => lhs; rw [← List.takeWhile_append_dropWhile (p := (· ≠ '>')) (l := cs)]
    exact takeWhile_closeName _ (head?_endsTag hends)
  have hslash : ('/' :: cs).takeWhile (· ≠ '>') = '/' :: cs.takeWhile (· ≠ '>') := rfl
  have hleft : ('/' :: cs).dropWhile (· ≠ '>') = cs.dropWhile (· ≠ '>') := rfl
  rw [scan_open, show kindOf ('/' :: cs) = .closing from rfl, hnameOf,
    scan_takeWhile (by simp) ('/' :: cs), hslash, hleft, scan_bracket .closing hends]
  simp [depthAfter]

/-- A declaration begins with its word and a space. -/
theorem takeWhile_declaration {content : List Char}
    (hplain : (Event.ofInstruction content.dropLast).IsPlain) (rest : List Char) :
    ('?' :: (content ++ rest)).takeWhile inName = ['?', 'x', 'm', 'l'] ∧
      Event.ofInstruction content.dropLast = .declaration content.dropLast := by
  unfold Event.ofInstruction at hplain ⊢
  split at hplain
  · next c tail hcontent =>
    split_ifs at hplain with hspace
    · obtain ⟨last, hlast⟩ : ∃ last, content = content.dropLast ++ [last] := by
        rcases List.eq_nil_or_concat' content with rfl | ⟨init, last, rfl⟩
        · contradiction
        · exact ⟨last, by rw [List.dropLast_concat]⟩
      rw [hcontent] at hlast ⊢
      rw [hlast]
      refine ⟨?_, if_pos hspace⟩
      have hword : ['?', 'x', 'm', 'l'].takeWhile inName = ['?', 'x', 'm', 'l'] := by decide
      have hhead : ∀ c' ∈ (c :: (tail ++ [last] ++ rest)).head?, inName c' = false := by
        simp [not_inName_of_isSpace hspace]
      exact (Text.takeWhile_append_of_head _ hhead).trans hword
    · exact hplain.elim
  · exact hplain.elim

/-- What a scan finds in a declaration. -/
theorem scan_declaration (cs : List Char)
    (hplain : (Event.ofInstruction (cs.takeWhile (· ≠ '>')).dropLast).IsPlain) :
    scan before ⟨none, none, d⟩ ('<' :: '?' :: cs) =
      ⟨(Position.after before).line, (Position.after before).column, .other,
          ['?', 'x', 'm', 'l'], d⟩ ::
        scan (before ++ ('<' :: ['?'] ++ cs.takeWhile (· ≠ '>') ++
            (cs.dropWhile (· ≠ '>')).take 1))
          ⟨none, none, d⟩ ((cs.dropWhile (· ≠ '>')).drop 1) := by
  have hends := endsTag_dropWhile cs
  have hname : nameOf .other ('?' :: cs) = ['?', 'x', 'm', 'l'] := by
    have h := (takeWhile_declaration hplain (cs.dropWhile (· ≠ '>'))).1
    rwa [List.takeWhile_append_dropWhile] at h
  have hmark : ('?' :: cs).takeWhile (· ≠ '>') = '?' :: cs.takeWhile (· ≠ '>') := rfl
  have hleft : ('?' :: cs).dropWhile (· ≠ '>') = cs.dropWhile (· ≠ '>') := rfl
  rw [scan_open, show kindOf ('?' :: cs) = .other from rfl, hname,
    scan_takeWhile (by simp) ('?' :: cs), hmark, hleft, scan_bracket .other hends]
  simp [depthAfter]

theorem eq_close_of_ofToken? {content : List Char}
    (h : Event.ofToken? opened (.close content) = .ok e) :
    e = .close (Event.closeName content) := by
  cases opened with
  | nil => contradiction
  | cons name opened =>
    simp only [Event.ofToken?] at h
    split_ifs at h with hname
    rw [hname]
    exact (Except.ok.inj h).symm

/-- What a scan finds in a plain token of markup: its tag, if it has one. -/
theorem scan_token_clip (hstep : Xml.step cs = .token t source rest)
    (he : Event.ofToken? opened t = .ok e) (hplain : e.IsPlain) :
    scan before ⟨none, none, d⟩ cs =
      ((e.outlineTag? (Position.after before) d).map OutlineTag.clip).toList ++
        scan (before ++ source) ⟨none, none, e.depthAfter d⟩ rest := by
  unfold Xml.step at hstep
  split at hstep
  · contradiction
  · contradiction
  · exact absurd hplain (not_isPlain_of_bang hstep he)
  · next cs =>
    simp only [close, Step.markup, Step.token.injEq] at hstep
    obtain ⟨rfl, rfl, rfl⟩ := hstep
    obtain rfl := eq_close_of_ofToken? he
    exact scan_close cs
  · next cs =>
    unfold instruction at hstep
    split_ifs at hstep
    · simp only [Step.markup, Step.token.injEq] at hstep
      obtain ⟨rfl, rfl, rfl⟩ := hstep
      obtain rfl := Except.ok.inj he
      rw [scan_declaration cs hplain, (takeWhile_declaration hplain []).2]
      rfl
  · next cs hnil hbang hslash hquestion =>
    simp only [Step.markup, Step.token.injEq] at hstep
    obtain ⟨rfl, rfl, rfl⟩ := hstep
    obtain rfl := Except.ok.inj he
    have hkind : kindOf cs = .opening := kindOf.eq_4 cs hslash hquestion hbang
    exact scan_tag hkind
  · next c cs hnil hbang hslash hquestion hc =>
    simp only [Step.token.injEq] at hstep
    obtain ⟨rfl, rfl, rfl⟩ := hstep
    obtain rfl := Except.ok.inj he
    have hraw : '<' ∉ (c :: cs).takeWhile (· ≠ '<') := by
      intro hmem
      simpa using List.all_eq_true.1 List.all_takeWhile _ hmem
    have h := scan_outside before d hraw ((c :: cs).dropWhile (· ≠ '<'))
    rw [List.takeWhile_append_dropWhile] at h
    exact h

theorem scan_token (hstep : Xml.step cs = .token t source rest)
    (he : Event.ofToken? opened t = .ok e) (houtlined : e.Outlined) :
    scan before ⟨none, none, d⟩ cs =
      (e.outlineTag? (Position.after before) d).toList ++
        scan (before ++ source) ⟨none, none, e.depthAfter d⟩ rest := by
  have h : scan before ⟨none, none, d⟩ cs = _ := scan_token_clip hstep he houtlined.1
  rwa [Event.clip_outlineTag? houtlined.2] at h

/-! ## Scanning a document -/

/-- The byte order mark at the beginning of a text, if it has one. -/
def mark (text : List Char) : List Char := text.take (text.length - (Event.dropMark text).length)

theorem not_mem_mark (text : List Char) : '<' ∉ mark text := by
  cases text with
  | nil => exact nofun
  | cons c text =>
    by_cases hc : c.toNat = 0xFEFF
    · have hne : '<' ≠ c := by
        rintro rfl
        exact absurd hc (by decide)
      simp [mark, Event.dropMark, hc, hne]
    · simp [mark, Event.dropMark, hc]

theorem mark_append (text : List Char) : mark text ++ Event.dropMark text = text := by
  cases text with
  | nil => rfl
  | cons c text =>
    by_cases hc : c.toNat = 0xFEFF <;> simp [mark, Event.dropMark, hc]

/-- The position in a text of what the reading has at an offset. -/
def position (text : List Char) (offset : Nat) : Position :=
  Position.after (mark text ++ Text.takeBytes offset (Event.dropMark text))

theorem position_size {text : List Char} (h : before ++ cs = Event.dropMark text) :
    position text (Text.size before) = Position.after (mark text ++ before) := by
  rw [position, ← h, Text.takeBytes_size]

/-- The tags of events in order, the first of which is inside `depth` elements. -/
def tags (text : List Char) (depth : Nat) : List (Nat × Event) → List OutlineTag
  | [] => []
  | (offset, e) :: events =>
    (e.outlineTag? (position text offset) depth).toList ++
      tags text (e.depthAfter depth) events

/-- Reading is done at the end of a text or at a bracket there. -/
theorem eq_of_step_done (h : Xml.step cs = .done) : cs = [] ∨ cs = ['<'] := by
  unfold Xml.step at h
  split at h
  · exact .inl rfl
  · exact .inr rfl
  · unfold bang at h
    repeat' split at h
    all_goals contradiction
  · contradiction
  · unfold instruction at h
    split_ifs at h
    contradiction
  · contradiction
  · contradiction

theorem map_clip_tags {text : List Char} {depth : Nat} {events : List (Nat × Event)}
    (h : ∀ e ∈ events, e.2.KeepsName) :
    (tags text depth events).map OutlineTag.clip = tags text depth events := by
  induction events generalizing depth with
  | nil => rfl
  | cons e events ih =>
    rw [List.forall_mem_cons] at h
    rw [tags, List.map_append, ih h.2, ← Option.toList_map, Event.clip_outlineTag? h.1]

/-- Scanning a text from a piece of markup on finds the tags of the events from there on. Only a
bracket at the very end is a tag for the scan and not for the reading. -/
theorem scan_readingFrom (text before cs : List Char) (opened : List (List Char))
    (htext : before ++ cs = Event.dropMark text)
    (hfault : (Event.readingFrom opened (Text.size before) cs).fault = none)
    (hplain : ∀ e ∈ (Event.readingFrom opened (Text.size before) cs).events, e.2.IsPlain) :
    ∃ tail, (tail = [] ∨ cs.getLast? = some '<') ∧
      scan (mark text ++ before) ⟨none, none, opened.length⟩ cs =
        (tags text opened.length (Event.readingFrom opened (Text.size before) cs).events).map
          OutlineTag.clip ++ tail := by
  generalize hoffset : Text.size before = offset at *
  fun_induction Event.readingFrom opened offset cs generalizing before with
  | case1 opened offset cs hstep =>
    rcases eq_of_step_done hstep with rfl | rfl
    · exact ⟨[], .inl rfl, rfl⟩
    · exact ⟨_, .inr rfl, rfl⟩
  | case2 opened offset cs fault hstep => exact absurd hfault (Option.some_ne_none _)
  | case3 opened offset cs t source rest hstep fault he =>
    exact absurd hfault (Option.some_ne_none _)
  | case4 opened offset cs t source rest hstep e he r ih =>
    have hsource := step_source hstep
    obtain ⟨tail, htail, htags⟩ := ih (before ++ source)
      (by rw [List.append_assoc, hsource, htext]) (by rw [Text.size_append, hoffset]) hfault
      fun e he => hplain e (List.mem_cons_of_mem _ he)
    have hposition : position text offset = Position.after (mark text ++ before) :=
      hoffset ▸ position_size htext
    refine ⟨tail, htail.imp_right fun h => ?_, ?_⟩
    · rw [← hsource, List.getLast?_append, h, Option.some_or]
    · rw [scan_token_clip hstep he (hplain _ List.mem_cons_self), tags, hposition,
        ← Event.length_nextOpened, List.append_assoc, htags, List.map_append, List.append_assoc,
        Option.toList_map]

/-- Nothing begins in a byte order mark. -/
theorem scan_dropMark (text : List Char) :
    scan [] .initial text = scan (mark text) .initial (Event.dropMark text) := by
  have h := scan_outside [] 0 (not_mem_mark text) (Event.dropMark text)
  rwa [mark_append, List.nil_append] at h

/-- The outline of a document without comments and the like has the tags of its events, in order;
names are cut off where they end for an outline. -/
theorem outline_eq_clip {text : List Char} (hfault : (Event.reading text).fault = none)
    (hplain : ∀ e ∈ (Event.reading text).events, e.2.IsPlain) :
    ∃ tail, (tail = [] ∨ text.getLast? = some '<') ∧
      ofLines (Text.lines text) =
        (tags text 0 (Event.reading text).events).map OutlineTag.clip ++ tail := by
  obtain ⟨tail, htail, hscan⟩ := scan_readingFrom text [] (Event.dropMark text) [] rfl hfault hplain
  rw [List.append_nil] at hscan
  refine ⟨tail, htail.imp_right fun h => ?_, ?_⟩
  · rw [← mark_append text, List.getLast?_append, h, Option.some_or]
  · rw [ofLines_lines, scan_dropMark]
    exact hscan

/-- The outline of a document has the tags of its events, in order. -/
theorem outline_eq {text : List Char} (hfault : (Event.reading text).fault = none)
    (houtlined : ∀ e ∈ (Event.reading text).events, e.2.Outlined) :
    ∃ tail, (tail = [] ∨ text.getLast? = some '<') ∧
      ofLines (Text.lines text) = tags text 0 (Event.reading text).events ++ tail := by
  have h := outline_eq_clip hfault fun e he => (houtlined e he).1
  rwa [map_clip_tags fun e he => (houtlined e he).2] at h

end Outline

end LsxKit
