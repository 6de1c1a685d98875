import LsxKit.Proofs.Xml.Tag

/-!
# Reading marks back

A text of the marks of elements and declarations, with whatever space between them, is read as
the document of these elements and declarations.

* `Reads`: what reading a text adds up to inside the elements that are open.
* `reads_element`, `reads_elements`: the marks of elements add these elements.
* `read_spaced`: a text of marks is read as their document.
-/

namespace LsxKit.Xml

open Document

/-! ## Reading inside open elements -/

/-- The names of the open elements, innermost first. -/
def openedNames (p : Partial) : List (List Char) := p.opened.map fun o => o.name.toList

/-- Whether reading `cs` on from `p` comes to its end without a fault and with the document `d`. -/
def Reads (keepDeclaration : Bool) (p : Partial) (cs : List Char) (d : Document) : Prop :=
  ∀ offset, ∃ events, Event.readingFrom (openedNames p) offset cs = ⟨events, none⟩ ∧
    events.foldlM (fun p (_, e) => Partial.add keepDeclaration p e) p = .ok ⟨[], d.reverse⟩

variable {keep : Bool} {p : Partial} {d : Document}

theorem reads_done (d : Document) : Reads keep ⟨[], d.reverse⟩ [] d := by
  intro offset
  refine ⟨[], ?_, rfl⟩
  rw [Event.readingFrom]
  rfl

/-- One token, and on with the rest. -/
theorem reads_token (p' : Partial) {cs source rest : List Char} {t : Token} {e : Event}
    (hstep : step cs = .token t source rest) (he : Event.ofToken? (openedNames p) t = .ok e)
    (hadd : Partial.add keep p e = .ok p')
    (hopened : Event.nextOpened (openedNames p) e = openedNames p')
    (hrest : Reads keep p' rest d) : Reads keep p cs d := by
  intro offset
  obtain ⟨events, hreading, hfold⟩ := hrest (offset + Text.size source)
  refine ⟨(offset, e) :: events, ?_, ?_⟩
  · rw [Event.readingFrom]
    split
    · next h => rw [hstep] at h; contradiction
    · next h => rw [hstep] at h; contradiction
    · next t' source' rest' h =>
      rw [hstep] at h
      injection h with h1 h2 h3
      subst h1 h2 h3
      simp only [he, hopened, hreading]
  · simp only [List.foldlM_cons, hadd]
    exact hfold

/-! ## Text and gaps -/

theorem isBlank_of_isSpace {c : Char} (h : isSpace c = true) : Text.isBlank c = true := by
  simp only [isSpace, Bool.or_eq_true, beq_iff_eq] at h
  rcases h with ((rfl | rfl) | rfl) | rfl <;> decide

theorem isSpace_of_mem_escapeChar {c d : Char} (hc : isSpace c = false)
    (hd : d ∈ Reference.escapeChar c) : isSpace d = false := by
  unfold Reference.escapeChar at hd
  split at hd
  all_goals
    simp only [List.mem_cons, List.not_mem_nil, or_false] at hd
  all_goals
    first
    | (rcases hd with rfl | rfl | rfl | rfl <;> decide)
    | (rcases hd with rfl | rfl | rfl | rfl | rfl <;> decide)
    | (rcases hd with rfl | rfl | rfl | rfl | rfl | rfl <;> decide)
    | (subst hd; exact hc)

/-- Escaping puts no space at the ends of a text. -/
theorem trimmed_escape {cs : List Char} (h : Text.Trimmed Text.isBlank cs) :
    Text.Trimmed isSpace (escape cs) := by
  have hspace : ∀ c, Text.isBlank c = false → isSpace c = false := by
    intro c hc
    by_contra hs
    rw [isBlank_of_isSpace (by simpa using hs)] at hc
    contradiction
  constructor
  · intro d hd
    cases cs with
    | nil => simp [escape] at hd
    | cons c cs =>
      have hc := hspace c (h.1 c rfl)
      have hmem : d ∈ Reference.escapeChar c := by
        obtain ⟨x, xs, hx⟩ := List.exists_cons_of_ne_nil (escapeChar_ne_nil c)
        simp only [escape, List.flatMap_cons, hx, List.cons_append, List.head?_cons,
          Option.mem_def, Option.some.injEq] at hd
        simp [hx, hd]
      exact isSpace_of_mem_escapeChar hc hmem
  · intro d hd
    rcases List.eq_nil_or_concat' cs with rfl | ⟨init, c, rfl⟩
    · simp [escape] at hd
    · have hc := hspace c (h.2 c (by simp))
      have hmem : d ∈ Reference.escapeChar c := by
        obtain ⟨x, xs, hx⟩ := List.exists_cons_of_ne_nil (escapeChar_ne_nil c)
        have hsplit : escape (init ++ [c]) = escape init ++ x :: xs := by simp [escape, hx]
        rw [hsplit, getLast?_append_cons] at hd
        rw [hx]
        exact List.mem_of_getLast? hd
      exact isSpace_of_mem_escapeChar hc hmem

/-- A text in front of markup, with space around it. -/
theorem reads_text {o : Opened} {os : List Opened} {items : List Item} {s : String}
    (hs : Text.Trimmed Text.isBlank s.toList) (hne : s ≠ "") {a b cs : List Char}
    (ha : ∀ c ∈ a, isSpace c = true) (hb : ∀ c ∈ b, isSpace c = true)
    (h : Reads keep ⟨{ o with content := .text s :: o.content } :: os, items⟩ ('<' :: cs) d) :
    Reads keep ⟨o :: os, items⟩ (a ++ (escape s.toList ++ (b ++ '<' :: cs))) d := by
  have hescape : escape s.toList ≠ [] := by
    rw [ne_eq, escape_eq_nil_iff]
    simpa using hne
  have htrim : Text.trimBy isSpace (a ++ (escape s.toList ++ b)) = escape s.toList :=
    Text.trimBy_gaps ha hb (trimmed_escape hs)
  have hgap : ∀ g : List Char, (∀ c ∈ g, isSpace c = true) → '<' ∉ g :=
    fun g hg hmem => by simpa [isSpace] using hg _ hmem
  have hbracket : '<' ∉ a ++ (escape s.toList ++ b) := by
    simp [hgap a ha, hgap b hb, not_mem_escape]
  have hraw : a ++ (escape s.toList ++ b) ≠ [] := by simp [hescape]
  have hstep := step_text hraw hbracket (.inr ⟨cs, rfl⟩)
  simp only [List.append_assoc] at hstep
  refine reads_token ⟨{ o with content := .text s :: o.content } :: os, items⟩ hstep rfl ?_ rfl h
  simp [Partial.add, htrim, hescape, unescape_eq_ok, Partial.addText, bind, Except.bind, pure,
    Except.pure]

/-- Space in front of markup or at the end is nothing. -/
theorem reads_gap {gap cs : List Char} (hgap : ∀ c ∈ gap, isSpace c = true)
    (hcs : cs = [] ∨ ∃ cs', cs = '<' :: cs') (h : Reads keep p cs d) :
    Reads keep p (gap ++ cs) d := by
  by_cases hne : gap = []
  · simpa [hne] using h
  · have hbracket : '<' ∉ gap := fun hmem => by simpa [isSpace] using hgap _ hmem
    have htrim : Text.trimBy isSpace gap = [] := by
      simpa using Text.trimBy_gaps hgap (b := []) (by simp) Text.trimmed_nil
    refine reads_token p (step_text hne hbracket hcs) rfl ?_ rfl h
    simp [Partial.add, htrim, pure, Except.pure]

/-! ## Elements -/

/-- Content added inside the innermost open element, or at the top of the document. -/
def Document.Partial.put (p : Partial) : Node → Partial
  | .text s => p.addText s.toList
  | .element name attributes content => p.addElement name attributes content

/-- Whether a mark begins with a bracket. -/
def Mark.IsMarkup : Mark → Prop
  | .text _ => False
  | _ => True

/-- In front of markup stands space and then its bracket. -/
theorem Spaced.markup {m : Mark} {ms : List Mark} {cs : List Char} (hm : m.IsMarkup)
    (h : Spaced (m :: ms) cs) :
    ∃ gap cs', (∀ c ∈ gap, isSpace c = true) ∧ cs = gap ++ '<' :: cs' ∧
      Spaced (m :: ms) ('<' :: cs') := by
  obtain ⟨gap, rest, hgap, rfl, hrest⟩ := h
  have hwritten : ∃ tail, m.written = '<' :: tail := by
    cases m with
    | text s => exact hm.elim
    | _ => exact ⟨_, rfl⟩
  obtain ⟨tail, htail⟩ := hwritten
  refine ⟨gap, tail ++ rest, hgap, by simp [htail], [], rest, by simp, by simp [htail], hrest⟩

theorem ofContent_append {name : String} (hn : isName name = true) {r : List Char}
    (hr : ∀ c ∈ r.head?, isSpace c = true) :
    Tag.ofContent (name.toList ++ r) = ⟨name.toList, r⟩ := by
  have hname : ∀ c ∈ name.toList, (!isSpace c) = true := by
    intro c hc
    simp [not_isSpace_of_isName hn c hc]
  unfold Tag.ofContent
  rw [List.takeWhile_append_of_pos hname, List.dropWhile_append_of_pos hname]
  cases r with
  | nil => simp
  | cons c r =>
    have hc : isSpace c = true := hr c rfl
    simp [hc]

theorem head?_attributesChars (attributes : List (String × String)) {tail : List Char}
    (htail : ∀ c ∈ tail, isSpace c = true) :
    ∀ c ∈ (attributesChars attributes ++ tail).head?, isSpace c = true := by
  intro c hc
  cases attributes with
  | nil => exact htail c (List.mem_of_mem_head? hc)
  | cons a attributes =>
    simp only [attributesChars, List.flatMap_cons, attributeChars_eq, fieldChars,
      List.cons_append, List.head?_cons, Option.mem_def, Option.some.injEq] at hc
    subst hc
    decide

/-- The token of a tag that begins with a name. -/
theorem step_named {name : String} {attributes : List (String × String)}
    (hn : isName name = true) (ha : AttributesNamed attributes) {tail : List Char}
    (htail : Balanced tail) (rest : List Char) :
    step ('<' :: (tagChars name attributes ++ tail ++ '>' :: rest)) =
      .token (.tag (tagChars name attributes ++ tail))
        ('<' :: (tagChars name attributes ++ tail ++ ['>'])) rest := by
  obtain ⟨c, cs, hc, h1, h2, h3⟩ := not_special_of_isName hn
  have htag :
      tagChars name attributes ++ tail = c :: (cs ++ attributesChars attributes ++ tail) := by
    simp [tagChars, hc]
  have hbalanced := (balanced_tagChars hn ha).append htail
  rw [htag] at hbalanced ⊢
  exact step_tag hbalanced h1 h2 h3 rest

/-- A start tag opens an element. -/
theorem reads_start {name : String} {attributes : List (String × String)}
    (hn : isName name = true) (ha : AttributesNamed attributes) {gap rest : List Char}
    (hgap : ∀ c ∈ gap, isSpace c = true)
    (h : Reads keep ⟨⟨name, attributes, []⟩ :: p.opened, p.items⟩ rest d) :
    Reads keep p (gap ++ (Mark.written (.start name attributes) ++ rest)) d := by
  have hwritten : Mark.written (.start name attributes) ++ rest =
      '<' :: (tagChars name attributes ++ [] ++ '>' :: rest) := by
    simp [Mark.written, Mark.chars, tagChars, attributesChars]
  have hevent : Event.ofTag (tagChars name attributes ++ []) =
      .start ⟨name.toList, attributesChars attributes ++ []⟩ := by
    have hlast := getLast?_tagChars hn attributes
    rw [Event.ofTag, if_neg (by simpa using hlast), tagChars, List.append_assoc,
      ofContent_append hn (head?_attributesChars attributes (by simp))]
  have hadd : Partial.add keep p (.start ⟨name.toList, attributesChars attributes ++ []⟩) =
      .ok ⟨⟨name, attributes, []⟩ :: p.opened, p.items⟩ := by
    simp only [Partial.add]
    rw [readAttributes_eq ha (by simp)]
    simp [bind, Except.bind, pure, Except.pure]
  rw [hwritten]
  exact reads_gap hgap (.inr ⟨_, rfl⟩)
    (reads_token _ (step_named hn ha balanced_nil rest) (congrArg _ hevent) hadd rfl h)

/-- An empty tag is an element. -/
theorem reads_empty {name : String} {attributes : List (String × String)}
    (hn : isName name = true) (ha : AttributesNamed attributes) {gap rest : List Char}
    (hgap : ∀ c ∈ gap, isSpace c = true)
    (h : Reads keep (p.put (.element name attributes [])) rest d) :
    Reads keep p (gap ++ (Mark.written (.empty name attributes) ++ rest)) d := by
  have hwritten : Mark.written (.empty name attributes) ++ rest =
      '<' :: (tagChars name attributes ++ [' ', '/'] ++ '>' :: rest) := by
    simp [Mark.written]
  have hevent : Event.ofTag (tagChars name attributes ++ [' ', '/']) =
      .empty ⟨name.toList, attributesChars attributes ++ [' ']⟩ := by
    have hdrop : (tagChars name attributes ++ [' ', '/']).dropLast =
        name.toList ++ (attributesChars attributes ++ [' ']) := by
      have hsplit : tagChars name attributes ++ [' ', '/'] =
          (name.toList ++ (attributesChars attributes ++ [' '])) ++ ['/'] := by
        simp [tagChars]
      rw [hsplit, List.dropLast_concat]
    rw [Event.ofTag, if_pos (by simp), hdrop,
      ofContent_append hn (head?_attributesChars attributes (by simp [isSpace]))]
  have hadd : Partial.add keep p (.empty ⟨name.toList, attributesChars attributes ++ [' ']⟩) =
      .ok (p.put (.element name attributes [])) := by
    simp only [Partial.add]
    rw [readAttributes_eq ha (by simp [isSpace])]
    simp [Partial.put, bind, Except.bind, pure, Except.pure]
  have hopened : openedNames (p.put (.element name attributes [])) = openedNames p := by
    cases hp : p.opened <;> simp [openedNames, Partial.put, Partial.addElement, hp]
  rw [hwritten]
  exact reads_gap hgap (.inr ⟨_, rfl⟩)
    (reads_token _ (step_named hn ha (balanced_of_plain (by simp)) rest) (congrArg _ hevent) hadd
      hopened.symm h)

theorem closeName_of_isName {name : String} (hn : isName name = true) :
    Event.closeName name.toList = name.toList := by
  obtain ⟨hne, -⟩ := isName_iff.1 hn
  have hspace := not_isSpace_of_isName hn
  have hall : name.toList.all isSpace = false := by
    obtain ⟨c, cs, hc⟩ := List.exists_cons_of_ne_nil hne
    simp [hc, hspace c (by simp [hc])]
  have hdrop : name.toList.reverse.dropWhile isSpace = name.toList.reverse := by
    obtain ⟨c, cs, hc⟩ := List.exists_cons_of_ne_nil (List.reverse_ne_nil_iff.2 hne)
    have hmem : c ∈ name.toList := by
      rw [← List.mem_reverse, hc]
      exact List.mem_cons_self
    rw [hc, List.dropWhile_cons_of_neg (by simp [hspace c hmem])]
  simp [Event.closeName, hall, hdrop]

/-- An end tag completes the innermost open element. -/
theorem reads_close {name : String} {attributes : List (String × String)} {content : List Node}
    {os : List Opened} {items : List Item} (hn : isName name = true) {gap rest : List Char}
    (hgap : ∀ c ∈ gap, isSpace c = true)
    (h : Reads keep (Partial.put ⟨os, items⟩ (.element name attributes content.reverse)) rest d) :
    Reads keep ⟨⟨name, attributes, content⟩ :: os, items⟩
      (gap ++ (Mark.written (.close name) ++ rest)) d := by
  have hwritten : Mark.written (.close name) ++ rest =
      '<' :: '/' :: (name.toList ++ '>' :: rest) := by
    simp [Mark.written, Mark.chars]
  have hevent : Event.ofToken? (openedNames ⟨⟨name, attributes, content⟩ :: os, items⟩)
      (.close name.toList) = .ok (.close name.toList) := by
    simp [Event.ofToken?, openedNames, closeName_of_isName hn]
  have hopened : openedNames (Partial.put ⟨os, items⟩ (.element name attributes content.reverse)) =
      os.map fun o => o.name.toList := by
    cases os <;> simp [openedNames, Partial.put, Partial.addElement]
  rw [hwritten]
  exact reads_gap hgap (.inr ⟨_, rfl⟩)
    (reads_token _ (step_close (not_mem_of_isName hn (by decide)) rest) hevent rfl hopened.symm h)

theorem foldl_put (nodes : List Node) (o : Opened) (os : List Opened) (items : List Item) :
    nodes.foldl Partial.put ⟨o :: os, items⟩ =
      ⟨{ o with content := nodes.reverse ++ o.content } :: os, items⟩ := by
  induction nodes generalizing o with
  | nil => rfl
  | cons n nodes ih =>
    cases n <;> simp [Partial.put, Partial.addText, Partial.addElement, ih]

/-- The marks of an element begin with markup. -/
theorem Element.exists_marks (e : Element) : ∃ m ms, e.marks = m :: ms ∧ m.IsMarkup := by
  obtain ⟨name, attributes, text, children⟩ := e
  unfold Element.marks
  split_ifs
  · exact ⟨_, _, rfl, trivial⟩
  · exact ⟨_, _, rfl, trivial⟩

theorem exists_marksOf (es : List Element) {m : Mark} (hm : m.IsMarkup) (ms : List Mark) :
    ∃ m' ms', marksOf es ++ m :: ms = m' :: ms' ∧ m'.IsMarkup := by
  cases es with
  | nil => exact ⟨m, ms, rfl, hm⟩
  | cons e es =>
    obtain ⟨m', ms', he, hm'⟩ := e.exists_marks
    exact ⟨m', ms' ++ (marksOf es ++ m :: ms), by simp [marksOf, he], hm'⟩

mutual

/-- The marks of an element add the element. -/
theorem reads_element (e : Element) (he : e.Writable) {p : Partial} {ms : List Mark}
    {cs : List Char} (hcs : Spaced (e.marks ++ ms) cs)
    (h : ∀ rest, Spaced ms rest → Reads keep (p.put e.node) rest d) : Reads keep p cs d := by
  match e with
  | .mk name attributes text children =>
    obtain ⟨hn, ha, ht, hchildren⟩ := he
    unfold Element.marks at hcs
    split_ifs at hcs with hempty
    · obtain ⟨rfl, rfl⟩ := hempty
      obtain ⟨gap, rest, hgap, rfl, hrest⟩ := hcs
      exact reads_empty hn ha hgap (h rest hrest)
    · obtain ⟨gap, rest, hgap, rfl, hrest⟩ := hcs
      refine reads_start hn ha hgap ?_
      -- The children and the end tag, once the text has been read.
      have hinner : ∀ rest, Spaced (marksOf children ++ .close name :: ms) rest →
          Reads keep ⟨⟨name, attributes, textNodes text⟩ :: p.opened, p.items⟩ rest d := by
        intro rest hrest
        refine reads_elements children hchildren hrest fun rest hrest => ?_
        obtain ⟨gap, rest, hgap, rfl, hrest⟩ := hrest
        rw [foldl_put]
        refine reads_close hn hgap ?_
        have hcontent : ((nodesOf children).reverse ++ textNodes text).reverse =
            textNodes text ++ nodesOf children := by
          unfold textNodes
          split_ifs <;> simp
        rw [hcontent]
        exact h rest hrest
      by_cases htext : text = ""
      · have hspaced : Spaced (marksOf children ++ .close name :: ms) rest := by
          simpa [textMarks, htext] using hrest
        simpa [textNodes, htext] using hinner rest hspaced
      · have hspaced : Spaced (.text text :: (marksOf children ++ .close name :: ms)) rest := by
          simpa [textMarks, htext] using hrest
        obtain ⟨gap, rest, hgap, rfl, hspaced⟩ := hspaced
        obtain ⟨m, ms', hmarks, hm⟩ := exists_marksOf children (m := .close name) trivial ms
        rw [hmarks] at hspaced
        obtain ⟨gap', cs, hgap', rfl, hinside⟩ := hspaced.markup hm
        rw [← hmarks] at hinside
        refine reads_text ht htext hgap hgap' ?_
        simpa [textNodes, htext] using hinner _ hinside
  termination_by structural e

/-- The marks of elements add these elements. -/
theorem reads_elements (es : List Element) (hes : AllWritable es) {p : Partial} {ms : List Mark}
    {cs : List Char} (hcs : Spaced (marksOf es ++ ms) cs)
    (h : ∀ rest, Spaced ms rest → Reads keep ((nodesOf es).foldl Partial.put p) rest d) :
    Reads keep p cs d := by
  match es with
  | [] => exact h cs hcs
  | e :: es =>
    rw [marksOf, List.append_assoc] at hcs
    exact reads_element e hes.1 hcs fun rest hrest => reads_elements es hes.2 hrest h
  termination_by structural es

end

/-! ## Documents -/

theorem ofInstruction_declarationChars (version : String) (encoding standalone : Option String) :
    Event.ofInstruction (declarationChars version encoding standalone) =
      .declaration (declarationChars version encoding standalone) := rfl

/-- A declaration is kept or left out, as it is asked for. -/
theorem reads_declaration {dec : Declaration} (hd : DeclarationWritable dec) {gap rest : List Char}
    (hgap : ∀ c ∈ gap, isSpace c = true)
    (h : Reads keep { p with items := if keep then .declaration dec :: p.items else p.items } rest
      d) :
    Reads keep p (gap ++
      (Mark.written (.declaration dec.version dec.encoding dec.standalone) ++ rest)) d := by
  obtain ⟨version, encoding, standalone⟩ := dec
  have hclean : (Mark.declaration version encoding standalone).Clean := hd
  have hwritten : Mark.written (.declaration version encoding standalone) ++ rest =
      '<' :: '?' :: (declarationChars version encoding standalone ++ '?' :: '>' :: rest) := by
    simp [Mark.written, chars_declaration]
  have hstep := step_instruction (not_mem_declarationChars hclean) (by simp [declarationChars]) rest
  have hadd : Partial.add keep p (.declaration (declarationChars version encoding standalone)) =
      .ok { p with items := if keep then
        .declaration ⟨version, encoding, standalone⟩ :: p.items else p.items } := by
    simp only [Partial.add]
    split_ifs
    · rw [readDeclaration_eq hclean]
      rfl
    · rfl
  rw [hwritten]
  exact reads_gap hgap (.inr ⟨_, rfl⟩) (reads_token _ hstep
    (congrArg _ (ofInstruction_declarationChars version encoding standalone)) hadd rfl h)

theorem put_node (e : Element) (items : List Item) :
    Partial.put ⟨[], items⟩ e.node = ⟨[], (Root.element e).item :: items⟩ := by
  obtain ⟨name, attributes, text, children⟩ := e
  rfl

/-- A text of the marks of declarations and elements adds them to the document. -/
theorem reads_roots {roots : List Root} (hroots : ∀ r ∈ roots, r.Writable)
    (hkeep : keep = true ∨ ∀ r ∈ roots, ∃ e, r = .element e) (items : List Item) {cs : List Char}
    (hcs : Spaced (roots.flatMap Root.marks) cs) :
    Reads keep ⟨[], items⟩ cs (items.reverse ++ roots.map Root.item) := by
  induction roots generalizing items cs with
  | nil =>
    have hdone : Reads keep ⟨[], items⟩ [] items.reverse := by
      simpa using reads_done items.reverse
    simpa using reads_gap hcs (.inl rfl) hdone
  | cons r roots ih =>
    have htail : ∀ items cs, Spaced (roots.flatMap Root.marks) cs →
        Reads keep ⟨[], items⟩ cs (items.reverse ++ roots.map Root.item) := by
      intro items cs
      exact ih (fun r hr => hroots r (by simp [hr]))
        (hkeep.imp id fun h r hr => h r (by simp [hr])) items
    rw [List.flatMap_cons] at hcs
    have happend : items.reverse ++ (r :: roots).map Root.item =
        (r.item :: items).reverse ++ roots.map Root.item := by simp
    rw [happend]
    cases r with
    | element e =>
      have he : e.Writable := hroots (.element e) (by simp)
      refine reads_element e he hcs fun rest hrest => ?_
      rw [put_node]
      exact htail _ _ hrest
    | declaration dec =>
      have hd : DeclarationWritable dec := hroots (.declaration dec) (by simp)
      have htrue : keep = true := by
        refine hkeep.resolve_right fun h => ?_
        obtain ⟨e, he⟩ := h (.declaration dec) (by simp)
        contradiction
      obtain ⟨gap, rest, hgap, rfl, hrest⟩ := hcs
      refine reads_declaration hd hgap ?_
      rw [if_pos htrue]
      exact htail _ _ hrest

theorem Root.exists_marks (r : Root) : ∃ m ms, r.marks = m :: ms ∧ m.IsMarkup := by
  cases r with
  | declaration d => exact ⟨_, [], rfl, trivial⟩
  | element e => exact e.exists_marks

/-- A text of marks does not begin with a byte order mark. -/
theorem dropMark_spaced {roots : List Root} {cs : List Char}
    (hcs : Spaced (roots.flatMap Root.marks) cs) : Event.dropMark cs = cs := by
  have hspace : ∀ c, isSpace c = true → c.toNat ≠ 0xFEFF := by
    intro c hc
    simp only [isSpace, Bool.or_eq_true, beq_iff_eq] at hc
    rcases hc with ((rfl | rfl) | rfl) | rfl <;> decide
  have hhead : ∀ c ∈ cs.head?, c.toNat ≠ 0xFEFF := by
    intro c hc
    cases roots with
    | nil => exact hspace c (hcs c (List.mem_of_mem_head? hc))
    | cons r roots =>
      obtain ⟨m, ms, hmarks, hm⟩ := r.exists_marks
      rw [List.flatMap_cons, hmarks, List.cons_append] at hcs
      obtain ⟨gap, cs', hgap, rfl, -⟩ := hcs.markup hm
      cases gap with
      | nil =>
        obtain rfl : '<' = c := by simpa using hc
        decide
      | cons g gap =>
        obtain rfl : g = c := by simpa using hc
        exact hspace g (hgap g (by simp))
  cases cs with
  | nil => rfl
  | cons c cs => simp [Event.dropMark, hhead c rfl]

/-- A text of marks is read as the document that the marks stand for. -/
theorem read_spaced {roots : List Root} (hroots : ∀ r ∈ roots, r.Writable)
    (hkeep : keep = true ∨ ∀ r ∈ roots, ∃ e, r = .element e) {text : String}
    (hcs : Spaced (roots.flatMap Root.marks) text.toList) :
    Document.read keep text = .ok (roots.map Root.item) := by
  obtain ⟨events, hreading, hfold⟩ := reads_roots hroots hkeep [] hcs 0
  have hr : Event.reading text.toList = ⟨events, none⟩ := by
    rw [Event.reading, dropMark_spaced hcs]
    exact hreading
  simp only [Document.read, hr, hfold]
  simp [bind, Except.bind, pure, Except.pure]

end LsxKit.Xml
