import LsxKit.Proofs.Outcome
import LsxKit.Proofs.Text.Trim
import LsxKit.Xml.Document
import LsxKit.Xml.WellFormed
import Mathlib.Tactic.SplitIfs

/-!
# Readable documents

A well-formed document can be read unless one of its attribute values or of its declarations
cannot: these are what the check of a document does not look into.

* `Resolves`: a text all of whose references stand for characters; `resolves_trimBy`: so does such
  a text without the space around it.
* `Readable`: an event whose attribute values resolve and whose declaration can be read.
* `exists_add_iff`: what one checked event adds; `exists_foldlM_iff`: what checked events add.
* `exists_read_iff`: a well-formed document can be read exactly if all its events can.
* `unplaced_read`: no position is known of what cannot be read in it.
-/

namespace LsxKit.Xml

open Document

/-! ## References -/

/-- Whether all references of a text stand for characters. -/
def Resolves (raw : List Char) : Prop := ∃ cs, unescape raw = .ok cs

namespace Reference

/-- What a reference stands for does not depend on where it stands. -/
theorem resolve_ok {start stop : Nat} {name : List Char} {c : Char}
    (h : resolve start stop name = .ok c) (start' stop' : Nat) :
    resolve start' stop' name = .ok c := by
  unfold resolve at h ⊢
  split at h
  · next digits =>
    obtain ⟨n, hn, h⟩ := bind_eq_ok_iff.1 h
    refine bind_eq_ok_iff.2 ⟨n, hn, ?_⟩
    split_ifs at h ⊢
    exact h
  · next hname =>
    cases hnamed : named? name with
    | none =>
      rw [hnamed] at h
      contradiction
    | some c' =>
      rw [hnamed] at h
      exact h

theorem resolveFrom_unterminated (done : List Char) (offset : Nat) (name : List Char) :
    ¬ ∃ r, resolveFrom done offset (some name) [] = .ok r := by
  simp [resolveFrom]

/-- Whether a text resolves does not depend on what stands before. -/
theorem resolveFrom_ok {done : List Char} {offset : Nat} {opened : Option (List Char)}
    {cs : List Char} (h : ∃ r, resolveFrom done offset opened cs = .ok r) (done' : List Char)
    (offset' : Nat) : ∃ r, resolveFrom done' offset' opened cs = .ok r := by
  induction cs generalizing done offset opened done' offset' with
  | nil =>
    cases opened with
    | none => exact ⟨_, rfl⟩
    | some name => exact absurd h (resolveFrom_unterminated _ _ _)
  | cons c cs ih =>
    cases opened with
    | none =>
      rw [resolveFrom] at h ⊢
      split_ifs at h ⊢
      · exact ih h _ _
      · exact ih h _ _
    | some name =>
      rw [resolveFrom] at h ⊢
      split_ifs at h ⊢
      · cases hname : resolve (offset - Text.size name - 1) offset name.reverse with
        | error fault =>
          rw [hname] at h
          obtain ⟨r, hr⟩ := h
          contradiction
        | ok c' =>
          rw [hname] at h
          rw [resolve_ok hname]
          exact ih h _ _
      · obtain ⟨r, hr⟩ := h
        contradiction
      · exact ih h _ _

/-- Space cannot complete a reference. -/
theorem resolveFrom_gap {done : List Char} {offset : Nat} {opened : Option (List Char)}
    {cs gap : List Char} (hgap : ∀ c ∈ gap, isSpace c = true)
    (h : ∃ r, resolveFrom done offset opened (cs ++ gap) = .ok r) :
    ∃ r, resolveFrom done offset opened cs = .ok r := by
  induction cs generalizing done offset opened with
  | nil =>
    cases opened with
    | none => exact ⟨_, rfl⟩
    | some name =>
      exfalso
      rw [List.nil_append] at h
      induction gap generalizing offset name with
      | nil => exact absurd h (resolveFrom_unterminated _ _ _)
      | cons c gap ih =>
        obtain ⟨hc, hgap⟩ := List.forall_mem_cons.1 hgap
        have hsemicolon : c ≠ ';' := by
          rintro rfl
          contradiction
        rw [resolveFrom, if_neg hsemicolon] at h
        split_ifs at h
        · obtain ⟨r, hr⟩ := h
          contradiction
        · exact ih hgap _ h
  | cons c cs ih =>
    rw [List.cons_append] at h
    cases opened with
    | none =>
      rw [resolveFrom] at h ⊢
      split_ifs at h ⊢
      · exact ih h
      · exact ih h
    | some name =>
      rw [resolveFrom] at h ⊢
      split_ifs at h ⊢
      · cases hname : resolve (offset - Text.size name - 1) offset name.reverse with
        | error fault =>
          rw [hname] at h
          obtain ⟨r, hr⟩ := h
          contradiction
        | ok c' =>
          rw [hname] at h
          exact ih h
      · obtain ⟨r, hr⟩ := h
        contradiction
      · exact ih h

end Reference

theorem resolves_dropWhile {raw : List Char} (h : Resolves raw) :
    Resolves (raw.dropWhile isSpace) := by
  induction raw with
  | nil => exact h
  | cons c raw ih =>
    by_cases hc : isSpace c = true
    · have hampersand : c ≠ '&' := by
        rintro rfl
        contradiction
      rw [List.dropWhile_cons_of_pos hc]
      rw [Resolves, unescape, Reference.resolveFrom, if_neg hampersand] at h
      exact ih (Reference.resolveFrom_ok h [] 0)
    · rwa [List.dropWhile_cons_of_neg hc]

/-- A text that resolves does so without the space around it. -/
theorem resolves_trimBy {raw : List Char} (h : Resolves raw) :
    Resolves (Text.trimBy isSpace raw) := by
  have hsplit : raw.dropWhile isSpace = Text.trimBy isSpace raw ++
      ((raw.dropWhile isSpace).reverse.takeWhile isSpace).reverse := by
    rw [Text.trimBy, Text.trimEndBy, ← List.reverse_append, List.takeWhile_append_dropWhile,
      List.reverse_reverse]
  have hresolves := resolves_dropWhile h
  rw [hsplit] at hresolves
  exact Reference.resolveFrom_gap
    (fun c hc => List.mem_takeWhile_imp (List.mem_reverse.1 hc)) hresolves

/-! ## Attributes and declarations -/

/-- Whether the attributes of a tag can be read, provided that they are written correctly. -/
def Tag.Readable (t : Tag) : Prop := ∀ a ∈ t.attributes.1, Resolves a.value

/-- The attributes of a tag without a fault are read exactly if their values resolve. -/
theorem exists_readAttributes_iff {t : Tag} (h : t.attributes.2 = none) :
    (∃ attributes, readAttributes t = .ok attributes) ↔ t.Readable := by
  unfold readAttributes Tag.Readable
  cases hraw : t.attributes with
  | mk raw fault =>
    obtain rfl : fault = none := by rw [← h, hraw]
    simp [exists_bind_iff, exists_mapM_iff, mapError_eq_ok_iff, Resolves, pure, Except.pure]

/-- Whether a declaration can be read: the version comes first, and what is wrong, if anything is,
comes after both of the others. -/
def DeclarationReadable (content : List Char) : Prop :=
  let (raw, fault) := Attribute.scan false (Text.size content) [] (content.drop 3)
  let keys := raw.map (·.key)
  keys.head? = some ['v', 'e', 'r', 's', 'i', 'o', 'n'] ∧
    (fault = none ∨ ['e', 'n', 'c', 'o', 'd', 'i', 'n', 'g'] ∈ keys ∧
      ['s', 't', 'a', 'n', 'd', 'a', 'l', 'o', 'n', 'e'] ∈ keys)

theorem exists_findAttribute_iff (key content : List Char) :
    (∃ value, findAttribute key content = .ok value) ↔
      (Attribute.scan false (Text.size content) [] (content.drop 3)).2 = none ∨
        key ∈ (Attribute.scan false (Text.size content) [] (content.drop 3)).1.map (·.key) := by
  unfold findAttribute
  cases hscan : Attribute.scan false (Text.size content) [] (content.drop 3) with
  | mk raw fault =>
    have hfind : raw.find? (·.key = key) = none ↔ key ∉ raw.map (·.key) := by simp
    cases hfound : raw.find? (·.key = key) with
    | some a =>
      have hmem : key ∈ raw.map (·.key) := by
        by_contra hnot
        rw [hfind.2 hnot] at hfound
        contradiction
      simp [hfound, hmem]
    | none =>
      have hnot := hfind.1 hfound
      cases fault <;> simp [hfound, hnot]

theorem exists_readDeclaration_iff {content : List Char} :
    (∃ d, readDeclaration content = .ok d) ↔ DeclarationReadable content := by
  have hencoding :=
    exists_findAttribute_iff ['e', 'n', 'c', 'o', 'd', 'i', 'n', 'g'] content
  have hstandalone :=
    exists_findAttribute_iff ['s', 't', 'a', 'n', 'd', 'a', 'l', 'o', 'n', 'e'] content
  -- what is read after the version
  have hothers : ∀ version, (∃ d, (do
      let encoding ← findAttribute ['e', 'n', 'c', 'o', 'd', 'i', 'n', 'g'] content
      let standalone ← findAttribute ['s', 't', 'a', 'n', 'd', 'a', 'l', 'o', 'n', 'e'] content
      return Declaration.mk version encoding standalone) = .ok d) ↔
        (∃ encoding, findAttribute ['e', 'n', 'c', 'o', 'd', 'i', 'n', 'g'] content =
          .ok encoding) ∧
        ∃ standalone, findAttribute ['s', 't', 'a', 'n', 'd', 'a', 'l', 'o', 'n', 'e'] content =
          .ok standalone := by
    intro version
    simp [exists_bind_iff, pure, Except.pure]
  unfold readDeclaration DeclarationReadable
  cases hscan : Attribute.scan false (Text.size content) [] (content.drop 3) with
  | mk raw fault =>
    rw [hscan] at hencoding hstandalone
    cases raw with
    | nil => cases fault <;> simp [exists_bind_iff]
    | cons a raw =>
      by_cases hversion : a.key = ['v', 'e', 'r', 's', 'i', 'o', 'n']
      · simp only [hversion, reduceIte]
        refine (hothers _).trans ?_
        rw [hencoding, hstandalone, ← or_and_left]
        simp [hversion]
      · simp [hversion, exists_bind_iff]

/-- Whether an event that is written correctly can be read; `keepDeclaration` tells whether
declarations are. -/
def Readable (keepDeclaration : Bool) : Event → Prop
  | .start tag | .empty tag => tag.Readable
  | .declaration content => keepDeclaration = true → DeclarationReadable content
  | _ => True

/-! ## Events -/

namespace WellFormed

variable {text : List Char} {s s' : State} {offset : Nat}

theorem checkAttributes_ok {t : Tag} {u : Unit} (h : checkAttributes t = .ok u) :
    t.attributes.2 = none := by
  unfold checkAttributes at h
  split at h
  · contradiction
  · next hfault => exact hfault

/-- What is known of a start tag that was checked. -/
theorem step_start {t : Tag} (h : step text s offset (.start t) = .ok s') :
    t.attributes.2 = none ∧ s' = ⟨(String.ofList t.name, offset) :: s.opened, true⟩ := by
  simp only [step] at h
  split_ifs at h
  · contradiction
  · obtain ⟨_, hcheck, h⟩ := bind_eq_ok_iff.1 h
    exact ⟨checkAttributes_ok (mapError_eq_ok_iff.1 hcheck), (Except.ok.inj h).symm⟩

/-- What is known of the tag of an empty element that was checked. -/
theorem step_empty {t : Tag} (h : step text s offset (.empty t) = .ok s') :
    t.attributes.2 = none ∧ s' = ⟨s.opened, true⟩ := by
  simp only [step] at h
  split_ifs at h
  · contradiction
  · obtain ⟨_, hcheck, h⟩ := bind_eq_ok_iff.1 h
    exact ⟨checkAttributes_ok (mapError_eq_ok_iff.1 hcheck), (Except.ok.inj h).symm⟩

/-- What is known of a run of text that was checked. -/
theorem step_text {raw : List Char} (h : step text s offset (.text raw) = .ok s') :
    Resolves raw ∧ s' = s := by
  simp only [step] at h
  obtain ⟨resolved, hresolved, h⟩ := bind_eq_ok_iff.1 h
  refine ⟨⟨resolved, mapError_eq_ok_iff.1 (mapError_eq_ok_iff.1 hresolved)⟩, ?_⟩
  split_ifs at h
  · contradiction
  · exact (Except.ok.inj h).symm

end WellFormed

section Steps

variable {keep : Bool} {text : List Char} {s s' : WellFormed.State} {offset : Nat} {p p' : Partial}
  {e : Event} {events : List (Nat × Event)}

/-- An event that was checked can be added exactly if it is readable. -/
theorem exists_add_iff (keep : Bool) (p : Partial) (h : WellFormed.step text s offset e = .ok s') :
    (∃ p', p.add keep e = .ok p') ↔ Readable keep e := by
  cases e with
  | start tag =>
    rw [Readable, ← exists_readAttributes_iff (WellFormed.step_start h).1]
    simp [Partial.add, exists_bind_iff, pure, Except.pure]
  | empty tag =>
    rw [Readable, ← exists_readAttributes_iff (WellFormed.step_empty h).1]
    simp [Partial.add, exists_bind_iff, pure, Except.pure]
  | close name => cases hopened : p.opened <;> simp [Partial.add, Readable, hopened]
  | text raw =>
    obtain ⟨cs, hcs⟩ := resolves_trimBy (WellFormed.step_text h).1
    simp only [Partial.add, Readable, iff_true]
    split_ifs
    · exact ⟨p, rfl⟩
    · exact exists_bind_iff.2 ⟨cs, mapError_eq_ok_iff.2 hcs, _, rfl⟩
  | declaration content =>
    cases keep with
    | false => simp [Partial.add, Readable, pure, Except.pure]
    | true =>
      simp [Partial.add, Readable, exists_bind_iff, ← exists_readDeclaration_iff, pure,
        Except.pure]
  | characterData raw => simp [Partial.add, Readable]
  | other => simp [Partial.add, Readable]

theorem length_opened_addText (p : Partial) (chars : List Char) :
    (p.addText chars).opened.length = p.opened.length := by
  unfold Partial.addText
  split
  · rfl
  · next hopened => simp [hopened]

theorem length_opened_addElement (p : Partial) (name : String)
    (attributes : List (String × String)) (content : List Node) :
    (p.addElement name attributes content).opened.length = p.opened.length := by
  unfold Partial.addElement
  split
  · next hopened => simp [hopened]
  · next hopened => simp [hopened]

/-- The check and the reading have the same number of open elements. -/
theorem length_opened_add (hlength : p.opened.length = s.opened.length)
    (h : WellFormed.step text s offset e = .ok s') (hadd : p.add keep e = .ok p') :
    p'.opened.length = s'.opened.length := by
  cases e with
  | start tag =>
    obtain ⟨attributes, -, hadd⟩ := bind_eq_ok_iff.1 hadd
    obtain rfl := Except.ok.inj hadd
    rw [(WellFormed.step_start h).2, List.length_cons, List.length_cons, hlength]
  | empty tag =>
    obtain ⟨attributes, -, hadd⟩ := bind_eq_ok_iff.1 hadd
    obtain rfl := Except.ok.inj hadd
    rw [length_opened_addElement, hlength, (WellFormed.step_empty h).2]
  | close name =>
    obtain rfl := Except.ok.inj h
    rw [List.length_drop, ← hlength]
    cases hopened : p.opened with
    | nil =>
      simp only [Partial.add, hopened, Except.ok.injEq] at hadd
      simp [← hadd, hopened]
    | cons o os =>
      simp only [Partial.add, hopened, Except.ok.injEq] at hadd
      rw [← hadd, length_opened_addElement]
      rfl
  | text raw =>
    rw [(WellFormed.step_text h).2, ← hlength]
    simp only [Partial.add] at hadd
    split_ifs at hadd
    · rw [Except.ok.inj hadd]
    · obtain ⟨cs, -, hadd⟩ := bind_eq_ok_iff.1 hadd
      rw [← Except.ok.inj hadd, length_opened_addText]
  | declaration content =>
    obtain rfl := Except.ok.inj h
    rw [← hlength]
    simp only [Partial.add] at hadd
    split_ifs at hadd
    · obtain ⟨d, -, hadd⟩ := bind_eq_ok_iff.1 hadd
      rw [← Except.ok.inj hadd]
    · rw [Except.ok.inj hadd]
  | characterData raw =>
    obtain rfl := Except.ok.inj h
    rw [← hlength, ← Except.ok.inj hadd, length_opened_addText]
  | other =>
    obtain rfl := Except.ok.inj h
    rw [← hlength, Except.ok.inj hadd]

/-- Events that were checked can be added exactly if all of them are readable. -/
theorem exists_foldlM_iff (keep : Bool) (p : Partial) (hlength : p.opened.length = s.opened.length)
    (h : WellFormed.run text s events = .ok s') :
    ((∃ p', events.foldlM (fun p (_, e) => Partial.add keep p e) p = .ok p') ↔
      ∀ e ∈ events, Readable keep e.2) ∧
    ∀ p', events.foldlM (fun p (_, e) => Partial.add keep p e) p = .ok p' →
      p'.opened.length = s'.opened.length := by
  induction events generalizing s p with
  | nil =>
    obtain rfl := Except.ok.inj h
    simp [pure, Except.pure, hlength]
  | cons e events ih =>
    obtain ⟨next, hstep, hrun⟩ := bind_eq_ok_iff.1 h
    have hadd := exists_add_iff keep p hstep
    rw [List.forall_mem_cons, List.foldlM_cons, ← hadd, exists_bind_iff]
    constructor
    · constructor
      · rintro ⟨q, hq, hrest⟩
        exact ⟨⟨q, hq⟩, (ih q (length_opened_add hlength hstep hq) hrun).1.1 hrest⟩
      · rintro ⟨⟨q, hq⟩, hrest⟩
        exact ⟨q, hq, (ih q (length_opened_add hlength hstep hq) hrun).1.2 hrest⟩
    · intro p' hp'
      obtain ⟨q, hq, hrest⟩ := bind_eq_ok_iff.1 hp'
      exact (ih q (length_opened_add hlength hstep hq) hrun).2 p' hrest

end Steps

/-! ## Documents -/

/-- Whether every event of a text can be read. -/
def AllReadable (keepDeclaration : Bool) (text : String) : Prop :=
  ∀ e ∈ (Event.reading text.toList).events, Readable keepDeclaration e.2

/-- What is known of a document that was checked. -/
theorem checkWellFormed_ok {text : String} (h : checkWellFormed text = .ok ()) :
    (Event.reading text.toList).fault = none ∧
      ∃ s, WellFormed.run text.toList .initial (Event.reading text.toList).events = .ok s ∧
        s.opened = [] ∧ s.rootSeen = true := by
  obtain ⟨s, hrun, h⟩ := bind_eq_ok_iff.1 (mapError_eq_ok_iff.1 h)
  cases hfault : (Event.reading text.toList).fault with
  | some fault =>
    rw [hfault] at h
    contradiction
  | none =>
    rw [hfault] at h
    have hfinish : WellFormed.finish text.toList s = .ok () := h
    refine ⟨rfl, s, hrun, ?_⟩
    unfold WellFormed.finish at hfinish
    cases hopened : s.opened with
    | cons o os =>
      rw [hopened] at hfinish
      contradiction
    | nil =>
      simp only [hopened] at hfinish
      split_ifs at hfinish with hroot
      exact ⟨rfl, hroot⟩

/-- A well-formed document can be read exactly if all its events can. -/
theorem exists_read_iff {keep : Bool} {text : String} (h : checkWellFormed text = .ok ()) :
    (∃ d, Document.read keep text = .ok d) ↔ AllReadable keep text := by
  obtain ⟨hfault, s, hrun, hopened, -⟩ := checkWellFormed_ok h
  obtain ⟨hfold, hlength⟩ := exists_foldlM_iff keep ⟨[], []⟩ rfl hrun
  rw [AllReadable, ← hfold]
  unfold Document.read
  rw [exists_bind_iff]
  refine exists_congr fun p => and_iff_left_of_imp fun hp => ?_
  have hp' : p.opened = [] := by
    have := hlength p hp
    rwa [hopened, List.length_nil, List.length_eq_zero_iff] at this
  rw [hfault, hp']
  exact ⟨_, rfl⟩

/-! ## Errors without a position -/

section Unplaced

variable {α β : Type}

/-- Whether a result is no error with a position. -/
def Unplaced (x : Except Error α) : Prop :=
  ∀ position fault, x ≠ .error (.document position fault)

theorem unplaced_ok (a : α) : Unplaced (.ok a) := nofun

theorem unplaced_bind {x : Except Error α} {f : α → Except Error β} (hx : Unplaced x)
    (hf : ∀ a, x = .ok a → Unplaced (f a)) : Unplaced (x >>= f) := by
  cases x with
  | error e =>
    exact fun position fault h =>
      hx position fault (congrArg Except.error (Except.error.inj h))
  | ok a => exact hf a rfl

theorem unplaced_mapM {f : α → Except Error β} {as : List α} (hf : ∀ a, Unplaced (f a)) :
    Unplaced (as.mapM f) := by
  induction as with
  | nil => exact unplaced_ok []
  | cons a as ih =>
    rw [List.mapM_cons]
    exact unplaced_bind (hf a) fun _ _ => unplaced_bind ih fun _ _ => unplaced_ok _

theorem unplaced_unescape (raw : List Char) :
    Unplaced ((unescape raw).mapError fun f => Error.markup (.reference f)) := by
  cases unescape raw with
  | error e => exact fun position fault h => nomatch h
  | ok cs => exact unplaced_ok cs

theorem unplaced_readAttributes (t : Tag) : Unplaced (readAttributes t) := by
  unfold readAttributes
  refine unplaced_bind (unplaced_mapM fun a => ?_) fun _ _ => ?_
  · exact unplaced_bind (unplaced_unescape a.value) fun _ _ => unplaced_ok _
  · split
    · simp [Unplaced]
    · exact unplaced_ok _

theorem unplaced_findAttribute (key content : List Char) :
    Unplaced (findAttribute key content) := by
  unfold findAttribute
  dsimp only
  split <;> simp [Unplaced]

theorem unplaced_readDeclaration (content : List Char) : Unplaced (readDeclaration content) := by
  unfold readDeclaration
  have hothers : ∀ version, Unplaced (do
      let encoding ← findAttribute ['e', 'n', 'c', 'o', 'd', 'i', 'n', 'g'] content
      let standalone ← findAttribute ['s', 't', 'a', 'n', 'd', 'a', 'l', 'o', 'n', 'e'] content
      return Declaration.mk version encoding standalone) := fun _ =>
    unplaced_bind (unplaced_findAttribute _ _) fun _ _ =>
      unplaced_bind (unplaced_findAttribute _ _) fun _ _ => unplaced_ok _
  dsimp only
  split
  · split_ifs
    · exact hothers _
    · simp [Unplaced, bind, Except.bind]
  · simp [Unplaced, bind, Except.bind]
  · simp [Unplaced, bind, Except.bind]

/-- What cannot be added has no position. -/
theorem unplaced_add (keep : Bool) (p : Partial) (e : Event) : Unplaced (p.add keep e) := by
  cases e with
  | start tag => exact unplaced_bind (unplaced_readAttributes tag) fun _ _ => unplaced_ok _
  | empty tag => exact unplaced_bind (unplaced_readAttributes tag) fun _ _ => unplaced_ok _
  | close name => cases hopened : p.opened <;> simp [Partial.add, Unplaced, hopened]
  | text raw =>
    simp only [Partial.add]
    split_ifs
    · exact unplaced_ok p
    · exact unplaced_bind (unplaced_unescape _) fun _ _ => unplaced_ok _
  | declaration content =>
    simp only [Partial.add]
    split_ifs
    · exact unplaced_bind (unplaced_readDeclaration content) fun _ _ => unplaced_ok _
    · exact unplaced_ok p
  | characterData raw => exact unplaced_ok _
  | other => exact unplaced_ok p

theorem unplaced_foldlM (keep : Bool) (p : Partial) (events : List (Nat × Event)) :
    Unplaced (events.foldlM (fun p (_, e) => Partial.add keep p e) p) := by
  induction events generalizing p with
  | nil => exact unplaced_ok p
  | cons e events ih =>
    rw [List.foldlM_cons]
    exact unplaced_bind (unplaced_add keep p e.2) fun q _ => ih q

/-- What cannot be read in a well-formed document has no position. -/
theorem unplaced_read {keep : Bool} {text : String} (h : checkWellFormed text = .ok ()) :
    Unplaced (Document.read keep text) := by
  obtain ⟨hfault, s, hrun, hopened, -⟩ := checkWellFormed_ok h
  obtain ⟨-, hlength⟩ := exists_foldlM_iff keep ⟨[], []⟩ rfl hrun
  unfold Document.read
  refine unplaced_bind (unplaced_foldlM keep _ _) fun p hp => ?_
  have hp' : p.opened = [] := by
    have := hlength p hp
    rwa [hopened, List.length_nil, List.length_eq_zero_iff] at this
  rw [hfault, hp']
  exact unplaced_ok _

end Unplaced

end LsxKit.Xml
