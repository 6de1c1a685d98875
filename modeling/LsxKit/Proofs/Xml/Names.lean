import LsxKit.Proofs.Outcome
import LsxKit.Proofs.Xml.Reading

/-!
# Names and declared values in a text

What holds of the names in a text holds of the names in its document, and attributes of one
element have distinct names there.

* `names`, `declaredValues`: the names of elements and attributes in a text, and the values of its
  declarations.
* `Item.Named`: what a document is known to be like if all its names are.
* `read_named`: documents are like that.
-/

namespace LsxKit.Xml

open Document

/-! ## What stands in a text -/

/-- The names in a tag: its own and the keys of its attributes. -/
def Tag.names (t : Tag) : List String :=
  String.ofList t.name :: t.attributes.1.map fun a => String.ofList a.key

/-- The names of elements and attributes in a text. -/
def names (text : String) : List String :=
  (Event.reading text.toList).events.flatMap fun e =>
    match e.2 with
    | .start tag | .empty tag => tag.names
    | _ => []

/-- The values in a declaration, as they are written. -/
def valuesOf (content : List Char) : List (List Char) :=
  (Attribute.scan false (Text.size content) [] (content.drop 3)).1.map (·.value)

/-- The values of the declarations in a text, as they are written. -/
def declaredValues (text : String) : List (List Char) :=
  (Event.reading text.toList).events.flatMap fun e =>
    match e.2 with
    | .declaration content => valuesOf content
    | _ => []

/-! ## Attributes that are read -/

namespace Attribute

variable {total : Nat}

theorem skipSpace_subset (cs : List Char) : skipSpace cs ⊆ cs :=
  (List.dropWhile_suffix isSpace).subset

theorem afterEquals?_subset {cs rest : List Char} (h : afterEquals? total cs = .ok rest) :
    rest ⊆ cs := by
  unfold afterEquals? at h
  split at h
  · contradiction
  · next c r hs =>
    split at h
    · injection h with h
      subst h
      have hsub := skipSpace_subset cs
      rw [hs] at hsub
      exact fun d hd => hsub (List.mem_cons_of_mem _ hd)
    · contradiction

theorem value?_subset {cs v rest : List Char} (h : value? total cs = .ok (v, rest)) :
    v ⊆ cs ∧ rest ⊆ cs := by
  unfold value? at h
  split at h
  · contradiction
  · next q r hs =>
    have hsub := skipSpace_subset cs
    rw [hs] at hsub
    have hr : r ⊆ cs := fun d hd => hsub (List.mem_cons_of_mem _ hd)
    split at h
    · split at h
      · contradiction
      · next c r' hdrop =>
        injection h with h
        injection h with h1 h2
        subst h1 h2
        refine ⟨fun d hd => hr ((List.takeWhile_prefix _).subset hd), fun d hd => hr ?_⟩
        refine (List.dropWhile_suffix (· ≠ q)).subset ?_
        rw [hdrop]
        exact List.mem_cons_of_mem _ hd
    · contradiction

/-- Values consist of characters of the text that is scanned. -/
theorem value_subset_of_mem_scan {distinct : Bool} {seen : List (List Char × List Char)}
    {cs : List Char} : ∀ a ∈ (scan distinct total seen cs).1, a.value ⊆ cs := by
  fun_induction scan distinct total seen cs with
  | case5 seen cs k r hskip key r' hequals _ value rest hvalue attributes fault hscan ih =>
    have hcs : r ⊆ cs := by
      have hsub := skipSpace_subset cs
      rw [hskip] at hsub
      exact fun d hd => hsub (List.mem_cons_of_mem _ hd)
    have hr' : r' ⊆ cs := fun d hd =>
      hcs ((List.dropWhile_suffix inKey).subset (afterEquals?_subset hequals hd))
    intro a ha
    rcases List.mem_cons.1 ha with rfl | ha
    · exact fun d hd => hr' ((value?_subset hvalue).1 hd)
    · exact fun d hd => hr' ((value?_subset hvalue).2 (ih a (by simpa [hscan] using ha) hd))
  | _ => simp

/-- Distinct keys are read, none of them one that was read before. -/
theorem scan_distinct (total : Nat) (seen : List (List Char × List Char)) (cs : List Char) :
    ((scan true total seen cs).1.map (·.key)).Nodup ∧
      ∀ a ∈ (scan true total seen cs).1, a.key ∉ seen.map Prod.fst := by
  fun_induction scan true total seen cs with
  | case5 seen cs k r hskip key r' hequals hnew value rest hvalue attributes fault hscan ih =>
    rw [hscan] at ih
    obtain ⟨hnodup, hold⟩ := ih
    simp only [List.map_cons, List.mem_cons, not_or] at hold
    have hkey : key ∉ seen.map Prod.fst := by
      rw [dif_pos rfl, List.find?_eq_none] at hnew
      intro hmem
      obtain ⟨s, hs, hk⟩ := List.mem_map.1 hmem
      exact hnew s hs (by simpa using hk)
    refine ⟨?_, ?_⟩
    · rw [List.map_cons, List.nodup_cons]
      refine ⟨fun hmem => ?_, hnodup⟩
      obtain ⟨a, ha, hk⟩ := List.mem_map.1 hmem
      exact (hold a ha).1 hk
    · intro a ha
      rcases List.mem_cons.1 ha with rfl | ha
      · exact hkey
      · exact (hold a ha).2
  | _ => simp

end Attribute

theorem mapM_keys {raw : List RawAttribute} {attributes : List (String × String)}
    (h : raw.mapM (fun a => do
      let value ← (unescape a.value).mapError fun f => Error.markup (.reference f)
      return (String.ofList a.key, String.ofList value)) = .ok attributes) :
    attributes.map Prod.fst = raw.map fun a => String.ofList a.key := by
  induction raw generalizing attributes with
  | nil =>
    cases h
    rfl
  | cons a raw ih =>
    rw [List.mapM_cons] at h
    obtain ⟨first, hfirst, h⟩ := bind_eq_ok_iff.1 h
    obtain ⟨rest, hrest, h⟩ := bind_eq_ok_iff.1 h
    obtain ⟨value, -, hvalue⟩ := bind_eq_ok_iff.1 hfirst
    obtain rfl := Except.ok.inj h
    obtain rfl := Except.ok.inj hvalue
    simp [ih hrest]

/-- Whether attributes have good names, each of them once. -/
def AttributesGood (good : String → Prop) (attributes : List (String × String)) : Prop :=
  (∀ a ∈ attributes, good a.1) ∧ (attributes.map Prod.fst).Nodup

/-- The attributes of an element have the names in its tag, each of them once. -/
theorem readAttributes_good {good : String → Prop} {t : Tag}
    {attributes : List (String × String)} (hnames : ∀ n ∈ t.names, good n)
    (h : readAttributes t = .ok attributes) : AttributesGood good attributes := by
  have hkeys : attributes.map Prod.fst = t.attributes.1.map fun a => String.ofList a.key := by
    unfold readAttributes at h
    cases hraw : t.attributes with
    | mk raw fault =>
      rw [hraw] at h
      obtain ⟨attributes', hmap, h⟩ := bind_eq_ok_iff.1 h
      cases fault with
      | some fault => contradiction
      | none =>
        obtain rfl := Except.ok.inj h
        exact mapM_keys hmap
  constructor
  · intro a ha
    have hmem : a.1 ∈ attributes.map Prod.fst := List.mem_map_of_mem ha
    rw [hkeys] at hmem
    exact hnames _ (List.mem_cons_of_mem _ hmem)
  · have hinj : Function.Injective String.ofList := fun a b h => String.ofList_inj.1 h
    have hnodup := (Attribute.scan_distinct (Text.size t.content) [] t.rest).1.map hinj
    rw [hkeys]
    simpa [Tag.attributes, Function.comp_def] using hnodup

/-! ## Declarations that are read -/

theorem findAttribute_mem {key content : List Char} {value : Option String}
    (h : findAttribute key content = .ok value) : ∀ v ∈ value, v.toList ∈ valuesOf content := by
  intro v hv
  unfold findAttribute at h
  cases hscan : Attribute.scan false (Text.size content) [] (content.drop 3) with
  | mk raw fault =>
    simp only [hscan] at h
    split at h
    · next a hfind =>
      injection h with h
      subst h
      obtain rfl : String.ofList a.value = v := by simpa using hv
      refine List.mem_map.2 ⟨a, ?_, by simp⟩
      rw [hscan]
      exact List.mem_of_find?_eq_some hfind
    · contradiction
    · injection h with h
      subst h
      contradiction

theorem readDeclaration_mem {content : List Char} {d : Declaration}
    (h : readDeclaration content = .ok d) :
    ∀ v ∈ d.version :: d.encoding.toList ++ d.standalone.toList, v.toList ∈ valuesOf content := by
  unfold readDeclaration at h
  split at h
  · next a as fault hscan =>
    split_ifs at h
    · obtain ⟨version, hversion, h⟩ := bind_eq_ok_iff.1 h
      obtain ⟨encoding, hencoding, h⟩ := bind_eq_ok_iff.1 h
      obtain ⟨standalone, hstandalone, h⟩ := bind_eq_ok_iff.1 h
      obtain rfl := Except.ok.inj hversion
      obtain rfl := Except.ok.inj h
      intro v hv
      simp only [List.cons_append, List.mem_cons, List.mem_append, Option.mem_toList] at hv
      rcases hv with rfl | hv | hv
      · refine List.mem_map.2 ⟨a, ?_, by simp⟩
        rw [hscan]
        exact List.mem_cons_self
      · exact findAttribute_mem hencoding v hv
      · exact findAttribute_mem hstandalone v hv
    · contradiction
  · contradiction
  · contradiction

/-- A declaration can be written back if its values do not hold quotes. -/
theorem readDeclaration_writable {content : List Char} {d : Declaration}
    (hbracket : '>' ∉ content) (hquote : ∀ v ∈ valuesOf content, '"' ∉ v)
    (h : readDeclaration content = .ok d) : DeclarationWritable d := by
  intro v hv
  have hmem := readDeclaration_mem h v hv
  refine ⟨hquote _ hmem, fun hv => hbracket ?_⟩
  obtain ⟨a, ha, hvalue⟩ := List.mem_map.1 hmem
  rw [← hvalue] at hv
  exact List.mem_of_mem_drop (Attribute.value_subset_of_mem_scan a ha hv)

theorem not_mem_of_instruction {cs content source rest : List Char}
    (h : step cs = .token (.instruction content) source rest) : '>' ∉ content := by
  unfold step at h
  split at h
  · contradiction
  · contradiction
  · unfold bang at h
    repeat' split at h
    all_goals first
      | contradiction
      | simp [Step.markup] at h
  · simp [close, Step.markup] at h
  · next cs =>
    unfold instruction at h
    split_ifs at h
    simp only [Step.markup, Step.token.injEq, Token.instruction.injEq] at h
    obtain ⟨rfl, -, -⟩ := h
    intro hmem
    simpa using List.mem_takeWhile_imp ((List.dropLast_prefix _).subset hmem)
  · simp [Step.markup] at h
  · simp at h

theorem instruction_of_declaration {opened : List (List Char)} {t : Token} {content : List Char}
    (h : Event.ofToken? opened t = .ok (.declaration content)) : t = .instruction content := by
  cases t with
  | instruction content' =>
    simp only [Event.ofToken?, Except.ok.injEq] at h
    unfold Event.ofInstruction at h
    split at h
    · split_ifs at h
      injection h with h
      rw [h]
    · contradiction
  | tag content' =>
    simp only [Event.ofToken?, Except.ok.injEq, Event.ofTag] at h
    split_ifs at h
  | close content' =>
    simp only [Event.ofToken?] at h
    split at h
    · contradiction
    · split_ifs at h
      simp at h
  | _ => simp [Event.ofToken?] at h

/-- A declaration ends at its first closing bracket. -/
theorem not_mem_of_declaration {opened : List (List Char)} {offset : Nat} {cs : List Char} :
    ∀ e ∈ (Event.readingFrom opened offset cs).events, ∀ content, e.2 = .declaration content →
      '>' ∉ content := by
  fun_induction Event.readingFrom opened offset cs with
  | case4 opened offset cs t source rest hstep e hevent r ih =>
    intro e' he' content hc
    rcases List.mem_cons.1 he' with rfl | he'
    · obtain rfl : e = .declaration content := hc
      rw [instruction_of_declaration hevent] at hstep
      exact not_mem_of_instruction hstep
    · exact ih e' he' content hc
  | _ => simp

/-! ## Documents that are read -/

mutual

/-- Whether all names in content are good, and attributes of one element distinct. -/
def Node.Named (good : String → Prop) : Node → Prop
  | .text _ => True
  | .element name attributes content =>
    good name ∧ AttributesGood good attributes ∧ AllNamed good content
  termination_by structural n => n

/-- Whether all names in a list of content are good, and attributes of one element distinct. -/
def AllNamed (good : String → Prop) : List Node → Prop
  | [] => True
  | n :: ns => n.Named good ∧ AllNamed good ns
  termination_by structural ns => ns

end

theorem allNamed_iff {good : String → Prop} {ns : List Node} :
    AllNamed good ns ↔ ∀ n ∈ ns, n.Named good := by
  induction ns with
  | nil => simp [AllNamed]
  | cons n ns ih => simp [AllNamed, ih]

/-- What is known of an item of a document in which all names are good. -/
def Item.Named (keepDeclaration : Bool) (good : String → Prop) : Item → Prop
  | .declaration d => keepDeclaration = true ∧ DeclarationWritable d
  | .element name attributes content =>
    good name ∧ AttributesGood good attributes ∧ AllNamed good content

/-- What is known of a document that is being read. -/
def Document.Partial.Named (keepDeclaration : Bool) (good : String → Prop) (p : Partial) : Prop :=
  (∀ o ∈ p.opened, good o.name ∧ AttributesGood good o.attributes ∧ AllNamed good o.content) ∧
    ∀ i ∈ p.items, i.Named keepDeclaration good

/-- What is known of an event of a text in which all names are good. -/
def Event.Named (good : String → Prop) : Event → Prop
  | .start tag => ∀ n ∈ tag.names, good n
  | .empty tag => ∀ n ∈ tag.names, good n
  | .declaration content => '>' ∉ content ∧ ∀ v ∈ valuesOf content, '"' ∉ v
  | _ => True

variable {good : String → Prop}

theorem named_addText {p : Partial} (hp : p.Named keep good) (cs : List Char) :
    (p.addText cs).Named keep good := by
  obtain ⟨opened, items⟩ := p
  cases opened with
  | nil => exact hp
  | cons o os =>
    obtain ⟨hopened, hitems⟩ := hp
    refine ⟨?_, hitems⟩
    intro o' ho'
    rcases List.mem_cons.1 ho' with rfl | ho'
    · obtain ⟨hn, ha, hc⟩ := hopened o List.mem_cons_self
      exact ⟨hn, ha, trivial, hc⟩
    · exact hopened o' (List.mem_cons_of_mem _ ho')

theorem named_addElement {p : Partial} (hp : p.Named keep good) {name : String}
    {attributes : List (String × String)} {content : List Node} (hn : good name)
    (ha : AttributesGood good attributes) (hc : AllNamed good content) :
    (p.addElement name attributes content).Named keep good := by
  obtain ⟨opened, items⟩ := p
  obtain ⟨hopened, hitems⟩ := hp
  cases opened with
  | nil =>
    refine ⟨hopened, ?_⟩
    intro i hi
    rcases List.mem_cons.1 hi with rfl | hi
    · exact ⟨hn, ha, hc⟩
    · exact hitems i hi
  | cons o os =>
    refine ⟨?_, hitems⟩
    intro o' ho'
    rcases List.mem_cons.1 ho' with rfl | ho'
    · obtain ⟨hn', ha', hc'⟩ := hopened o List.mem_cons_self
      exact ⟨hn', ha', ⟨hn, ha, hc⟩, hc'⟩
    · exact hopened o' (List.mem_cons_of_mem _ ho')

/-- What an event adds is like the document so far. -/
theorem named_add {p p' : Partial} {e : Event} (hp : p.Named keep good) (he : e.Named good)
    (h : Partial.add keep p e = .ok p') : p'.Named keep good := by
  cases e with
  | start tag =>
    obtain ⟨attributes, ha, h⟩ := bind_eq_ok_iff.1 h
    obtain rfl := Except.ok.inj h
    refine ⟨?_, hp.2⟩
    intro o ho
    rcases List.mem_cons.1 ho with rfl | ho
    · exact ⟨he _ List.mem_cons_self, readAttributes_good he ha, trivial⟩
    · exact hp.1 o ho
  | empty tag =>
    obtain ⟨attributes, ha, h⟩ := bind_eq_ok_iff.1 h
    obtain rfl := Except.ok.inj h
    exact named_addElement hp (he _ List.mem_cons_self) (readAttributes_good he ha) trivial
  | close name =>
    obtain ⟨opened, items⟩ := p
    cases opened with
    | nil =>
      obtain rfl : ⟨[], items⟩ = p' := by simpa [Partial.add] using h
      exact hp
    | cons o os =>
      simp only [Partial.add, Except.ok.injEq] at h
      subst h
      obtain ⟨hn, ha, hc⟩ := hp.1 o List.mem_cons_self
      have hrest : Partial.Named keep good ⟨os, items⟩ :=
        ⟨fun o ho => hp.1 o (List.mem_cons_of_mem _ ho), hp.2⟩
      refine named_addElement hrest hn ha ?_
      rw [allNamed_iff] at hc ⊢
      exact fun n hmem => hc n (List.mem_reverse.1 hmem)
  | text raw =>
    simp only [Partial.add] at h
    split_ifs at h
    · obtain rfl : p = p' := by simpa [pure, Except.pure] using h
      exact hp
    · obtain ⟨cs, -, h⟩ := bind_eq_ok_iff.1 h
      obtain rfl := Except.ok.inj h
      exact named_addText hp cs
  | characterData raw =>
    simp only [Partial.add, Except.ok.injEq] at h
    subst h
    exact named_addText hp raw
  | declaration content =>
    simp only [Partial.add] at h
    split_ifs at h with hkeep
    · obtain ⟨d, hd, h⟩ := bind_eq_ok_iff.1 h
      obtain rfl := Except.ok.inj h
      refine ⟨hp.1, ?_⟩
      intro i hi
      rcases List.mem_cons.1 hi with rfl | hi
      · exact ⟨hkeep, readDeclaration_writable he.1 he.2 hd⟩
      · exact hp.2 i hi
    · obtain rfl : p = p' := by simpa [pure, Except.pure] using h
      exact hp
  | other =>
    obtain rfl : p = p' := by simpa [Partial.add] using h
    exact hp

/-- So is what events add, one after the other. -/
theorem named_foldlM {events : List (Nat × Event)} {p p' : Partial} (hp : p.Named keep good)
    (he : ∀ e ∈ events, e.2.Named good)
    (h : events.foldlM (fun p (_, e) => Partial.add keep p e) p = .ok p') : p'.Named keep good := by
  induction events generalizing p with
  | nil =>
    cases h
    exact hp
  | cons e events ih =>
    rw [List.foldlM_cons] at h
    obtain ⟨next, hadd, h⟩ := bind_eq_ok_iff.1 h
    exact ih (named_add hp (he e List.mem_cons_self) hadd)
      (fun e he' => he e (List.mem_cons_of_mem _ he')) h

/-- The events of a text are as its names and declared values are. -/
theorem named_events {text : String} (hnames : ∀ n ∈ names text, good n)
    (hvalues : ∀ v ∈ declaredValues text, '"' ∉ v) :
    ∀ e ∈ (Event.reading text.toList).events, e.2.Named good := by
  intro e he
  have hn : ∀ n, n ∈ (match e.2 with
      | .start tag | .empty tag => tag.names
      | _ => []) → good n := fun n hn => hnames n (List.mem_flatMap.2 ⟨e, he, hn⟩)
  have hv : ∀ v, v ∈ (match e.2 with
      | .declaration content => valuesOf content
      | _ => []) → '"' ∉ v := fun v hv => hvalues v (List.mem_flatMap.2 ⟨e, he, hv⟩)
  obtain ⟨offset, e⟩ := e
  cases e with
  | declaration content => exact ⟨not_mem_of_declaration _ he content rfl, hv⟩
  | start tag => exact hn
  | empty tag => exact hn
  | _ => exact trivial

/-- The names in a document are names in its text, and its declarations can be written back if no
declared value holds a quote. -/
theorem read_named {text : String} {d : Document} (hnames : ∀ n ∈ names text, good n)
    (hvalues : ∀ v ∈ declaredValues text, '"' ∉ v) (h : Document.read keep text = .ok d) :
    ∀ i ∈ d, i.Named keep good := by
  obtain ⟨p, hfold, h⟩ := bind_eq_ok_iff.1 h
  have hp := named_foldlM (p := ⟨[], []⟩) ⟨by simp, by simp⟩ (named_events hnames hvalues) hfold
  split at h
  · contradiction
  · contradiction
  · obtain rfl := Except.ok.inj h
    exact fun i hi => hp.2 i (List.mem_reverse.1 hi)

end LsxKit.Xml
