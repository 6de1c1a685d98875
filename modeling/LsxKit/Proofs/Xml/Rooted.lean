import LsxKit.Proofs.Xml.Fragment
import LsxKit.Proofs.Xml.Readable

/-!
# Documents with one root element

The check of a document keeps the open elements and whether a root has begun. What it accepts is
said here without them, of the fragments at the top of the document.

* `Sound`: a text that is read to its end, with correct attributes and references.
* `OneRoot`, `BlankText`, `BlankData`: one root element, and no text or character data but blanks
  at the top.
* `run_inside`, `run_outside_iff`: what the check does inside and outside elements.
* `checkWellFormed_ok_iff`: what the check accepts; `checkWellFormed_rooted_iff`: what it accepts of
  sound texts. Character data outside the root is accepted.
-/

namespace LsxKit.Xml

open Fragment

/-! ## What the check looks for -/

/-- Whether the attributes in a tag are written correctly, or the references of a text resolve. -/
def Event.Sound : Event → Prop
  | .start tag | .empty tag => tag.attributes.2 = none
  | .text raw => Resolves raw
  | _ => True

/-- Whether a text is read to its end, with all attributes written correctly and all references
of its texts resolved. -/
structure Sound (text : String) : Prop where
  markup : (Event.reading text.toList).fault = none
  events : ∀ e ∈ (Event.reading text.toList).events, e.2.Sound

/-- Whether exactly one of the fragments is an element. -/
def OneRoot (fs : List Fragment) : Prop := (fs.filter isElement).length = 1

/-- Whether the texts among fragments are blank, references resolved. -/
def BlankText (fs : List Fragment) : Prop :=
  ∀ raw cs, .text raw ∈ fs → unescape raw = .ok cs → cs.all Text.isBlank = true

/-- Whether the character data among fragments is blank. -/
def BlankData (fs : List Fragment) : Prop :=
  ∀ raw, .characterData raw ∈ fs → raw.all Text.isBlank = true

theorem blankText_cons {f : Fragment} {fs : List Fragment} :
    BlankText (f :: fs) ↔ BlankText [f] ∧ BlankText fs := by
  constructor
  · intro h
    exact ⟨fun raw cs hmem => h raw cs (by simp_all), fun raw cs hmem => h raw cs (by simp [hmem])⟩
  · rintro ⟨hf, hfs⟩ raw cs hmem
    rcases List.mem_cons.1 hmem with hmem | hmem
    · exact hf raw cs (by simp [hmem])
    · exact hfs raw cs hmem

theorem blankText_text {raw cs : List Char} (h : unescape raw = .ok cs) :
    BlankText [.text raw] ↔ cs.all Text.isBlank = true := by
  constructor
  · exact fun hblank => hblank raw cs List.mem_cons_self h
  · intro hblank raw' cs' hmem h'
    obtain rfl : raw' = raw := by simpa using hmem
    obtain rfl : cs' = cs := Except.ok.inj (h'.symm.trans h)
    exact hblank

theorem blankText_of_ne {f : Fragment} (h : ∀ raw, f ≠ .text raw) : BlankText [f] := by
  intro raw cs hmem
  exact absurd (List.mem_singleton.1 hmem).symm (h raw)

namespace WellFormed

variable {text : List Char} {s s' : State} {offset : Nat} {e : Event} {es es' : List (Nat × Event)}

/-! ## Events that are accepted -/

theorem run_append : run text s (es ++ es') = run text s es >>= fun s => run text s es' := by
  induction es generalizing s with
  | nil => rfl
  | cons e es ih =>
    rw [List.cons_append, run, run]
    cases step text s e.1 e.2 with
    | error fault => rfl
    | ok next => exact ih

/-- An event that is accepted is sound. -/
theorem sound_of_step (h : step text s offset e = .ok s') : e.Sound := by
  cases e with
  | start tag => exact (step_start h).1
  | empty tag => exact (step_empty h).1
  | text raw => exact (step_text h).1
  | _ => exact trivial

theorem sound_of_run (h : run text s es = .ok s') : ∀ e ∈ es, e.2.Sound := by
  induction es generalizing s with
  | nil => simp
  | cons e es ih =>
    obtain ⟨next, hstep, hrun⟩ := bind_eq_ok_iff.1 h
    exact List.forall_mem_cons.2 ⟨sound_of_step hstep, ih hrun⟩

/-- The check has as many open elements as tags were left open. -/
theorem length_opened_step {opened : List (List Char)} (hlength : s.opened.length = opened.length)
    (h : step text s offset e = .ok s') :
    s'.opened.length = (Event.nextOpened opened e).length := by
  cases e with
  | start tag =>
    rw [(step_start h).2]
    exact congrArg (· + 1) hlength
  | empty tag =>
    rw [(step_empty h).2]
    exact hlength
  | close name =>
    obtain rfl := Except.ok.inj h
    rw [Event.nextOpened, List.length_drop, List.length_drop, hlength]
  | text raw =>
    rw [(step_text h).2]
    exact hlength
  | _ =>
    obtain rfl := Except.ok.inj h
    exact hlength

theorem length_opened_run {opened : List (List Char)} (hlength : s.opened.length = opened.length)
    (h : run text s es = .ok s') :
    s'.opened.length = (openedAfter opened (es.map Prod.snd)).length := by
  induction es generalizing s opened with
  | nil =>
    obtain rfl := Except.ok.inj h
    exact hlength
  | cons e es ih =>
    obtain ⟨next, hstep, hrun⟩ := bind_eq_ok_iff.1 h
    exact ih (length_opened_step hlength hstep) hrun

/-! ## Inside and outside elements -/

theorem eq_singleton_of_map {e : Event} (h : es.map Prod.snd = [e]) :
    ∃ offset, es = [(offset, e)] := by
  obtain ⟨⟨offset, _⟩, _, rfl, rfl, hnil⟩ := List.map_eq_cons_iff.1 h
  obtain rfl := List.map_eq_nil_iff.1 hnil
  exact ⟨offset, rfl⟩

/-- Between the tags of an element stand the events inside it. -/
theorem eq_element_of_map {tag : Tag} {fs : List Fragment}
    (h : es.map Prod.snd = (Fragment.element tag fs).events) :
    ∃ offset inner offset', es = (offset, .start tag) :: (inner ++ [(offset', .close tag.name)]) ∧
      inner.map Prod.snd = eventsAll fs := by
  obtain ⟨⟨offset, _⟩, rest, rfl, rfl, hrest⟩ := List.map_eq_cons_iff.1 h
  obtain ⟨inner, last, rfl, hinner, hlast⟩ := List.map_eq_append_iff.1 hrest
  obtain ⟨offset', rfl⟩ := eq_singleton_of_map hlast
  exact ⟨offset, inner, offset', rfl, hinner⟩

theorem checkAttributes_of_sound {t : Tag} (h : t.attributes.2 = none) :
    checkAttributes t = .ok () := by
  rw [checkAttributes, h]

theorem step_start_of_sound {t : Tag} (h : t.attributes.2 = none)
    (hroot : (s.opened.isEmpty && s.rootSeen) = false) :
    step text s offset (.start t) = .ok ⟨(String.ofList t.name, offset) :: s.opened, true⟩ := by
  simp only [step, hroot, checkAttributes_of_sound h]
  rfl

theorem step_empty_of_sound {t : Tag} (h : t.attributes.2 = none)
    (hroot : (s.opened.isEmpty && s.rootSeen) = false) :
    step text s offset (.empty t) = .ok ⟨s.opened, true⟩ := by
  simp only [step, hroot, checkAttributes_of_sound h]
  rfl

theorem step_text_iff {raw cs : List Char} (h : unescape raw = .ok cs) :
    step text s offset (.text raw) = .ok s' ↔
      (s.opened.isEmpty && !cs.all Text.isBlank) = false ∧ s' = s := by
  have hresolve : resolveText raw = .ok cs := mapError_eq_ok_iff.2 h
  simp only [step, hresolve, Except.mapError, bind, Except.bind]
  cases s.opened.isEmpty && !cs.all Text.isBlank with
  | true => simp
  | false => simp [pure, Except.pure, eq_comm]

mutual

/-- Inside an element every sound fragment is accepted, and leaves nothing open. -/
theorem run_inside {text : List Char} {s : State} {es : List (Nat × Event)} (f : Fragment)
    (hes : es.map Prod.snd = f.events)
    (hsound : ∀ e ∈ es, e.2.Sound) (hopened : s.opened ≠ []) (hseen : s.rootSeen = true) :
    run text s es = .ok s := by
  have hroot : (s.opened.isEmpty && s.rootSeen) = false := by simp [hopened]
  have hsame : State.mk s.opened true = s := by rw [← hseen]
  match f with
  | .element tag inside =>
    obtain ⟨offset, es, offset', rfl, hinside⟩ := eq_element_of_map hes
    obtain ⟨htag, hsound⟩ := List.forall_mem_cons.1 hsound
    have hall : run text ⟨(String.ofList tag.name, offset) :: s.opened, true⟩ es = .ok _ :=
      run_inside_all inside hinside (fun e he => hsound e (List.mem_append_left _ he)) (by simp) rfl
    rw [run, step_start_of_sound htag hroot]
    show run text ⟨(String.ofList tag.name, offset) :: s.opened, true⟩ _ = _
    rw [run_append, hall]
    exact congrArg Except.ok hsame
  | .empty tag =>
    obtain ⟨offset, rfl⟩ := eq_singleton_of_map hes
    rw [run, step_empty_of_sound (hsound _ List.mem_cons_self) hroot]
    exact congrArg Except.ok hsame
  | .text raw =>
    obtain ⟨offset, rfl⟩ := eq_singleton_of_map hes
    obtain ⟨cs, hcs⟩ := hsound _ List.mem_cons_self
    rw [run, (step_text_iff hcs).2 ⟨by simp [hopened], rfl⟩]
    rfl
  | .characterData _ | .declaration _ | .other =>
    obtain ⟨offset, rfl⟩ := eq_singleton_of_map hes
    rfl
  termination_by structural f

/-- So are sound fragments, one after the other. -/
theorem run_inside_all {text : List Char} {s : State} {es : List (Nat × Event)}
    (fs : List Fragment) (hes : es.map Prod.snd = eventsAll fs)
    (hsound : ∀ e ∈ es, e.2.Sound) (hopened : s.opened ≠ []) (hseen : s.rootSeen = true) :
    run text s es = .ok s := by
  match fs with
  | [] =>
    obtain rfl := List.map_eq_nil_iff.1 hes
    rfl
  | f :: fs =>
    obtain ⟨first, rest, rfl, hfirst, hrest⟩ := List.map_eq_append_iff.1 hes
    rw [run_append, run_inside f hfirst (fun e he => hsound e (List.mem_append_left _ he))
      hopened hseen]
    exact run_inside_all fs hrest (fun e he => hsound e (List.mem_append_right _ he)) hopened hseen
  termination_by structural fs

end

/-- Outside all elements a sound fragment is accepted if it is no text but blanks, and no second
element; `seen` is whether there was one before. -/
theorem run_fragment_iff (f : Fragment) (seen : Bool) (hes : es.map Prod.snd = f.events)
    (hsound : ∀ e ∈ es, e.2.Sound) :
    run text ⟨[], seen⟩ es = .ok s' ↔
      BlankText [f] ∧ (seen && f.isElement) = false ∧ s' = ⟨[], seen || f.isElement⟩ := by
  cases f with
  | element tag inside =>
    obtain ⟨offset, es, offset', rfl, hinside⟩ := eq_element_of_map hes
    obtain ⟨htag, hsound⟩ := List.forall_mem_cons.1 hsound
    have hblank : BlankText [.element tag inside] := blankText_of_ne (by simp)
    cases seen with
    | true => simp [run, step, isElement, tag?, bind, Except.bind]
    | false =>
      have hall : run text ⟨[(String.ofList tag.name, offset)], true⟩ es = .ok _ :=
        run_inside_all inside hinside (fun e he => hsound e (List.mem_append_left _ he)) (by simp)
          rfl
      have hrun : run text ⟨[], false⟩
          ((offset, .start tag) :: (es ++ [(offset', .close tag.name)])) = .ok ⟨[], true⟩ := by
        rw [run, step_start_of_sound htag rfl]
        show run text ⟨[(String.ofList tag.name, offset)], true⟩ _ = _
        rw [run_append, hall]
        rfl
      simp [hrun, hblank, isElement, tag?, eq_comm]
  | empty tag =>
    obtain ⟨offset, rfl⟩ := eq_singleton_of_map hes
    have hblank : BlankText [.empty tag] := blankText_of_ne (by simp)
    cases seen with
    | true => simp [run, step, isElement, tag?, bind, Except.bind]
    | false =>
      have hrun : run text ⟨[], false⟩ [(offset, .empty tag)] = .ok ⟨[], true⟩ := by
        rw [run, step_empty_of_sound (hsound _ List.mem_cons_self) rfl]
        rfl
      simp [hrun, hblank, isElement, tag?, eq_comm]
  | text raw =>
    obtain ⟨offset, rfl⟩ := eq_singleton_of_map hes
    obtain ⟨cs, hcs⟩ := hsound _ List.mem_cons_self
    have hrun : run text ⟨[], seen⟩ [(offset, .text raw)] = .ok s' ↔
        step text ⟨[], seen⟩ offset (.text raw) = .ok s' := by
      rw [run]
      cases step text ⟨[], seen⟩ offset (.text raw) <;> simp [run, bind, Except.bind]
    rw [hrun, step_text_iff hcs, blankText_text hcs]
    simp [isElement, tag?]
  | characterData raw =>
    obtain ⟨offset, rfl⟩ := eq_singleton_of_map hes
    have hblank : BlankText [.characterData raw] := blankText_of_ne (by simp)
    simp [run, step, hblank, isElement, tag?, bind, Except.bind, pure, Except.pure, eq_comm]
  | declaration content =>
    obtain ⟨offset, rfl⟩ := eq_singleton_of_map hes
    have hblank : BlankText [.declaration content] := blankText_of_ne (by simp)
    simp [run, step, hblank, isElement, tag?, bind, Except.bind, pure, Except.pure, eq_comm]
  | other =>
    obtain ⟨offset, rfl⟩ := eq_singleton_of_map hes
    have hblank : BlankText [.other] := blankText_of_ne (by simp)
    simp [run, step, hblank, isElement, tag?, bind, Except.bind, pure, Except.pure, eq_comm]

/-- Outside all elements sound fragments are accepted if their texts are blank and there is no
second element among them. -/
theorem run_outside_iff (fs : List Fragment) (seen : Bool) (hes : es.map Prod.snd = eventsAll fs)
    (hsound : ∀ e ∈ es, e.2.Sound) :
    run text ⟨[], seen⟩ es = .ok s' ↔
      BlankText fs ∧ seen.toNat + (fs.filter isElement).length ≤ 1 ∧
        s' = ⟨[], seen || fs.any isElement⟩ := by
  induction fs generalizing seen es with
  | nil =>
    obtain rfl := List.map_eq_nil_iff.1 hes
    have hblank : BlankText [] := fun _ _ hmem => absurd hmem List.not_mem_nil
    have hseen := seen.toNat_le
    simp [run, hblank, hseen, eq_comm]
  | cons f fs ih =>
    obtain ⟨first, rest, rfl, hfirst, hrest⟩ := List.map_eq_append_iff.1 hes
    have hf : ∀ next, run text ⟨[], seen⟩ first = .ok next ↔ _ := fun next =>
      run_fragment_iff f seen hfirst fun e he => hsound e (List.mem_append_left _ he)
    have hfs := ih (seen || f.isElement) hrest fun e he => hsound e (List.mem_append_right _ he)
    -- the first element spends the one root that is left, and the others are counted after it
    have hcount : (seen && f.isElement) = false ∧
        (seen || f.isElement).toNat + (fs.filter isElement).length ≤ 1 ↔
        seen.toNat + ((f :: fs).filter isElement).length ≤ 1 := by
      cases helement : f.isElement with
      | false => simp [helement]
      | true =>
        rw [List.filter_cons_of_pos helement, List.length_cons, Bool.and_true, Bool.or_true,
          Bool.toNat_true]
        cases seen with
        | false =>
          refine (and_iff_right rfl).trans ?_
          rw [Bool.toNat_false]
          omega
        | true => simp
    rw [run_append, bind_eq_ok_iff, blankText_cons, ← hcount, List.any_cons, ← Bool.or_assoc]
    constructor
    · rintro ⟨next, hnext, hrun⟩
      obtain ⟨hblank, hroot, rfl⟩ := (hf next).1 hnext
      obtain ⟨hblanks, hroots, hs'⟩ := hfs.1 hrun
      exact ⟨⟨hblank, hblanks⟩, ⟨hroot, hroots⟩, hs'⟩
    · rintro ⟨⟨hblank, hblanks⟩, ⟨hroot, hroots⟩, hs'⟩
      exact ⟨_, (hf _).2 ⟨hblank, hroot, rfl⟩, hfs.2 ⟨hblanks, hroots, hs'⟩⟩

/-- Fragments after which the check has seen a root have one. -/
theorem oneRoot_of_run {fs : List Fragment} (hes : es.map Prod.snd = eventsAll fs)
    (h : run text .initial es = .ok s) (hseen : s.rootSeen = true) : OneRoot fs := by
  obtain ⟨-, hroots, rfl⟩ := (run_outside_iff fs false hes (sound_of_run h)).1 h
  obtain ⟨f, hf, helement⟩ := List.any_eq_true.1 hseen
  have hpos : 0 < (fs.filter isElement).length :=
    List.length_pos_of_mem (List.mem_filter.2 ⟨hf, helement⟩)
  rw [Bool.toNat_false] at hroots
  rw [OneRoot]
  omega

end WellFormed

/-! ## Documents that are accepted -/

/-- The check accepts the sound texts in which every element is closed, one of them is a root, and
no text but blanks stands outside it. -/
theorem checkWellFormed_ok_iff (text : String) :
    checkWellFormed text = .ok () ↔
      Sound text ∧ ∃ fs, FragmentsOf text fs ∧ OneRoot fs ∧ BlankText fs := by
  constructor
  · intro h
    obtain ⟨hfault, s, hrun, hopened, hseen⟩ := checkWellFormed_ok h
    have hsound := WellFormed.sound_of_run hrun
    -- nothing is open in the check at the end, so every tag was closed and there are fragments
    have hlength : s.opened.length =
        (openedAfter [] ((Event.reading text.toList).events.map Prod.snd)).length :=
      WellFormed.length_opened_run rfl hrun
    rw [hopened, List.length_nil, eq_comm, List.length_eq_zero_iff] at hlength
    obtain ⟨fs, hfs⟩ := exists_fragmentsOf hlength
    obtain ⟨hblank, -, -⟩ := (WellFormed.run_outside_iff fs false hfs.symm hsound).1 hrun
    exact ⟨⟨hfault, hsound⟩, fs, hfs, WellFormed.oneRoot_of_run hfs.symm hrun hseen, hblank⟩
  · rintro ⟨⟨hfault, hsound⟩, fs, hfs, hroot, hblank⟩
    have hany : fs.any isElement = true := by
      obtain ⟨f, hf⟩ := List.exists_mem_of_length_pos (hroot.symm ▸ Nat.one_pos)
      exact List.any_eq_true.2 ⟨f, List.mem_filter.1 hf⟩
    have hcount : false.toNat + (fs.filter isElement).length ≤ 1 := by
      rw [Bool.toNat_false, Nat.zero_add]
      exact hroot.le
    have hrun : WellFormed.run text.toList .initial (Event.reading text.toList).events =
        .ok ⟨[], true⟩ :=
      (WellFormed.run_outside_iff fs false hfs.symm hsound).2 ⟨hblank, hcount, by rw [hany]; rfl⟩
    refine mapError_eq_ok_iff.2 (bind_eq_ok_iff.2 ⟨_, hrun, ?_⟩)
    rw [hfault]
    rfl

/-- The check tells exactly whether a sound text has all its elements closed, one root element and
nothing but blank text outside it. Nothing but blank character data stands there too only if this
follows from the rest. -/
theorem checkWellFormed_rooted_iff {text : String} (h : Sound text) :
    (checkWellFormed text = .ok () ↔ ∃ fs, FragmentsOf text fs ∧ OneRoot fs ∧ BlankText fs) ∧
      ((checkWellFormed text = .ok () ↔
          ∃ fs, FragmentsOf text fs ∧ OneRoot fs ∧ BlankText fs ∧ BlankData fs) ↔
        ∀ fs, FragmentsOf text fs → OneRoot fs → BlankText fs → BlankData fs) := by
  have haccepted : checkWellFormed text = .ok () ↔
      ∃ fs, FragmentsOf text fs ∧ OneRoot fs ∧ BlankText fs :=
    (checkWellFormed_ok_iff text).trans (and_iff_right h)
  refine ⟨haccepted, ?_⟩
  rw [haccepted]
  constructor
  · intro hall fs hfs hroot hblank
    obtain ⟨fs', hfs', -, -, hdata⟩ := hall.1 ⟨fs, hfs, hroot, hblank⟩
    rwa [hfs.unique hfs']
  · intro hall
    constructor
    · rintro ⟨fs, hfs, hroot, hblank⟩
      exact ⟨fs, hfs, hroot, hblank, hall fs hfs hroot hblank⟩
    · rintro ⟨fs, hfs, hroot, hblank, -⟩
      exact ⟨fs, hfs, hroot, hblank⟩

theorem checkWellFormed_rooted_nested :
    Sound "<!-- c -->\n<a x='1'>y &amp; <b/><![CDATA[z]]></a>\n" ∧
      ∃ fs, FragmentsOf "<!-- c -->\n<a x='1'>y &amp; <b/><![CDATA[z]]></a>\n" fs ∧
        OneRoot fs ∧ BlankText fs := by
  have haccepted : checkWellFormed "<!-- c -->\n<a x='1'>y &amp; <b/><![CDATA[z]]></a>\n" =
      .ok () := by decide +kernel
  obtain ⟨hsound, -⟩ := (checkWellFormed_ok_iff _).1 haccepted
  exact ⟨hsound, (checkWellFormed_rooted_iff hsound).1.1 haccepted⟩

/-- Character data after the root element is accepted. -/
theorem checkWellFormed_rooted_data :
    ¬ ∀ text, Sound text → (checkWellFormed text = .ok () ↔
      ∃ fs, FragmentsOf text fs ∧ OneRoot fs ∧ BlankText fs ∧ BlankData fs) := by
  intro hall
  have haccepted : checkWellFormed "<a/><![CDATA[x]]>" = .ok () := by decide +kernel
  obtain ⟨hsound, -⟩ := (checkWellFormed_ok_iff _).1 haccepted
  have hfs : FragmentsOf "<a/><![CDATA[x]]>" [.empty ⟨['a'], []⟩, .characterData ['x']] := by
    decide +kernel
  obtain ⟨fs, hfs', -, -, hdata⟩ := (hall _ hsound).1 haccepted
  obtain rfl := hfs.unique hfs'
  have hblank := hdata ['x'] (by simp)
  contradiction

end LsxKit.Xml
