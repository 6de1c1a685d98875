import LsxKit.Xml.Event

/-!
# Elements with what stands inside them

A text in which every element is closed is a list of fragments: elements with the fragments inside
them, and the text, the character data and the other markup between tags.

* `Fragment`, `FragmentsOf`: fragments, and those of a text.
* `Fragment.eventsAll_inj`: a text has at most one list of fragments.
* `exists_fragmentsOf`: it has one if no element is open at its end.
* `Fragment.elements`: all elements in fragments, each with its dotted path.
-/

namespace LsxKit.Xml

/-- An element with what stands inside it, or what stands between tags. -/
inductive Fragment where
  | element (tag : Tag) (inside : List Fragment)
  /-- An element that is written as one tag. -/
  | empty (tag : Tag)
  | text (raw : List Char)
  | characterData (raw : List Char)
  | declaration (content : List Char)
  /-- A comment, a document type or an instruction. -/
  | other

namespace Fragment

/-! ## The parts of a fragment -/

/-- The tag with which an element begins. -/
def tag? : Fragment → Option Tag
  | .element tag _ | .empty tag => some tag
  | _ => none

/-- The name of an element. -/
def name? (f : Fragment) : Option String := f.tag?.map fun tag => String.ofList tag.name

/-- Whether the fragment is an element. -/
def isElement (f : Fragment) : Bool := f.tag?.isSome

/-- What stands directly inside an element. -/
def inside : Fragment → List Fragment
  | .element _ inside => inside
  | _ => []

/-- The elements directly inside an element. -/
def children (f : Fragment) : List Fragment := f.inside.filter isElement

/-- The elements with a name among fragments. -/
def named (name : String) (fs : List Fragment) : List Fragment :=
  fs.filter (·.name? = some name)

/-- The dotted path of an element below another one, or of a root element. -/
def pathBelow (parent : Option String) (name : String) : String :=
  match parent with
  | some path => path ++ "." ++ name
  | none => name

mutual

/-- A fragment, if it is an element, and all elements inside it, each with its dotted path. -/
def elements (parent : Option String) : Fragment → List (String × Fragment)
  | f@(.element tag inside) =>
    let path := pathBelow parent (String.ofList tag.name)
    (path, f) :: elementsAll (some path) inside
  | f@(.empty tag) => [(pathBelow parent (String.ofList tag.name), f)]
  | .text _ | .characterData _ | .declaration _ | .other => []
  termination_by structural f => f

/-- All elements in fragments, each with its dotted path. -/
def elementsAll (parent : Option String) : List Fragment → List (String × Fragment)
  | [] => []
  | f :: fs => elements parent f ++ elementsAll parent fs
  termination_by structural fs => fs

end

/-! ## Events of fragments -/

mutual

/-- The events of a fragment: those inside an element stand between those of its tags. -/
def events : Fragment → List Event
  | .element tag inside => .start tag :: (eventsAll inside ++ [.close tag.name])
  | .empty tag => [.empty tag]
  | .text raw => [.text raw]
  | .characterData raw => [.characterData raw]
  | .declaration content => [.declaration content]
  | .other => [.other]
  termination_by structural f => f

/-- The events of fragments, one after the other. -/
def eventsAll : List Fragment → List Event
  | [] => []
  | f :: fs => f.events ++ eventsAll fs
  termination_by structural fs => fs

end

/-- Whether events are at their end or go on with an end tag. -/
def Ends (es : List Event) : Prop := ∀ e ∈ es.head?, ∃ name, e = .close name

theorem ends_close (name : List Char) (es : List Event) : Ends (.close name :: es) := by
  intro e he
  obtain rfl := Option.some.inj he
  exact ⟨name, rfl⟩

/-- No fragment begins with an end tag. -/
theorem not_ends_events (f : Fragment) (es : List Event) : ¬ Ends (f.events ++ es) := by
  intro h
  cases f <;> simp [Ends, events] at h

mutual

/-- The first fragment of events and the events after it are known from the events. -/
theorem events_append_inj (f f' : Fragment) {es es' : List Event}
    (h : f.events ++ es = f'.events ++ es') : f = f' ∧ es = es' := by
  match f with
  | .element tag inside =>
    cases f' with
    | element tag' inside' =>
      simp only [events, List.cons_append, List.append_assoc, List.cons.injEq,
        Event.start.injEq] at h
      obtain ⟨rfl, hinside⟩ := h
      obtain ⟨rfl, hrest⟩ :=
        eventsAll_append_inj inside inside' (ends_close _ _) (ends_close _ _) hinside
      exact ⟨rfl, (List.cons.inj hrest).2⟩
    | _ => simp [events] at h
  | .empty _ | .text _ | .characterData _ | .declaration _ | .other =>
    cases f' <;> simp_all [events]
  termination_by structural f

/-- So are fragments up to an end tag. -/
theorem eventsAll_append_inj (fs fs' : List Fragment) {es es' : List Event} (hes : Ends es)
    (hes' : Ends es') (h : eventsAll fs ++ es = eventsAll fs' ++ es') : fs = fs' ∧ es = es' := by
  match fs with
  | [] =>
    cases fs' with
    | nil => exact ⟨rfl, h⟩
    | cons f' fs' =>
      rw [eventsAll, eventsAll, List.nil_append, List.append_assoc] at h
      exact absurd (h ▸ hes) (not_ends_events f' _)
  | f :: fs =>
    cases fs' with
    | nil =>
      rw [eventsAll, eventsAll, List.nil_append, List.append_assoc] at h
      exact absurd (h ▸ hes') (not_ends_events f _)
    | cons f' fs' =>
      rw [eventsAll, eventsAll, List.append_assoc, List.append_assoc] at h
      obtain ⟨rfl, hrest⟩ := events_append_inj f f' h
      obtain ⟨rfl, hend⟩ := eventsAll_append_inj fs fs' hes hes' hrest
      exact ⟨rfl, hend⟩
  termination_by structural fs

end

/-- Events are those of at most one list of fragments. -/
theorem eventsAll_inj {fs fs' : List Fragment} (h : eventsAll fs = eventsAll fs') : fs = fs' := by
  have hnil : Ends [] := by simp [Ends]
  refine (eventsAll_append_inj fs fs' hnil hnil ?_).1
  rw [h]

end Fragment

/-! ## Fragments of a text -/

open Fragment

/-- Whether the events of a text are those of fragments. So every start tag in it is closed. -/
def FragmentsOf (text : String) (fs : List Fragment) : Prop :=
  eventsAll fs = (Event.reading text.toList).events.map Prod.snd

instance (text : String) (fs : List Fragment) : Decidable (FragmentsOf text fs) :=
  inferInstanceAs (Decidable (_ = _))

/-- A text has at most one list of fragments. -/
theorem FragmentsOf.unique {text : String} {fs fs' : List Fragment} (h : FragmentsOf text fs)
    (h' : FragmentsOf text fs') : fs = fs' :=
  eventsAll_inj (h.trans h'.symm)

/-- The open elements after events, innermost first. -/
def openedAfter (opened : List (List Char)) (es : List Event) : List (List Char) :=
  es.foldl Event.nextOpened opened

/-- Whether every end tag among events closes the innermost of the open elements. -/
def Matched (opened : List (List Char)) : List Event → Prop
  | [] => True
  | e :: es => (∀ name, e = .close name → opened.head? = some name) ∧
      Matched (Event.nextOpened opened e) es

theorem head?_of_ofToken? {opened : List (List Char)} {t : Token} {name : List Char}
    (h : Event.ofToken? opened t = .ok (.close name)) : opened.head? = some name := by
  cases t with
  | close content =>
    simp only [Event.ofToken?] at h
    split at h
    · contradiction
    · split at h
      · simpa using h
      · contradiction
  | tag content =>
    simp only [Event.ofToken?, Event.ofTag, Except.ok.injEq] at h
    split at h <;> contradiction
  | instruction content =>
    simp only [Event.ofToken?, Event.ofInstruction, Except.ok.injEq] at h
    split at h
    · split at h <;> contradiction
    · contradiction
  | _ => simp [Event.ofToken?] at h

/-- Reading stops at an end tag that does not close the innermost element. -/
theorem matched_readingFrom (opened : List (List Char)) (offset : Nat) (cs : List Char) :
    Matched opened ((Event.readingFrom opened offset cs).events.map Prod.snd) := by
  fun_induction Event.readingFrom opened offset cs with
  | case4 opened offset cs t source rest hstep e hevent r ih =>
    refine ⟨?_, ih⟩
    rintro name rfl
    exact head?_of_ofToken? hevent
  | _ => exact trivial

/-- Whether events close the given open elements, innermost first, with fragments before each of
their end tags and after the last one. -/
def Closes : List (List Char) → List Event → Prop
  | [], es => ∃ fs, eventsAll fs = es
  | name :: opened, es =>
    ∃ fs rest, es = eventsAll fs ++ .close name :: rest ∧ Closes opened rest

theorem Closes.fragment {opened : List (List Char)} {es : List Event} (f : Fragment)
    (h : Closes opened es) : Closes opened (f.events ++ es) := by
  cases opened with
  | nil =>
    obtain ⟨fs, rfl⟩ := h
    exact ⟨f :: fs, rfl⟩
  | cons name opened =>
    obtain ⟨fs, rest, rfl, hrest⟩ := h
    exact ⟨f :: fs, rest, by rw [eventsAll, List.append_assoc], hrest⟩

/-- Events after which no element is open close those that were open before. -/
theorem closes_of_matched {opened : List (List Char)} {es : List Event} (h : Matched opened es)
    (hend : openedAfter opened es = []) : Closes opened es := by
  induction es generalizing opened with
  | nil =>
    obtain rfl : opened = [] := hend
    exact ⟨[], rfl⟩
  | cons e es ih =>
    obtain ⟨hclose, hmatched⟩ := h
    have hrest : Closes (Event.nextOpened opened e) es := ih hmatched hend
    cases e with
    | start tag =>
      obtain ⟨fs, rest, rfl, hrest⟩ := hrest
      have helement := hrest.fragment (.element tag fs)
      rwa [events, List.cons_append, List.append_assoc] at helement
    | close name =>
      obtain ⟨opened, rfl⟩ := List.head?_eq_some_iff.1 (hclose name rfl)
      exact ⟨[], es, rfl, hrest⟩
    | empty tag => exact hrest.fragment (.empty tag)
    | text raw => exact hrest.fragment (.text raw)
    | characterData raw => exact hrest.fragment (.characterData raw)
    | declaration content => exact hrest.fragment (.declaration content)
    | other => exact hrest.fragment .other

/-- A text at whose end no element is open has fragments. -/
theorem exists_fragmentsOf {text : String}
    (hend : openedAfter [] ((Event.reading text.toList).events.map Prod.snd) = []) :
    ∃ fs, FragmentsOf text fs :=
  closes_of_matched (matched_readingFrom [] 0 _) hend

end LsxKit.Xml
