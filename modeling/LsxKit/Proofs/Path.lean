import LsxKit.Path
import Mathlib.Data.List.Basic

/-!
# Components of paths

A path is told by the parts between its slashes. Its components are those parts that are not empty
and no dot, after a root if the path begins with a slash.

* `located_eq`: the components of a path from its parts.
* `hasComponent_iff`: the names among the components are parts of the path.
* `locate_split`: components up to one of them are those of the path that is cut after it.
* `parent_of_fileName`: the parent has all components but the last.
* `EndsInSlash`, `suffix_of_fileName`, `suffix_of_extension`: what a path ends with.
-/

namespace LsxKit.Path

variable {p q name : String} {w part : List Char} {ps qs : List (List Char)} {first : Bool}
  {start n : Nat} {c : Component} {before after : List (Component × Nat)}

/-! ## Parts -/

/-- The parts of a path between its slashes. -/
def parts (p : String) : List (List Char) := p.toList.splitOn '/'

theorem intercalate_parts (p : String) : ['/'].intercalate (parts p) = p.toList :=
  List.intercalate_splitOn '/'

theorem slash_not_mem_part {s : List Char} (h : part ∈ s.splitOn '/') : '/' ∉ part := by
  induction s generalizing part with
  | nil => simp_all
  | cons c s ih =>
    rw [List.splitOn_cons_eq_if_modifyHead] at h
    obtain ⟨head, rest, hsplit⟩ := List.exists_cons_of_ne_nil (List.splitOn_ne_nil '/' s)
    rw [hsplit] at h ih
    split_ifs at h with hc
    · rcases List.mem_cons.1 h with rfl | h
      · exact List.not_mem_nil
      · exact ih h
    · rcases List.mem_cons.1 h with rfl | h
      · have hhead : '/' ∉ head := ih List.mem_cons_self
        rw [List.mem_cons, not_or]
        exact ⟨fun he => hc (beq_iff_eq.2 he.symm), hhead⟩
      · exact ih (List.mem_cons_of_mem _ h)

theorem parts_ofList_intercalate (h : ∀ part ∈ ps, '/' ∉ part) (hne : ps ≠ []) :
    parts (String.ofList (['/'].intercalate ps)) = ps := by
  rw [parts, String.toList_ofList, List.splitOn_intercalate '/' h hne]

/-- A part between slashes that is a name. -/
def IsName (w : List Char) : Prop := w ≠ [] ∧ w ≠ ['.'] ∧ w ≠ ['.', '.']

theorem component?_eq_normal_iff :
    component? first part = some (.normal w) ↔ part = w ∧ IsName w := by
  unfold component? IsName
  grind

/-- A part that is no component is empty or a dot behind a slash. -/
theorem component?_eq_none (h : component? first part = none) :
    part = [] ∨ first = false ∧ part = ['.'] := by
  unfold component? at h
  grind

/-! ## Components -/

/-- The root at the beginning of a path. -/
def leading (p : List Char) : List (Component × Nat) :=
  if p.head? = some '/' then [(.root, 1)] else []

theorem located_eq (p : List Char) : located p = leading p ++ locate true 0 (p.splitOn '/') := by
  unfold located leading
  split
  · next rest =>
    have hsplit : ('/' :: rest).splitOn '/' = [] :: rest.splitOn '/' :=
      List.splitOn_append_cons_self_of_not_mem List.not_mem_nil rest
    rw [hsplit]
    rfl
  · next hroot =>
    have hhead : p.head? ≠ some '/' := by
      intro h
      obtain ⟨rest, rfl⟩ := List.head?_eq_some_iff.1 h
      exact hroot rest rfl
    rw [if_neg hhead, List.nil_append]

theorem components_eq (p : String) :
    components p = (leading p.toList).map Prod.fst ++ (locate true 0 (parts p)).map Prod.fst := by
  rw [components, located_eq, List.map_append]
  rfl

theorem locate_cons : locate first start (part :: ps) =
    ((component? first part).map fun c => (c, start + part.length)).toList ++
      locate false (start + part.length + 1) ps := by
  rw [locate]
  cases component? first part <;> rfl

theorem mem_map_locate_iff :
    Component.normal w ∈ (locate first start ps).map Prod.fst ↔ w ∈ ps ∧ IsName w := by
  induction ps generalizing first start with
  | nil => simp [locate]
  | cons part ps ih =>
    have hfirst : (((component? first part).map fun c => (c, start + part.length)).toList).map
        Prod.fst = (component? first part).toList := by
      cases component? first part <;> rfl
    rw [locate_cons, List.map_append, List.mem_append, ih, List.mem_cons, or_and_right, hfirst,
      Option.mem_toList, component?_eq_normal_iff, @eq_comm _ part]

/-- The names among the components of a path are parts of it. -/
theorem hasComponent_iff (hname : IsName name.toList) :
    hasComponent p name = true ↔ name.toList ∈ parts p := by
  have hleading : Component.normal name.toList ∉ (leading p.toList).map Prod.fst := by
    unfold leading
    split <;> simp
  rw [hasComponent, List.contains_iff_mem, components_eq, List.mem_append, mem_map_locate_iff,
    or_iff_right hleading, and_iff_left hname]

/-! ## Cutting a path -/

theorem intercalate_cons (part : List Char) (hne : ps ≠ []) :
    ['/'].intercalate (part :: ps) = part ++ '/' :: ['/'].intercalate ps := by
  obtain ⟨next, ps, rfl⟩ := List.exists_cons_of_ne_nil hne
  rw [List.intercalate_cons_cons, List.append_assoc]
  rfl

theorem intercalate_append (hps : ps ≠ []) (hqs : qs ≠ []) :
    ['/'].intercalate (ps ++ qs) = ['/'].intercalate ps ++ '/' :: ['/'].intercalate qs := by
  induction ps with
  | nil => contradiction
  | cons part ps ih =>
    by_cases hnil : ps = []
    · subst hnil
      rw [List.singleton_append, intercalate_cons part hqs]
      simp
    · rw [List.cons_append, intercalate_cons part (by simp [hnil]), ih hnil,
        intercalate_cons part hnil, List.append_assoc, List.cons_append]

/-- The components up to one of them are those of the parts up to its part, after which it ends. -/
theorem locate_split (h : locate first start ps = before ++ (c, n) :: after) :
    ∃ ps₁ ps₂, ps = ps₁ ++ ps₂ ∧ ps₁ ≠ [] ∧
      locate first start ps₁ = before ++ [(c, n)] ∧
      n = start + (['/'].intercalate ps₁).length := by
  induction ps generalizing first start before with
  | nil => simp [locate] at h
  | cons part ps ih =>
    rw [locate_cons] at h
    cases hpart : component? first part with
    | none =>
      rw [hpart] at h
      obtain ⟨ps₁, ps₂, rfl, hne, hlocate, hn⟩ := ih h
      refine ⟨part :: ps₁, ps₂, rfl, List.cons_ne_nil _ _, ?_, ?_⟩
      · rw [locate_cons, hpart]
        exact hlocate
      · rw [intercalate_cons part hne, List.length_append, List.length_cons]
        omega
    | some d =>
      rw [hpart] at h
      cases before with
      | nil =>
        obtain ⟨hd, -⟩ := List.cons.inj h
        obtain ⟨rfl, rfl⟩ := Prod.mk.inj hd
        refine ⟨[part], ps, rfl, List.cons_ne_nil _ _, ?_, by simp⟩
        rw [locate_cons, hpart]
        rfl
      | cons e before =>
        obtain ⟨he, hrest⟩ := List.cons.inj h
        obtain ⟨ps₁, ps₂, rfl, hne, hlocate, hn⟩ := ih hrest
        refine ⟨part :: ps₁, ps₂, rfl, List.cons_ne_nil _ _, ?_, ?_⟩
        · rw [locate_cons, hpart, hlocate, ← he]
          rfl
        · rw [intercalate_cons part hne, List.length_append, List.length_cons]
          omega

/-- A path that is cut between two parts has the parts before. -/
theorem parts_take {ps₁ ps₂ : List (List Char)} (hparts : parts p = ps₁ ++ ps₂) (hne : ps₁ ≠ []) :
    ∃ rest, p.toList = ['/'].intercalate ps₁ ++ rest ∧
      parts (String.ofList (['/'].intercalate ps₁)) = ps₁ := by
  have hslash : ∀ part ∈ ps₁, '/' ∉ part := by
    intro part hpart
    exact slash_not_mem_part (hparts ▸ List.mem_append_left _ hpart : part ∈ parts p)
  refine ⟨if ps₂ = [] then [] else '/' :: ['/'].intercalate ps₂, ?_,
    parts_ofList_intercalate hslash hne⟩
  rw [← intercalate_parts p, hparts]
  split_ifs with hnil
  · rw [hnil, List.append_nil, List.append_nil]
  · exact intercalate_append hne hnil

/-- The file name is the last component. -/
theorem exists_of_fileName (h : fileName? p = some name) :
    ∃ before n, locate true 0 (parts p) = before ++ [(.normal name.toList, n)] := by
  unfold fileName? at h
  split at h
  · next w n hlast =>
    obtain rfl := Option.some.inj h
    rw [located_eq] at hlast
    rcases List.eq_nil_or_concat (locate true 0 (parts p)) with hnil | ⟨before, e, heq⟩
    · rw [parts] at hnil
      rw [hnil, List.append_nil, leading] at hlast
      split at hlast <;> simp at hlast
    · rw [List.concat_eq_append] at heq
      have hlast' := hlast
      rw [parts] at heq
      rw [heq, ← List.append_assoc, List.getLast?_concat, Option.some.injEq] at hlast'
      exact ⟨before, n, by rw [parts, heq, hlast', String.toList_ofList]⟩
  · contradiction

/-- A path with a file name has a parent, which has all components but the last. -/
theorem parent_of_fileName (h : fileName? p = some name) :
    ∃ q, parent? p = some q ∧ components p = components q ++ [.normal name.toList] := by
  obtain ⟨before, n, hlocate⟩ := exists_of_fileName h
  have hlocated : located p.toList =
      leading p.toList ++ before ++ [(.normal name.toList, n)] := by
    rw [located_eq, List.append_assoc]
    exact congrArg _ hlocate
  have hparent : parent? p = some (((leading p.toList ++ before).getLast?.map fun e =>
      String.ofList (p.toList.take e.2)).getD "") := by
    simp only [parent?, hlocated, List.getLast?_concat, List.dropLast_concat]
    cases (leading p.toList ++ before).getLast? <;> rfl
  have hcomponents : components p =
      (leading p.toList ++ before).map Prod.fst ++ [.normal name.toList] := by
    rw [components, hlocated, List.map_append]
    rfl
  rw [hparent, hcomponents]
  refine ⟨_, rfl, ?_⟩
  rcases List.eq_nil_or_concat before with rfl | ⟨before, ⟨c, m⟩, rfl⟩
  · -- the only component besides a root
    rw [List.append_nil, leading]
    split
    · next hroot =>
      obtain ⟨rest, hrest⟩ := List.head?_eq_some_iff.1 hroot
      have hslash : components (String.ofList ['/']) = [.root] := by decide
      rw [hrest]
      exact congrArg (· ++ [Component.normal name.toList]) hslash.symm
    · rfl
  · rw [List.concat_eq_append, List.append_assoc] at hlocate
    obtain ⟨ps₁, ps₂, hparts, hne, hfirst, rfl⟩ := locate_split hlocate
    obtain ⟨rest, hrest, hq⟩ := parts_take hparts hne
    have htake : p.toList.take (0 + (['/'].intercalate ps₁).length) = ['/'].intercalate ps₁ := by
      rw [Nat.zero_add, hrest, List.take_left]
    have hfull : ['/'].intercalate ps₁ ≠ [] := by
      intro hnil
      rw [hnil] at hq
      rw [← hq] at hfirst
      simp [parts, locate, component?] at hfirst
    have hleading : leading p.toList = leading (['/'].intercalate ps₁) := by
      rw [leading, leading, hrest, List.head?_append_of_ne_nil _ hfull]
    rw [List.concat_eq_append, ← List.append_assoc, List.getLast?_concat, Option.map_some,
      Option.getD_some, htake, components_eq, hq, hfirst, String.toList_ofList, hleading,
      List.append_assoc, List.map_append]

/-! ## The end of a path -/

/-- Whether a path ends in a slash, or in a slash and a dot. -/
def EndsInSlash (p : String) : Prop := ['/'] <:+ p.toList ∨ ['/', '.'] <:+ p.toList

instance (p : String) : Decidable (EndsInSlash p) := inferInstanceAs (Decidable (_ ∨ _))

theorem locate_concat (first : Bool) (start : Nat) (init : List (List Char)) (last : List Char) :
    ∃ start', locate first start (init ++ [last]) =
      locate first start init ++ locate (first && init.isEmpty) start' [last] := by
  induction init generalizing first start with
  | nil => exact ⟨start, by simp [locate]⟩
  | cons part init ih =>
    obtain ⟨start', hrest⟩ := ih false (start + part.length + 1)
    refine ⟨start', ?_⟩
    rw [List.cons_append, locate_cons, locate_cons, hrest, List.append_assoc]
    simp

/-- A path that does not end in a slash ends with its file name. -/
theorem suffix_of_fileName (h : fileName? p = some name) (hend : ¬ EndsInSlash p) :
    name.toList <:+ p.toList := by
  obtain ⟨before, n, hlocate⟩ := exists_of_fileName h
  obtain ⟨init, last, hparts⟩ : ∃ init last, parts p = init ++ [last] := by
    rcases List.eq_nil_or_concat (parts p) with hnil | ⟨init, last, hparts⟩
    · exact absurd hnil (List.splitOn_ne_nil _ _)
    · exact ⟨init, last, by rw [hparts, List.concat_eq_append]⟩
  have hp : init ≠ [] → p.toList = ['/'].intercalate init ++ '/' :: last := by
    intro hne
    rw [← intercalate_parts, hparts, intercalate_append hne (List.cons_ne_nil _ _)]
    simp
  obtain ⟨start, hconcat⟩ := locate_concat true 0 init last
  rw [hparts, hconcat, locate_cons] at hlocate
  cases hlast : component? (true && init.isEmpty) last with
  | some c =>
    rw [hlast] at hlocate
    obtain ⟨-, he⟩ := List.append_inj' hlocate rfl
    obtain rfl : c = .normal name.toList := (Prod.mk.inj (List.cons.inj he).1).1
    obtain ⟨rfl, -⟩ := component?_eq_normal_iff.1 hlast
    rcases eq_or_ne init [] with rfl | hne
    · rw [← intercalate_parts p, hparts]
      simp
    · rw [hp hne]
      exact (List.suffix_cons _ _).trans (List.suffix_append _ _)
  | none =>
    -- the last part is empty or a dot behind a slash
    exfalso
    have hne : init ≠ [] := by
      rintro rfl
      rw [hlast] at hlocate
      simp [locate] at hlocate
    rcases component?_eq_none hlast with rfl | ⟨-, rfl⟩
    · exact hend (.inl (hp hne ▸ List.suffix_append _ _))
    · exact hend (.inr (hp hne ▸ List.suffix_append _ _))

/-- A name with an extension ends with a dot and the extension. -/
theorem eq_of_splitDot {word stem tail : List Char} (h : splitDot word = (stem, some tail)) :
    word = stem ++ '.' :: tail := by
  unfold splitDot at h
  have hdrop : word.reverse.drop (word.reverse.takeWhile (· ≠ '.')).length =
      word.reverse.dropWhile (· ≠ '.') := by
    conv_lhs =>
      enter [2]
      rw [← List.takeWhile_append_dropWhile (p := (· ≠ '.')) (l := word.reverse)]
    exact List.drop_left
  simp only [hdrop] at h
  split at h
  · next dot stem rest hrest =>
    obtain ⟨rfl, htail⟩ := Prod.mk.inj h
    obtain rfl := Option.some.inj htail
    obtain rfl : dot = '.' := by
      have hstop := List.head?_dropWhile_not (· ≠ '.') word.reverse
      rw [hrest] at hstop
      simpa using hstop
    calc word = (word.reverse.takeWhile (· ≠ '.') ++ word.reverse.dropWhile (· ≠ '.')).reverse := by
          rw [List.takeWhile_append_dropWhile, List.reverse_reverse]
      _ = _ := by rw [hrest]; simp
  · simp at h

/-- A path with an extension that does not end in a slash ends with a dot and the extension, and its
file name ends so too. -/
theorem suffix_of_extension {extension : String} (h : extension? p = some extension)
    (hend : ¬ EndsInSlash p) :
    ∃ name, fileName? p = some name ∧ '.' :: extension.toList <:+ name.toList ∧
      name.toList <:+ p.toList := by
  simp only [extension?, bind, Option.bind_eq_some_iff, pure, Option.some.injEq] at h
  obtain ⟨name, hname, tail, htail, rfl⟩ := h
  have hsplit : name.toList = (splitDot name.toList).1 ++ '.' :: tail :=
    eq_of_splitDot (Prod.ext rfl htail)
  refine ⟨name, hname, ?_, suffix_of_fileName hname hend⟩
  rw [String.toList_ofList]
  exact ⟨_, hsplit.symm⟩

end LsxKit.Path
