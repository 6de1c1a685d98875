import LsxKit.Json.Reader
import LsxKit.Proofs.Entries
import LsxKit.Proofs.Json.Scalar
import LsxKit.Proofs.Tree.Distinct

/-!
# Reading back what was printed without space

A value is read back from its text without space, if its numbers are and it does not nest too deep.

* `Term.ofValue`: a value as the tree of a text.
* `Value.depth`, `Value.numbers`: how deep a value nests, and the numbers in it.
* `Term.value_compactOnto`: the tree that is read from the text of a value.
* `Term.toValue_ofValue`: the value that this tree stands for.
-/

namespace LsxKit.Json

open Scan

/-! ## Values as trees -/

namespace Term

mutual

/-- A value as the tree of a text. -/
def ofValue : Value → Term
  | .null => .null
  | .bool b => .bool b
  | .number n => .number n
  | .string s => .string s
  | .array vs => .array (ofValues vs)
  | .object ms => .object (ofMembers ms)
  termination_by structural v => v

/-- The elements of an array as trees. -/
def ofValues : List Value → List Term
  | [] => []
  | v :: vs => ofValue v :: ofValues vs
  termination_by structural vs => vs

/-- The members of an object as trees. -/
def ofMembers : List (String × Value) → List (Option String × Term)
  | [] => []
  | (key, v) :: ms => (some key, ofValue v) :: ofMembers ms
  termination_by structural ms => ms

end

theorem ofValues_eq (vs : List Value) : ofValues vs = vs.map ofValue := by
  induction vs with
  | nil => rfl
  | cons v vs ih => rw [ofValues, ih, List.map_cons]

theorem ofMembers_eq (ms : List (String × Value)) :
    ofMembers ms = ms.map fun m => (some m.1, ofValue m.2) := by
  induction ms with
  | nil => rfl
  | cons m ms ih => rw [ofMembers, ih, List.map_cons]

end Term

namespace Value

mutual

/-- The number of levels that the arrays and objects of a value nest. -/
def depth : Value → Nat
  | .array vs => depthItems vs + 1
  | .object ms => depthMembers ms + 1
  | _ => 0
  termination_by structural v => v

/-- The greatest depth of several values. -/
def depthItems : List Value → Nat
  | [] => 0
  | v :: vs => max (depth v) (depthItems vs)
  termination_by structural vs => vs

/-- The greatest depth of the values of members. -/
def depthMembers : List (String × Value) → Nat
  | [] => 0
  | (_, v) :: ms => max (depth v) (depthMembers ms)
  termination_by structural ms => ms

end

mutual

/-- The numbers in a value. -/
def numbers : Value → List Number
  | .number n => [n]
  | .array vs => numbersOfItems vs
  | .object ms => numbersOfMembers ms
  | _ => []
  termination_by structural v => v

/-- The numbers in several values. -/
def numbersOfItems : List Value → List Number
  | [] => []
  | v :: vs => numbers v ++ numbersOfItems vs
  termination_by structural vs => vs

/-- The numbers in the values of members. -/
def numbersOfMembers : List (String × Value) → List Number
  | [] => []
  | (_, v) :: ms => numbers v ++ numbersOfMembers ms
  termination_by structural ms => ms

end

theorem depth_le_depthItems {v : Value} {vs : List Value} (h : v ∈ vs) :
    v.depth ≤ Value.depthItems vs := by
  induction vs with
  | nil => contradiction
  | cons w vs ih =>
    rw [Value.depthItems]
    rcases List.mem_cons.1 h with rfl | h
    · exact Nat.le_max_left _ _
    · exact Nat.le_trans (ih h) (Nat.le_max_right _ _)

theorem depth_le_depthMembers {m : String × Value} {ms : List (String × Value)} (h : m ∈ ms) :
    m.2.depth ≤ Value.depthMembers ms := by
  induction ms with
  | nil => contradiction
  | cons m' ms ih =>
    obtain ⟨key, v⟩ := m'
    rw [Value.depthMembers]
    rcases List.mem_cons.1 h with rfl | h
    · exact Nat.le_max_left _ _
    · exact Nat.le_trans (ih h) (Nat.le_max_right _ _)

/-! ## What follows a value -/

/-- What separates a part of an array or object from the one before it, if there is one. -/
def separator (first : Bool) : List Char := if first then [] else [',']

/-- The elements that are left of an array, in front of a text; `first` tells that none was
written yet. -/
def itemsTail (first : Bool) (rest : List Char) : List Value → List Char
  | [] => rest
  | v :: vs => separator first ++ compactItems rest (v :: vs)

/-- The members that are left of an object, in front of a text; `first` tells that none was
written yet. -/
def membersTail (first : Bool) (rest : List Char) : List (String × Value) → List Char
  | [] => rest
  | m :: ms => separator first ++ compactMembers rest (m :: ms)

@[simp] theorem separator_true : separator true = [] := rfl

@[simp] theorem separator_false : separator false = [','] := rfl

theorem length_separator (first : Bool) : (separator first).length ≤ 1 := by
  cases first <;> decide

theorem itemsTail_cons (first : Bool) (rest : List Char) (v : Value) (vs : List Value) :
    itemsTail first rest (v :: vs) =
      separator first ++ compactOnto (itemsTail false rest vs) v := by
  cases vs <;> rfl

theorem membersTail_cons (first : Bool) (rest : List Char) (key : String) (v : Value)
    (ms : List (String × Value)) :
    membersTail first rest ((key, v) :: ms) =
      separator first ++ quote key (':' :: compactOnto (membersTail false rest ms) v) := by
  cases ms <;> rfl

theorem compactOnto_array (rest : List Char) (vs : List Value) :
    compactOnto rest (.array vs) = '[' :: itemsTail true (']' :: rest) vs := by
  cases vs <;> rfl

theorem compactOnto_object (rest : List Char) (ms : List (String × Value)) :
    compactOnto rest (.object ms) = '{' :: membersTail true ('}' :: rest) ms := by
  cases ms <;> rfl

theorem endsNumber_itemsTail (rest : List Char) (vs : List Value) :
    EndsNumber (itemsTail false (']' :: rest) vs) := by
  cases vs <;> (rintro c ⟨⟩; decide)

theorem endsNumber_membersTail (rest : List Char) (ms : List (String × Value)) :
    EndsNumber (membersTail false ('}' :: rest) ms) := by
  cases ms <;> (rintro c ⟨⟩; decide)

mutual

theorem length_compactOnto (v : Value) (rest : List Char) :
    rest.length ≤ (compactOnto rest v).length := by
  match v with
  | .null | .bool true | .bool false =>
    simp only [compactOnto, List.length_cons]
    omega
  | .number n => simp [compactOnto]
  | .string s =>
    simp only [compactOnto, quote, List.length_cons, List.length_append]
    omega
  | .array vs =>
    have h := length_itemsTail vs true (']' :: rest)
    rw [compactOnto_array, List.length_cons]
    rw [List.length_cons] at h
    omega
  | .object ms =>
    have h := length_membersTail ms true ('}' :: rest)
    rw [compactOnto_object, List.length_cons]
    rw [List.length_cons] at h
    omega
  termination_by structural v

theorem length_itemsTail (vs : List Value) (first : Bool) (rest : List Char) :
    rest.length ≤ (itemsTail first rest vs).length := by
  match vs with
  | [] => exact Nat.le_refl _
  | v :: vs =>
    have hv := length_compactOnto v (itemsTail false rest vs)
    have hvs := length_itemsTail vs false rest
    rw [itemsTail_cons, List.length_append]
    omega
  termination_by structural vs

theorem length_membersTail (ms : List (String × Value)) (first : Bool) (rest : List Char) :
    rest.length ≤ (membersTail first rest ms).length := by
  match ms with
  | [] => exact Nat.le_refl _
  | (key, v) :: ms =>
    have hv := length_compactOnto v (membersTail false rest ms)
    have hms := length_membersTail ms false rest
    rw [membersTail_cons, List.length_append]
    simp only [quote, List.length_cons, List.length_append]
    omega
  termination_by structural ms

end

/-- The text of a value begins with neither space nor the end of an array. -/
theorem exists_cons_compactOnto (v : Value) (hnumbers : ∀ n ∈ v.numbers, n.ReadsBack)
    (rest : List Char) :
    ∃ c s, compactOnto rest v = c :: s ∧ isSpace c = false ∧ c ≠ ']' := by
  match v with
  | .null | .bool true | .bool false => exact ⟨_, _, rfl, rfl, by decide⟩
  | .string s => exact ⟨_, _, rfl, rfl, by decide⟩
  | .array vs => exact ⟨_, _, rfl, rfl, by decide⟩
  | .object ms => exact ⟨_, _, rfl, rfl, by decide⟩
  | .number n =>
    obtain ⟨k, hnumeral, -⟩ := number_eq_ok_iff.1 (hnumbers n List.mem_cons_self)
    obtain ⟨c, s, hcons, hstarts⟩ := exists_cons_of_numeral hnumeral
    exact ⟨c, s ++ rest, by rw [compactOnto, hcons]; rfl, not_isSpace_of_startsNumber hstarts,
      ne_of_startsNumber hstarts rfl⟩

end Value

/-! ## Reading values -/

namespace Scan

variable {c : Char} {s : List Char}

theorem skipSpace_cons (h : isSpace c = false) : skipSpace (c :: s) = c :: s :=
  List.dropWhile_cons_of_neg (by simp [h])

/-- An element follows if a comma stands before it, unless it is the first one. -/
theorem nextElement_separator (first : Bool) (hspace : isSpace c = false) (hend : c ≠ ']') :
    nextElement first (Value.separator first ++ c :: s) = .ok (true, c :: s) := by
  cases first with
  | true => simp [nextElement, skipSpace_cons hspace, hend]
  | false =>
    have hcomma : skipSpace (',' :: c :: s) = ',' :: c :: s := skipSpace_cons rfl
    simp [nextElement, hcomma, skipSpace_cons hspace, hend]

theorem nextElement_end (first : Bool) (s : List Char) :
    nextElement first (']' :: s) = .ok (false, s) := by
  have hskip : skipSpace (']' :: s) = ']' :: s := skipSpace_cons rfl
  cases first <;> simp [nextElement, hskip]

/-- A key follows if a comma stands before it, unless it is the first one. -/
theorem nextKey_separator (first : Bool) (s : List Char) :
    nextKey first (Value.separator first ++ '"' :: s) = .ok (true, s) := by
  have hquote : skipSpace ('"' :: s) = '"' :: s := skipSpace_cons rfl
  cases first with
  | true => simp [nextKey, hquote]
  | false =>
    have hcomma : skipSpace (',' :: '"' :: s) = ',' :: '"' :: s := skipSpace_cons rfl
    simp [nextKey, hcomma, hquote]

theorem nextKey_end (first : Bool) (s : List Char) :
    nextKey first ('}' :: s) = .ok (false, s) := by
  have hskip : skipSpace ('}' :: s) = '}' :: s := skipSpace_cons rfl
  cases first <;> simp [nextKey, hskip]

theorem colon_cons (s : List Char) : colon (':' :: s) = .ok s := by
  have hskip : skipSpace (':' :: s) = ':' :: s := skipSpace_cons rfl
  simp [colon, hskip]

end Scan

namespace Term

variable {rest : List Char} {fuel depth : Nat}

/-- Where no array and no object begins there is a scalar, however deep it is nested. -/
theorem value_scalar {c : Char} {s : List Char} (hspace : isSpace c = false) (harray : c ≠ '[')
    (hobject : c ≠ '{') : value fuel depth (c :: s) = scalar (c :: s) := by
  cases depth <;> simp [value, skipSpace_cons hspace, harray, hobject]

theorem value_array (s : List Char) :
    value fuel (depth + 1) ('[' :: s) = items (value fuel depth) fuel [] s := by
  have hskip : skipSpace ('[' :: s) = '[' :: s := skipSpace_cons rfl
  simp [value, hskip]

theorem value_object (s : List Char) :
    value fuel (depth + 1) ('{' :: s) = members (value fuel depth) fuel [] s := by
  have hskip : skipSpace ('{' :: s) = '{' :: s := skipSpace_cons rfl
  simp [value, hskip]

mutual

/-- A value is read back from its text, whatever follows. -/
theorem value_compactOnto (v : Value) {rest : List Char} {fuel depth : Nat}
    (hdepth : v.depth ≤ depth) (hnumbers : ∀ n ∈ v.numbers, n.ReadsBack)
    (hrest : EndsNumber rest) (hfuel : (v.compactOnto rest).length ≤ fuel) :
    value fuel depth (v.compactOnto rest) = .ok (ofValue v, rest) := by
  match v with
  | .null => exact value_scalar rfl (by decide) (by decide)
  | .bool true => exact value_scalar rfl (by decide) (by decide)
  | .bool false => exact value_scalar rfl (by decide) (by decide)
  | .string s =>
    refine (value_scalar rfl (by decide) (by decide)).trans ?_
    exact bind_eq_ok_iff.2 ⟨_, text_quote s rest, rfl⟩
  | .number n =>
    have hread : n.ReadsBack := hnumbers n List.mem_cons_self
    obtain ⟨k, hnumeral, -⟩ := number_eq_ok_iff.1 hread
    obtain ⟨c, s, hcons, hstarts⟩ := exists_cons_of_numeral hnumeral
    have hscalar : value fuel depth (n.render ++ rest) = scalar (n.render ++ rest) := by
      rw [hcons]
      exact value_scalar (not_isSpace_of_startsNumber hstarts) (ne_of_startsNumber hstarts rfl)
        (ne_of_startsNumber hstarts rfl)
    exact hscalar.trans (scalar_number hread hrest)
  | .array vs =>
    obtain ⟨depth, rfl⟩ := Nat.exists_eq_add_one_of_ne_zero
      (Nat.ne_of_gt (Nat.lt_of_lt_of_le (Nat.succ_pos _) hdepth))
    rw [Value.compactOnto_array] at hfuel ⊢
    rw [value_array]
    exact items_itemsTail vs [] (Nat.le_of_succ_le_succ hdepth) hnumbers
      (Nat.le_of_succ_le hfuel) hfuel
  | .object ms =>
    obtain ⟨depth, rfl⟩ := Nat.exists_eq_add_one_of_ne_zero
      (Nat.ne_of_gt (Nat.lt_of_lt_of_le (Nat.succ_pos _) hdepth))
    rw [Value.compactOnto_object] at hfuel ⊢
    rw [value_object]
    exact members_membersTail ms [] (Nat.le_of_succ_le_succ hdepth) hnumbers
      (Nat.le_of_succ_le hfuel) hfuel
  termination_by structural v

/-- The elements of an array are read back after the elements `read`. `left` bounds how many more
are looked for: each has a character at least, and a comma in front unless it is the first. -/
theorem items_itemsTail (vs : List Value) {rest : List Char} {fuel depth left : Nat}
    (read : List Term) (hdepth : Value.depthItems vs ≤ depth)
    (hnumbers : ∀ n ∈ Value.numbersOfItems vs, n.ReadsBack)
    (hfuel : (Value.itemsTail read.isEmpty (']' :: rest) vs).length ≤ fuel)
    (hleft : (Value.itemsTail read.isEmpty (']' :: rest) vs).length <
      left + (Value.separator read.isEmpty).length) :
    items (value fuel depth) left read (Value.itemsTail read.isEmpty (']' :: rest) vs) =
      .ok (.array (read.reverse ++ ofValues vs), rest) := by
  match vs with
  | [] =>
    have hseparator := Value.length_separator read.isEmpty
    rw [Value.itemsTail, List.length_cons] at hleft
    obtain ⟨left, rfl⟩ : ∃ k, left = k + 1 := ⟨left - 1, by omega⟩
    rw [Value.itemsTail, items]
    exact bind_eq_ok_iff.2 ⟨_, nextElement_end _ rest, by rw [ofValues, List.append_nil]; rfl⟩
  | v :: vs =>
    rw [Value.depthItems, Nat.max_le] at hdepth
    rw [Value.numbersOfItems, List.forall_mem_append] at hnumbers
    rw [Value.itemsTail_cons] at hfuel hleft ⊢
    rw [List.length_append] at hfuel hleft
    obtain ⟨c, s, hcons, hspace, hend⟩ := Value.exists_cons_compactOnto v hnumbers.1
      (Value.itemsTail false (']' :: rest) vs)
    have hnext := nextElement_separator (s := s) read.isEmpty hspace hend
    rw [← hcons] at hnext
    have hlength := Value.length_compactOnto v (Value.itemsTail false (']' :: rest) vs)
    have hv := value_compactOnto v hdepth.1 hnumbers.1 (Value.endsNumber_itemsTail rest vs)
      (Nat.le_trans (Nat.le_add_left _ _) hfuel)
    have hpos : 0 < ((v.compactOnto (Value.itemsTail false (']' :: rest) vs)).length) := by
      rw [hcons]
      exact Nat.succ_pos _
    obtain ⟨left, rfl⟩ : ∃ k, left = k + 1 := ⟨left - 1, by omega⟩
    have hvs : items (value fuel depth) left (ofValue v :: read)
        (Value.itemsTail false (']' :: rest) vs) =
          .ok (.array ((ofValue v :: read).reverse ++ ofValues vs), rest) :=
      items_itemsTail vs (ofValue v :: read) hdepth.2 hnumbers.2
        (Nat.le_trans (Nat.le_trans hlength (Nat.le_add_left _ _)) hfuel)
        (by simp; omega)
    rw [items]
    refine bind_eq_ok_iff.2 ⟨_, hnext, bind_eq_ok_iff.2 ⟨_, hv, hvs.trans ?_⟩⟩
    rw [ofValues, List.reverse_cons, List.append_assoc, List.singleton_append]
  termination_by structural vs

theorem members_membersTail (ms : List (String × Value)) {rest : List Char}
    {fuel depth left : Nat} (read : List (Option String × Term))
    (hdepth : Value.depthMembers ms ≤ depth)
    (hnumbers : ∀ n ∈ Value.numbersOfMembers ms, n.ReadsBack)
    (hfuel : (Value.membersTail read.isEmpty ('}' :: rest) ms).length ≤ fuel)
    (hleft : (Value.membersTail read.isEmpty ('}' :: rest) ms).length <
      left + (Value.separator read.isEmpty).length) :
    members (value fuel depth) left read (Value.membersTail read.isEmpty ('}' :: rest) ms) =
      .ok (.object (read.reverse ++ ofMembers ms), rest) := by
  match ms with
  | [] =>
    have hseparator := Value.length_separator read.isEmpty
    rw [Value.membersTail, List.length_cons] at hleft
    obtain ⟨left, rfl⟩ : ∃ k, left = k + 1 := ⟨left - 1, by omega⟩
    rw [Value.membersTail, members]
    exact bind_eq_ok_iff.2 ⟨_, nextKey_end _ rest, by rw [ofMembers, List.append_nil]; rfl⟩
  | (key, v) :: ms =>
    rw [Value.depthMembers, Nat.max_le] at hdepth
    rw [Value.numbersOfMembers, List.forall_mem_append] at hnumbers
    rw [Value.membersTail_cons] at hfuel hleft ⊢
    have hlength := Value.length_compactOnto v (Value.membersTail false ('}' :: rest) ms)
    simp only [quote, List.length_append, List.length_cons] at hfuel hleft
    obtain ⟨left, rfl⟩ : ∃ k, left = k + 1 := ⟨left - 1, by omega⟩
    have hv : value fuel depth _ = .ok (ofValue v, Value.membersTail false ('}' :: rest) ms) :=
      value_compactOnto v hdepth.1 hnumbers.1 (Value.endsNumber_membersTail rest ms) (by omega)
    have hms : members (value fuel depth) left ((some key, ofValue v) :: read)
        (Value.membersTail false ('}' :: rest) ms) =
          .ok (.object (((some key, ofValue v) :: read).reverse ++ ofMembers ms), rest) :=
      members_membersTail ms ((some key, ofValue v) :: read) hdepth.2 hnumbers.2
        (by rw [List.isEmpty_cons]; omega)
        (by simp; omega)
    rw [members]
    refine bind_eq_ok_iff.2 ⟨_, nextKey_separator _ _, bind_eq_ok_iff.2 ⟨_, text_quote key _,
      bind_eq_ok_iff.2 ⟨_, colon_cons _, bind_eq_ok_iff.2 ⟨_, hv, hms.trans ?_⟩⟩⟩⟩
    rw [ofMembers, List.reverse_cons, List.append_assoc, List.singleton_append]
  termination_by structural ms

end

/-- A value is read back from the whole of its text. -/
theorem read_compact {v : Value} (hdepth : v.depth ≤ maxDepth)
    (hnumbers : ∀ n ∈ v.numbers, n.ReadsBack) :
    read v.compact.toList = .ok (ofValue v) := by
  rw [Value.compact, String.toList_ofList, read]
  exact bind_eq_ok_iff.2
    ⟨_, value_compactOnto v hdepth hnumbers endsNumber_nil (Nat.le_succ _), rfl⟩

/-! ## Values of trees -/

open LsxKit.Tree (Distinct AllDistinct MembersDistinct)

mutual

/-- The tree of a value stands for the value, if the keys of its objects are distinct. -/
theorem toValue_ofValue (v : Value) (h : Distinct v) : toValue (ofValue v) = .ok v := by
  match v with
  | .null | .bool _ | .number _ | .string _ => rfl
  | .array vs =>
    rw [ofValue, toValue]
    exact bind_eq_ok_iff.2 ⟨vs, toValues_ofValues vs h, rfl⟩
  | .object ms =>
    have hmembers : Entries.extend [] ms = ms := by
      rw [Entries.extend_of_nodup [] (by simpa using h.1), List.nil_append]
    rw [ofValue, toValue]
    exact bind_eq_ok_iff.2 ⟨ms, toMembers_ofMembers ms h.2, by rw [hmembers]; rfl⟩
  termination_by structural v

theorem toValues_ofValues (vs : List Value) (h : AllDistinct vs) :
    toValues (ofValues vs) = .ok vs := by
  match vs with
  | [] => rfl
  | v :: vs =>
    rw [ofValues, toValues]
    exact bind_eq_ok_iff.2 ⟨v, toValue_ofValue v h.1,
      bind_eq_ok_iff.2 ⟨vs, toValues_ofValues vs h.2, rfl⟩⟩
  termination_by structural vs

theorem toMembers_ofMembers (ms : List (String × Value)) (h : MembersDistinct ms) :
    toMembers (ofMembers ms) = .ok ms := by
  match ms with
  | [] => rfl
  | (key, v) :: ms =>
    rw [ofMembers, toMembers]
    exact bind_eq_ok_iff.2 ⟨key, rfl, bind_eq_ok_iff.2 ⟨v, toValue_ofValue v h.1,
      bind_eq_ok_iff.2 ⟨ms, toMembers_ofMembers ms h.2, rfl⟩⟩⟩
  termination_by structural ms

end

end Term

end LsxKit.Json
