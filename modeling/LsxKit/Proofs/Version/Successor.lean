import LsxKit.Proofs.Version.Order

/-!
# Bumped versions as successors

Among the versions that fit and are zero below a number, a bump of this number leads to the next
one, as long as there is one with the same more significant numbers. Where the number is at its
maximum, the packed result is that of bumping the next more significant number instead.

* `IsLeastAbove`: the least version above another one that is zero below a number.
* `isLeastAbove_bump`: a bump leads to this version, unless the bumped number is at its maximum.
* `pack_bump_of_limit`: what the packed number of the bumped version is there.
* `pack_bump_carries`: a bump as one operation on the packed number, with both cases.
-/

namespace LsxKit

/-- The kind of the next more significant number. -/
def VersionKind.next? : VersionKind → Option VersionKind
  | .major => none
  | .minor => some .major
  | .revision => some .minor
  | .build => some .revision

namespace Version

/-- Whether all numbers less significant than that of a kind are zero. -/
def ClearBelow (k : VersionKind) (v : Version) : Prop := ∀ j, j.shift < k.shift → v.part j = 0

/-- Whether `b` is the least of the versions that fit, are greater than `v`, and are zero below the
number of a kind. -/
structure IsLeastAbove (v : Version) (k : VersionKind) (b : Version) : Prop where
  fits : b.fits = true
  greater : v.compare b = .lt
  clear : b.ClearBelow k
  least : ∀ w : Version, w.fits = true → v.compare w = .lt → w.ClearBelow k → b.compare w ≠ .gt

/-- The packed number to which a number at its maximum carries: the next one is bumped, and there is
none above the most significant one. -/
def carried (v : Version) (k : VersionKind) : UInt64 :=
  (k.next?.map fun j => (v.bump j).pack).getD 0

variable {v w : Version} {k : VersionKind}

theorem clearBelow_bump (v : Version) (k : VersionKind) : (v.bump k).ClearBelow k := by
  intro j hj
  rw [part_bump, if_pos hj]

/-- The packed number of a version that is zero below a number has no bits there. -/
theorem toNat_pack_of_clearBelow (hw : w.fits = true) (hclear : w.ClearBelow k) :
    w.pack.toNat = w.pack.toNat >>> k.shift <<< k.shift := by
  have hzero : ∀ j : VersionKind, j.shift < k.shift → (w.part j).toNat = 0 := by
    intro j hj
    rw [hclear j hj, UInt32.toNat_zero]
  have hminor := hzero .minor
  have hrevision := hzero .revision
  have hbuild := hzero .build
  rw [toNat_pack_of_fits hw]
  cases k <;>
    simp only [part, VersionKind.shift, Nat.shiftRight_eq_div_pow, Nat.shiftLeft_eq,
      Nat.reducePow, Nat.pow_zero, Nat.div_one, Nat.mul_one] at hminor hrevision hbuild ⊢ <;>
    omega

/-- A bump leads to the next version that is zero below the bumped number, unless that number is at
its maximum. -/
theorem isLeastAbove_bump (hv : v.fits = true) (hk : (v.part k).toNat + 1 < k.limit) :
    v.IsLeastAbove k (v.bump k) := by
  have hb := (fits_bump_iff hv k).2 hk
  refine ⟨hb, ?_, clearBelow_bump v k, fun w hw hless hclear => ?_⟩
  · rw [compare_eq_compare_pack hv hb, Nat.compare_eq_lt, ← UInt64.lt_iff_toNat_lt]
    exact (pack_lt_pack_bump_iff hv k).2 ⟨k, Nat.le_refl _, hk⟩
  · rw [compare_eq_compare_pack hv hw, Nat.compare_eq_lt, toNat_pack_of_clearBelow hw hclear,
      Nat.shiftLeft_eq] at hless
    rw [compare_eq_compare_pack hb hw, Ne, Nat.compare_eq_gt, Nat.not_lt, toNat_pack_bump hv]
    -- the bits above those that are clear are greater than the ones of `v`
    have hbits : v.pack.toNat >>> k.shift + 1 ≤ w.pack.toNat >>> k.shift := by
      rw [Nat.shiftRight_eq_div_pow v.pack.toNat]
      exact Nat.div_lt_of_lt_mul (by rwa [Nat.mul_comm])
    calc (v.pack.toNat >>> k.shift + 1) <<< k.shift % UInt64.size
        ≤ (v.pack.toNat >>> k.shift + 1) <<< k.shift := Nat.mod_le _ _
      _ ≤ w.pack.toNat >>> k.shift <<< k.shift := by
        rw [Nat.shiftLeft_eq, Nat.shiftLeft_eq]
        exact Nat.mul_le_mul_right _ hbits
      _ = w.pack.toNat := (toNat_pack_of_clearBelow hw hclear).symm

/-- Where a number is at its maximum, bumping it is bumping the next one on the packed number. -/
theorem pack_bump_of_limit (hv : v.fits = true) (hk : ¬ (v.part k).toNat + 1 < k.limit) :
    (v.bump k).pack = v.carried k := by
  have hfull : (v.part k).toNat + 1 = k.limit :=
    Nat.le_antisymm (fits_iff.1 hv k) (Nat.not_lt.1 hk)
  have hmajor := toNat_part_add_one hv .major
  have hminor := toNat_part_add_one hv .minor
  have hrevision := toNat_part_add_one hv .revision
  have hbuild := toNat_part_add_one hv .build
  refine UInt64.toNat_inj.1 ?_
  -- the bits of a number at its maximum and one more are the lowest bit of the next number
  cases k <;>
    simp only [carried, VersionKind.next?, VersionKind.limit, Option.map_none, Option.map_some,
      Option.getD_none, Option.getD_some, toNat_pack, bump, part, UInt32.toNat_zero,
      UInt64.toNat_zero, UInt64.size] at hfull hmajor hminor hrevision hbuild ⊢ <;>
    omega

/-- On the packed number a bump adds one at the lowest bit of the bumped number and clears the bits
below it. Unless the number was at its maximum, the bumped version fits, is the one that its packed
number holds, and is the least one that fits, is greater and is zero below the number; else the
packed number carries. -/
theorem pack_bump_carries (hv : v.fits = true) (k : VersionKind) :
    (v.bump k).pack.toNat = (v.pack.toNat >>> k.shift + 1) <<< k.shift % UInt64.size ∧
      ((v.part k).toNat + 1 < k.limit →
        (v.bump k).fits = true ∧ unpack (v.bump k).pack = v.bump k ∧
          v.IsLeastAbove k (v.bump k)) ∧
      (¬ (v.part k).toNat + 1 < k.limit → (v.bump k).pack = v.carried k) := by
  refine ⟨toNat_pack_bump hv k, fun hk => ?_, pack_bump_of_limit hv⟩
  have hleast := isLeastAbove_bump hv hk
  exact ⟨hleast.fits, unpack_pack hleast.fits, hleast⟩

/-- The build after 1.0.0.2147483646 is the greatest of its revision; one more carries. At the
greatest major number the packed number becomes zero. -/
theorem pack_bump_carries_build :
    (⟨1, 0, 0, 0x7FFFFFFE⟩ : Version).IsLeastAbove .build ⟨1, 0, 0, 0x7FFFFFFF⟩ ∧
      ((⟨1, 0, 0, 0x7FFFFFFF⟩ : Version).bump .build).pack = (⟨1, 0, 1, 0⟩ : Version).pack ∧
      ((⟨0x1FF, 7, 0, 1⟩ : Version).bump .major).pack = 0 := by
  have hbelow : (⟨1, 0, 0, 0x7FFFFFFE⟩ : Version).fits = true := by decide
  have hbuild : (⟨1, 0, 0, 0x7FFFFFFF⟩ : Version).fits = true := by decide
  have hmajor : (⟨0x1FF, 7, 0, 1⟩ : Version).fits = true := by decide
  exact ⟨((pack_bump_carries hbelow .build).2.1 (by decide)).2.2,
    (pack_bump_carries hbuild .build).2.2 (by decide),
    (pack_bump_carries hmajor .major).2.2 (by decide)⟩

end Version

end LsxKit
