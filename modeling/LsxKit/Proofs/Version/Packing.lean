import LsxKit.Version
import Mathlib.Tactic.SplitIfs

/-!
# Packed versions and their carries

The numbers of a version stand side by side in the packed number. Bumping one of them adds one at
its lowest bit and clears the bits below, and where it was at its maximum the packed number carries
into the next one.

* `fits_iff`: a version fits if each of its numbers is below its limit.
* `pack_unpack`, `unpack_pack_eq_self_iff`: unpacking gives exactly the versions that fit.
* `fits_bump_iff`: a bumped version fits unless the bumped number was at its maximum.
* `toNat_pack_bump`: what a bump is on the packed number.
* `pack_lt_pack_bump_iff`: when the packed number grows.
-/

namespace LsxKit

/-- The number of values that fit into the bits of a number. -/
def VersionKind.limit : VersionKind → Nat
  | .major => 0x200
  | .minor => 0x100
  | .revision => 0x10000
  | .build => 0x80000000

namespace Version

/-- The number of a kind. -/
def part (v : Version) : VersionKind → UInt32
  | .major => v.major
  | .minor => v.minor
  | .revision => v.revision
  | .build => v.build

variable {v : Version}

theorem fits_iff : v.fits = true ↔ ∀ k, (v.part k).toNat < k.limit := by
  simp only [fits, Bool.and_eq_true, decide_eq_true_eq]
  constructor
  · rintro ⟨⟨⟨hmajor, hminor⟩, hrevision⟩, hbuild⟩ k
    cases k
    · exact hmajor
    · exact hminor
    · exact hrevision
    · exact hbuild
  · exact fun h => ⟨⟨⟨h .major, h .minor⟩, h .revision⟩, h .build⟩

/-! ## Packing -/

theorem toNat_pack (v : Version) :
    v.pack.toNat = (v.major.toNat * 0x80000000000000 + v.minor.toNat * 0x800000000000 +
      v.revision.toNat * 0x80000000 + v.build.toNat) % UInt64.size := by
  simp [pack, Nat.shiftLeft_eq, UInt64.size]

/-- Packing a version that fits spills nowhere. -/
theorem toNat_pack_of_fits (h : v.fits = true) :
    v.pack.toNat = v.major.toNat * 0x80000000000000 + v.minor.toNat * 0x800000000000 +
      v.revision.toNat * 0x80000000 + v.build.toNat := by
  simp only [fits, Bool.and_eq_true, decide_eq_true_eq] at h
  rw [toNat_pack, Nat.mod_eq_of_lt]
  simp only [UInt64.size]
  omega

/-- The numbers of an unpacked version are the bits of the packed number. -/
theorem toNat_part_unpack (n : UInt64) (k : VersionKind) :
    ((unpack n).part k).toNat = n.toNat >>> k.shift % k.limit := by
  have hn := n.toNat_lt
  cases k <;>
    simp only [part, unpack, VersionKind.shift, VersionKind.limit, Nat.shiftRight_eq_div_pow,
      UInt32.toNat_ofNat', Nat.reducePow, Nat.pow_zero, Nat.div_one] <;>
    omega

theorem fits_unpack (n : UInt64) : (unpack n).fits = true := by
  refine fits_iff.2 fun k => ?_
  rw [toNat_part_unpack]
  exact Nat.mod_lt _ (by cases k <;> decide)

/-- Every packed number is the one of the version that it holds. -/
theorem pack_unpack (n : UInt64) : (unpack n).pack = n := by
  have hn := n.toNat_lt
  have hmajor := toNat_part_unpack n .major
  have hminor := toNat_part_unpack n .minor
  have hrevision := toNat_part_unpack n .revision
  have hbuild := toNat_part_unpack n .build
  simp only [part, VersionKind.shift, VersionKind.limit, Nat.shiftRight_eq_div_pow, Nat.reducePow,
    Nat.pow_zero, Nat.div_one] at hmajor hminor hrevision hbuild
  refine UInt64.toNat_inj.1 ?_
  rw [toNat_pack_of_fits (fits_unpack n), hmajor, hminor, hrevision, hbuild]
  omega

theorem eq_of_part {w : Version} (h : ∀ k, (v.part k).toNat = (w.part k).toNat) : v = w := by
  obtain ⟨major, minor, revision, build⟩ := v
  obtain ⟨major', minor', revision', build'⟩ := w
  rw [mk.injEq]
  exact ⟨UInt32.toNat_inj.1 (h .major), UInt32.toNat_inj.1 (h .minor),
    UInt32.toNat_inj.1 (h .revision), UInt32.toNat_inj.1 (h .build)⟩

theorem unpack_pack (h : v.fits = true) : unpack v.pack = v := by
  refine eq_of_part fun k => ?_
  rw [toNat_part_unpack, toNat_pack_of_fits h]
  simp only [fits, Bool.and_eq_true, decide_eq_true_eq] at h
  cases k <;>
    simp only [part, VersionKind.shift, VersionKind.limit, Nat.shiftRight_eq_div_pow,
      Nat.reducePow, Nat.pow_zero, Nat.div_one] <;>
    omega

/-- A version is the one that its packed number holds exactly if it fits. -/
theorem unpack_pack_eq_self_iff : unpack v.pack = v ↔ v.fits = true :=
  ⟨fun h => h ▸ fits_unpack v.pack, unpack_pack⟩

/-! ## Bumping -/

/-- A version that fits has room for one more in 32 bits. -/
theorem toNat_part_add_one (h : v.fits = true) (k : VersionKind) :
    (v.part k + 1).toNat = (v.part k).toNat + 1 := by
  have hlt := fits_iff.1 h k
  have hlimit : k.limit ≤ 0x80000000 := by cases k <;> decide
  rw [UInt32.toNat_add, UInt32.toNat_one]
  omega

/-- A bump adds one to a number, clears the less significant ones and keeps the others. -/
theorem part_bump (v : Version) (k j : VersionKind) :
    (v.bump k).part j =
      if j.shift < k.shift then 0 else if j = k then v.part k + 1 else v.part j := by
  cases k <;> cases j <;> rfl

/-- A bumped version fits exactly if the bumped number was below its maximum. -/
theorem fits_bump_iff (h : v.fits = true) (k : VersionKind) :
    (v.bump k).fits = true ↔ (v.part k).toNat + 1 < k.limit := by
  rw [fits_iff]
  constructor
  · intro hfits
    have hk := hfits k
    rwa [part_bump, if_neg (Nat.lt_irrefl _), if_pos rfl, toNat_part_add_one h] at hk
  · intro hk j
    rw [part_bump]
    split_ifs with hless hj
    · exact (show 0 < j.limit by cases j <;> decide)
    · rwa [hj, toNat_part_add_one h]
    · exact fits_iff.1 h j

/-- On the packed number a bump adds one at the lowest bit of the bumped number, clears the bits
below it, and carries. -/
theorem toNat_pack_bump (h : v.fits = true) (k : VersionKind) :
    (v.bump k).pack.toNat =
      (v.pack.toNat >>> k.shift + 1) <<< k.shift % UInt64.size := by
  have hadd := toNat_part_add_one h k
  rw [toNat_pack, toNat_pack_of_fits h]
  simp only [fits, Bool.and_eq_true, decide_eq_true_eq] at h
  -- the less significant numbers are below the lowest bit of the bumped one: the shift drops them
  cases k <;>
    simp only [bump, part, VersionKind.shift, UInt32.toNat_zero, Nat.shiftRight_eq_div_pow,
      Nat.shiftLeft_eq, Nat.reducePow, Nat.pow_zero, Nat.div_one, Nat.mul_one,
      UInt64.size] at hadd ⊢ <;>
    omega

theorem exists_kind_iff {p : VersionKind → Prop} :
    (∃ k, p k) ↔ p .major ∨ p .minor ∨ p .revision ∨ p .build := by
  constructor
  · rintro ⟨k, hk⟩
    cases k
    · exact .inl hk
    · exact .inr (.inl hk)
    · exact .inr (.inr (.inl hk))
    · exact .inr (.inr (.inr hk))
  · rintro (h | h | h | h)
    · exact ⟨_, h⟩
    · exact ⟨_, h⟩
    · exact ⟨_, h⟩
    · exact ⟨_, h⟩

/-- The packed number grows unless the bumped number and all more significant ones are at their
maxima. -/
theorem pack_lt_pack_bump_iff (h : v.fits = true) (k : VersionKind) :
    v.pack < (v.bump k).pack ↔ ∃ j, k.shift ≤ j.shift ∧ (v.part j).toNat + 1 < j.limit := by
  rw [UInt64.lt_iff_toNat_lt, toNat_pack_bump h, toNat_pack_of_fits h, exists_kind_iff]
  simp only [fits, Bool.and_eq_true, decide_eq_true_eq] at h
  cases k <;>
    simp only [part, VersionKind.shift, VersionKind.limit, Nat.shiftRight_eq_div_pow,
      Nat.shiftLeft_eq, Nat.reducePow, Nat.pow_zero, Nat.div_one, Nat.mul_one, UInt64.size] <;>
    omega

end Version

end LsxKit
