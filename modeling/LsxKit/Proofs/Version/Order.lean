import LsxKit.Proofs.Version.Packing

/-!
# The order of versions

The numbers of a version that fits are the digits of its packed number, each in a base of its own,
the most significant first. So the first number that differs decides the order of the packed
numbers, too.

* `then_compare`: comparing two digits is comparing the number that they spell.
* `compare_eq_compare_pack`: versions that fit compare as their packed numbers.
* `pack_order_iso`: packing and unpacking are inverse on the versions that fit, and keep the order.
-/

namespace LsxKit.Version

/-- The more significant digit decides; if it is the same, the other one does. -/
theorem then_compare (base : Nat) {a a' b b' : Nat} (hb : b < base) (hb' : b' < base) :
    (Ord.compare a a').then (Ord.compare b b') =
      Ord.compare (a * base + b) (a' * base + b') := by
  have hless : ∀ {c c' e e' : Nat}, c < c' → e < base → c * base + e < c' * base + e' := by
    intro c c' e e' hc he
    have hle : (c + 1) * base ≤ c' * base := Nat.mul_le_mul_right base hc
    rw [Nat.succ_mul] at hle
    omega
  rcases Nat.lt_trichotomy a a' with ha | rfl | ha
  · rw [Nat.compare_eq_lt.2 ha, Nat.compare_eq_lt.2 (hless ha hb)]
    rfl
  · rw [Nat.compare_eq_eq.2 rfl, Ordering.eq_then]
    simp only [Nat.compare_eq_ite_lt, Nat.add_lt_add_iff_left]
  · rw [Nat.compare_eq_gt.2 ha, Nat.compare_eq_gt.2 (hless ha hb')]
    rfl

variable {v w : Version}

/-- Versions that fit compare as their packed numbers. -/
theorem compare_eq_compare_pack (hv : v.fits = true) (hw : w.fits = true) :
    v.compare w = Ord.compare v.pack.toNat w.pack.toNat := by
  have hspelled : ∀ u : Version, u.fits = true → u.pack.toNat =
      u.major.toNat * 0x80000000000000 + (u.minor.toNat * 0x800000000000 +
        (u.revision.toNat * 0x80000000 + u.build.toNat)) := by
    intro u hu
    rw [toNat_pack_of_fits hu]
    omega
  rw [hspelled v hv, hspelled w hw, Version.compare]
  simp only [fits, Bool.and_eq_true, decide_eq_true_eq] at hv hw
  -- from the least significant digits on, each comparison is one of the numbers spelled so far
  rw [then_compare 0x80000000 (by omega) (by omega),
    then_compare 0x800000000000 (by omega) (by omega),
    then_compare 0x80000000000000 (by omega) (by omega)]

/-- Every packed number is that of the version which it holds, and this one fits; a version is the
one that its packed number holds exactly if it fits; and of two versions that fit one is less
exactly if its packed number is. -/
theorem pack_order_iso :
    (∀ n, (unpack n).fits = true ∧ (unpack n).pack = n) ∧
      (∀ v, unpack v.pack = v ↔ v.fits = true) ∧
      ∀ v w : Version, v.fits = true → w.fits = true → (v.compare w = .lt ↔ v.pack < w.pack) := by
  refine ⟨fun n => ⟨fits_unpack n, pack_unpack n⟩, fun v => unpack_pack_eq_self_iff,
    fun v w hv hw => ?_⟩
  rw [compare_eq_compare_pack hv hw, Nat.compare_eq_lt, UInt64.lt_iff_toNat_lt]

/-- The greatest build of one revision is less than the next revision. -/
theorem pack_order_iso_revision :
    (⟨1, 0, 0, 0x7FFFFFFF⟩ : Version).fits = true ∧ (⟨1, 0, 1, 0⟩ : Version).fits = true ∧
      (⟨1, 0, 0, 0x7FFFFFFF⟩ : Version).pack < (⟨1, 0, 1, 0⟩ : Version).pack :=
  ⟨by decide, by decide, (pack_order_iso.2.2 _ _ (by decide) (by decide)).1 (by decide)⟩

end LsxKit.Version
