import LsxKit.Decimal.Binary64
import Mathlib.Data.Nat.Log
import Mathlib.Tactic.Ring

/-!
# Rounding keeps order

A rank and the rank nearest to a quotient are split alike, into a binade and a significand. The
two are compared binade first.

* `units_mono`: a higher rank has a larger magnitude.
* `le_nearestRank`, `nearestRank_le`: rounding does not pass a representable magnitude.
-/

namespace LsxKit.Decimal

/-! ## The parts of a rank -/

theorem binade_eq : binade = 2 ^ 52 := by decide +kernel

/-- How often the significand of a rank is doubled. -/
def doublings (r : Nat) : Nat := r / binade - 1

/-- The significand of a rank. -/
def significand (r : Nat) : Nat := r - doublings r * binade

theorem rank_eq (r : Nat) : r = doublings r * binade + significand r := by
  unfold significand doublings binade
  omega

theorem significand_lt (r : Nat) : significand r < 2 * binade := by
  unfold significand doublings binade
  omega

theorem le_significand {r : Nat} (h : 0 < doublings r) : binade ≤ significand r := by
  unfold significand
  unfold doublings binade at *
  omega

theorem units_eq (r : Nat) : units r = significand r * 2 ^ doublings r := by
  have hsmall : r < binade → doublings r = 0 ∧ significand r = r := by
    unfold significand doublings binade
    omega
  have hlarge : ¬ r < binade → significand r = binade + r % binade := by
    unfold significand doublings binade
    omega
  unfold units
  split_ifs with h
  · rw [(hsmall h).1, (hsmall h).2, pow_zero, mul_one]
  · rw [hlarge h, Nat.shiftLeft_eq, doublings]

/-- A higher rank has a larger magnitude. -/
theorem units_mono {r s : Nat} (h : r ≤ s) : units r ≤ units s := by
  have hdoublings : doublings r ≤ doublings s := Nat.sub_le_sub_right (Nat.div_le_div_right h) 1
  rw [units_eq, units_eq]
  rcases hdoublings.eq_or_lt with heq | hlt
  · rw [heq]
    refine Nat.mul_le_mul_right _ ?_
    rw [significand, significand, heq]
    exact Nat.sub_le_sub_right h _
  · calc significand r * 2 ^ doublings r
        ≤ 2 * binade * 2 ^ doublings r := Nat.mul_le_mul_right _ (significand_lt r).le
      _ = binade * 2 ^ (doublings r + 1) := by ring
      _ ≤ binade * 2 ^ doublings s :=
          Nat.mul_le_mul_left _ (Nat.pow_le_pow_right two_pos hlt)
      _ ≤ significand s * 2 ^ doublings s :=
          Nat.mul_le_mul_right _ (le_significand (Nat.zero_lt_of_lt hlt))

/-! ## The parts of a quotient -/

theorem div_le_divHalfEven (n d : Nat) : n / d ≤ divHalfEven n d := by
  simp only [divHalfEven]
  split_ifs <;> omega

theorem divHalfEven_le {n d m : Nat} (hd : 0 < d) (h : n ≤ m * d) : divHalfEven n d ≤ m := by
  have hdiv : n / d ≤ m := Nat.div_le_of_le_mul (by rwa [mul_comm] at h)
  rcases hdiv.eq_or_lt with heq | hlt
  · -- an exact quotient is not rounded
    have hmod : n % d = 0 := by
      have hsplit := Nat.div_add_mod n d
      rw [heq, mul_comm] at hsplit
      omega
    rw [divHalfEven, hmod, mul_zero, if_pos hd, heq]
  · simp only [divHalfEven]
    split_ifs <;> omega

/-- How often the divisor is doubled before a quotient is rounded. -/
def excessBits (n d : Nat) : Nat := Nat.log2 (n / d) - 52

theorem nearestRank_eq (n d : Nat) :
    nearestRank n d =
      excessBits n d * binade + divHalfEven n (d * 2 ^ excessBits n d) := by
  rw [nearestRank, ← excessBits, Nat.shiftLeft_eq]

theorem lt_of_excessBits {n d : Nat} (hd : 0 < d) :
    n < 2 * binade * (d * 2 ^ excessBits n d) := by
  have hlog : n / d < 2 ^ (Nat.log2 (n / d) + 1) := Nat.lt_log2_self
  have hexponent : 2 ^ (Nat.log2 (n / d) + 1) ≤ 2 * binade * 2 ^ excessBits n d := by
    rw [binade_eq, ← pow_succ', ← pow_add]
    refine Nat.pow_le_pow_right two_pos ?_
    unfold excessBits
    omega
  calc n < 2 * binade * 2 ^ excessBits n d * d :=
        (Nat.div_lt_iff_lt_mul hd).1 (hlog.trans_le hexponent)
    _ = 2 * binade * (d * 2 ^ excessBits n d) := by ring

theorem le_of_excessBits {n d : Nat} (h : 0 < excessBits n d) :
    binade * (d * 2 ^ excessBits n d) ≤ n := by
  have hne : n / d ≠ 0 := by
    rintro hzero
    rw [excessBits, hzero] at h
    exact absurd h (by decide)
  have hexponent : binade * 2 ^ excessBits n d = 2 ^ Nat.log2 (n / d) := by
    rw [binade_eq, ← pow_add]
    congr 1
    unfold excessBits at *
    omega
  calc binade * (d * 2 ^ excessBits n d) = 2 ^ Nat.log2 (n / d) * d := by rw [← hexponent]; ring
    _ ≤ n / d * d := Nat.mul_le_mul_right _ (Nat.log2_self_le hne)
    _ ≤ n := Nat.div_mul_le_self n d

/-! ## Comparing both -/

/-- A magnitude that is not above a quotient is not above the rounded quotient. -/
theorem le_nearestRank {n d r : Nat} (hd : 0 < d) (h : units r * d ≤ n) :
    r ≤ nearestRank n d := by
  rw [nearestRank_eq]
  rw [units_eq] at h
  set k := excessBits n d
  have hD : 0 < d * 2 ^ k := Nat.mul_pos hd (Nat.two_pow_pos k)
  have hround := div_le_divHalfEven n (d * 2 ^ k)
  rcases lt_trichotomy (doublings r) k with hlt | heq | hgt
  · have hle : binade ≤ n / (d * 2 ^ k) :=
      (Nat.le_div_iff_mul_le hD).2 (le_of_excessBits (Nat.zero_lt_of_lt hlt))
    calc r = doublings r * binade + significand r := rank_eq r
      _ ≤ doublings r * binade + 2 * binade := by gcongr; exact (significand_lt r).le
      _ = (doublings r + 1) * binade + binade := by ring
      _ ≤ k * binade + divHalfEven n (d * 2 ^ k) := by
          gcongr
          · exact hlt
          · exact hle.trans hround
  · have hle : significand r ≤ n / (d * 2 ^ k) := by
      rw [Nat.le_div_iff_mul_le hD, ← heq]
      calc significand r * (d * 2 ^ doublings r) = significand r * 2 ^ doublings r * d := by ring
        _ ≤ n := h
    calc r = k * binade + significand r := heq ▸ rank_eq r
      _ ≤ k * binade + divHalfEven n (d * 2 ^ k) := by gcongr; exact hle.trans hround
  · refine absurd (lt_of_excessBits (n := n) hd) (not_lt.2 ?_)
    calc 2 * binade * (d * 2 ^ k) = binade * 2 ^ (k + 1) * d := by ring
      _ ≤ significand r * 2 ^ doublings r * d := by
          gcongr
          · exact le_significand (Nat.zero_lt_of_lt hgt)
          · exact one_le_two
          · exact hgt
      _ ≤ n := h

/-- A magnitude that is not below a quotient is not below the rounded quotient. -/
theorem nearestRank_le {n d r : Nat} (hd : 0 < d) (h : n ≤ units r * d) :
    nearestRank n d ≤ r := by
  rw [nearestRank_eq]
  rw [units_eq] at h
  set k := excessBits n d
  have hD : 0 < d * 2 ^ k := Nat.mul_pos hd (Nat.two_pow_pos k)
  rcases lt_trichotomy (doublings r) k with hlt | heq | hgt
  · refine absurd h (not_le.2 ?_)
    calc significand r * 2 ^ doublings r * d
        < 2 * binade * 2 ^ doublings r * d :=
          Nat.mul_lt_mul_of_pos_right
            (Nat.mul_lt_mul_of_pos_right (significand_lt r) (Nat.two_pow_pos _)) hd
      _ = binade * (d * 2 ^ (doublings r + 1)) := by ring
      _ ≤ binade * (d * 2 ^ k) := by
          gcongr
          · exact one_le_two
          · exact hlt
      _ ≤ n := le_of_excessBits (Nat.zero_lt_of_lt hlt)
  · have hle : divHalfEven n (d * 2 ^ k) ≤ significand r := by
      refine divHalfEven_le hD (h.trans_eq ?_)
      rw [heq]
      ring
    calc k * binade + divHalfEven n (d * 2 ^ k) ≤ k * binade + significand r := by gcongr
      _ = r := (heq ▸ rank_eq r).symm
  · have hle : divHalfEven n (d * 2 ^ k) ≤ 2 * binade :=
      divHalfEven_le hD (lt_of_excessBits hd).le
    calc k * binade + divHalfEven n (d * 2 ^ k) ≤ k * binade + 2 * binade := by gcongr
      _ = (k + 1) * binade + binade := by ring
      _ ≤ doublings r * binade + significand r := by
          gcongr
          · exact hgt
          · exact le_significand (Nat.zero_lt_of_lt hgt)
      _ = r := (rank_eq r).symm

end LsxKit.Decimal
