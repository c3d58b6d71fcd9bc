import Mathlib.Algebra.Order.Floor.Ring
import Mathlib.Data.Int.Log
import Mathlib.Data.Rat.Floor
import Mathlib.Tactic.FieldSimp

/-!
# Rounding to binary64

A finite binary64 number is read as the rational it denotes. `round` is
round-to-nearest-even onto the numbers with 53 significant bits and exponent at
least -1074; a result of magnitude `2 ^ 1024` or more is out of range. The
arithmetic of a language rounds the exact result, so it is exact wherever the
exact result is representable; for naturals below `2 ^ 53` this is
`round_natCast`.
-/

namespace Binary64

/-- The nearest integer, and the even one of two. -/
def nearestEven (q : ℚ) : ℤ :=
  let f := ⌊q⌋
  if q - f < 1 / 2 then f
  else if 1 / 2 < q - f then f + 1
  else if f % 2 = 0 then f
  else f + 1

/-- The exponent of the last significant bit of `q`. -/
def ulpExponent (q : ℚ) : ℤ := max (Int.log 2 |q| - 52) (-1074)

/-- The nearest binary64 number, if it is in range. -/
def round (q : ℚ) : Option ℚ :=
  let r := (nearestEven (q / 2 ^ ulpExponent q) : ℚ) * 2 ^ ulpExponent q
  if |r| < 2 ^ 1024 then some r else none

def mul (x y : ℚ) : Option ℚ := round (x * y)

@[simp] theorem nearestEven_intCast (n : ℤ) : nearestEven (n : ℚ) = n := by
  simp [nearestEven]

/-- A number that is an integral multiple of its last place is representable. -/
theorem round_of_multiple {q : ℚ} {m : ℤ} (h : q = m * 2 ^ ulpExponent q)
    (hrange : |q| < 2 ^ 1024) : round q = some q := by
  have hne : (2 : ℚ) ^ ulpExponent q ≠ 0 := zpow_ne_zero _ two_ne_zero
  have hdiv : q / 2 ^ ulpExponent q = m := by
    rw [div_eq_iff hne]
    exact h
  unfold round
  rw [hdiv, nearestEven_intCast, ← h, if_pos hrange]

/-- Naturals with at most 53 bits are representable. -/
theorem round_natCast {n : ℕ} (h : n < 2 ^ 53) : round (n : ℚ) = some (n : ℚ) := by
  have hlog : Nat.log 2 n ≤ 52 := Nat.lt_succ_iff.mp (Nat.log_lt_of_lt_pow' (by decide) h)
  obtain ⟨e, he⟩ : ∃ e : ℕ, ulpExponent (n : ℚ) = -(e : ℤ) := by
    refine ⟨(-ulpExponent (n : ℚ)).toNat, ?_⟩
    have hle : ulpExponent (n : ℚ) ≤ 0 := by
      unfold ulpExponent
      rw [Nat.abs_cast, Int.log_natCast]
      omega
    omega
  refine round_of_multiple (m := (n : ℤ) * 2 ^ e) ?_ ?_
  · rw [he, zpow_neg, zpow_natCast]
    push_cast
    field_simp
  · rw [Nat.abs_cast]
    have hpow : (n : ℚ) < 2 ^ 53 := by exact_mod_cast h
    exact hpow.trans (pow_lt_pow_right₀ (by norm_num) (by norm_num))

theorem mul_natCast {a b : ℕ} (h : a * b < 2 ^ 53) :
    mul (a : ℚ) (b : ℚ) = some ((a * b : ℕ) : ℚ) := by
  unfold mul
  rw [← Nat.cast_mul]
  exact round_natCast h

end Binary64
