import Mathlib.Data.Int.Log
import Mathlib.Tactic.Linarith
import Mathlib.Tactic.Positivity
import Mathlib.Tactic.Ring
import Mathlib.Tactic.FieldSimp
import Mathlib.Tactic.NormNum
import NukeLab.Double

namespace NukeLab.Binary64

open Double (halfEven)

variable {q x : ℚ} {n k : ℤ}

theorem halfEven_intCast (n : ℤ) : halfEven n = n := by
  simp [halfEven]

theorem le_halfEven (h : (n : ℚ) ≤ x) : n ≤ halfEven x := by
  have hfloor : n ≤ ⌊x⌋ := Int.le_floor.mpr h
  simp only [halfEven]
  split <;> omega

theorem halfEven_le (h : x ≤ n) : halfEven x ≤ n := by
  simp only [halfEven]
  split
  · exact Int.floor_le_iff.mpr (by linarith)
  · next hup =>
      by_contra hlt
      have hfloor : ⌊x⌋ = n := le_antisymm (Int.floor_le_iff.mpr (by linarith)) (by omega)
      have hx : x = n := le_antisymm h (hfloor ▸ Int.floor_le x)
      apply hup
      left
      rw [hfloor, hx]
      norm_num

theorem halfEven_lt_iff (hn : n % 2 = 0) : halfEven x < n ↔ x < n - 1 / 2 := by
  have hle := Int.floor_le x
  have hlt := Int.lt_floor_add_one x
  simp only [halfEven]
  constructor
  · intro h
    split at h
    · next hdown =>
        rcases hdown with hdown | ⟨htie, heven⟩
        · have hstep : (⌊x⌋ : ℚ) + 1 ≤ n := by exact_mod_cast h
          linarith
        · have hstep : ⌊x⌋ + 2 ≤ n := by omega
          have hstep : (⌊x⌋ : ℚ) + 2 ≤ n := by exact_mod_cast hstep
          linarith
    · next hup =>
        have hstep : (⌊x⌋ : ℚ) + 2 ≤ n := by exact_mod_cast (by omega : ⌊x⌋ + 2 ≤ n)
        linarith
  · intro h
    have hfloor : ⌊x⌋ < n := Int.floor_lt.mpr (by linarith)
    split
    · exact hfloor
    · next hup =>
        by_contra hlast
        have hsame : ⌊x⌋ = n - 1 := by omega
        apply hup
        left
        rw [hsame]
        push_cast
        linarith

/-- The exponent of the last place: gradual underflow below the least normal number. -/
def lastPlace (q : ℚ) : ℤ := max (Int.log 2 q - 52) (-1074)

/-- The value nearest to a non-negative rational, ties to the even significand. -/
def rounded (q : ℚ) : ℚ := halfEven (q / 2 ^ lastPlace q) * 2 ^ lastPlace q

theorem unit_pos (q : ℚ) : (0 : ℚ) < 2 ^ lastPlace q := by positivity

theorem pow_eq_units (hk : lastPlace q ≤ k) : ∃ d : ℕ, k = lastPlace q + d ∧
    (2 : ℚ) ^ k = ((2 ^ d : ℤ) : ℚ) * 2 ^ lastPlace q := by
  obtain ⟨d, hd⟩ := Int.le.dest hk
  refine ⟨d, hd.symm, ?_⟩
  rw [← hd, zpow_add₀ two_ne_zero, zpow_natCast]
  push_cast
  ring

theorem le_round (h : (2 : ℚ) ^ k ≤ q) (hk : lastPlace q ≤ k) : (2 : ℚ) ^ k ≤ rounded q := by
  obtain ⟨d, -, hpow⟩ := pow_eq_units hk
  rw [rounded, hpow]
  apply mul_le_mul_of_nonneg_right _ (unit_pos q).le
  exact_mod_cast le_halfEven ((le_div_iff₀ (unit_pos q)).mpr (hpow ▸ h))

theorem rounded_le (h : q ≤ (2 : ℚ) ^ k) (hk : lastPlace q ≤ k) : rounded q ≤ (2 : ℚ) ^ k := by
  obtain ⟨d, -, hpow⟩ := pow_eq_units hk
  rw [rounded, hpow]
  apply mul_le_mul_of_nonneg_right _ (unit_pos q).le
  exact_mod_cast halfEven_le ((div_le_iff₀ (unit_pos q)).mpr (hpow ▸ h))

theorem sub_unit_lt_rounded (q : ℚ) : q - 2 ^ lastPlace q < rounded q := by
  have hfloor : (⌊q / 2 ^ lastPlace q⌋ : ℚ) ≤ halfEven (q / 2 ^ lastPlace q) := by
    exact_mod_cast le_halfEven (Int.floor_le _)
  have hlt : q / 2 ^ lastPlace q - 1 < halfEven (q / 2 ^ lastPlace q) := by
    have hnext := Int.lt_floor_add_one (q / 2 ^ lastPlace q)
    linarith
  have hunit := unit_pos q
  have hscaled := mul_lt_mul_of_pos_right hlt hunit
  rwa [sub_mul, div_mul_cancel₀ _ hunit.ne', one_mul] at hscaled

theorem rounded_zero : rounded 0 = 0 := by
  rw [rounded, zero_div, ← Int.cast_zero, halfEven_intCast, Int.cast_zero, zero_mul]

theorem rounded_nonneg (hq : 0 ≤ q) : 0 ≤ rounded q := by
  apply mul_nonneg _ (unit_pos q).le
  have h : (0 : ℤ) ≤ halfEven (q / 2 ^ lastPlace q) := le_halfEven (by
    rw [Int.cast_zero]
    exact div_nonneg hq (unit_pos q).le)
  exact_mod_cast h

theorem rounded_lt_iff (hq : 0 ≤ q) (hk : -1021 ≤ k) : rounded q < (2 : ℚ) ^ k ↔ q < (2 : ℚ) ^ k - 2 ^ (k - 54) := by
  rcases hq.eq_or_lt with rfl | hpos
  · rw [rounded_zero]
    apply iff_of_true (by positivity)
    apply sub_pos.mpr
    exact zpow_lt_zpow_right₀ one_lt_two (by omega)
  have hlog := Int.zpow_log_le_self (R := ℚ) one_lt_two hpos
  have hlog' := Int.lt_zpow_succ_log_self (R := ℚ) one_lt_two q
  push_cast at hlog hlog'
  have hhalf : (0 : ℚ) < 2 ^ (k - 54) := by positivity
  by_cases hlarge : k ≤ Int.log 2 q
  · have hk' : (2 : ℚ) ^ k ≤ 2 ^ Int.log 2 q := zpow_le_zpow_right₀ one_le_two hlarge
    have hround : (2 : ℚ) ^ Int.log 2 q ≤ rounded q := le_round hlog (by rw [lastPlace]; omega)
    apply iff_of_false
    · linarith
    · linarith
  by_cases hnext : Int.log 2 q = k - 1
  · have hplace : lastPlace q = k - 53 := by
      rw [lastPlace, hnext]
      omega
    have hunit := unit_pos q
    have hpow : (2 : ℚ) ^ k = ((2 ^ 53 : ℤ) : ℚ) * 2 ^ lastPlace q := by
      rw [hplace, zpow_sub₀ two_ne_zero]
      norm_num
      ring
    have hstep : (2 : ℚ) ^ (k - 54) = 1 / 2 * 2 ^ lastPlace q := by
      rw [hplace, zpow_sub₀ two_ne_zero, zpow_sub₀ two_ne_zero]
      norm_num
      ring
    rw [rounded, hpow, hstep, ← sub_mul, mul_lt_mul_iff_left₀ hunit, Int.cast_lt, halfEven_lt_iff (by norm_num),
      div_lt_iff₀ hunit]
  · have hsmall : Int.log 2 q + 1 ≤ k - 1 := by omega
    have hle : (2 : ℚ) ^ (Int.log 2 q + 1) ≤ 2 ^ (k - 1) := zpow_le_zpow_right₀ one_le_two hsmall
    have hdouble : (2 : ℚ) ^ k = 2 * 2 ^ (k - 1) := by
      rw [zpow_sub₀ two_ne_zero, zpow_one]
      ring
    have hround : rounded q ≤ (2 : ℚ) ^ (k - 1) := rounded_le (by linarith) (by rw [lastPlace]; omega)
    have hpos' : (0 : ℚ) < 2 ^ (k - 1) := by positivity
    have hgap : (2 : ℚ) ^ (k - 54) ≤ 2 ^ (k - 1) := zpow_le_zpow_right₀ one_le_two (by omega)
    apply iff_of_true
    · linarith
    · linarith

theorem rounded_of_bits {m : ℕ} {e : ℤ} (hm : m < 2 ^ 53) (he : -1074 ≤ e) : rounded (m * 2 ^ e) = m * 2 ^ e := by
  rcases Nat.eq_zero_or_pos m with rfl | hpos
  · rw [Nat.cast_zero, zero_mul, rounded_zero]
  have hq : (0 : ℚ) < m * 2 ^ e := by positivity
  have hplace : lastPlace (m * 2 ^ e) ≤ e := by
    have hlt : (m * 2 ^ e : ℚ) < 2 ^ (53 + e) := by
      rw [zpow_add₀ two_ne_zero]
      apply mul_lt_mul_of_pos_right _ (by positivity)
      exact_mod_cast hm
    have hlog : Int.log 2 (m * 2 ^ e : ℚ) < 53 + e := by
      apply (Int.lt_zpow_iff_log_lt one_lt_two hq).mp
      exact_mod_cast hlt
    rw [lastPlace]
    omega
  obtain ⟨d, -, hpow⟩ := pow_eq_units hplace
  have hunit := (unit_pos (m * 2 ^ e : ℚ)).ne'
  rw [rounded]
  generalize (2 : ℚ) ^ lastPlace (m * 2 ^ e) = unit at hpow hunit ⊢
  have hwhole : (m * 2 ^ e : ℚ) / unit = ((m * 2 ^ d : ℤ) : ℚ) := by
    rw [div_eq_iff hunit, hpow]
    push_cast
    ring
  rw [hwhole, halfEven_intCast, hpow]
  push_cast
  ring

theorem rounded_mul_pow (hq : 0 ≤ q) (j : ℕ) : rounded (rounded q * 2 ^ j) = rounded q * 2 ^ j := by
  rcases hq.eq_or_lt with rfl | hpos
  · rw [rounded_zero, zero_mul, rounded_zero]
  have hbits : q / 2 ^ lastPlace q ≤ ((2 ^ 53 : ℤ) : ℚ) := by
    have hlog := Int.lt_zpow_succ_log_self (R := ℚ) one_lt_two q
    push_cast at hlog
    rw [div_le_iff₀ (unit_pos q)]
    calc q ≤ (2 : ℚ) ^ (Int.log 2 q + 1) := hlog.le
      _ ≤ 2 ^ (53 + lastPlace q) := zpow_le_zpow_right₀ one_le_two (by rw [lastPlace]; omega)
      _ = ((2 ^ 53 : ℤ) : ℚ) * 2 ^ lastPlace q := by
        rw [zpow_add₀ two_ne_zero]
        norm_num
  have hle := halfEven_le hbits
  have hnonneg : 0 ≤ halfEven (q / 2 ^ lastPlace q) := le_halfEven (by
    rw [Int.cast_zero]
    exact div_nonneg hq (unit_pos q).le)
  have hplace : -1074 ≤ lastPlace q := le_max_right _ _
  obtain ⟨m, hm⟩ := Int.eq_ofNat_of_zero_le hnonneg
  have hscale : rounded q * 2 ^ j = m * 2 ^ (lastPlace q + j) := by
    rw [rounded, hm, zpow_add₀ two_ne_zero, zpow_natCast]
    push_cast
    ring
  rw [hscale]
  rcases (by omega : m < 2 ^ 53 ∨ m = 2 ^ 53) with hlt | rfl
  · exact rounded_of_bits hlt (by omega)
  · have hshift : ((2 ^ 53 : ℕ) : ℚ) * 2 ^ (lastPlace q + j) = ((2 ^ 52 : ℕ) : ℚ) * 2 ^ (lastPlace q + j + 1) := by
      rw [zpow_add_one₀ two_ne_zero]
      push_cast
      ring
    rw [hshift]
    exact rounded_of_bits (by norm_num) (by omega)

/-- The value nearest to a rational; overflow is out of its range. -/
def nearest (q : ℚ) : ℚ := if q < 0 then -rounded (-q) else rounded q

theorem nearest_zero : nearest 0 = 0 := by
  rw [nearest, if_neg (lt_irrefl 0), rounded_zero]

theorem nearest_neg (q : ℚ) : nearest (-q) = -nearest q := by
  rcases lt_trichotomy q 0 with h | rfl | h
  · rw [nearest, nearest, if_pos h, if_neg (by linarith), neg_neg]
  · rw [neg_zero, nearest_zero, neg_zero]
  · rw [nearest, nearest, if_pos (by linarith), if_neg (by linarith), neg_neg]

structure Accumulator where
  total : ℚ
  lost : ℚ

def Accumulator.add (acc : Accumulator) (x : ℚ) : Accumulator :=
  let total := nearest (acc.total + x)
  { total
    lost := nearest (acc.lost + (
      if |acc.total| ≥ |x| then nearest (nearest (acc.total - total) + x)
      else nearest (nearest (x - total) + acc.total))) }

/-- CPython's `sum` of floating-point numbers. -/
def sum : List ℚ → ℚ
  | [] => 0
  | x :: xs =>
    let acc := xs.foldl Accumulator.add ⟨x, 0⟩
    if acc.lost = 0 then acc.total else nearest (acc.total + acc.lost)

def Exact (xs : List ℚ) : Prop := ∀ ys ∈ xs.sublists, nearest ys.sum = ys.sum

instance (xs : List ℚ) : Decidable (Exact xs) := inferInstanceAs (Decidable (∀ ys ∈ xs.sublists, _))

section Exact

variable {xs ys : List ℚ}

theorem Exact.sublist (h : Exact xs) (hys : ys.Sublist xs) : Exact ys :=
  fun zs hzs => h zs (List.mem_sublists.mpr ((List.mem_sublists.mp hzs).trans hys))

theorem Exact.nearest_sum (h : Exact xs) : nearest xs.sum = xs.sum :=
  h xs (List.mem_sublists.mpr (List.Sublist.refl xs))

theorem Exact.add (h : Exact (xs ++ [x])) : Accumulator.add ⟨xs.sum, 0⟩ x = ⟨(xs ++ [x]).sum, 0⟩ := by
  have hx : nearest x = x := by
    simpa using (h.sublist (List.sublist_append_right xs [x])).nearest_sum
  have hxs : nearest xs.sum = xs.sum := (h.sublist (List.sublist_append_left xs [x])).nearest_sum
  have htotal : nearest (xs.sum + x) = xs.sum + x := by
    simpa using h.nearest_sum
  have hfirst : nearest (xs.sum - (xs.sum + x)) = -x := by rw [sub_add_cancel_left, nearest_neg, hx]
  have hsecond : nearest (x - (xs.sum + x)) = -xs.sum := by rw [sub_add_cancel_right, nearest_neg, hxs]
  simp only [Accumulator.add, htotal, hfirst, hsecond, neg_add_cancel, nearest_zero, ite_self, add_zero,
    List.sum_append, List.sum_singleton]

theorem Exact.foldl (h : Exact (xs ++ ys)) : ys.foldl Accumulator.add ⟨xs.sum, 0⟩ = ⟨(xs ++ ys).sum, 0⟩ := by
  induction ys generalizing xs with
  | nil => rw [List.append_nil, List.foldl_nil]
  | cons y ys ih =>
      rw [List.append_cons] at h ⊢
      rw [List.foldl_cons, (h.sublist (List.sublist_append_left _ ys)).add, ih h]

theorem Exact.sum (h : Exact xs) : Binary64.sum xs = xs.sum := by
  cases xs with
  | nil => rfl
  | cons x xs =>
      have hfold : xs.foldl Accumulator.add ⟨[x].sum, 0⟩ = ⟨([x] ++ xs).sum, 0⟩ := Exact.foldl h
      rw [List.sum_singleton, List.singleton_append] at hfold
      simp only [Binary64.sum, hfold, if_true]

end Exact

inductive Value
  | finite (q : ℚ)
  | infinite (negative : Bool)
  | nan
deriving DecidableEq

namespace Value

def ofRat (q : ℚ) : Value :=
  if (2 : ℚ) ^ 1024 ≤ rounded |q| then .infinite (q < 0) else .finite (if q < 0 then -rounded |q| else rounded |q|)

def scale (v : Value) (n : ℕ) : Value :=
  match v with
  | .finite q => ofRat (q * n)
  | v => v

/-- The whole number towards zero; there is none for what is not finite. -/
def toInt : Value → Option ℤ
  | .finite q => some (if 0 ≤ q then ⌊q⌋ else ⌈q⌉)
  | _ => none

def floor : Value → Value
  | .finite q => .finite ⌊q⌋
  | v => v

end Value

open Value

theorem ofRat_of_lt (hq : 0 ≤ q) (h : rounded q < 2 ^ 1024) : ofRat q = .finite (rounded q) := by
  rw [ofRat, abs_of_nonneg hq, if_neg (not_le.mpr h), if_neg (not_lt.mpr hq)]

theorem ofRat_of_le (hq : 0 ≤ q) (h : 2 ^ 1024 ≤ rounded q) : ofRat q = .infinite false := by
  rw [ofRat, abs_of_nonneg hq, if_pos h, decide_eq_false (not_lt.mpr hq)]

theorem scale_ofRat_of_lt {j : ℕ} (hq : 0 ≤ q) (h : rounded q * 2 ^ j < 2 ^ 1024) :
    (ofRat q).scale (2 ^ j) = .finite (rounded q * 2 ^ j) := by
  have hround := rounded_nonneg hq
  have hone : (1 : ℚ) ≤ 2 ^ j := one_le_pow₀ one_le_two
  have hlt : rounded q < 2 ^ 1024 := lt_of_le_of_lt (le_mul_of_one_le_right hround hone) h
  rw [ofRat_of_lt hq hlt, scale, Nat.cast_pow, Nat.cast_ofNat, ofRat_of_lt (by positivity), rounded_mul_pow hq]
  rw [rounded_mul_pow hq]
  exact h

theorem scale_ofRat_of_le {j : ℕ} (hq : 0 ≤ q) (h : 2 ^ 1024 ≤ rounded q * 2 ^ j) :
    (ofRat q).scale (2 ^ j) = .infinite false := by
  have hround := rounded_nonneg hq
  by_cases hlt : rounded q < 2 ^ 1024
  · rw [ofRat_of_lt hq hlt, scale, Nat.cast_pow, Nat.cast_ofNat, ofRat_of_le (by positivity)]
    rw [rounded_mul_pow hq]
    exact h
  · rw [ofRat_of_le hq (not_lt.mp hlt), scale]
    rintro q' ⟨⟩

theorem toInt_finite (hq : 0 ≤ q) : (Value.finite q).toInt = some ⌊q⌋ := by
  rw [toInt, if_pos hq]

/-- In binary units a scaled value stays finite just where the number lies below
the greatest value of the unit by half a last place. -/
theorem scaled_lt_iff (hq : 0 ≤ q) {j : ℕ} (hj : j ≤ 1024) :
    rounded q * 2 ^ j < 2 ^ 1024 ↔ q < 2 ^ (1024 - j) - (2 : ℚ) ^ (970 - (j : ℤ)) := by
  have hsplit : (2 : ℚ) ^ 1024 = 2 ^ (1024 - j) * 2 ^ j := by
    rw [← pow_add, Nat.sub_add_cancel hj]
  have hexponent : (2 : ℚ) ^ (1024 - j) = 2 ^ (1024 - (j : ℤ)) := by
    rw [← zpow_natCast, Nat.cast_sub hj]
    rfl
  have hlast : (970 - (j : ℤ)) = 1024 - (j : ℤ) - 54 := by ring
  rw [hsplit, mul_lt_mul_iff_left₀ (by positivity), hexponent, hlast]
  exact rounded_lt_iff hq (by omega)

end NukeLab.Binary64
