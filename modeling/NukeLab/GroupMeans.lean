import Mathlib.Algebra.BigOperators.Group.List.Basic
import Mathlib.Algebra.BigOperators.Ring.List
import Mathlib.Algebra.Ring.CharZero
import Mathlib.Data.List.Dedup
import Mathlib.Data.List.Perm.Basic
import Mathlib.Tactic.FieldSimp
import Mathlib.Tactic.LinearCombination
import Mathlib.Tactic.Ring

namespace NukeLab.GroupMeans

section Fibers

variable {α κ : Type} [DecidableEq κ] (key : α → κ)

theorem filter_fiber {k k' : κ} (h : k' ≠ k) (as : List α) :
    (as.filter fun a => key a ≠ k).filter (fun a => key a = k') = as.filter fun a => key a = k' := by
  rw [List.filter_filter]
  apply List.filter_congr
  intro a _
  by_cases ha : key a = k'
  · simp [ha, h]
  · simp [ha]

theorem perm_fibers {keys : List κ} (hnodup : keys.Nodup) {as : List α} (hcovers : ∀ a ∈ as, key a ∈ keys) :
    (keys.flatMap fun k => as.filter fun a => key a = k).Perm as := by
  induction keys generalizing as with
  | nil =>
      have hempty : as = [] := List.eq_nil_iff_forall_not_mem.mpr fun a ha => absurd (hcovers a ha) List.not_mem_nil
      subst hempty
      exact List.Perm.refl _
  | cons k keys ih =>
      obtain ⟨hk, hnodup⟩ := List.nodup_cons.mp hnodup
      have hrest : ∀ a ∈ as.filter (fun a => key a ≠ k), key a ∈ keys := by
        intro a ha
        obtain ⟨ha, hne⟩ := List.mem_filter.mp ha
        exact (List.mem_cons.mp (hcovers a ha)).resolve_left (of_decide_eq_true hne)
      have hparts : (keys.flatMap fun k' => (as.filter fun a => key a ≠ k).filter fun a => key a = k') =
          keys.flatMap fun k' => as.filter fun a => key a = k' := by
        apply List.flatMap_congr
        intro k' hk'
        apply filter_fiber key
        rintro rfl
        exact hk hk'
      rw [List.flatMap_cons, ← hparts]
      refine ((List.Perm.append_left _ (ih hnodup hrest))).trans ?_
      simpa using List.filter_append_perm (fun a => decide (key a = k)) as

end Fibers

section Means

variable {K : Type} [Field K] {α : Type}

def mean (values : List K) : K := values.sum / values.length

theorem mean_nil : mean ([] : List K) = 0 := by simp [mean]

theorem mean_perm {values values' : List K} (h : values.Perm values') : mean values = mean values' := by
  rw [mean, mean, h.sum_eq, h.length_eq]

/-- Over all pairs of groups, what one has more of values cancels against what its mean
is larger. -/
def Balanced (groups : List (List K)) : Prop :=
  (groups.map fun g => (groups.map fun h => ((g.length : K) - h.length) * (mean g - mean h)).sum).sum = 0

instance [DecidableEq K] (groups : List (List K)) : Decidable (Balanced groups) := inferInstanceAs (Decidable (_ = _))

theorem sum_map_const (as : List α) (c : K) : (as.map fun _ => c).sum = as.length * c := by
  induction as with
  | nil => simp
  | cons a as ih =>
      rw [List.map_cons, List.sum_cons, ih, List.length_cons, Nat.cast_succ]
      ring

theorem sum_map_sub (as : List α) (f g : α → K) : (as.map fun a => f a - g a).sum = (as.map f).sum - (as.map g).sum := by
  induction as with
  | nil => simp
  | cons a as ih =>
      simp only [List.map_cons, List.sum_cons, ih]
      ring

theorem sum_pairs (as : List α) (n m : α → K) :
    (as.map fun a => (as.map fun b => (n a - n b) * (m a - m b)).sum).sum =
      2 * (as.length * (as.map fun a => n a * m a).sum - (as.map n).sum * (as.map m).sum) := by
  have hinner : ∀ a, (as.map fun b => (n a - n b) * (m a - m b)).sum =
      as.length * (n a * m a) - n a * (as.map m).sum - (m a * (as.map n).sum - (as.map fun b => n b * m b).sum) := by
    intro a
    calc
      (as.map fun b => (n a - n b) * (m a - m b)).sum
        = (as.map fun b => n a * m a - n a * m b - (m a * n b - n b * m b)).sum := by
          congr 2
          funext b
          ring
      _ = as.length * (n a * m a) - n a * (as.map m).sum - (m a * (as.map n).sum - (as.map fun b => n b * m b).sum) := by
          rw [sum_map_sub, sum_map_sub, sum_map_sub, sum_map_const, List.sum_map_mul_left, List.sum_map_mul_left]
  simp only [hinner]
  rw [sum_map_sub, sum_map_sub, sum_map_sub, sum_map_const, List.sum_map_mul_left, List.sum_map_mul_right,
    List.sum_map_mul_right]
  ring

theorem length_flatten (groups : List (List K)) :
    (groups.flatten.length : K) = (groups.map fun g => (g.length : K)).sum := by
  induction groups with
  | nil => simp
  | cons g groups ih =>
      rw [List.flatten_cons, List.length_append, Nat.cast_add, ih, List.map_cons, List.sum_cons]

variable [CharZero K] {groups : List (List K)}

theorem length_mul_mean {g : List K} (h : g ≠ []) : (g.length : K) * mean g = g.sum := by
  have hlength : (g.length : K) ≠ 0 := Nat.cast_ne_zero.mpr (List.length_pos_iff.mpr h).ne'
  rw [mean]
  field_simp

theorem sum_flatten (h : ∀ g ∈ groups, g ≠ []) : groups.flatten.sum = (groups.map fun g => (g.length : K) * mean g).sum := by
  rw [List.sum_flatten]
  congr 1
  apply List.map_congr_left
  intro g hg
  exact (length_mul_mean (h g hg)).symm

theorem flatten_length_ne (h : ∀ g ∈ groups, g ≠ []) (hgroups : groups ≠ []) : (groups.flatten.length : K) ≠ 0 := by
  obtain ⟨g, hg⟩ := List.exists_mem_of_ne_nil groups hgroups
  obtain ⟨a, ha⟩ := List.exists_mem_of_ne_nil g (h g hg)
  exact Nat.cast_ne_zero.mpr (List.length_pos_of_mem (List.mem_flatten.mpr ⟨g, hg, ha⟩)).ne'

/-- The mean of the means is the mean of all, exactly where sizes and means do not
vary together. -/
theorem mean_means_iff (h : ∀ g ∈ groups, g ≠ []) : mean (groups.map mean) = mean groups.flatten ↔ Balanced groups := by
  rcases eq_or_ne groups [] with rfl | hgroups
  · simp [Balanced, mean]
  have hlength : (groups.length : K) ≠ 0 := Nat.cast_ne_zero.mpr (List.length_pos_iff.mpr hgroups).ne'
  have htotal := flatten_length_ne (K := K) h hgroups
  rw [Balanced, sum_pairs groups (fun g => (g.length : K)) mean, mean, mean, List.length_map, div_eq_div_iff hlength htotal,
    sum_flatten h, length_flatten]
  constructor
  · intro heq
    linear_combination -2 * heq
  · intro heq
    have hhalf := (mul_eq_zero.mp heq).resolve_left two_ne_zero
    linear_combination -hhalf

end Means

end NukeLab.GroupMeans
