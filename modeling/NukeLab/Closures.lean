import Mathlib.Data.Finset.Card
import Mathlib.Data.Finset.Union
import Mathlib.Order.Bounds.Basic

namespace NukeLab.Closures

/-- What each element brings along, all of it from a finite range. -/
structure Table (α : Type) where
  implied : α → Finset α
  range : Finset α
  implied_subset : ∀ a, implied a ⊆ range

variable {α : Type} [DecidableEq α] (table : Table α)

def Closed (s : Set α) : Prop := ∀ a ∈ s, ∀ b ∈ table.implied a, b ∈ s

def pass (result : Finset α) : Finset α := result ∪ result.biUnion table.implied

variable {table} {s t : Finset α} {a b : α}

theorem mem_pass : b ∈ pass table s ↔ b ∈ s ∨ ∃ a ∈ s, b ∈ table.implied a := by
  simp [pass]

theorem subset_pass (s : Finset α) : s ⊆ pass table s := Finset.subset_union_left

theorem pass_eq_iff : pass table s = s ↔ Closed table (s : Set α) := by
  constructor
  · intro h a ha b hb
    rw [← h]
    exact mem_pass.mpr (Or.inr ⟨a, ha, hb⟩)
  · intro h
    apply Finset.Subset.antisymm _ (subset_pass s)
    intro b hb
    rcases mem_pass.mp hb with hb | ⟨a, ha, hb⟩
    · exact hb
    · exact h a ha b hb

theorem card_pass_lt (h : pass table s ≠ s) : (table.range \ pass table s).card < (table.range \ s).card := by
  apply Finset.card_lt_card
  obtain ⟨b, hb, hnew⟩ : ∃ b ∈ pass table s, b ∉ s := by
    by_contra hnone
    push Not at hnone
    exact h (Finset.Subset.antisymm hnone (subset_pass s))
  have hrange : b ∈ table.range := by
    rcases mem_pass.mp hb with hb | ⟨a, -, hb⟩
    · exact absurd hb hnew
    · exact table.implied_subset a hb
  refine Finset.ssubset_iff_of_subset (Finset.sdiff_subset_sdiff (Finset.Subset.refl _) (subset_pass s)) |>.mpr ?_
  exact ⟨b, Finset.mem_sdiff.mpr ⟨hrange, hnew⟩, fun hmem => (Finset.mem_sdiff.mp hmem).2 hb⟩

variable (table) in
def expand (result : Finset α) : Finset α :=
  if pass table result = result then result else expand (pass table result)
termination_by (table.range \ result).card
decreasing_by exact card_pass_lt ‹_›

theorem subset_expand (s : Finset α) : s ⊆ expand table s := by
  fun_induction expand table s with
  | case1 s h => exact Finset.Subset.refl s
  | case2 s h ih => exact (subset_pass s).trans ih

theorem closed_expand (s : Finset α) : Closed table (expand table s : Set α) := by
  fun_induction expand table s with
  | case1 s h => exact pass_eq_iff.mp h
  | case2 s h ih => exact ih

theorem expand_subset {u : Set α} (hu : Closed table u) (h : (s : Set α) ⊆ u) : (expand table s : Set α) ⊆ u := by
  fun_induction expand table s with
  | case1 s hs => exact h
  | case2 s hs ih =>
      apply ih
      intro b hb
      rcases mem_pass.mp hb with hb | ⟨a, ha, hb⟩
      · exact h hb
      · exact hu a (h ha) b hb

/-- The expansion is the least closed set with what it starts from. -/
theorem expand_isLeast (s : Finset α) : IsLeast {u : Set α | (s : Set α) ⊆ u ∧ Closed table u} (expand table s : Set α) :=
  ⟨⟨subset_expand s, closed_expand s⟩, fun _ hu => expand_subset hu.2 hu.1⟩

theorem expand_mono (h : s ⊆ t) : expand table s ⊆ expand table t :=
  expand_subset (closed_expand t) (h.trans (subset_expand t))

theorem expand_expand (s : Finset α) : expand table (expand table s) = expand table s :=
  Finset.Subset.antisymm (expand_subset (closed_expand s) (Finset.Subset.refl _)) (subset_expand _)

end NukeLab.Closures
