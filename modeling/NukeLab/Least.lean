import Mathlib.Order.Bounds.Basic
import Mathlib.Order.MinMax
import Mathlib.Order.WithBot
import Mathlib.Data.List.Basic

namespace NukeLab.Least

variable {α : Type} [LinearOrder α]

def least (l : List (WithTop α)) : WithTop α := l.foldl min ⊤

variable {l : List (WithTop α)} {start x : WithTop α} {a : α}

theorem le_foldl_min : x ≤ l.foldl min start ↔ x ≤ start ∧ ∀ y ∈ l, x ≤ y := by
  induction l generalizing start with
  | nil => simp
  | cons y l ih =>
      rw [List.foldl_cons, ih, le_min_iff, List.forall_mem_cons, and_assoc]

theorem foldl_min_mem (l : List (WithTop α)) (start : WithTop α) : l.foldl min start ∈ start :: l := by
  induction l generalizing start with
  | nil => exact List.mem_cons_self
  | cons y l ih =>
      rw [List.foldl_cons]
      rcases List.mem_cons.mp (ih (min start y)) with h | h
      · rw [h]
        rcases min_choice start y with hmin | hmin
        · simp [hmin]
        · simp [hmin]
      · simp [h]

theorem le_least : x ≤ least l ↔ ∀ y ∈ l, x ≤ y := by
  rw [least, le_foldl_min, and_iff_right le_top]

theorem least_eq_coe_iff : least l = a ↔ IsLeast {b : α | (b : WithTop α) ∈ l} a := by
  constructor
  · intro h
    have hmem := foldl_min_mem l ⊤
    rw [← least, h] at hmem
    refine ⟨List.mem_of_ne_of_mem (WithTop.coe_ne_top) hmem, ?_⟩
    intro b hb
    have hle := le_least.mp h.ge b hb
    exact WithTop.coe_le_coe.mp hle
  · rintro ⟨hmem, hlower⟩
    apply le_antisymm
    · exact le_least.mp (le_refl (least l)) a hmem
    · apply le_least.mpr
      intro y hy
      cases y with
      | top => exact le_top
      | coe b => exact WithTop.coe_le_coe.mpr (hlower hy)

end NukeLab.Least
