import Mathlib.Data.List.Basic

namespace NukeLab.SlidingWindows

def within (start length : Int) (times : List Int) : Nat := times.countP fun t => start ≤ t ∧ t ≤ start + length

def since (start : Int) (times : List Int) : Nat := times.countP fun t => start ≤ t

def Bounded (length : Int) (bound : Nat) (times : List Int) : Prop := ∀ start, within start length times ≤ bound

variable {start start' length now : Int} {bound : Nat} {times : List Int}

theorem within_le_since (h : start' ≤ start) : within start length times ≤ since start' times := by
  apply List.countP_mono_left
  intro t _ ht
  simp only [decide_eq_true_eq] at ht ⊢
  omega

theorem since_mono (h : start' ≤ start) : since start times ≤ since start' times := by
  apply List.countP_mono_left
  intro t _ ht
  simp only [decide_eq_true_eq] at ht ⊢
  omega

theorem since_le_length (start : Int) (times : List Int) : since start times ≤ times.length := List.countP_le_length

theorem since_eq_zero (h : ∀ t ∈ times, t < start) : since start times = 0 := by
  apply List.countP_eq_zero.mpr
  intro t ht
  have hlt := h t ht
  simp only [decide_eq_true_eq]
  omega

theorem since_concat (start : Int) (times times' : List Int) :
    since start (times ++ times') = since start times + since start times' :=
  List.countP_append

theorem since_append : since start (times ++ [now]) = since start times + if start ≤ now then 1 else 0 := by
  simp [since, List.countP_append, List.countP_singleton]

theorem Bounded.mono {length' : Int} (hlength : length' ≤ length) (h : Bounded length bound times) :
    Bounded length' bound times := by
  intro start
  refine Nat.le_trans (List.countP_mono_left fun t _ ht => ?_) (h start)
  simp only [decide_eq_true_eq] at ht ⊢
  omega

theorem bounded_nil : Bounded length bound [] := fun _ => Nat.zero_le _

theorem Bounded.append (h : Bounded length bound times) (hroom : since (now - length) times < bound) :
    Bounded length bound (times ++ [now]) := by
  intro start
  have happend : within start length (times ++ [now]) =
      within start length times + if start ≤ now ∧ now ≤ start + length then 1 else 0 := by
    simp [within, List.countP_append, List.countP_singleton]
  rw [happend]
  split
  next hnow =>
    have hle : within start length times ≤ since (now - length) times := within_le_since (by omega)
    omega
  next => exact h start

end NukeLab.SlidingWindows
