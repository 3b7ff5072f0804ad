import Mathlib.Logic.Function.Basic

namespace NukeLab.ExpiringCounters

variable {κ : Type} [DecidableEq κ]

structure Counter where
  count : Nat
  expiresAt : Int

/-- Counters under keys. One that has expired is as good as none. -/
abbrev Counters (κ : Type) := κ → Option Counter

def live (c : Counters κ) (now : Int) (key : κ) : Option Counter := (c key).filter (now < ·.expiresAt)

/-- Increment, and let the first increment of a key set when it expires: a time
to live that is not positive does away with the key at once. -/
def hit (c : Counters κ) (now ttl : Int) (key : κ) : Nat × Counters κ :=
  match live c now key with
  | some counter => (counter.count + 1, Function.update c key (some { counter with count := counter.count + 1 }))
  | none => (1, Function.update c key (if 0 < ttl then some ⟨1, now + ttl⟩ else none))

/-- The hits so far, and that none of them is forgotten before that time. -/
def Counts (c : Counters κ) (key : κ) (n : Nat) (lasting : Int) : Prop :=
  match c key with
  | none => n = 0
  | some counter => counter.count = n ∧ lasting ≤ counter.expiresAt

variable {c : Counters κ} {key other : κ} {n : Nat} {now ttl lasting : Int}

theorem Counts.hit_of_ne (h : Counts c key n lasting) (hne : key ≠ other) :
    Counts (hit c now ttl other).2 key n lasting := by
  have hsame : (hit c now ttl other).2 key = c key := by
    unfold hit
    split
    · exact Function.update_of_ne hne _ _
    · exact Function.update_of_ne hne _ _
  unfold Counts
  rw [hsame]
  exact h

theorem Counts.hit (h : Counts c key n lasting) (hnow : now < lasting) (httl : lasting ≤ now + ttl) :
    (hit c now ttl key).1 = n + 1 ∧ Counts (ExpiringCounters.hit c now ttl key).2 key (n + 1) lasting := by
  unfold Counts at h
  cases hkey : c key with
  | none =>
      rw [hkey] at h
      have hlive : live c now key = none := by rw [live, hkey, Option.filter_none]
      have hpos : 0 < ttl := by omega
      rw [ExpiringCounters.hit, hlive, if_pos hpos, Counts]
      dsimp only at h ⊢
      rw [Function.update_self, h]
      exact ⟨rfl, rfl, httl⟩
  | some counter =>
      rw [hkey] at h
      obtain ⟨hcount, hexpires⟩ := h
      have hlive : live c now key = some counter := by
        rw [live, hkey]
        exact Option.filter_some_pos (decide_eq_true (Int.lt_of_lt_of_le hnow hexpires))
      rw [ExpiringCounters.hit, hlive, Counts]
      dsimp only
      rw [Function.update_self, hcount]
      exact ⟨rfl, rfl, hexpires⟩

end NukeLab.ExpiringCounters
