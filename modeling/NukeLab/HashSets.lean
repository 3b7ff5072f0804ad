import Mathlib.Data.List.Basic

namespace NukeLab.HashSets

variable {α : Type} [DecidableEq α]

def scan : List (Option α) → Nat → Option (Nat × α)
  | [], _ => none
  | none :: slots, i => scan slots (i + 1)
  | some a :: _, i => some (i, a)

omit [DecidableEq α] in
theorem scan_eq_some {slots : List (Option α)} {start i : Nat} {a : α} (h : scan slots start = some (i, a)) :
    ∃ k, i = start + k ∧ slots[k]? = some (some a) ∧ ∀ j b, j < k → slots[j]? ≠ some (some b) := by
  induction slots generalizing start with
  | nil => exact nomatch h
  | cons slot slots ih =>
      cases slot with
      | none =>
          obtain ⟨k, rfl, hk, hfirst⟩ := ih h
          refine ⟨k + 1, by omega, hk, fun j b hj => ?_⟩
          cases j with
          | zero => simp
          | succ j => exact hfirst j b (by omega)
      | some b =>
          cases h
          exact ⟨0, rfl, rfl, fun j b hj => absurd hj (Nat.not_lt_zero j)⟩

omit [DecidableEq α] in
theorem scan_eq_none {slots : List (Option α)} {start : Nat} (h : scan slots start = none) (k : Nat) (a : α) :
    slots[k]? ≠ some (some a) := by
  induction slots generalizing start k with
  | nil => simp
  | cons slot slots ih =>
      cases slot with
      | none =>
          cases k with
          | zero => simp
          | succ k => exact ih h k
      | some b => exact nomatch h

/-- A set as a hash table: a walk meets its members in the order of their slots. -/
structure HashSet (α : Type) where
  slots : List (Option α)
  once : ∀ (i j : Nat) (a : α), slots[i]? = some (some a) → slots[j]? = some (some a) → i = j

namespace HashSet

instance : Membership α (HashSet α) where
  mem s a := ∃ i : Nat, s.slots[i]? = some (some a)

instance (a : α) (s : HashSet α) : Decidable (a ∈ s) :=
  decidable_of_iff (some a ∈ s.slots) List.mem_iff_getElem?

def empty : HashSet α where
  slots := []
  once _ _ _ h := by simp at h

def size (s : HashSet α) : Nat := s.slots.countP Option.isSome

omit [DecidableEq α] in
theorem mem_def {s : HashSet α} {a : α} : a ∈ s ↔ ∃ i : Nat, s.slots[i]? = some (some a) := Iff.rfl

/-- The slot of a member that goes is left behind empty. -/
def discard (s : HashSet α) (a : α) : HashSet α where
  slots := s.slots.map fun slot => if slot = some a then none else slot
  once i j b hi hj := by
    simp only [List.getElem?_map, Option.map_eq_some_iff] at hi hj
    obtain ⟨slot, hi, hb⟩ := hi
    obtain ⟨slot', hj, hb'⟩ := hj
    split at hb
    · exact nomatch hb
    · split at hb'
      · exact nomatch hb'
      · exact s.once i j b (hb ▸ hi) (hb' ▸ hj)

theorem slot_discard {s : HashSet α} {a b : α} {i : Nat} :
    (s.discard a).slots[i]? = some (some b) ↔ s.slots[i]? = some (some b) ∧ b ≠ a := by
  simp only [discard, List.getElem?_map, Option.map_eq_some_iff]
  constructor
  · rintro ⟨slot, hslot, hb⟩
    split at hb
    · exact nomatch hb
    · rename_i hne
      subst hb
      exact ⟨hslot, fun h => hne (congrArg some h)⟩
  · rintro ⟨hslot, hne⟩
    exact ⟨some b, hslot, if_neg fun h => hne (Option.some.inj h)⟩

theorem mem_discard {s : HashSet α} {a b : α} : b ∈ s.discard a ↔ b ∈ s ∧ b ≠ a := by
  simp only [mem_def, slot_discard, exists_and_right]

end HashSet

/-- Where the interpreter puts new members: the hash decides, and a table that
has grown too full is built anew. -/
structure Placing (α : Type) [DecidableEq α] where
  place : HashSet α → α → HashSet α
  mem_place : ∀ s a b, b ∈ place s a ↔ b = a ∨ b ∈ s

namespace HashSet

def add (placing : Placing α) (s : HashSet α) (a : α) : HashSet α := if a ∈ s then s else placing.place s a

theorem mem_add {placing : Placing α} {s : HashSet α} {a b : α} : b ∈ s.add placing a ↔ b = a ∨ b ∈ s := by
  by_cases h : a ∈ s
  · rw [add, if_pos h]
    exact ⟨.inr, fun hb => hb.elim (fun hb => hb ▸ h) id⟩
  · rw [add, if_neg h]
    exact placing.mem_place s a b

omit [DecidableEq α] in
theorem slot_append {slots : List (Option α)} {a b : α} {i : Nat} :
    (slots ++ [some a])[i]? = some (some b) ↔ slots[i]? = some (some b) ∨ i = slots.length ∧ b = a := by
  rcases Nat.lt_trichotomy i slots.length with hi | rfl | hi
  · simp [List.getElem?_append_left hi, Nat.ne_of_lt hi]
  · simp [eq_comm]
  · rw [List.getElem?_eq_none (by simp; omega), List.getElem?_eq_none (by omega)]
    simp [Nat.ne_of_gt hi]

def append (s : HashSet α) (a : α) : HashSet α :=
  if h : a ∈ s then s
  else
    { slots := s.slots ++ [some a]
      once := fun i j b hi hj => by
        rcases slot_append.mp hi with hi | ⟨rfl, rfl⟩ <;> rcases slot_append.mp hj with hj | ⟨rfl, hb⟩
        · exact s.once i j b hi hj
        · exact absurd ⟨i, hb ▸ hi⟩ h
        · exact absurd ⟨j, hj⟩ h
        · rfl }

theorem mem_append {s : HashSet α} {a b : α} : b ∈ s.append a ↔ b = a ∨ b ∈ s := by
  by_cases h : a ∈ s
  · rw [append, dif_pos h]
    exact ⟨.inr, fun hb => hb.elim (fun hb => hb ▸ h) id⟩
  · rw [append, dif_neg h]
    simp only [mem_def, slot_append, exists_or, exists_eq_left, or_comm]

def next (s : HashSet α) (pos : Nat) : Option (Nat × α) := scan (s.slots.drop pos) pos

omit [DecidableEq α] in
theorem size_ne_zero {s : HashSet α} {a : α} (h : a ∈ s) : s.size ≠ 0 := by
  obtain ⟨i, hi⟩ := h
  have hpos : 0 < s.size := List.countP_pos_iff.mpr ⟨some a, List.mem_of_getElem? hi, rfl⟩
  exact Nat.ne_of_gt hpos

omit [DecidableEq α] in
theorem next_eq_some {s : HashSet α} {pos i : Nat} {a : α} (h : s.next pos = some (i, a)) :
    pos ≤ i ∧ s.slots[i]? = some (some a) ∧ ∀ j b, pos ≤ j → s.slots[j]? = some (some b) → i ≤ j := by
  obtain ⟨k, rfl, hk, hfirst⟩ := scan_eq_some h
  refine ⟨Nat.le_add_right pos k, by rwa [List.getElem?_drop] at hk, fun j b hj hslot => ?_⟩
  by_contra hlt
  refine hfirst (j - pos) b (by omega) ?_
  rw [List.getElem?_drop, show pos + (j - pos) = j by omega]
  exact hslot

omit [DecidableEq α] in
theorem next_eq_none {s : HashSet α} {pos j : Nat} {a : α} (h : s.next pos = none) (hj : pos ≤ j) :
    s.slots[j]? ≠ some (some a) := by
  have := scan_eq_none h (j - pos) a
  rwa [List.getElem?_drop, show pos + (j - pos) = j by omega] at this

end HashSet

def Placing.last : Placing α := ⟨HashSet.append, fun _ _ _ => HashSet.mem_append⟩

end NukeLab.HashSets
