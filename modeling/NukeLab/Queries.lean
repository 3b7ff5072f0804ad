import Mathlib.Data.List.Basic
import NukeLab.State

namespace NukeLab.Queries

inductive QueryError
  | multipleResultsFound

/-- The row of a query that may find at most one. -/
def scalarOneOrNone {α : Type} {m : Type → Type} [Monad m] [MonadExcept QueryError m] : List α → m (Option α)
  | [] => pure none
  | [row] => pure (some row)
  | _ => throw .multipleResultsFound

def oneOrNone {α : Type} (rows : List α) : Except State.Raise (Option α) :=
  (scalarOneOrNone rows : Except QueryError (Option α)).mapError fun _ => .exception "MultipleResultsFound"

def page {α : Type} (number limit : Nat) (rows : List α) : List α := (rows.drop ((number - 1) * limit)).take limit

variable {α : Type} {rows : List α}

theorem empty_or_single (h : rows.length ≤ 1) : rows = [] ∨ ∃ row, rows = [row] := by
  rcases rows with _ | ⟨row, _ | ⟨other, rest⟩⟩
  · exact .inl rfl
  · exact .inr ⟨row, rfl⟩
  · simp at h

theorem oneOrNone_many (h : 2 ≤ rows.length) : oneOrNone rows = .error (.exception "MultipleResultsFound") := by
  rcases rows with _ | ⟨row, _ | ⟨other, rest⟩⟩
  · simp at h
  · simp at h
  · rfl

theorem mem_page_iff {a : α} {limit : Nat} (hlimit : 0 < limit) :
    (∃ number ≥ 1, a ∈ page number limit rows) ↔ a ∈ rows := by
  constructor
  · rintro ⟨_, _, h⟩
    exact List.mem_of_mem_drop (List.mem_of_mem_take h)
  · intro h
    obtain ⟨i, hi, rfl⟩ := List.mem_iff_getElem.mp h
    refine ⟨i / limit + 1, Nat.le_add_left 1 _, List.mem_iff_getElem.mpr ⟨i % limit, ?_, ?_⟩⟩
    · have hmod := Nat.mod_lt i hlimit
      have hdiv := Nat.div_add_mod' i limit
      simp only [page, Nat.add_sub_cancel, List.length_take, List.length_drop]
      omega
    · have hdiv := Nat.div_add_mod' i limit
      simp only [page, Nat.add_sub_cancel, List.getElem_take, List.getElem_drop]
      congr 1

theorem flatMap_page (k limit : Nat) : (List.range k).flatMap (fun i => page (i + 1) limit rows) = rows.take (k * limit) := by
  induction k with
  | zero => rw [Nat.zero_mul, List.take_zero, List.range_zero, List.flatMap_nil]
  | succ k ih =>
      rw [List.range_succ, List.flatMap_append, ih, List.flatMap_singleton, page, Nat.add_sub_cancel, Nat.succ_mul, List.take_add]

section Spacing

variable {stamp : α → Int} {gap : Int} {kind : α → Prop} {n : Nat} {a b : α}

/-- From the row numbered `n` on, a row of the kind comes later than every row of
the kind before it, by more than the gap. -/
def Spaced (stamp : α → Int) (gap : Int) (kind : α → Prop) (n : Nat) (rows : List α) : Prop :=
  ∀ i j a b, i < j → n ≤ j → rows[i]? = some a → rows[j]? = some b → kind a → kind b → stamp a + gap < stamp b

theorem spaced_start (stamp : α → Int) (gap : Int) (kind : α → Prop) (rows : List α) :
    Spaced stamp gap kind rows.length rows := by
  intro i j a b _ hj _ hb
  rw [List.getElem?_eq_none hj] at hb
  cases hb

theorem Spaced.concat (h : Spaced stamp gap kind n rows)
    (hb : kind b → ∀ a ∈ rows, kind a → stamp a + gap < stamp b) : Spaced stamp gap kind n (rows ++ [b]) := by
  intro i j a c hij hn ha hc hkind hkind'
  have hj : j < (rows ++ [b]).length := (List.getElem?_eq_some_iff.mp hc).1
  rw [List.length_append, List.length_singleton] at hj
  have hi : i < rows.length := by omega
  rw [List.getElem?_append_left hi] at ha
  by_cases hlast : j < rows.length
  · rw [List.getElem?_append_left hlast] at hc
    exact h i j a c hij hn ha hc hkind hkind'
  · obtain rfl : j = rows.length := by omega
    rw [List.getElem?_concat_length] at hc
    cases hc
    exact hb hkind' a (List.mem_of_getElem? ha) hkind

theorem Spaced.modify {f : α → α} (h : Spaced stamp gap kind n rows) (hstamp : ∀ a, stamp (f a) = stamp a)
    (hkind : ∀ a, kind (f a) → kind a) (k : Nat) : Spaced stamp gap kind n (rows.modify k f) := by
  have hat (i : Nat) (b : α) (hb : (rows.modify k f)[i]? = some b) :
      ∃ a, rows[i]? = some a ∧ stamp b = stamp a ∧ (kind b → kind a) := by
    rw [List.getElem?_modify] at hb
    obtain ⟨a, ha, rfl⟩ := Option.map_eq_some_iff.mp hb
    refine ⟨a, ha, ?_⟩
    by_cases hk : k = i
    · rw [if_pos hk]
      exact ⟨hstamp a, hkind a⟩
    · rw [if_neg hk]
      exact ⟨rfl, id⟩
  intro i j a b hij hn ha hb hkind hkind'
  obtain ⟨a', ha', hsame, hthen⟩ := hat i a ha
  obtain ⟨b', hb', hsame', hthen'⟩ := hat j b hb
  rw [hsame, hsame']
  exact h i j a' b' hij hn ha' hb' (hthen hkind) (hthen' hkind')

end Spacing

end NukeLab.Queries
