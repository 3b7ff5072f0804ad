import Mathlib.Algebra.BigOperators.Group.List.Basic
import Mathlib.Algebra.Group.Basic
import Mathlib.Data.List.Nodup
import Mathlib.Tactic.Abel

namespace NukeLab.Tables

variable {κ α M : Type} [DecidableEq κ] {key : α → κ}

/-- A table under a unique key: two rows never share one. -/
structure Table (key : α → κ) where
  rows : List α
  nodup : (rows.map key).Nodup

namespace Table

def empty (key : α → κ) : Table key := ⟨[], List.nodup_nil⟩

def find (t : Table key) (k : κ) : Option α := t.rows.find? fun r => key r = k

def modify (t : Table key) (k : κ) (f : α → α) (hf : ∀ r, key (f r) = key r) : Table key where
  rows := t.rows.map fun r => if key r = k then f r else r
  nodup := by
    have h : ∀ r, key (if key r = k then f r else r) = key r := by
      intro r
      split
      · exact hf r
      · rfl
    simpa only [List.map_map, Function.comp_def, h] using t.nodup

def update (t : Table key) (f : α → α) (hf : ∀ r, key (f r) = key r) : Table key where
  rows := t.rows.map f
  nodup := by simpa only [List.map_map, Function.comp_def, hf] using t.nodup

def filter (t : Table key) (p : α → Bool) : Table key where
  rows := t.rows.filter p
  nodup := t.nodup.sublist (List.filter_sublist.map key)

def erase (t : Table key) (k : κ) : Table key := t.filter fun r => key r ≠ k

/-- A row under a key already taken is refused, and the table stays as it was. -/
def insert (t : Table key) (r : α) : Table key :=
  if h : key r ∈ t.rows.map key then t
  else ⟨t.rows ++ [r], by
    rw [List.map_append, List.map_cons, List.map_nil, List.nodup_append]
    refine ⟨t.nodup, List.nodup_singleton _, ?_⟩
    intro a ha b hb hab
    rw [List.mem_singleton] at hb
    exact h (hb ▸ hab ▸ ha)⟩

def total [AddCommMonoid M] (t : Table key) (w : α → M) : M := (t.rows.map w).sum

theorem mem_of_find {t : Table key} {k : κ} {r : α} (h : t.find k = some r) : r ∈ t.rows :=
  List.mem_of_find?_eq_some h

theorem key_of_find {t : Table key} {k : κ} {r : α} (h : t.find k = some r) : key r = k := by
  have h' := List.find?_some h
  simpa only [decide_eq_true_eq] using h'

theorem find_eq_none_iff {t : Table key} {k : κ} : t.find k = none ↔ ∀ r ∈ t.rows, key r ≠ k := by
  simp only [find, List.find?_eq_none, decide_eq_true_eq, ne_eq]

omit [DecidableEq κ] in
theorem eq_of_mem_of_key {t : Table key} {r s : α} (hr : r ∈ t.rows) (hs : s ∈ t.rows) (h : key r = key s) :
    r = s :=
  List.inj_on_of_nodup_map t.nodup hr hs h

theorem find_of_mem {t : Table key} {r : α} (hr : r ∈ t.rows) : t.find (key r) = some r := by
  cases h : t.find (key r) with
  | none => exact absurd rfl (find_eq_none_iff.mp h r hr)
  | some s => rw [eq_of_mem_of_key (mem_of_find h) hr (key_of_find h)]

theorem filter_key (t : Table key) (k : κ) : (t.rows.filter fun r => key r = k) = (t.find k).toList := by
  obtain ⟨rows, hrows⟩ := t
  unfold find
  dsimp only
  induction rows with
  | nil => rfl
  | cons r rows ih =>
      rw [List.map_cons, List.nodup_cons] at hrows
      by_cases hk : key r = k
      · have hrest : (rows.filter fun r => key r = k) = [] := by
          rw [List.filter_eq_nil_iff]
          intro s hs hsk
          exact hrows.1 (hk.trans (of_decide_eq_true hsk).symm ▸ List.mem_map_of_mem hs)
        simp [hk, hrest]
      · simp [hk, ih hrows.2]

theorem find_modify {t : Table key} (k j : κ) (f : α → α) (hf : ∀ r, key (f r) = key r) :
    (t.modify k f hf).find j = (t.find j).map fun r => if key r = k then f r else r := by
  have h : ∀ r, key (if key r = k then f r else r) = key r := by
    intro r
    split
    · exact hf r
    · rfl
  simp only [find, modify, List.find?_map, Function.comp_def, h]

theorem find_modify_self {t : Table key} {k : κ} {r : α} (f : α → α) (hf : ∀ r, key (f r) = key r)
    (h : t.find k = some r) : (t.modify k f hf).find k = some (f r) := by
  rw [find_modify, h, Option.map_some, if_pos (key_of_find h)]

theorem modify_self {t : Table key} {k : κ} {f : α → α} {hf : ∀ r, key (f r) = key r} (h : ∀ r, f r = r) :
    t.modify k f hf = t := by
  have hrows : (t.rows.map fun r => if key r = k then f r else r) = t.rows := by
    simp only [h, ite_self, List.map_id']
  rw [modify, mk.injEq]
  exact hrows

theorem modify_eq_of_find {t : Table key} {k : κ} {r : α} {f g : α → α} {hf : ∀ r, key (f r) = key r}
    {hg : ∀ r, key (g r) = key r} (h : t.find k = some r) (hfg : f r = g r) : t.modify k f hf = t.modify k g hg := by
  rw [modify, modify, mk.injEq]
  refine List.map_congr_left fun s hs => ?_
  by_cases hk : key s = k
  · obtain rfl := eq_of_mem_of_key hs (mem_of_find h) (hk.trans (key_of_find h).symm)
    rw [if_pos hk, if_pos hk, hfg]
  · rw [if_neg hk, if_neg hk]

theorem find_modify_of_ne {t : Table key} {k j : κ} (f : α → α) (hf : ∀ r, key (f r) = key r) (h : j ≠ k) :
    (t.modify k f hf).find j = t.find j := by
  rw [find_modify]
  cases hj : t.find j with
  | none => rfl
  | some r => rw [Option.map_some, if_neg ((key_of_find hj).trans_ne h)]

theorem mem_modify {t : Table key} {k : κ} {f : α → α} {hf : ∀ r, key (f r) = key r} {r : α} :
    r ∈ (t.modify k f hf).rows ↔ ∃ s ∈ t.rows, (if key s = k then f s else s) = r := by
  simp only [modify, List.mem_map]

theorem map_modify_of_eq {β : Type} {t : Table key} (k : κ) (f : α → α) (hf : ∀ r, key (f r) = key r) {w : α → β}
    (hw : ∀ r ∈ t.rows, w (f r) = w r) : (t.modify k f hf).rows.map w = t.rows.map w := by
  simp only [modify, List.map_map, Function.comp_def]
  refine List.map_congr_left fun r hr => ?_
  split
  · exact hw r hr
  · rfl

theorem map_modify_of_find {β : Type} {t : Table key} {k : κ} {r : α} {f : α → α} {hf : ∀ r, key (f r) = key r}
    {w : α → β} (h : t.find k = some r) (hw : w (f r) = w r) : (t.modify k f hf).rows.map w = t.rows.map w := by
  simp only [modify, List.map_map, Function.comp_def]
  refine List.map_congr_left fun s hs => ?_
  split
  · rename_i hk
    rw [eq_of_mem_of_key hs (mem_of_find h) (hk.trans (key_of_find h).symm), hw]
  · rfl

/-- Rewriting the rows under some keys one after the other, where doing it twice
comes to doing it once. -/
theorem rows_foldl_modify {f : α → α} (hf : ∀ r, key (f r) = key r) (hidem : ∀ r, f (f r) = f r) (ks : List κ)
    (t : Table key) :
    (ks.foldl (fun t k => t.modify k f hf) t).rows = t.rows.map fun r => if key r ∈ ks then f r else r := by
  induction ks generalizing t with
  | nil => simp
  | cons k ks ih =>
      rw [List.foldl_cons, ih, modify, List.map_map]
      refine List.map_congr_left fun r _ => ?_
      by_cases hk : key r = k
      · rw [Function.comp_apply, if_pos hk, hf, hidem, if_pos (List.mem_cons.mpr (Or.inl hk)), ite_self]
      · rw [Function.comp_apply, if_neg hk]
        simp only [List.mem_cons, hk, false_or]

omit [DecidableEq κ] in
theorem mem_keys_filter {t : Table key} {p : α → Bool} {r : α} (hr : r ∈ t.rows) :
    key r ∈ (t.rows.filter p).map key ↔ p r := by
  rw [List.mem_map]
  constructor
  · rintro ⟨s, hs, hk⟩
    obtain ⟨hs, hp⟩ := List.mem_filter.mp hs
    rwa [← eq_of_mem_of_key hs hr hk]
  · exact fun hp => ⟨r, List.mem_filter.mpr ⟨hr, hp⟩, rfl⟩

theorem find_update {t : Table key} (j : κ) (f : α → α) (hf : ∀ r, key (f r) = key r) :
    (t.update f hf).find j = (t.find j).map f := by
  simp only [find, update, List.find?_map, Function.comp_def, hf]

theorem find_filter {t : Table key} (j : κ) (p : α → Bool) : (t.filter p).find j = (t.find j).filter p := by
  cases h : t.find j with
  | none =>
      rw [Option.filter_none, find_eq_none_iff]
      exact fun r hr => find_eq_none_iff.mp h r (List.mem_filter.mp hr).1
  | some r =>
      by_cases hp : p r
      · rw [Option.filter_some_pos hp, ← key_of_find h]
        exact find_of_mem (List.mem_filter.mpr ⟨mem_of_find h, hp⟩)
      · rw [Option.filter_some_neg (Bool.eq_false_iff.mpr hp), find_eq_none_iff]
        intro s hs hk
        obtain ⟨hs, hps⟩ := List.mem_filter.mp hs
        rw [eq_of_mem_of_key hs (mem_of_find h) (hk.trans (key_of_find h).symm)] at hps
        exact hp hps

theorem find_erase_self (t : Table key) (k : κ) : (t.erase k).find k = none := by
  rw [find_eq_none_iff]
  intro r hr
  simpa only [decide_eq_true_eq] using (List.mem_filter.mp hr).2

theorem find_erase_of_ne {t : Table key} {k j : κ} (h : j ≠ k) : (t.erase k).find j = t.find j := by
  simp only [find, erase, filter, List.find?_filter]
  congr 1
  funext r
  by_cases hr : key r = j
  · simp [hr, h]
  · simp [hr]

theorem rows_insert_of_new {t : Table key} {r : α} (h : t.find (key r) = none) :
    (t.insert r).rows = t.rows ++ [r] := by
  have hr : key r ∉ t.rows.map key := by
    rintro hm
    obtain ⟨s, hs, hk⟩ := List.mem_map.mp hm
    exact find_eq_none_iff.mp h s hs hk
  rw [insert, dif_neg hr]

theorem find_insert_self {t : Table key} {r : α} (h : t.find (key r) = none) :
    (t.insert r).find (key r) = some r := by
  rw [find, rows_insert_of_new h, List.find?_append]
  have ht : List.find? (fun s => decide (key s = key r)) t.rows = none := h
  rw [ht, Option.none_or]
  simp only [List.find?_cons_of_pos, decide_true]

theorem find_insert_of_ne {t : Table key} {r : α} {j : κ} (hj : j ≠ key r) :
    (t.insert r).find j = t.find j := by
  by_cases h : t.find (key r) = none
  · rw [find, rows_insert_of_new h, List.find?_append, List.find?_singleton]
    simp only [hj.symm, decide_false, Bool.false_eq_true, if_false, Option.or_none]
    rfl
  · obtain ⟨s, hs⟩ := Option.ne_none_iff_exists'.mp h
    have hm : key r ∈ t.rows.map key := List.mem_map.mpr ⟨s, mem_of_find hs, key_of_find hs⟩
    rw [insert, dif_pos hm]

theorem mem_insert_of_mem {t : Table key} {r s : α} (h : s ∈ t.rows) : s ∈ (t.insert r).rows := by
  unfold insert
  split
  · exact h
  · exact List.mem_append_left _ h

theorem mem_or_eq_of_mem_insert {t : Table key} {r s : α} (h : s ∈ (t.insert r).rows) : s ∈ t.rows ∨ s = r := by
  unfold insert at h
  split at h
  · exact Or.inl h
  · exact (List.mem_append.mp h).imp_right List.mem_singleton.mp

section Total

theorem total_insert [AddCommMonoid M] {t : Table key} {r : α} (w : α → M) (h : t.find (key r) = none) :
    (t.insert r).total w = t.total w + w r := by
  simp only [total, rows_insert_of_new h, List.map_append, List.sum_append, List.map_cons, List.map_nil,
    List.sum_singleton]

theorem sum_map_update [AddCommGroup M] {l : List α} (hl : (l.map key).Nodup) {r : α} (hr : r ∈ l) (f : α → α)
    (w : α → M) :
    (l.map fun s => w (if key s = key r then f s else s)).sum = (l.map w).sum + (w (f r) - w r) := by
  induction l with
  | nil => exact absurd hr List.not_mem_nil
  | cons s l ih =>
      rw [List.map_cons, List.nodup_cons] at hl
      rcases List.mem_cons.mp hr with rfl | hr'
      · have hrest : (l.map fun s => w (if key s = key r then f s else s)) = l.map w := by
          refine List.map_congr_left fun s hs => ?_
          rw [if_neg fun h => hl.1 (List.mem_map.mpr ⟨s, hs, h⟩)]
        simp only [List.map_cons, List.sum_cons, if_true, hrest]
        abel
      · have hne : key s ≠ key r := fun h => hl.1 (List.mem_map.mpr ⟨r, hr', h.symm⟩)
        simp only [List.map_cons, List.sum_cons, if_neg hne, ih hl.2 hr']
        abel

theorem total_modify [AddCommGroup M] {t : Table key} {k : κ} {r : α} (f : α → α) (hf : ∀ r, key (f r) = key r)
    (w : α → M) (h : t.find k = some r) : (t.modify k f hf).total w = t.total w + (w (f r) - w r) := by
  have hk := key_of_find h
  subst hk
  have hs := sum_map_update t.nodup (mem_of_find h) f w
  simpa only [total, modify, List.map_map, Function.comp_def] using hs

theorem total_modify_of_eq [AddCommMonoid M] {t : Table key} (k : κ) (f : α → α) (hf : ∀ r, key (f r) = key r)
    {w : α → M} (hw : ∀ r ∈ t.rows, w (f r) = w r) : (t.modify k f hf).total w = t.total w :=
  congrArg List.sum (map_modify_of_eq k f hf hw)

theorem total_erase [AddCommGroup M] {t : Table key} {k : κ} {r : α} (w : α → M) (h : t.find k = some r) :
    (t.erase k).total w = t.total w - w r := by
  have hk := key_of_find h
  subst hk
  have hr := mem_of_find h
  have hl := t.nodup
  simp only [total, erase, filter]
  generalize t.rows = l at hr hl
  induction l with
  | nil => exact absurd hr List.not_mem_nil
  | cons s l ih =>
      rw [List.map_cons, List.nodup_cons] at hl
      rcases List.mem_cons.mp hr with rfl | hr'
      · have hrest : l.filter (fun s => decide (key s ≠ key r)) = l := by
          refine List.filter_eq_self.mpr fun s hs => ?_
          simpa using fun h => hl.1 (List.mem_map.mpr ⟨s, hs, h⟩)
        rw [List.filter_cons_of_neg (by simp), hrest, List.map_cons, List.sum_cons]
        abel
      · have hne : key s ≠ key r := fun h => hl.1 (List.mem_map.mpr ⟨r, hr', h.symm⟩)
        rw [List.filter_cons_of_pos (by simpa using hne), List.map_cons, List.sum_cons, List.map_cons,
          List.sum_cons, ih hr' hl.2]
        abel

end Total

end Table

end NukeLab.Tables
