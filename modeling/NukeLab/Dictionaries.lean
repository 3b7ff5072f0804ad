import Mathlib.Data.List.Nodup

namespace NukeLab.Dictionaries

/-- A dictionary in the order in which its keys came. -/
structure Dict (κ ν : Type) where
  entries : List (κ × ν)
  distinct : (entries.map Prod.fst).Nodup

namespace Dict

variable {κ ν : Type} [DecidableEq κ]

def empty : Dict κ ν := ⟨[], List.nodup_nil⟩

def get (d : Dict κ ν) (key : κ) : Option ν := d.entries.lookup key

theorem lookup_cons (entry : κ × ν) (entries : List (κ × ν)) (key : κ) :
    (entry :: entries).lookup key = if key = entry.1 then some entry.2 else entries.lookup key := by
  rw [List.lookup_cons]
  by_cases hkey : key = entry.1
  · rw [if_pos hkey, beq_iff_eq.mpr hkey]
  · rw [if_neg hkey, beq_eq_false_iff_ne.mpr hkey]

theorem get_eq_some_iff {d : Dict κ ν} {key : κ} {value : ν} : d.get key = some value ↔ (key, value) ∈ d.entries := by
  obtain ⟨entries, hdistinct⟩ := d
  change entries.lookup key = some value ↔ (key, value) ∈ entries
  induction entries with
  | nil => simp
  | cons entry entries ih =>
      obtain ⟨hfresh, hrest⟩ := List.nodup_cons.mp hdistinct
      rw [lookup_cons, List.mem_cons, Prod.ext_iff]
      by_cases hkey : key = entry.1
      · have hother : (key, value) ∉ entries := fun hmem => hfresh (hkey ▸ List.mem_map_of_mem hmem)
        simp [hkey, hkey ▸ hother, eq_comm]
      · simp [hkey, ih hrest]

/-- A key that is set again keeps its place. -/
def putEntry (key : κ) (value : ν) : List (κ × ν) → List (κ × ν)
  | [] => [(key, value)]
  | entry :: entries => if entry.1 = key then (key, value) :: entries else entry :: putEntry key value entries

theorem keys_putEntry (key : κ) (value : ν) (entries : List (κ × ν)) :
    (putEntry key value entries).map Prod.fst =
      if key ∈ entries.map Prod.fst then entries.map Prod.fst else entries.map Prod.fst ++ [key] := by
  induction entries with
  | nil => rfl
  | cons entry entries ih =>
      rw [putEntry]
      by_cases hkey : entry.1 = key
      · simp [hkey]
      · rw [if_neg hkey, List.map_cons, ih]
        by_cases hmem : key ∈ entries.map Prod.fst
        · rw [if_pos hmem, List.map_cons, if_pos (List.mem_cons_of_mem _ hmem)]
        · rw [if_neg hmem, List.map_cons, if_neg (List.not_mem_cons_of_ne_of_not_mem (Ne.symm hkey) hmem), List.cons_append]

theorem lookup_putEntry (key : κ) (value : ν) (entries : List (κ × ν)) (other : κ) :
    (putEntry key value entries).lookup other = if other = key then some value else entries.lookup other := by
  induction entries with
  | nil => exact lookup_cons (key, value) [] other
  | cons entry entries ih =>
      rw [putEntry]
      by_cases hkey : entry.1 = key
      · subst hkey
        rw [if_pos rfl, lookup_cons, lookup_cons]
        by_cases hother : other = entry.1 <;> simp [hother]
      · rw [if_neg hkey, lookup_cons, ih, lookup_cons]
        by_cases hother : other = entry.1 <;> simp [hother, hkey]

theorem filter_putEntry (key : κ) (value : ν) (entries : List (κ × ν)) :
    ((putEntry key value entries).filter fun entry => entry.1 ≠ key) = entries.filter fun entry => entry.1 ≠ key := by
  induction entries with
  | nil => simp [putEntry]
  | cons entry entries ih =>
      rw [putEntry]
      by_cases hkey : entry.1 = key
      · rw [if_pos hkey, List.filter_cons_of_neg (by simp), List.filter_cons_of_neg (by simpa using hkey)]
      · rw [if_neg hkey, List.filter_cons_of_pos (by simpa using hkey), List.filter_cons_of_pos (by simpa using hkey), ih]

theorem filter_key (d : Dict κ ν) (key : κ) :
    (d.entries.filter fun entry => entry.1 = key) = (d.get key).toList.map fun value => (key, value) := by
  obtain ⟨entries, hdistinct⟩ := d
  change (entries.filter fun entry => entry.1 = key) = (entries.lookup key).toList.map fun value => (key, value)
  induction entries with
  | nil => rfl
  | cons entry entries ih =>
      obtain ⟨hfresh, hrest⟩ := List.nodup_cons.mp hdistinct
      rw [lookup_cons]
      by_cases hkey : key = entry.1
      · subst hkey
        have hnone : (entries.filter fun other => other.1 = entry.1) = [] := by
          rw [List.filter_eq_nil_iff]
          intro other hother hsame
          exact hfresh (of_decide_eq_true hsame ▸ List.mem_map_of_mem hother)
        rw [List.filter_cons_of_pos (by simp), hnone, if_pos rfl]
        rfl
      · rw [List.filter_cons_of_neg (by simpa using Ne.symm hkey), if_neg hkey, ih hrest]

def put (d : Dict κ ν) (key : κ) (value : ν) : Dict κ ν where
  entries := putEntry key value d.entries
  distinct := by
    rw [keys_putEntry]
    split
    · exact d.distinct
    · rename_i hfresh
      exact List.nodup_append.mpr ⟨d.distinct, List.nodup_singleton key, by
        rintro a ha b hb rfl
        exact hfresh (List.mem_singleton.mp hb ▸ ha)⟩

theorem get_put (d : Dict κ ν) (key : κ) (value : ν) (other : κ) :
    (d.put key value).get other = if other = key then some value else d.get other :=
  lookup_putEntry key value d.entries other

def putAll (d : Dict κ ν) (entries : List (κ × ν)) : Dict κ ν := entries.foldl (fun d entry => d.put entry.1 entry.2) d

theorem mem_of_get_putAll {d : Dict κ ν} {entries : List (κ × ν)} {key : κ} {value : ν}
    (h : (d.putAll entries).get key = some value) : (key, value) ∈ entries ∨ d.get key = some value := by
  induction entries generalizing d with
  | nil => exact Or.inr h
  | cons entry entries ih =>
      rcases ih h with hmem | hput
      · exact Or.inl (List.mem_cons_of_mem _ hmem)
      · rw [get_put] at hput
        split at hput
        · rename_i hkey
          exact Or.inl (List.mem_cons.mpr (Or.inl (Prod.ext hkey (Option.some.inj hput).symm)))
        · exact Or.inr hput

theorem get_putAll_of_not_mem {d : Dict κ ν} {entries : List (κ × ν)} {key : κ} (h : ∀ entry ∈ entries, entry.1 ≠ key) :
    (d.putAll entries).get key = d.get key := by
  induction entries generalizing d with
  | nil => rfl
  | cons entry entries ih =>
      obtain ⟨hentry, hentries⟩ := List.forall_mem_cons.mp h
      exact (ih hentries).trans ((get_put d entry.1 entry.2 key).trans (if_neg (Ne.symm hentry)))

theorem get_putAll_of_agree {d : Dict κ ν} {entries : List (κ × ν)} {key : κ} {value : ν} (hmem : (key, value) ∈ entries)
    (h : ∀ entry ∈ entries, entry.1 = key → entry.2 = value) : (d.putAll entries).get key = some value := by
  induction entries generalizing d with
  | nil => cases hmem
  | cons entry entries ih =>
      obtain ⟨hentry, hentries⟩ := List.forall_mem_cons.mp h
      by_cases hlater : (key, value) ∈ entries
      · exact ih hlater hentries
      · obtain rfl := (List.mem_cons.mp hmem).resolve_right hlater
        have hnone : ∀ other ∈ entries, other.1 ≠ key := by
          intro other hother hkey
          exact hlater ((Prod.ext hkey (hentries other hother hkey) : other = (key, value)) ▸ hother)
        exact (get_putAll_of_not_mem hnone).trans ((get_put d key value key).trans (if_pos rfl))

def filter (d : Dict κ ν) (p : κ → Bool) : Dict κ ν where
  entries := d.entries.filter fun entry => p entry.1
  distinct := d.distinct.sublist (List.filter_sublist.map Prod.fst)

theorem get_filter_eq_some_iff {d : Dict κ ν} {p : κ → Bool} {key : κ} {value : ν} :
    (d.filter p).get key = some value ↔ d.get key = some value ∧ p key = true := by
  rw [get_eq_some_iff, get_eq_some_iff]
  exact List.mem_filter

def pop (d : Dict κ ν) (key : κ) : Dict κ ν := d.filter fun other => other ≠ key

theorem get_pop_eq_some_iff {d : Dict κ ν} {key other : κ} {value : ν} :
    (d.pop key).get other = some value ↔ d.get other = some value ∧ other ≠ key := by
  rw [pop, get_filter_eq_some_iff, decide_eq_true_iff]

theorem get_pop (d : Dict κ ν) (key other : κ) : (d.pop key).get other = if other = key then none else d.get other := by
  apply Option.ext
  intro value
  rw [get_pop_eq_some_iff]
  by_cases hkey : other = key <;> simp [hkey]

end Dict

end NukeLab.Dictionaries
