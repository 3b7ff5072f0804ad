import Mathlib.Data.List.Basic
import Mathlib.Logic.Function.Basic

namespace NukeLab.KeyedRuns

variable {κ σ ι ο : Type} [DecidableEq κ] (step : σ → ι → σ × ο)

/-- What a machine gives for inputs one after the other, beside the inputs. -/
def outputs : σ → List ι → List (ι × ο)
  | _, [] => []
  | s, i :: is => (i, (step s i).2) :: outputs (step s i).1 is

def run : (κ → σ) → List (κ × ι) → List (κ × ι × ο)
  | _, [] => []
  | states, (key, i) :: rest =>
    (key, i, (step (states key) i).2) :: run (Function.update states key (step (states key) i).1) rest

def final : (κ → σ) → List (κ × ι) → κ → σ
  | states, [] => states
  | states, (key, i) :: rest => final (Function.update states key (step (states key) i).1) rest

def ofKey {α : Type} (key : κ) (rows : List (κ × α)) : List α := (rows.filter fun row => row.1 = key).map Prod.snd

section OfKey

variable {α : Type} {key key' : κ} {a : α} {rows : List (κ × α)}

@[simp] theorem ofKey_nil : ofKey key ([] : List (κ × α)) = [] := rfl

@[simp] theorem ofKey_cons_self : ofKey key ((key, a) :: rows) = a :: ofKey key rows := by
  rw [ofKey, List.filter_cons_of_pos (by simp), List.map_cons, ofKey]

theorem ofKey_cons_of_ne (h : key' ≠ key) : ofKey key ((key', a) :: rows) = ofKey key rows := by
  rw [ofKey, List.filter_cons_of_neg (by simpa using h), ofKey]

theorem ofKey_sublist (key : κ) (rows : List (κ × α)) : (ofKey key rows).Sublist (rows.map Prod.snd) :=
  List.filter_sublist.map _

end OfKey

variable {step} {states states' : κ → σ} {events events' : List (κ × ι)} {key : κ}

theorem ofKey_run (key : κ) : ofKey key (run step states events) = outputs step (states key) (ofKey key events) := by
  induction events generalizing states with
  | nil => rfl
  | cons event rest ih =>
      obtain ⟨k, i⟩ := event
      by_cases hk : k = key
      · subst hk
        rw [run, ofKey_cons_self, ofKey_cons_self, outputs, ih, Function.update_self]
      · rw [run, ofKey_cons_of_ne hk, ofKey_cons_of_ne hk, ih, Function.update_of_ne (Ne.symm hk)]

theorem run_append : run step states (events ++ events') =
    run step states events ++ run step (final step states events) events' := by
  induction events generalizing states with
  | nil => rfl
  | cons event rest ih => exact congrArg _ ih

theorem length_run : (run step states events).length = events.length := by
  induction events generalizing states with
  | nil => rfl
  | cons event rest ih => rw [run, List.length_cons, List.length_cons, ih]

theorem run_congr (h : ∀ key, ∀ event ∈ events, step (states key) event.2 = step (states' key) event.2) :
    run step states events = run step states' events := by
  induction events generalizing states states' with
  | nil => rfl
  | cons event rest ih =>
      obtain ⟨k, i⟩ := event
      have hhead : step (states k) i = step (states' k) i := h k (k, i) List.mem_cons_self
      rw [run, run, hhead]
      congr 1
      apply ih
      intro key event hevent
      by_cases hkey : key = k
      · rw [hkey, Function.update_self, Function.update_self]
      · rw [Function.update_of_ne hkey, Function.update_of_ne hkey]
        exact h key event (List.mem_cons_of_mem _ hevent)

/-- The inputs come in an order, and each step keeps what is true of the state and of
all that has been given so far. -/
theorem outputs_history {R : ι → ι → Prop} (Inv : List (ι × ο) → σ → Prop)
    (hstep : ∀ past s i, (∀ x ∈ past, R x.1 i) → Inv past s → Inv (past ++ [(i, (step s i).2)]) (step s i).1)
    {past : List (ι × ο)} {s : σ} {is : List ι} (hs : Inv past s) (hR : (past.map Prod.fst ++ is).Pairwise R) :
    ∃ t, Inv (past ++ outputs step s is) t := by
  induction is generalizing past s with
  | nil => exact ⟨s, by rwa [outputs, List.append_nil]⟩
  | cons i is ih =>
      have hpast : ∀ x ∈ past, R x.1 i := fun x hx =>
        (List.pairwise_append.mp hR).2.2 x.1 (List.mem_map_of_mem hx) i List.mem_cons_self
      obtain ⟨t, ht⟩ := ih (hstep past s i hpast hs) (by simpa using hR)
      exact ⟨t, by simpa [outputs] using ht⟩

theorem outputs_split {R : ι → ι → Prop} (Inv : List (ι × ο) → σ → Prop)
    (hstep : ∀ past s i, (∀ x ∈ past, R x.1 i) → Inv past s → Inv (past ++ [(i, (step s i).2)]) (step s i).1)
    {past before after : List (ι × ο)} {x : ι × ο} {s : σ} {is : List ι} (hs : Inv past s)
    (hR : (past.map Prod.fst ++ is).Pairwise R) (h : outputs step s is = before ++ x :: after) :
    ∃ t, Inv (past ++ before) t ∧ x.2 = (step t x.1).2 ∧ ∀ y ∈ past ++ before, R y.1 x.1 := by
  induction is generalizing past before s with
  | nil => simp [outputs] at h
  | cons i is ih =>
      have hpast : ∀ y ∈ past, R y.1 i := fun y hy =>
        (List.pairwise_append.mp hR).2.2 y.1 (List.mem_map_of_mem hy) i List.mem_cons_self
      rw [outputs] at h
      cases before with
      | nil =>
          obtain ⟨rfl, -⟩ := List.cons.inj h
          rw [List.append_nil]
          exact ⟨s, hs, rfl, hpast⟩
      | cons y before =>
          obtain ⟨rfl, htail⟩ := List.cons.inj h
          have hrest := ih (hstep past s i hpast hs) (by simpa using hR) htail
          rwa [List.append_assoc, List.singleton_append] at hrest

end NukeLab.KeyedRuns
