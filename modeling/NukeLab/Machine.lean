import Mathlib.Data.List.Basic

namespace NukeLab.Machine

variable {σ ι : Type}

/-- A deterministic partial machine: `none` where the input is refused. -/
abbrev Step (σ ι : Type) := σ → ι → Option σ

def run (M : Step σ ι) : σ → List ι → Option σ
  | s, [] => some s
  | s, i :: is => (M s i).bind fun t => run M t is

/-- Every state visited from `s` along the inputs satisfies `P`. A refused
input ends the run, so nothing is asked of what would follow it. -/
def AllStates (M : Step σ ι) (P : σ → Prop) : σ → List ι → Prop
  | s, [] => P s
  | s, i :: is => P s ∧ ∀ t, M s i = some t → AllStates M P t is

/-- Every input accepted along the run meets the guard in the state before it. -/
def AllSteps (M : Step σ ι) (C : σ → ι → Prop) : σ → List ι → Prop
  | _, [] => True
  | s, i :: is => ∀ t, M s i = some t → C s i ∧ AllSteps M C t is

def checkStates (M : Step σ ι) (p : σ → Bool) : σ → List ι → Bool
  | s, [] => p s
  | s, i :: is => p s && (M s i).all fun t => checkStates M p t is

theorem checkStates_iff (M : Step σ ι) (P : σ → Prop) [DecidablePred P] (s : σ) (is : List ι) :
    checkStates M (fun s => decide (P s)) s is = true ↔ AllStates M P s is := by
  induction is generalizing s with
  | nil => exact decide_eq_true_iff
  | cons i is ih =>
      simp only [checkStates, AllStates, Bool.and_eq_true, decide_eq_true_iff]
      cases M s i <;> simp [ih]

instance (M : Step σ ι) (P : σ → Prop) [DecidablePred P] (s : σ) (is : List ι) : Decidable (AllStates M P s is) :=
  decidable_of_iff _ (checkStates_iff M P s is)

def checkSteps (M : Step σ ι) (c : σ → ι → Bool) : σ → List ι → Bool
  | _, [] => true
  | s, i :: is => (M s i).all fun t => c s i && checkSteps M c t is

theorem checkSteps_iff (M : Step σ ι) (C : σ → ι → Prop) [∀ s i, Decidable (C s i)] (s : σ) (is : List ι) :
    checkSteps M (fun s i => decide (C s i)) s is = true ↔ AllSteps M C s is := by
  induction is generalizing s with
  | nil => exact iff_of_true rfl trivial
  | cons i is ih =>
      simp only [checkSteps, AllSteps]
      cases M s i <;> simp [ih]

instance (M : Step σ ι) (C : σ → ι → Prop) [∀ s i, Decidable (C s i)] (s : σ) (is : List ι) :
    Decidable (AllSteps M C s is) :=
  decidable_of_iff _ (checkSteps_iff M C s is)

variable {M : Step σ ι} {P Q Inv : σ → Prop} {C D : σ → ι → Prop}

theorem AllStates.head {s : σ} {is : List ι} (h : AllStates M P s is) : P s := by
  cases is with
  | nil => exact h
  | cons i is => exact h.1

theorem AllStates.last {s t : σ} {is : List ι} (h : AllStates M P s is) (hr : run M s is = some t) : P t := by
  induction is generalizing s with
  | nil =>
      cases hr
      exact h
  | cons i is ih =>
      obtain ⟨u, hu, hut⟩ := Option.bind_eq_some_iff.mp hr
      exact ih (h.2 u hu) hut

theorem AllStates.mono {s : σ} {is : List ι} (h : AllStates M P s is) (hPQ : ∀ s, P s → Q s) :
    AllStates M Q s is := by
  induction is generalizing s with
  | nil => exact hPQ s h
  | cons i is ih => exact ⟨hPQ s h.1, fun t ht => ih (h.2 t ht)⟩

theorem AllSteps.mono {s : σ} {is : List ι} (h : AllSteps M C s is) (hCD : ∀ s i, C s i → D s i) :
    AllSteps M D s is := by
  induction is generalizing s with
  | nil => trivial
  | cons i is ih => exact fun t ht => ⟨hCD s i (h t ht).1, ih (h t ht).2⟩

theorem AllSteps.of_forall {s : σ} {is : List ι} (h : ∀ s, ∀ i ∈ is, C s i) : AllSteps M C s is := by
  induction is generalizing s with
  | nil => trivial
  | cons i is ih => exact fun t _ => ⟨h s i (List.mem_cons_self ..), ih fun s j hj => h s j (List.mem_cons_of_mem i hj)⟩

theorem AllSteps.and {s : σ} {is : List ι} (hC : AllSteps M C s is) (hD : AllSteps M D s is) :
    AllSteps M (fun s i => C s i ∧ D s i) s is := by
  induction is generalizing s with
  | nil => trivial
  | cons i is ih => exact fun t ht => ⟨⟨(hC t ht).1, (hD t ht).1⟩, ih (hC t ht).2 (hD t ht).2⟩

theorem AllSteps.cons {s t : σ} {i : ι} {is : List ι} (hstep : M s i = some t) (hC : C s i) (h : AllSteps M C t is) :
    AllSteps M C s (i :: is) := by
  intro u hu
  obtain rfl := Option.some.inj (hstep.symm.trans hu)
  exact ⟨hC, h⟩

/-- The guarded invariant rule: what every guarded step keeps holds in every
state of a run whose steps all meet the guard. -/
theorem allStates_of_allSteps (hstep : ∀ s i t, Inv s → C s i → M s i = some t → Inv t)
    {s : σ} {is : List ι} (hs : Inv s) (hC : AllSteps M C s is) : AllStates M Inv s is := by
  induction is generalizing s with
  | nil => exact hs
  | cons i is ih => exact ⟨hs, fun t ht => ih (hstep s i t hs (hC t ht).1 ht) (hC t ht).2⟩

theorem allStates_of_steps (hstep : ∀ s i t, Inv s → M s i = some t → Inv t)
    {s : σ} {is : List ι} (hs : Inv s) : AllStates M Inv s is := by
  induction is generalizing s with
  | nil => exact hs
  | cons i is ih => exact ⟨hs, fun t ht => ih (hstep s i t hs ht)⟩

theorem allSteps_of_allStates (hstep : ∀ s i t, P s → M s i = some t → C s i) {s : σ} {is : List ι}
    (h : AllStates M P s is) : AllSteps M C s is := by
  induction is generalizing s with
  | nil => trivial
  | cons i is ih => exact fun t ht => ⟨hstep s i t h.1 ht, ih (h.2 t ht)⟩

theorem AllSteps.of_states (hstep : ∀ s i t, P s → C s i → M s i = some t → D s i) {s : σ} {is : List ι}
    (hP : AllStates M P s is) (hC : AllSteps M C s is) : AllSteps M D s is := by
  induction is generalizing s with
  | nil => trivial
  | cons i is ih => exact fun t ht => ⟨hstep s i t hP.1 (hC t ht).1 ht, ih (hP.2 t ht) (hC t ht).2⟩

theorem allSteps_congr (hstep : ∀ s i t, P s → M s i = some t → (C s i ↔ D s i)) {s : σ} {is : List ι}
    (h : AllStates M P s is) : AllSteps M C s is ↔ AllSteps M D s is := by
  induction is generalizing s with
  | nil => exact Iff.rfl
  | cons i is ih =>
      exact forall_congr' fun t => forall_congr' fun ht => and_congr (hstep s i t h.1 ht) (ih (h.2 t ht))

/-- Where steps that do `C` keep `P`, and from `P` doing `C` is meeting the guard
`D`, the runs whose steps all do `C` are those whose steps all meet `D`. -/
theorem allSteps_iff (hkeep : ∀ s i t, P s → C s i → M s i = some t → P t)
    (hstep : ∀ s i t, P s → M s i = some t → (C s i ↔ D s i)) {s : σ} (is : List ι) (hs : P s) :
    AllSteps M C s is ↔ AllSteps M D s is := by
  induction is generalizing s with
  | nil => exact Iff.rfl
  | cons i is ih =>
      refine forall_congr' fun t => forall_congr' fun ht => ?_
      constructor
      · exact fun h => ⟨(hstep s i t hs ht).mp h.1, (ih (hkeep s i t hs h.1 ht)).mp h.2⟩
      · intro h
        have hC := (hstep s i t hs ht).mpr h.1
        exact ⟨hC, (ih (hkeep s i t hs hC ht)).mpr h.2⟩

/-- Where a step keeps `P` exactly when it meets the guard, the runs that stay
in `P` are exactly the runs all of whose steps meet it. `Inv` is what every
step keeps anyway. -/
theorem allStates_iff_allSteps (hinv : ∀ s i t, Inv s → M s i = some t → Inv t)
    (hstep : ∀ s i t, Inv s → P s → M s i = some t → (P t ↔ C s i))
    {s : σ} (is : List ι) (hs : Inv s) (hP : P s) : AllStates M P s is ↔ AllSteps M C s is := by
  induction is generalizing s with
  | nil => exact ⟨fun _ => trivial, fun _ => hP⟩
  | cons i is ih =>
      constructor
      · intro h t ht
        have hPt : P t := (h.2 t ht).head
        exact ⟨(hstep s i t hs hP ht).mp hPt, (ih (hinv s i t hs ht) hPt).mp (h.2 t ht)⟩
      · intro h
        refine ⟨hP, fun t ht => ?_⟩
        have hPt : P t := (hstep s i t hs hP ht).mpr (h t ht).1
        exact (ih (hinv s i t hs ht) hPt).mpr (h t ht).2

/-- The same where the runs meet a guard `G`, for states that stay in `P` and
steps that do `D` besides. -/
theorem allStates_and_allSteps_iff {G : σ → ι → Prop} (hinv : ∀ s i t, Inv s → G s i → M s i = some t → Inv t)
    (hstep : ∀ s i t, Inv s → P s → M s i = some t → (P t ∧ D s i ↔ C s i))
    {s : σ} {is : List ι} (hs : Inv s) (hP : P s) (hG : AllSteps M G s is) :
    (AllStates M P s is ∧ AllSteps M D s is) ↔ AllSteps M C s is := by
  induction is generalizing s with
  | nil => exact ⟨fun _ => trivial, fun _ => ⟨hP, trivial⟩⟩
  | cons i is ih =>
      constructor
      · rintro ⟨hstates, hsteps⟩ t ht
        have hPt : P t := (hstates.2 t ht).head
        have htail := ih (hinv s i t hs (hG t ht).1 ht) hPt (hG t ht).2
        exact ⟨(hstep s i t hs hP ht).mp ⟨hPt, (hsteps t ht).1⟩, htail.mp ⟨hstates.2 t ht, (hsteps t ht).2⟩⟩
      · intro h
        have hone : ∀ t, M s i = some t → P t ∧ D s i := fun t ht => (hstep s i t hs hP ht).mpr (h t ht).1
        have htail : ∀ t, M s i = some t → AllStates M P t is ∧ AllSteps M D t is := fun t ht =>
          (ih (hinv s i t hs (hG t ht).1 ht) (hone t ht).1 (hG t ht).2).mpr (h t ht).2
        exact ⟨⟨hP, fun t ht => (htail t ht).1⟩, fun t ht => ⟨(hone t ht).2, (htail t ht).2⟩⟩

end NukeLab.Machine
