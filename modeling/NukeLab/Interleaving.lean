import NukeLab.Machine

namespace NukeLab.Interleaving

open Machine

variable {σ π ρ α : Type}

/-- A store and the calls made on it so far, each at the point it has reached. -/
structure System (σ π : Type) where
  shared : σ
  calls : List π

/-- A new call, or the next turn of one already made, with what the world
outside the store answers it. -/
inductive Event (ρ α : Type)
  | call (request : ρ)
  | turn (i : Nat) (answer : α)

/-- The store and the call after one turn of the call of that number. -/
abbrev Advance (σ π α : Type) := Nat → σ → π → α → Option (σ × π)

def step (begin : ρ → π) (advance : Advance σ π α) : Step (System σ π) (Event ρ α)
  | s, .call request => some ⟨s.shared, s.calls ++ [begin request]⟩
  | s, .turn i answer =>
    s.calls[i]?.bind fun p => (advance i s.shared p answer).map fun r => ⟨r.1, s.calls.set i r.2⟩

def alone (advance : Advance σ π α) (answer : α) : Nat → σ → π → σ × π
  | 0, s, p => (s, p)
  | n + 1, s, p =>
    match advance 0 s p answer with
    | none => (s, p)
    | some (t, q) => alone advance answer n t q

def Sound (Inv : σ → Prop) (Local : Nat → σ → π → Prop) (s : System σ π) : Prop :=
  Inv s.shared ∧ ∀ i p, s.calls[i]? = some p → Local i s.shared p

variable {begin : ρ → π} {advance : Advance σ π α} {Inv : σ → Prop} {Local : Nat → σ → π → Prop}

theorem alone_of_some {answer : α} {n : Nat} {s t : σ} {p q : π} (h : advance 0 s p answer = some (t, q)) :
    alone advance answer (n + 1) s p = alone advance answer n t q := by
  rw [alone, h]

theorem alone_of_none {answer : α} {n : Nat} {s : σ} {p : π} (h : advance 0 s p answer = none) :
    alone advance answer n s p = (s, p) := by
  cases n with
  | zero => rfl
  | succ n => rw [alone, h]

theorem step_call {s t : System σ π} {request : ρ} (h : step begin advance s (.call request) = some t) :
    t = ⟨s.shared, s.calls ++ [begin request]⟩ := by
  cases h
  rfl

theorem step_turn {s t : System σ π} {i : Nat} {answer : α} (h : step begin advance s (.turn i answer) = some t) :
    ∃ p q u, s.calls[i]? = some p ∧ advance i s.shared p answer = some (u, q) ∧ t = ⟨u, s.calls.set i q⟩ := by
  obtain ⟨p, hp, h⟩ := Option.bind_eq_some_iff.mp h
  obtain ⟨⟨u, q⟩, hq, rfl⟩ := Option.map_eq_some_iff.mp h
  exact ⟨p, q, u, hp, hq, rfl⟩

theorem Sound.call {s : System σ π} (h : Sound Inv Local s) (request : ρ)
    (hbegin : ∀ i, Local i s.shared (begin request)) :
    Sound Inv Local ⟨s.shared, s.calls ++ [begin request]⟩ := by
  refine ⟨h.1, fun i p hp => ?_⟩
  rw [List.getElem?_append] at hp
  by_cases hi : i < s.calls.length
  · rw [if_pos hi] at hp
    exact h.2 i p hp
  · rw [if_neg hi] at hp
    obtain rfl := List.mem_singleton.mp (List.mem_of_getElem? hp)
    exact hbegin i

theorem Sound.turn {s : System σ π} {i : Nat} {u : σ} {q : π} (h : Sound Inv Local s) (hinv : Inv u)
    (hown : Local i u q) (hother : ∀ j r, j ≠ i → s.calls[j]? = some r → Local j s.shared r → Local j u r) :
    Sound Inv Local ⟨u, s.calls.set i q⟩ := by
  refine ⟨hinv, fun j r hr => ?_⟩
  by_cases hji : j = i
  · subst hji
    rw [List.getElem?_set_self'] at hr
    obtain ⟨p, hp, rfl⟩ := Option.map_eq_some_iff.mp hr
    exact hown
  · rw [List.getElem?_set_ne (Ne.symm hji)] at hr
    exact hother j r hji hr (h.2 j r hr)

def Before (G : σ → π → Prop) (s : System σ π) : Event ρ α → Prop
  | .call _ => True
  | .turn i _ => ∀ p ∈ s.calls[i]?, G s.shared p

instance (G : σ → π → Prop) [∀ s p, Decidable (G s p)] (s : System σ π) (e : Event ρ α) : Decidable (Before G s e) :=
  match e with
  | .call _ => .isTrue trivial
  | .turn i _ => inferInstanceAs (Decidable (∀ p ∈ s.calls[i]?, G s.shared p))

/-- A turn that meets a condition beforehand keeps what is said of the store and
of its own call, and takes nothing from what is said of another. -/
theorem Sound.step {G : σ → π → Prop} {s t : System σ π} {e : Event ρ α} (hs : Sound Inv Local s) (hG : Before G s e)
    (ht : step begin advance s e = some t) (hbegin : ∀ i s request, Inv s → Local i s (begin request))
    (hown : ∀ i s p answer u q, Inv s → Local i s p → G s p → advance i s p answer = some (u, q) → Inv u ∧ Local i u q)
    (hother : ∀ i s p answer u q j r, j ≠ i → Inv s → Local i s p → Local j s r →
      advance i s p answer = some (u, q) → Local j u r) : Sound Inv Local t := by
  cases e with
  | call request =>
      rw [step_call ht]
      exact hs.call request fun i => hbegin i s.shared request hs.1
  | turn i answer =>
      obtain ⟨p, q, u, hp, hq, rfl⟩ := step_turn ht
      have hlocal := hs.2 i p hp
      obtain ⟨hinv, hown⟩ := hown i _ p answer u q hs.1 hlocal (hG p hp) hq
      exact hs.turn hinv hown fun j r hji _ hr => hother i _ p answer u q j r hji hs.1 hlocal hr hq

/-- The rule of interference freedom. -/
theorem allStates_sound (hbegin : ∀ i s request, Inv s → Local i s (begin request))
    (hown : ∀ i s p answer u q, Inv s → Local i s p → advance i s p answer = some (u, q) → Inv u ∧ Local i u q)
    (hother : ∀ i s p answer u q j r, j ≠ i → Inv s → Local i s p → Local j s r →
      advance i s p answer = some (u, q) → Local j u r)
    {s : System σ π} (hs : Sound Inv Local s) (events : List (Event ρ α)) :
    AllStates (step begin advance) (Sound Inv Local) s events := by
  refine allStates_of_steps (fun s e t h ht => ?_) hs
  have hbefore : Before (fun _ _ => True) s e := by
    cases e with
    | call request => trivial
    | turn i answer => exact fun _ _ => trivial
  exact h.step hbefore ht hbegin (fun i s p answer u q hinv hlocal _ => hown i s p answer u q hinv hlocal) hother

theorem exists_split {calls : List π} {i : Nat} {p : π} (h : calls[i]? = some p) :
    ∃ before after, calls = before ++ p :: after ∧ ∀ q, calls.set i q = before ++ q :: after := by
  obtain ⟨hi, rfl⟩ := List.getElem?_eq_some_iff.mp h
  refine ⟨calls.take i, calls.drop (i + 1), ?_, fun q => List.set_eq_take_append_cons_drop.trans (if_pos hi)⟩
  rw [← List.drop_eq_getElem_cons hi, List.take_append_drop]

theorem countP_set {calls : List π} {i : Nat} {p : π} (hp : calls[i]? = some p) (q : π) (P : π → Prop) [DecidablePred P] :
    (calls.set i q).countP P + (if P p then 1 else 0) = calls.countP P + if P q then 1 else 0 := by
  obtain ⟨before, after, hcalls, hset⟩ := exists_split hp
  rw [hset, hcalls]
  simp only [List.countP_append, List.countP_cons, decide_eq_true_eq]
  omega

/-- A relation between what one turn starts from and what it comes to. -/
def EveryTurn (advance : Advance σ π α) (T : Nat → σ → π → σ → π → Prop) (s : System σ π) : Event ρ α → Prop
  | .call _ => True
  | .turn i answer =>
    ∀ p u q, s.calls[i]? = some p → advance i s.shared p answer = some (u, q) → T i s.shared p u q

instance (T : Nat → σ → π → σ → π → Prop) [∀ i s p u q, Decidable (T i s p u q)] (s : System σ π) (e : Event ρ α) :
    Decidable (EveryTurn advance T s e) :=
  match e with
  | .call _ => .isTrue trivial
  | .turn i answer =>
    decidable_of_iff (∀ p ∈ s.calls[i]?, ∀ r ∈ advance i s.shared p answer, T i s.shared p r.1 r.2)
      ⟨fun h p u q hp hq => h p hp (u, q) hq, fun h p hp r hr => h p r.1 r.2 hp hr⟩

theorem allSteps_everyTurn {T : Nat → σ → π → σ → π → Prop}
    (hturn : ∀ i s p answer u q, Inv s → Local i s p → advance i s p answer = some (u, q) → T i s p u q)
    {s : System σ π} {events : List (Event ρ α)} (h : AllStates (step begin advance) (Sound Inv Local) s events) :
    AllSteps (step begin advance) (EveryTurn advance T) s events := by
  refine allSteps_of_allStates (fun s e t hs ht => ?_) h
  cases e with
  | call request => trivial
  | turn i answer => exact fun p u q hp hq => hturn i _ p answer u q hs.1 (hs.2 i p hp) hq

/-- What a turn does where it meets a condition beforehand, it does in every run
that stays sound and whose turns all meet the condition. -/
theorem allSteps_everyTurn_of_before {T : Nat → σ → π → σ → π → Prop} {G : σ → π → Prop}
    (hturn : ∀ i s p answer u q, Inv s → Local i s p → G s p → advance i s p answer = some (u, q) → T i s p u q)
    {s : System σ π} {events : List (Event ρ α)} (h : AllStates (step begin advance) (Sound Inv Local) s events)
    (hG : AllSteps (step begin advance) (Before G) s events) :
    AllSteps (step begin advance) (EveryTurn advance T) s events := by
  refine AllSteps.of_states (fun s e t hs hbefore ht => ?_) h hG
  cases e with
  | call request => trivial
  | turn i answer => exact fun p u q hp hq => hturn i _ p answer u q hs.1 (hs.2 i p hp) (hbefore p hp) hq

/-- A condition on the store, the call and what the turn is answered. -/
def Given (G : Nat → σ → π → α → Prop) (s : System σ π) : Event ρ α → Prop
  | .call _ => True
  | .turn i answer => ∀ p ∈ s.calls[i]?, G i s.shared p answer

instance (G : Nat → σ → π → α → Prop) [∀ i s p answer, Decidable (G i s p answer)] (s : System σ π) (e : Event ρ α) :
    Decidable (Given G s e) :=
  match e with
  | .call _ => .isTrue trivial
  | .turn i answer => inferInstanceAs (Decidable (∀ p ∈ s.calls[i]?, G i s.shared p answer))

/-- The rule of interference freedom, for runs whose turns all meet a condition. -/
theorem allStates_sound_of_given {G : Nat → σ → π → α → Prop} (hbegin : ∀ i s request, Inv s → Local i s (begin request))
    (hown : ∀ i s p answer u q, Inv s → Local i s p → G i s p answer → advance i s p answer = some (u, q) →
      Inv u ∧ Local i u q)
    (hother : ∀ i s p answer u q j r, j ≠ i → Inv s → Local i s p → G i s p answer → Local j s r →
      advance i s p answer = some (u, q) → Local j u r)
    {s : System σ π} {events : List (Event ρ α)} (hs : Sound Inv Local s)
    (hG : AllSteps (step begin advance) (Given G) s events) : AllStates (step begin advance) (Sound Inv Local) s events := by
  refine allStates_of_allSteps (fun s e t hs hgiven ht => ?_) hs hG
  cases e with
  | call request =>
      rw [step_call ht]
      exact hs.call request fun i => hbegin i s.shared request hs.1
  | turn i answer =>
      obtain ⟨p, q, u, hp, hq, rfl⟩ := step_turn ht
      have hlocal := hs.2 i p hp
      have hmeets := hgiven p hp
      obtain ⟨hinv, hown⟩ := hown i _ p answer u q hs.1 hlocal hmeets hq
      exact hs.turn hinv hown fun j r hji _ hr => hother i _ p answer u q j r hji hs.1 hlocal hmeets hr hq

/-- Where a turn does what is asked of it exactly when it meets a condition, a
run does so exactly when all its turns meet it. -/
theorem allSteps_everyTurn_iff_given {T : Nat → σ → π → σ → π → Prop} {G : Nat → σ → π → α → Prop}
    (hturn : ∀ i s p answer u q, Inv s → Local i s p → advance i s p answer = some (u, q) →
      (T i s p u q ↔ G i s p answer))
    {s : System σ π} {events : List (Event ρ α)} (h : AllStates (step begin advance) (Sound Inv Local) s events) :
    AllSteps (step begin advance) (EveryTurn advance T) s events ↔ AllSteps (step begin advance) (Given G) s events := by
  refine allSteps_congr (fun s e t hs ht => ?_) h
  cases e with
  | call request => exact Iff.rfl
  | turn i answer =>
      obtain ⟨p, q, u, hp, hq, rfl⟩ := step_turn ht
      have hiff := hturn i _ p answer u q hs.1 (hs.2 i p hp) hq
      constructor
      · intro hT r hr
        obtain rfl := Option.some.inj (hp.symm.trans hr)
        exact hiff.mp (hT p u q hp hq)
      · intro hG r v w hr hw
        obtain rfl := Option.some.inj (hp.symm.trans hr)
        obtain ⟨rfl, rfl⟩ := Prod.mk.inj (Option.some.inj (hq.symm.trans hw))
        exact hiff.mpr (hG p hp)

theorem allSteps_everyTurn_iff {T : Nat → σ → π → σ → π → Prop} {G : σ → π → Prop}
    (hturn : ∀ i s p answer u q, Inv s → Local i s p → advance i s p answer = some (u, q) → (T i s p u q ↔ G s p))
    {s : System σ π} {events : List (Event ρ α)} (h : AllStates (step begin advance) (Sound Inv Local) s events) :
    AllSteps (step begin advance) (EveryTurn advance T) s events ↔ AllSteps (step begin advance) (Before G) s events := by
  rw [allSteps_everyTurn_iff_given (G := fun _ s p _ => G s p) hturn h]
  refine allSteps_congr (fun s e t _ _ => ?_) h
  cases e <;> exact Iff.rfl

end NukeLab.Interleaving
