import Mathlib.Order.Defs.Unbundled

namespace NukeLab.Program

variable {ε σ α β : Type}

theorem ok_of_bind {x : Except ε α} {f : α → Except ε β} {b : β} (h : (x >>= f) = .ok b) :
    ∃ a, x = .ok a ∧ f a = .ok b := by
  cases x with
  | error e => exact nomatch h
  | ok a => exact ⟨a, rfl, h⟩

theorem ok_of_toOption {x : Except ε α} {a : α} (h : x.toOption = some a) : x = .ok a := by
  cases x with
  | error e => exact nomatch h
  | ok b =>
      cases h
      rfl

/-- The state in which a program ends, whether it returns or raises: a raise
takes back nothing that was done before it. -/
def final (m : EStateM ε σ α) (s : σ) : σ :=
  match m.run s with
  | .ok _ t => t
  | .error _ t => t

theorem final_of_ok {m : EStateM ε σ α} {s t : σ} {a : α} (h : m.run s = .ok a t) : final m s = t := by
  simp only [final, h]

theorem final_of_error {m : EStateM ε σ α} {s t : σ} {e : ε} (h : m.run s = .error e t) : final m s = t := by
  simp only [final, h]

/-- What the program raises, if it does. -/
def raised (m : EStateM ε σ α) (s : σ) : Option ε :=
  match m.run s with
  | .ok _ _ => none
  | .error e _ => some e

theorem run_of_raised {m : EStateM ε σ α} {s : σ} {e : ε} (h : raised m s = some e) :
    m.run s = .error e (final m s) := by
  rw [raised] at h
  rw [final]
  cases hr : m.run s with
  | ok a t =>
      rw [hr] at h
      exact nomatch h
  | error e' t =>
      rw [hr] at h
      cases h
      rfl

@[simp] theorem run_throw (e : ε) (s : σ) : EStateM.run (throw e : EStateM ε σ α) s = .error e s := rfl

@[simp] theorem final_pure (a : α) (s : σ) : final (pure a : EStateM ε σ α) s = s := rfl

@[simp] theorem final_throw (e : ε) (s : σ) : final (throw e : EStateM ε σ α) s = s := rfl

@[simp] theorem final_set (t s : σ) : final (set t : EStateM ε σ PUnit) s = t := rfl

@[simp] theorem final_modify (f : σ → σ) (s : σ) : final (modify f : EStateM ε σ PUnit) s = f s := rfl

@[simp] theorem final_get_bind (f : σ → EStateM ε σ β) (s : σ) : final (get >>= f) s = final (f s) s := rfl

@[simp] theorem final_throw_bind (e : ε) (f : α → EStateM ε σ β) (s : σ) :
    final ((throw e : EStateM ε σ α) >>= f) s = s := rfl

theorem final_bind (m : EStateM ε σ α) (f : α → EStateM ε σ β) (s : σ) :
    final (m >>= f) s =
      match m.run s with
      | .ok a t => final (f a) t
      | .error _ t => t := by
  simp only [final, EStateM.run_bind]
  cases m.run s <;> rfl

theorem final_bind_of_ok {m : EStateM ε σ α} {s t : σ} {a : α} (h : m.run s = .ok a t) (f : α → EStateM ε σ β) :
    final (m >>= f) s = final (f a) t := by
  rw [final_bind, h]

@[simp] theorem final_bind_pure (m : EStateM ε σ α) (f : α → β) (s : σ) :
    final (m >>= fun a => pure (f a)) s = final m s := by
  rw [final_bind, final]
  cases m.run s <;> rfl

theorem run_tryCatch (m : EStateM ε σ α) (h : ε → EStateM ε σ α) (s : σ) :
    (tryCatch m h : EStateM ε σ α).run s =
      match m.run s with
      | .ok a t => .ok a t
      | .error e t => (h e).run t := by
  change EStateM.tryCatch m h s = _
  delta EStateM.tryCatch EStateM.run
  dsimp only
  cases m s <;> rfl

/-- Every execution of the program, returning or raising, moves the state along `R`. -/
def Moves (R : σ → σ → Prop) (m : EStateM ε σ α) : Prop := ∀ s, R s (final m s)

section Rules

variable {R : σ → σ → Prop} [IsPreorder σ R]

theorem Moves.pure (a : α) : Moves R (pure a : EStateM ε σ α) := fun s => refl_of R s

theorem Moves.throw (e : ε) : Moves R (throw e : EStateM ε σ α) := fun s => refl_of R s

theorem Moves.throw_bind (e : ε) (f : α → EStateM ε σ β) : Moves R ((MonadExcept.throw e : EStateM ε σ α) >>= f) :=
  fun s => refl_of R s

theorem Moves.get : Moves R (get : EStateM ε σ σ) := fun s => refl_of R s

theorem Moves.of_final_eq {m : EStateM ε σ α} (h : ∀ s, final m s = s) : Moves R m := fun s => by
  rw [h s]
  exact refl_of R s

theorem Moves.bind {m : EStateM ε σ α} {f : α → EStateM ε σ β} (hm : Moves R m) (hf : ∀ a, Moves R (f a)) :
    Moves R (m >>= f) := by
  intro s
  have h := hm s
  rw [final_bind]
  rw [final] at h
  cases hr : m.run s with
  | ok a t =>
      rw [hr] at h
      exact trans_of R h (hf a t)
  | error e t =>
      rw [hr] at h
      exact h

theorem Moves.tryCatch {m : EStateM ε σ α} {h : ε → EStateM ε σ α} (hm : Moves R m) (hh : ∀ e, Moves R (h e)) :
    Moves R (tryCatch m h) := by
  intro s
  have hs := hm s
  rw [final] at hs
  rw [final, run_tryCatch]
  cases hr : m.run s with
  | ok a t =>
      rw [hr] at hs
      exact hs
  | error e t =>
      rw [hr] at hs
      exact trans_of R hs (hh e t)

theorem Moves.forM {f : α → EStateM ε σ PUnit} (hf : ∀ a, Moves R (f a)) (as : List α) :
    Moves R (as.forM f) := by
  induction as with
  | nil => exact Moves.pure _
  | cons a as ih => exact Moves.bind (hf a) fun _ => ih

end Rules

theorem Moves.modify {R : σ → σ → Prop} {f : σ → σ} (h : ∀ s, R s (f s)) :
    Moves R (modify f : EStateM ε σ PUnit) := h

theorem Moves.ite {R : σ → σ → Prop} {c : Prop} [Decidable c] {m n : EStateM ε σ α} (hm : Moves R m)
    (hn : Moves R n) : Moves R (if c then m else n) := by
  split
  · exact hm
  · exact hn

theorem Moves.mono {R S : σ → σ → Prop} {m : EStateM ε σ α} (h : Moves R m) (hRS : ∀ s t, R s t → S s t) :
    Moves S m :=
  fun s => hRS _ _ (h s)

/-- When the program returns from `s`, what it returns and where satisfies `Q`. -/
def Returns (m : EStateM ε σ α) (s : σ) (Q : α → σ → Prop) : Prop := ∀ a t, m.run s = .ok a t → Q a t

namespace Returns

variable {m n : EStateM ε σ α} {f : α → EStateM ε σ β} {s : σ} {Q : α → σ → Prop} {Q' : β → σ → Prop}

theorem pure {a : α} (h : Q a s) : Returns (pure a : EStateM ε σ α) s Q := by
  rintro _ _ ⟨⟩
  exact h

theorem throw (e : ε) : Returns (throw e : EStateM ε σ α) s Q := fun _ _ h => nomatch h

theorem bind (h : Returns m s fun a t => Returns (f a) t Q') : Returns (m >>= f) s Q' := by
  intro b u hr
  rw [EStateM.run_bind] at hr
  cases hm : m.run s with
  | ok a t =>
      rw [hm] at hr
      exact h a t hm b u hr
  | error e t =>
      rw [hm] at hr
      exact nomatch hr

theorem bind_of_ok {a : α} {t : σ} (hm : m.run s = .ok a t) (h : Returns (f a) t Q') : Returns (m >>= f) s Q' :=
  bind fun _ _ hr => by
    cases hm.symm.trans hr
    exact h

/-- What is said of every execution of the first half is what is known where the second starts. -/
theorem bind_moves {R : σ → σ → Prop} (hm : Moves R m) (h : ∀ a t, R s t → Returns (f a) t Q') :
    Returns (m >>= f) s Q' :=
  bind fun a t hr => h a t (final_of_ok hr ▸ hm s)

theorem ite {c : Prop} [Decidable c] (hm : c → Returns m s Q) (hn : ¬ c → Returns n s Q) :
    Returns (if c then m else n) s Q := by
  split
  · exact hm ‹_›
  · exact hn ‹_›

theorem tryCatch {h : ε → EStateM ε σ α} (hm : Returns m s Q) (hh : ∀ e t, Returns (h e) t Q) :
    Returns (tryCatch m h) s Q := by
  intro a t hr
  rw [run_tryCatch] at hr
  cases hs : m.run s with
  | ok b u =>
      rw [hs] at hr
      exact hm a t (hs.trans hr)
  | error e u =>
      rw [hs] at hr
      exact hh e u a t hr

theorem throw_bind (e : ε) : Returns ((MonadExcept.throw e : EStateM ε σ α) >>= f) s Q' := bind (throw e)

theorem get_bind {f : σ → EStateM ε σ β} (h : Returns (f s) s Q') : Returns (get >>= f) s Q' := bind_of_ok rfl h

end Returns

/-- When the program raises from `s`, what it raises and where satisfies `Q`. -/
def Raises (m : EStateM ε σ α) (s : σ) (Q : ε → σ → Prop) : Prop := ∀ e t, m.run s = .error e t → Q e t

namespace Raises

variable {m n : EStateM ε σ α} {f : α → EStateM ε σ β} {s : σ} {Q : ε → σ → Prop}

theorem pure {a : α} : Raises (pure a : EStateM ε σ α) s Q := fun _ _ h => nomatch h

theorem throw {e : ε} (h : Q e s) : Raises (throw e : EStateM ε σ α) s Q := by
  rintro _ _ ⟨⟩
  exact h

theorem bind (hm : Raises m s Q) (hf : Returns m s fun a t => Raises (f a) t Q) : Raises (m >>= f) s Q := by
  intro e u hr
  rw [EStateM.run_bind] at hr
  cases hs : m.run s with
  | ok a t =>
      rw [hs] at hr
      exact hf a t hs e u hr
  | error e' t =>
      rw [hs] at hr
      cases hr
      exact hm e u hs

theorem throw_bind {e : ε} (h : Q e s) : Raises ((MonadExcept.throw e : EStateM ε σ α) >>= f) s Q := by
  rintro _ _ ⟨⟩
  exact h

theorem bind_of_ok {a : α} {t : σ} (hm : m.run s = .ok a t) (h : Raises (f a) t Q) : Raises (m >>= f) s Q := by
  intro e u hr
  rw [EStateM.run_bind, hm] at hr
  exact h e u hr

theorem get_bind {f : σ → EStateM ε σ β} (h : Raises (f s) s Q) : Raises (get >>= f) s Q := bind_of_ok rfl h

theorem tryCatch {h : ε → EStateM ε σ α} (hm : Raises m s fun e t => Raises (h e) t Q) :
    Raises (tryCatch m h) s Q := by
  intro e t hr
  rw [run_tryCatch] at hr
  cases hs : m.run s with
  | ok a u =>
      rw [hs] at hr
      exact nomatch hr
  | error e' u =>
      rw [hs] at hr
      exact hm e' u hs e t hr

theorem ite {c : Prop} [Decidable c] (hm : c → Raises m s Q) (hn : ¬ c → Raises n s Q) :
    Raises (if c then m else n) s Q := by
  split
  · exact hm ‹_›
  · exact hn ‹_›

theorem of_moves {R : σ → σ → Prop} (h : Moves R m) : Raises m s fun _ t => R s t :=
  fun _ _ hr => final_of_error hr ▸ h s

theorem bind_moves {R : σ → σ → Prop} (hm : Moves R m) (hQ : ∀ e t, R s t → Q e t)
    (h : ∀ a t, R s t → Raises (f a) t Q) : Raises (m >>= f) s Q :=
  bind (fun e t hr => hQ e t (of_moves hm e t hr)) fun a t hr => h a t (final_of_ok hr ▸ hm s)

end Raises

theorem Moves.bind_returns {R : σ → σ → Prop} [IsPreorder σ R] {P : α → Prop} {m : EStateM ε σ α} {f : α → EStateM ε σ β}
    (hm : Moves R m) (hreturns : ∀ s, Returns m s fun a _ => P a) (hf : ∀ a, P a → Moves R (f a)) : Moves R (m >>= f) := by
  intro s
  have h := hm s
  rw [final_bind]
  rw [final] at h
  cases hr : m.run s with
  | ok a t =>
      rw [hr] at h
      exact trans_of R h (hf a (hreturns s a t hr) t)
  | error e t =>
      rw [hr] at h
      exact h

theorem final_bind_moves {R : σ → σ → Prop} {P : σ → Prop} {m : EStateM ε σ α} {f : α → EStateM ε σ β} {s : σ}
    (hm : Moves R m) (hP : ∀ t, R s t → P t) (h : ∀ a t, R s t → P (final (f a) t)) : P (final (m >>= f) s) := by
  have hs := hm s
  rw [final] at hs
  rw [final_bind]
  cases hr : m.run s with
  | ok a t =>
      rw [hr] at hs
      exact h a t hs
  | error e t =>
      rw [hr] at hs
      exact hP t hs

/-- Where a program ends that breaks off in its first half, or goes on from where that returns. -/
theorem final_bind_returns {P : σ → Prop} {m : EStateM ε σ α} {f : α → EStateM ε σ β} {s : σ}
    (hraises : Raises m s fun _ t => P t) (hreturns : Returns m s fun a t => P (final (f a) t)) : P (final (m >>= f) s) := by
  rw [final_bind]
  cases hr : m.run s with
  | ok a t => exact hreturns a t hr
  | error e t => exact hraises e t hr

theorem final_bind_keeps {R : σ → σ → Prop} {P : σ → Prop} {m : EStateM ε σ α} {f : α → EStateM ε σ β} {s : σ}
    (hm : P (final m s)) (hf : ∀ a, Moves R (f a)) (hR : ∀ s t, R s t → P s → P t) : P (final (m >>= f) s) := by
  rw [final] at hm
  rw [final_bind]
  cases hr : m.run s with
  | ok a t =>
      rw [hr] at hm
      exact hR t _ (hf a t) hm
  | error e t =>
      rw [hr] at hm
      exact hm

theorem final_of_returns_raises {P : σ → Prop} {m : EStateM ε σ α} {s : σ} (hreturns : Returns m s fun _ t => P t)
    (hraises : Raises m s fun _ t => P t) : P (final m s) := by
  rw [final]
  cases hr : m.run s with
  | ok a t => exact hreturns a t hr
  | error e t => exact hraises e t hr

end NukeLab.Program
