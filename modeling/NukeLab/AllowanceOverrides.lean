import NukeLab.DailyAllowance

namespace NukeLab.AllowanceOverrides

open DailyAllowance Interleaving Ledger Machine Program Records State

def withOverride (user : User) (override : Option Int) (till : Option Instant) : User :=
  { user with dailyAllowanceOverride := override, dailyAllowanceOverrideUntil := till }

def Blind (f : User → User) : Prop := ∀ user override till, f (withOverride user override till) = withOverride (f user) override till

/-- What `update_user` asks of a user: of the override nothing, that it be cleared,
or that it be set. The other columns may depend on those it has read. -/
structure Edit where
  override : Option (Option (Int × Instant))
  rest : User → User → User
  rest_blind : ∀ seen, Blind (rest seen)
  rest_unseen : ∀ seen override till, rest (withOverride seen override till) = rest seen

def Edit.refused (edit : Edit) : Bool :=
  match edit.override with
  | some (some (amount, _)) => amount < 0
  | _ => false

/-- A column is written only where it is to differ from what was read. -/
def overwrite (seen : User) (override : Option Int) (till : Option Instant) (user : User) : User :=
  withOverride user (if seen.dailyAllowanceOverride = override then user.dailyAllowanceOverride else override)
    (if seen.dailyAllowanceOverrideUntil = till then user.dailyAllowanceOverrideUntil else till)

def Edit.write (edit : Edit) (seen user : User) : User :=
  match edit.override with
  | none => edit.rest seen user
  | some none => overwrite seen none none (edit.rest seen user)
  | some (some (amount, till)) => overwrite seen (some amount) (some till) (edit.rest seen user)

def changeUser (userId : Uuid) (f : User → User) (w : World) : World :=
  { w with users := Function.update w.users userId ((w.users userId).map f) }

/-- That a write of a row also sets its `updated_at` is left out. -/
def clearOverrides (userIds : List Uuid) (w : World) : World :=
  { w with users := fun id => if id ∈ userIds then (w.users id).map (withOverride · none none) else w.users id }

def expired (cutoff : Instant) (user : User) : Bool :=
  user.dailyAllowanceOverride.isSome && user.dailyAllowanceOverrideUntil.any fun till => till < cutoff

/-- The rows with their locks, and the latest time any process has read. -/
structure Office where
  locked : LockedWorld
  latest : Instant

inductive Request
  | grant (userId : Uuid)
  | write (draft : TransactionDraft) (htype : draft.type ≠ .dailyAllowance)
  | configure (settings : Settings)
  | edit (userId : Uuid) (edit : Edit)
  | cleanup (userIds : List Uuid)

/-- An edit and a clean-up read first and write when they commit. -/
inductive Call
  | of (p : Phase)
  | edit (userId : Uuid) (edit : Edit)
  | editing (userId : Uuid) (edit : Edit) (seen : User)
  | cleanup (userIds : List Uuid)
  | clearing (userIds : List Uuid)
  | finished

def begin : Request → Call
  | .grant userId => .of (.grant userId)
  | .write draft _ => .of (.write draft)
  | .configure settings => .of (.configure settings)
  | .edit userId edit => .edit userId edit
  | .cleanup userIds => .cleanup userIds

/-- With `clears` unset the clean-up finds nothing to clear. -/
def advance (clears : Bool) : Advance Office Call Instant := fun i s p now =>
  let latest := max s.latest now
  match p with
  | .of p => (DailyAllowance.advance i s.locked p now).map fun r => (⟨r.1, latest⟩, .of r.2)
  | .edit userId edit =>
    match s.locked.world.users userId with
    | none => some (⟨s.locked, latest⟩, .finished)
    | some user => some (⟨s.locked, latest⟩, if edit.refused then .finished else .editing userId edit user)
  | .editing userId edit seen =>
    if (s.locked.lockedBy userId).isSome then none
    else some (⟨{ s.locked with world := changeUser userId (edit.write seen) s.locked.world }, latest⟩, .finished)
  | .cleanup userIds =>
    let found := userIds.filter fun id => clears && (s.locked.world.users id).any (expired (now - minute))
    some (⟨s.locked, latest⟩, .clearing found)
  | .clearing userIds =>
    if userIds.any fun id => (s.locked.lockedBy id).isSome then none
    else some (⟨{ s.locked with world := clearOverrides userIds s.locked.world }, latest⟩, .finished)
  | .finished => none

def clashes : Call → Call → Bool
  | .editing userId edit _, .editing otherId other _ => userId = otherId && edit.override.isSome && other.override.isSome
  | .editing userId edit _, .clearing userIds | .clearing userIds, .editing userId edit _ =>
    edit.override.isSome && userId ∈ userIds
  | _, _ => false

/-- Clocks differ by a minute at most, and no two open calls clash. -/
def Careful (s : System Office Call) (e : Event Request Instant) : Prop :=
  s.calls.Pairwise (fun p r => clashes p r = false) ∧
    match e with
    | .call _ => True
    | .turn _ now => s.shared.latest - minute ≤ now

instance (s : System Office Call) (e : Event Request Instant) : Decidable (Careful s e) :=
  match e with
  | .call _ => inferInstanceAs (Decidable (_ ∧ True))
  | .turn _ now => inferInstanceAs (Decidable (_ ∧ s.shared.latest - minute ≤ now))

def live (since : Instant) (user : User) : Bool :=
  user.dailyAllowanceOverride.isSome && user.dailyAllowanceOverrideUntil.any fun till => since < till

def fresh (since : Instant) (user : User) : User := if live since user then user else withOverride user none none

def viewWorld (since : Instant) (w : World) : World := { w with users := fun id => (w.users id).map (fresh since) }

def view (since : Instant) (s : LockedWorld) : LockedWorld := { s with world := viewWorld since s.world }

def viewPhase (since : Instant) : Phase → Phase
  | .locked userId user => .locked userId (fresh since user)
  | .checked userId user clock => .checked userId (fresh since user) clock
  | .priced userId user draft maxBalance clock => .priced userId (fresh since user) draft maxBalance clock
  | p => p

def viewTurn (since : Instant) (r : LockedWorld × Phase) : LockedWorld × Phase := (view since r.1, viewPhase since r.2)

def viewCall (since : Instant) : Call → Call
  | .of p => .of (viewPhase since p)
  | .editing userId edit seen => .editing userId edit (fresh since seen)
  | .clearing _ => .clearing []
  | p => p

def NoAmend : Phase → Prop
  | .amend _ _ => False
  | _ => True

def Office.horizon (s : Office) : Instant := s.latest - minute

def Office.view (since : Instant) (s : Office) : Office := ⟨AllowanceOverrides.view since s.locked, s.latest⟩

def viewStep (r : Office × Call) : Office × Call := (r.1.view r.1.horizon, viewCall r.1.horizon r.2)

def viewSystem (s : System Office Call) : System Office Call :=
  ⟨s.shared.view s.shared.horizon, s.calls.map (viewCall s.shared.horizon)⟩

def SameOverride (user other : User) : Prop :=
  user.dailyAllowanceOverride = other.dailyAllowanceOverride ∧ user.dailyAllowanceOverrideUntil = other.dailyAllowanceOverrideUntil

/-- An edit of the override has read it as it still is, and what a clean-up has found no longer counts. -/
def Local (clears : Bool) (s : Office) : Call → Prop
  | .of p => NoAmend p
  | .editing userId edit seen => edit.override.isSome → ∀ user ∈ s.locked.world.users userId, SameOverride seen user
  | .clearing userIds =>
    (clears = false → userIds = []) ∧ ∀ id ∈ userIds, ∀ user ∈ s.locked.world.users id, live s.horizon user = false
  | _ => True

section

variable {since later now : Instant} {user : User} {w : World} {userId : Uuid}

theorem fresh_cases (since : Instant) (user : User) :
    fresh since user = user ∨ live since user = false ∧ fresh since user = withOverride user none none := by
  rw [fresh]
  split
  · exact .inl rfl
  · next h => exact .inr ⟨(Bool.not_eq_true _).mp h, rfl⟩

@[simp] theorem fresh_isActive (since : Instant) (user : User) : (fresh since user).isActive = user.isActive := by
  rcases fresh_cases since user with h | ⟨-, h⟩ <;> rw [h]
  rfl

@[simp] theorem fresh_nukeBalance (since : Instant) (user : User) : (fresh since user).nukeBalance = user.nukeBalance := by
  rcases fresh_cases since user with h | ⟨-, h⟩ <;> rw [h]
  rfl

theorem hasActiveAllowanceOverride_eq (user : User) (now : Instant) : hasActiveAllowanceOverride user now = live now user := by
  rw [hasActiveAllowanceOverride, live]
  cases user.dailyAllowanceOverride <;> cases user.dailyAllowanceOverrideUntil <;> rfl

theorem live_anti (h : since ≤ later) (hlive : live later user = true) : live since user = true := by
  simp only [live, Bool.and_eq_true, Option.any_eq_true, decide_eq_true_eq] at hlive ⊢
  obtain ⟨hsome, till, htill, hlt⟩ := hlive
  exact ⟨hsome, till, htill, lt_of_le_of_lt h hlt⟩

theorem not_live_of_le (h : since ≤ later) (hlive : live since user = false) : live later user = false := by
  by_contra hlater
  rw [live_anti h ((Bool.not_eq_false _).mp hlater)] at hlive
  cases hlive

theorem fresh_of_not_live (hlive : live since user = false) : fresh since user = withOverride user none none := by
  rw [fresh, if_neg (by rw [hlive]; exact Bool.false_ne_true)]

theorem fresh_fresh (h : since ≤ later) (user : User) : fresh later (fresh since user) = fresh later user := by
  rcases fresh_cases since user with hfresh | ⟨hlive, hfresh⟩
  · rw [hfresh]
  · rw [hfresh, fresh_of_not_live (not_live_of_le h hlive)]
    rfl

theorem live_fresh (h : since ≤ later) (user : User) : live later (fresh since user) = live later user := by
  rcases fresh_cases since user with hfresh | ⟨hlive, hfresh⟩
  · rw [hfresh]
  · rw [hfresh, not_live_of_le h hlive]
    rfl

theorem effectiveDailyAllowance_fresh (h : since ≤ now) (user : User) :
    effectiveDailyAllowance (fresh since user) now = effectiveDailyAllowance user now := by
  rcases fresh_cases since user with hfresh | ⟨hlive, hfresh⟩
  · rw [hfresh]
  · have hinactive : hasActiveAllowanceOverride user now = false := by
      rw [hasActiveAllowanceOverride_eq]
      exact not_live_of_le h hlive
    rw [hfresh, effectiveDailyAllowance, effectiveDailyAllowance, hinactive]
    cases user.dailyAllowanceOverride <;> rfl

theorem allowanceDraft_fresh (h : since ≤ now) (userId : Uuid) (user : User) :
    allowanceDraft userId (fresh since user) now = allowanceDraft userId user now := by
  rw [allowanceDraft, allowanceDraft, effectiveDailyAllowance_fresh h, hasActiveAllowanceOverride_eq,
    hasActiveAllowanceOverride_eq, live_fresh h]

theorem fresh_blind {f : User → User} (hf : Blind f) (since : Instant) (user : User) : fresh since (f user) = f (fresh since user) := by
  have hsame : f user = withOverride (f user) user.dailyAllowanceOverride user.dailyAllowanceOverrideUntil :=
    hf user user.dailyAllowanceOverride user.dailyAllowanceOverrideUntil
  have hlive : live since (f user) = live since user := by
    rw [hsame]
    rfl
  rw [fresh, fresh, hlive]
  split
  · rfl
  · exact (hf user none none).symm

theorem blind_nukeBalance (balance : Int) : Blind fun user => { user with nukeBalance := balance } := fun _ _ _ => rfl

theorem viewWorld_viewWorld (h : since ≤ later) (w : World) : viewWorld later (viewWorld since w) = viewWorld later w := by
  simp only [viewWorld, Option.map_map]
  congr 1
  funext id
  exact congrArg (fun f => Option.map f (w.users id)) (funext fun user => fresh_fresh h user)

theorem view_view (h : since ≤ later) (s : LockedWorld) : view later (view since s) = view later s := by
  simp only [view, viewWorld_viewWorld h]

theorem viewWorld_changeUser {f g : User → User} (h : since ≤ later)
    (hfg : ∀ user ∈ w.users userId, fresh later (g (fresh since user)) = fresh later (f user)) :
    viewWorld later (changeUser userId g (viewWorld since w)) = viewWorld later (changeUser userId f w) := by
  simp only [viewWorld, changeUser]
  congr 1
  funext id
  by_cases hid : id = userId
  · subst hid
    rw [Function.update_self, Function.update_self]
    cases huser : w.users id with
    | none => rfl
    | some user => exact congrArg some (hfg user huser)
  · rw [Function.update_of_ne hid, Function.update_of_ne hid]
    cases w.users id with
    | none => rfl
    | some user => exact congrArg some (fresh_fresh h user)

theorem fresh_blind_congr {f : User → User} (hf : Blind f) (h : since ≤ later) (user : User) :
    fresh later (f (fresh since user)) = fresh later (f user) := by
  rw [fresh_blind hf, fresh_blind hf, fresh_fresh h]

theorem transactionFor_fresh (w : World) (user : User) (draft : TransactionDraft) :
    transactionFor (viewWorld since w) (fresh since user) draft = transactionFor w user draft := by
  simp only [transactionFor, fresh_nukeBalance]
  rfl

theorem viewWorld_post (h : since ≤ later) (w : World) (transaction : CreditTransaction) :
    viewWorld later (post (viewWorld since w) transaction) = viewWorld later (post w transaction) := by
  let f : User → User := fun user => { user with nukeBalance := transaction.balanceAfter }
  have husers : viewWorld later (changeUser transaction.userId f (viewWorld since w)) =
      viewWorld later (changeUser transaction.userId f w) :=
    viewWorld_changeUser h fun user _ => fresh_blind_congr (blind_nukeBalance transaction.balanceAfter) h user
  have hrows := congrArg World.users husers
  simp only [viewWorld, changeUser, post, f] at hrows ⊢
  rw [hrows]

theorem viewWorld_createTransaction (h : since ≤ later) (draft : TransactionDraft) (w : World) :
    viewWorld later (final (createTransaction draft) (viewWorld since w)) = viewWorld later (final (createTransaction draft) w) := by
  cases huser : w.users draft.userId with
  | none =>
      have hview : (viewWorld since w).users draft.userId = none := by simp only [viewWorld, huser, Option.map_none]
      have hrefused : ∀ {v : World}, v.users draft.userId = none → final (createTransaction draft) v = v := by
        intro v hv
        rw [createTransaction, final_get_bind, hv]
        rfl
      rw [hrefused hview, hrefused huser, viewWorld_viewWorld h]
  | some user =>
      have hview : (viewWorld since w).users draft.userId = some (fresh since user) := by
        simp only [viewWorld, huser, Option.map_some]
      rw [final_createTransaction hview, final_createTransaction huser, transactionFor_fresh]
      split
      · exact viewWorld_viewWorld h w
      · exact viewWorld_post h w _

theorem viewPhase_viewPhase (h : since ≤ later) (p : Phase) : viewPhase later (viewPhase since p) = viewPhase later p := by
  cases p <;> simp only [viewPhase, fresh_fresh h]

/-- A turn of a call that writes no override does on a view what it does on the rows. -/
theorem advance_view (hnow : since ≤ now) (hlater : since ≤ later) (i : Nat) (s : LockedWorld) {p : Phase} (hp : NoAmend p) :
    (DailyAllowance.advance i (view since s) (viewPhase since p) now).map (viewTurn later) =
      (DailyAllowance.advance i s p now).map (viewTurn later) := by
  have hphase := viewPhase_viewPhase hlater
  cases p with
  | grant userId =>
      simp only [viewPhase, DailyAllowance.advance]
      change Option.map _ (if (s.lockedBy userId).isSome then none else
        match (s.world.users userId).map (fresh since) with | none => _ | some user => _) = _
      split
      · rfl
      · cases s.world.users userId with
        | none => exact congrArg some (Prod.ext (view_view hlater s) rfl)
        | some user =>
            simp only [Option.map_some, fresh_isActive]
            split
            · exact congrArg some (Prod.ext (view_view hlater (s.lock userId i)) (hphase (.locked userId user)))
            · exact congrArg some (Prod.ext (view_view hlater (s.lock userId i)) rfl)
  | locked userId user =>
      simp only [viewPhase, DailyAllowance.advance]
      change Option.map _ (if grantsSince s.world userId (dayStart now) = [] then _ else _) = _
      split
      · exact congrArg some (Prod.ext (view_view hlater s) (hphase (.checked userId user now)))
      · exact congrArg some (Prod.ext (view_view hlater s) rfl)
  | checked userId user clock =>
      simp only [viewPhase, DailyAllowance.advance, allowanceDraft_fresh hnow]
      split
      · rfl
      · exact congrArg some (Prod.ext (view_view hlater s) (hphase (.priced userId user _ _ now)))
  | priced userId user draft maxBalance clock =>
      have htransaction : transactionFor (recordedAt (view since s).world maxBalance now) (fresh since user) draft =
          transactionFor (recordedAt s.world maxBalance now) user draft :=
        transactionFor_fresh (recordedAt s.world maxBalance now) user draft
      simp only [viewPhase, DailyAllowance.advance, htransaction]
      split
      · rfl
      · split
        · exact congrArg some (Prod.ext (view_view hlater s) rfl)
        · refine congrArg some (Prod.ext ?_ rfl)
          simp only [viewTurn, view, LockedWorld.unlock, viewWorld_post hlater]
  | refused userId => exact congrArg some (Prod.ext (view_view hlater (s.unlock userId)) rfl)
  | write draft =>
      simp only [viewPhase, DailyAllowance.advance]
      change Option.map _ (if (s.lockedBy draft.userId).isSome then none else _) = _
      split
      · rfl
      · refine congrArg some (Prod.ext ?_ rfl)
        have hcreate := viewWorld_createTransaction hlater draft { s.world with now := now }
        simp only [viewTurn, view]
        exact congrArg (LockedWorld.mk · s.lockedBy) hcreate
  | configure settings => exact congrArg some (Prod.ext (view_view hlater { s with world := { s.world with settings := settings } }) rfl)
  | amend => exact hp.elim
  | granted | done => rfl

theorem SameOverride.live_eq {user other : User} (h : SameOverride user other) (since : Instant) : live since user = live since other := by
  rw [live, live, h.1, h.2]

theorem SameOverride.fresh {user other : User} (h : SameOverride user other) (since : Instant) :
    SameOverride (fresh since user) (fresh since other) := by
  rw [AllowanceOverrides.fresh, AllowanceOverrides.fresh, h.live_eq]
  split
  · exact h
  · exact ⟨rfl, rfl⟩

theorem SameOverride.trans {user other third : User} (h : SameOverride user other) (h' : SameOverride other third) :
    SameOverride user third := ⟨h.1.trans h'.1, h.2.trans h'.2⟩

theorem Blind.sameOverride {f : User → User} (hf : Blind f) (user : User) : SameOverride user (f user) := by
  have h : f user = withOverride (f user) user.dailyAllowanceOverride user.dailyAllowanceOverrideUntil := hf user _ _
  rw [h]
  exact ⟨rfl, rfl⟩

/-- Where the override is what was read, all of what was asked is written. -/
theorem overwrite_of_same {seen user : User} (h : SameOverride seen user) (override : Option Int) (till : Option Instant) :
    overwrite seen override till user = withOverride user override till := by
  rw [overwrite, h.1, h.2]
  congr 1
  · split
    · assumption
    · rfl
  · split
    · assumption
    · rfl

theorem withOverride_fresh (since : Instant) (user : User) (override : Option Int) (till : Option Instant) :
    withOverride (fresh since user) override till = withOverride user override till := by
  rcases fresh_cases since user with h | ⟨-, h⟩ <;> rw [h]
  rfl

theorem Edit.rest_fresh (edit : Edit) (since : Instant) (seen : User) : edit.rest (fresh since seen) = edit.rest seen := by
  rcases fresh_cases since seen with h | ⟨-, h⟩ <;> rw [h]
  exact edit.rest_unseen seen none none

theorem overwrite_fresh (edit : Edit) {seen user : User} (h : SameOverride seen user) (override : Option Int)
    (till : Option Instant) :
    overwrite (fresh since seen) override till (edit.rest (fresh since seen) (fresh since user)) =
      overwrite seen override till (edit.rest seen user) := by
  have hrest : edit.rest (fresh since seen) (fresh since user) = fresh since (edit.rest seen user) := by
    rw [edit.rest_fresh, fresh_blind (edit.rest_blind seen)]
  have hsame : SameOverride seen (edit.rest seen user) := h.trans ((edit.rest_blind seen).sameOverride user)
  rw [hrest, overwrite_of_same (hsame.fresh since), overwrite_of_same hsame, withOverride_fresh]

theorem Edit.write_fresh (edit : Edit) {seen user : User} (h : since ≤ later)
    (hsame : edit.override.isSome → SameOverride seen user) :
    fresh later (edit.write (fresh since seen) (fresh since user)) = fresh later (edit.write seen user) := by
  rw [Edit.write, Edit.write]
  cases hoverride : edit.override with
  | none =>
      dsimp only
      rw [edit.rest_fresh, fresh_blind_congr (edit.rest_blind seen) h]
  | some asked =>
      have hsame := hsame (by rw [hoverride]; rfl)
      cases asked <;> exact congrArg (fresh later) (overwrite_fresh edit hsame _ _)

theorem viewWorld_clearOverrides (h : since ≤ later) {userIds : List Uuid}
    (hdead : ∀ id ∈ userIds, ∀ user ∈ w.users id, live since user = false) :
    viewWorld later (clearOverrides userIds w) = viewWorld later w := by
  simp only [viewWorld, clearOverrides]
  congr 1
  funext id
  split
  next hid =>
    cases huser : w.users id with
    | none => rfl
    | some user =>
        have hlive := hdead id hid user huser
        refine congrArg some ?_
        dsimp only
        rw [← fresh_of_not_live hlive, fresh_fresh h]
  · rfl

theorem clearOverrides_nil (w : World) : clearOverrides [] w = w := by
  simp [clearOverrides]

variable {clears : Bool} {s : Office} {p : Call}

theorem viewCall_viewCall (h : since ≤ later) (p : Call) : viewCall later (viewCall since p) = viewCall later p := by
  cases p <;> simp only [viewCall, fresh_fresh h, viewPhase_viewPhase h]

/-- A turn that writes nothing. -/
theorem viewStep_same {latest : Instant} (h : s.latest ≤ latest) {p q : Call}
    (hpq : viewCall (latest - minute) p = viewCall (latest - minute) q) :
    viewStep (⟨(s.view s.horizon).locked, latest⟩, p) = viewStep (⟨s.locked, latest⟩, q) :=
  Prod.ext (congrArg (Office.mk · latest) (view_view (sub_le_sub_right h minute) s.locked)) hpq

theorem advance_viewStep (hlocal : Local clears s p) (hnow : s.horizon ≤ now)
    (hfree : ∀ userIds, p = .clearing userIds → ∀ id ∈ userIds, s.locked.lockedBy id = none) (i : Nat) :
    (advance false i (s.view s.horizon) (viewCall s.horizon p) now).map viewStep = (advance clears i s p now).map viewStep := by
  have hlater : s.horizon ≤ max s.latest now - minute := sub_le_sub_right (le_max_left _ _) minute
  cases p with
  | of p =>
      have hview := advance_view hnow hlater i s.locked hlocal
      have hmap := congrArg (Option.map fun r : LockedWorld × Phase => ((⟨r.1, max s.latest now⟩ : Office), Call.of r.2)) hview
      rw [Option.map_map, Option.map_map] at hmap
      simp only [viewCall, advance, Option.map_map]
      exact hmap
  | edit userId edit =>
      simp only [viewCall, advance]
      change Option.map _ (match (s.locked.world.users userId).map (fresh s.horizon) with | none => _ | some user => _) = _
      cases s.locked.world.users userId with
      | none => exact congrArg some (viewStep_same (le_max_left _ _) rfl)
      | some user =>
          refine congrArg some (viewStep_same (le_max_left _ _) ?_)
          split
          · rfl
          · exact viewCall_viewCall hlater (.editing userId edit user)
  | editing userId edit seen =>
      simp only [viewCall, advance]
      change Option.map _ (if (s.locked.lockedBy userId).isSome then none else _) = _
      split
      · rfl
      · refine congrArg some (Prod.ext ?_ rfl)
        have hchange := viewWorld_changeUser hlater fun user huser => edit.write_fresh hlater fun h => hlocal h user huser
        exact congrArg (fun w => (⟨⟨w, s.locked.lockedBy⟩, max s.latest now⟩ : Office)) hchange
  | cleanup userIds => exact congrArg some (viewStep_same (le_max_left _ _) rfl)
  | clearing userIds =>
      have hany : (userIds.any fun id => (s.locked.lockedBy id).isSome) = false := by
        rw [List.any_eq_false]
        intro id hid
        rw [hfree userIds rfl id hid]
        exact Bool.false_ne_true
      simp only [viewCall, advance, hany, List.any_nil, Bool.false_eq_true, if_false, clearOverrides_nil]
      refine congrArg some (Prod.ext ?_ rfl)
      have hclear := (viewWorld_viewWorld hlater s.locked.world).trans (viewWorld_clearOverrides hlater hlocal.2).symm
      exact congrArg (fun w => (⟨⟨w, s.locked.lockedBy⟩, max s.latest now⟩ : Office)) hclear
  | finished => rfl

theorem advance_noAmend {i : Nat} {s u : LockedWorld} {p q : Phase} (h : DailyAllowance.advance i s p now = some (u, q)) :
    NoAmend q := by
  cases p with
  | grant userId =>
      simp only [DailyAllowance.advance] at h
      split at h
      · cases h
      · split at h
        · cases h
          trivial
        · split at h <;> (cases h; trivial)
  | locked userId user =>
      simp only [DailyAllowance.advance] at h
      split at h <;> (cases h; trivial)
  | checked userId user clock =>
      simp only [DailyAllowance.advance] at h
      split at h
      · cases h
      · cases h
        trivial
  | priced userId user draft maxBalance clock =>
      simp only [DailyAllowance.advance] at h
      split at h
      · cases h
      · split at h <;> (cases h; trivial)
  | refused userId | configure settings =>
      cases h
      trivial
  | write draft | amend userId f =>
      simp only [DailyAllowance.advance] at h
      split at h
      · cases h
      · cases h
        trivial
  | granted | done => cases h

theorem changeUser_row {f : User → User} {id : Uuid} {user : User} (h : user ∈ (changeUser userId f w).users id) :
    ∃ before ∈ w.users id, user = before ∨ id = userId ∧ user = f before := by
  dsimp only [changeUser] at h
  by_cases hid : id = userId
  · subst hid
    rw [Function.update_self] at h
    obtain ⟨before, hbefore, rfl⟩ := Option.map_eq_some_iff.mp h
    exact ⟨before, hbefore, .inr ⟨rfl, rfl⟩⟩
  · rw [Function.update_of_ne hid] at h
    exact ⟨user, h, .inl rfl⟩

theorem changeUser_blind {f : User → User} (hf : Blind f) {id : Uuid} {user : User}
    (h : user ∈ (changeUser userId f w).users id) : ∃ before ∈ w.users id, SameOverride before user := by
  obtain ⟨before, hbefore, rfl | ⟨-, rfl⟩⟩ := changeUser_row h
  · exact ⟨user, hbefore, rfl, rfl⟩
  · exact ⟨before, hbefore, hf.sameOverride before⟩

theorem createTransaction_row {draft : TransactionDraft} {id : Uuid} {user : User}
    (h : user ∈ (final (createTransaction draft) w).users id) : ∃ before ∈ w.users id, SameOverride before user := by
  have hrecorded := createTransaction_recorded draft w
  generalize final (createTransaction draft) w = v at h hrecorded
  cases hrecorded with
  | refused => exact ⟨user, h, rfl, rfl⟩
  | posted => exact changeUser_blind (blind_nukeBalance _) h

theorem advance_sameOverride {i : Nat} {s u : LockedWorld} {p q : Phase} (hp : NoAmend p)
    (h : DailyAllowance.advance i s p now = some (u, q)) {id : Uuid} {user : User} (huser : user ∈ u.world.users id) :
    ∃ before ∈ s.world.users id, SameOverride before user := by
  have hsame : u.world.users = s.world.users → ∃ before ∈ s.world.users id, SameOverride before user := fun hu =>
    ⟨user, hu ▸ huser, rfl, rfl⟩
  cases p with
  | grant userId =>
      simp only [DailyAllowance.advance] at h
      split at h
      · cases h
      · split at h
        · cases h
          exact hsame rfl
        · split at h <;> (cases h; exact hsame rfl)
  | locked userId user =>
      simp only [DailyAllowance.advance] at h
      split at h <;> (cases h; exact hsame rfl)
  | checked userId user clock =>
      simp only [DailyAllowance.advance] at h
      split at h
      · cases h
      · cases h
        exact hsame rfl
  | priced userId user draft maxBalance clock =>
      simp only [DailyAllowance.advance] at h
      split at h
      · cases h
      · split at h
        · cases h
          exact hsame rfl
        · cases h
          exact changeUser_blind (blind_nukeBalance _) huser
  | refused userId | configure settings =>
      cases h
      exact hsame rfl
  | write draft =>
      simp only [DailyAllowance.advance] at h
      split at h
      · cases h
      · cases h
        exact createTransaction_row (w := { s.world with now := now }) huser
  | amend => exact hp.elim
  | granted | done => cases h

inductive RowTurn (p : Call) (id : Uuid) (before user : User) : Prop
  | same (h : SameOverride before user)
  | cleared {userIds : List Uuid} (hp : p = .clearing userIds) (hid : id ∈ userIds) (h : user = withOverride before none none)
  | edited {edit : Edit} {seen : User} (hp : p = .editing id edit seen) (hedit : edit.override.isSome)

variable {i : Nat} {u : Office} {q r : Call}

theorem advance_latest (h : advance clears i s p now = some (u, q)) : u.latest = max s.latest now := by
  cases p with
  | of p =>
      obtain ⟨r, -, hr⟩ := Option.map_eq_some_iff.mp h
      cases hr
      rfl
  | edit userId edit =>
      simp only [advance] at h
      split at h <;> (cases h; rfl)
  | editing userId edit seen =>
      simp only [advance] at h
      split at h
      · exact nomatch h
      · cases h
        rfl
  | cleanup userIds =>
      cases h
      rfl
  | clearing userIds =>
      simp only [advance] at h
      split at h
      · exact nomatch h
      · cases h
        rfl
  | finished => exact nomatch h

theorem advance_row (hlocal : Local clears s p) (h : advance clears i s p now = some (u, q)) {id : Uuid} {user : User}
    (huser : user ∈ u.locked.world.users id) : ∃ before ∈ s.locked.world.users id, RowTurn p id before user := by
  have hsame : u.locked = s.locked → ∃ before ∈ s.locked.world.users id, RowTurn p id before user := fun hu =>
    ⟨user, hu ▸ huser, .same ⟨rfl, rfl⟩⟩
  cases p with
  | of p =>
      obtain ⟨⟨v, q⟩, hv, hr⟩ := Option.map_eq_some_iff.mp h
      cases hr
      obtain ⟨before, hbefore, hover⟩ := advance_sameOverride hlocal hv huser
      exact ⟨before, hbefore, .same hover⟩
  | edit userId edit =>
      simp only [advance] at h
      split at h <;> (cases h; exact hsame rfl)
  | editing userId edit seen =>
      simp only [advance] at h
      split at h
      · exact nomatch h
      · cases h
        obtain ⟨before, hbefore, rfl | ⟨rfl, rfl⟩⟩ := changeUser_row huser
        · exact ⟨user, hbefore, .same ⟨rfl, rfl⟩⟩
        · cases hover : edit.override with
          | none =>
              have hwrite : edit.write seen = edit.rest seen := by
                funext user
                rw [Edit.write, hover]
              rw [hwrite]
              exact ⟨before, hbefore, .same ((edit.rest_blind seen).sameOverride before)⟩
          | some asked => exact ⟨before, hbefore, .edited rfl (by rw [hover]; rfl)⟩
  | cleanup userIds =>
      cases h
      exact hsame rfl
  | clearing userIds =>
      simp only [advance] at h
      split at h
      · exact nomatch h
      · cases h
        simp only [clearOverrides] at huser
        split at huser
        next hid =>
          obtain ⟨before, hbefore, rfl⟩ := Option.map_eq_some_iff.mp huser
          exact ⟨before, hbefore, .cleared rfl hid rfl⟩
        next => exact ⟨user, huser, .same ⟨rfl, rfl⟩⟩
  | finished => exact nomatch h

theorem Local.other (hlocal : Local clears s r) (hp : Local clears s p) (hclash : clashes p r = false)
    (h : advance clears i s p now = some (u, q)) : Local clears u r := by
  cases r with
  | editing userId edit seen =>
      intro hedit user huser
      obtain ⟨before, hbefore, hturn⟩ := advance_row hp h huser
      cases hturn with
      | same hsame => exact (hlocal hedit before hbefore).trans hsame
      | cleared hp hid => simp [hp, clashes, hedit, hid] at hclash
      | edited hp hother => simp [hp, clashes, hedit, hother] at hclash
  | clearing userIds =>
      refine ⟨hlocal.1, fun id hid user huser => ?_⟩
      obtain ⟨before, hbefore, hturn⟩ := advance_row hp h huser
      cases hturn with
      | same hsame =>
          rw [← hsame.live_eq, Office.horizon, advance_latest h]
          exact not_live_of_le (sub_le_sub_right (le_max_left _ _) minute) (hlocal.2 id hid before hbefore)
      | cleared hp hid hcleared => exact hcleared ▸ rfl
      | edited hp hedit => simp [hp, clashes, hedit, hid] at hclash
  | of p => exact hlocal
  | edit | cleanup | finished => trivial

theorem live_of_expired {cutoff : Instant} (h : expired cutoff user = true) (hcutoff : cutoff ≤ since) : live since user = false := by
  simp only [expired, live, Bool.and_eq_true, Option.any_eq_true, decide_eq_true_eq] at h ⊢
  obtain ⟨-, till, htill, hlt⟩ := h
  rw [htill, Option.any_some, decide_eq_false (not_lt.mpr (hlt.le.trans hcutoff)), Bool.and_false]

theorem Local.own (h : advance clears i s p now = some (u, q)) : Local clears u q := by
  have hlatest := advance_latest h
  cases p with
  | of p =>
      obtain ⟨⟨v, q⟩, hv, hr⟩ := Option.map_eq_some_iff.mp h
      cases hr
      exact advance_noAmend hv
  | edit userId edit =>
      simp only [advance] at h
      split at h
      · cases h
        trivial
      next huser =>
        cases h
        split
        · trivial
        · intro _ user' huser'
          cases huser.symm.trans huser'
          exact ⟨rfl, rfl⟩
  | editing userId edit seen =>
      simp only [advance] at h
      split at h
      · exact nomatch h
      · cases h
        trivial
  | cleanup userIds =>
      cases h
      refine ⟨?_, fun id hid user huser => ?_⟩
      · rintro rfl
        simp
      · have hfound := (List.mem_filter.mp hid).2
        rw [Bool.and_eq_true, huser] at hfound
        exact live_of_expired hfound.2 (sub_le_sub_right (le_max_right _ _) minute)
  | clearing userIds =>
      simp only [advance] at h
      split at h
      · exact nomatch h
      · cases h
        trivial
  | finished => exact nomatch h

end

section

variable {clears : Bool} {s t a b : System Office Call} {e : Event Request Instant} {p r : Call} {since : Instant}

abbrev Settled (clears : Bool) (s : System Office Call) : Prop := Sound (fun _ => True) (fun _ => Local clears) s

theorem clashes_comm (p r : Call) : clashes p r = clashes r p := by
  cases p with
  | editing userId edit seen =>
      cases r with
      | editing otherId other read =>
          simp only [clashes, eq_comm, Bool.and_assoc]
          rw [Bool.and_comm edit.override.isSome]
      | _ => rfl
  | _ => cases r <;> rfl

theorem apart_of_ne {calls : List Call} (h : calls.Pairwise fun p r => clashes p r = false) {i j : Nat} (hij : j ≠ i)
    (hp : calls[i]? = some p) (hr : calls[j]? = some r) : clashes p r = false := by
  obtain ⟨hi, rfl⟩ := List.getElem?_eq_some_iff.mp hp
  obtain ⟨hj, rfl⟩ := List.getElem?_eq_some_iff.mp hr
  rcases Nat.lt_or_gt_of_ne hij with hlt | hlt
  · rw [clashes_comm]
    exact List.pairwise_iff_getElem.mp h j i hj hi hlt
  · exact List.pairwise_iff_getElem.mp h i j hi hj hlt

theorem sound_step (hs : Settled clears s) (hc : Careful s e)
    (ht : step begin (advance clears) s e = some t) : Settled clears t := by
  cases e with
  | call request =>
      rw [step_call ht]
      exact hs.call request fun _ => by cases request <;> trivial
  | turn i now =>
      obtain ⟨p, q, u, hp, hq, rfl⟩ := step_turn ht
      exact hs.turn trivial (.own hq) fun j r hji hr hlocal => hlocal.other (hs.2 i p hp) (apart_of_ne hc.1 hji hp hr) hq

theorem map_viewCall {later : Instant} (h : since ≤ later) (calls : List Call) :
    (calls.map (viewCall since)).map (viewCall later) = calls.map (viewCall later) := by
  rw [List.map_map]
  exact congrArg (List.map · calls) (funext (viewCall_viewCall h))

theorem viewSystem_set {u v : Office} {q r : Call} {calls : List Call} {i : Nat} (hu : since ≤ u.horizon)
    (h : viewStep (v, r) = viewStep (u, q)) :
    viewSystem ⟨v, (calls.map (viewCall since)).set i r⟩ = viewSystem ⟨u, calls.set i q⟩ := by
  have hoffice : v.view v.horizon = u.view u.horizon := congrArg Prod.fst h
  have hhorizon := congrArg Office.horizon hoffice
  change v.horizon = u.horizon at hhorizon
  have hcall : viewCall v.horizon r = viewCall u.horizon q := congrArg Prod.snd h
  rw [hhorizon] at hcall hoffice
  simp only [viewSystem, List.map_set, hoffice, hhorizon, hcall, map_viewCall hu]

/-- A step on a view does what the step does, as far as the view goes. -/
theorem step_viewSystem (hs : Settled clears s) (hc : Careful s e)
    (hfree : ∀ i now userIds, e = .turn i now → s.calls[i]? = some (.clearing userIds) →
      ∀ id ∈ userIds, s.shared.locked.lockedBy id = none) :
    (step begin (advance false) (viewSystem s) e).map viewSystem = (step begin (advance clears) s e).map viewSystem := by
  cases e with
  | call request =>
      refine congrArg some ?_
      have hview : (s.shared.view s.shared.horizon).view s.shared.horizon = s.shared.view s.shared.horizon :=
        congrArg (Office.mk · s.shared.latest) (view_view le_rfl s.shared.locked)
      have hcalls := map_viewCall (le_refl s.shared.horizon) s.calls
      have hhorizon : (s.shared.view s.shared.horizon).horizon = s.shared.horizon := rfl
      simp only [viewSystem, List.map_append, hhorizon, hview, hcalls]
  | turn i now =>
      simp only [step, viewSystem, List.getElem?_map]
      cases hp : s.calls[i]? with
      | none => rfl
      | some p =>
          have hadvance := advance_viewStep (hs.2 i p hp) hc.2 (fun userIds h => hfree i now userIds rfl (h ▸ hp)) i
          simp only [Option.map_some, Option.bind_some]
          cases hright : advance clears i s.shared p now with
          | none =>
              rw [hright, Option.map_none, Option.map_eq_none_iff] at hadvance
              rw [hadvance]
              rfl
          | some result =>
              obtain ⟨u, q⟩ := result
              rw [hright] at hadvance
              obtain ⟨⟨v, r⟩, hleft, hstep⟩ := Option.map_eq_some_iff.mp hadvance
              have hlater : s.shared.horizon ≤ u.horizon := by
                rw [Office.horizon, Office.horizon, advance_latest hright]
                exact sub_le_sub_right (le_max_left _ _) minute
              rw [hleft]
              exact congrArg some (viewSystem_set hlater hstep)

theorem clashes_viewCall (since : Instant) (h : clashes p r = false) : clashes (viewCall since p) (viewCall since r) = false := by
  cases p with
  | editing userId edit seen =>
      cases r with
      | editing otherId other read => exact h
      | clearing userIds => simp [viewCall, clashes]
      | _ => rfl
  | clearing userIds => cases r <;> simp [viewCall, clashes]
  | _ => cases r <;> rfl

theorem clashes_of_view {s : Office} (hp : Local false s p) (hr : Local false s r)
    (h : clashes (viewCall since p) (viewCall since r) = false) : clashes p r = false := by
  cases p with
  | editing userId edit seen =>
      cases r with
      | editing otherId other read => exact h
      | clearing userIds => simp [clashes, hr.1 rfl]
      | _ => rfl
  | clearing userIds => cases r <;> simp [clashes, hp.1 rfl]
  | _ => cases r <;> rfl

theorem careful_of_view (hb : Settled false b) (hview : viewSystem a = viewSystem b) (hc : Careful a e) :
    Careful b e := by
  have hlatest : a.shared.latest = b.shared.latest := congrArg (fun s => s.shared.latest) hview
  have hcalls : a.calls.map (viewCall a.shared.horizon) = b.calls.map (viewCall b.shared.horizon) := congrArg System.calls hview
  have hmapped : (a.calls.map (viewCall a.shared.horizon)).Pairwise fun p r => clashes p r = false :=
    List.pairwise_map.mpr (hc.1.imp fun h => clashes_viewCall _ h)
  rw [hcalls, List.pairwise_map] at hmapped
  refine ⟨hmapped.imp_of_mem fun {p r} hp hr h => ?_, ?_⟩
  · obtain ⟨i, hi⟩ := List.mem_iff_getElem?.mp hp
    obtain ⟨j, hj⟩ := List.mem_iff_getElem?.mp hr
    exact clashes_of_view (hb.2 i p hi) (hb.2 j r hj) h
  · cases e with
    | call => trivial
    | turn i now => exact hlatest ▸ hc.2

structure Unseen (a b : System Office Call) : Prop where
  left : Settled true a
  right : Settled false b
  view : viewSystem a = viewSystem b

theorem unseen_step {a' : System Office Call} (h : Unseen a b) (hc : Careful a e) (ha : step begin (advance true) a e = some a') :
    ∃ b', step begin (advance false) b e = some b' ∧ Unseen a' b' := by
  have hcb := careful_of_view h.right h.view hc
  have hleft := step_viewSystem h.left hc fun i now userIds he hp => by
    subst he
    obtain ⟨p, q, u, hp', hq, rfl⟩ := step_turn ha
    cases hp.symm.trans hp'
    simp only [advance] at hq
    split at hq
    · exact nomatch hq
    next hfree => simpa using hfree
  have hright := step_viewSystem h.right hcb fun i now userIds _ hp => by
    rw [(h.right.2 i _ hp).1 rfl]
    exact fun _ hid => nomatch hid
  rw [ha, h.view, hright] at hleft
  obtain ⟨b', hb, hview⟩ := Option.map_eq_some_iff.mp hleft
  exact ⟨b', hb, sound_step h.left hc ha, sound_step h.right hcb hb, hview.symm⟩

theorem unseen_run {events : List (Event Request Instant)} (h : Unseen a b)
    (hc : AllSteps (step begin (advance true)) Careful a events) (ht : run (step begin (advance true)) a events = some t) :
    ∃ t', run (step begin (advance false)) b events = some t' ∧ Unseen t t' := by
  induction events generalizing a b with
  | nil =>
      cases ht
      exact ⟨b, rfl, h⟩
  | cons e events ih =>
      obtain ⟨a', ha, hrun⟩ := Option.bind_eq_some_iff.mp ht
      obtain ⟨hc, hrest⟩ := hc a' ha
      obtain ⟨b', hb, hunseen⟩ := unseen_step h hc ha
      obtain ⟨t', ht', hend⟩ := ih hunseen hrest hrun
      exact ⟨t', by rw [run, hb, Option.bind_some, ht'], hend⟩

/-- Rows that tell apart no more than overrides that have expired by some time. -/
structure AgreeFrom (since : Instant) (w v : World) : Prop where
  transactions : w.transactions = v.transactions
  columns : ∀ id, (w.users id).map (withOverride · none none) = (v.users id).map (withOverride · none none)
  allowances : ∀ id, ∀ now ≥ since,
    (w.users id).map (effectiveDailyAllowance · now) = (v.users id).map (effectiveDailyAllowance · now)
  active : ∀ id, ∀ now ≥ since,
    (w.users id).map (hasActiveAllowanceOverride · now) = (v.users id).map (hasActiveAllowanceOverride · now)

theorem agreeFrom_of_view {w v : World} (h : viewWorld since w = viewWorld since v) : AgreeFrom since w v := by
  have hcolumn : ∀ {β : Type} (f : User → β), (∀ user, f (fresh since user) = f user) →
      ∀ id, (w.users id).map f = (v.users id).map f := by
    intro β f hf id
    have husers : (w.users id).map (fresh since) = (v.users id).map (fresh since) := congrArg (fun w => w.users id) h
    have hmap := congrArg (Option.map f) husers
    rw [Option.map_map, Option.map_map] at hmap
    simpa only [Function.comp_def, hf] using hmap
  have htransactions := congrArg World.transactions h
  refine ⟨htransactions, hcolumn _ fun user => withOverride_fresh since user none none,
    fun id now hnow => hcolumn _ (effectiveDailyAllowance_fresh hnow) id, fun id now hnow => hcolumn _ (fun user => ?_) id⟩
  rw [hasActiveAllowanceOverride_eq, hasActiveAllowanceOverride_eq, live_fresh hnow]

/-- With or without the clean-up, whatever else is called in between, the same is accepted, recorded and granted. -/
theorem cleanup_unseen {office : Office} {events : List (Event Request Instant)}
    (hc : AllSteps (step begin (advance true)) Careful ⟨office, []⟩ events)
    (ht : run (step begin (advance true)) ⟨office, []⟩ events = some t) :
    ∃ t', run (step begin (advance false)) ⟨office, []⟩ events = some t' ∧
      AgreeFrom (t.shared.latest - minute) t.shared.locked.world t'.shared.locked.world := by
  have hstart : Unseen ⟨office, []⟩ ⟨office, []⟩ :=
    ⟨⟨trivial, fun _ _ h => (nomatch h)⟩, ⟨trivial, fun _ _ h => (nomatch h)⟩, rfl⟩
  obtain ⟨t', ht', hunseen⟩ := unseen_run hstart hc ht
  have hshared : t.shared.view t.shared.horizon = t'.shared.view t'.shared.horizon := congrArg System.shared hunseen.view
  have hhorizon := congrArg Office.horizon hshared
  change t.shared.horizon = t'.shared.horizon at hhorizon
  rw [← hhorizon] at hshared
  exact ⟨t', ht', agreeFrom_of_view (congrArg (fun s : Office => s.locked.world) hshared)⟩

end

section Hourly

/-- An override that ran out an hour ago. -/
def stale : User := withOverride (newUser "ada") (some 50) (some (-3600000000))

def office : Office := ⟨⟨{ blankWorld with users := fun id => if id = 1 then some stale else none }, fun _ => none⟩, 0⟩

def hourly : List (Event Request Instant) :=
  [.call (.cleanup [1]), .call (.grant 1), .turn 0 0, .turn 1 1, .turn 1 2, .turn 1 3, .turn 1 4, .turn 0 5]

def overrideAfter (clears : Bool) : Option (Option Int) :=
  (run (step begin (advance clears)) ⟨office, []⟩ hourly).map fun s =>
    (s.shared.locked.world.users 1).bind User.dailyAllowanceOverride

theorem cleanup_unseen_hourly :
    overrideAfter true = some none ∧ overrideAfter false = some (some 50) ∧
      ∃ t t', run (step begin (advance true)) ⟨office, []⟩ hourly = some t ∧
        run (step begin (advance false)) ⟨office, []⟩ hourly = some t' ∧
        AgreeFrom (t.shared.latest - minute) t.shared.locked.world t'.shared.locked.world := by
  have hrun : (run (step begin (advance true)) ⟨office, []⟩ hourly).isSome := by decide +kernel
  obtain ⟨t, ht⟩ := Option.isSome_iff_exists.mp hrun
  obtain ⟨t', ht', hagree⟩ := cleanup_unseen (by decide +kernel) ht
  exact ⟨by decide +kernel, by decide +kernel, t, t', ht, ht', hagree⟩

end Hourly

end NukeLab.AllowanceOverrides
