import NukeLab.State

namespace NukeLab.Users

open Records State

structure Permissions where
  creditsGrant : Bool
  creditsDeduct : Bool
  deriving DecidableEq

/-- The credit fields of an update request; a field left out is not touched. -/
structure UserUpdate where
  nukeBalance : Option Int
  dailyAllowance : Option Int
  deriving DecidableEq

/-- The balance an update asks to write, if it asks for a change at all. -/
def requestedBalance (user : User) (data : UserUpdate) (updatedBy : Option Permissions) : Option Int :=
  match data.nukeBalance, updatedBy with
  | some balance, some _ => if user.nukeBalance ≠ balance then some balance else none
  | _, _ => none

def updateRefusal (user : User) (data : UserUpdate) (updatedBy : Option Permissions) : Option Raise :=
  if (requestedBalance user data updatedBy).isSome ∧ ¬ updatedBy.any fun p => p.creditsGrant || p.creditsDeduct then
    some (.http 403 "Insufficient permissions to update credits")
  else
    match data.dailyAllowance, updatedBy with
    | none, _ => none
    | some _, none => some (.http 403 "An actor is required to update daily allowance")
    | some allowance, some permissions =>
      if user.dailyAllowance ≠ allowance ∧ ¬ permissions.creditsGrant then
        some (.http 403 "Insufficient permissions to update daily allowance")
      else none

def updatedUser (user : User) (data : UserUpdate) (updatedBy : Option Permissions) : User :=
  { user with
    nukeBalance := (requestedBalance user data updatedBy).getD user.nukeBalance
    dailyAllowance := data.dailyAllowance.getD user.dailyAllowance }

/-- The balance is written as asked, with no ledger entry. Nothing is written
when any field is refused. -/
def updateUser (userId : Uuid) (data : UserUpdate) (updatedBy : Option Permissions) : Handler Unit := do
  match (← get).users userId with
  | none => throw (.http 404 "User not found")
  | some user =>
    match updateRefusal user data updatedBy with
    | some raise => throw raise
    | none =>
      modify fun w => { w with users := Function.update w.users userId (some (updatedUser user data updatedBy)) }

/-- A new account. What was not asked for is taken from the settings; `refusal`
is what the role and the uniqueness checks come to. -/
def createUser (refusal : Option Raise) (username : String) (credits dailyAllowance : Option Int) : Handler Uuid := do
  match refusal with
  | some raise => throw raise
  | none =>
    let userId ← newUuid
    modify fun w =>
      { w with
        users := Function.update w.users userId
          (some { newUser username with
            nukeBalance := credits.getD w.settings.creditsInitialBalance
            dailyAllowance := dailyAllowance.getD w.settings.creditsDailyAllowance }) }
    return userId

end NukeLab.Users
