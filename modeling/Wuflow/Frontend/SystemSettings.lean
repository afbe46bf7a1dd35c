/-
**When the user form asks for the admin's password** (`system-settings.js`).

`getUserUpdateConfirmationCopy` returns the dialog for an update, or nothing for one that needs no
confirmation. A dialog is shown with a password prompt (`promptAdminPasswordConfirmation`), whose input is
sent as `admin_password`.

* `copy_isSome_iff` — which updates get a dialog.
-/

import Wuflow.Frontend.Filters
import Wuflow.Model.Validation

namespace Wuflow.SystemSettings

/-! ### The form -/

/-- What `handleUserSubmit` sends: the values of the form; no password is the empty one. -/
structure UserData where
  email : String
  firstName : String
  lastName : String
  role : UserRole
  active : Bool
  password : String := ""

/-- The part of `editingUserOriginal`, the user as it was loaded, that the dialog depends on. -/
structure Original where
  role : UserRole
  active : Bool
  email : String

/-- `ROLE_DISPLAY_NAMES[role] ?? role`. -/
def roleLabel : UserRole → String
  | .sysadmin => "Sysadmin"
  | .admin => "Admin"
  | .user => "User"
  | .other text => text

/-- `ROLE_RANK[role] ?? -1`. -/
def rank : UserRole → Int
  | .user => 0
  | .admin => 1
  | .sysadmin => 2
  | .other _ => -1

def isRolePromotion (fromRole toRole : UserRole) : Bool := decide (rank fromRole < rank toRole)

/-! ### The dialog -/

structure Copy where
  title : String
  message : String

/-- One confirmable change: the dialog for it alone, and its line in a combined one. -/
structure Case extends Copy where
  change : String
  signsOut : Bool

def UserData.name (userData : UserData) : String :=
  Frontend.trim (userData.firstName ++ " " ++ userData.lastName)

def passwordCase (name : String) : Case where
  title := "Confirm Password Reset"
  message := "Do you really want to reset the password for " ++ name ++ "?\n" ++
    "This immediately sets a new password and signs them out of every active session (<15min)."
  change := "Set a new password"
  signsOut := true

def emailCase (name email : String) : Case where
  title := "Confirm Email Change"
  message := "Do you really want to change " ++ name ++ "'s login email to " ++ email ++ "?\n" ++
    "This signs them out of every active session (<15min); they must then log in with the new email."
  change := "Change the login email to " ++ email ++ "; they must then log in with the new email"
  signsOut := true

def deactivationCase (name : String) : Case where
  title := "Confirm Deactivation"
  message := "Do you really want to deactivate " ++ name ++ "?\n" ++
    "This blocks new logins until reactivated and signs them out of every active session (<15min)."
  change := "Deactivate the account; this blocks new logins until reactivated"
  signsOut := true

def reactivationCase (name : String) : Case where
  title := "Confirm Reactivation"
  message := "Do you really want to reactivate " ++ name ++ "?\nThis allows them to log in again."
  change := "Reactivate the account; this allows them to log in again"
  signsOut := false

def roleCase (name role : String) : Case where
  title := "Confirm Role Change"
  message := "Do you really want to change " ++ name ++ "'s role to " ++ role ++ "?\n" ++
    "This signs them out of every active session (<15min); the new permissions apply from their next login."
  change := "Change the role to " ++ role ++ "; the new permissions apply from their next login"
  signsOut := true

/-- The confirmable changes of an update. -/
def cases (userData : UserData) (original : Original) : List Case :=
  (if userData.password ≠ "" then [passwordCase userData.name] else []) ++
  (if userData.email ≠ original.email then [emailCase userData.name userData.email] else []) ++
  (if userData.active = false ∧ original.active = true then [deactivationCase userData.name]
    else if userData.active ≠ original.active then [reactivationCase userData.name]
    else []) ++
  (if isRolePromotion original.role userData.role then [roleCase userData.name (roleLabel userData.role)]
    else [])

/-- The dialog for several changes at once. -/
def combined (name : String) (cases : List Case) : Copy where
  title := "Confirm User Changes"
  message := "Do you really want to apply these changes to " ++ name ++ "?\n" ++
    "\n".intercalate (cases.map fun c => "• " ++ c.change) ++
    (if cases.any Case.signsOut then "\nThis signs them out of every active session (<15min)." else "")

/-- **`getUserUpdateConfirmationCopy`.** -/
def getUserUpdateConfirmationCopy (userData : UserData) (original : Original) : Option Copy :=
  match cases userData original with
  | [] => none
  | [only] => some only.toCopy
  | several => some (combined userData.name several)

/-- **The updates that get a dialog.** -/
theorem copy_isSome_iff (userData : UserData) (original : Original) :
    (getUserUpdateConfirmationCopy userData original).isSome = true ↔
      userData.password ≠ "" ∨ userData.email ≠ original.email ∨ userData.active ≠ original.active ∨
        rank original.role < rank userData.role := by
  have shown : (getUserUpdateConfirmationCopy userData original).isSome = true ↔
      cases userData original ≠ [] := by
    unfold getUserUpdateConfirmationCopy
    split
    · next none => simp [none]
    · next only => simp [only]
    · next several _ => exact ⟨fun _ => several, fun _ => rfl⟩
  have toggled : ((if userData.active = false ∧ original.active = true then [deactivationCase userData.name]
      else if userData.active ≠ original.active then [reactivationCase userData.name]
      else []) ≠ []) ↔ userData.active ≠ original.active := by
    cases userData.active <;> cases original.active <;> simp
  have either : ∀ xs ys : List Case, xs ++ ys ≠ [] ↔ xs ≠ [] ∨ ys ≠ [] := by
    intro xs ys
    rw [ne_eq, List.append_eq_nil_iff, not_and_or]
  have listed : ∀ (changed : Prop) [Decidable changed] (c : Case),
      ((if changed then [c] else []) ≠ []) ↔ changed := by
    intro changed _ c
    by_cases here : changed <;> simp [here]
  rw [shown]
  unfold cases
  rw [either, either, either, listed, listed, listed, toggled, isRolePromotion, decide_eq_true_iff,
    or_assoc, or_assoc]

end Wuflow.SystemSettings
