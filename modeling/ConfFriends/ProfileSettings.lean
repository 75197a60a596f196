import ConfFriends.App
import ConfFriends.Country

/-!
# The name and the country of the settings

The rows of the section 'Profile' of the settings update the record of the signed-in user :
the alert 'Change Name' the name, the list of countries the country and its code. Neither
looks whether there is a record to update, so an update of a record that has been removed
makes a new one.

`App.ProfileStep` is what these handlers do, and all that the phone needs to know of them.
-/

set_option linter.unusedSectionVars false

namespace ConfFriends

variable {K : Type*}

/-! ## Records -/

/-- The record with a name. -/
def UserRecord.setName (r : UserRecord K) (name : String) : UserRecord K :=
  { r with name := some name }

namespace UserRecord

@[simp] theorem sighting?_setName (r : UserRecord K) (name : String) :
    (r.setName name).sighting? = r.sighting? :=
  rfl

@[simp] theorem sighting?_setCountry (r : UserRecord K) (countryCode country : String) :
    (r.setCountry countryCode country).sighting? = r.sighting? :=
  rfl

/-- A record with a name exists. -/
theorem setName_ne_empty (r : UserRecord K) (name : String) : r.setName name ≠ {} :=
  fun h => by simpa [setName] using congrArg UserRecord.name h

/-- A record with a country exists. -/
theorem setCountry_ne_empty (r : UserRecord K) (countryCode country : String) :
    r.setCountry countryCode country ≠ {} :=
  fun h => by simpa [setCountry] using congrArg UserRecord.country h

end UserRecord

/-! ## Handlers -/

namespace App

/-- The action 'Save' of 'Change Name', with the text of its field. -/
def saveName (text : String) (a : App K) : Device K :=
  if text = "" then .running a
  else a.withUserRef fun uid =>
    { a with users := a.users.updateChildValues uid fun r => r.setName text }

/-- A tap on a row of the list of countries. What it stores on the device besides is that
of `CountryViewController`. -/
def selectCountry (L : CountryLocale) (row : ℕ) (a : App K) : Device K :=
  let screen : CountryViewController K := { currentUser := a.currentUser, users := a.users }
  a.withUserRef fun _ => { a with users := (screen.didSelectRowAtIndexPath L row).users }

end App

/-! ## Writes -/

/-- The name or the country of a record is set. -/
inductive UserRecord.ProfileChange (r : UserRecord K) : UserRecord K → Prop
  | name (text : String) : ProfileChange r (r.setName text)
  | country (countryCode country : String) : ProfileChange r (r.setCountry countryCode country)

theorem UserRecord.ProfileChange.sighting? {r r' : UserRecord K} (h : r.ProfileChange r') :
    r'.sighting? = r.sighting? := by
  cases h with
  | name text => exact sighting?_setName r text
  | country countryCode country => exact sighting?_setCountry r countryCode country

theorem UserRecord.ProfileChange.ne_empty {r r' : UserRecord K} (h : r.ProfileChange r') :
    r' ≠ {} := by
  cases h with
  | name text => exact r.setName_ne_empty text
  | country countryCode country => exact r.setCountry_ne_empty countryCode country

/-- The signed-in user changes the name or the country. -/
inductive Stored.ProfileWrite (s : Stored K) (uid : String) : Stored K → Prop
  | mk (huser : s.currentUser = some uid) (f : UserRecord K → UserRecord K)
    (hf : ∀ r : UserRecord K, r.ProfileChange (f r)) :
    ProfileWrite s uid { s with users := s.users.updateChildValues uid f }

/-- It is the record of the signed-in user that changes. -/
theorem Stored.ProfileWrite.currentUser {s s' : Stored K} {uid : String}
    (h : s.ProfileWrite uid s') : s.currentUser = some uid := by
  cases h
  assumption

theorem Stored.ProfileWrite.deletedAccounts {s s' : Stored K} {uid : String}
    (h : s.ProfileWrite uid s') : s'.deletedAccounts = s.deletedAccounts := by
  cases h
  rfl

/-- The other records stay. -/
theorem Stored.ProfileWrite.record_of_ne {s s' : Stored K} {uid uid' : String}
    (h : s.ProfileWrite uid s') (hne : uid' ≠ uid) : s'.users uid' = s.users uid' := by
  cases h with
  | mk huser f hf => exact s.users.updateChildValues_of_ne hne f

/-- The record exists after the write, whether it existed before or not. -/
theorem Stored.ProfileWrite.ne_empty {s s' : Stored K} {uid : String}
    (h : s.ProfileWrite uid s') : s'.users uid ≠ {} := by
  cases h with
  | mk huser f hf =>
    exact (s.users.updateChildValues_self uid f).trans_ne (hf (s.users uid)).ne_empty

/-- A handler raises without a user, and with one it changes the name or the country. -/
inductive App.ProfileStep (a : App K) : Device K → Prop
  | raise (huser : a.currentUser = none) : ProfileStep a a.raise
  | write (uid : String) (a' : App K) (hwrite : a.toStored.ProfileWrite uid a'.toStored) :
    ProfileStep a (.running a')

/-- Nobody is signed in or out. -/
theorem App.ProfileStep.currentUser {a : App K} {d : Device K} (h : a.ProfileStep d) :
    d.stored.currentUser = a.currentUser := by
  cases h with
  | raise huser => rfl
  | write uid a' hwrite =>
    rw [Device.stored_running]
    generalize a'.toStored = s' at hwrite ⊢
    cases hwrite
    rfl

/-- With somebody signed in the handler writes. -/
theorem App.ProfileStep.profileWrite {a : App K} {d : Device K} {uid : String}
    (h : a.ProfileStep d) (huser : a.currentUser = some uid) :
    a.toStored.ProfileWrite uid d.stored := by
  cases h with
  | raise hnone => simp [hnone] at huser
  | write uid' a' hwrite =>
    obtain rfl : uid' = uid := Option.some.inj (hwrite.currentUser.symm.trans huser)
    exact hwrite

namespace App

theorem profileStep_withUserRef {a : App K} {f : String → UserRecord K → UserRecord K}
    (hf : ∀ uid (r : UserRecord K), r.ProfileChange (f uid r)) :
    a.ProfileStep (a.withUserRef fun uid =>
      { a with users := a.users.updateChildValues uid (f uid) }) := by
  rcases Option.eq_none_or_eq_some a.currentUser with huser | ⟨uid, huser⟩
  · have hraise := ProfileStep.raise huser
    rwa [withUserRef, huser]
  · rw [withUserRef_of_signedIn huser]
    exact .write uid _ (.mk huser (f uid) (hf uid))

theorem profileStep_saveName {text : String} (h : text ≠ "") (a : App K) :
    a.ProfileStep (a.saveName text) := by
  rw [saveName, if_neg h]
  exact profileStep_withUserRef fun _ _ => .name text

theorem profileStep_selectCountry {L : CountryLocale} {row : ℕ}
    (h : row < L.countryCodes.length) (a : App K) : a.ProfileStep (a.selectCountry L row) := by
  obtain ⟨-, name, hname, -⟩ := L.exists_name_of_code (List.getElem?_eq_getElem h)
  have hselect : a.selectCountry L row = a.withUserRef fun uid =>
      { a with users := a.users.updateChildValues uid fun r =>
        r.setCountry L.countryCodes[row] name } := by
    unfold selectCountry withUserRef
    cases huser : a.currentUser <;>
      simp [CountryViewController.didSelectRowAtIndexPath, hname, h]
  rw [hselect]
  exact profileStep_withUserRef fun _ _ => .country _ name

end App

end ConfFriends
