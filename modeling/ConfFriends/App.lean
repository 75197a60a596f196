import ConfFriends.AppDelegate

/-!
# The running app

`Stored` is what survives the process : the preferences, the signed-in user in the
keychain and the database, with the accounts deleted on the server. `App` is a
running process on top of it, and a `Device` runs the app or does not.

A handler that builds a database reference with the uid of nobody, reads past the end
of an array or puts a `nil` in a dictionary literal raises, and the process ends
(`raise`). What it had stored by then stays stored.
-/

set_option linter.unusedSectionVars false

namespace ConfFriends

variable {K : Type*}

/-- What outlives a process. -/
structure Stored (K : Type*) where
  defaults : NSUserDefaults K := {}
  /-- The uid of `[[FIRAuth auth] currentUser]`. -/
  currentUser : Option String := none
  users : Users K
  /-- The accounts whose deletion has completed on the server. -/
  deletedAccounts : List String := []

/-- A read of `users/<uid>` started by `saveZone` : not served yet, or served with a
record that its block has not been given yet. -/
structure ZoneRead (K : Type*) where
  uid : String
  snapshot : Option (UserRecord K) := none

/-- A running process. -/
structure App (K : Type*) extends Stored K where
  delegate : AppDelegate K
  /-- The message of the last 'Whoops' alert. -/
  whoops : Option String := none
  /-- The 'Location Sharing' prompt is open. -/
  locationSharingAlert : Bool := false
  zoneReads : List (ZoneRead K) := []
  /-- The accounts with a `deleteWithCompletion` that has not completed. -/
  deletions : List String := []

/-- A device, with the app running or not. -/
inductive Device (K : Type*)
  | terminated (s : Stored K)
  | running (a : App K)

/-- What is stored on the device and in the database. -/
def Device.stored : Device K → Stored K
  | .terminated s => s
  | .running a => a.toStored

@[simp] theorem Device.stored_terminated (s : Stored K) : (Device.terminated s).stored = s :=
  rfl

@[simp] theorem Device.stored_running (a : App K) : (Device.running a).stored = a.toStored :=
  rfl

namespace App

/-- An exception that nobody catches. -/
def raise (a : App K) : Device K :=
  .terminated a.toStored

/-- `child:` with the uid of the current user, which raises without one. -/
def withUserRef (a : App K) (f : String → App K) : Device K :=
  match a.currentUser with
  | none => a.raise
  | some uid => .running (f uid)

theorem withUserRef_of_signedIn {a : App K} {uid : String} (h : a.currentUser = some uid)
    (f : String → App K) : a.withUserRef f = .running (f uid) := by
  unfold withUserRef
  rw [h]

/-- The handler has not raised, so somebody is signed in. -/
theorem withUserRef_eq_running {a a' : App K} {f : String → App K}
    (h : a.withUserRef f = .running a') : ∃ uid, a.currentUser = some uid ∧ a' = f uid := by
  unfold withUserRef at h
  split at h
  · simp [raise] at h
  · next uid huser => exact ⟨uid, huser, (Device.running.inj h).symm⟩

/-- `removeValue` on the children `latitude` and `longitude` of the current user. -/
def removeCoordinate (a : App K) : Device K :=
  a.withUserRef fun uid =>
    { a with users := a.users.updateChildValues uid UserRecord.removeCoordinate }

end App

end ConfFriends
