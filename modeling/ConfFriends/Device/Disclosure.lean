import ConfFriends.Transition.Register
import ConfFriends.Device.Effects

/-!
# What a device discloses

To everybody else a user is at a coordinate, as of some date, or nowhere. `Users.whereabouts`
reads that off the database, and `Device.discloses` says what an event of a device does to
it : it puts one user at a coordinate, or takes one user off. `Device.whereabouts_step` is the exact
effect of a step, so the database is for the whereabouts what a register per user is, and
nothing but a publication ever puts anybody anywhere.

A user is taken off by the decision not to share, by `deleteUser`, and by the block of
`saveZone` when the record it has read lies in the zone. That block reads the record of
the user who saved the zone, and clears that of whoever is signed in when it runs.
-/

set_option linter.unusedSectionVars false

open Transition

namespace ConfFriends

variable {K : Type*} [LinearOrder K] [Zero K] [IntCast K] {P : Platform K}

/-! ## Whereabouts -/

/-- Where and when each user is seen, if anywhere. -/
abbrev Whereabouts (K : Type*) := String → Option (Sighting K)

/-- What a write shows. -/
def LocationWrite.sighting (w : LocationWrite K) : Sighting K :=
  ⟨w.coordinate, some w.updatedAt⟩

namespace Users

def whereabouts (users : Users K) : Whereabouts K :=
  fun uid => (users uid).sighting?

theorem whereabouts_updateChildValues (users : Users K) (uid : String)
    (f : UserRecord K → UserRecord K) :
    (users.updateChildValues uid f).whereabouts =
      Function.update users.whereabouts uid (f (users uid)).sighting? := by
  funext u
  by_cases hu : u = uid
  · subst hu
    simp [whereabouts]
  · simp [whereabouts, hu]

/-- An update that keeps where and when the user is seen. -/
theorem whereabouts_of_sighting?_eq (users : Users K) (uid : String)
    {f : UserRecord K → UserRecord K} (hf : (f (users uid)).sighting? = (users uid).sighting?) :
    (users.updateChildValues uid f).whereabouts = users.whereabouts := by
  rw [whereabouts_updateChildValues, hf]
  exact Function.update_eq_self uid users.whereabouts

theorem whereabouts_removeValue (users : Users K) (uid : String) :
    (users.removeValue uid).whereabouts = Function.update users.whereabouts uid none := by
  funext u
  by_cases hu : u = uid
  · subst hu
    simp [whereabouts]
  · simp [whereabouts, hu]

theorem whereabouts_store (users : Users K) (w : LocationWrite K) :
    (users.store w).whereabouts = Function.update users.whereabouts w.uid (some w.sighting) := by
  rw [store, whereabouts_updateChildValues, UserRecord.sighting?_setLocation]
  rfl

end Users

/-- The current user is taken off, if there is one. -/
theorem Stored.whereabouts_hideCurrent (s : Stored K) :
    s.hideCurrent.users.whereabouts =
      Register.write s.users.whereabouts (s.currentUser.map fun uid => (uid, none)) := by
  unfold hideCurrent
  cases s.currentUser with
  | none => rfl
  | some uid =>
    dsimp only [Option.elim_some, Option.map_some, Register.write_some]
    rw [Users.whereabouts_updateChildValues, UserRecord.sighting?_removeCoordinate]

/-! ## Disclosures -/

/-- The `i`-th read has been served with a record in the privacy zone. -/
def App.readsInZone (P : Platform K) (i : ℕ) (a : App K) : Bool :=
  match a.zoneReads[i]? with
  | some ⟨uid, some snapshot⟩ =>
    snapshot.snapshotExists &&
      P.mapRectContainsPoint (mapRectForKey P a.defaults.ddfPrivacyZone)
        (P.mapPointForCoordinate
          (DDFUser.initWithModelDictionary P.urlWithString uid snapshot).coordinate)
  | _ => false

namespace Device

/-- The event takes the current user off. -/
def withholds (P : Platform K) : Device K → Event K → Bool
  | .running a, .answerZoneRead i => a.readsInZone P i
  | .running _, .deleteUser => true
  | .running _, e => e.decides = some false
  | .terminated _, _ => false

/-- Who is put where, or taken off, by an event. -/
def discloses (P : Platform K) (d : Device K) (e : Event K) :
    Option (String × Option (Sighting K)) :=
  match published P d e with
  | some w => some (w.uid, some w.sighting)
  | none => if withholds P d e then d.stored.currentUser.map fun uid => (uid, none) else none

/-- An event that neither publishes nor withholds. -/
theorem discloses_eq_none {d : Device K} {e : Event K} (hpublished : published P d e = none)
    (hwithholds : withholds P d e = false) : discloses P d e = none := by
  simp [discloses, hpublished, hwithholds]

/-- An event that withholds. -/
theorem discloses_of_withholds {d : Device K} {e : Event K} (hpublished : published P d e = none)
    (hwithholds : withholds P d e = true) :
    discloses P d e = d.stored.currentUser.map fun uid => (uid, none) := by
  simp [discloses, hpublished, hwithholds]

/-- A user is put somewhere by a publication. -/
theorem discloses_eq_some_some {d : Device K} {e : Event K} {uid : String}
    {seen : Sighting K} (h : discloses P d e = some (uid, some seen)) :
    ∃ w, published P d e = some w ∧ w.uid = uid ∧ w.sighting = seen := by
  unfold discloses at h
  split at h
  · next w hw =>
    obtain ⟨rfl, heq⟩ := Prod.mk.inj (Option.some.inj h)
    exact ⟨w, hw, rfl, Option.some.inj heq⟩
  · split at h
    · obtain ⟨uid', -, heq⟩ := Option.map_eq_some_iff.1 h
      simp at heq
    · simp at h

/-! ## The effect of a step -/

/-- A sign-in writes a profile at most. -/
theorem whereabouts_signIn (a : App K) (credentials : FCTwitterCredentials) (user : FIRUser) :
    (a.startTwitterAuthentication credentials (.user user)).stored.users.whereabouts =
      a.users.whereabouts := by
  rcases a.startTwitterAuthentication_cases credentials user with
    ⟨-, message, h⟩ | ⟨-, -, h⟩ | ⟨-, -, displayName, avatar, twitterID, username, h⟩
  · rw [h]
    rfl
  · rw [h]
    rfl
  · rw [h]
    exact Users.whereabouts_of_sighting?_eq a.users user.uid rfl

/-- The block of `saveZone` takes the current user off iff the record it was served lies in
the zone. -/
theorem whereabouts_answerZoneRead {a : App K} {i : ℕ} {d' : Device K}
    (h : a.answerZoneRead P i = some d') :
    d'.stored.users.whereabouts =
      Register.write a.users.whereabouts (discloses P (.running a) (.answerZoneRead i)) := by
  unfold App.answerZoneRead at h
  split at h
  · next uid snapshot hread =>
    obtain rfl := Option.some.inj h
    rcases App.zoneReadBlock_cases P uid snapshot
      { a with zoneReads := a.zoneReads.eraseIdx i } with ⟨hexists, hinside, heq⟩ | ⟨hnot, heq⟩
    · rw [heq, App.stored_removeCoordinate, Stored.whereabouts_hideCurrent,
        discloses_of_withholds rfl (by simp [withholds, App.readsInZone, hread, hexists, hinside])]
      rfl
    · rw [heq, discloses_eq_none rfl (by simpa [withholds, App.readsInZone, hread] using hnot)]
      rfl
  · simp at h

/-- The main queue runs a block : a write puts the current user at its coordinate. -/
theorem whereabouts_runBlock (a : App K) (clock : ClockReadings) (arc4random : UInt32) :
    (a.runBlock P clock arc4random).1.users.whereabouts =
      Register.write a.users.whereabouts
        (discloses P (.running a) (.runBlock clock arc4random)) := by
  have hpublished : published P (.running a) (.runBlock clock arc4random) =
      (a.runBlock P clock arc4random).2 := rfl
  rcases a.runBlock_cases P clock arc4random with ⟨-, heq⟩ | ⟨fix, -, -, write, -, heq⟩
  · rw [heq] at hpublished ⊢
    rw [discloses_eq_none hpublished rfl]
    rfl
  · rw [heq] at hpublished ⊢
    cases write with
    | none =>
      rw [discloses_eq_none hpublished rfl]
      rfl
    | some w =>
      have hdiscloses : discloses P (.running a) (.runBlock clock arc4random) =
          some (w.uid, some w.sighting) := by
        simp [discloses, hpublished]
      rw [hdiscloses]
      exact Users.whereabouts_store a.users w

/-- The whereabouts change by the disclosure of the step. -/
theorem whereabouts_step {d d' : Device K} {e : Event K} (h : d.step P e = some d') :
    d'.stored.users.whereabouts = Register.write d.stored.users.whereabouts (discloses P d e) := by
  cases d with
  | terminated s =>
    obtain ⟨services, locationKey, rfl, rfl⟩ := step_terminated h
    rfl
  | running a =>
    simp only [step] at h
    cases e with
    | launch services locationKey => simp [App.handle] at h
    | signIn credentials result =>
      cases result with
      | error localizedDescription =>
        obtain rfl := Option.some.inj h
        rfl
      | user user =>
        simp only [App.handle, Option.ite_none_left_eq_some, Option.some.injEq] at h
        obtain ⟨-, rfl⟩ := h
        exact whereabouts_signIn a credentials user
    | shareMyLocation =>
      simp only [App.handle, Option.ite_none_right_eq_some, Option.some.injEq] at h
      obtain ⟨-, rfl⟩ := h
      rfl
    | dontShareLocation =>
      simp only [App.handle, Option.ite_none_right_eq_some, Option.some.injEq] at h
      obtain ⟨-, rfl⟩ := h
      rw [App.dontShareLocation, App.stored_removeCoordinate, Stored.whereabouts_hideCurrent]
      rfl
    | locationSwitchChanged isOn =>
      obtain rfl := Option.some.inj h
      cases isOn with
      | false => rfl
      | true =>
        have heq : (a.locationSwitchChanged P true).stored = _ := App.stored_removeCoordinate _
        rw [heq, Stored.whereabouts_hideCurrent]
        rfl
    | deleteUser =>
      obtain rfl := Option.some.inj h
      rw [discloses_of_withholds rfl rfl, App.deleteUser, App.stored_withUserRef]
      cases huser : a.currentUser with
      | none => simp [huser]
      | some uid => simp [huser, Users.whereabouts_removeValue]
    | deleteCompleted uid error =>
      simp only [App.handle, Option.ite_none_right_eq_some, Option.some.injEq] at h
      obtain ⟨-, rfl⟩ := h
      cases error <;> rfl
    | saveZone visibleMapRect =>
      obtain rfl := Option.some.inj h
      cases huser : a.currentUser <;> simp [App.saveZone, App.stored_withUserRef, huser] <;> rfl
    | answerZoneRead i => exact whereabouts_answerZoneRead h
    | runBlock clock arc4random =>
      obtain rfl := App.handle_runBlock h
      exact whereabouts_runBlock a clock arc4random
    | _ =>
      obtain rfl := Option.some.inj h
      rfl

end Device

end ConfFriends
