import ConfFriends.Device.Effects

/-!
# Disabled and hidden

While the switch reads 'disabled and hidden', the record of the signed-in account
should have no coordinate. Setting the flag clears the record, and a disabled device
publishes nothing. But the flag belongs to the device and the record to the account :
an account that signs in while the flag is set brings the coordinates it shared before
(`hidden_by_another_account`). Nothing else breaks it, so the account stays hidden along
a run iff no sign-in does this.
-/

set_option linter.unusedSectionVars false

open Transition

namespace ConfFriends

variable {K : Type*} [LinearOrder K] [Zero K] [IntCast K] {P : Platform K}

/-! ## Hidden records -/

/-- The record has neither coordinate. -/
def UserRecord.Hidden (r : UserRecord K) : Prop :=
  r.latitude = none ∧ r.longitude = none

namespace Device

/-- A disabled device has the record of its account hidden. -/
def DisabledHides (d : Device K) : Prop :=
  d.stored.defaults.locationDisabled = true →
    ∀ uid, d.stored.currentUser = some uid → (d.stored.users uid).Hidden

/-- An account that signs in on a disabled device is hidden already. -/
def SignsInHidden (d : Device K) (e : Event K) : Prop :=
  d.stored.defaults.locationDisabled = true →
    ∀ uid, e.signsIn = some uid → (d.stored.users uid).Hidden

/-- A step other than such a sign-in keeps the account hidden. -/
theorem disabledHides_step {d d' : Device K} {e : Event K} (hI : d.DisabledHides)
    (h : d.step P e = some d') (hok : SignsInHidden d e) : d'.DisabledHides := by
  have hs := storedStep_of_step h
  unfold DisabledHides
  generalize d'.stored = s' at hs ⊢
  intro hdisabled uid huid
  cases hs with
  | keep hsign hdecides hpublished defaults hchange =>
    exact hI (hchange.locationDisabled ▸ hdisabled) uid huid
  | share hsign hdecides => simp [NSUserDefaults.locationDisabled] at hdisabled
  | hide hsign hdecides =>
    have huser : d.stored.currentUser = some uid := huid
    simp [Stored.hideCurrent, huser, UserRecord.Hidden]
  | clear hsign hdecides hpublished =>
    have huser : d.stored.currentUser = some uid := huid
    simp [Stored.hideCurrent, huser, UserRecord.Hidden]
  | publish hsign hdecides w hpublished huser henabled defaults hchange =>
    -- a disabled device does not publish
    rw [hchange.locationDisabled, henabled] at hdisabled
    simp at hdisabled
  | signOut hsign hdecides hpublished => simp at huid
  | signInRaised hdecides uid' hsign hwrites hlive =>
    obtain rfl : uid' = uid := by simpa using huid
    exact hok hdisabled uid' hsign
  | signIn hdecides uid' hsign hwrites hlive name avatar twitterID username =>
    obtain rfl : uid' = uid := by simpa using huid
    obtain ⟨hlat, hlon⟩ := hok hdisabled uid' hsign
    simp [UserRecord.Hidden, UserRecord.setProfile, hlat, hlon]
  | removeUser he uid' huser =>
    obtain rfl : uid' = uid := by simpa [huser] using huid
    simp [UserRecord.Hidden]
  | accountDeleted uid' he =>
    by_cases huser : d.stored.currentUser = some uid'
    · simp [huser] at huid
    · exact hI hdisabled uid (by simpa [huser] using huid)

/-- A sign-in with coordinates on a disabled device leaves them in the record. -/
theorem not_disabledHides_signIn {d d' : Device K} {e : Event K} (h : d.step P e = some d')
    (hbad : ¬SignsInHidden d e) : ¬d'.DisabledHides := by
  simp only [SignsInHidden, not_forall] at hbad
  obtain ⟨hdisabled, uid, hsigns, hshown⟩ := hbad
  have hs := storedStep_of_step h
  unfold DisabledHides
  generalize d'.stored = s' at hs ⊢
  intro hall
  refine hshown ?_
  cases hs with
  | signInRaised hdecides uid' hsign hwrites hlive =>
    obtain rfl : uid' = uid := by simpa [hsign] using hsigns
    exact hall hdisabled uid' rfl
  | signIn hdecides uid' hsign hwrites hlive name avatar twitterID username =>
    obtain rfl : uid' = uid := by simpa [hsign] using hsigns
    simpa [UserRecord.Hidden, UserRecord.setProfile] using hall hdisabled uid' rfl
  | removeUser he => simp [he, Event.signsIn] at hsigns
  | accountDeleted uid' he => simp [he, Event.signsIn] at hsigns
  | _ => simp_all

/-- The account of a disabled device stays hidden iff no account signs in on a disabled
device with a coordinate in its record. -/
theorem disabledHides_iff_signsInHidden (users : Users K) (es : List (Event K)) :
    EveryState (step P) (fun _ d => d.DisabledHides) (installed users) es ↔
      EveryStep (step P) (fun _ d e _ => SignsInHidden d e) (installed users) es := by
  refine everyState_iff_everyStep (I := fun _ d => d.DisabledHides) ?_ ?_ ?_ ?_ es
  · intro hdisabled
    simp [installed, NSUserDefaults.locationDisabled] at hdisabled
  · exact fun _ _ hI => hI
  · exact fun _ _ _ _ _ hI h hok => disabledHides_step hI h hok
  · exact fun _ _ _ _ _ _ h hbad => not_disabledHides_signIn h hbad

/-! ## Two accounts on one device -/

/-- One account shares a location and signs out, another one declines to share, and the
first one signs in again. -/
def twoAccounts : List (Event ℤ) :=
  [.launch ⟨true, .authorizedWhenInUse⟩ false, sampleSignIn "a", .shareMyLocation,
    .didUpdateLocations ⟨10, 20⟩, .runBlock ⟨100, 100, 100⟩ 7, .signoutUser,
    sampleSignIn "b", .dontShareLocation, .signoutUser, sampleSignIn "a"]

/-- The switch reads 'disabled and hidden', and the account is on the map. -/
theorem hidden_by_another_account :
    ¬EveryState (step Platform.flat) (fun _ d => d.DisabledHides) (installed fun _ => {})
      twoAccounts := by
  intro hall
  have hhidden := (hall.last rfl (by decide) "a" (by decide)).1
  exact absurd hhidden (by decide)

end Device

end ConfFriends
