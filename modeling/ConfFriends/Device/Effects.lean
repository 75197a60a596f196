import ConfFriends.Device

/-!
# What a step does to the stored state

`StoredStep` lists the effects that an event can have on the preferences, the current
user and the database, one constructor a kind of effect, and `storedStep_of_step` is
the inversion of `step` : an invariant of the stored state is checked against the
constructors, not against the events.

The constructors say which events have the effect by two readings of an event :
`signsIn` is the uid of a completed sign-in, and `decides` the decision about sharing
that the user takes by answering the prompt or moving the switch.
-/

set_option linter.unusedSectionVars false

namespace ConfFriends

variable {K : Type*} [LinearOrder K] [Zero K] [IntCast K] {P : Platform K}

/-! ## Reading events -/

/-- The uid that a completed sign-in signs in, unless a check signs it out again. -/
def Event.signsIn : Event K → Option String
  | .signIn credentials (.user user) =>
    if App.failsCheck credentials user then none else some user.uid
  | _ => none

/-- The uid whose profile a sign-in writes. -/
def Event.writesProfile : Event K → Option String
  | .signIn credentials (.user user) =>
    if App.profileComplete credentials user then some user.uid else none
  | _ => none

theorem App.profileComplete_of_failsCheck {credentials : FCTwitterCredentials} {user : FIRUser}
    (h : failsCheck credentials user = true) : profileComplete credentials user = false := by
  unfold failsCheck profileComplete at *
  split at h
  · simp at h
  · rw [Bool.not_eq_eq_eq_not, Bool.not_true] at h
    simp [h]

/-- Who is not signed in has no profile written. -/
theorem Event.writesProfile_of_signsIn {e : Event K} (h : e.signsIn = none) :
    e.writesProfile = none := by
  cases e with
  | signIn credentials result =>
    cases result with
    | error localizedDescription => rfl
    | user user =>
      have hfails : App.failsCheck credentials user = true := by simpa [signsIn] using h
      simp [writesProfile, App.profileComplete_of_failsCheck hfails]
  | _ => rfl

/-- The decision to share, or not to share, that an event takes. -/
def Event.decides : Event K → Option Bool
  | .shareMyLocation => some true
  | .dontShareLocation => some false
  | .locationSwitchChanged isOn => some !isOn
  | _ => none

/-- The privacy zone that an event stores, or that there is none any more. -/
def Event.setsZone : Event K → Option (Option (MKMapRect K))
  | .saveZone visibleMapRect => some (some visibleMapRect)
  | .deleteZone => some none
  | _ => none

/-- A zone is set by saving it. -/
theorem Event.eq_saveZone_of_setsZone {e : Event K} {mapRect : MKMapRect K}
    (h : e.setsZone = some (some mapRect)) : e = .saveZone mapRect := by
  cases e with
  | saveZone visibleMapRect => simpa [setsZone] using h
  | _ => simp [setsZone] at h

/-! ## Changes of the preferences -/

/-- The changes of the preferences by an event, other than that of `DDFLocationDisabled`. -/
inductive NSUserDefaults.Change (e : Event K) : NSUserDefaults K → NSUserDefaults K → Prop
  | same (d : NSUserDefaults K) : Change e d d
  | accuracy (d : NSUserDefaults K) (v : INTULocationAccuracy) :
    Change e d { d with ddfAccuracy := some v }
  | privacyZone (d : NSUserDefaults K) (mapRect : Option (MKMapRect K))
    (hsets : e.setsZone = some mapRect) :
    Change e d { d with ddfPrivacyZone := mapRect.map setMapRect }
  | fuzzSwitch (d : NSUserDefaults K) (isOn : Bool) :
    Change e d { d with
      ddfLocationFuzzingEnabled := some isOn
      ddfLocationFuzzingRadius := some (d.ddfLocationFuzzingRadius.getD 2000)
      ddfLocationFuzzingDistance := some (d.ddfLocationFuzzingDistance.getD 2000) }
  | radius (d : NSUserDefaults K) (v : ℤ) :
    Change e d { d with ddfLocationFuzzingRadius := some v }
  | distance (d : NSUserDefaults K) (i : ℤ) :
    Change e d { d with ddfLocationFuzzingDistance := some (App.segmentDistance i) }
  | bearing (d : NSUserDefaults K) (arc4random : UInt32) : Change e d (drawBearing arc4random d)

theorem NSUserDefaults.Change.locationDisabled {e : Event K} {d d' : NSUserDefaults K}
    (h : d.Change e d') : d'.locationDisabled = d.locationDisabled := by
  cases h with
  | bearing arc4random =>
    unfold drawBearing
    split <;> rfl
  | _ => rfl

/-- The stored zone changes by an event that sets it. -/
theorem NSUserDefaults.Change.privacyZone_cases {e : Event K} {d d' : NSUserDefaults K}
    (h : d.Change e d') : d'.ddfPrivacyZone = d.ddfPrivacyZone ∨
      ∃ mapRect, e.setsZone = some mapRect ∧ d'.ddfPrivacyZone = mapRect.map setMapRect := by
  cases h with
  | privacyZone mapRect hsets => exact Or.inr ⟨mapRect, hsets, rfl⟩
  | bearing arc4random =>
    refine Or.inl ?_
    unfold drawBearing
    split <;> rfl
  | _ => exact Or.inl rfl

/-- Fuzzing a location changes the preferences by a draw at most. -/
theorem change_fuzzLocation (P : Platform K) (e : Event K) (arc4random : UInt32)
    (d : NSUserDefaults K) (location : CLLocationCoordinate2D K) :
    d.Change e (fuzzLocation P arc4random d location).1 := by
  unfold fuzzLocation
  split
  · exact .bearing d arc4random
  · exact .same d

/-! ## Effects on the stored state -/

/-- `latitude` and `longitude` of the current user removed. -/
def Stored.hideCurrent (s : Stored K) : Stored K :=
  { s with
    users := s.currentUser.elim s.users fun uid =>
      s.users.updateChildValues uid UserRecord.removeCoordinate }

/-- The record of the current user loses its coordinate, the others stay. -/
theorem Stored.hideCurrent_record (s : Stored K) (u : String) :
    s.hideCurrent.users u = s.users u ∨
      s.currentUser = some u ∧ s.hideCurrent.users u = (s.users u).removeCoordinate := by
  unfold hideCurrent
  cases huser : s.currentUser with
  | none => exact Or.inl rfl
  | some uid =>
    by_cases hu : u = uid
    · subst hu
      exact Or.inr ⟨rfl, Users.updateChildValues_self s.users u _⟩
    · exact Or.inl (Users.updateChildValues_of_ne s.users hu _)

theorem App.stored_removeCoordinate (a : App K) :
    a.removeCoordinate.stored = a.toStored.hideCurrent := by
  obtain ⟨⟨defaults, currentUser, users, deletedAccounts⟩, _, _, _, _, _⟩ := a
  cases currentUser <;> rfl

/-- What a handler that needs the uid of the current user leaves behind. -/
theorem App.stored_withUserRef (a : App K) (f : String → App K) :
    (a.withUserRef f).stored = a.currentUser.elim a.toStored fun uid => (f uid).toStored := by
  unfold withUserRef
  cases a.currentUser <;> rfl

/-- The effects of an event on what is stored. -/
inductive StoredStep (P : Platform K) (d : Device K) (e : Event K) : Stored K → Prop
  /-- At most a preference other than the switch changes. -/
  | keep (hsign : e.signsIn = none) (hdecides : e.decides = none)
    (hpublished : Device.published P d e = none) (defaults : NSUserDefaults K)
    (hchange : d.stored.defaults.Change e defaults) :
    StoredStep P d e { d.stored with defaults := defaults }
  /-- The user decides to share. -/
  | share (hsign : e.signsIn = none) (hdecides : e.decides = some true) :
    StoredStep P d e { d.stored with
      defaults := { d.stored.defaults with ddfLocationDisabled := some false } }
  /-- The user decides not to share, and the record of the current user is cleared. -/
  | hide (hsign : e.signsIn = none) (hdecides : e.decides = some false) :
    StoredStep P d e { d.stored with
      defaults := { d.stored.defaults with ddfLocationDisabled := some true } }.hideCurrent
  /-- The record of the current user is cleared by the block of `saveZone`. -/
  | clear (hsign : e.signsIn = none) (hdecides : e.decides = none)
    (hpublished : Device.published P d e = none) :
    StoredStep P d e d.stored.hideCurrent
  /-- `storeLocation` writes. -/
  | publish (hsign : e.signsIn = none) (hdecides : e.decides = none) (w : LocationWrite K)
    (hpublished : Device.published P d e = some w)
    (huser : d.stored.currentUser = some w.uid)
    (henabled : d.stored.defaults.locationDisabled = false) (defaults : NSUserDefaults K)
    (hchange : d.stored.defaults.Change e defaults) :
    StoredStep P d e { d.stored with defaults := defaults, users := d.stored.users.store w }
  /-- Nobody is signed in any more, by signing out or by a check of the sign-in. -/
  | signOut (hsign : e.signsIn = none) (hdecides : e.decides = none)
    (hpublished : Device.published P d e = none) :
    StoredStep P d e { d.stored with currentUser := none }
  /-- A user is signed in, and the handler raises. -/
  | signInRaised (hdecides : e.decides = none) (uid : String) (hsign : e.signsIn = some uid)
    (hwrites : e.writesProfile = none) (hlive : uid ∉ d.stored.deletedAccounts) :
    StoredStep P d e { d.stored with currentUser := some uid }
  /-- A user is signed in, with the profile written. -/
  | signIn (hdecides : e.decides = none) (uid : String) (hsign : e.signsIn = some uid)
    (hwrites : e.writesProfile = some uid) (hlive : uid ∉ d.stored.deletedAccounts)
    (name avatar twitterID username : String) :
    StoredStep P d e { d.stored with
      currentUser := some uid
      users := d.stored.users.updateChildValues uid fun r =>
        r.setProfile name avatar twitterID username }
  /-- `deleteUser` removes the node of the current user. -/
  | removeUser (he : e = .deleteUser) (uid : String) (huser : d.stored.currentUser = some uid) :
    StoredStep P d e { d.stored with users := d.stored.users.removeValue uid }
  /-- The account of a deletion in flight is gone. -/
  | accountDeleted (uid : String) (he : e = .deleteCompleted uid none) :
    StoredStep P d e { d.stored with
      deletedAccounts := uid :: d.stored.deletedAccounts
      currentUser := if d.stored.currentUser = some uid then none else d.stored.currentUser }

/-- An event that leaves the stored state as it is. -/
theorem StoredStep.same {d : Device K} {e : Event K} (hsign : e.signsIn = none)
    (hdecides : e.decides = none) (hpublished : Device.published P d e = none) :
    StoredStep P d e d.stored :=
  .keep hsign hdecides hpublished d.stored.defaults (.same _)

/-- A sign-in signs out again, raises, or writes the profile. -/
theorem storedStep_signIn {a : App K} {credentials : FCTwitterCredentials} {user : FIRUser}
    (hlive : user.uid ∉ a.deletedAccounts) :
    StoredStep P (.running a) (.signIn credentials (.user user))
      (a.startTwitterAuthentication credentials (.user user)).stored := by
  rcases a.startTwitterAuthentication_cases credentials user with
    ⟨hfails, message, h⟩ | ⟨hfails, hno, h⟩ |
      ⟨hfails, hyes, displayName, avatar, twitterID, username, h⟩
  · rw [h]
    exact .signOut (d := .running a) (by simp [Event.signsIn, hfails]) rfl rfl
  · rw [h]
    exact .signInRaised rfl user.uid (by simp [Event.signsIn, hfails])
      (by simp [Event.writesProfile, hno]) hlive
  · rw [h]
    exact .signIn (d := .running a) rfl user.uid (by simp [Event.signsIn, hfails])
      (by simp [Event.writesProfile, hyes]) hlive displayName avatar twitterID username

/-- The main queue runs a block : `storeLocation` writes, or at most a bearing is drawn. -/
theorem storedStep_runBlock (a : App K) (clock : ClockReadings) (arc4random : UInt32) :
    StoredStep P (.running a) (.runBlock clock arc4random)
      (a.runBlock P clock arc4random).1.toStored := by
  have hpublished : Device.published P (.running a) (.runBlock clock arc4random) =
      (a.runBlock P clock arc4random).2 := rfl
  rcases a.runBlock_cases P clock arc4random with ⟨-, heq⟩ | ⟨fix, -, hpass, write, hwrite, heq⟩
  · rw [heq] at hpublished ⊢
    exact .same rfl rfl hpublished
  · have hchange := change_fuzzLocation P (.runBlock clock arc4random) arc4random a.defaults fix
    rw [heq] at hpublished ⊢
    cases huser : a.currentUser with
    | none =>
      obtain rfl : write = none := by rw [hwrite, huser]; rfl
      exact .keep rfl rfl hpublished _ hchange
    | some uid =>
      rw [huser, Option.map_some] at hwrite
      subst hwrite
      exact .publish rfl rfl _ hpublished huser hpass.enabled _ hchange

/-- The inversion of `step` on the stored state. -/
theorem storedStep_of_step {d d' : Device K} {e : Event K} (h : d.step P e = some d') :
    StoredStep P d e d'.stored := by
  cases d with
  | terminated s =>
    obtain ⟨services, locationKey, rfl, rfl⟩ := Device.step_terminated h
    exact .same rfl rfl rfl
  | running a =>
    simp only [Device.step] at h
    cases e with
    | launch services locationKey => simp [App.handle] at h
    | signIn credentials result =>
      cases result with
      | error localizedDescription =>
        obtain rfl := Option.some.inj h
        exact .same rfl rfl rfl
      | user user =>
        simp only [App.handle] at h
        split at h
        · simp at h
        · next hlive =>
          obtain rfl := Option.some.inj h
          exact storedStep_signIn hlive
    | shareMyLocation =>
      simp only [App.handle, Option.ite_none_right_eq_some, Option.some.injEq] at h
      obtain ⟨-, rfl⟩ := h
      exact .share rfl rfl
    | dontShareLocation =>
      simp only [App.handle, Option.ite_none_right_eq_some, Option.some.injEq] at h
      obtain ⟨-, rfl⟩ := h
      rw [App.dontShareLocation, App.stored_removeCoordinate]
      exact .hide rfl rfl
    | locationSwitchChanged isOn =>
      obtain rfl := Option.some.inj h
      cases isOn with
      | false => exact .share rfl rfl
      | true =>
        have heq : (a.locationSwitchChanged P true).stored = _ := App.stored_removeCoordinate _
        rw [heq]
        exact .hide rfl rfl
    | selectAccuracy accuracy =>
      obtain rfl := Option.some.inj h
      exact .keep rfl rfl rfl _ (.accuracy a.defaults accuracy)
    | signoutUser =>
      obtain rfl := Option.some.inj h
      exact .signOut rfl rfl rfl
    | deleteUser =>
      obtain rfl := Option.some.inj h
      cases huser : a.currentUser with
      | none =>
        have heq : a.deleteUser.stored = a.toStored := by
          simp [App.deleteUser, App.stored_withUserRef, huser]
        exact heq ▸ .same rfl rfl rfl
      | some uid =>
        have heq : a.deleteUser.stored =
            { a.toStored with users := a.users.removeValue uid } := by
          simp [App.deleteUser, App.stored_withUserRef, huser]
        exact heq ▸ .removeUser rfl uid huser
    | deleteCompleted uid error =>
      simp only [App.handle, Option.ite_none_right_eq_some, Option.some.injEq] at h
      obtain ⟨-, rfl⟩ := h
      cases error with
      | some localizedDescription => exact .same rfl rfl rfl
      | none => exact .accountDeleted uid rfl
    | saveZone visibleMapRect =>
      obtain rfl := Option.some.inj h
      have heq : (a.saveZone visibleMapRect).stored = { a.toStored with
          defaults := { a.defaults with ddfPrivacyZone := some (setMapRect visibleMapRect) } } := by
        cases huser : a.currentUser <;> simp [App.saveZone, App.stored_withUserRef, huser]
      exact heq ▸ .keep rfl rfl rfl _ (.privacyZone a.defaults (some visibleMapRect) rfl)
    | deleteZone =>
      obtain rfl := Option.some.inj h
      exact .keep rfl rfl rfl _ (.privacyZone a.defaults none rfl)
    | answerZoneRead i =>
      rcases App.answerZoneRead_cases h with rfl | rfl
      · rw [App.stored_removeCoordinate]
        exact .clear (d := .running a) rfl rfl rfl
      · exact .same (d := .running a) rfl rfl rfl
    | fuzzSwitchChanged isOn =>
      obtain rfl := Option.some.inj h
      exact .keep rfl rfl rfl _ (.fuzzSwitch a.defaults isOn)
    | radiusSliderChanged value =>
      obtain rfl := Option.some.inj h
      exact .keep rfl rfl rfl _ (.radius a.defaults value)
    | distanceSegmentChanged i =>
      obtain rfl := Option.some.inj h
      exact .keep rfl rfl rfl _ (.distance a.defaults i)
    | runBlock clock arc4random =>
      obtain rfl := App.handle_runBlock h
      exact storedStep_runBlock a clock arc4random
    | kill | applicationDidBecomeActive | applicationWillResignActive | serveZoneRead i
      | didUpdateLocations location | didFailWithError
      | didChangeAuthorizationStatus services =>
      obtain rfl := Option.some.inj h
      exact .same rfl rfl rfl

/-! ## One record -/

namespace Device

/-- `deleteUser` removes the node of the account `u`. -/
def removes (u : String) (d : Device K) : Event K → Bool
  | .deleteUser => d.stored.currentUser = some u
  | _ => false

/-- The step writes a location or a profile to the record of `u`. -/
def writes (P : Platform K) (u : String) (d : Device K) (e : Event K) : Bool :=
  (published P d e).any (·.uid = u) || e.writesProfile = some u

/-- Only a block of the main queue publishes, so nothing else happens in the step. -/
theorem published_eq_none {d : Device K} {e : Event K}
    (h : e.decides.isSome ∨ e.signsIn.isSome ∨ ∀ clock arc4random, e ≠ .runBlock clock arc4random) :
    published P d e = none := by
  unfold published
  split
  · next clock arc4random =>
    rcases h with h | h | h
    · simp [Event.decides] at h
    · simp [Event.signsIn] at h
    · exact absurd rfl (h clock arc4random)
  · rfl

/-- The removal takes effect in its step. -/
theorem removes_step {d d' : Device K} {e : Event K} {u : String} (h : d.step P e = some d')
    (hremoves : removes u d e = true) : d'.stored.users u = {} := by
  unfold removes at hremoves
  split at hremoves
  · have huser : d.stored.currentUser = some u := of_decide_eq_true hremoves
    cases d with
    | terminated s => simp [step] at h
    | running a =>
      obtain rfl := Option.some.inj h
      rw [stored_running] at huser
      simp [App.deleteUser, App.stored_withUserRef, huser]
  · simp at hremoves

/-- What a step does to the record of `u` : it is removed, it gets a location or a
profile, or it loses its coordinate at most. -/
theorem record_step {d d' : Device K} {e : Event K} (h : d.step P e = some d') (u : String) :
    (removes u d e = true ∧ d'.stored.users u = {}) ∨
    (removes u d e = false ∧ writes P u d e = true ∧
      ((∃ w, published P d e = some w ∧ w.uid = u ∧ d.stored.currentUser = some u ∧
          d'.stored.users u = (d.stored.users u).setLocation w.coordinate w.updatedAt) ∨
        u ∉ d.stored.deletedAccounts ∧ ∃ name avatar twitterID username, d'.stored.users u =
          (d.stored.users u).setProfile name avatar twitterID username)) ∨
    (removes u d e = false ∧ writes P u d e = false ∧
      (d'.stored.users u = d.stored.users u ∨
        d.stored.currentUser = some u ∧
          d'.stored.users u = (d.stored.users u).removeCoordinate)) := by
  cases hremoves : removes u d e with
  | true => exact Or.inl ⟨rfl, removes_step h hremoves⟩
  | false =>
    -- `writes` is false when neither part of it happens
    have hnot : e.writesProfile ≠ some u → published P d e = none → writes P u d e = false := by
      intro hprofile hpublished
      simp [writes, hprofile, hpublished]
    have hs := storedStep_of_step h
    generalize d'.stored = s' at hs ⊢
    refine Or.inr ?_
    cases hs with
    | keep hsign hdecides hpublished defaults hchange =>
      refine Or.inr ⟨rfl, hnot ?_ hpublished, Or.inl rfl⟩
      simp [Event.writesProfile_of_signsIn hsign]
    | share hsign hdecides =>
      refine Or.inr ⟨rfl, hnot ?_ (published_eq_none (Or.inl (by simp [hdecides]))), Or.inl rfl⟩
      simp [Event.writesProfile_of_signsIn hsign]
    | hide hsign hdecides =>
      refine Or.inr ⟨rfl, hnot ?_ (published_eq_none (Or.inl (by simp [hdecides]))), ?_⟩
      · simp [Event.writesProfile_of_signsIn hsign]
      · exact Stored.hideCurrent_record _ u
    | clear hsign hdecides hpublished =>
      refine Or.inr ⟨rfl, hnot ?_ hpublished, Stored.hideCurrent_record _ u⟩
      simp [Event.writesProfile_of_signsIn hsign]
    | publish hsign hdecides w hpublished huser henabled defaults hchange =>
      by_cases hu : w.uid = u
      · subst hu
        refine Or.inl ⟨rfl, by simp [writes, hpublished], Or.inl ⟨w, hpublished, rfl, huser, ?_⟩⟩
        simp [Users.store]
      · refine Or.inr ⟨rfl, ?_, Or.inl ?_⟩
        · simp [writes, hpublished, hu, Event.writesProfile_of_signsIn hsign]
        · simp [Users.store, Users.updateChildValues_of_ne _ (Ne.symm hu)]
    | signOut hsign hdecides hpublished =>
      refine Or.inr ⟨rfl, hnot ?_ hpublished, Or.inl rfl⟩
      simp [Event.writesProfile_of_signsIn hsign]
    | signInRaised hdecides uid hsign hwrites hlive =>
      refine Or.inr ⟨rfl, hnot (by simp [hwrites]) ?_, Or.inl rfl⟩
      exact published_eq_none (Or.inr (Or.inl (by simp [hsign])))
    | signIn hdecides uid hsign hwrites hlive name avatar twitterID username =>
      by_cases hu : uid = u
      · subst hu
        refine Or.inl ⟨rfl, by simp [writes, hwrites],
          Or.inr ⟨hlive, name, avatar, twitterID, username, ?_⟩⟩
        simp
      · refine Or.inr ⟨rfl, hnot (by simpa [hwrites] using hu) ?_, Or.inl ?_⟩
        · exact published_eq_none (Or.inr (Or.inl (by simp [hsign])))
        · simp [Users.updateChildValues_of_ne _ (Ne.symm hu)]
    | removeUser he uid huser =>
      subst he
      have hu : u ≠ uid := by
        rintro rfl
        simp [removes, huser] at hremoves
      refine Or.inr ⟨rfl, hnot (by simp [Event.writesProfile]) ?_,
        Or.inl (Users.removeValue_of_ne _ hu)⟩
      exact published_eq_none (Or.inr (Or.inr (by simp)))
    | accountDeleted uid he =>
      subst he
      refine Or.inr ⟨rfl, hnot (by simp [Event.writesProfile]) ?_, Or.inl rfl⟩
      exact published_eq_none (Or.inr (Or.inr (by simp)))

/-- A user gets signed in by a sign-in only, and not to a deleted account. -/
theorem currentUser_step {d d' : Device K} {e : Event K} (h : d.step P e = some d') {u : String}
    (hu : d'.stored.currentUser = some u) :
    d.stored.currentUser = some u ∨ e.signsIn = some u ∧ u ∉ d.stored.deletedAccounts := by
  have hs := storedStep_of_step h
  generalize d'.stored = s' at hs hu
  cases hs with
  | signOut hsign hdecides hpublished => simp at hu
  | signInRaised hdecides uid hsign hwrites hlive =>
    obtain rfl : uid = u := by simpa using hu
    exact Or.inr ⟨hsign, hlive⟩
  | signIn hdecides uid hsign hwrites hlive name avatar twitterID username =>
    obtain rfl : uid = u := by simpa using hu
    exact Or.inr ⟨hsign, hlive⟩
  | accountDeleted uid he =>
    by_cases huser : d.stored.currentUser = some uid
    · simp [huser] at hu
    · exact Or.inl (by simpa [huser] using hu)
  | _ => exact Or.inl hu

/-- The uid of a completed sign-in is signed in. -/
theorem signsIn_step {d d' : Device K} {e : Event K} (h : d.step P e = some d')
    {uid : String} (hsigns : e.signsIn = some uid) : d'.stored.currentUser = some uid := by
  have hs := storedStep_of_step h
  generalize d'.stored = s' at hs ⊢
  cases hs with
  | signInRaised hdecides uid' hsign hwrites hlive =>
    obtain rfl : uid' = uid := by simpa [hsign] using hsigns
    rfl
  | signIn hdecides uid' hsign hwrites hlive name avatar twitterID username =>
    obtain rfl : uid' = uid := by simpa [hsign] using hsigns
    rfl
  | removeUser he => simp [he, Event.signsIn] at hsigns
  | accountDeleted uid' he => simp [he, Event.signsIn] at hsigns
  | _ => simp_all

end Device

/-! ## The switch -/

/-- The switch changes by decisions only. -/
theorem locationDisabled_step {d d' : Device K} {e : Event K} (h : d.step P e = some d') :
    d'.stored.defaults.locationDisabled =
      e.decides.elim d.stored.defaults.locationDisabled (!·) := by
  have hs := storedStep_of_step h
  generalize d'.stored = s' at hs ⊢
  cases hs with
  | keep hsign hdecides hpublished defaults hchange => simp [hdecides, hchange.locationDisabled]
  | share hsign hdecides => simp [hdecides, NSUserDefaults.locationDisabled]
  | hide hsign hdecides =>
    simp [hdecides, NSUserDefaults.locationDisabled, Stored.hideCurrent]
  | clear hsign hdecides hpublished => simp [hdecides, Stored.hideCurrent]
  | publish hsign hdecides w hpublished huser henabled defaults hchange =>
    simp [hdecides, hchange.locationDisabled]
  | removeUser he uid huser => simp [he, Event.decides]
  | accountDeleted uid he => simp [he, Event.decides]
  | _ => simp_all

end ConfFriends
