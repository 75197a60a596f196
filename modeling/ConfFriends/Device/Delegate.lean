import ConfFriends.Device.Effects

/-!
# What a step does to the app delegate

`DelegateStep` lists what an event can do to the delegate of an app that runs on : one
of its own operations, a callback of the location manager, or the stamp that
`storeLocation` leaves. `delegateStep_of_step` is the inversion.

`published_step` is the inversion of the one step that publishes, with the whole state
after it.
-/

set_option linter.unusedSectionVars false

namespace ConfFriends

variable {K : Type*} [LinearOrder K] [Zero K] [IntCast K] {P : Platform K}

/-- The effects of an event on the delegate. -/
inductive DelegateStep (P : Platform K) (a : App K) (e : Event K) : AppDelegate K → Prop
  | keep (he : e.decides = none ∨ e = .dontShareLocation) : DelegateStep P a e a.delegate
  | become (he : e = .applicationDidBecomeActive) :
    DelegateStep P a e (a.delegate.applicationDidBecomeActive P a.defaults)
  | resign (he : e = .applicationWillResignActive) :
    DelegateStep P a e (a.delegate.applicationWillResignActive P a.defaults)
  /-- The user decides to share. -/
  | fetch (he : e.decides = some true) :
    DelegateStep P a e
      (a.delegate.fetchLocationChanges P { a.defaults with ddfLocationDisabled := some false })
  | stop (he : e = .locationSwitchChanged true ∨ e = .deleteUser) :
    DelegateStep P a e a.delegate.stopLocationUpdates
  | reset (accuracy : INTULocationAccuracy) (he : e = .selectAccuracy accuracy) :
    DelegateStep P a e
      (a.delegate.resetLocationUpdates P { a.defaults with ddfAccuracy := some accuracy })
  /-- A callback, or a block of the main queue that does not pass the filters. -/
  | manager (he : e.decides = none) (locMgr : INTULocationManager K)
    (hsub : List.Sublist locMgr.locationRequests a.delegate.locMgr.locationRequests)
    (hnext : locMgr.nextRequestID = a.delegate.locMgr.nextRequestID) :
    DelegateStep P a e { a.delegate with locMgr := locMgr }
  /-- A block that passes the filters. -/
  | stamp (clock : ClockReadings) (arc4random : UInt32) (he : e = .runBlock clock arc4random) :
    DelegateStep P a e { a.popBlock.delegate with
      lastLocationUpdateTime := wholeSeconds clock.lastLocationUpdateTime }

/-- A block leaves the delegate without it, with a new stamp if it passed the filters. -/
theorem delegateStep_runBlock (a : App K) (clock : ClockReadings) (arc4random : UInt32) :
    DelegateStep P a (.runBlock clock arc4random) (a.runBlock P clock arc4random).1.delegate := by
  rcases a.runBlock_cases P clock arc4random with ⟨-, heq⟩ | ⟨fix, -, -, write, -, heq⟩
  · rw [heq]
    exact .manager rfl a.popBlock.delegate.locMgr (List.Sublist.refl _) rfl
  · rw [heq]
    exact .stamp clock arc4random rfl

/-- The inversion of `step` on the delegate. -/
theorem delegateStep_of_step {a a' : App K} {e : Event K}
    (h : (Device.running a).step P e = some (.running a')) : DelegateStep P a e a'.delegate := by
  simp only [Device.step] at h
  cases e with
  | launch services locationKey => simp [App.handle] at h
  | kill => simp [App.handle] at h
  | applicationDidBecomeActive =>
    obtain rfl := Device.running.inj (Option.some.inj h)
    exact .become rfl
  | applicationWillResignActive =>
    obtain rfl := Device.running.inj (Option.some.inj h)
    exact .resign rfl
  | signIn credentials result =>
    cases result with
    | error localizedDescription =>
      obtain rfl := Device.running.inj (Option.some.inj h)
      exact .keep (Or.inl rfl)
    | user user =>
      simp only [App.handle, Option.ite_none_left_eq_some, Option.some.injEq] at h
      obtain ⟨-, h⟩ := h
      rcases a.startTwitterAuthentication_cases credentials user with
        ⟨-, message, heq⟩ | ⟨-, -, heq⟩ |
          ⟨-, -, displayName, avatar, twitterID, username, heq⟩ <;>
        rw [heq] at h
      · obtain rfl := Device.running.inj h
        exact .keep (Or.inl rfl)
      · simp [App.raise] at h
      · obtain rfl := Device.running.inj h
        exact .keep (Or.inl rfl)
  | shareMyLocation =>
    simp only [App.handle, Option.ite_none_right_eq_some, Option.some.injEq] at h
    obtain ⟨-, h⟩ := h
    obtain rfl := Device.running.inj h
    exact .fetch rfl
  | dontShareLocation =>
    simp only [App.handle, Option.ite_none_right_eq_some, Option.some.injEq] at h
    obtain ⟨uid, -, rfl⟩ := App.withUserRef_eq_running h.2
    exact .keep (Or.inr rfl)
  | locationSwitchChanged isOn =>
    cases isOn with
    | false =>
      obtain rfl := Device.running.inj (Option.some.inj h)
      exact .fetch rfl
    | true =>
      obtain ⟨uid, -, rfl⟩ := App.withUserRef_eq_running (Option.some.inj h)
      exact .stop (Or.inl rfl)
  | selectAccuracy accuracy =>
    obtain rfl := Device.running.inj (Option.some.inj h)
    exact .reset accuracy rfl
  | deleteUser =>
    obtain ⟨uid, -, rfl⟩ := App.withUserRef_eq_running (Option.some.inj h)
    exact .stop (Or.inr rfl)
  | deleteCompleted uid error =>
    simp only [App.handle, Option.ite_none_right_eq_some, Option.some.injEq] at h
    obtain rfl := Device.running.inj h.2
    cases error <;> exact .keep (Or.inl rfl)
  | saveZone visibleMapRect =>
    obtain ⟨uid, -, rfl⟩ := App.withUserRef_eq_running (Option.some.inj h)
    exact .keep (Or.inl rfl)
  | answerZoneRead i =>
    rcases App.answerZoneRead_cases h with hclears | hkeeps
    · obtain ⟨uid, -, rfl⟩ := App.withUserRef_eq_running hclears.symm
      exact .keep (Or.inl rfl)
    · obtain rfl := Device.running.inj hkeeps
      exact .keep (Or.inl rfl)
  | didUpdateLocations location =>
    obtain rfl := Device.running.inj (Option.some.inj h)
    exact .manager rfl _ (by simp) (by simp)
  | didFailWithError =>
    obtain rfl := Device.running.inj (Option.some.inj h)
    exact .manager rfl _ (by simp) (by simp)
  | didChangeAuthorizationStatus services =>
    obtain rfl := Device.running.inj (Option.some.inj h)
    obtain ⟨hsub, hnext⟩ := INTULocationManager.locationRequests_didChangeAuthorizationStatus P
      a.delegate.locMgr services
    exact .manager rfl _ hsub hnext
  | runBlock clock arc4random =>
    obtain rfl := Device.running.inj (App.handle_runBlock h)
    exact delegateStep_runBlock a clock arc4random
  | _ =>
    obtain rfl := Device.running.inj (Option.some.inj h)
    exact .keep (Or.inl rfl)

/-- The step that publishes : the fix has passed the filters, and the state after it has
the write, the stamp, and a bearing if one was drawn. -/
theorem published_step {d d' : Device K} {e : Event K} {w : LocationWrite K}
    (h : d.step P e = some d') (hw : Device.published P d e = some w) :
    ∃ a clock arc4random fix, d = .running a ∧ e = .runBlock clock arc4random ∧
      a.nextFix = some fix ∧ PassesFilters P clock fix a ∧ a.currentUser = some w.uid ∧
      w.coordinate = (fuzzLocation P arc4random a.defaults fix).2 ∧
      w.updatedAt = clock.updatedAt ∧
      d' = .running { a.popBlock with
        defaults := (fuzzLocation P arc4random a.defaults fix).1
        users := a.users.store w
        delegate := { a.popBlock.delegate with
          lastLocationUpdateTime := wholeSeconds clock.lastLocationUpdateTime } } := by
  obtain ⟨a, clock, arc4random, fix, rfl, rfl, hfix, hpass, huser, hcoord, hat⟩ :=
    Device.published_eq_some_iff.1 hw
  refine ⟨a, clock, arc4random, fix, rfl, rfl, hfix, hpass, huser, hcoord, hat, ?_⟩
  obtain rfl := App.handle_runBlock h
  rcases a.runBlock_cases P clock arc4random with ⟨hno, -⟩ | ⟨fix', hfix', -, write, -, heq⟩
  · exact absurd hpass (hno fix hfix)
  · obtain rfl : fix' = fix := by simpa [hfix] using hfix'.symm
    obtain rfl : write = some w := by
      rw [Device.published, heq] at hw
      exact hw
    rw [heq]
    rfl

end ConfFriends
