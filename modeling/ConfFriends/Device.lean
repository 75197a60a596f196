import ConfFriends.Transition.History
import ConfFriends.StoreLocation
import ConfFriends.Screens

/-!
# The device as a transition system

`Event` lists what can happen to a device : launches and kills, the lifecycle
callbacks, the completions and answers of the sign-in screen, the controls of the
other screens, the callbacks of Core Location, the database serving a read, and the
main queue running the next block of a location subscription. `step` is one event, and
`none` where the event cannot happen.

`published` is the write that a step makes through `storeLocation`, if any. Only
`runBlock` publishes.
-/

set_option linter.unusedSectionVars false

namespace ConfFriends

variable {K : Type*} [LinearOrder K] [Zero K] [IntCast K]

/-! ## Events -/

inductive Event (K : Type*)
  /-- `locationKey` : Core Location launched the app. -/
  | launch (services : CLLocationServices) (locationKey : Bool)
  | kill
  | applicationDidBecomeActive
  | applicationWillResignActive
  | signIn (credentials : FCTwitterCredentials) (result : SignInResult)
  | shareMyLocation
  | dontShareLocation
  | locationSwitchChanged (isOn : Bool)
  | selectAccuracy (accuracy : INTULocationAccuracy)
  | signoutUser
  | deleteUser
  | deleteCompleted (uid : String) (error : Option String)
  | saveZone (visibleMapRect : MKMapRect K)
  | deleteZone
  | serveZoneRead (i : ℕ)
  | answerZoneRead (i : ℕ)
  | fuzzSwitchChanged (isOn : Bool)
  | radiusSliderChanged (value : ℤ)
  | distanceSegmentChanged (selectedSegmentIndex : ℤ)
  | didUpdateLocations (location : CLLocationCoordinate2D K)
  | didFailWithError
  | didChangeAuthorizationStatus (services : CLLocationServices)
  /-- The main queue runs its next block. -/
  | runBlock (clock : ClockReadings) (arc4random : UInt32)

/-! ## The main queue -/

/-- The next block of the main queue, if it hands a fix to `storeLocation`. -/
def App.nextFix (a : App K) : Option (CLLocationCoordinate2D K) :=
  match a.delegate.locMgr.mainQueue with
  | ⟨some fix, .success⟩ :: _ => some fix
  | _ => none

/-- The app without the next block of the main queue. -/
def App.popBlock (a : App K) : App K :=
  { a with delegate := { a.delegate with
      locMgr := { a.delegate.locMgr with mainQueue := a.delegate.locMgr.mainQueue.tail } } }

/-- The next block of the main queue runs. -/
def App.runBlock (P : Platform K) (clock : ClockReadings) (arc4random : UInt32) (a : App K) :
    App K × Option (LocationWrite K) :=
  match a.nextFix with
  | some fix => storeLocation P clock arc4random fix a.popBlock
  | none => (a.popBlock, none)

/-- The filters look at the app and not at its main queue. -/
theorem passesFilters_popBlock {P : Platform K} {clock : ClockReadings}
    {fix : CLLocationCoordinate2D K} {a : App K} :
    PassesFilters P clock fix a.popBlock ↔ PassesFilters P clock fix a :=
  ⟨fun h => ⟨h.enabled, h.outside, h.throttle⟩, fun h => ⟨h.enabled, h.outside, h.throttle⟩⟩

/-- A block is only taken off the queue, or it has a fix that passes the filters. -/
theorem App.runBlock_cases (P : Platform K) (clock : ClockReadings) (arc4random : UInt32)
    (a : App K) :
    ((∀ fix, a.nextFix = some fix → ¬PassesFilters P clock fix a) ∧
      a.runBlock P clock arc4random = (a.popBlock, none)) ∨
    ∃ fix, a.nextFix = some fix ∧ PassesFilters P clock fix a ∧
      ∃ write, write = (a.currentUser.map fun uid =>
          ⟨uid, (fuzzLocation P arc4random a.defaults fix).2, clock.updatedAt⟩) ∧
        a.runBlock P clock arc4random =
          ({ a.popBlock with
              defaults := (fuzzLocation P arc4random a.defaults fix).1
              users := write.elim a.users a.users.store
              delegate := { a.popBlock.delegate with
                lastLocationUpdateTime := wholeSeconds clock.lastLocationUpdateTime } },
            write) := by
  unfold App.runBlock
  cases hfix : a.nextFix with
  | none => exact Or.inl ⟨by simp, rfl⟩
  | some fix =>
    rcases storeLocation_cases P clock arc4random fix a.popBlock with
      ⟨hno, heq⟩ | ⟨hpass, write, hwrite, heq⟩
    · refine Or.inl ⟨fun fix' hfix' => ?_, heq⟩
      obtain rfl := Option.some.inj hfix'
      exact fun hpass => hno (passesFilters_popBlock.2 hpass)
    · exact Or.inr ⟨fix, rfl, passesFilters_popBlock.1 hpass, write, hwrite, heq⟩

/-! ## Steps -/

/-- A new process and `application:didFinishLaunchingWithOptions:`. -/
def Stored.launch (P : Platform K) (services : CLLocationServices) (locationKey : Bool)
    (s : Stored K) : App K :=
  { s with
    delegate := AppDelegate.didFinishLaunchingWithOptions P s.defaults s.currentUser services
      locationKey }

/-- The app with a new state of its delegate. -/
def App.withDelegate (a : App K) (delegate : AppDelegate K) : App K :=
  { a with delegate := delegate }

/-- The app with a new state of the location manager. -/
def App.withLocMgr (a : App K) (locMgr : INTULocationManager K) : App K :=
  a.withDelegate { a.delegate with locMgr := locMgr }

/-- An event of the running app. The prompt is answered while it is open, a deletion
completes while it is in flight, and Firebase signs nobody in to a deleted account. -/
def App.handle (P : Platform K) (a : App K) : Event K → Option (Device K)
  | .launch _ _ => none
  | .kill => some (.terminated a.toStored)
  | .applicationDidBecomeActive =>
    some (.running (a.withDelegate (a.delegate.applicationDidBecomeActive P a.defaults)))
  | .applicationWillResignActive =>
    some (.running (a.withDelegate (a.delegate.applicationWillResignActive P a.defaults)))
  | .signIn credentials (.user user) =>
    if user.uid ∈ a.deletedAccounts then none
    else some (a.startTwitterAuthentication credentials (.user user))
  | .signIn credentials result => some (a.startTwitterAuthentication credentials result)
  | .shareMyLocation =>
    if a.locationSharingAlert then some (.running (a.shareMyLocation P)) else none
  | .dontShareLocation => if a.locationSharingAlert then some a.dontShareLocation else none
  | .locationSwitchChanged isOn => some (a.locationSwitchChanged P isOn)
  | .selectAccuracy accuracy => some (.running (a.selectAccuracy P accuracy))
  | .signoutUser => some (.running a.signOut)
  | .deleteUser => some a.deleteUser
  | .deleteCompleted uid error =>
    if uid ∈ a.deletions then some (.running (a.deleteCompleted uid error)) else none
  | .saveZone visibleMapRect => some (a.saveZone visibleMapRect)
  | .deleteZone => some (.running a.deleteZone)
  | .serveZoneRead i => some (.running (a.serveZoneRead i))
  | .answerZoneRead i => a.answerZoneRead P i
  | .fuzzSwitchChanged isOn => some (.running (a.fuzzSwitchChanged isOn))
  | .radiusSliderChanged value => some (.running (a.radiusSliderChanged value))
  | .distanceSegmentChanged i => some (.running (a.distanceSegmentChanged i))
  | .didUpdateLocations location =>
    some (.running (a.withLocMgr (a.delegate.locMgr.didUpdateLocations P location)))
  | .didFailWithError =>
    some (.running (a.withLocMgr (a.delegate.locMgr.didFailWithError P)))
  | .didChangeAuthorizationStatus services =>
    some (.running (a.withLocMgr (a.delegate.locMgr.didChangeAuthorizationStatus P services)))
  | .runBlock clock arc4random =>
    match a.delegate.locMgr.mainQueue with
    | [] => none
    | _ :: _ => some (.running (a.runBlock P clock arc4random).1)

/-- A block that has run was the head of the queue. -/
theorem App.handle_runBlock {P : Platform K} {clock : ClockReadings} {arc4random : UInt32}
    {a : App K} {d' : Device K} (h : a.handle P (.runBlock clock arc4random) = some d') :
    d' = .running (a.runBlock P clock arc4random).1 := by
  simp only [App.handle] at h
  split at h
  · simp at h
  · exact (Option.some.inj h).symm

namespace Device

/-- One event. -/
def step (P : Platform K) : Device K → Event K → Option (Device K)
  | .terminated s, .launch services locationKey =>
    some (.running (s.launch P services locationKey))
  | .terminated _, _ => none
  | .running a, e => a.handle P e

/-- A terminated app is launched, and nothing else happens to it. -/
theorem step_terminated {P : Platform K} {s : Stored K} {e : Event K} {d' : Device K}
    (h : (terminated s).step P e = some d') : ∃ services locationKey,
      e = .launch services locationKey ∧ d' = .running (s.launch P services locationKey) := by
  cases e with
  | launch services locationKey =>
    exact ⟨services, locationKey, rfl, (Option.some.inj h).symm⟩
  | _ => simp [step] at h

/-- What `storeLocation` writes in a step. -/
def published (P : Platform K) : Device K → Event K → Option (LocationWrite K)
  | .running a, .runBlock clock arc4random => (a.runBlock P clock arc4random).2
  | _, _ => none

/-- A device with the app just installed, in front of any database. -/
def installed (users : Users K) : Device K :=
  .terminated { users := users }

/-- The sign-in of an account with a complete profile, for concrete runs. -/
def sampleSignIn (uid : String) : Event ℤ :=
  .signIn ⟨"token", "secret", some "twitterer"⟩
    (.user ⟨uid, [⟨some "1", some "Twitterer", some "https://example.com/avatar.png"⟩]⟩)

/-! ## Publishing -/

/-- The step hands `storeLocation` a fix that passes its filters, with somebody signed
in. -/
def Delivers (P : Platform K) (d : Device K) (e : Event K) : Prop :=
  ∃ a clock arc4random fix, d = .running a ∧ e = .runBlock clock arc4random ∧
    a.nextFix = some fix ∧ PassesFilters P clock fix a ∧ a.currentUser.isSome

/-- A write of `storeLocation`, taken apart. -/
theorem published_eq_some_iff {P : Platform K} {d : Device K} {e : Event K}
    {w : LocationWrite K} :
    published P d e = some w ↔ ∃ a clock arc4random fix, d = .running a ∧
      e = .runBlock clock arc4random ∧ a.nextFix = some fix ∧ PassesFilters P clock fix a ∧
      a.currentUser = some w.uid ∧
      w.coordinate = (fuzzLocation P arc4random a.defaults fix).2 ∧
      w.updatedAt = clock.updatedAt := by
  constructor
  · intro h
    unfold published at h
    split at h
    · next a clock arc4random =>
      unfold App.runBlock at h
      split at h
      · next fix hfix =>
        obtain ⟨hpass, hrest⟩ := (storeLocation_write_iff P clock arc4random fix _ w).1 h
        exact ⟨a, clock, arc4random, fix, rfl, rfl, hfix, passesFilters_popBlock.1 hpass, hrest⟩
      · simp at h
    · simp at h
  · rintro ⟨a, clock, arc4random, fix, rfl, rfl, hfix, hpass, hrest⟩
    simp only [published, App.runBlock, hfix]
    exact (storeLocation_write_iff P clock arc4random fix a.popBlock w).2
      ⟨passesFilters_popBlock.2 hpass, hrest⟩

/-- A step publishes iff it delivers a fix. -/
theorem exists_published_iff {P : Platform K} {d : Device K} {e : Event K} :
    (∃ w, published P d e = some w) ↔ Delivers P d e := by
  constructor
  · rintro ⟨w, hw⟩
    obtain ⟨a, clock, arc4random, fix, hd, he, hfix, hpass, huser, -⟩ :=
      published_eq_some_iff.1 hw
    exact ⟨a, clock, arc4random, fix, hd, he, hfix, hpass, by simp [huser]⟩
  · rintro ⟨a, clock, arc4random, fix, hd, he, hfix, hpass, huser⟩
    obtain ⟨uid, huid⟩ := Option.isSome_iff_exists.1 huser
    exact ⟨⟨uid, (fuzzLocation P arc4random a.defaults fix).2, clock.updatedAt⟩,
      published_eq_some_iff.2
        ⟨a, clock, arc4random, fix, hd, he, hfix, hpass, huid, rfl, rfl⟩⟩

end Device

end ConfFriends
