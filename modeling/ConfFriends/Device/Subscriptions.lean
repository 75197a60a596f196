import ConfFriends.Device.Delegate

/-!
# Location subscriptions

`NoLeak` is what the delegate should know about its subscriptions : at most one of
each type, and each under the ID the delegate keeps for its type, so that
`stopLocationUpdates` leaves none. The handlers that stop before they subscribe keep
this; `fetchLocationChanges` called while a continuous request is active loses the old
ID (`leaked_subscription`). That happens when the user decides to share, so there is no
leak along a run iff nobody decides to share with a continuous request active.

`DisabledStops` says that a disabled device has no subscription. The switch stops the
updates it knows of, 'Don't Share Location' stops none (`tracked_after_dont_share`).
-/

set_option linter.unusedSectionVars false

open Transition

namespace ConfFriends

variable {K : Type*} [LinearOrder K] [Zero K] [IntCast K] {P : Platform K}

/-! ## The requests of the delegate -/

namespace AppDelegate

/-- The ID the delegate keeps for a type of request. -/
def currentRequestID (a : AppDelegate K) : INTULocationRequestType → ℕ
  | .subscription => a.locationRequestID
  | .significantChanges => a.significantRequestID

/-- At most one request of each type, all of them under the current IDs. -/
structure NoLeak (a : AppDelegate K) : Prop where
  atMostOne : ∀ type, (a.locMgr.locationRequests.filter (·.type = type)).length ≤ 1
  current : ∀ r ∈ a.locMgr.locationRequests, r.requestID = a.currentRequestID r.type

/-- No active request at all. -/
theorem NoLeak.of_eq_nil {a : AppDelegate K} (h : a.locMgr.locationRequests = []) : a.NoLeak :=
  ⟨by simp [h], by simp [h]⟩

/-- What is active after stopping was under neither ID. -/
theorem mem_stopLocationUpdates (a : AppDelegate K) (r : INTULocationRequest) :
    r ∈ a.stopLocationUpdates.locMgr.locationRequests ↔
      r ∈ a.locMgr.locationRequests ∧ r.requestID ≠ a.locationRequestID ∧
        r.requestID ≠ a.significantRequestID := by
  simp [stopLocationUpdates, and_assoc]

/-- Stopping cancels whatever is under the two IDs. -/
theorem stopLocationUpdates_eq_nil_iff (a : AppDelegate K) :
    a.stopLocationUpdates.locMgr.locationRequests = [] ↔
      ∀ r ∈ a.locMgr.locationRequests,
        r.requestID = a.locationRequestID ∨ r.requestID = a.significantRequestID := by
  simp only [List.eq_nil_iff_forall_not_mem, mem_stopLocationUpdates]
  grind

/-- Without a leak, stopping leaves no request. -/
theorem NoLeak.stop {a : AppDelegate K} (h : a.NoLeak) :
    a.stopLocationUpdates.locMgr.locationRequests = [] := by
  refine (stopLocationUpdates_eq_nil_iff a).2 fun r hr => ?_
  have hid := h.current r hr
  cases htype : r.type with
  | subscription => exact Or.inl (by rw [hid, htype]; rfl)
  | significantChanges => exact Or.inr (by rw [hid, htype]; rfl)

theorem fresh_stopLocationUpdates {a : AppDelegate K} (h : a.locMgr.Fresh) :
    a.stopLocationUpdates.locMgr.Fresh :=
  (h.cancelLocationRequest _).cancelLocationRequest _

theorem fresh_fetchLocationChanges {a : AppDelegate K} (h : a.locMgr.Fresh)
    (d : NSUserDefaults K) : (a.fetchLocationChanges P d).locMgr.Fresh := by
  unfold fetchLocationChanges
  split
  · exact h
  · exact h.subscribe P .subscription _

theorem fresh_fetchSignificantLocationChanges {a : AppDelegate K} (h : a.locMgr.Fresh)
    (d : NSUserDefaults K) : (a.fetchSignificantLocationChanges P d).locMgr.Fresh := by
  unfold fetchSignificantLocationChanges
  split
  · exact h
  · exact h.subscribe P .significantChanges _

/-- A subscription of a type that has no active request, with its ID kept, leaks nothing. -/
theorem NoLeak.subscribe {a a' : AppDelegate K} (h : a.NoLeak) (hfresh : a.locMgr.Fresh)
    {type : INTULocationRequestType} {desiredAccuracy : INTULocationAccuracy}
    (hnone : ∀ r ∈ a.locMgr.locationRequests, r.type ≠ type)
    (hlocMgr : a'.locMgr = (a.locMgr.subscribe P type desiredAccuracy).1)
    (hnew : a'.currentRequestID type = (a.locMgr.subscribe P type desiredAccuracy).2)
    (hold : ∀ type' ≠ type, a'.currentRequestID type' = a.currentRequestID type') : a'.NoLeak := by
  obtain ⟨hid, -, hrs⟩ :=
    INTULocationManager.locationRequests_subscribe P a.locMgr hfresh type desiredAccuracy
  rw [← hlocMgr] at hrs
  have hkept : ∀ r ∈ a.locMgr.locationRequests, r.requestID = a'.currentRequestID r.type :=
    fun r hr => (h.current r hr).trans (hold r.type (hnone r hr)).symm
  rcases hrs with hrs | hrs
  · exact ⟨hrs ▸ h.atMostOne, hrs ▸ hkept⟩
  · constructor
    · intro type'
      rw [hrs, List.filter_append, List.length_append]
      by_cases htype : type' = type
      · subst htype
        rw [List.filter_eq_nil_iff.2 (by simpa using hnone)]
        simp
      · simpa [Ne.symm htype] using h.atMostOne type'
    · intro r hr
      rw [hrs, List.mem_append, List.mem_singleton] at hr
      rcases hr with hr | rfl
      · exact hkept r hr
      · exact (hnew.trans hid).symm

theorem NoLeak.fetchLocationChanges {a : AppDelegate K} (h : a.NoLeak) (hfresh : a.locMgr.Fresh)
    (hnone : ∀ r ∈ a.locMgr.locationRequests, r.type ≠ .subscription) (d : NSUserDefaults K) :
    (a.fetchLocationChanges P d).NoLeak := by
  unfold AppDelegate.fetchLocationChanges
  split
  · exact h
  · refine h.subscribe (P := P) hfresh hnone rfl rfl fun type' htype => ?_
    cases type' with
    | subscription => exact absurd rfl htype
    | significantChanges => rfl

theorem NoLeak.fetchSignificantLocationChanges {a : AppDelegate K} (h : a.NoLeak)
    (hfresh : a.locMgr.Fresh)
    (hnone : ∀ r ∈ a.locMgr.locationRequests, r.type ≠ .significantChanges)
    (d : NSUserDefaults K) : (a.fetchSignificantLocationChanges P d).NoLeak := by
  unfold AppDelegate.fetchSignificantLocationChanges
  split
  · exact h
  · refine h.subscribe (P := P) hfresh hnone rfl rfl fun type' htype => ?_
    cases type' with
    | subscription => rfl
    | significantChanges => exact absurd rfl htype

/-- To stop and subscribe again leaks nothing. -/
theorem NoLeak.reset {a : AppDelegate K} (h : a.NoLeak) (hfresh : a.locMgr.Fresh)
    (d : NSUserDefaults K) : (a.stopLocationUpdates.fetchLocationChanges P d).NoLeak :=
  (NoLeak.of_eq_nil h.stop).fetchLocationChanges (fresh_stopLocationUpdates hfresh)
    (by simp [h.stop]) d

theorem NoLeak.of_sublist {a : AppDelegate K} (h : a.NoLeak) {a' : AppDelegate K}
    (hsub : List.Sublist a'.locMgr.locationRequests a.locMgr.locationRequests)
    (hids : a'.currentRequestID = a.currentRequestID) : a'.NoLeak :=
  ⟨fun type => ((hsub.filter _).length_le).trans (h.atMostOne type),
    fun r hr => hids ▸ h.current r (hsub.subset hr)⟩

end AppDelegate

namespace Device

/-! ## No leak -/

/-- The delegate of the running app leaks nothing, and stopping leaves no request. -/
def NoLeak (d : Device K) : Prop :=
  ∀ a, d = .running a → a.delegate.NoLeak ∧
    a.delegate.stopLocationUpdates.locMgr.locationRequests = []

/-- Nobody decides to share with a continuous request active. -/
def SharesUntracked (d : Device K) (e : Event K) : Prop :=
  e.decides = some true → ∀ a, d = .running a →
    ∀ r ∈ a.delegate.locMgr.locationRequests, r.type ≠ .subscription

/-- The invariant : no leak, and IDs given by the counter. -/
def Tracked (d : Device K) : Prop :=
  ∀ a, d = .running a → a.delegate.NoLeak ∧ a.delegate.locMgr.Fresh

/-- A new process has at most the subscription of its launch. -/
theorem tracked_launch (s : Stored K) (services : CLLocationServices) (locationKey : Bool) :
    (Device.running (s.launch P services locationKey)).Tracked := by
  rintro a ha
  obtain rfl := Device.running.inj ha
  have hempty : ({ locMgr := { services := services } } : AppDelegate K).NoLeak :=
    .of_eq_nil rfl
  have hfresh : ({ services := services } : INTULocationManager K).Fresh := ⟨by simp, by simp⟩
  simp only [Stored.launch, AppDelegate.didFinishLaunchingWithOptions]
  split
  · exact ⟨hempty, hfresh⟩
  · split
    · exact ⟨hempty.fetchSignificantLocationChanges hfresh (by simp) s.defaults,
        AppDelegate.fresh_fetchSignificantLocationChanges hfresh s.defaults⟩
    · exact ⟨hempty.fetchLocationChanges hfresh (by simp) s.defaults,
        AppDelegate.fresh_fetchLocationChanges hfresh s.defaults⟩

/-- A step keeps the requests tracked, unless it shares while one is active. -/
theorem tracked_step {d d' : Device K} {e : Event K} (hI : d.Tracked)
    (h : d.step P e = some d') (hok : SharesUntracked d e) : d'.Tracked := by
  cases d with
  | terminated s =>
    obtain ⟨services, locationKey, rfl, rfl⟩ := step_terminated h
    exact tracked_launch s services locationKey
  | running a =>
    rintro a' rfl
    obtain ⟨hleak, hfresh⟩ := hI a rfl
    have hstopped := AppDelegate.NoLeak.of_eq_nil hleak.stop
    have hstop := AppDelegate.fresh_stopLocationUpdates hfresh
    have hs := delegateStep_of_step h
    generalize a'.delegate = delegate at hs ⊢
    cases hs with
    | keep he => exact ⟨hleak, hfresh⟩
    | become he =>
      exact ⟨hleak.reset hfresh _, AppDelegate.fresh_fetchLocationChanges hstop _⟩
    | resign he =>
      exact ⟨hstopped.fetchSignificantLocationChanges hstop (by simp [hleak.stop]) _,
        AppDelegate.fresh_fetchSignificantLocationChanges hstop _⟩
    | fetch he =>
      exact ⟨hleak.fetchLocationChanges hfresh (hok he a rfl) _,
        AppDelegate.fresh_fetchLocationChanges hfresh _⟩
    | stop he => exact ⟨hstopped, hstop⟩
    | reset accuracy he =>
      exact ⟨hleak.reset hfresh _, AppDelegate.fresh_fetchLocationChanges hstop _⟩
    | manager he locMgr hsub hnext =>
      exact ⟨hleak.of_sublist hsub rfl, hfresh.of_sublist hsub hnext.ge⟩
    | stamp clock arc4random he =>
      exact ⟨hleak.of_sublist (List.Sublist.refl _) rfl,
        hfresh.of_sublist (List.Sublist.refl _) le_rfl⟩

/-- Who decides to share gets a subscription. -/
theorem share_step {a : App K} {d' : Device K} {e : Event K}
    (h : (Device.running a).step P e = some d') (he : e.decides = some true) :
    ∃ a', d' = .running a' ∧ a'.delegate =
      a.delegate.fetchLocationChanges P { a.defaults with ddfLocationDisabled := some false } := by
  simp only [step] at h
  cases e with
  | shareMyLocation =>
    simp only [App.handle, Option.ite_none_right_eq_some, Option.some.injEq] at h
    exact ⟨_, h.2.symm, rfl⟩
  | locationSwitchChanged isOn =>
    cases isOn with
    | false => exact ⟨_, (Option.some.inj h).symm, rfl⟩
    | true => simp [Event.decides] at he
  | _ => simp [Event.decides] at he

/-- Sharing with a continuous request active loses the ID of that request. -/
theorem not_noLeak_share {d d' : Device K} {e : Event K} (hI : d.Tracked)
    (h : d.step P e = some d') (hbad : ¬SharesUntracked d e) : ¬d'.NoLeak := by
  simp only [SharesUntracked, not_forall, not_not] at hbad
  obtain ⟨he, a, rfl, r, hr, htype⟩ := hbad
  obtain ⟨-, hfresh⟩ := hI a rfl
  obtain ⟨a', rfl, hdelegate⟩ := share_step h he
  intro hleak
  have hcurrent := (hleak a' rfl).1.current r
  rw [hdelegate] at hcurrent
  obtain ⟨hid, -, hrs⟩ := INTULocationManager.locationRequests_subscribe P a.delegate.locMgr
    hfresh .subscription (a.defaults.ddfAccuracy.getD .block)
  have hmem : r ∈ (a.delegate.locMgr.subscribe P .subscription
      (a.defaults.ddfAccuracy.getD .block)).1.locationRequests := by
    rcases hrs with hrs | hrs <;> simp [hrs, hr]
  have hnew : r.requestID = a.delegate.locMgr.nextRequestID + 1 := by
    rw [← hid]
    exact (hcurrent hmem).trans (congrArg (AppDelegate.currentRequestID _) htype)
  have := hfresh.le r hr
  omega

/-- There is no leak along a run iff nobody decides to share with a continuous request
active. -/
theorem noLeak_iff_sharesUntracked (users : Users K) (es : List (Event K)) :
    EveryState (step P) (fun _ d => d.NoLeak) (installed users) es ↔
      EveryStep (step P) (fun _ d e _ => SharesUntracked d e) (installed users) es := by
  refine everyState_iff_everyStep (I := fun _ d => d.Tracked) ?_ ?_ ?_ ?_ es
  · intro a ha
    simp [installed] at ha
  · exact fun _ d hI a ha => ⟨(hI a ha).1, (hI a ha).1.stop⟩
  · exact fun _ _ _ _ _ hI h hok => tracked_step hI h hok
  · exact fun _ _ _ _ _ hI h hbad => not_noLeak_share hI h hbad

/-- The app comes to the front, and the user signs in and shares. -/
def shareWhileTracking : List (Event ℤ) :=
  [.launch ⟨true, .authorizedWhenInUse⟩ false, .applicationDidBecomeActive, sampleSignIn "a",
    .shareMyLocation]

/-- Two continuous requests are active. -/
theorem leaked_subscription :
    ¬EveryState (step Platform.flat) (fun _ d => d.NoLeak) (installed fun _ => {})
      shareWhileTracking := by
  intro hall
  have hone := (hall.last rfl _ rfl).1.atMostOne .subscription
  exact absurd hone (by decide)

/-! ## Disabled and not tracking -/

/-- A disabled device has no subscription. -/
def DisabledStops (d : Device K) : Prop :=
  d.stored.defaults.locationDisabled = true →
    ∀ a, d = .running a → a.delegate.locMgr.locationRequests = []

/-- Who decides not to share has no subscription that the handler does not stop : none at
all at the prompt, and none under a lost ID at the switch. -/
def DeclinesUntracked (d : Device K) (e : Event K) : Prop :=
  ∀ a, d = .running a → a.currentUser.isSome →
    (e = .dontShareLocation → a.delegate.locMgr.locationRequests = []) ∧
    (e = .locationSwitchChanged true → ∀ r ∈ a.delegate.locMgr.locationRequests,
      r.requestID = a.delegate.locationRequestID ∨
        r.requestID = a.delegate.significantRequestID)

/-- The delegate of a disabled device without subscriptions gets none, unless the user
decides. -/
theorem requests_eq_nil_of_disabled {a : App K} {e : Event K} {delegate : AppDelegate K}
    (hdisabled : a.defaults.locationDisabled = true)
    (hnil : a.delegate.locMgr.locationRequests = []) (hs : DelegateStep P a e delegate)
    (he : e.decides ≠ some true) : delegate.locMgr.locationRequests = [] := by
  have hstop : a.delegate.stopLocationUpdates.locMgr.locationRequests = [] :=
    (AppDelegate.NoLeak.of_eq_nil hnil).stop
  cases hs with
  | keep => exact hnil
  | become =>
    rw [AppDelegate.applicationDidBecomeActive,
      AppDelegate.fetchLocationChanges_of_disabled P hdisabled]
    exact hstop
  | resign =>
    rw [AppDelegate.applicationWillResignActive,
      AppDelegate.fetchSignificantLocationChanges_of_disabled P hdisabled]
    exact hstop
  | fetch hshare => exact absurd hshare he
  | stop => exact hstop
  | reset accuracy =>
    have hflag : { a.defaults with ddfAccuracy := some accuracy }.locationDisabled = true :=
      hdisabled
    rw [AppDelegate.resetLocationUpdates, AppDelegate.fetchLocationChanges_of_disabled P hflag]
    exact hstop
  | manager hdecides locMgr hsub hnext => exact List.sublist_nil.1 (hnil ▸ hsub)
  | stamp clock arc4random => exact hnil

/-- What remains active after a decision not to share. -/
theorem decline_step {a : App K} {d' : Device K} {e : Event K}
    (h : (Device.running a).step P e = some d') (he : e.decides = some false) :
    (a.currentUser = none ∧ ∃ s, d' = .terminated s) ∨
    (a.currentUser.isSome ∧ ∃ a', d' = .running a' ∧
      ((e = .dontShareLocation ∧ a'.delegate = a.delegate) ∨
        (e = .locationSwitchChanged true ∧ a'.delegate = a.delegate.stopLocationUpdates))) := by
  simp only [step] at h
  cases e with
  | dontShareLocation =>
    simp only [App.handle, Option.ite_none_right_eq_some, Option.some.injEq] at h
    obtain ⟨-, rfl⟩ := h
    unfold App.dontShareLocation App.removeCoordinate App.withUserRef
    cases huser : a.currentUser with
    | none => exact Or.inl ⟨rfl, _, rfl⟩
    | some uid => exact Or.inr ⟨rfl, _, rfl, Or.inl ⟨rfl, rfl⟩⟩
  | locationSwitchChanged isOn =>
    cases isOn with
    | false => simp [Event.decides] at he
    | true =>
      obtain rfl := Option.some.inj h
      have heq : a.locationSwitchChanged P true = App.removeCoordinate { a with
        defaults := { a.defaults with ddfLocationDisabled := some true }
        delegate := a.delegate.stopLocationUpdates } := rfl
      rw [heq]
      unfold App.removeCoordinate App.withUserRef
      cases huser : a.currentUser with
      | none => exact Or.inl ⟨rfl, _, rfl⟩
      | some uid => exact Or.inr ⟨rfl, _, rfl, Or.inr ⟨rfl, rfl⟩⟩
  | _ => simp [Event.decides] at he

/-- A step keeps a disabled device without subscriptions, unless the user declines with
one that is not stopped. -/
theorem disabledStops_step {d d' : Device K} {e : Event K} (hI : d.DisabledStops)
    (h : d.step P e = some d') (hok : DeclinesUntracked d e) : d'.DisabledStops := by
  rintro hdisabled a' rfl
  rw [locationDisabled_step h] at hdisabled
  cases d with
  | terminated s =>
    obtain ⟨services, locationKey, rfl, hlaunched⟩ := step_terminated h
    obtain rfl := Device.running.inj hlaunched
    have hflag : s.defaults.locationDisabled = true := hdisabled
    simp [Stored.launch, AppDelegate.didFinishLaunchingWithOptions, hflag]
  | running a =>
    cases hdec : e.decides with
    | none =>
      have hflag : a.defaults.locationDisabled = true := by simpa [hdec] using hdisabled
      exact requests_eq_nil_of_disabled hflag (hI hflag a rfl) (delegateStep_of_step h)
        (by simp [hdec])
    | some share =>
      obtain rfl : share = false := by simpa [hdec] using hdisabled
      rcases decline_step h hdec with ⟨-, s, hs⟩ | ⟨huser, b, hb, hcases⟩
      · simp at hs
      · obtain rfl := Device.running.inj hb
        obtain ⟨hprompt, hswitch⟩ := hok a rfl huser
        rcases hcases with ⟨he, hdelegate⟩ | ⟨he, hdelegate⟩
        · rw [hdelegate]
          exact hprompt he
        · rw [hdelegate]
          exact (AppDelegate.stopLocationUpdates_eq_nil_iff _).2 (hswitch he)

/-- Declining with a subscription that is not stopped leaves it active. -/
theorem not_disabledStops_decline {d d' : Device K} {e : Event K} (h : d.step P e = some d')
    (hbad : ¬DeclinesUntracked d e) : ¬d'.DisabledStops := by
  intro hstops
  refine hbad ?_
  rintro a rfl huser
  -- the decision sets the flag, so nothing is active after it
  have hnil : ∀ a', e.decides = some false → d' = .running a' →
      a'.delegate.locMgr.locationRequests = [] := by
    intro a' he hd'
    refine hstops ?_ a' hd'
    rw [locationDisabled_step h, he]
    rfl
  constructor
  · rintro rfl
    rcases decline_step h rfl with ⟨hnone, -⟩ | ⟨-, a', hd', ⟨-, hdelegate⟩ | ⟨he, -⟩⟩
    · simp [hnone] at huser
    · exact hdelegate ▸ hnil a' rfl hd'
    · simp at he
  · rintro rfl
    rcases decline_step h rfl with ⟨hnone, -⟩ | ⟨-, a', hd', ⟨he, -⟩ | ⟨-, hdelegate⟩⟩
    · simp [hnone] at huser
    · simp at he
    · exact (AppDelegate.stopLocationUpdates_eq_nil_iff _).1 (hdelegate ▸ hnil a' rfl hd')

/-- A disabled device is never tracked along a run iff nobody declines to share with a
subscription that the handler does not stop. -/
theorem disabledStops_iff_declinesUntracked (users : Users K) (es : List (Event K)) :
    EveryState (step P) (fun _ d => d.DisabledStops) (installed users) es ↔
      EveryStep (step P) (fun _ d e _ => DeclinesUntracked d e) (installed users) es := by
  refine everyState_iff_everyStep (I := fun _ d => d.DisabledStops) ?_ ?_ ?_ ?_ es
  · intro hdisabled
    simp [installed, NSUserDefaults.locationDisabled] at hdisabled
  · exact fun _ _ hI => hI
  · exact fun _ _ _ _ _ hI h hok => disabledStops_step hI h hok
  · exact fun _ _ _ _ _ _ h hbad => not_disabledStops_decline h hbad

/-- The app comes to the front, and the user signs in and declines to share. -/
def declineWhileTracking : List (Event ℤ) :=
  [.launch ⟨true, .authorizedWhenInUse⟩ false, .applicationDidBecomeActive, sampleSignIn "a",
    .dontShareLocation]

/-- The device is disabled, and the subscription is still active. -/
theorem tracked_after_dont_share :
    ¬EveryState (step Platform.flat) (fun _ d => d.DisabledStops) (installed fun _ => {})
      declineWhileTracking := by
  intro hall
  have hnil := hall.last rfl (by decide) _ rfl
  exact absurd hnil (by decide)

end Device

end ConfFriends
