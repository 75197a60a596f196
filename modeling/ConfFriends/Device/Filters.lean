import ConfFriends.Device.Delegate

/-!
# What a published location has passed

`published_filtered` is the guarantee of `storeLocation` over whole runs : a write is
below the signed-in user, with sharing not disabled, of a fix outside the stored zone,
at least 60 whole seconds after the previous write of the process, and displaced as the
preferences say.

Two invariants carry it. The preferences are well formed (`NSUserDefaults.WellFormed`) :
while fuzzing has been touched, a radius and a fluff distance are stored, and distances
and bearings are in their ranges. And the stamp of the throttle is not before the last
write (`Throttled`), given that the clock does not run backwards in a process.
-/

set_option linter.unusedSectionVars false

open Transition

namespace ConfFriends

variable {K : Type*} [LinearOrder K] [Zero K] [IntCast K] {P : Platform K}

/-! ## The preferences -/

/-- The fluff distances of the segments. -/
def fluffDistances : List ℤ :=
  [100, 250, 500, 1000, 2000]

theorem segmentDistance_mem (i : ℤ) : App.segmentDistance i ∈ fluffDistances := by
  unfold App.segmentDistance fluffDistances
  split_ifs <;> simp

namespace NSUserDefaults

/-- What the screens keep true of the preferences. -/
structure WellFormed (d : NSUserDefaults K) : Prop where
  zone : ∀ z, d.ddfPrivacyZone = some z → ∃ mapRect, z = setMapRect mapRect
  fuzzing : d.ddfLocationFuzzingEnabled.isSome →
    d.ddfLocationFuzzingRadius.isSome ∧ d.ddfLocationFuzzingDistance.isSome
  distance : ∀ v, d.ddfLocationFuzzingDistance = some v → v ∈ fluffDistances
  bearing : ∀ v, d.ddfLocationFuzzingBearing = some v → 0 ≤ v ∧ v ≤ 358

theorem wellFormed_empty : ({} : NSUserDefaults K).WellFormed :=
  ⟨by simp, by simp, by simp, by simp⟩

/-- The switch has no part in being well formed. -/
theorem WellFormed.setDisabled {d : NSUserDefaults K} (h : d.WellFormed) (b : Bool) :
    { d with ddfLocationDisabled := some b }.WellFormed :=
  ⟨h.zone, h.fuzzing, h.distance, h.bearing⟩

/-- A drawn bearing is below 359. -/
theorem WellFormed.drawBearing {d : NSUserDefaults K} (h : d.WellFormed) (arc4random : UInt32) :
    (drawBearing arc4random d).WellFormed := by
  unfold ConfFriends.drawBearing
  split
  · refine ⟨h.zone, h.fuzzing, h.distance, ?_⟩
    simp only [Option.some.injEq]
    rintro v rfl
    omega
  · exact h

/-- Every change of the preferences keeps them well formed. -/
theorem WellFormed.change {e : Event K} {d d' : NSUserDefaults K} (h : d.WellFormed)
    (hchange : d.Change e d') : d'.WellFormed := by
  cases hchange with
  | same => exact h
  | accuracy v => exact ⟨h.zone, h.fuzzing, h.distance, h.bearing⟩
  | privacyZone mapRect hsets =>
    refine ⟨fun z hz => ?_, h.fuzzing, h.distance, h.bearing⟩
    obtain ⟨r, -, rfl⟩ := Option.map_eq_some_iff.1 hz
    exact ⟨r, rfl⟩
  | fuzzSwitch isOn =>
    refine ⟨h.zone, fun _ => ⟨rfl, rfl⟩, ?_, h.bearing⟩
    simp only [Option.some.injEq]
    rintro v rfl
    cases hd : d.ddfLocationFuzzingDistance with
    | none => simp [fluffDistances]
    | some v => exact h.distance v hd
  | radius v => exact ⟨h.zone, fun hen => ⟨rfl, (h.fuzzing hen).2⟩, h.distance, h.bearing⟩
  | distance i =>
    refine ⟨h.zone, fun hen => ⟨(h.fuzzing hen).1, rfl⟩, ?_, h.bearing⟩
    simp only [Option.some.injEq]
    rintro v rfl
    exact segmentDistance_mem i
  | bearing arc4random => exact h.drawBearing arc4random

end NSUserDefaults

/-- One step keeps the preferences well formed. -/
theorem wellFormed_step {d d' : Device K} {e : Event K} (hI : d.stored.defaults.WellFormed)
    (h : d.step P e = some d') : d'.stored.defaults.WellFormed := by
  have hs := storedStep_of_step h
  generalize d'.stored = s' at hs ⊢
  cases hs with
  | keep hsign hdecides hpublished defaults hchange => exact hI.change hchange
  | share hsign hdecides => exact hI.setDisabled false
  | hide hsign hdecides => exact hI.setDisabled true
  | publish hsign hdecides w hpublished huser henabled defaults hchange =>
    exact hI.change hchange
  | _ => exact hI

/-! ## The clock and the previous write -/

/-- The readings of the clock in an event. -/
def Event.readings : Event K → List NSTimeInterval
  | .runBlock clock _ =>
    [clock.currentSeconds, clock.updatedAt, clock.lastLocationUpdateTime]
  | _ => []

/-- The readings of the clock since the last launch. -/
def processReadings (es : List (Event K)) : List NSTimeInterval :=
  es.foldl (fun readings e =>
    match e with
    | .launch _ _ => []
    | e => readings ++ e.readings) []

namespace Device

/-- The clock at the last write of the process. -/
def lastWrite (P : Platform K) (d₀ : Device K) (pre : List (Event K)) : Option ClockReadings :=
  track (step P)
    (fun d e last =>
      match e with
      | .launch _ _ => none
      | .runBlock clock _ => if (published P d e).isSome then some clock else last
      | _ => last) none d₀ pre

/-- The clock does not run backwards in the process. -/
def Monotone (es : List (Event K)) : Prop :=
  (processReadings es).Pairwise (· ≤ ·)

/-- The stamp of the throttle is not before the last write. -/
def Throttled (P : Platform K) (d₀ : Device K) (pre : List (Event K)) (d : Device K) : Prop :=
  ∀ a, d = .running a → Monotone pre → ∀ clock, lastWrite P d₀ pre = some clock →
    clock.lastLocationUpdateTime ∈ processReadings pre ∧
      wholeSeconds clock.lastLocationUpdateTime ≤ a.delegate.lastLocationUpdateTime

/-- A running process reads the clock on. -/
theorem processReadings_snoc {a : App K} {d' : Device K} {e : Event K} (pre : List (Event K))
    (h : (Device.running a).step P e = some d') :
    processReadings (pre ++ [e]) = processReadings pre ++ e.readings := by
  unfold processReadings
  rw [List.foldl_append]
  cases e with
  | launch services locationKey => simp [step, App.handle] at h
  | _ => rfl

/-- A step of the running process that does not publish keeps the last write. -/
theorem lastWrite_snoc {d₀ d' : Device K} {a : App K} {e : Event K} {pre : List (Event K)}
    (hpre : exec (step P) d₀ pre = some (.running a)) (h : (Device.running a).step P e = some d')
    (hw : published P (.running a) e = none) :
    lastWrite P d₀ (pre ++ [e]) = lastWrite P d₀ pre := by
  rw [lastWrite, track_snoc _ e pre none d₀ hpre h]
  cases e with
  | launch services locationKey => simp [step, App.handle] at h
  | runBlock clock arc4random => simp [hw, lastWrite]
  | _ => rfl

/-- The stamp stays, or a reading of the step replaces it. -/
theorem stamp_step {a a' : App K} {e : Event K}
    (h : (Device.running a).step P e = some (.running a')) :
    a'.delegate.lastLocationUpdateTime = a.delegate.lastLocationUpdateTime ∨
      ∃ t ∈ e.readings, a'.delegate.lastLocationUpdateTime = wholeSeconds t := by
  have hs := delegateStep_of_step h
  generalize a'.delegate = delegate at hs ⊢
  cases hs with
  | become => exact Or.inl (AppDelegate.lastLocationUpdateTime_fetchLocationChanges P _ _)
  | resign =>
    exact Or.inl (AppDelegate.lastLocationUpdateTime_fetchSignificantLocationChanges P _ _)
  | fetch => exact Or.inl (AppDelegate.lastLocationUpdateTime_fetchLocationChanges P _ _)
  | reset => exact Or.inl (AppDelegate.lastLocationUpdateTime_fetchLocationChanges P _ _)
  | stamp clock arc4random he =>
    exact Or.inr ⟨clock.lastLocationUpdateTime, by simp [he, Event.readings], rfl⟩
  | keep | stop | manager => exact Or.inl rfl

theorem throttled_step {d₀ d d' : Device K} {pre : List (Event K)} {e : Event K}
    (hpre : exec (step P) d₀ pre = some d) (hI : Throttled P d₀ pre d)
    (h : d.step P e = some d') : Throttled P d₀ (pre ++ [e]) d' := by
  rintro a' rfl hmono clock hlast
  cases d with
  | terminated s =>
    obtain ⟨services, locationKey, rfl, -⟩ := step_terminated h
    simp [lastWrite, track_snoc _ _ pre none d₀ hpre h] at hlast
  | running a =>
    have hreadings := processReadings_snoc pre h
    rw [Monotone, hreadings, List.pairwise_append] at hmono
    rw [hreadings]
    cases hw : published P (.running a) e with
    | some w =>
      obtain ⟨_, clock', arc4random, fix, -, rfl, -, -, -, -, -, hd'⟩ := published_step h hw
      obtain rfl := Device.running.inj hd'
      rw [lastWrite, track_snoc _ _ pre none d₀ hpre h] at hlast
      obtain rfl : clock' = clock := by simpa [hw] using hlast
      exact ⟨by simp [Event.readings], le_refl _⟩
    | none =>
      rw [lastWrite_snoc hpre h hw] at hlast
      obtain ⟨hmem, hle⟩ := hI a rfl hmono.1 clock hlast
      refine ⟨List.mem_append_left _ hmem, ?_⟩
      rcases stamp_step h with hstamp | ⟨t, ht, hstamp⟩
      · rw [hstamp]
        exact hle
      · rw [hstamp]
        exact wholeSeconds_mono (hmono.2.2 _ hmem t ht)

theorem everyState_throttled (users : Users K) (es : List (Event K)) :
    EveryState (step P) (Throttled P (installed users)) (installed users) es :=
  everyState_of_invariant (fun a h => by simp [installed] at h)
    (fun _ _ _ _ hpre hI h => throttled_step hpre hI h) es

theorem everyState_wellFormed (users : Users K) (es : List (Event K)) :
    EveryState (step P) (fun _ d => d.stored.defaults.WellFormed) (installed users) es :=
  everyState_of_invariant NSUserDefaults.wellFormed_empty
    (fun _ _ _ _ _ hI h => wellFormed_step hI h) es

end Device

/-! ## The location of a write -/

/-- Where the location of a write comes from, by the preferences `d'` after the write :
the fix itself, or the fix displaced along the stored bearing by the fluff distance. -/
inductive Displaced (P : Platform K) (d' : NSUserDefaults K) (fix : CLLocationCoordinate2D K) :
    CLLocationCoordinate2D K → Prop
  /-- Fuzzing is off. -/
  | off (hoff : boolForKey d'.ddfLocationFuzzingEnabled = false) : Displaced P d' fix fix
  /-- The fix is within the stored radius of the venue. -/
  | near (hon : boolForKey d'.ddfLocationFuzzingEnabled = true) (radius : ℤ)
    (hradius : d'.ddfLocationFuzzingRadius = some radius)
    (hnear : P.distanceFromVenue fix ≤ (radius : K)) : Displaced P d' fix fix
  | far (hon : boolForKey d'.ddfLocationFuzzingEnabled = true) (radius bearing distance : ℤ)
    (hradius : d'.ddfLocationFuzzingRadius = some radius)
    (hfar : (radius : K) < P.distanceFromVenue fix)
    (hbearing : d'.ddfLocationFuzzingBearing = some bearing)
    (hrange : 0 ≤ bearing ∧ bearing ≤ 358)
    (hdistance : d'.ddfLocationFuzzingDistance = some distance)
    (hfluff : distance ∈ fluffDistances) :
    Displaced P d' fix (P.locationWithBearing bearing distance fix)

/-- `fuzzLocation` with well formed preferences. -/
theorem displaced_fuzzLocation {d : NSUserDefaults K} (hd : d.WellFormed) (arc4random : UInt32)
    (fix : CLLocationCoordinate2D K) :
    Displaced P (fuzzLocation P arc4random d fix).1 fix (fuzzLocation P arc4random d fix).2 := by
  -- while fuzzing is on, both of its parameters are stored
  have hstored : boolForKey d.ddfLocationFuzzingEnabled = true → ∃ radius distance,
      d.ddfLocationFuzzingRadius = some radius ∧ d.ddfLocationFuzzingDistance = some distance := by
    intro hon
    have hsome : d.ddfLocationFuzzingEnabled.isSome := by
      by_contra hnone
      simp [Option.not_isSome_iff_eq_none.1 hnone] at hon
    obtain ⟨radius, hradius⟩ := Option.isSome_iff_exists.1 (hd.fuzzing hsome).1
    obtain ⟨distance, hdistance⟩ := Option.isSome_iff_exists.1 (hd.fuzzing hsome).2
    exact ⟨radius, distance, hradius, hdistance⟩
  rcases fuzzLocation_cases P arc4random d fix with ⟨hno, heq⟩ | ⟨hyes, bearing, hdraw, heq⟩
  · rw [heq]
    cases hon : boolForKey d.ddfLocationFuzzingEnabled with
    | false => exact .off hon
    | true =>
      obtain ⟨radius, -, hradius, -⟩ := hstored hon
      exact .near hon radius hradius (by simpa [fuzzes, hon, hradius] using hno)
  · have hon : boolForKey d.ddfLocationFuzzingEnabled = true := by
      simp only [fuzzes, Bool.and_eq_true] at hyes
      exact hyes.1
    obtain ⟨radius, distance, hradius, hdistance⟩ := hstored hon
    have hrange := (hd.drawBearing arc4random).bearing bearing (by rw [hdraw])
    have hfluff : integerForKey d.ddfLocationFuzzingDistance = distance := by simp [hdistance]
    simp only [heq, hfluff]
    refine Displaced.far ?_ radius bearing distance ?_ ?_ rfl hrange ?_ ?_
    · exact hon
    · exact hradius
    · simpa [fuzzes, hon, hradius] using hyes
    · exact hdistance
    · exact hd.distance distance hdistance

/-! ## Every filter -/

/-- The filters that a write `w` of the fix `fix` has passed, in the app `a` before it and
with the preferences `d'` after it. `last` is the clock at the previous write of the process. -/
structure Filtered (P : Platform K) (last : Option ClockReadings) (a : App K)
    (d' : NSUserDefaults K) (clock : ClockReadings) (fix : CLLocationCoordinate2D K)
    (w : LocationWrite K) : Prop where
  signedIn : a.currentUser = some w.uid
  enabled : a.defaults.locationDisabled = false
  outside : a.defaults.ddfPrivacyZone = none ∨
    ∃ mapRect, a.defaults.ddfPrivacyZone = some (setMapRect mapRect) ∧
      P.mapRectContainsPoint mapRect (P.mapPointForCoordinate fix) = false
  /-- From the latest reading of the previous write to the earliest of this one. -/
  throttled : ∀ previous, last = some previous →
    wholeSeconds previous.lastLocationUpdateTime + 60 ≤ wholeSeconds clock.currentSeconds
  displaced : Displaced P d' fix w.coordinate

/-- Every write of `storeLocation` has passed every filter, in any run of a process whose
clock does not run backwards. -/
theorem published_filtered (users : Users K) {pre : List (Event K)} {e : Event K}
    {d d' : Device K} {w : LocationWrite K}
    (hpre : exec (Device.step P) (Device.installed users) pre = some d)
    (h : d.step P e = some d') (hw : Device.published P d e = some w)
    (hmono : Device.Monotone (pre ++ [e])) :
    ∃ a clock arc4random fix, d = .running a ∧ e = .runBlock clock arc4random ∧
      a.nextFix = some fix ∧
      Filtered P (Device.lastWrite P (Device.installed users) pre) a d'.stored.defaults clock fix
        w := by
  have hwell := (Device.everyState_wellFormed users pre).last hpre
  have hthrottled := (Device.everyState_throttled users pre).last hpre
  obtain ⟨a, clock, arc4random, fix, rfl, rfl, hfix, hpass, huser, hcoord, -, rfl⟩ :=
    published_step h hw
  refine ⟨a, clock, arc4random, fix, rfl, rfl, hfix, huser, hpass.enabled, ?_, ?_, ?_⟩
  · cases hzone : a.defaults.ddfPrivacyZone with
    | none => exact Or.inl rfl
    | some z =>
      obtain ⟨mapRect, rfl⟩ := hwell.zone z hzone
      refine Or.inr ⟨mapRect, rfl, ?_⟩
      simpa [NSUserDefaults.insidePrivacyZone, hzone] using hpass.outside
  · intro previous hprevious
    rw [Device.Monotone, Device.processReadings_snoc pre h, List.pairwise_append] at hmono
    have hstamp := (hthrottled a rfl hmono.1 previous hprevious).2
    have := hpass.throttle
    omega
  · rw [hcoord]
    exact displaced_fuzzLocation hwell arc4random fix

/-- Two fixes of a user with fuzzing on, the second farther from the venue than the
radius, and the block of the second waiting. -/
def fuzzedRun : List (Event ℤ) :=
  [.launch ⟨true, .authorizedWhenInUse⟩ false, Device.sampleSignIn "a", .shareMyLocation,
    .fuzzSwitchChanged true, .radiusSliderChanged 10, .distanceSegmentChanged 1,
    .saveZone ⟨⟨40, 40⟩, ⟨5, 5⟩⟩, .didUpdateLocations ⟨35, 38⟩, .runBlock ⟨100, 100, 101⟩ 7,
    .didUpdateLocations ⟨10, 20⟩]

theorem published_filtered_fuzzedRun :
    ∃ d d', exec (Device.step Platform.flat) (Device.installed fun _ => {}) fuzzedRun = some d ∧
      d.step Platform.flat (.runBlock ⟨161, 161, 161⟩ 400) = some d' ∧
      ∃ a clock arc4random fix, d = .running a ∧
        (.runBlock ⟨161, 161, 161⟩ 400 : Event ℤ) = .runBlock clock arc4random ∧
        a.nextFix = some fix ∧
        Filtered Platform.flat
          (Device.lastWrite Platform.flat (Device.installed fun _ => {}) fuzzedRun) a
          d'.stored.defaults clock fix ⟨"a", ⟨260, 20⟩, 161⟩ :=
  ⟨_, _, rfl, rfl, published_filtered (fun _ => {}) rfl rfl (by decide)
    (by unfold Device.Monotone; decide)⟩

end ConfFriends
