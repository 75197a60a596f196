import ConfFriends.Device.Filters

/-!
# What the settings screens show

The screens for fuzzing and for the privacy zone show what is stored when their views are
loaded, and their handlers store what the controls show. `controls_roundTrip` is that both
directions agree along every run. The switch, put where it stands, changes nothing unless it
was never touched : then it stores where it stands. While fuzzing is on, the radius and the
distance are shown as they are used, but for a radius beyond the end of the slider. The map
of the zone shows a rectangle with the shape of its frame. If it shows one that was visible
before as it was, the zone that is saved from the screen is the zone that was stored, and
nothing happens but the read of the user's record.
-/

set_option linter.unusedSectionVars false

open Transition

namespace ConfFriends

variable {K : Type*} [LinearOrder K] [Zero K] [IntCast K] {P : Platform K}

/-! ## Fuzzing -/

/-- The controls of the screen. -/
structure FuzzingViewController where
  fuzzSwitch : Bool
  radiusSlider : ℤ
  /-- `selectedSegmentIndex` -/
  distanceSegmentControl : ℤ
  deriving DecidableEq

/-- `setMaximumValue:` of the slider. -/
def maximumValue : ℤ :=
  10000

/-- `setValue:` of the slider, whose minimum is `0`. -/
def sliderValue (value : ℤ) : ℤ :=
  max 0 (min value maximumValue)

/-- The segment of a fluff distance. A control without a selection has the index `-1`. -/
def distanceSegment (distance : ℤ) : ℤ :=
  if distance = 100 then 0
  else if distance = 250 then 1
  else if distance = 500 then 2
  else if distance = 1000 then 3
  else if distance = 2000 then 4
  else -1

/-- The views of the screen are loaded. -/
def NSUserDefaults.fuzzingView (d : NSUserDefaults K) : FuzzingViewController where
  fuzzSwitch := boolForKey d.ddfLocationFuzzingEnabled
  radiusSlider :=
    if d.ddfLocationFuzzingRadius.isSome then
      sliderValue (integerForKey d.ddfLocationFuzzingRadius)
    else 2000
  distanceSegmentControl :=
    if d.ddfLocationFuzzingDistance.isSome then
      distanceSegment (integerForKey d.ddfLocationFuzzingDistance)
    else 0

theorem segmentDistance_distanceSegment {distance : ℤ} (h : distance ∈ fluffDistances) :
    App.segmentDistance (distanceSegment distance) = distance := by
  have hall : ∀ distance ∈ fluffDistances,
      App.segmentDistance (distanceSegment distance) = distance := by decide
  exact hall distance h

theorem sliderValue_eq_iff {value : ℤ} :
    sliderValue value = value ↔ 0 ≤ value ∧ value ≤ maximumValue := by
  unfold sliderValue maximumValue
  omega

/-! ## The privacy zone -/

section Zone

-- the `visibleMapRect` of a map after `setVisibleMapRect:`
variable (visible : MKMapRect K → MKMapRect K)

/-- The map of the zone screen : the stored zone, if there is one. -/
def NSUserDefaults.zoneView (P : Platform K) (d : NSUserDefaults K) : Option (MKMapRect K) :=
  if d.ddfPrivacyZone.isSome then some (visible (mapRectForKey P d.ddfPrivacyZone)) else none

/-- The stored zone was visible. -/
def NSUserDefaults.ZoneVisible (d : NSUserDefaults K) : Prop :=
  ∀ z, d.ddfPrivacyZone = some z → ∃ mapRect, z = setMapRect (visible mapRect)

/-- The zones that are saved were visible. -/
def SavesVisible (es : List (Event K)) : Prop :=
  ∀ mapRect, Event.saveZone mapRect ∈ es → ∃ r, mapRect = visible r

end Zone

/-- The stored zone changes by an event that sets it. -/
theorem zone_step {d d' : Device K} {e : Event K} (h : d.step P e = some d') :
    d'.stored.defaults.ddfPrivacyZone = d.stored.defaults.ddfPrivacyZone ∨
      ∃ mapRect, e.setsZone = some mapRect ∧
        d'.stored.defaults.ddfPrivacyZone = mapRect.map setMapRect := by
  have hs := storedStep_of_step h
  generalize d'.stored = s' at hs ⊢
  cases hs with
  | keep hsign hdecides hpublished defaults hchange => exact hchange.privacyZone_cases
  | publish hsign hdecides w hpublished huser henabled defaults hchange =>
    exact hchange.privacyZone_cases
  | _ => exact Or.inl rfl

/-- A step keeps the stored zone visible, if it saves none that was not. -/
theorem zoneVisible_step {visible : MKMapRect K → MKMapRect K} {d d' : Device K} {e : Event K}
    (hI : d.stored.defaults.ZoneVisible visible) (h : d.step P e = some d')
    (hsaves : ∀ mapRect, e = .saveZone mapRect → ∃ r, mapRect = visible r) :
    d'.stored.defaults.ZoneVisible visible := by
  intro z hz
  rcases zone_step h with hkept | ⟨zone, hsets, hset⟩
  · exact hI z (hkept ▸ hz)
  · obtain ⟨mapRect, rfl, rfl⟩ := Option.map_eq_some_iff.1 (hset.symm.trans hz)
    obtain ⟨r, rfl⟩ := hsaves mapRect (Event.eq_saveZone_of_setsZone hsets)
    exact ⟨r, rfl⟩

/-! ## One state -/

/-- What the controls do when they are put where they stand. -/
structure ShowsPreferences (P : Platform K) (visible : MKMapRect K → MKMapRect K) (a : App K) :
    Prop where
  fuzzSwitch : a.fuzzSwitchChanged a.defaults.fuzzingView.fuzzSwitch = a ↔
    a.defaults.ddfLocationFuzzingEnabled.isSome
  distance : boolForKey a.defaults.ddfLocationFuzzingEnabled = true →
    a.distanceSegmentChanged a.defaults.fuzzingView.distanceSegmentControl = a
  radius : boolForKey a.defaults.ddfLocationFuzzingEnabled = true →
    (a.radiusSliderChanged a.defaults.fuzzingView.radiusSlider = a ↔
      0 ≤ integerForKey a.defaults.ddfLocationFuzzingRadius ∧
        integerForKey a.defaults.ddfLocationFuzzingRadius ≤ maximumValue)
  zone : ∀ mapRect, a.defaults.zoneView visible P = some mapRect →
    mapRect = mapRectForKey P a.defaults.ddfPrivacyZone ∧ a.saveZone mapRect =
      a.withUserRef fun uid => { a with zoneReads := a.zoneReads ++ [{ uid := uid }] }

/-- While fuzzing is on there are a radius and a fluff distance of a segment. -/
theorem NSUserDefaults.WellFormed.exists_of_on {d : NSUserDefaults K} (h : d.WellFormed)
    (hon : boolForKey d.ddfLocationFuzzingEnabled = true) :
    d.ddfLocationFuzzingEnabled = some true ∧
      (∃ radius, d.ddfLocationFuzzingRadius = some radius) ∧
      ∃ distance ∈ fluffDistances, d.ddfLocationFuzzingDistance = some distance := by
  have henabled : d.ddfLocationFuzzingEnabled = some true := by
    cases hd : d.ddfLocationFuzzingEnabled with
    | none => simp [hd] at hon
    | some b => simpa [hd] using hon
  obtain ⟨hradius, hdistance⟩ := h.fuzzing (by simp [henabled])
  obtain ⟨distance, hsome⟩ := Option.isSome_iff_exists.1 hdistance
  exact ⟨henabled, Option.isSome_iff_exists.1 hradius, distance, h.distance distance hsome, hsome⟩

/-- Well-formed preferences with a zone that was visible are shown. -/
theorem showsPreferences_of_wellFormed {visible : MKMapRect K → MKMapRect K}
    (hvisible : ∀ mapRect, visible (visible mapRect) = visible mapRect) {a : App K}
    (h : a.defaults.WellFormed) (hzone : a.defaults.ZoneVisible visible) :
    ShowsPreferences P visible a where
  fuzzSwitch := by
    constructor
    · intro heq
      have hsame := congrArg (fun a : App K => a.defaults.ddfLocationFuzzingEnabled) heq
      have hstored : some a.defaults.fuzzingView.fuzzSwitch =
        a.defaults.ddfLocationFuzzingEnabled := hsame
      rw [← hstored]
      rfl
    · intro hsome
      obtain ⟨isOn, henabled⟩ := Option.isSome_iff_exists.1 hsome
      obtain ⟨hradius, hdistance⟩ := h.fuzzing hsome
      obtain ⟨radius, hradius⟩ := Option.isSome_iff_exists.1 hradius
      obtain ⟨distance, hdistance⟩ := Option.isSome_iff_exists.1 hdistance
      unfold App.fuzzSwitchChanged NSUserDefaults.fuzzingView
      rw [henabled, boolForKey_some, hradius, hdistance, Option.getD_some, Option.getD_some,
        ← henabled, ← hradius, ← hdistance]
  distance hon := by
    obtain ⟨-, -, distance, hmem, hdistance⟩ := h.exists_of_on hon
    have hshown : a.defaults.fuzzingView.distanceSegmentControl = distanceSegment distance := by
      simp [NSUserDefaults.fuzzingView, hdistance]
    unfold App.distanceSegmentChanged
    rw [hshown, segmentDistance_distanceSegment hmem, ← hdistance]
  radius hon := by
    obtain ⟨-, ⟨radius, hradius⟩, -⟩ := h.exists_of_on hon
    have hshown : a.defaults.fuzzingView.radiusSlider = sliderValue radius := by
      simp [NSUserDefaults.fuzzingView, hradius]
    rw [hshown, hradius, integerForKey_some, ← sliderValue_eq_iff]
    constructor
    · intro heq
      have hsame := congrArg (fun a : App K => a.defaults.ddfLocationFuzzingRadius) heq
      exact Option.some.inj (hsame.trans hradius)
    · intro heq
      unfold App.radiusSliderChanged
      rw [heq, ← hradius]
  zone mapRect hshown := by
    simp only [NSUserDefaults.zoneView, Option.ite_none_right_eq_some, Option.some.injEq] at hshown
    obtain ⟨hsome, rfl⟩ := hshown
    obtain ⟨z, hz⟩ := Option.isSome_iff_exists.1 hsome
    obtain ⟨r, rfl⟩ := hzone z hz
    have hread : visible (mapRectForKey P a.defaults.ddfPrivacyZone) = visible r := by
      rw [hz, mapRectForKey_setMapRect, hvisible]
    refine ⟨by rw [hread, hz, mapRectForKey_setMapRect], ?_⟩
    rw [hread]
    unfold App.saveZone
    rw [← hz]

/-! ## Runs -/

/-- Along every run a control that is put where it stands changes nothing, but for a switch
that was never touched and a radius beyond the end of the slider. The zone that is shown is
the stored one, and saving it starts a read and does no more. -/
theorem controls_roundTrip {visible : MKMapRect K → MKMapRect K}
    (hvisible : ∀ mapRect, visible (visible mapRect) = visible mapRect) (users : Users K)
    {es : List (Event K)} (hsaves : SavesVisible visible es) :
    EveryState (Device.step P) (fun _ d => ∀ a, d = .running a → ShowsPreferences P visible a)
      (Device.installed users) es := by
  have hsteps : EveryStep (Device.step P) (fun _ _ e _ => ∀ mapRect, e = .saveZone mapRect →
      ∃ r, mapRect = visible r) (Device.installed users) es := by
    intro pre e d d' hinit _ _ mapRect he
    subst he
    exact hsaves mapRect (hinit.subset (by simp))
  have hzone : EveryState (Device.step P) (fun _ d => d.stored.defaults.ZoneVisible visible)
      (Device.installed users) es := by
    refine everyState_of_everyStep (fun z hz => ?_)
      (fun _ _ _ _ _ hI h hok => zoneVisible_step hI h hok) hsteps
    simp [Device.installed] at hz
  intro pre d hinit hexec a ha
  subst ha
  exact showsPreferences_of_wellFormed hvisible
    (Device.everyState_wellFormed users es pre _ hinit hexec) (hzone pre _ hinit hexec)

/-! A phone whose map is a square. -/

def squareMap (mapRect : MKMapRect ℤ) : MKMapRect ℤ :=
  { mapRect with size :=
      ⟨max mapRect.size.width mapRect.size.height, max mapRect.size.width mapRect.size.height⟩ }

/-- A zone is saved, and fuzzing switched on. -/
def zoneAndFuzzing : List (Event ℤ) :=
  [.launch ⟨true, .authorizedWhenInUse⟩ false, Device.sampleSignIn "a",
    .saveZone ⟨⟨10, 10⟩, ⟨20, 20⟩⟩, .fuzzSwitchChanged true]

theorem controls_zoneAndFuzzing :
    ∃ a, exec (Device.step Platform.flat) (Device.installed fun _ => {}) zoneAndFuzzing =
        some (.running a) ∧
      a.defaults.zoneView squareMap Platform.flat = some ⟨⟨10, 10⟩, ⟨20, 20⟩⟩ ∧
      ShowsPreferences Platform.flat squareMap a := by
  have hsaves : SavesVisible squareMap zoneAndFuzzing := by
    intro mapRect hmem
    simp only [zoneAndFuzzing, Device.sampleSignIn, List.mem_cons, reduceCtorEq,
      Event.saveZone.injEq, List.not_mem_nil, or_false, false_or] at hmem
    exact ⟨mapRect, by rw [hmem]; rfl⟩
  have hvisible : ∀ mapRect, squareMap (squareMap mapRect) = squareMap mapRect := by
    intro mapRect
    simp [squareMap]
  exact ⟨_, rfl, rfl, (controls_roundTrip hvisible _ hsaves).last rfl _ rfl⟩

end ConfFriends
