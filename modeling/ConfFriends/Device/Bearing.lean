import ConfFriends.Device.Effects

/-!
# One bearing for life

The bearing of the fuzzing is drawn when the first fix is displaced and stored. A stored
`0` reads as no bearing at all, so a device that has drawn `0` draws again at its next
displaced fix, until a draw gives another number (`redrawn_bearing`).

`draws` is the list of the numbers drawn so far. All but the last are `0`, and the last is
stored (`drawn_step`), so all displaced locations that are written (`WritesDisplaced`) have
the first bearing iff none is written after a later draw that is not `0` (`oneBearing_iff`).
-/

set_option linter.unusedSectionVars false

open Transition

namespace ConfFriends.Device

variable {K : Type*} [LinearOrder K] [Zero K] [IntCast K] {P : Platform K}

/-! ## Draws and displaced writes -/

/-- The number that `storeLocation` draws in a step. -/
def drawnBearing (P : Platform K) : Device K → Event K → Option ℤ
  | .running a, .runBlock clock arc4random =>
    a.nextFix.bind fun fix =>
      if PassesFilters P clock fix a ∧ fuzzes P a.defaults fix = true ∧
          integerForKey a.defaults.ddfLocationFuzzingBearing = 0 then
        some (arc4random.toNat % 359 : ℕ)
      else none
  | _, _ => none

/-- The bearing of the displaced location that a step writes. -/
def fuzzedBearing (P : Platform K) : Device K → Event K → Option ℤ
  | .running a, .runBlock clock arc4random =>
    a.nextFix.bind fun fix =>
      if PassesFilters P clock fix a ∧ fuzzes P a.defaults fix = true ∧ a.currentUser.isSome then
        some (integerForKey (drawBearing arc4random a.defaults).ddfLocationFuzzingBearing)
      else none
  | _, _ => none

/-- The numbers drawn so far. -/
def draws (P : Platform K) (d₀ : Device K) (pre : List (Event K)) : List ℤ :=
  track (step P) (fun d e drawn => drawn ++ (drawnBearing P d e).toList) [] d₀ pre

/-- The stored bearing, with `0` for none. -/
def bearing (d : Device K) : ℤ :=
  integerForKey d.stored.defaults.ddfLocationFuzzingBearing

/-- The step stores a displaced fix, whose coordinate is computed with the bearing that is
stored once `storeLocation` has drawn. -/
structure WritesDisplaced (P : Platform K) (d : Device K) (e : Event K) (b : ℤ) : Prop where
  writes : ∃ a clock arc4random fix w, d = .running a ∧ e = .runBlock clock arc4random ∧
    a.nextFix = some fix ∧ fuzzes P a.defaults fix = true ∧ published P d e = some w ∧
    b = integerForKey (drawBearing arc4random a.defaults).ddfLocationFuzzingBearing ∧
    w.coordinate =
      P.locationWithBearing b (integerForKey a.defaults.ddfLocationFuzzingDistance) fix

theorem fuzzedBearing_eq_some_iff {d : Device K} {e : Event K} {b : ℤ} :
    fuzzedBearing P d e = some b ↔ WritesDisplaced P d e b := by
  constructor
  · intro h
    unfold fuzzedBearing at h
    split at h
    · next a clock arc4random =>
      obtain ⟨fix, hfix, h⟩ := Option.bind_eq_some_iff.1 h
      simp only [Option.ite_none_right_eq_some, Option.some.injEq] at h
      obtain ⟨⟨hpass, hfuzz, huser⟩, rfl⟩ := h
      obtain ⟨uid, huid⟩ := Option.isSome_iff_exists.1 huser
      refine ⟨a, clock, arc4random, fix, ⟨uid, (fuzzLocation P arc4random a.defaults fix).2,
        clock.updatedAt⟩, rfl, rfl, hfix, hfuzz, ?_, rfl, ?_⟩
      · exact published_eq_some_iff.2
          ⟨a, clock, arc4random, fix, rfl, rfl, hfix, hpass, huid, rfl, rfl⟩
      · obtain ⟨stored, hdraw⟩ := exists_drawBearing_eq arc4random a.defaults
        simp [fuzzLocation, hfuzz, hdraw]
    · simp at h
  · rintro ⟨a, clock, arc4random, fix, w, rfl, rfl, hfix, hfuzz, hpublished, rfl, -⟩
    obtain ⟨a', clock', arc4random', fix', ha, he, hfix', hpass, huser, -⟩ :=
      published_eq_some_iff.1 hpublished
    obtain rfl := Device.running.inj ha
    obtain ⟨rfl, rfl⟩ := Event.runBlock.inj he
    obtain rfl := Option.some.inj (hfix.symm.trans hfix')
    simp [fuzzedBearing, hfix, hpass, hfuzz, huser]

/-! ## What a step does to the bearing -/

/-- A block leaves the bearing that it has drawn, if any. -/
theorem bearing_runBlock (a : App K) (clock : ClockReadings) (arc4random : UInt32) :
    bearing (.running (a.runBlock P clock arc4random).1) =
      (drawnBearing P (.running a) (.runBlock clock arc4random)).getD (bearing (.running a)) := by
  unfold bearing drawnBearing
  dsimp only
  rcases a.runBlock_cases P clock arc4random with ⟨hno, heq⟩ | ⟨fix, hfix, hpass, write, -, heq⟩
  · rw [heq]
    cases hfix : a.nextFix with
    | none => rfl
    | some fix =>
      rw [Option.bind_some, if_neg fun h => hno fix hfix h.1]
      rfl
  · rw [heq, hfix, Option.bind_some]
    cases hfuzz : fuzzes P a.defaults fix with
    | false => simp [fuzzLocation, hfuzz]
    | true =>
      by_cases hzero : integerForKey a.defaults.ddfLocationFuzzingBearing = 0
      · simp [fuzzLocation, hfuzz, drawBearing, hzero, hpass]
      · simp [fuzzLocation, hfuzz, drawBearing, hzero]

/-- No other handler touches the bearing. -/
theorem bearing_handle {a : App K} {e : Event K} {d' : Device K} (h : a.handle P e = some d')
    (he : ∀ clock arc4random, e ≠ .runBlock clock arc4random) :
    bearing d' = bearing (.running a) := by
  have hremove : ∀ a' : App K, a'.removeCoordinate.stored.defaults = a'.defaults := fun a' => by
    rw [App.stored_removeCoordinate]
    rfl
  unfold bearing
  cases e with
  | launch services locationKey => simp [App.handle] at h
  | runBlock clock arc4random => exact absurd rfl (he clock arc4random)
  | signIn credentials result =>
    cases result with
    | error localizedDescription =>
      obtain rfl := Option.some.inj h
      rfl
    | user user =>
      simp only [App.handle, Option.ite_none_left_eq_some, Option.some.injEq] at h
      obtain ⟨-, rfl⟩ := h
      rcases a.startTwitterAuthentication_cases credentials user with
        ⟨-, message, heq⟩ | ⟨-, -, heq⟩ | ⟨-, -, displayName, avatar, twitterID, username, heq⟩ <;>
        rw [heq] <;> rfl
  | shareMyLocation =>
    simp only [App.handle, Option.ite_none_right_eq_some, Option.some.injEq] at h
    obtain ⟨-, rfl⟩ := h
    rfl
  | dontShareLocation =>
    simp only [App.handle, Option.ite_none_right_eq_some, Option.some.injEq] at h
    obtain ⟨-, rfl⟩ := h
    rw [App.dontShareLocation, hremove]
    rfl
  | locationSwitchChanged isOn =>
    obtain rfl := Option.some.inj h
    cases isOn with
    | false => rfl
    | true =>
      have heq := hremove { a with
        defaults := { a.defaults with ddfLocationDisabled := some true }
        delegate := a.delegate.stopLocationUpdates }
      exact congrArg (fun d => integerForKey d.ddfLocationFuzzingBearing) heq
  | deleteUser =>
    obtain rfl := Option.some.inj h
    cases huser : a.currentUser <;> simp [App.deleteUser, App.stored_withUserRef, huser]
  | deleteCompleted uid error =>
    simp only [App.handle, Option.ite_none_right_eq_some, Option.some.injEq] at h
    obtain ⟨-, rfl⟩ := h
    cases error <;> rfl
  | saveZone visibleMapRect =>
    obtain rfl := Option.some.inj h
    cases huser : a.currentUser <;> simp [App.saveZone, App.stored_withUserRef, huser]
  | answerZoneRead i =>
    rcases App.answerZoneRead_cases h with rfl | rfl
    · rw [hremove]
      rfl
    · rfl
  | kill | applicationDidBecomeActive | applicationWillResignActive | selectAccuracy accuracy
    | signoutUser | deleteZone | serveZoneRead i | fuzzSwitchChanged isOn
    | radiusSliderChanged value | distanceSegmentChanged i | didUpdateLocations location
    | didFailWithError | didChangeAuthorizationStatus services =>
    obtain rfl := Option.some.inj h
    rfl

/-- A step leaves the bearing that it has drawn, if any. -/
theorem bearing_step {d d' : Device K} {e : Event K} (h : d.step P e = some d') :
    bearing d' = (drawnBearing P d e).getD (bearing d) := by
  cases d with
  | terminated s =>
    obtain ⟨services, locationKey, rfl, rfl⟩ := step_terminated h
    rfl
  | running a =>
    by_cases he : ∃ clock arc4random, e = .runBlock clock arc4random
    · obtain ⟨clock, arc4random, rfl⟩ := he
      obtain rfl := App.handle_runBlock h
      exact bearing_runBlock a clock arc4random
    · simp only [not_exists] at he
      rw [bearing_handle h he]
      cases e with
      | runBlock clock arc4random => exact absurd rfl (he clock arc4random)
      | _ => rfl

/-! ## The numbers drawn -/

/-- Nothing has been drawn, or the last number drawn is stored and all before it are `0`. -/
def Drawn (drawn : List ℤ) (stored : ℤ) : Prop :=
  (drawn = [] ∧ stored = 0) ∨
    ∃ zeros last, drawn = zeros ++ [last] ∧ (∀ b ∈ zeros, b = 0) ∧ stored = last

/-- A number drawn while `0` is stored comes after zeros only. -/
theorem Drawn.draw {drawn : List ℤ} (h : Drawn drawn 0) (b : ℤ) : Drawn (drawn ++ [b]) b := by
  refine Or.inr ⟨drawn, b, rfl, ?_, rfl⟩
  rcases h with ⟨rfl, -⟩ | ⟨zeros, last, rfl, hzeros, rfl⟩
  · simp
  · intro c hc
    rcases List.mem_append.1 hc with hc | hc
    · exact hzeros c hc
    · exact List.mem_singleton.1 hc

/-- Of zeros and a last number, the first is the last iff all after the first are `0`. -/
theorem Drawn.head?_eq_iff {drawn : List ℤ} {b : ℤ} (h : Drawn drawn b) (hne : drawn ≠ []) :
    drawn.head? = some b ↔ ∀ c ∈ drawn.tail, c = 0 := by
  rcases h with ⟨rfl, -⟩ | ⟨zeros, last, rfl, hzeros, rfl⟩
  · exact absurd rfl hne
  · cases zeros with
    | nil => simp
    | cons zero zeros =>
      obtain rfl := hzeros zero (by simp)
      simp only [List.cons_append, List.head?_cons, Option.some.injEq, List.tail_cons,
        List.mem_append, List.mem_singleton]
      constructor
      · rintro rfl c (hc | rfl)
        · exact hzeros c (List.mem_cons_of_mem _ hc)
        · rfl
      · exact fun hall => (hall b (Or.inr rfl)).symm

theorem draws_snoc {d₀ d d' : Device K} {pre : List (Event K)} {e : Event K}
    (hpre : exec (step P) d₀ pre = some d) (h : d.step P e = some d') :
    draws P d₀ (pre ++ [e]) = draws P d₀ pre ++ (drawnBearing P d e).toList :=
  track_snoc _ e pre [] d₀ hpre h

/-- A bearing is drawn while none is stored. -/
theorem bearing_of_drawnBearing {d : Device K} {e : Event K} {b : ℤ}
    (h : drawnBearing P d e = some b) : bearing d = 0 := by
  unfold drawnBearing at h
  split at h
  · next a clock arc4random =>
    obtain ⟨fix, -, h⟩ := Option.bind_eq_some_iff.1 h
    simp only [Option.ite_none_right_eq_some] at h
    exact h.1.2.2
  · simp at h

theorem drawn_step {d₀ d d' : Device K} {pre : List (Event K)} {e : Event K}
    (hpre : exec (step P) d₀ pre = some d) (hI : Drawn (draws P d₀ pre) (bearing d))
    (h : d.step P e = some d') : Drawn (draws P d₀ (pre ++ [e])) (bearing d') := by
  rw [draws_snoc hpre h, bearing_step h]
  cases hdrawn : drawnBearing P d e with
  | none => simpa using hI
  | some b =>
    rw [bearing_of_drawnBearing hdrawn] at hI
    exact hI.draw b

theorem everyState_drawn (users : Users K) (es : List (Event K)) :
    EveryState (step P) (fun pre d => Drawn (draws P (installed users) pre) (bearing d))
      (installed users) es :=
  everyState_of_invariant (Or.inl ⟨rfl, rfl⟩) (fun _ _ _ _ hpre hI h => drawn_step hpre hI h) es

/-- A displaced location has the bearing that is stored after its step, and a bearing has
been drawn by then. -/
theorem fuzzedBearing_step {d d' : Device K} {e : Event K} {b : ℤ}
    (h : d.step P e = some d') (hb : fuzzedBearing P d e = some b) :
    bearing d' = b ∧ (bearing d = 0 → (drawnBearing P d e).isSome) := by
  rw [bearing_step h]
  unfold fuzzedBearing at hb
  split at hb
  · next a clock arc4random =>
    obtain ⟨fix, hfix, hb⟩ := Option.bind_eq_some_iff.1 hb
    simp only [Option.ite_none_right_eq_some, Option.some.injEq] at hb
    obtain ⟨⟨hpass, hfuzz, -⟩, rfl⟩ := hb
    by_cases hzero : integerForKey a.defaults.ddfLocationFuzzingBearing = 0
    · simp [drawnBearing, bearing, hfix, hpass, hfuzz, hzero, drawBearing]
    · simp [drawnBearing, bearing, hfix, hzero, drawBearing]
  · simp at hb

/-! ## The first bearing -/

/-- Every displaced location that the run writes is computed with the first bearing drawn. -/
def OneBearing (P : Platform K) (d₀ : Device K) (es : List (Event K)) : Prop :=
  EveryStep (step P) (fun pre d e _ => ∀ b, WritesDisplaced P d e b →
    (draws P d₀ (pre ++ [e])).head? = some b) d₀ es

/-- The displaced locations have one bearing iff none is written after a later draw of
another number than `0`. -/
theorem oneBearing_iff (users : Users K) (es : List (Event K)) :
    OneBearing P (installed users) es ↔
      EveryStep (step P) (fun pre d e _ => (∃ b, WritesDisplaced P d e b) →
        ∀ c ∈ (draws P (installed users) (pre ++ [e])).tail, c = 0) (installed users) es := by
  have hI : EveryState (step P) (fun pre d => exec (step P) (installed users) pre = some d ∧
      Drawn (draws P (installed users) pre) (bearing d)) (installed users) es :=
    fun pre d hpre hd => ⟨hd, everyState_drawn users es pre d hpre hd⟩
  refine everyStep_congr hI fun pre d e d' ⟨hpre, hdrawn⟩ h => ?_
  simp only [← fuzzedBearing_eq_some_iff]
  cases hb : fuzzedBearing P d e with
  | none => simp
  | some b =>
    obtain ⟨hstored, hdraws⟩ := fuzzedBearing_step h hb
    have hafter : Drawn (draws P (installed users) (pre ++ [e])) b :=
      hstored ▸ drawn_step hpre hdrawn h
    have hne : draws P (installed users) (pre ++ [e]) ≠ [] := by
      rw [draws_snoc hpre h]
      rcases hdrawn with ⟨-, hzero⟩ | ⟨zeros, last, hdrawn, -, -⟩
      · obtain ⟨c, hc⟩ := Option.isSome_iff_exists.1 (hdraws hzero)
        simp [hc]
      · simp [hdrawn]
    simpa using hafter.head?_eq_iff hne

/-- Two displaced fixes, for the first of which the bearing `0` is drawn. -/
def zeroBearingFirst : List (Event ℤ) :=
  [.launch ⟨true, .authorizedWhenInUse⟩ false, sampleSignIn "a", .shareMyLocation,
    .fuzzSwitchChanged true, .radiusSliderChanged 10, .didUpdateLocations ⟨10, 20⟩,
    .runBlock ⟨100, 100, 100⟩ 359, .didUpdateLocations ⟨10, 20⟩, .runBlock ⟨161, 161, 161⟩ 7]

/-- The second fix has another bearing. -/
theorem redrawn_bearing :
    ¬OneBearing Platform.flat (installed fun _ => {}) zeroBearingFirst := by
  intro hall
  have hfirst := hall (zeroBearingFirst.take 8) (.runBlock ⟨161, 161, 161⟩ 7) _ _
    (List.prefix_refl _) rfl rfl 7 (fuzzedBearing_eq_some_iff.1 (by decide))
  exact absurd hfirst (by decide)

end ConfFriends.Device
