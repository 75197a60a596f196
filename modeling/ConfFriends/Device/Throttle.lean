import ConfFriends.Device.Filters

/-!
# What the throttle drops

The throttle is meant to drop a fix only for a write of the same process during the 60
whole seconds before it. But `storeLocation` moves the stamp after every fix that
passes its filters, also when nobody is signed in and nothing is written, and the stamp
of a new process is `0` and not empty.

`ThrottleLaw` is the intended law of one step, for a clock that does not run
backwards in the process. `everyStep_throttleLaw_iff` says when it holds along a run :
every fix that passes the filters finds somebody signed in, and no fix comes before
second 60 to a process that has written nothing.
-/

set_option linter.unusedSectionVars false

open Transition

namespace ConfFriends.Device

variable {K : Type*} [LinearOrder K] [Zero K] [IntCast K] {P : Platform K}

/-! ## The law -/

/-- `storeLocation` is called with the fix, sharing is enabled and the fix is outside the
zone. -/
structure Called (P : Platform K) (a : App K) (e : Event K) (clock : ClockReadings)
    (fix : CLLocationCoordinate2D K) : Prop where
  block : ∃ arc4random, e = .runBlock clock arc4random
  next : a.nextFix = some fix
  enabled : a.defaults.locationDisabled = false
  outside : a.defaults.insidePrivacyZone P fix = false

/-- No location has been written during the 60 whole seconds before the clock, with the
last write at `last`. -/
def Due (last : Option ClockReadings) (clock : ClockReadings) : Prop :=
  ∀ previous, last = some previous →
    wholeSeconds previous.lastLocationUpdateTime + 60 ≤ wholeSeconds clock.currentSeconds

/-- The throttle drops nothing that is due, and moves with a write only. -/
structure ThrottleLaw (P : Platform K) (d₀ : Device K) (pre : List (Event K)) (d : Device K)
    (e : Event K) (d' : Device K) : Prop where
  written : Monotone (pre ++ [e]) → ∀ a clock fix, d = .running a → Called P a e clock fix →
    a.currentUser.isSome → Due (lastWrite P d₀ pre) clock → (published P d e).isSome
  unchanged : Monotone (pre ++ [e]) → ∀ a a', d = .running a → d' = .running a' →
    published P d e = none →
    a'.delegate.lastLocationUpdateTime = a.delegate.lastLocationUpdateTime

/-- What the steps have to meet for the law. -/
structure Timely (P : Platform K) (d₀ : Device K) (pre : List (Event K)) (d : Device K)
    (e : Event K) : Prop where
  /-- A fix that passes the filters finds somebody signed in. -/
  signedIn : Monotone (pre ++ [e]) → ∀ a clock fix, d = .running a → Called P a e clock fix →
    PassesFilters P clock fix a → a.currentUser.isSome
  /-- A process that has written nothing gets no fix before second 60. -/
  late : Monotone (pre ++ [e]) → ∀ a clock fix, d = .running a → Called P a e clock fix →
    a.currentUser.isSome → lastWrite P d₀ pre = none → 60 ≤ wholeSeconds clock.currentSeconds

/-! ## Calls -/

/-- A call that finds somebody signed in publishes iff the throttle has run out. -/
theorem Called.published_isSome_iff {a : App K} {e : Event K} {clock : ClockReadings}
    {fix : CLLocationCoordinate2D K} (h : Called P a e clock fix) (huser : a.currentUser.isSome) :
    (published P (.running a) e).isSome ↔
      a.delegate.lastLocationUpdateTime + 60 ≤ wholeSeconds clock.currentSeconds := by
  obtain ⟨arc4random, rfl⟩ := h.block
  rw [Option.isSome_iff_exists, exists_published_iff]
  constructor
  · rintro ⟨a', clock', arc4random', fix', ha, he, hfix, hpass, -⟩
    cases ha
    cases he
    exact hpass.throttle
  · intro hthrottle
    exact ⟨a, clock, arc4random, fix, rfl, rfl, h.next, ⟨h.enabled, h.outside, hthrottle⟩, huser⟩

/-- A call that passes the filters moves the stamp. -/
theorem Called.stamp_step {a : App K} {d' : Device K} {e : Event K} {clock : ClockReadings}
    {fix : CLLocationCoordinate2D K} (h : Called P a e clock fix)
    (hpass : PassesFilters P clock fix a) (hs : (Device.running a).step P e = some d') :
    ∃ a', d' = .running a' ∧
      a'.delegate.lastLocationUpdateTime = wholeSeconds clock.lastLocationUpdateTime := by
  obtain ⟨arc4random, rfl⟩ := h.block
  obtain rfl := App.handle_runBlock hs
  refine ⟨_, rfl, ?_⟩
  rcases a.runBlock_cases P clock arc4random with ⟨hno, -⟩ | ⟨_, -, -, write, -, heq⟩
  · exact absurd hpass (hno fix h.next)
  · rw [heq]

/-- A step that publishes nothing keeps the stamp, or it is a call that passes the filters
while nobody is signed in. -/
theorem unpublished_step {a a' : App K} {e : Event K}
    (h : (Device.running a).step P e = some (.running a'))
    (hw : published P (.running a) e = none) :
    a'.delegate.lastLocationUpdateTime = a.delegate.lastLocationUpdateTime ∨
      ∃ clock fix, Called P a e clock fix ∧ PassesFilters P clock fix a ∧ a.currentUser = none := by
  cases e with
  | runBlock clock arc4random =>
    rcases a.runBlock_cases P clock arc4random with
      ⟨-, heq⟩ | ⟨fix, hfix, hpass, write, hwrite, heq⟩
    · obtain rfl := Device.running.inj (App.handle_runBlock h)
      exact Or.inl (by rw [heq]; rfl)
    · have hnone : write = none := by
        rw [published, heq] at hw
        exact hw
      refine Or.inr ⟨clock, fix, ⟨⟨arc4random, rfl⟩, hfix, hpass.enabled, hpass.outside⟩, hpass, ?_⟩
      simpa [hnone] using hwrite
  | _ =>
    rcases stamp_step h with hsame | ⟨t, ht, -⟩
    · exact Or.inl hsame
    · simp [Event.readings] at ht

/-! ## The stamp -/

/-- The stamp is that of the last write, or `0`. -/
def Stamped (P : Platform K) (d₀ : Device K) (pre : List (Event K)) (d : Device K) : Prop :=
  Monotone pre → ∀ a, d = .running a → a.delegate.lastLocationUpdateTime =
    (lastWrite P d₀ pre).elim 0 fun clock => wholeSeconds clock.lastLocationUpdateTime

/-- A running process whose clock has not run backwards has not run it backwards before. -/
theorem Monotone.of_snoc {a : App K} {d' : Device K} {e : Event K} {pre : List (Event K)}
    (hmono : Monotone (pre ++ [e])) (h : (Device.running a).step P e = some d') :
    Monotone pre ∧ e.readings.Pairwise (· ≤ ·) := by
  rw [Monotone, processReadings_snoc pre h, List.pairwise_append] at hmono
  exact ⟨hmono.1, hmono.2.1⟩

/-- A step that meets the condition keeps the stamp that of the last write. -/
theorem stamped_step {d₀ d d' : Device K} {pre : List (Event K)} {e : Event K}
    (hpre : exec (step P) d₀ pre = some d) (hI : Stamped P d₀ pre d)
    (h : d.step P e = some d') (htimely : Timely P d₀ pre d e) :
    Stamped P d₀ (pre ++ [e]) d' := by
  rintro hmono a' rfl
  cases d with
  | terminated s =>
    obtain ⟨services, locationKey, rfl, hlaunched⟩ := step_terminated h
    obtain rfl := Device.running.inj hlaunched
    have hlast : lastWrite P d₀ (pre ++ [.launch services locationKey]) = none := by
      simp [lastWrite, track_snoc _ _ pre none d₀ hpre h]
    rw [hlast]
    unfold Stored.launch AppDelegate.didFinishLaunchingWithOptions
    dsimp only
    split_ifs <;> simp
  | running a =>
    cases hw : published P (.running a) e with
    | some w =>
      obtain ⟨_, clock, arc4random, fix, -, rfl, -, -, -, -, -, hd'⟩ := published_step h hw
      obtain rfl := Device.running.inj hd'
      simp [lastWrite, track_snoc _ _ pre none d₀ hpre h, hw]
    | none =>
      rw [lastWrite_snoc hpre h hw, ← hI (hmono.of_snoc h).1 a rfl]
      rcases unpublished_step h hw with hsame | ⟨clock, fix, hcalled, hpass, huser⟩
      · exact hsame
      · have hsome := htimely.signedIn hmono a clock fix rfl hcalled hpass
        simp [huser] at hsome

/-- At a stamp that is that of the last write, the law is the condition. -/
theorem throttleLaw_iff {d₀ d d' : Device K} {pre : List (Event K)} {e : Event K}
    (hI : Stamped P d₀ pre d) (h : d.step P e = some d') :
    ThrottleLaw P d₀ pre d e d' ↔ Timely P d₀ pre d e := by
  constructor
  · intro hlaw
    constructor
    · rintro hmono a clock fix rfl hcalled hpass
      by_contra huser
      rw [Bool.not_eq_true, Option.isSome_eq_false_iff, Option.isNone_iff_eq_none] at huser
      have hw : published P (.running a) e = none := by
        rw [← Option.not_isSome_iff_eq_none, Option.isSome_iff_exists, exists_published_iff]
        rintro ⟨a', -, -, -, ha, -, -, -, hsome⟩
        cases ha
        simp [huser] at hsome
      obtain ⟨a', rfl, hstamp⟩ := hcalled.stamp_step hpass h
      have hsame := hlaw.unchanged hmono a a' rfl rfl hw
      -- the new stamp is read after the old one has run out
      have hle : wholeSeconds clock.currentSeconds ≤ wholeSeconds clock.lastLocationUpdateTime := by
        obtain ⟨arc4random, rfl⟩ := hcalled.block
        have hreadings := (hmono.of_snoc h).2
        simp only [Event.readings, List.pairwise_cons, List.mem_cons] at hreadings
        exact wholeSeconds_mono (hreadings.1 _ (by simp))
      have := hpass.throttle
      omega
    · rintro hmono a clock fix rfl hcalled huser hnone
      have hdue : Due (lastWrite P d₀ pre) clock := by simp [Due, hnone]
      have hpublished := hlaw.written hmono a clock fix rfl hcalled huser hdue
      rw [hcalled.published_isSome_iff huser, hI (hmono.of_snoc h).1 a rfl, hnone] at hpublished
      simpa using hpublished
  · intro htimely
    constructor
    · rintro hmono a clock fix rfl hcalled huser hdue
      rw [hcalled.published_isSome_iff huser, hI (hmono.of_snoc h).1 a rfl]
      cases hlast : lastWrite P d₀ pre with
      | none => simpa using htimely.late hmono a clock fix rfl hcalled huser hlast
      | some previous => exact hdue previous hlast
    · rintro hmono a a' rfl rfl hw
      rcases unpublished_step h hw with hsame | ⟨clock, fix, hcalled, hpass, huser⟩
      · exact hsame
      · have hsome := htimely.signedIn hmono a clock fix rfl hcalled hpass
        simp [huser] at hsome

/-- Along a run the throttle follows its law iff every fix that passes the filters finds
somebody signed in, and no fix comes before second 60 to a process that has written
nothing. -/
theorem everyStep_throttleLaw_iff (users : Users K) (es : List (Event K)) :
    EveryStep (step P) (ThrottleLaw P (installed users)) (installed users) es ↔
      EveryStep (step P) (fun pre d e _ => Timely P (installed users) pre d e)
        (installed users) es :=
  everyStep_iff_of_invariant (fun _ a h => by simp [installed] at h)
    (fun _ _ _ _ hpre hI h htimely => stamped_step hpre hI h htimely)
    (fun _ _ _ _ hI h => throttleLaw_iff hI h) es

/-- A user signs out, a fix passes the filters, and the user is back with another fix
waiting. -/
def signedOutRun : List (Event ℤ) :=
  [.launch ⟨true, .authorizedWhenInUse⟩ false, sampleSignIn "a", .shareMyLocation, .signoutUser,
    .didUpdateLocations ⟨10, 20⟩, .runBlock ⟨100, 100, 100⟩ 7, sampleSignIn "a",
    .didUpdateLocations ⟨10, 20⟩]

/-- The fix 20 seconds later is dropped, and nothing has been written at all. -/
theorem signedOutRun_drops :
    ¬EveryStep (step Platform.flat) (ThrottleLaw Platform.flat (installed fun _ => {}))
      (installed fun _ => {}) (signedOutRun ++ [.runBlock ⟨120, 120, 120⟩ 7]) := by
  intro h
  have hlaw := h signedOutRun (.runBlock ⟨120, 120, 120⟩ 7) _ _ (List.prefix_refl _) rfl rfl
  have hwritten := hlaw.written (by unfold Monotone; decide) _ ⟨120, 120, 120⟩ ⟨10, 20⟩ rfl
    ⟨⟨7, rfl⟩, rfl, rfl, rfl⟩ rfl (by
      intro previous hprevious
      simp [show lastWrite Platform.flat (installed fun _ => {}) signedOutRun = none from rfl]
        at hprevious)
  exact absurd hwritten (by decide)

end ConfFriends.Device
