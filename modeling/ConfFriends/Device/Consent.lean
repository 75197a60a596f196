import ConfFriends.Device.Effects

/-!
# Consent before publication

A write of `storeLocation` should follow, since the sign-in in force, a decision of the
user to share : the answer 'Share My Location' or the switch turned off. `consented`
reads that from the past of the run.

It fails while the user has taken no decision at all, because a missing
`DDFLocationDisabled` reads as "not disabled" and `applicationDidBecomeActive`
subscribes without looking at the prompt (`undecided_write`). A decision not to share
is kept : from it to the next sign-in the device stays disabled
(`everyState_heldBack`). So the writes of a run have consent iff no fix is delivered
between a sign-in and the first decision after it.
-/

set_option linter.unusedSectionVars false

open Transition

namespace ConfFriends.Device

variable {K : Type*} [LinearOrder K] [Zero K] [IntCast K] {P : Platform K}

/-! ## Decisions since the last sign-in -/

/-- The user has decided to share since the sign-in in force. -/
def consented (P : Platform K) (d₀ : Device K) (pre : List (Event K)) : Bool :=
  since (step P) (fun _ e => decide (e.decides = some true)) (fun _ e => e.signsIn.isSome)
    false d₀ pre

/-- The user has answered the prompt or moved the switch since the sign-in
in force. -/
def decided (P : Platform K) (d₀ : Device K) (pre : List (Event K)) : Bool :=
  since (step P) (fun _ e => e.decides.isSome) (fun _ e => e.signsIn.isSome) false d₀ pre

/-- A user who has decided, and not to share, has the device disabled. -/
def HeldBack (P : Platform K) (d₀ : Device K) (pre : List (Event K)) (d : Device K) : Prop :=
  decided P d₀ pre = true → consented P d₀ pre = false → d.stored.defaults.locationDisabled = true

theorem consented_snoc {d₀ d d' : Device K} {pre : List (Event K)} {e : Event K}
    (hpre : exec (step P) d₀ pre = some d) (h : d.step P e = some d') :
    consented P d₀ (pre ++ [e]) =
      (decide (e.decides = some true) || (consented P d₀ pre && !e.signsIn.isSome)) :=
  since_snoc _ _ e pre false d₀ hpre h

theorem decided_snoc {d₀ d d' : Device K} {pre : List (Event K)} {e : Event K}
    (hpre : exec (step P) d₀ pre = some d) (h : d.step P e = some d') :
    decided P d₀ (pre ++ [e]) = (e.decides.isSome || (decided P d₀ pre && !e.signsIn.isSome)) :=
  since_snoc _ _ e pre false d₀ hpre h

theorem decided_of_consented {d₀ : Device K} {pre : List (Event K)}
    (h : consented P d₀ pre = true) : decided P d₀ pre = true := by
  refine since_mono (fun _ e he => ?_) pre false d₀ h
  simp [of_decide_eq_true he]

/-- One step keeps a held back user held back. -/
theorem heldBack_step {d₀ d d' : Device K} {pre : List (Event K)} {e : Event K}
    (hpre : exec (step P) d₀ pre = some d) (hI : HeldBack P d₀ pre d)
    (h : d.step P e = some d') : HeldBack P d₀ (pre ++ [e]) d' := by
  intro hdecided hconsented
  rw [decided_snoc hpre h] at hdecided
  rw [consented_snoc hpre h] at hconsented
  rw [locationDisabled_step h]
  cases hdec : e.decides with
  | some share =>
    have hshare : ¬share = true := fun hyes => by simp [hdec, hyes] at hconsented
    simpa using hshare
  | none =>
    -- no decision and no sign-in, so the user is as decided as before
    have hbefore : decided P d₀ pre = true ∧ e.signsIn = none := by simpa [hdec] using hdecided
    have hnot : consented P d₀ pre = false := by simpa [hdec, hbefore.2] using hconsented
    exact hI hbefore.1 hnot

theorem everyState_heldBack (users : Users K) (es : List (Event K)) :
    EveryState (step P) (HeldBack P (installed users)) (installed users) es :=
  everyState_of_invariant (fun h => by simp [decided] at h)
    (fun _ _ _ _ hpre hI h => heldBack_step hpre hI h) es

/-! ## Consent -/

/-- Every write of the run follows a decision to share since the last sign-in. -/
def ConsentBeforePublication (P : Platform K) (d₀ : Device K) (es : List (Event K)) : Prop :=
  EveryStep (step P) (fun pre d e _ => ∀ w, published P d e = some w → consented P d₀ pre = true)
    d₀ es

/-- Writes have consent iff no fix is delivered to a user who has not decided. -/
theorem consentBeforePublication_iff (users : Users K) (es : List (Event K)) :
    ConsentBeforePublication P (installed users) es ↔
      EveryStep (step P)
        (fun pre d e _ => Delivers P d e → decided P (installed users) pre = true)
        (installed users) es := by
  refine everyStep_congr (everyState_heldBack users es) fun pre d e d' hI _ => ?_
  rw [← exists_published_iff]
  constructor
  · rintro hall ⟨w, hw⟩
    exact decided_of_consented (hall w hw)
  · intro hok w hw
    obtain ⟨a, clock, arc4random, fix, rfl, rfl, hfix, hpass, -⟩ := published_eq_some_iff.1 hw
    by_contra hnot
    have hdisabled := hI (hok ⟨w, hw⟩) (by simpa using hnot)
    rw [stored_running, hpass.enabled] at hdisabled
    simp at hdisabled

/-! ## A write before the prompt is answered -/

/-- A first launch, the sign-in of an account, and a fix while the prompt is open. -/
def signInWhileTracking : List (Event ℤ) :=
  [.launch ⟨true, .notDetermined⟩ false, .applicationDidBecomeActive,
    .didChangeAuthorizationStatus ⟨true, .authorizedWhenInUse⟩, sampleSignIn "a",
    .didUpdateLocations ⟨10, 20⟩]

/-- The fix is published although the user has not answered. -/
theorem undecided_write : ¬ConsentBeforePublication Platform.flat (installed fun _ => {})
    (signInWhileTracking ++ [.runBlock ⟨100, 100, 100⟩ 7]) := by
  intro hall
  have hconsented := hall signInWhileTracking (.runBlock ⟨100, 100, 100⟩ 7) _ _
    (List.prefix_refl _) rfl rfl ⟨"a", ⟨10, 20⟩, 100⟩ (by decide)
  exact absurd hconsented (by decide)

end ConfFriends.Device
