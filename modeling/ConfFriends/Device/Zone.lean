import ConfFriends.Device.Delegate

/-!
# The privacy zone and the stored coordinates

With a privacy zone stored and no read of `saveZone` pending, the stored coordinates
of the account should lie outside the zone. `storeLocation` keeps fixes out of the zone
and `saveZone` clears a record that lies in a new zone, each with its own test. The
test of `storeLocation` is made on the fix and not on the displaced location, so fuzzing
can store a location in the zone (`displaced_into_zone`).

It is the only way : along a run of one account whose displaced locations fall outside
the zone, the stored coordinates do (`outsideZone_of_landsOutside`). The invariant is
that coordinates inside the zone are the business of a pending read, which has not been
served or has been served with them (`ZoneInv`).
-/

set_option linter.unusedSectionVars false

open Transition

namespace ConfFriends

variable {K : Type*} [LinearOrder K] [Zero K] [IntCast K] {P : Platform K}

/-! ## One account -/

/-- The event neither ends the process nor changes who is signed in. -/
def Event.staysInSession : Event K → Bool
  | .launch _ _ => false
  | .kill => false
  | .signIn _ (.user _) => false
  | .signoutUser => false
  | .deleteCompleted _ none => false
  | _ => true

/-- With the account signed in, coordinates inside the zone are covered by a read of its
record that is pending, not served or served with them. -/
structure ZoneInv (P : Platform K) (uid : String) (a : App K) : Prop where
  signedIn : a.currentUser = some uid
  reads : ∀ read ∈ a.zoneReads, read.uid = uid
  covered : ∀ c, (a.users uid).coordinate? = some c → a.defaults.insidePrivacyZone P c = true →
    ∃ read ∈ a.zoneReads, ∀ snapshot, read.snapshot = some snapshot →
      snapshot.coordinate? = some c

/-- What touches neither the zone nor the reads, and the coordinates at most to remove
them, keeps the invariant. -/
theorem ZoneInv.frame {uid : String} {a a' : App K} (h : ZoneInv P uid a)
    (huser : a'.currentUser = a.currentUser) (hreads : a'.zoneReads = a.zoneReads)
    (hzone : a'.defaults.ddfPrivacyZone = a.defaults.ddfPrivacyZone)
    (hrecord : (a'.users uid).coordinate? = (a.users uid).coordinate? ∨
      (a'.users uid).coordinate? = none) : ZoneInv P uid a' where
  signedIn := huser.trans h.signedIn
  reads := hreads ▸ h.reads
  covered c hc hin := by
    have hin' : a.defaults.insidePrivacyZone P c = true := by
      simpa [NSUserDefaults.insidePrivacyZone, hzone] using hin
    rcases hrecord with hrecord | hrecord
    · exact hreads ▸ h.covered c (hrecord ▸ hc) hin'
    · simp [hrecord] at hc

/-- A record that loses its coordinates needs no read any more. -/
theorem ZoneInv.removeCoordinate {uid : String} {a : App K} (huser : a.currentUser = some uid)
    (hreads : ∀ read ∈ a.zoneReads, read.uid = uid) :
    ∃ a', a.removeCoordinate = .running a' ∧ ZoneInv P uid a' := by
  refine ⟨_, App.withUserRef_of_signedIn huser _, huser, hreads, ?_⟩
  intro c hc
  simp at hc

/-- A saved zone starts a read that covers any record. -/
theorem ZoneInv.saveZone {uid : String} {a : App K} (h : ZoneInv P uid a)
    (visibleMapRect : MKMapRect K) :
    ∃ a', a.saveZone visibleMapRect = .running a' ∧ ZoneInv P uid a' := by
  have huser : ({ a with
      defaults := { a.defaults with ddfPrivacyZone := some (setMapRect visibleMapRect) } } :
    App K).currentUser = some uid := h.signedIn
  refine ⟨_, App.withUserRef_of_signedIn huser _, huser, ?_, ?_⟩
  · intro read hread
    rcases List.mem_append.1 hread with hread | hread
    · exact h.reads read hread
    · obtain rfl := List.mem_singleton.1 hread
      rfl
  · intro c _ _
    exact ⟨{ uid := uid }, by simp, by simp⟩

/-- A read is served with the record of its account, so it still covers it. -/
theorem ZoneInv.serveZoneRead {uid : String} {a : App K} (h : ZoneInv P uid a) (i : ℕ) :
    ZoneInv P uid (a.serveZoneRead i) where
  signedIn := h.signedIn
  reads read hread := by
    obtain ⟨j, hj⟩ := List.mem_iff_getElem?.1 hread
    rw [App.serveZoneRead, List.getElem?_modify] at hj
    obtain ⟨old, hold, rfl⟩ := Option.map_eq_some_iff.1 hj
    have hold' := h.reads old (List.mem_of_getElem? hold)
    split <;> exact hold'
  covered c hc hin := by
    obtain ⟨read, hread, hcovers⟩ := h.covered c hc hin
    obtain ⟨j, hj⟩ := List.mem_iff_getElem?.1 hread
    -- the `j`-th read is still the `j`-th, with a snapshot if it is the one served
    have hj' : (a.serveZoneRead i).zoneReads[j]? = some (if i = j then
        { read with snapshot := some (read.snapshot.getD (a.users read.uid)) } else read) := by
      rw [App.serveZoneRead, List.getElem?_modify, hj]
      split <;> rfl
    refine ⟨_, List.mem_of_getElem? hj', ?_⟩
    split
    · -- served now, with the record of this moment unless it was served before
      rintro snapshot hsnapshot
      obtain rfl := Option.some.inj hsnapshot
      cases hold : read.snapshot with
      | none =>
        have hnow : (a.users uid).coordinate? = some c := hc
        simpa [h.reads read hread] using hnow
      | some old => exact hcovers old hold
    · exact hcovers

/-- An answered read clears the record if it covered it. -/
theorem ZoneInv.answerZoneRead {uid : String} {a : App K} (h : ZoneInv P uid a) {i : ℕ}
    {d' : Device K} (hstep : a.answerZoneRead P i = some d') :
    ∃ a', d' = .running a' ∧ ZoneInv P uid a' := by
  unfold App.answerZoneRead at hstep
  split at hstep
  · next key snapshot hi =>
    obtain rfl := Option.some.inj hstep
    have hreads : ∀ read ∈ a.zoneReads.eraseIdx i, read.uid = uid :=
      fun read hread => h.reads read (List.mem_of_mem_eraseIdx hread)
    rcases App.zoneReadBlock_cases P key snapshot
        { a with zoneReads := a.zoneReads.eraseIdx i } with ⟨-, -, heq⟩ | ⟨hno, heq⟩
    · rw [heq]
      exact ZoneInv.removeCoordinate h.signedIn hreads
    · refine ⟨_, heq, h.signedIn, hreads, fun c hc hin => ?_⟩
      obtain ⟨read, hread, hcovers⟩ := h.covered c hc hin
      obtain ⟨j, hj⟩ := List.mem_iff_getElem?.1 hread
      by_cases hji : j = i
      · -- the answered read itself does not cover the record, or its block had cleared it
        subst hji
        obtain rfl : read = ⟨key, some snapshot⟩ := by
          rw [hi] at hj
          exact (Option.some.inj hj).symm
        have hcoord := hcovers snapshot rfl
        refine absurd ⟨?_, ?_⟩ hno
        · exact UserRecord.snapshotExists_of_coordinate hcoord
        · rw [DDFUser.coordinate_of_record hcoord]
          exact (Bool.and_eq_true _ _ ▸ hin).2
      · exact ⟨read, List.mem_eraseIdx_iff_getElem?.2 ⟨j, hji, hj⟩, hcovers⟩
  · simp at hstep

/-! ## Displaced locations -/

/-- A fix that is stored displaced is displaced to the outside of the zone, unless a read
that will see it is pending. -/
def LandsOutside (P : Platform K) (d : Device K) (e : Event K) : Prop :=
  ∀ a clock arc4random fix, d = .running a → e = .runBlock clock arc4random →
    a.nextFix = some fix → PassesFilters P clock fix a → fuzzes P a.defaults fix = true →
    (∀ read ∈ a.zoneReads, read.snapshot.isSome) →
    a.defaults.insidePrivacyZone P
      (P.locationWithBearing
        (integerForKey (drawBearing arc4random a.defaults).ddfLocationFuzzingBearing)
        (integerForKey a.defaults.ddfLocationFuzzingDistance) fix) = false

/-- A block stores coordinates outside the zone, if any. -/
theorem ZoneInv.runBlock {uid : String} {a : App K} (h : ZoneInv P uid a)
    (clock : ClockReadings) (arc4random : UInt32)
    (hok : LandsOutside P (.running a) (.runBlock clock arc4random)) :
    ZoneInv P uid (a.runBlock P clock arc4random).1 := by
  rcases a.runBlock_cases P clock arc4random with
    ⟨-, heq⟩ | ⟨fix, hfix, hpass, write, hwrite, heq⟩
  · rw [heq]
    exact h.frame rfl rfl rfl (Or.inl rfl)
  · rw [h.signedIn] at hwrite
    rw [heq, hwrite]
    refine ⟨h.signedIn, h.reads, fun c hc hin => ?_⟩
    by_contra huncovered
    have hserved : ∀ read ∈ a.zoneReads, read.snapshot.isSome := by
      intro read hread
      by_contra hnone
      exact huncovered ⟨read, hread, by simp [Option.not_isSome_iff_eq_none.1 hnone]⟩
    -- the stored location is outside : the fix by the filter, a displaced one by `hok`
    have hstored : (fuzzLocation P arc4random a.defaults fix).1.ddfPrivacyZone =
          a.defaults.ddfPrivacyZone ∧
        a.defaults.insidePrivacyZone P (fuzzLocation P arc4random a.defaults fix).2 = false := by
      rcases fuzzLocation_cases P arc4random a.defaults fix with
        ⟨-, hfuzz⟩ | ⟨hyes, bearing, hdraw, hfuzz⟩
      · rw [hfuzz]
        exact ⟨rfl, hpass.outside⟩
      · have hout := hok a clock arc4random fix rfl rfl hfix hpass hyes hserved
        rw [hdraw, integerForKey_some] at hout
        rw [hfuzz]
        exact ⟨rfl, hout⟩
    obtain rfl : (fuzzLocation P arc4random a.defaults fix).2 = c := by
      simpa [Users.store, App.popBlock] using hc
    have hin' : a.defaults.insidePrivacyZone P
        (fuzzLocation P arc4random a.defaults fix).2 = true := by
      unfold NSUserDefaults.insidePrivacyZone at hin ⊢
      rw [← hstored.1]
      exact hin
    rw [hstored.2] at hin'
    simp at hin'

/-- A step of the session keeps the invariant. -/
theorem ZoneInv.step {uid : String} {a : App K} {d' : Device K} {e : Event K}
    (hI : ZoneInv P uid a) (h : (Device.running a).step P e = some d')
    (hstays : e.staysInSession = true) (hok : LandsOutside P (.running a) e) :
    ∃ a', d' = .running a' ∧ ZoneInv P uid a' := by
  simp only [Device.step] at h
  cases e with
  | launch services locationKey => simp [Event.staysInSession] at hstays
  | kill => simp [Event.staysInSession] at hstays
  | signoutUser => simp [Event.staysInSession] at hstays
  | signIn credentials result =>
    cases result with
    | error localizedDescription =>
      obtain rfl := Option.some.inj h
      exact ⟨_, rfl, hI.frame rfl rfl rfl (Or.inl rfl)⟩
    | user user => simp [Event.staysInSession] at hstays
  | shareMyLocation =>
    simp only [App.handle, Option.ite_none_right_eq_some, Option.some.injEq] at h
    exact ⟨_, h.2.symm, hI.frame rfl rfl rfl (Or.inl rfl)⟩
  | dontShareLocation =>
    simp only [App.handle, Option.ite_none_right_eq_some, Option.some.injEq] at h
    obtain ⟨-, rfl⟩ := h
    exact ZoneInv.removeCoordinate hI.signedIn hI.reads
  | locationSwitchChanged isOn =>
    obtain rfl := Option.some.inj h
    cases isOn with
    | false => exact ⟨_, rfl, hI.frame rfl rfl rfl (Or.inl rfl)⟩
    | true => exact ZoneInv.removeCoordinate hI.signedIn hI.reads
  | deleteUser =>
    obtain rfl := Option.some.inj h
    have huser : ({ a with delegate := a.delegate.stopLocationUpdates } : App K).currentUser =
      some uid := hI.signedIn
    exact ⟨_, App.withUserRef_of_signedIn huser _,
      hI.frame rfl rfl rfl (Or.inr (by simp [UserRecord.coordinate?]))⟩
  | deleteCompleted uid' error =>
    simp only [App.handle, Option.ite_none_right_eq_some, Option.some.injEq] at h
    cases error with
    | some localizedDescription => exact ⟨_, h.2.symm, hI.frame rfl rfl rfl (Or.inl rfl)⟩
    | none => simp [Event.staysInSession] at hstays
  | saveZone visibleMapRect =>
    obtain rfl := Option.some.inj h
    exact hI.saveZone visibleMapRect
  | deleteZone =>
    obtain rfl := Option.some.inj h
    refine ⟨_, rfl, hI.signedIn, hI.reads, fun c _ hin => ?_⟩
    simp [App.deleteZone, NSUserDefaults.insidePrivacyZone] at hin
  | serveZoneRead i =>
    obtain rfl := Option.some.inj h
    exact ⟨_, rfl, hI.serveZoneRead i⟩
  | answerZoneRead i => exact hI.answerZoneRead h
  | runBlock clock arc4random =>
    obtain rfl := App.handle_runBlock h
    exact ⟨_, rfl, hI.runBlock clock arc4random hok⟩
  | _ =>
    obtain rfl := Option.some.inj h
    exact ⟨_, rfl, hI.frame rfl rfl rfl (Or.inl rfl)⟩

/-! ## Runs of one account -/

namespace Device

/-- With a zone stored and no read pending, the coordinates of the account are outside. -/
def OutsideZone (P : Platform K) (d : Device K) : Prop :=
  ∀ a, d = .running a → a.zoneReads = [] → ∀ uid, a.currentUser = some uid →
    ∀ c, (a.users uid).coordinate? = some c → a.defaults.insidePrivacyZone P c = false

/-- Along a run of one account, from a state without a zone, the stored coordinates stay
outside the zone if displaced locations land outside. -/
theorem outsideZone_of_landsOutside (a₀ : App K) (uid : String)
    (huser : a₀.currentUser = some uid) (hzone : a₀.defaults.ddfPrivacyZone = none)
    (hreads : a₀.zoneReads = []) (es : List (Event K))
    (hstays : ∀ e ∈ es, e.staysInSession = true)
    (hlands : EveryStep (step P) (fun _ d e _ => LandsOutside P d e) (.running a₀) es) :
    EveryState (step P) (fun _ d => OutsideZone P d) (.running a₀) es := by
  have hinit : ZoneInv P uid a₀ := by
    refine ⟨huser, by simp [hreads], fun c _ hin => ?_⟩
    simp [NSUserDefaults.insidePrivacyZone, hzone] at hin
  have hok : EveryStep (step P)
      (fun _ d e _ => e.staysInSession = true ∧ LandsOutside P d e) (.running a₀) es :=
    fun pre e d d' hpre hd h => ⟨hstays e (hpre.subset (by simp)), hlands pre e d d' hpre hd h⟩
  refine EveryState.mono (everyState_of_everyStep
    (I := fun _ d => ∃ a, d = .running a ∧ ZoneInv P uid a) ⟨a₀, rfl, hinit⟩ ?_ hok) ?_
  · rintro pre _ e d' - ⟨a, rfl, hI⟩ h ⟨hstay, hland⟩
    exact hI.step h hstay hland
  · rintro pre _ ⟨a, rfl, hI⟩ a' ha' hnone uid' huser' c hc
    obtain rfl := Device.running.inj ha'
    obtain rfl : uid = uid' := by simpa [hI.signedIn] using huser'
    by_contra hin
    obtain ⟨read, hread, -⟩ := hI.covered c hc (by simpa using hin)
    simp [hnone] at hread

/-- A signed-in account with a subscription, and coordinates stored. -/
def sampleSession : App ℤ where
  currentUser := some "a"
  users := Function.update (fun _ => {}) "a" { latitude := some 15, longitude := some 15 }
  delegate := {
    locationRequestID := 1
    locMgr := {
      nextRequestID := 1
      locationRequests := [⟨1, .subscription, .block⟩]
      services := ⟨true, .authorizedWhenInUse⟩ } }

/-- A zone around the coordinates, and the read that clears them. -/
def zoneAroundRecord : List (Event ℤ) :=
  [.saveZone ⟨⟨10, 10⟩, ⟨10, 10⟩⟩, .serveZoneRead 0, .answerZoneRead 0]

/-- Fuzzing is set to displace by 100, and a fix comes. -/
def fuzzedFix (fix : CLLocationCoordinate2D ℤ) : List (Event ℤ) :=
  [.fuzzSwitchChanged true, .radiusSliderChanged 10, .distanceSegmentChanged 0,
    .didUpdateLocations fix]

/-- A fix that is displaced across the zone is stored, and the property holds on the way. -/
theorem outsideZone_displacedAcross :
    EveryState (step Platform.flat) (fun _ d => OutsideZone Platform.flat d)
      (.running sampleSession)
      (zoneAroundRecord ++ fuzzedFix ⟨-50, 15⟩ ++ [.runBlock ⟨100, 100, 100⟩ 7]) ∧
    (exec (step Platform.flat) (.running sampleSession)
      (zoneAroundRecord ++ fuzzedFix ⟨-50, 15⟩ ++ [.runBlock ⟨100, 100, 100⟩ 7])).map
        (fun d => (d.stored.users "a").coordinate?) = some (some ⟨50, 15⟩) := by
  refine ⟨outsideZone_of_landsOutside sampleSession "a" rfl rfl rfl _ (by decide) ?_, rfl⟩
  refine everyStep_snoc.2 ⟨?_, fun d d' hd _ => ?_⟩
  · rintro pre e d d' hpre - - a clock arc4random fix - rfl
    have hmem := hpre.subset (List.mem_append_right pre List.mem_cons_self)
    simp [zoneAroundRecord, fuzzedFix] at hmem
  · obtain rfl := Option.some.inj hd
    rintro a clock arc4random fix ha he hfix - - -
    obtain rfl := Device.running.inj ha
    obtain ⟨rfl, rfl⟩ := Event.runBlock.inj he
    obtain rfl := Option.some.inj hfix
    rfl

/-- A fix outside the zone, displaced into it. -/
def displacedRun : List (Event ℤ) :=
  zoneAroundRecord ++ fuzzedFix ⟨-85, 15⟩ ++ [.runBlock ⟨100, 100, 100⟩ 7]

/-- The displaced location is stored inside the zone. -/
theorem displaced_into_zone :
    ¬EveryState (step Platform.flat) (fun _ d => OutsideZone Platform.flat d)
      (.running sampleSession) displacedRun := by
  intro hall
  have hout := hall.last rfl _ rfl rfl "a" rfl ⟨15, 15⟩ (by decide)
  exact absurd hout (by decide)

end Device

end ConfFriends
