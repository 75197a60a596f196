import Mathlib.Algebra.Order.Floor.Ring
import Mathlib.Data.Rat.Floor
import ConfFriends.App

/-!
# Storing a location

`storeLocation` passes a fix through its filters, displaces it if fuzzing asks for it,
and writes it below the current user. It returns the new state and the write, if it
made one.

`storeLocation_cases` is the spec : a call either stops at a filter and changes
nothing, or passes all of them (`PassesFilters`), and then the preferences can only
have gained a bearing (`drawBearing`) and the throttle has a new stamp, also when
nobody is signed in and nothing is written.
-/

set_option linter.unusedSectionVars false

namespace ConfFriends

variable {K : Type*} [LinearOrder K] [Zero K] [IntCast K]

/-! ## The throttle -/

/-- The conversion of a time to `NSInteger` truncates toward zero. -/
def wholeSeconds (t : NSTimeInterval) : ℤ :=
  if 0 ≤ t then ⌊t⌋ else ⌈t⌉

theorem wholeSeconds_mono {s t : NSTimeInterval} (h : s ≤ t) :
    wholeSeconds s ≤ wholeSeconds t := by
  unfold wholeSeconds
  split_ifs with hs ht ht
  · exact Int.floor_le_floor h
  · exact absurd (hs.trans h) ht
  · have h₁ : ⌈s⌉ ≤ 0 := Int.ceil_le.2 (by exact_mod_cast (not_le.1 hs).le)
    have h₂ : 0 ≤ ⌊t⌋ := Int.floor_nonneg.2 ht
    exact h₁.trans h₂
  · exact Int.ceil_le_ceil h

def MINUTES_STORAGE_THRESHHOLD : ℤ := 1

/-- The three readings of the clock in one call of `storeLocation`. -/
structure ClockReadings where
  currentSeconds : NSTimeInterval
  updatedAt : NSTimeInterval
  lastLocationUpdateTime : NSTimeInterval
  deriving DecidableEq

/-- Whole minutes since the last stored location, as the throttle computes them. -/
def minutesSinceLastUpdate (clock : ClockReadings) (a : AppDelegate K) : ℤ :=
  (wholeSeconds clock.currentSeconds - a.lastLocationUpdateTime).tdiv 60

/-- The throttle passes from 60 whole seconds on. -/
theorem threshold_le_minutes_iff (clock : ClockReadings) (a : AppDelegate K) :
    MINUTES_STORAGE_THRESHHOLD ≤ minutesSinceLastUpdate clock a ↔
      a.lastLocationUpdateTime + 60 ≤ wholeSeconds clock.currentSeconds := by
  unfold MINUTES_STORAGE_THRESHHOLD minutesSinceLastUpdate
  generalize wholeSeconds clock.currentSeconds = now
  rcases le_or_gt 0 (now - a.lastLocationUpdateTime) with h | h
  · rw [Int.tdiv_eq_ediv_of_nonneg h]
    omega
  · -- a clock behind the stamp gives no positive count of minutes
    have hneg : 0 ≤ (-(now - a.lastLocationUpdateTime)).tdiv 60 :=
      Int.tdiv_nonneg (by omega) (by omega)
    rw [Int.neg_tdiv] at hneg
    omega

/-! ## Fuzzing -/

/-- Draw the bearing if none is stored. The value `0` counts as none. -/
def drawBearing (arc4random : UInt32) (d : NSUserDefaults K) : NSUserDefaults K :=
  if integerForKey d.ddfLocationFuzzingBearing = 0 then
    { d with ddfLocationFuzzingBearing := some (arc4random.toNat % 359 : ℕ) }
  else d

/-- The fix is displaced : fuzzing is on and the venue is farther away than the radius. -/
def fuzzes (P : Platform K) (d : NSUserDefaults K) (location : CLLocationCoordinate2D K) : Bool :=
  boolForKey d.ddfLocationFuzzingEnabled &&
    decide ((integerForKey d.ddfLocationFuzzingRadius : K) < P.distanceFromVenue location)

/-- The fuzzing of `storeLocation` : the preferences after it, and the location to store. -/
def fuzzLocation (P : Platform K) (arc4random : UInt32) (d : NSUserDefaults K)
    (location : CLLocationCoordinate2D K) : NSUserDefaults K × CLLocationCoordinate2D K :=
  if fuzzes P d location then
    let d := drawBearing arc4random d
    (d, P.locationWithBearing (integerForKey d.ddfLocationFuzzingBearing)
      (integerForKey d.ddfLocationFuzzingDistance) location)
  else (d, location)

/-- A draw leaves some bearing stored, and all other preferences as they are. -/
theorem exists_drawBearing_eq (arc4random : UInt32) (d : NSUserDefaults K) :
    ∃ bearing, drawBearing arc4random d = { d with ddfLocationFuzzingBearing := some bearing } := by
  unfold drawBearing
  split
  · exact ⟨_, rfl⟩
  · next hne =>
    cases hbearing : d.ddfLocationFuzzingBearing with
    | none => simp [hbearing] at hne
    | some bearing => exact ⟨bearing, by rw [← hbearing]⟩

/-- Either the location is stored as it is, or it is displaced along the bearing that is
stored afterwards. -/
theorem fuzzLocation_cases (P : Platform K) (arc4random : UInt32) (d : NSUserDefaults K)
    (location : CLLocationCoordinate2D K) :
    (fuzzes P d location = false ∧ fuzzLocation P arc4random d location = (d, location)) ∨
    (fuzzes P d location = true ∧ ∃ bearing,
      drawBearing arc4random d = { d with ddfLocationFuzzingBearing := some bearing } ∧
      fuzzLocation P arc4random d location =
        ({ d with ddfLocationFuzzingBearing := some bearing },
          P.locationWithBearing bearing (integerForKey d.ddfLocationFuzzingDistance)
            location)) := by
  unfold fuzzLocation
  cases hfuzz : fuzzes P d location with
  | false => exact Or.inl ⟨rfl, rfl⟩
  | true =>
    obtain ⟨bearing, hdraw⟩ := exists_drawBearing_eq arc4random d
    exact Or.inr ⟨rfl, bearing, hdraw, by simp [hdraw]⟩

/-! ## The write -/

/-- An `updateChildValues` of `storeLocation`. -/
structure LocationWrite (K : Type*) where
  uid : String
  coordinate : CLLocationCoordinate2D K
  updatedAt : NSTimeInterval
  deriving DecidableEq

/-- The database after a write of `storeLocation`. -/
def Users.store (users : Users K) (w : LocationWrite K) : Users K :=
  users.updateChildValues w.uid fun r => r.setLocation w.coordinate w.updatedAt

def storeLocation (P : Platform K) (clock : ClockReadings) (arc4random : UInt32)
    (currentLocation : CLLocationCoordinate2D K) (a : App K) : App K × Option (LocationWrite K) :=
  if a.defaults.locationDisabled then (a, none)
  else if a.defaults.insidePrivacyZone P currentLocation then (a, none)
  else if minutesSinceLastUpdate clock a.delegate < MINUTES_STORAGE_THRESHHOLD then (a, none)
  else
    let (defaults, location) := fuzzLocation P arc4random a.defaults currentLocation
    let write := a.currentUser.map fun uid => ⟨uid, location, clock.updatedAt⟩
    ({ a with
        defaults := defaults
        users := write.elim a.users a.users.store
        delegate := { a.delegate with
          lastLocationUpdateTime := wholeSeconds clock.lastLocationUpdateTime } }, write)

/-- The filters that a fix has to pass : sharing is on, the fix is outside the zone and
the throttle has run out. -/
structure PassesFilters (P : Platform K) (clock : ClockReadings)
    (currentLocation : CLLocationCoordinate2D K) (a : App K) : Prop where
  enabled : a.defaults.locationDisabled = false
  outside : a.defaults.insidePrivacyZone P currentLocation = false
  throttle : a.delegate.lastLocationUpdateTime + 60 ≤ wholeSeconds clock.currentSeconds

instance (P : Platform K) (clock : ClockReadings) (currentLocation : CLLocationCoordinate2D K)
    (a : App K) : Decidable (PassesFilters P clock currentLocation a) :=
  decidable_of_iff (a.defaults.locationDisabled = false ∧
      a.defaults.insidePrivacyZone P currentLocation = false ∧
      a.delegate.lastLocationUpdateTime + 60 ≤ wholeSeconds clock.currentSeconds)
    ⟨fun h => ⟨h.1, h.2.1, h.2.2⟩, fun h => ⟨h.enabled, h.outside, h.throttle⟩⟩

/-- A call either stops at a filter and changes nothing, or passes them all. -/
theorem storeLocation_cases (P : Platform K) (clock : ClockReadings) (arc4random : UInt32)
    (currentLocation : CLLocationCoordinate2D K) (a : App K) :
    (¬PassesFilters P clock currentLocation a ∧
      storeLocation P clock arc4random currentLocation a = (a, none)) ∨
    (PassesFilters P clock currentLocation a ∧
      ∃ write, write = (a.currentUser.map fun uid =>
          ⟨uid, (fuzzLocation P arc4random a.defaults currentLocation).2, clock.updatedAt⟩) ∧
        storeLocation P clock arc4random currentLocation a =
          ({ a with
              defaults := (fuzzLocation P arc4random a.defaults currentLocation).1
              users := write.elim a.users a.users.store
              delegate := { a.delegate with
                lastLocationUpdateTime := wholeSeconds clock.lastLocationUpdateTime } },
            write)) := by
  unfold storeLocation
  split_ifs with hdisabled hzone hminutes
  · exact Or.inl ⟨fun h => by simp [h.enabled] at hdisabled, rfl⟩
  · exact Or.inl ⟨fun h => by simp [h.outside] at hzone, rfl⟩
  · refine Or.inl ⟨fun h => ?_, rfl⟩
    exact absurd ((threshold_le_minutes_iff clock a.delegate).2 h.throttle) (not_le.2 hminutes)
  · refine Or.inr ⟨⟨by simpa using hdisabled, by simpa using hzone, ?_⟩, _, rfl, rfl⟩
    exact (threshold_le_minutes_iff clock a.delegate).1 (not_lt.1 hminutes)

/-- `storeLocation` writes iff the fix passes the filters while somebody is signed in. -/
theorem storeLocation_write_iff (P : Platform K) (clock : ClockReadings) (arc4random : UInt32)
    (currentLocation : CLLocationCoordinate2D K) (a : App K) (w : LocationWrite K) :
    (storeLocation P clock arc4random currentLocation a).2 = some w ↔
      PassesFilters P clock currentLocation a ∧ a.currentUser = some w.uid ∧
        w.coordinate = (fuzzLocation P arc4random a.defaults currentLocation).2 ∧
        w.updatedAt = clock.updatedAt := by
  rcases storeLocation_cases P clock arc4random currentLocation a with
    ⟨hno, heq⟩ | ⟨hyes, write, rfl, heq⟩
  · simp [heq, hno]
  · rw [heq]
    simp only [Option.map_eq_some_iff, hyes, true_and]
    constructor
    · rintro ⟨uid, huid, rfl⟩
      exact ⟨huid, rfl, rfl⟩
    · rintro ⟨huid, hc, ht⟩
      exact ⟨w.uid, huid, by rw [← hc, ← ht]⟩

end ConfFriends
