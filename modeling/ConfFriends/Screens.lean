import ConfFriends.Auth

/-!
# The map switch, the settings, the privacy zone and fuzzing

The handlers of the switch 'Disable & Hide Location' of the map, of the account and
accuracy rows of the settings, and of the privacy zone and fuzzing screens.

`saveZone` stores the rectangle and starts a read of the user's record. The read is
served with a record and answered later : only then does the block compare the record
with the zone stored at that time.
-/

set_option linter.unusedSectionVars false

namespace ConfFriends

variable {K : Type*} [LinearOrder K] [Zero K] [IntCast K]

namespace App

/-! ## The switch and the settings -/

def locationSwitchChanged (P : Platform K) (isOn : Bool) (a : App K) : Device K :=
  let defaults := { a.defaults with ddfLocationDisabled := some isOn }
  if !isOn then
    .running { a with
      defaults := defaults
      delegate := a.delegate.fetchLocationChanges P defaults }
  else
    { a with defaults := defaults, delegate := a.delegate.stopLocationUpdates }.removeCoordinate

/-- One of the actions of 'Location Accuracy'. -/
def selectAccuracy (P : Platform K) (accuracy : INTULocationAccuracy) (a : App K) : App K :=
  let defaults := { a.defaults with ddfAccuracy := some accuracy }
  { a with
    defaults := defaults
    delegate := a.delegate.resetLocationUpdates P defaults }

/-- The action 'Delete' of the confirmation. -/
def deleteUser (a : App K) : Device K :=
  let a := { a with delegate := a.delegate.stopLocationUpdates }
  a.withUserRef fun uid =>
    { a with users := a.users.removeValue uid, deletions := uid :: a.deletions }

/-- The completion of `deleteWithCompletion` for the account `uid`. A deletion that
succeeds signs the account out. -/
def deleteCompleted (uid : String) (error : Option String) (a : App K) : App K :=
  let a := { a with deletions := a.deletions.erase uid }
  match error with
  | some localizedDescription => a.presentWhoops localizedDescription
  | none =>
    { a with
      deletedAccounts := uid :: a.deletedAccounts
      currentUser := if a.currentUser = some uid then none else a.currentUser }

/-! ## The privacy zone -/

def saveZone (visibleMapRect : MKMapRect K) (a : App K) : Device K :=
  let a := { a with
    defaults := { a.defaults with ddfPrivacyZone := some (setMapRect visibleMapRect) } }
  a.withUserRef fun uid => { a with zoneReads := a.zoneReads ++ [{ uid := uid }] }

def deleteZone (a : App K) : App K :=
  { a with defaults := { a.defaults with ddfPrivacyZone := none } }

/-- The database serves the `i`-th read with the record of this moment. -/
def serveZoneRead (i : ℕ) (a : App K) : App K :=
  { a with
    zoneReads := a.zoneReads.modify i fun read =>
      { read with snapshot := some (read.snapshot.getD (a.users read.uid)) } }

/-- The block of `saveZone` for the snapshot of a read. -/
def zoneReadBlock (P : Platform K) (key : String) (snapshot : UserRecord K) (a : App K) :
    Device K :=
  if snapshot.snapshotExists then
    let user := DDFUser.initWithModelDictionary P.urlWithString key snapshot
    let currentMapPoint := P.mapPointForCoordinate user.coordinate
    if P.mapRectContainsPoint (mapRectForKey P a.defaults.ddfPrivacyZone) currentMapPoint then
      a.removeCoordinate
    else .running a
  else .running a

/-- The block clears the record of the current user iff the snapshot lies in the zone. -/
theorem zoneReadBlock_cases (P : Platform K) (key : String) (snapshot : UserRecord K) (a : App K) :
    (snapshot.snapshotExists = true ∧
      P.mapRectContainsPoint (mapRectForKey P a.defaults.ddfPrivacyZone)
        (P.mapPointForCoordinate
          (DDFUser.initWithModelDictionary P.urlWithString key snapshot).coordinate) = true ∧
      a.zoneReadBlock P key snapshot = a.removeCoordinate) ∨
    (¬(snapshot.snapshotExists = true ∧
        P.mapRectContainsPoint (mapRectForKey P a.defaults.ddfPrivacyZone)
          (P.mapPointForCoordinate
            (DDFUser.initWithModelDictionary P.urlWithString key snapshot).coordinate) = true) ∧
      a.zoneReadBlock P key snapshot = .running a) := by
  unfold zoneReadBlock
  dsimp only
  split_ifs with hexists hinside
  · exact Or.inl ⟨hexists, hinside, rfl⟩
  · exact Or.inr ⟨fun h => hinside h.2, rfl⟩
  · exact Or.inr ⟨fun h => hexists h.1, rfl⟩

/-- The `i`-th read has been served and its block runs. -/
def answerZoneRead (P : Platform K) (i : ℕ) (a : App K) : Option (Device K) :=
  match a.zoneReads[i]? with
  | some ⟨uid, some snapshot⟩ =>
    some ({ a with zoneReads := a.zoneReads.eraseIdx i }.zoneReadBlock P uid snapshot)
  | _ => none

/-- An answered read is over, and at most the record of the current user is cleared. -/
theorem answerZoneRead_cases {P : Platform K} {i : ℕ} {a : App K} {d : Device K}
    (h : a.answerZoneRead P i = some d) :
    d = removeCoordinate { a with zoneReads := a.zoneReads.eraseIdx i } ∨
      d = .running { a with zoneReads := a.zoneReads.eraseIdx i } := by
  unfold answerZoneRead at h
  split at h
  · next uid snapshot hread =>
    obtain rfl := Option.some.inj h
    rcases zoneReadBlock_cases P uid snapshot { a with zoneReads := a.zoneReads.eraseIdx i } with
      ⟨-, -, heq⟩ | ⟨-, heq⟩
    · exact Or.inl heq
    · exact Or.inr heq
  · simp at h

/-! ## Fuzzing -/

def fuzzSwitchChanged (isOn : Bool) (a : App K) : App K :=
  { a with
    defaults := { a.defaults with
      ddfLocationFuzzingEnabled := some isOn
      ddfLocationFuzzingRadius := some (a.defaults.ddfLocationFuzzingRadius.getD 2000)
      ddfLocationFuzzingDistance := some (a.defaults.ddfLocationFuzzingDistance.getD 2000) } }

/-- The value of the slider, as an integer. -/
def radiusSliderChanged (value : ℤ) (a : App K) : App K :=
  { a with defaults := { a.defaults with ddfLocationFuzzingRadius := some value } }

/-- The fluff distance of a segment. No segment is `-1`. -/
def segmentDistance (selectedSegmentIndex : ℤ) : ℤ :=
  if selectedSegmentIndex = 0 then 100
  else if selectedSegmentIndex = 1 then 250
  else if selectedSegmentIndex = 2 then 500
  else if selectedSegmentIndex = 3 then 1000
  else if selectedSegmentIndex = 4 then 2000
  else 2000

def distanceSegmentChanged (selectedSegmentIndex : ℤ) (a : App K) : App K :=
  { a with
    defaults := { a.defaults with
      ddfLocationFuzzingDistance := some (segmentDistance selectedSegmentIndex) } }

end App

end ConfFriends
