import ConfFriends.LocationManager

/-!
# The app delegate

`AppDelegate` holds the IDs of its two location subscriptions, the stamp of the last
stored location, and here also the shared location manager that the IDs refer to.
`fetchLocationChanges` and `fetchSignificantLocationChanges` subscribe and keep the
new ID. `stopLocationUpdates` cancels the two IDs it knows.
-/

set_option linter.unusedSectionVars false

namespace ConfFriends

variable {K : Type*} [LinearOrder K] [Zero K] [IntCast K]

/-! ## The delegate and its subscriptions -/

/-- The invalid request ID. -/
def NSNotFound : ℕ := 0x7fffffffffffffff

structure AppDelegate (K : Type*) where
  locationRequestID : ℕ := 0
  significantRequestID : ℕ := 0
  /-- Whole seconds. -/
  lastLocationUpdateTime : ℤ := 0
  locMgr : INTULocationManager K

namespace AppDelegate

def fetchSignificantLocationChanges (P : Platform K) (d : NSUserDefaults K) (a : AppDelegate K) :
    AppDelegate K :=
  if d.locationDisabled then a
  else
    let (locMgr, requestID) := a.locMgr.subscribeToSignificantLocationChanges P
    { a with significantRequestID := requestID, locMgr := locMgr }

def fetchLocationChanges (P : Platform K) (d : NSUserDefaults K) (a : AppDelegate K) :
    AppDelegate K :=
  if d.locationDisabled then a
  else
    let accuracy := d.ddfAccuracy.getD .block
    let (locMgr, requestID) := a.locMgr.subscribeToLocationUpdates P accuracy
    { a with locationRequestID := requestID, locMgr := locMgr }

def stopLocationUpdates (a : AppDelegate K) : AppDelegate K :=
  { a with
    locMgr := (a.locMgr.cancelLocationRequest a.locationRequestID).cancelLocationRequest
      a.significantRequestID
    locationRequestID := NSNotFound
    significantRequestID := NSNotFound }

def resetLocationUpdates (P : Platform K) (d : NSUserDefaults K) (a : AppDelegate K) :
    AppDelegate K :=
  a.stopLocationUpdates.fetchLocationChanges P d

def applicationWillResignActive (P : Platform K) (d : NSUserDefaults K) (a : AppDelegate K) :
    AppDelegate K :=
  a.stopLocationUpdates.fetchSignificantLocationChanges P d

def applicationDidBecomeActive (P : Platform K) (d : NSUserDefaults K) (a : AppDelegate K) :
    AppDelegate K :=
  a.stopLocationUpdates.fetchLocationChanges P d

/-- The delegate of a new process. `locationKey` is whether the launch options hold
`UIApplicationLaunchOptionsLocationKey`. -/
def didFinishLaunchingWithOptions (P : Platform K) (d : NSUserDefaults K)
    (currentUser : Option String) (services : CLLocationServices) (locationKey : Bool) :
    AppDelegate K :=
  let a : AppDelegate K := { locMgr := { services := services } }
  if currentUser.isNone then a
  else if locationKey then a.fetchSignificantLocationChanges P d
  else a.fetchLocationChanges P d

/-- A disabled device makes no subscription. -/
@[simp] theorem fetchLocationChanges_of_disabled (P : Platform K) {d : NSUserDefaults K}
    (h : d.locationDisabled = true) (a : AppDelegate K) : a.fetchLocationChanges P d = a :=
  if_pos h

@[simp] theorem fetchSignificantLocationChanges_of_disabled (P : Platform K)
    {d : NSUserDefaults K} (h : d.locationDisabled = true) (a : AppDelegate K) :
    a.fetchSignificantLocationChanges P d = a :=
  if_pos h

/-! Subscriptions leave the throttle alone. -/

@[simp] theorem lastLocationUpdateTime_fetchLocationChanges (P : Platform K)
    (d : NSUserDefaults K) (a : AppDelegate K) :
    (a.fetchLocationChanges P d).lastLocationUpdateTime = a.lastLocationUpdateTime := by
  unfold fetchLocationChanges
  split <;> rfl

@[simp] theorem lastLocationUpdateTime_fetchSignificantLocationChanges (P : Platform K)
    (d : NSUserDefaults K) (a : AppDelegate K) :
    (a.fetchSignificantLocationChanges P d).lastLocationUpdateTime =
      a.lastLocationUpdateTime := by
  unfold fetchSignificantLocationChanges
  split <;> rfl

end AppDelegate

end ConfFriends
