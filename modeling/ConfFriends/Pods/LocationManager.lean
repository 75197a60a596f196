import Mathlib.Algebra.Order.Group.Unbundled.Abs
import Mathlib.Algebra.Order.Ring.Rat
import ConfFriends.LocationManager

/-!
# The location manager in full

`INTULocationManager` as it is vendored : besides subscriptions it serves single requests,
which have a timeout and complete once a location is accurate and recent enough, on
time-out, or on an error. It runs the hardware while a request needs it, at the accuracy of
the most demanding one. Heading requests are left out.

`now` is the reading of the clock in a handler. A timer fires while it runs, whatever the
clock says : the clock can be set, and the timer does not follow it.
-/

set_option linter.unusedSectionVars false

namespace ConfFriends.Pods

variable {K : Type*} [DecidableEq K] [Zero K]

/-! ## Accuracies -/

/-- The value of the enumeration. -/
def rawValue : INTULocationAccuracy → ℕ
  | .none => 0
  | .city => 1
  | .neighborhood => 2
  | .block => 3
  | .house => 4
  | .room => 5

theorem rawValue_injective : Function.Injective rawValue := by
  intro a b h
  cases a <;> cases b <;> first | rfl | simp [rawValue] at h

instance : LinearOrder INTULocationAccuracy :=
  LinearOrder.lift' rawValue rawValue_injective

theorem le_iff_rawValue {a b : INTULocationAccuracy} : a ≤ b ↔ rawValue a ≤ rawValue b :=
  Iff.rfl

/-- The thresholds of an accuracy, in metres. The source asserts that nobody asks for those
of `none`. -/
def horizontalAccuracyThreshold : INTULocationAccuracy → ℚ
  | .room => 5
  | .house => 15
  | .block => 100
  | .neighborhood => 1000
  | .city => 5000
  | .none => 0

/-- The thresholds of an accuracy, in seconds. -/
def updateTimeStaleThreshold : INTULocationAccuracy → NSTimeInterval
  | .room => 5
  | .house => 15
  | .block => 60
  | .neighborhood => 300
  | .city => 600
  | .none => 0

/-- The accuracies that Core Location is asked for. -/
inductive CLLocationAccuracy
  | threeKilometers
  | kilometer
  | hundredMeters
  | nearestTenMeters
  | best
  deriving DecidableEq

structure CLLocation (K : Type*) where
  coordinate : CLLocationCoordinate2D K
  horizontalAccuracy : ℚ
  timestamp : NSTimeInterval
  deriving DecidableEq

/-- `fabs` of `timeIntervalSinceNow`. -/
def CLLocation.age (now : NSTimeInterval) (location : CLLocation K) : NSTimeInterval :=
  |location.timestamp - now|

/-- The location is as accurate and as recent as the level asks for. -/
def CLLocation.reaches (now : NSTimeInterval) (location : CLLocation K)
    (accuracy : INTULocationAccuracy) : Bool :=
  decide (location.age now ≤ updateTimeStaleThreshold accuracy) &&
    decide (location.horizontalAccuracy ≤ horizontalAccuracyThreshold accuracy)

/-! ## Requests -/

inductive INTULocationRequestType
  | single
  | subscription
  | significantChanges
  deriving DecidableEq

structure INTULocationRequest where
  requestID : ℕ
  type : INTULocationRequestType
  desiredAccuracy : INTULocationAccuracy := .none
  timeout : NSTimeInterval := 0
  /-- The variable behind `hasTimedOut`. -/
  timedOut : Bool := false
  /-- `requestStartTime`, while `timeoutTimer` is set. -/
  timeoutTimer : Option NSTimeInterval := none
  deriving DecidableEq

namespace INTULocationRequest

def isRecurring (r : INTULocationRequest) : Bool :=
  r.type = .subscription || r.type = .significantChanges

def timeAlive (now : NSTimeInterval) (r : INTULocationRequest) : NSTimeInterval :=
  match r.timeoutTimer with
  | none => 0
  | some requestStartTime => |requestStartTime - now|

def hasTimedOut (now : NSTimeInterval) (r : INTULocationRequest) : Bool :=
  (decide (0 < r.timeout) && decide (r.timeout < r.timeAlive now)) || r.timedOut

def startTimeoutTimerIfNeeded (now : NSTimeInterval) (r : INTULocationRequest) :
    INTULocationRequest :=
  if 0 < r.timeout && r.timeoutTimer.isNone then { r with timeoutTimer := some now } else r

/-- `forceTimeout` of a request that is not recurring. -/
def forceTimeout (r : INTULocationRequest) : INTULocationRequest :=
  { r with timedOut := true }

def complete (r : INTULocationRequest) : INTULocationRequest :=
  { r with timeoutTimer := none }

end INTULocationRequest

/-- A call of a request's block, waiting on the main queue. -/
structure QueuedCall (K : Type*) where
  requestID : ℕ
  currentLocation : Option (CLLocation K)
  achievedAccuracy : INTULocationAccuracy
  status : INTULocationStatus
  deriving DecidableEq

/-! ## The manager -/

structure INTULocationManager (K : Type*) where
  /-- `_nextRequestID` of `INTURequestIDGenerator` : the last ID given. -/
  nextRequestID : ℕ := 0
  locationRequests : List INTULocationRequest := []
  services : CLLocationServices
  updateFailed : Bool := false
  /-- The instance variable behind `currentLocation`. -/
  lastLocation : Option (CLLocation K) := none
  isUpdatingLocation : Bool := false
  isMonitoringSignificantLocationChanges : Bool := false
  /-- `desiredAccuracy` of the `CLLocationManager`. -/
  desiredAccuracy : CLLocationAccuracy := .best
  mainQueue : List (QueuedCall K) := []

/-- The request needs updates of the location. -/
def INTULocationRequest.excludesSignificantChanges (r : INTULocationRequest) : Bool :=
  r.type ≠ .significantChanges

namespace INTULocationManager

/-! ## Status and current location -/

def locationServicesState (m : INTULocationManager K) : INTULocationServicesState :=
  if !m.services.locationServicesEnabled then .disabled
  else match m.services.authorizationStatus with
    | .notDetermined => .notDetermined
    | .denied => .denied
    | .restricted => .restricted
    | .authorizedAlways | .authorizedWhenInUse => .available

/-- The last location, unless it is invalid or the origin of coordinates. -/
def currentLocation (P : Platform K) (m : INTULocationManager K) : Option (CLLocation K) :=
  m.lastLocation.filter fun location =>
    P.coordinateIsValid location.coordinate &&
      !(decide (location.coordinate.latitude = 0) && decide (location.coordinate.longitude = 0))

def statusForLocationRequest (now : NSTimeInterval) (m : INTULocationManager K)
    (request : INTULocationRequest) : INTULocationStatus :=
  match m.locationServicesState with
  | .disabled => .servicesDisabled
  | .notDetermined => .servicesNotDetermined
  | .denied => .servicesDenied
  | .restricted => .servicesRestricted
  | .available =>
    if m.updateFailed then .error else if request.hasTimedOut now then .timedOut else .success

def achievedAccuracyForLocation (now : NSTimeInterval) :
    Option (CLLocation K) → INTULocationAccuracy
  | none => .none
  | some location =>
    if location.reaches now .room then .room
    else if location.reaches now .house then .house
    else if location.reaches now .block then .block
    else if location.reaches now .neighborhood then .neighborhood
    else if location.reaches now .city then .city
    else .none

/-- The call of the block that a request gets now. -/
def queuedCall (P : Platform K) (now : NSTimeInterval) (m : INTULocationManager K)
    (request : INTULocationRequest) : QueuedCall K where
  requestID := request.requestID
  currentLocation := m.currentLocation P
  achievedAccuracy := achievedAccuracyForLocation now (m.currentLocation P)
  status := m.statusForLocationRequest now request

/-! ## The hardware -/

def activeLocationRequestsWithSignificantChanges (m : INTULocationManager K) :
    List INTULocationRequest :=
  m.locationRequests.filter (!·.excludesSignificantChanges)

def activeLocationRequestsExcludingSignificantChanges (m : INTULocationManager K) :
    List INTULocationRequest :=
  m.locationRequests.filter (·.excludesSignificantChanges)

/-- The maximum that `addLocationRequest` and `removeLocationRequest` compute. -/
def maximumDesiredAccuracy (requests : List INTULocationRequest) : INTULocationAccuracy :=
  (requests.map (·.desiredAccuracy)).foldl max .none

/-- The accuracy that Core Location is asked for on behalf of a level. -/
def coreAccuracy : INTULocationAccuracy → Option CLLocationAccuracy
  | .none => none
  | .city => some .threeKilometers
  | .neighborhood => some .kilometer
  | .block => some .hundredMeters
  | .house => some .nearestTenMeters
  | .room => some .best

def updateWithMaximumDesiredAccuracy (accuracy : INTULocationAccuracy)
    (m : INTULocationManager K) : INTULocationManager K :=
  { m with desiredAccuracy := (coreAccuracy accuracy).getD m.desiredAccuracy }

def startUpdatingLocationIfNeeded (m : INTULocationManager K) : INTULocationManager K :=
  if m.activeLocationRequestsExcludingSignificantChanges.length = 0 then
    { m with isUpdatingLocation := true }
  else m

def stopUpdatingLocationIfPossible (m : INTULocationManager K) : INTULocationManager K :=
  if m.activeLocationRequestsExcludingSignificantChanges.length = 0 then
    { m with isUpdatingLocation := false }
  else m

def startMonitoringSignificantLocationChangesIfNeeded (m : INTULocationManager K) :
    INTULocationManager K :=
  if m.activeLocationRequestsWithSignificantChanges.length = 0 then
    { m with isMonitoringSignificantLocationChanges := true }
  else m

def stopMonitoringSignificantLocationChangesIfPossible (m : INTULocationManager K) :
    INTULocationManager K :=
  if m.activeLocationRequestsWithSignificantChanges.length = 0 then
    { m with isMonitoringSignificantLocationChanges := false }
  else m

/-! ## Adding, removing and completing requests -/

/-- Two requests are equal if their IDs are. -/
def removeLocationRequest (m : INTULocationManager K) (request : INTULocationRequest) :
    INTULocationManager K :=
  let m := { m with
    locationRequests := m.locationRequests.filter (·.requestID ≠ request.requestID) }
  match request.type with
  | .single | .subscription =>
    (m.updateWithMaximumDesiredAccuracy
      (maximumDesiredAccuracy m.activeLocationRequestsExcludingSignificantChanges)
      ).stopUpdatingLocationIfPossible
  | .significantChanges => m.stopMonitoringSignificantLocationChangesIfPossible

def completeLocationRequest (P : Platform K) (now : NSTimeInterval) (m : INTULocationManager K)
    (request : INTULocationRequest) : INTULocationManager K :=
  let m := m.removeLocationRequest request
  { m with mainQueue := m.mainQueue ++ [m.queuedCall P now request.complete] }

def processRecurringRequest (P : Platform K) (now : NSTimeInterval) (m : INTULocationManager K)
    (request : INTULocationRequest) : INTULocationManager K :=
  { m with mainQueue := m.mainQueue ++ [m.queuedCall P now request] }

/-- The body of the loop of `processLocationRequests`. To ask whether the request has timed
out stores the answer in it. -/
def processLocationRequest (P : Platform K) (now : NSTimeInterval) (m : INTULocationManager K)
    (request : INTULocationRequest) : INTULocationManager K :=
  if request.hasTimedOut now then m.completeLocationRequest P now { request with timedOut := true }
  else
    match m.currentLocation P with
    | none => m
    | some mostRecentLocation =>
      if request.isRecurring then m.processRecurringRequest P now request
      else if mostRecentLocation.reaches now request.desiredAccuracy then
        m.completeLocationRequest P now request
      else m

/-- The loop runs over the requests there are at its start. -/
def processLocationRequests (P : Platform K) (now : NSTimeInterval) (m : INTULocationManager K) :
    INTULocationManager K :=
  m.locationRequests.foldl (processLocationRequest P now) m

def completeAllLocationRequests (P : Platform K) (now : NSTimeInterval)
    (m : INTULocationManager K) : INTULocationManager K :=
  m.locationRequests.foldl (completeLocationRequest P now) m

/-- The part of `addLocationRequest` for a request that is taken up. -/
def takeUp (m : INTULocationManager K) (request : INTULocationRequest) : INTULocationManager K :=
  let started :=
    match request.type with
    | .single | .subscription =>
      (m.updateWithMaximumDesiredAccuracy (max request.desiredAccuracy
        (maximumDesiredAccuracy m.activeLocationRequestsExcludingSignificantChanges))
        ).startUpdatingLocationIfNeeded
    | .significantChanges => m.startMonitoringSignificantLocationChangesIfNeeded
  { started with locationRequests := m.locationRequests ++ [request] }

def addLocationRequest (P : Platform K) (now : NSTimeInterval) (m : INTULocationManager K)
    (request : INTULocationRequest) : INTULocationManager K :=
  match m.locationServicesState with
  | .disabled | .denied | .restricted => m.completeLocationRequest P now request
  | .available | .notDetermined => (m.takeUp request).processLocationRequests P now

/-! ## Public methods -/

/-- The ID the next request gets. -/
def getUniqueRequestID (m : INTULocationManager K) : ℕ :=
  m.nextRequestID + 1

/-- The manager after a new request with the next ID. -/
def issue (P : Platform K) (now : NSTimeInterval) (m : INTULocationManager K)
    (request : INTULocationRequest) : INTULocationManager K :=
  { m with nextRequestID := m.getUniqueRequestID }.addLocationRequest P now request

def requestLocation (P : Platform K) (now : NSTimeInterval)
    (desiredAccuracy : INTULocationAccuracy) (timeout : NSTimeInterval)
    (delayUntilAuthorized : Bool) (m : INTULocationManager K) : INTULocationManager K :=
  let request : INTULocationRequest :=
    { requestID := m.getUniqueRequestID
      type := .single
      desiredAccuracy := if desiredAccuracy = .none then .city else desiredAccuracy
      timeout := timeout }
  let deferTimeout :=
    delayUntilAuthorized && decide (m.services.authorizationStatus = .notDetermined)
  m.issue P now (if deferTimeout then request else request.startTimeoutTimerIfNeeded now)

def subscribeToLocationUpdates (P : Platform K) (now : NSTimeInterval)
    (desiredAccuracy : INTULocationAccuracy) (m : INTULocationManager K) :
    INTULocationManager K :=
  m.issue P now
    { requestID := m.getUniqueRequestID, type := .subscription, desiredAccuracy := desiredAccuracy }

def subscribeToSignificantLocationChanges (P : Platform K) (now : NSTimeInterval)
    (m : INTULocationManager K) : INTULocationManager K :=
  m.issue P now { requestID := m.getUniqueRequestID, type := .significantChanges }

/-- The first active request with the ID. -/
def requestWithID (m : INTULocationManager K) (requestID : ℕ) : Option INTULocationRequest :=
  m.locationRequests.find? (·.requestID = requestID)

def cancelLocationRequest (requestID : ℕ) (m : INTULocationManager K) : INTULocationManager K :=
  match m.requestWithID requestID with
  | some request => m.removeLocationRequest request
  | none => m

def forceCompleteLocationRequest (P : Platform K) (now : NSTimeInterval) (requestID : ℕ)
    (m : INTULocationManager K) : INTULocationManager K :=
  match m.requestWithID requestID with
  | some request =>
    if request.isRecurring then m.cancelLocationRequest requestID
    else m.completeLocationRequest P now request.forceTimeout
  | none => m

/-! ## Callbacks -/

/-- The timer of an active request fires. -/
def timeoutTimerFired (P : Platform K) (now : NSTimeInterval) (requestID : ℕ)
    (m : INTULocationManager K) : Option (INTULocationManager K) :=
  match m.requestWithID requestID with
  | some request =>
    if request.timeoutTimer.isSome then
      some (m.completeLocationRequest P now { request with timedOut := true })
    else none
  | none => none

def didUpdateLocations (P : Platform K) (now : NSTimeInterval) (location : CLLocation K)
    (m : INTULocationManager K) : INTULocationManager K :=
  { m with updateFailed := false, lastLocation := some location }.processLocationRequests P now

/-- The body of the loop of `didFailWithError`. -/
def failLocationRequest (P : Platform K) (now : NSTimeInterval) (m : INTULocationManager K)
    (request : INTULocationRequest) : INTULocationManager K :=
  if request.isRecurring then m.processRecurringRequest P now request
  else m.completeLocationRequest P now request

def didFailWithError (P : Platform K) (now : NSTimeInterval) (m : INTULocationManager K) :
    INTULocationManager K :=
  m.locationRequests.foldl (failLocationRequest P now) { m with updateFailed := true }

def didChangeAuthorizationStatus (P : Platform K) (now : NSTimeInterval)
    (services : CLLocationServices) (m : INTULocationManager K) : INTULocationManager K :=
  match services.authorizationStatus with
  | .denied | .restricted => { m with services := services }.completeAllLocationRequests P now
  | .authorizedAlways | .authorizedWhenInUse =>
    { m with
      services := services
      locationRequests := m.locationRequests.map (·.startTimeoutTimerIfNeeded now) }
  | .notDetermined => { m with services := services }

end INTULocationManager

/-! ## Steps -/

inductive LocationEvent (K : Type*)
  | requestLocation (desiredAccuracy : INTULocationAccuracy) (timeout : NSTimeInterval)
    (delayUntilAuthorized : Bool)
  | subscribeToLocationUpdates (desiredAccuracy : INTULocationAccuracy)
  | subscribeToSignificantLocationChanges
  | forceCompleteLocationRequest (requestID : ℕ)
  | cancelLocationRequest (requestID : ℕ)
  | timeoutTimerFired (requestID : ℕ)
  | didUpdateLocations (location : CLLocation K)
  | didFailWithError
  | didChangeAuthorizationStatus (services : CLLocationServices)
  /-- The main queue runs its next block. -/
  | runBlock

namespace INTULocationManager

/-- One event, at a time. -/
def step (P : Platform K) (m : INTULocationManager K) :
    NSTimeInterval × LocationEvent K → Option (INTULocationManager K)
  | (now, .requestLocation desiredAccuracy timeout delayUntilAuthorized) =>
    some (m.requestLocation P now desiredAccuracy timeout delayUntilAuthorized)
  | (now, .subscribeToLocationUpdates desiredAccuracy) =>
    some (m.subscribeToLocationUpdates P now desiredAccuracy)
  | (now, .subscribeToSignificantLocationChanges) =>
    some (m.subscribeToSignificantLocationChanges P now)
  | (now, .forceCompleteLocationRequest requestID) =>
    some (m.forceCompleteLocationRequest P now requestID)
  | (_, .cancelLocationRequest requestID) => some (m.cancelLocationRequest requestID)
  | (now, .timeoutTimerFired requestID) => m.timeoutTimerFired P now requestID
  | (now, .didUpdateLocations location) => some (m.didUpdateLocations P now location)
  | (now, .didFailWithError) => some (m.didFailWithError P now)
  | (now, .didChangeAuthorizationStatus services) =>
    some (m.didChangeAuthorizationStatus P now services)
  | (_, .runBlock) =>
    match m.mainQueue with
    | [] => none
    | _ :: rest => some { m with mainQueue := rest }

end INTULocationManager

end ConfFriends.Pods
