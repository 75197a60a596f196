import Mathlib.Data.List.Nodup
import ConfFriends.Defaults

/-!
# The location manager

`INTULocationManager` as far as `AppDelegate` uses it : subscriptions to continuous
updates and to significant changes, cancelled by ID. Requests get their IDs from a
counter, so an ID is positive and never used twice in a process (`Fresh`).

A block is never called at once : it is put on the main queue with the location and
the status of that moment, and runs later, also when its request has been cancelled
since. Denied, restricted or disabled services complete requests, which takes them
off the list.

`locationRequests_subscribe` and `mem_cancelLocationRequest` say what a
subscription and a cancellation do to the list of requests.
-/

set_option linter.unusedSectionVars false

namespace ConfFriends

variable {K : Type*} [DecidableEq K] [Zero K]

/-! ## The state -/

inductive CLAuthorizationStatus
  | notDetermined
  | restricted
  | denied
  | authorizedAlways
  | authorizedWhenInUse
  deriving DecidableEq

/-- What Core Location says about this app. -/
structure CLLocationServices where
  locationServicesEnabled : Bool
  authorizationStatus : CLAuthorizationStatus
  deriving DecidableEq

inductive INTULocationServicesState
  | available
  | notDetermined
  | denied
  | restricted
  | disabled
  deriving DecidableEq

inductive INTULocationStatus
  | success
  | timedOut
  | servicesNotDetermined
  | servicesDenied
  | servicesRestricted
  | servicesDisabled
  | error
  deriving DecidableEq

/-- The recurring request types. The app makes no single request. -/
inductive INTULocationRequestType
  | subscription
  | significantChanges
  deriving DecidableEq

structure INTULocationRequest where
  requestID : ℕ
  type : INTULocationRequestType
  desiredAccuracy : INTULocationAccuracy
  deriving DecidableEq

/-- A call of a request's block, waiting on the main queue. Every block of the app is
`if status == success then storeLocation:currentLocation`. -/
structure QueuedBlock (K : Type*) where
  currentLocation : Option (CLLocationCoordinate2D K)
  status : INTULocationStatus
  deriving DecidableEq

structure INTULocationManager (K : Type*) where
  /-- `_nextRequestID` of `INTURequestIDGenerator` : the last ID given. -/
  nextRequestID : ℕ := 0
  locationRequests : List INTULocationRequest := []
  services : CLLocationServices
  updateFailed : Bool := false
  /-- The instance variable behind `currentLocation`. -/
  lastLocation : Option (CLLocationCoordinate2D K) := none
  mainQueue : List (QueuedBlock K) := []

namespace INTULocationManager

/-! ## Status and current location -/

def locationServicesState (m : INTULocationManager K) : INTULocationServicesState :=
  if !m.services.locationServicesEnabled then .disabled
  else match m.services.authorizationStatus with
    | .notDetermined => .notDetermined
    | .denied => .denied
    | .restricted => .restricted
    | .authorizedAlways | .authorizedWhenInUse => .available

def statusForLocationRequest (m : INTULocationManager K) : INTULocationStatus :=
  match m.locationServicesState with
  | .disabled => .servicesDisabled
  | .notDetermined => .servicesNotDetermined
  | .denied => .servicesDenied
  | .restricted => .servicesRestricted
  | .available => if m.updateFailed then .error else .success

/-- The last location, unless it is invalid or the origin of coordinates. -/
def currentLocation (P : Platform K) (m : INTULocationManager K) :
    Option (CLLocationCoordinate2D K) :=
  m.lastLocation.filter fun c =>
    P.coordinateIsValid c && !(decide (c.latitude = 0) && decide (c.longitude = 0))

/-! ## Requests -/

/-- The block that `processRecurringRequest` and `completeLocationRequest` put on the
main queue. -/
def queuedBlock (P : Platform K) (m : INTULocationManager K) : QueuedBlock K :=
  ⟨m.currentLocation P, m.statusForLocationRequest⟩

/-- `processRecurringRequest` for every request of the list. -/
def processRecurringRequests (P : Platform K) (m : INTULocationManager K) :
    INTULocationManager K :=
  { m with mainQueue := m.mainQueue ++ m.locationRequests.map fun _ => m.queuedBlock P }

/-- All requests are recurring, so they are served while there is a location. -/
def processLocationRequests (P : Platform K) (m : INTULocationManager K) :
    INTULocationManager K :=
  if (m.currentLocation P).isSome then m.processRecurringRequests P else m

def completeLocationRequest (P : Platform K) (m : INTULocationManager K)
    (request : INTULocationRequest) : INTULocationManager K :=
  { m with
    locationRequests := m.locationRequests.filter (·.requestID ≠ request.requestID)
    mainQueue := m.mainQueue ++ [m.queuedBlock P] }

def completeAllLocationRequests (P : Platform K) (m : INTULocationManager K) :
    INTULocationManager K :=
  m.locationRequests.foldl (completeLocationRequest P) m

def addLocationRequest (P : Platform K) (m : INTULocationManager K)
    (request : INTULocationRequest) : INTULocationManager K :=
  match m.locationServicesState with
  | .disabled | .denied | .restricted => m.completeLocationRequest P request
  | .available | .notDetermined =>
    { m with locationRequests := m.locationRequests ++ [request] }.processLocationRequests P

/-- The ID the next request gets. -/
def getUniqueRequestID (m : INTULocationManager K) : ℕ :=
  m.nextRequestID + 1

/-- A new request of either type, and its ID. -/
def subscribe (P : Platform K) (m : INTULocationManager K) (type : INTULocationRequestType)
    (desiredAccuracy : INTULocationAccuracy) : INTULocationManager K × ℕ :=
  let request : INTULocationRequest := ⟨m.getUniqueRequestID, type, desiredAccuracy⟩
  ({ m with nextRequestID := m.getUniqueRequestID }.addLocationRequest P request,
    request.requestID)

def subscribeToLocationUpdates (P : Platform K) (m : INTULocationManager K)
    (desiredAccuracy : INTULocationAccuracy) : INTULocationManager K × ℕ :=
  m.subscribe P .subscription desiredAccuracy

def subscribeToSignificantLocationChanges (P : Platform K) (m : INTULocationManager K) :
    INTULocationManager K × ℕ :=
  m.subscribe P .significantChanges .none

/-- Removes the first request with the ID, if there is one. -/
def cancelLocationRequest (m : INTULocationManager K) (requestID : ℕ) : INTULocationManager K :=
  match m.locationRequests.find? (·.requestID = requestID) with
  | some request =>
    { m with
      locationRequests := m.locationRequests.filter (·.requestID ≠ request.requestID) }
  | none => m

/-! ## Callbacks of Core Location -/

def didUpdateLocations (P : Platform K) (m : INTULocationManager K)
    (location : CLLocationCoordinate2D K) : INTULocationManager K :=
  { m with updateFailed := false, lastLocation := some location }.processLocationRequests P

def didFailWithError (P : Platform K) (m : INTULocationManager K) : INTULocationManager K :=
  { m with updateFailed := true }.processRecurringRequests P

def didChangeAuthorizationStatus (P : Platform K) (m : INTULocationManager K)
    (services : CLLocationServices) : INTULocationManager K :=
  match services.authorizationStatus with
  | .denied | .restricted => { m with services := services }.completeAllLocationRequests P
  | .notDetermined | .authorizedAlways | .authorizedWhenInUse => { m with services := services }

/-! ## What the operations do to the list of requests -/

@[simp] theorem locationRequests_processRecurringRequests (P : Platform K)
    (m : INTULocationManager K) :
    (m.processRecurringRequests P).locationRequests = m.locationRequests :=
  rfl

@[simp] theorem nextRequestID_processRecurringRequests (P : Platform K)
    (m : INTULocationManager K) :
    (m.processRecurringRequests P).nextRequestID = m.nextRequestID :=
  rfl

@[simp] theorem locationRequests_processLocationRequests (P : Platform K)
    (m : INTULocationManager K) :
    (m.processLocationRequests P).locationRequests = m.locationRequests := by
  unfold processLocationRequests
  split <;> rfl

@[simp] theorem nextRequestID_processLocationRequests (P : Platform K)
    (m : INTULocationManager K) :
    (m.processLocationRequests P).nextRequestID = m.nextRequestID := by
  unfold processLocationRequests
  split <;> rfl

@[simp] theorem locationRequests_didUpdateLocations (P : Platform K) (m : INTULocationManager K)
    (location : CLLocationCoordinate2D K) :
    (m.didUpdateLocations P location).locationRequests = m.locationRequests := by
  simp [didUpdateLocations]

@[simp] theorem nextRequestID_didUpdateLocations (P : Platform K) (m : INTULocationManager K)
    (location : CLLocationCoordinate2D K) :
    (m.didUpdateLocations P location).nextRequestID = m.nextRequestID := by
  simp [didUpdateLocations]

@[simp] theorem locationRequests_didFailWithError (P : Platform K) (m : INTULocationManager K) :
    (m.didFailWithError P).locationRequests = m.locationRequests :=
  rfl

@[simp] theorem nextRequestID_didFailWithError (P : Platform K) (m : INTULocationManager K) :
    (m.didFailWithError P).nextRequestID = m.nextRequestID :=
  rfl

/-- Completing requests only takes requests off the list. -/
theorem foldl_completeLocationRequest (P : Platform K) :
    ∀ (rs : List INTULocationRequest) (m : INTULocationManager K),
      List.Sublist (rs.foldl (completeLocationRequest P) m).locationRequests m.locationRequests ∧
        (rs.foldl (completeLocationRequest P) m).nextRequestID = m.nextRequestID
  | [], m => ⟨List.Sublist.refl _, rfl⟩
  | r :: rs, m => by
    obtain ⟨hsub, hnext⟩ := foldl_completeLocationRequest P rs (m.completeLocationRequest P r)
    exact ⟨hsub.trans List.filter_sublist, hnext⟩

/-- A change of authorization keeps the requests or drops some of them. -/
theorem locationRequests_didChangeAuthorizationStatus (P : Platform K)
    (m : INTULocationManager K) (services : CLLocationServices) :
    List.Sublist (m.didChangeAuthorizationStatus P services).locationRequests
        m.locationRequests ∧
      (m.didChangeAuthorizationStatus P services).nextRequestID = m.nextRequestID := by
  unfold didChangeAuthorizationStatus completeAllLocationRequests
  split
  · exact foldl_completeLocationRequest P m.locationRequests { m with services := services }
  · exact foldl_completeLocationRequest P m.locationRequests { m with services := services }
  all_goals exact ⟨List.Sublist.refl _, rfl⟩

/-! ## Request IDs -/

/-- The IDs of the active requests are distinct and were given by the counter. -/
structure Fresh (m : INTULocationManager K) : Prop where
  nodup : (m.locationRequests.map (·.requestID)).Nodup
  le : ∀ r ∈ m.locationRequests, r.requestID ≤ m.nextRequestID

theorem Fresh.of_sublist {m m' : INTULocationManager K} (h : m.Fresh)
    (hsub : List.Sublist m'.locationRequests m.locationRequests)
    (hnext : m.nextRequestID ≤ m'.nextRequestID) : m'.Fresh :=
  ⟨h.nodup.sublist (hsub.map _), fun r hr => (h.le r (hsub.subset hr)).trans hnext⟩

/-- A subscription adds one request with a new ID, or none if services are denied. -/
theorem locationRequests_subscribe (P : Platform K) (m : INTULocationManager K) (hm : m.Fresh)
    (type : INTULocationRequestType) (desiredAccuracy : INTULocationAccuracy) :
    (m.subscribe P type desiredAccuracy).2 = m.nextRequestID + 1 ∧
      (m.subscribe P type desiredAccuracy).1.nextRequestID = m.nextRequestID + 1 ∧
      ((m.subscribe P type desiredAccuracy).1.locationRequests = m.locationRequests ∨
        (m.subscribe P type desiredAccuracy).1.locationRequests =
          m.locationRequests ++ [⟨m.nextRequestID + 1, type, desiredAccuracy⟩]) := by
  have hfilter : m.locationRequests.filter (·.requestID ≠ m.nextRequestID + 1) =
      m.locationRequests := by
    refine List.filter_eq_self.2 fun r hr => ?_
    have := hm.le r hr
    simp only [ne_eq, decide_not, Bool.not_eq_eq_eq_not, Bool.not_true, decide_eq_false_iff_not]
    omega
  refine ⟨rfl, ?_, ?_⟩
  · unfold subscribe addLocationRequest
    split <;> simp [completeLocationRequest, getUniqueRequestID]
  · unfold subscribe addLocationRequest
    split
    · exact Or.inl hfilter
    · exact Or.inl hfilter
    · exact Or.inl hfilter
    all_goals exact Or.inr (by simp [getUniqueRequestID])

theorem Fresh.subscribe {m : INTULocationManager K} (hm : m.Fresh) (P : Platform K)
    (type : INTULocationRequestType) (desiredAccuracy : INTULocationAccuracy) :
    (m.subscribe P type desiredAccuracy).1.Fresh := by
  obtain ⟨-, hnext, hrs | hrs⟩ := locationRequests_subscribe P m hm type desiredAccuracy
  · exact hm.of_sublist (hrs ▸ List.Sublist.refl _) (by omega)
  · have hlt : ∀ r ∈ m.locationRequests, r.requestID ≠ m.nextRequestID + 1 := by
      intro r hr
      have := hm.le r hr
      omega
    constructor
    · rw [hrs, List.map_append, List.nodup_append]
      refine ⟨hm.nodup, by simp, ?_⟩
      simp only [List.mem_map, List.map_cons, List.map_nil, List.mem_singleton, ne_eq]
      rintro _ ⟨r, hr, rfl⟩ _ rfl
      exact hlt r hr
    · intro r hr
      rw [hrs, List.mem_append, List.mem_singleton] at hr
      rcases hr with hr | rfl
      · have := hm.le r hr
        omega
      · exact hnext.ge

/-- Cancelling keeps exactly the requests with another ID. -/
@[simp] theorem mem_cancelLocationRequest (m : INTULocationManager K) (requestID : ℕ)
    (r : INTULocationRequest) : r ∈ (m.cancelLocationRequest requestID).locationRequests ↔
      r ∈ m.locationRequests ∧ r.requestID ≠ requestID := by
  unfold cancelLocationRequest
  split
  · next r' hr' =>
    have hid : r'.requestID = requestID := by simpa using List.find?_some hr'
    simp [hid]
  · next hnone =>
    have hall : ∀ r ∈ m.locationRequests, r.requestID ≠ requestID := by
      simpa using List.find?_eq_none.1 hnone
    exact ⟨fun hr => ⟨hr, hall r hr⟩, fun h => h.1⟩

theorem cancelLocationRequest_sublist (m : INTULocationManager K) (requestID : ℕ) :
    List.Sublist (m.cancelLocationRequest requestID).locationRequests m.locationRequests ∧
      (m.cancelLocationRequest requestID).nextRequestID = m.nextRequestID := by
  unfold cancelLocationRequest
  split
  · exact ⟨List.filter_sublist, rfl⟩
  · exact ⟨List.Sublist.refl _, rfl⟩

theorem Fresh.cancelLocationRequest {m : INTULocationManager K} (hm : m.Fresh) (requestID : ℕ) :
    (m.cancelLocationRequest requestID).Fresh :=
  hm.of_sublist (m.cancelLocationRequest_sublist requestID).1
    (m.cancelLocationRequest_sublist requestID).2.ge

end INTULocationManager

end ConfFriends
