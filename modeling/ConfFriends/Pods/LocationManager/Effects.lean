import Mathlib.Logic.Relation
import ConfFriends.Pods.LocationManager

/-!
# What an event does to the requests

To serve a request is to call its block, and to complete it or not (`Serve`). The loops of
the manager serve the requests there are at their start one after the other, although each
completion replaces the list : `serves_foldl` says that this is safe, since a completion
takes nobody else off. `EventStep` lists what an event does besides serving, and
`eventStep_of_step` is the inversion of `step`.
-/

set_option linter.unusedSectionVars false

open Relation

namespace ConfFriends.Pods

variable {K : Type*} [DecidableEq K] [Zero K] {P : Platform K} {now : NSTimeInterval}

namespace INTULocationManager

/-! ## Removing a request -/

/-- What Core Location has reported is the same. -/
structure SameReports (m m' : INTULocationManager K) : Prop where
  services : m'.services = m.services
  updateFailed : m'.updateFailed = m.updateFailed
  lastLocation : m'.lastLocation = m.lastLocation

theorem SameReports.refl (m : INTULocationManager K) : SameReports m m :=
  ⟨rfl, rfl, rfl⟩

theorem SameReports.trans {m m' m'' : INTULocationManager K} (h : SameReports m m')
    (h' : SameReports m' m'') : SameReports m m'' :=
  ⟨h'.services.trans h.services, h'.updateFailed.trans h.updateFailed,
    h'.lastLocation.trans h.lastLocation⟩

theorem SameReports.currentLocation {m m' : INTULocationManager K} (h : SameReports m m') :
    m'.currentLocation P = m.currentLocation P := by
  unfold INTULocationManager.currentLocation
  rw [h.lastLocation]

theorem SameReports.statusForLocationRequest {m m' : INTULocationManager K}
    (h : SameReports m m') (request : INTULocationRequest) :
    m'.statusForLocationRequest now request = m.statusForLocationRequest now request := by
  unfold INTULocationManager.statusForLocationRequest locationServicesState
  rw [h.services, h.updateFailed]

@[simp] theorem locationRequests_stopUpdatingLocationIfPossible (m : INTULocationManager K) :
    m.stopUpdatingLocationIfPossible.locationRequests = m.locationRequests := by
  unfold stopUpdatingLocationIfPossible
  split <;> rfl

@[simp] theorem locationRequests_stopMonitoring (m : INTULocationManager K) :
    m.stopMonitoringSignificantLocationChangesIfPossible.locationRequests =
      m.locationRequests := by
  unfold stopMonitoringSignificantLocationChangesIfPossible
  split <;> rfl

/-- Removing keeps exactly the requests with another ID. -/
@[simp] theorem locationRequests_removeLocationRequest (m : INTULocationManager K)
    (request : INTULocationRequest) : (m.removeLocationRequest request).locationRequests =
      m.locationRequests.filter (·.requestID ≠ request.requestID) := by
  unfold removeLocationRequest
  cases request.type with
  | single | subscription => exact locationRequests_stopUpdatingLocationIfPossible _
  | significantChanges => exact locationRequests_stopMonitoring _

/-- Removing is about the requests and the hardware. -/
theorem removeLocationRequest_keeps (m : INTULocationManager K) (request : INTULocationRequest) :
    (m.removeLocationRequest request).nextRequestID = m.nextRequestID ∧
      (m.removeLocationRequest request).mainQueue = m.mainQueue ∧
      SameReports m (m.removeLocationRequest request) := by
  unfold removeLocationRequest stopUpdatingLocationIfPossible
    stopMonitoringSignificantLocationChangesIfPossible updateWithMaximumDesiredAccuracy
  cases request.type with
  | single | subscription | significantChanges =>
    dsimp only
    split <;> exact ⟨rfl, rfl, rfl, rfl, rfl⟩

/-- A removal that takes off the request and no other. -/
theorem mem_removeLocationRequest {m : INTULocationManager K} {request r : INTULocationRequest} :
    r ∈ (m.removeLocationRequest request).locationRequests ↔
      r ∈ m.locationRequests ∧ r.requestID ≠ request.requestID := by
  simp

/-- The call that a completed request gets. -/
theorem mainQueue_completeLocationRequest (m : INTULocationManager K)
    (request : INTULocationRequest) :
    (m.completeLocationRequest P now request).mainQueue =
      m.mainQueue ++ [m.queuedCall P now request.complete] := by
  obtain ⟨-, hqueue, hreports⟩ := removeLocationRequest_keeps m request
  unfold completeLocationRequest queuedCall
  dsimp only
  rw [hqueue, hreports.currentLocation, hreports.statusForLocationRequest]

theorem locationRequests_completeLocationRequest (m : INTULocationManager K)
    (request : INTULocationRequest) :
    (m.completeLocationRequest P now request).locationRequests =
      m.locationRequests.filter (·.requestID ≠ request.requestID) :=
  locationRequests_removeLocationRequest m request

theorem nextRequestID_completeLocationRequest (m : INTULocationManager K)
    (request : INTULocationRequest) :
    (m.completeLocationRequest P now request).nextRequestID = m.nextRequestID :=
  (removeLocationRequest_keeps m request).1

/-! ## Serving a request -/

/-- The location is what the request asks for. -/
def Satisfies (P : Platform K) (now : NSTimeInterval) (m : INTULocationManager K)
    (request : INTULocationRequest) : Prop :=
  ∃ location, m.currentLocation P = some location ∧
    location.reaches now request.desiredAccuracy = true

/-- What a loop does for an active request. -/
inductive Serve (P : Platform K) (now : NSTimeInterval) (request : INTULocationRequest)
    (m : INTULocationManager K) : INTULocationManager K → Prop
  | skip : Serve P now request m m
  /-- The block of a recurring request is called. -/
  | process (hactive : request ∈ m.locationRequests) (hrecurring : request.isRecurring = true) :
    Serve P now request m (m.processRecurringRequest P now request)
  /-- The request is completed, a single one successfully only if it is satisfied. -/
  | complete (timedOut : Bool) (hactive : request ∈ m.locationRequests)
    (hwhy : m.statusForLocationRequest now { request with timedOut := timedOut }.complete =
      .success → request.type = .single → Satisfies P now m request) :
    Serve P now request m (m.completeLocationRequest P now { request with timedOut := timedOut })

theorem Serve.sameReports {request : INTULocationRequest} {m m' : INTULocationManager K}
    (h : Serve P now request m m') : SameReports m m' := by
  cases h with
  | skip => exact .refl m
  | process => exact ⟨rfl, rfl, rfl⟩
  | complete timedOut =>
    have hreports := (removeLocationRequest_keeps m { request with timedOut := timedOut }).2.2
    exact ⟨hreports.services, hreports.updateFailed, hreports.lastLocation⟩

/-- Requests with another ID stay active. -/
theorem Serve.mem {request r : INTULocationRequest} {m m' : INTULocationManager K}
    (h : Serve P now request m m') (hr : r ∈ m.locationRequests)
    (hne : r.requestID ≠ request.requestID) : r ∈ m'.locationRequests := by
  cases h with
  | skip | process => exact hr
  | complete timedOut => exact mem_removeLocationRequest.2 ⟨hr, hne⟩

/-- A sequence of services. -/
def Serves (P : Platform K) (now : NSTimeInterval) :
    INTULocationManager K → INTULocationManager K → Prop :=
  ReflTransGen fun m m' => ∃ request, Serve P now request m m'

theorem Serves.sameReports {m m' : INTULocationManager K} (h : Serves P now m m') :
    SameReports m m' := by
  induction h with
  | refl => exact .refl m
  | tail _ hserve ih =>
    obtain ⟨request, hserve⟩ := hserve
    exact ih.trans hserve.sameReports

/-- A loop over active requests with different IDs serves one after the other. -/
theorem serves_foldl {f : INTULocationManager K → INTULocationRequest → INTULocationManager K} :
    ∀ (requests : List INTULocationRequest) (m : INTULocationManager K),
      (requests.map (·.requestID)).Nodup → (∀ r ∈ requests, r ∈ m.locationRequests) →
      (∀ r ∈ requests, ∀ m', SameReports m m' → r ∈ m'.locationRequests →
        Serve P now r m' (f m' r)) →
      Serves P now m (requests.foldl f m)
  | [], m, _, _, _ => .refl
  | r :: requests, m, hnodup, hactive, hf => by
    obtain ⟨hnew, hnodup⟩ := List.nodup_cons.1 hnodup
    have hserve : Serve P now r m (f m r) :=
      hf r List.mem_cons_self m (.refl m) (hactive r List.mem_cons_self)
    refine .head ⟨r, hserve⟩ (serves_foldl requests (f m r) hnodup ?_ ?_)
    · intro r' hr'
      refine hserve.mem (hactive r' (List.mem_cons_of_mem r hr')) fun heq => hnew ?_
      exact List.mem_map.2 ⟨r', hr', heq⟩
    · intro r' hr' m' hm'
      exact hf r' (List.mem_cons_of_mem r hr') m' (hserve.sameReports.trans hm')

/-- A request that has timed out does not succeed. -/
theorem status_ne_success_of_timedOut (m : INTULocationManager K) (request : INTULocationRequest) :
    m.statusForLocationRequest now { request with timedOut := true }.complete ≠ .success := by
  unfold statusForLocationRequest
  split
  · simp
  · simp
  · simp
  · simp
  · split
    · simp
    · simp [INTULocationRequest.hasTimedOut, INTULocationRequest.complete]

theorem serve_processLocationRequest {m : INTULocationManager K} {request : INTULocationRequest}
    (hactive : request ∈ m.locationRequests) :
    Serve P now request m (m.processLocationRequest P now request) := by
  unfold processLocationRequest
  split
  · exact .complete true hactive fun hstatus =>
      absurd hstatus (status_ne_success_of_timedOut m request)
  · split
    · exact .skip
    · next location hlocation =>
      split
      · next hrecurring => exact .process hactive hrecurring
      · split
        · next hreaches =>
          exact .complete request.timedOut hactive fun _ _ => ⟨location, hlocation, hreaches⟩
        · exact .skip

theorem serves_processLocationRequests {m : INTULocationManager K}
    (hnodup : (m.locationRequests.map (·.requestID)).Nodup) :
    Serves P now m (m.processLocationRequests P now) :=
  serves_foldl m.locationRequests m hnodup (fun _ => id)
    fun _ _ _ _ hactive => serve_processLocationRequest hactive

/-- Every request fails while the last update has failed. -/
theorem serves_failLocationRequests {m : INTULocationManager K}
    (hnodup : (m.locationRequests.map (·.requestID)).Nodup) (hfailed : m.updateFailed = true) :
    Serves P now m (m.locationRequests.foldl (failLocationRequest P now) m) := by
  refine serves_foldl m.locationRequests m hnodup (fun _ => id) fun r _ m' hm' hactive => ?_
  unfold failLocationRequest
  split
  · next hrecurring => exact .process hactive hrecurring
  · refine .complete r.timedOut hactive fun hstatus => ?_
    unfold statusForLocationRequest at hstatus
    rw [hm'.updateFailed, hfailed] at hstatus
    split at hstatus <;> simp at hstatus

/-- Nothing succeeds while services are not available. -/
theorem status_ne_success_of_services {m : INTULocationManager K}
    (hservices : m.locationServicesState ≠ .available) (request : INTULocationRequest) :
    m.statusForLocationRequest now request ≠ .success := by
  unfold statusForLocationRequest
  split
  · simp
  · simp
  · simp
  · simp
  · next hstate => exact absurd hstate hservices

/-- Every request is completed while services are not available. -/
theorem serves_completeAllLocationRequests {m : INTULocationManager K}
    (hnodup : (m.locationRequests.map (·.requestID)).Nodup)
    (hservices : m.locationServicesState ≠ .available) :
    Serves P now m (m.completeAllLocationRequests P now) := by
  refine serves_foldl m.locationRequests m hnodup (fun _ => id) fun r _ m' hm' hactive => ?_
  have hstate : m'.locationServicesState = m.locationServicesState := by
    unfold locationServicesState
    rw [hm'.services]
  rw [← hstate] at hservices
  exact .complete r.timedOut hactive fun hstatus =>
    absurd hstatus (status_ne_success_of_services hservices _)

/-! ## Events -/

end INTULocationManager

/-- The ID and the desired accuracy of the single request that an event makes. -/
def LocationEvent.asks (m : INTULocationManager K) :
    LocationEvent K → Option (ℕ × INTULocationAccuracy)
  | .requestLocation desiredAccuracy _ _ =>
    some (m.getUniqueRequestID, if desiredAccuracy = .none then .city else desiredAccuracy)
  | _ => none

/-- The ID of the active request that an event cancels. -/
def LocationEvent.cancels (m : INTULocationManager K) : LocationEvent K → Option ℕ
  | .cancelLocationRequest requestID => (m.requestWithID requestID).map (·.requestID)
  | _ => none

/-- The call that an event runs. -/
def LocationEvent.runs (m : INTULocationManager K) : LocationEvent K → Option (QueuedCall K)
  | .runBlock => m.mainQueue.head?
  | _ => none

namespace INTULocationManager

/-- A new request, with the next ID. -/
structure NewRequest (m : INTULocationManager K) (e : LocationEvent K)
    (request : INTULocationRequest) : Prop where
  requestID : request.requestID = m.nextRequestID + 1
  asks : e.asks m =
    if request.type = .single then some (request.requestID, request.desiredAccuracy) else none
  cancels : e.cancels m = none
  runs : e.runs m = none
  timedOut : request.timedOut = false
  timeout : request.isRecurring = true → request.timeout = 0

/-- The effects of an event. -/
inductive EventStep (P : Platform K) (now : NSTimeInterval) (m : INTULocationManager K)
    (e : LocationEvent K) : INTULocationManager K → Prop
  /-- A request is taken up, and all are served. -/
  | issue (request : INTULocationRequest) (hnew : NewRequest m e request)
    (m' : INTULocationManager K)
    (hserves : Serves P now (takeUp { m with nextRequestID := m.getUniqueRequestID } request) m') :
    EventStep P now m e m'
  /-- A request is completed at once, since services are not available. -/
  | reject (request : INTULocationRequest) (hnew : NewRequest m e request)
    (hservices : m.locationServicesState ≠ .available) :
    EventStep P now m e
      (completeLocationRequest P now { m with nextRequestID := m.getUniqueRequestID } request)
  | cancel (request : INTULocationRequest) (hactive : request ∈ m.locationRequests)
    (hasks : e.asks m = none) (hruns : e.runs m = none)
    (hcancels : e.cancels m = some request.requestID ∨
      e.cancels m = none ∧ request.isRecurring = true) :
    EventStep P now m e (m.removeLocationRequest request)
  /-- Core Location reports something, or nothing happens, and requests are served. -/
  | serve (services : CLLocationServices) (updateFailed : Bool)
    (lastLocation : Option (CLLocation K)) (f : INTULocationRequest → INTULocationRequest)
    (hf : ∀ r, ∃ timeoutTimer, f r = { r with timeoutTimer := timeoutTimer })
    (hasks : e.asks m = none) (hcancels : e.cancels m = none) (hruns : e.runs m = none)
    (m' : INTULocationManager K)
    (hserves : Serves P now { m with
      services := services
      updateFailed := updateFailed
      lastLocation := lastLocation
      locationRequests := m.locationRequests.map f } m') :
    EventStep P now m e m'
  | run (call : QueuedCall K) (rest : List (QueuedCall K)) (he : e = .runBlock)
    (hqueue : m.mainQueue = call :: rest) : EventStep P now m e { m with mainQueue := rest }

/-- Requests that nobody has served yet are as they were. -/
theorem EventStep.of_serves {m m' : INTULocationManager K} {e : LocationEvent K}
    (hasks : e.asks m = none) (hcancels : e.cancels m = none) (hruns : e.runs m = none)
    (h : Serves P now m m') : EventStep P now m e m' := by
  refine .serve m.services m.updateFailed m.lastLocation id (fun r => ⟨r.timeoutTimer, rfl⟩)
    hasks hcancels hruns m' ?_
  rw [List.map_id]
  exact h

/-- The IDs of the active requests are distinct and were given by the counter. -/
structure Fresh (m : INTULocationManager K) : Prop where
  nodup : (m.locationRequests.map (·.requestID)).Nodup
  le : ∀ r ∈ m.locationRequests, r.requestID ≤ m.nextRequestID

theorem locationRequests_takeUp (m : INTULocationManager K) (request : INTULocationRequest) :
    (m.takeUp request).locationRequests = m.locationRequests ++ [request] :=
  rfl

/-- The IDs after a request is taken up. -/
theorem Fresh.nodup_takeUp {m : INTULocationManager K} (h : m.Fresh)
    {request : INTULocationRequest} (hid : request.requestID = m.nextRequestID + 1) :
    ((takeUp { m with nextRequestID := m.getUniqueRequestID } request).locationRequests.map
      (·.requestID)).Nodup := by
  rw [locationRequests_takeUp, List.map_append, List.nodup_append]
  refine ⟨h.nodup, List.nodup_singleton _, ?_⟩
  rintro _ hold _ hnew rfl
  obtain ⟨r, hr, rfl⟩ := List.mem_map.1 hold
  have hle : r.requestID ≤ m.nextRequestID := h.le r hr
  have hlast : r.requestID = request.requestID := List.mem_singleton.1 hnew
  omega

/-- The inversion of the methods that make a request. -/
theorem eventStep_issue {m : INTULocationManager K} {e : LocationEvent K}
    {request : INTULocationRequest} (h : m.Fresh) (hnew : NewRequest m e request) :
    EventStep P now m e (m.issue P now request) := by
  unfold issue addLocationRequest
  have hserves : Serves P now _ _ :=
    serves_processLocationRequests (h.nodup_takeUp hnew.requestID)
  split
  · next hstate => exact .reject request hnew (ne_of_eq_of_ne hstate (by decide))
  · next hstate => exact .reject request hnew (ne_of_eq_of_ne hstate (by decide))
  · next hstate => exact .reject request hnew (ne_of_eq_of_ne hstate (by decide))
  · exact .issue request hnew _ hserves
  · exact .issue request hnew _ hserves

theorem mem_of_requestWithID {m : INTULocationManager K} {requestID : ℕ}
    {request : INTULocationRequest} (h : m.requestWithID requestID = some request) :
    request ∈ m.locationRequests ∧ request.requestID = requestID :=
  ⟨List.mem_of_find?_eq_some h, by simpa using List.find?_some h⟩

/-- A timer that starts, or does not. -/
theorem exists_startTimeoutTimerIfNeeded (now : NSTimeInterval) (r : INTULocationRequest) :
    ∃ timeoutTimer, r.startTimeoutTimerIfNeeded now = { r with timeoutTimer := timeoutTimer } := by
  unfold INTULocationRequest.startTimeoutTimerIfNeeded
  split
  · exact ⟨some now, rfl⟩
  · exact ⟨r.timeoutTimer, rfl⟩

/-- The inversion of a single request. -/
theorem eventStep_requestLocation {m : INTULocationManager K} (hm : m.Fresh)
    (desiredAccuracy : INTULocationAccuracy) (timeout : NSTimeInterval)
    (delayUntilAuthorized : Bool) :
    EventStep P now m (.requestLocation desiredAccuracy timeout delayUntilAuthorized)
      (m.requestLocation P now desiredAccuracy timeout delayUntilAuthorized) := by
  unfold requestLocation
  dsimp only
  have hsingle : ∀ r : INTULocationRequest, r.type = .single → r.isRecurring = true →
      r.timeout = 0 := by
    intro r hr hrecurring
    simp [INTULocationRequest.isRecurring, hr] at hrecurring
  refine eventStep_issue hm ?_
  split
  · exact ⟨rfl, rfl, rfl, rfl, rfl, hsingle _ rfl⟩
  · obtain ⟨timeoutTimer, heq⟩ := exists_startTimeoutTimerIfNeeded now
      { requestID := m.getUniqueRequestID
        type := .single
        desiredAccuracy := if desiredAccuracy = .none then .city else desiredAccuracy
        timeout := timeout }
    rw [heq]
    exact ⟨rfl, rfl, rfl, rfl, rfl, hsingle _ rfl⟩

/-- A request that is completed as timed out. -/
theorem eventStep_timedOut {m : INTULocationManager K} {e : LocationEvent K}
    {request : INTULocationRequest} (hactive : request ∈ m.locationRequests)
    (hasks : e.asks m = none) (hcancels : e.cancels m = none) (hruns : e.runs m = none) :
    EventStep P now m e
      (m.completeLocationRequest P now { request with timedOut := true }) := by
  refine .of_serves hasks hcancels hruns
    (.single ⟨request, .complete true hactive fun hstatus => ?_⟩)
  exact absurd hstatus (status_ne_success_of_timedOut m request)

/-- The inversion of a change of authorization. -/
theorem eventStep_didChangeAuthorizationStatus {m : INTULocationManager K} (hm : m.Fresh)
    (services : CLLocationServices) :
    EventStep P now m (.didChangeAuthorizationStatus services)
      (m.didChangeAuthorizationStatus P now services) := by
  have hkept : ∀ m', Serves P now { m with services := services } m' →
      EventStep P now m (.didChangeAuthorizationStatus services) m' := by
    intro m' hserves
    refine .serve services m.updateFailed m.lastLocation id (fun r => ⟨r.timeoutTimer, rfl⟩)
      rfl rfl rfl m' ?_
    rw [List.map_id]
    exact hserves
  have hunavailable : services.authorizationStatus = .denied ∨
      services.authorizationStatus = .restricted →
      locationServicesState ({ m with services := services } : INTULocationManager K) ≠
        .available := by
    unfold locationServicesState
    rintro (hstatus | hstatus) <;> rw [hstatus] <;> split <;> simp
  unfold didChangeAuthorizationStatus
  split
  · next hstatus =>
    exact hkept _ (serves_completeAllLocationRequests hm.nodup (hunavailable (Or.inl hstatus)))
  · next hstatus =>
    exact hkept _ (serves_completeAllLocationRequests hm.nodup (hunavailable (Or.inr hstatus)))
  · exact .serve services m.updateFailed m.lastLocation _
      (exists_startTimeoutTimerIfNeeded now) rfl rfl rfl _ .refl
  · exact .serve services m.updateFailed m.lastLocation _
      (exists_startTimeoutTimerIfNeeded now) rfl rfl rfl _ .refl
  · exact hkept _ .refl

/-- The inversion of `step`. -/
theorem eventStep_of_step {m m' : INTULocationManager K} {e : LocationEvent K} (hm : m.Fresh)
    (h : m.step P (now, e) = some m') : EventStep P now m e m' := by
  cases e with
  | requestLocation desiredAccuracy timeout delayUntilAuthorized =>
    obtain rfl := Option.some.inj h
    exact eventStep_requestLocation hm desiredAccuracy timeout delayUntilAuthorized
  | subscribeToLocationUpdates desiredAccuracy =>
    obtain rfl := Option.some.inj h
    exact eventStep_issue hm ⟨rfl, rfl, rfl, rfl, rfl, fun _ => rfl⟩
  | subscribeToSignificantLocationChanges =>
    obtain rfl := Option.some.inj h
    exact eventStep_issue hm ⟨rfl, rfl, rfl, rfl, rfl, fun _ => rfl⟩
  | forceCompleteLocationRequest requestID =>
    obtain rfl := Option.some.inj h
    unfold forceCompleteLocationRequest
    split
    · next request hrequest =>
      split
      · next hrecurring =>
        unfold cancelLocationRequest
        rw [hrequest]
        exact .cancel request (mem_of_requestWithID hrequest).1 rfl rfl (Or.inr ⟨rfl, hrecurring⟩)
      · exact eventStep_timedOut (mem_of_requestWithID hrequest).1 rfl rfl rfl
    · exact .of_serves rfl rfl rfl .refl
  | cancelLocationRequest requestID =>
    obtain rfl := Option.some.inj h
    unfold cancelLocationRequest
    split
    · next request hrequest =>
      refine .cancel request (mem_of_requestWithID hrequest).1 rfl rfl (Or.inl ?_)
      simp [LocationEvent.cancels, hrequest]
    · next hnone => exact .of_serves rfl (by simp [LocationEvent.cancels, hnone]) rfl .refl
  | timeoutTimerFired requestID =>
    simp only [step, timeoutTimerFired] at h
    split at h
    · next request hrequest =>
      simp only [Option.ite_none_right_eq_some, Option.some.injEq] at h
      obtain ⟨-, rfl⟩ := h
      exact eventStep_timedOut (mem_of_requestWithID hrequest).1 rfl rfl rfl
    · simp at h
  | didUpdateLocations location =>
    obtain rfl := Option.some.inj h
    refine .serve m.services false (some location) id (fun r => ⟨r.timeoutTimer, rfl⟩)
      rfl rfl rfl _ ?_
    rw [List.map_id]
    exact serves_processLocationRequests hm.nodup
  | didFailWithError =>
    obtain rfl := Option.some.inj h
    refine .serve m.services true m.lastLocation id (fun r => ⟨r.timeoutTimer, rfl⟩)
      rfl rfl rfl _ ?_
    rw [List.map_id]
    exact serves_failLocationRequests (m := { m with updateFailed := true }) hm.nodup rfl
  | didChangeAuthorizationStatus services =>
    obtain rfl := Option.some.inj h
    exact eventStep_didChangeAuthorizationStatus hm services
  | runBlock =>
    simp only [step] at h
    split at h
    · simp at h
    · next call rest hqueue =>
      obtain rfl := Option.some.inj h
      exact .run call rest rfl hqueue

end INTULocationManager

end ConfFriends.Pods
