import ConfFriends.Transition.Simulation
import ConfFriends.Pods.LocationManager.Hardware

/-!
# The manager without single requests

The app makes recurring requests only, and its development is about a manager without
anything else : no accuracies, no timers, no hardware. `recurring_run` says that this is
the same manager. Along every run without single requests, `recurring` takes the one to
the other, step by step, with the requests, the reports of Core Location and the blocks on
the main queue.
-/

set_option linter.unusedSectionVars false

open Transition

namespace ConfFriends.Pods

variable {K : Type*} [DecidableEq K] [Zero K] {P : Platform K} {now : NSTimeInterval}

/-! ## From the one to the other -/

/-- The type of a recurring request. A single request has none. -/
def INTULocationRequestType.recurring :
    INTULocationRequestType → ConfFriends.INTULocationRequestType
  | .single | .subscription => .subscription
  | .significantChanges => .significantChanges

def INTULocationRequest.recurring (r : INTULocationRequest) : ConfFriends.INTULocationRequest where
  requestID := r.requestID
  type := r.type.recurring
  desiredAccuracy := r.desiredAccuracy

def QueuedCall.recurring (call : QueuedCall K) : QueuedBlock K where
  currentLocation := call.currentLocation.map (·.coordinate)
  status := call.status

namespace INTULocationManager

def recurring (m : INTULocationManager K) : ConfFriends.INTULocationManager K where
  nextRequestID := m.nextRequestID
  locationRequests := m.locationRequests.map (·.recurring)
  services := m.services
  updateFailed := m.updateFailed
  lastLocation := m.lastLocation.map (·.coordinate)
  mainQueue := m.mainQueue.map (·.recurring)

/-- A recurring request : it has no timeout. -/
structure Calm (r : INTULocationRequest) : Prop where
  recurring : r.isRecurring = true
  timeout : r.timeout = 0
  timedOut : r.timedOut = false
  timeoutTimer : r.timeoutTimer = none

/-- The event makes no single request. -/
def NotSingle (e : NSTimeInterval × LocationEvent K) : Prop :=
  ∀ desiredAccuracy timeout delayUntilAuthorized,
    e.2 ≠ .requestLocation desiredAccuracy timeout delayUntilAuthorized

/-- The events of the manager without single requests. To force the completion of a
recurring request cancels it. -/
def stepRecurring (P : Platform K) (m : ConfFriends.INTULocationManager K) :
    NSTimeInterval × LocationEvent K → Option (ConfFriends.INTULocationManager K)
  | (_, .requestLocation _ _ _) => none
  | (_, .subscribeToLocationUpdates desiredAccuracy) =>
    some (m.subscribeToLocationUpdates P desiredAccuracy).1
  | (_, .subscribeToSignificantLocationChanges) =>
    some (m.subscribeToSignificantLocationChanges P).1
  | (_, .forceCompleteLocationRequest requestID) => some (m.cancelLocationRequest requestID)
  | (_, .cancelLocationRequest requestID) => some (m.cancelLocationRequest requestID)
  | (_, .timeoutTimerFired _) => none
  | (_, .didUpdateLocations location) => some (m.didUpdateLocations P location.coordinate)
  | (_, .didFailWithError) => some (m.didFailWithError P)
  | (_, .didChangeAuthorizationStatus services) =>
    some (m.didChangeAuthorizationStatus P services)
  | (_, .runBlock) =>
    match m.mainQueue with
    | [] => none
    | _ :: rest => some { m with mainQueue := rest }

/-! ## Status and current location -/

theorem locationServicesState_recurring (m : INTULocationManager K) :
    m.recurring.locationServicesState = m.locationServicesState :=
  rfl

theorem currentLocation_recurring (m : INTULocationManager K) :
    m.recurring.currentLocation P = (m.currentLocation P).map (·.coordinate) := by
  unfold ConfFriends.INTULocationManager.currentLocation currentLocation recurring
  cases m.lastLocation with
  | none => rfl
  | some location =>
    simp only [Option.map_some, Option.filter_some]
    split <;> rfl

/-- A recurring request does not time out. -/
theorem Calm.hasTimedOut {r : INTULocationRequest} (h : Calm r) : r.hasTimedOut now = false := by
  simp [INTULocationRequest.hasTimedOut, h.timeout, h.timedOut]

theorem Calm.complete {r : INTULocationRequest} (h : Calm r) : r.complete = r := by
  obtain ⟨requestID, type, desiredAccuracy, timeout, timedOut, timeoutTimer⟩ := r
  have htimer := h.timeoutTimer
  dsimp only at htimer
  subst htimer
  rfl

/-- The call of a recurring request is the block of the other manager. -/
theorem Calm.queuedCall {r : INTULocationRequest} (h : Calm r) (m : INTULocationManager K) :
    (m.queuedCall P now r).recurring = m.recurring.queuedBlock P := by
  have hstatus : m.statusForLocationRequest now r = m.recurring.statusForLocationRequest := by
    unfold statusForLocationRequest ConfFriends.INTULocationManager.statusForLocationRequest
    rw [h.hasTimedOut, locationServicesState_recurring]
    rfl
  unfold INTULocationManager.queuedCall QueuedCall.recurring
    ConfFriends.INTULocationManager.queuedBlock
  rw [currentLocation_recurring, hstatus]

/-! ## The loops -/

/-- The calls of all requests put on the main queue. -/
def callAll (P : Platform K) (now : NSTimeInterval) (requests : List INTULocationRequest)
    (m : INTULocationManager K) : INTULocationManager K :=
  { m with mainQueue := m.mainQueue ++ requests.map (m.queuedCall P now) }

/-- A loop that calls the block of every request. -/
theorem foldl_processRecurringRequest
    {f : INTULocationManager K → INTULocationRequest → INTULocationManager K} :
    ∀ (requests : List INTULocationRequest) (m : INTULocationManager K),
      (∀ queue, ∀ r ∈ requests, f { m with mainQueue := queue } r =
        processRecurringRequest P now { m with mainQueue := queue } r) →
      requests.foldl f m = callAll P now requests m
  | [], m, _ => by simp [callAll]
  | r :: requests, m, hf => by
    have hfirst : f m r = { m with mainQueue := m.mainQueue ++ [m.queuedCall P now r] } :=
      hf m.mainQueue r List.mem_cons_self
    have hrest := foldl_processRecurringRequest requests
      { m with mainQueue := m.mainQueue ++ [m.queuedCall P now r] }
      fun queue r' hr' => hf queue r' (List.mem_cons_of_mem r hr')
    rw [List.foldl_cons, hfirst, hrest]
    simp only [callAll, List.map_cons, List.append_assoc, List.singleton_append]
    rfl

/-- The blocks of recurring requests, as the other manager puts them on its queue. -/
theorem recurring_callAll {m : INTULocationManager K} {requests : List INTULocationRequest}
    (h : ∀ r ∈ requests, Calm r) : (callAll P now requests m).recurring =
      { m.recurring with
        mainQueue := m.recurring.mainQueue ++
          (requests.map (·.recurring)).map fun _ => m.recurring.queuedBlock P } := by
  have hcalls : (requests.map (m.queuedCall P now)).map (·.recurring) =
      (requests.map (·.recurring)).map fun _ => m.recurring.queuedBlock P := by
    rw [List.map_map, List.map_map]
    exact List.map_congr_left fun r hr => (h r hr).queuedCall m
  unfold recurring callAll
  dsimp only
  rw [List.map_append, hcalls]
  rfl

/-- Recurring requests are served while there is a location. -/
theorem processLocationRequests_eq {m : INTULocationManager K}
    (h : ∀ r ∈ m.locationRequests, Calm r) : m.processLocationRequests P now =
      if (m.currentLocation P).isSome then callAll P now m.locationRequests m else m := by
  unfold processLocationRequests
  split
  · next hsome =>
    obtain ⟨location, hlocation⟩ := Option.isSome_iff_exists.1 hsome
    refine foldl_processRecurringRequest m.locationRequests m fun queue r hr => ?_
    have hlocation' : currentLocation P { m with mainQueue := queue } = some location := hlocation
    unfold processLocationRequest
    rw [(h r hr).hasTimedOut, hlocation', if_neg (by simp)]
    exact if_pos (h r hr).recurring
  · next hnone =>
    have hskip : ∀ requests : List INTULocationRequest, (∀ r ∈ requests, Calm r) →
        requests.foldl (processLocationRequest P now) m = m := by
      intro requests
      induction requests with
      | nil => exact fun _ => rfl
      | cons r requests ih =>
        intro hcalm
        have hfirst : m.processLocationRequest P now r = m := by
          unfold processLocationRequest
          rw [(hcalm r List.mem_cons_self).hasTimedOut, if_neg (by simp),
            Option.not_isSome_iff_eq_none.1 hnone]
        rw [List.foldl_cons, hfirst]
        exact ih fun r' hr' => hcalm r' (List.mem_cons_of_mem r hr')
    exact hskip m.locationRequests h

theorem recurring_processLocationRequests {m : INTULocationManager K}
    (h : ∀ r ∈ m.locationRequests, Calm r) :
    (m.processLocationRequests P now).recurring = m.recurring.processLocationRequests P := by
  rw [processLocationRequests_eq h, ConfFriends.INTULocationManager.processLocationRequests,
    currentLocation_recurring, Option.isSome_map]
  split
  · rw [recurring_callAll h]
    rfl
  · rfl

/-! ## Completing, adding and cancelling -/

/-- All active requests are recurring. -/
def AllCalm (m : INTULocationManager K) : Prop :=
  ∀ r ∈ m.locationRequests, Calm r

theorem recurring_removeLocationRequest (m : INTULocationManager K)
    (request : INTULocationRequest) : (m.removeLocationRequest request).recurring =
      { m.recurring with
        locationRequests :=
          m.recurring.locationRequests.filter (·.requestID ≠ request.requestID) } := by
  obtain ⟨hnext, hqueue, hreports⟩ := removeLocationRequest_keeps m request
  unfold recurring
  rw [hnext, hqueue, hreports.services, hreports.updateFailed, hreports.lastLocation,
    locationRequests_removeLocationRequest, List.filter_map]
  rfl

theorem AllCalm.remove {m : INTULocationManager K} (h : m.AllCalm)
    (request : INTULocationRequest) : (m.removeLocationRequest request).AllCalm :=
  fun r hr => h r (mem_removeLocationRequest.1 hr).1

theorem recurring_completeLocationRequest {m : INTULocationManager K}
    {request : INTULocationRequest} (h : Calm request) :
    (m.completeLocationRequest P now request).recurring =
      m.recurring.completeLocationRequest P request.recurring := by
  have hcall : ((m.removeLocationRequest request).queuedCall P now request).recurring =
      (m.removeLocationRequest request).recurring.queuedBlock P := h.queuedCall _
  have hstep : (m.completeLocationRequest P now request).recurring =
      { (m.removeLocationRequest request).recurring with
        mainQueue := (m.removeLocationRequest request).recurring.mainQueue ++
          [(m.removeLocationRequest request).recurring.queuedBlock P] } := by
    rw [← hcall]
    unfold completeLocationRequest
    rw [h.complete]
    unfold recurring
    dsimp only
    rw [List.map_append]
    rfl
  rw [hstep, recurring_removeLocationRequest]
  rfl

/-- All requests are completed one after the other. -/
theorem recurring_foldl_completeLocationRequest :
    ∀ (requests : List INTULocationRequest) (m : INTULocationManager K),
      (∀ r ∈ requests, Calm r) →
      (requests.foldl (completeLocationRequest P now) m).recurring =
        (requests.map (·.recurring)).foldl
          (ConfFriends.INTULocationManager.completeLocationRequest P) m.recurring
  | [], m, _ => rfl
  | r :: requests, m, h => by
    rw [List.foldl_cons, List.map_cons, List.foldl_cons,
      recurring_foldl_completeLocationRequest requests _
        fun r' hr' => h r' (List.mem_cons_of_mem r hr'),
      recurring_completeLocationRequest (h r List.mem_cons_self)]

theorem AllCalm.foldl_completeLocationRequest :
    ∀ (requests : List INTULocationRequest) {m : INTULocationManager K}, m.AllCalm →
      (requests.foldl (completeLocationRequest P now) m).AllCalm
  | [], _, h => h
  | r :: requests, _, h => AllCalm.foldl_completeLocationRequest requests (h.remove r)

theorem recurring_takeUp (m : INTULocationManager K) (request : INTULocationRequest) :
    (m.takeUp request).recurring =
      { m.recurring with
        locationRequests := m.recurring.locationRequests ++ [request.recurring] } := by
  obtain ⟨hnext, hqueue, hreports⟩ := takeUp_keeps m request
  unfold recurring
  rw [hnext, hqueue, hreports.services, hreports.updateFailed, hreports.lastLocation,
    locationRequests_takeUp, List.map_append]
  rfl

theorem AllCalm.processLocationRequests {m : INTULocationManager K} (h : m.AllCalm) :
    (m.processLocationRequests P now).AllCalm := by
  rw [processLocationRequests_eq h]
  split <;> exact h

/-- A recurring request is taken up, or completed at once. -/
theorem recurring_addLocationRequest {m : INTULocationManager K} (hm : m.AllCalm)
    {request : INTULocationRequest} (h : Calm request) :
    (m.addLocationRequest P now request).recurring =
        m.recurring.addLocationRequest P request.recurring ∧
      (m.addLocationRequest P now request).AllCalm := by
  have hcompleted : (m.completeLocationRequest P now request).recurring =
      m.recurring.completeLocationRequest P request.recurring ∧
        (m.completeLocationRequest P now request).AllCalm :=
    ⟨recurring_completeLocationRequest h, hm.remove request⟩
  have htaken : (m.takeUp request).AllCalm := by
    intro r hr
    rcases List.mem_append.1 hr with hold | hnew
    · exact hm r hold
    · obtain rfl := List.mem_singleton.1 hnew
      exact h
  have hprocessed : ((m.takeUp request).processLocationRequests P now).recurring =
      ConfFriends.INTULocationManager.processLocationRequests P { m.recurring with
        locationRequests := m.recurring.locationRequests ++ [request.recurring] } ∧
      ((m.takeUp request).processLocationRequests P now).AllCalm := by
    refine ⟨?_, htaken.processLocationRequests⟩
    rw [recurring_processLocationRequests htaken, recurring_takeUp]
  unfold addLocationRequest ConfFriends.INTULocationManager.addLocationRequest
  rw [locationServicesState_recurring]
  cases m.locationServicesState with
  | disabled | denied | restricted => exact hcompleted
  | available | notDetermined => exact hprocessed

/-- A new recurring request gets the next ID. -/
theorem recurring_issue {m : INTULocationManager K} (hm : m.AllCalm)
    {request : INTULocationRequest} (h : Calm request) :
    (m.issue P now request).recurring =
        ConfFriends.INTULocationManager.addLocationRequest P
          { m.recurring with nextRequestID := m.recurring.getUniqueRequestID } request.recurring ∧
      (m.issue P now request).AllCalm :=
  recurring_addLocationRequest (m := { m with nextRequestID := m.getUniqueRequestID }) hm h

/-- The first active request with the ID. -/
theorem find?_recurring (m : INTULocationManager K) (requestID : ℕ) :
    m.recurring.locationRequests.find? (·.requestID = requestID) =
      (m.requestWithID requestID).map (·.recurring) := by
  unfold requestWithID recurring
  dsimp only
  rw [List.find?_map]
  rfl

theorem recurring_cancelLocationRequest (m : INTULocationManager K) (requestID : ℕ) :
    (m.cancelLocationRequest requestID).recurring =
      m.recurring.cancelLocationRequest requestID := by
  unfold cancelLocationRequest ConfFriends.INTULocationManager.cancelLocationRequest
  rw [find?_recurring]
  cases m.requestWithID requestID with
  | none => rfl
  | some request => exact recurring_removeLocationRequest m request

theorem AllCalm.cancel {m : INTULocationManager K} (h : m.AllCalm) (requestID : ℕ) :
    (m.cancelLocationRequest requestID).AllCalm := by
  unfold cancelLocationRequest
  split
  · exact h.remove _
  · exact h

/-- To force the completion of a recurring request cancels it. -/
theorem forceCompleteLocationRequest_eq {m : INTULocationManager K} (h : m.AllCalm)
    (requestID : ℕ) : m.forceCompleteLocationRequest P now requestID =
      m.cancelLocationRequest requestID := by
  unfold forceCompleteLocationRequest
  split
  · next request hrequest =>
    rw [if_pos (h request (List.mem_of_find?_eq_some hrequest)).recurring]
  · next hnone =>
    unfold cancelLocationRequest
    rw [hnone]

/-- No timer of a recurring request fires. -/
theorem timeoutTimerFired_eq_none {m : INTULocationManager K} (h : m.AllCalm) (requestID : ℕ) :
    m.timeoutTimerFired P now requestID = none := by
  unfold timeoutTimerFired
  split
  · next request hrequest =>
    rw [(h request (List.mem_of_find?_eq_some hrequest)).timeoutTimer]
    rfl
  · rfl

/-! ## Callbacks -/

theorem recurring_didFailWithError {m : INTULocationManager K} (h : m.AllCalm) :
    (m.didFailWithError P now).recurring = m.recurring.didFailWithError P ∧
      (m.didFailWithError P now).AllCalm := by
  have heq : m.didFailWithError P now =
      callAll P now m.locationRequests { m with updateFailed := true } := by
    refine foldl_processRecurringRequest m.locationRequests _ fun queue r hr => ?_
    exact if_pos (h r hr).recurring
  rw [heq]
  exact ⟨recurring_callAll h, h⟩

theorem recurring_didUpdateLocations {m : INTULocationManager K} (h : m.AllCalm)
    (location : CLLocation K) :
    (m.didUpdateLocations P now location).recurring =
        m.recurring.didUpdateLocations P location.coordinate ∧
      (m.didUpdateLocations P now location).AllCalm :=
  ⟨recurring_processLocationRequests h, AllCalm.processLocationRequests h⟩

/-- A recurring request has no timer to start. -/
theorem Calm.startTimeoutTimerIfNeeded {r : INTULocationRequest} (h : Calm r) :
    r.startTimeoutTimerIfNeeded now = r := by
  simp [INTULocationRequest.startTimeoutTimerIfNeeded, h.timeout]

theorem recurring_didChangeAuthorizationStatus {m : INTULocationManager K} (h : m.AllCalm)
    (services : CLLocationServices) :
    (m.didChangeAuthorizationStatus P now services).recurring =
        m.recurring.didChangeAuthorizationStatus P services ∧
      (m.didChangeAuthorizationStatus P now services).AllCalm := by
  have hcompleted : (completeAllLocationRequests P now { m with services := services }).recurring =
      ConfFriends.INTULocationManager.completeAllLocationRequests P
        { m.recurring with services := services } ∧
      (completeAllLocationRequests P now { m with services := services }).AllCalm :=
    ⟨recurring_foldl_completeLocationRequest m.locationRequests { m with services := services } h,
      AllCalm.foldl_completeLocationRequest m.locationRequests
        (m := { m with services := services }) h⟩
  have htimers : m.locationRequests.map (·.startTimeoutTimerIfNeeded now) = m.locationRequests :=
    (List.map_congr_left fun r hr => (h r hr).startTimeoutTimerIfNeeded).trans (List.map_id' _)
  unfold didChangeAuthorizationStatus
    ConfFriends.INTULocationManager.didChangeAuthorizationStatus
  rw [htimers]
  cases services.authorizationStatus with
  | denied | restricted => exact hcompleted
  | authorizedAlways | authorizedWhenInUse | notDetermined => exact ⟨rfl, h⟩

/-! ## The simulation -/

/-- The manager and its image. -/
def IsRecurring (m : INTULocationManager K) (m' : ConfFriends.INTULocationManager K) : Prop :=
  m.recurring = m' ∧ m.AllCalm

/-- An event other than a single request does the same to both. -/
theorem simulates_recurring : Simulates (step P) (stepRecurring P) NotSingle
    (IsRecurring : INTULocationManager K → _ → Prop) := by
  rintro m _ ⟨now, e⟩ hsingle ⟨rfl, hm⟩
  cases e with
  | requestLocation desiredAccuracy timeout delayUntilAuthorized =>
    exact absurd rfl (hsingle desiredAccuracy timeout delayUntilAuthorized)
  | subscribeToLocationUpdates desiredAccuracy =>
    exact .some (recurring_issue hm ⟨rfl, rfl, rfl, rfl⟩)
  | subscribeToSignificantLocationChanges =>
    exact .some (recurring_issue hm ⟨rfl, rfl, rfl, rfl⟩)
  | forceCompleteLocationRequest requestID =>
    refine .some ?_
    rw [forceCompleteLocationRequest_eq hm]
    exact ⟨recurring_cancelLocationRequest m requestID, hm.cancel requestID⟩
  | cancelLocationRequest requestID =>
    exact .some ⟨recurring_cancelLocationRequest m requestID, hm.cancel requestID⟩
  | timeoutTimerFired requestID =>
    have hnone : m.step P (now, .timeoutTimerFired requestID) = none :=
      timeoutTimerFired_eq_none hm requestID
    rw [hnone]
    exact .none
  | didUpdateLocations location => exact .some (recurring_didUpdateLocations hm location)
  | didFailWithError => exact .some (recurring_didFailWithError hm)
  | didChangeAuthorizationStatus services =>
    exact .some (recurring_didChangeAuthorizationStatus hm services)
  | runBlock =>
    have hqueue : m.recurring.mainQueue = m.mainQueue.map (·.recurring) := rfl
    simp only [step, stepRecurring, hqueue]
    cases m.mainQueue with
    | nil => exact .none
    | cons call rest => exact .some ⟨rfl, hm⟩

/-- A run without single requests is a run of the manager that the app is about. -/
theorem recurring_run (services : CLLocationServices)
    (es : List (NSTimeInterval × LocationEvent K)) (h : ∀ e ∈ es, NotSingle e) :
    (exec (step P) { services := services } es).map recurring =
      exec (stepRecurring P) { services := services } es :=
  simulates_recurring.map_exec (fun _ _ hm => hm.1) h ⟨rfl, by simp [AllCalm]⟩

/-- A subscription gets a location and is cancelled before its block runs. -/
def cancelledBeforeCall : List (NSTimeInterval × LocationEvent ℤ) :=
  [(0, .subscribeToLocationUpdates .block), (1, .didUpdateLocations ⟨⟨10, 20⟩, 65, 1⟩),
    (2, .cancelLocationRequest 1), (3, .runBlock)]

theorem recurring_cancelledBeforeCall :
    (exec (step Platform.flat) { services := ⟨true, .authorizedWhenInUse⟩ }
      cancelledBeforeCall).map recurring =
    exec (stepRecurring Platform.flat) { services := ⟨true, .authorizedWhenInUse⟩ }
      cancelledBeforeCall :=
  recurring_run ⟨true, .authorizedWhenInUse⟩ cancelledBeforeCall
    (by simp [cancelledBeforeCall, NotSingle])

end INTULocationManager

end ConfFriends.Pods
