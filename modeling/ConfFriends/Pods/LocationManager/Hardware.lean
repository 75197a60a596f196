import ConfFriends.Transition.Run
import ConfFriends.Pods.LocationManager.Effects

/-!
# The hardware runs while it is needed

Updates of the location cost the battery, so they should run iff an active request needs
them, and no more accurately than the most demanding one asks for. The manager switches
them with every request that comes or goes, by counting the other active ones.
`hardware_run` says that this comes out right along every run.
-/

set_option linter.unusedSectionVars false

open Relation Transition

namespace ConfFriends.Pods.INTULocationManager

variable {K : Type*} [DecidableEq K] [Zero K] {P : Platform K} {now : NSTimeInterval}

/-! ## The invariant -/

/-- The hardware is as the active requests need it. -/
structure Hardware (m : INTULocationManager K) : Prop where
  updating : m.isUpdatingLocation = true ↔
    ∃ r ∈ m.locationRequests, r.type ≠ .significantChanges
  monitoring : m.isMonitoringSignificantLocationChanges = true ↔
    ∃ r ∈ m.locationRequests, r.type = .significantChanges
  accuracy : ∀ accuracy, coreAccuracy (maximumDesiredAccuracy
    m.activeLocationRequestsExcludingSignificantChanges) = some accuracy →
      m.desiredAccuracy = accuracy

theorem length_activeExcluding_eq_zero_iff {m : INTULocationManager K} :
    m.activeLocationRequestsExcludingSignificantChanges.length = 0 ↔
      ¬∃ r ∈ m.locationRequests, r.type ≠ .significantChanges := by
  rw [List.length_eq_zero_iff, activeLocationRequestsExcludingSignificantChanges,
    List.filter_eq_nil_iff]
  simp [INTULocationRequest.excludesSignificantChanges]

theorem length_activeWith_eq_zero_iff {m : INTULocationManager K} :
    m.activeLocationRequestsWithSignificantChanges.length = 0 ↔
      ¬∃ r ∈ m.locationRequests, r.type = .significantChanges := by
  rw [List.length_eq_zero_iff, activeLocationRequestsWithSignificantChanges,
    List.filter_eq_nil_iff]
  simp [INTULocationRequest.excludesSignificantChanges]

/-- The maximum is the desired accuracy of one of the requests, unless they all desire
none, and no request desires more. -/
theorem maximumDesiredAccuracy_spec (requests : List INTULocationRequest) :
    (∀ r ∈ requests, r.desiredAccuracy ≤ maximumDesiredAccuracy requests) ∧
      (maximumDesiredAccuracy requests = .none ∨
        ∃ r ∈ requests, r.desiredAccuracy = maximumDesiredAccuracy requests) := by
  induction requests using List.reverseRecOn with
  | nil => exact ⟨by simp, Or.inl rfl⟩
  | append_singleton requests r ih =>
    have hmax : maximumDesiredAccuracy (requests ++ [r]) =
        max (maximumDesiredAccuracy requests) r.desiredAccuracy := by
      simp [maximumDesiredAccuracy]
    rw [hmax]
    constructor
    · intro r' hr'
      rcases List.mem_append.1 hr' with hold | hnew
      · exact (ih.1 r' hold).trans (le_max_left _ _)
      · obtain rfl := List.mem_singleton.1 hnew
        exact le_max_right _ _
    · rcases max_choice (maximumDesiredAccuracy requests) r.desiredAccuracy with heq | heq
      · rw [heq]
        refine ih.2.imp_right ?_
        rintro ⟨r', hr', hmem⟩
        exact ⟨r', List.mem_append_left _ hr', hmem⟩
      · exact Or.inr ⟨r, by simp, heq.symm⟩

/-- A request that is taken up can only raise the maximum. -/
theorem maximumDesiredAccuracy_append (requests : List INTULocationRequest)
    (r : INTULocationRequest) : maximumDesiredAccuracy (requests ++ [r]) =
      max r.desiredAccuracy (maximumDesiredAccuracy requests) := by
  rw [max_comm]
  simp [maximumDesiredAccuracy]

/-! ## Removing and taking up -/

/-- The requests after a removal. -/
def without (m : INTULocationManager K) (request : INTULocationRequest) : INTULocationManager K :=
  { m with locationRequests := m.locationRequests.filter (·.requestID ≠ request.requestID) }

/-- A type of requests that a removal does not touch. -/
theorem exists_without_iff {m : INTULocationManager K} {request : INTULocationRequest}
    {p : INTULocationRequestType → Prop}
    (hkept : ∀ r ∈ m.locationRequests, p r.type → r.requestID ≠ request.requestID) :
    (∃ r ∈ (m.without request).locationRequests, p r.type) ↔
      ∃ r ∈ m.locationRequests, p r.type := by
  constructor
  · rintro ⟨r, hr, hp⟩
    exact ⟨r, List.mem_of_mem_filter hr, hp⟩
  · rintro ⟨r, hr, hp⟩
    exact ⟨r, List.mem_filter.2 ⟨hr, decide_eq_true (hkept r hr hp)⟩, hp⟩

/-- The hardware stops updating when the last request that needs it is gone. -/
theorem Hardware.remove_updating {m : INTULocationManager K} (h : m.Hardware)
    {request : INTULocationRequest} (hrequest : request.type ≠ .significantChanges)
    (htype : ∀ r ∈ m.locationRequests, r.requestID = request.requestID → r.type = request.type) :
    ((m.without request).updateWithMaximumDesiredAccuracy (maximumDesiredAccuracy
      (m.without request).activeLocationRequestsExcludingSignificantChanges)
      ).stopUpdatingLocationIfPossible.Hardware := by
  have hmonitoring : m.isMonitoringSignificantLocationChanges = true ↔
      ∃ r ∈ (m.without request).locationRequests, r.type = .significantChanges := by
    rw [h.monitoring, exists_without_iff (p := (· = .significantChanges))]
    intro r hr hsignificant hid
    exact hrequest ((htype r hr hid).symm.trans hsignificant)
  have haccuracy : ∀ accuracy, coreAccuracy (maximumDesiredAccuracy
      (m.without request).activeLocationRequestsExcludingSignificantChanges) = some accuracy →
      (coreAccuracy (maximumDesiredAccuracy
        (m.without request).activeLocationRequestsExcludingSignificantChanges)).getD
          m.desiredAccuracy = accuracy := by
    intro accuracy hsome
    rw [hsome, Option.getD_some]
  unfold stopUpdatingLocationIfPossible
  split
  · next hnone =>
    have hnone' := length_activeExcluding_eq_zero_iff.1 hnone
    exact ⟨iff_of_false (by simp) hnone', hmonitoring, haccuracy⟩
  · next hsome =>
    have hsome' : ∃ r ∈ (m.without request).locationRequests, r.type ≠ .significantChanges :=
      not_not.1 (mt length_activeExcluding_eq_zero_iff.2 hsome)
    refine ⟨iff_of_true (h.updating.2 ?_) hsome', hmonitoring, haccuracy⟩
    obtain ⟨r, hr, hr'⟩ := hsome'
    exact ⟨r, List.mem_of_mem_filter hr, hr'⟩

/-- The hardware stops monitoring when the last request that needs it is gone. -/
theorem Hardware.remove_monitoring {m : INTULocationManager K} (h : m.Hardware)
    {request : INTULocationRequest} (hrequest : request.type = .significantChanges)
    (htype : ∀ r ∈ m.locationRequests, r.requestID = request.requestID → r.type = request.type) :
    (m.without request).stopMonitoringSignificantLocationChangesIfPossible.Hardware := by
  have hkept : ∀ r ∈ m.locationRequests, r.type ≠ .significantChanges →
      r.requestID ≠ request.requestID :=
    fun r hr hother hid => hother ((htype r hr hid).trans hrequest)
  have hupdating : m.isUpdatingLocation = true ↔
      ∃ r ∈ (m.without request).locationRequests, r.type ≠ .significantChanges := by
    rw [h.updating, exists_without_iff (p := (· ≠ .significantChanges)) hkept]
  have hactive : (m.without request).activeLocationRequestsExcludingSignificantChanges =
      m.activeLocationRequestsExcludingSignificantChanges := by
    unfold activeLocationRequestsExcludingSignificantChanges without
    rw [List.filter_filter]
    refine List.filter_congr fun r hr => ?_
    cases hneeds : r.excludesSignificantChanges with
    | false => rfl
    | true => simpa using hkept r hr (of_decide_eq_true hneeds)
  have haccuracy := h.accuracy
  rw [← hactive] at haccuracy
  unfold stopMonitoringSignificantLocationChangesIfPossible
  split
  · next hnone =>
    have hnone' := length_activeWith_eq_zero_iff.1 hnone
    exact ⟨hupdating, iff_of_false (by simp) hnone', haccuracy⟩
  · next hsome =>
    have hsome' : ∃ r ∈ (m.without request).locationRequests, r.type = .significantChanges :=
      not_not.1 (mt length_activeWith_eq_zero_iff.2 hsome)
    refine ⟨hupdating, iff_of_true (h.monitoring.2 ?_) hsome', haccuracy⟩
    obtain ⟨r, hr, hr'⟩ := hsome'
    exact ⟨r, List.mem_of_mem_filter hr, hr'⟩

/-- A removal keeps the hardware as it is needed, if the requests with the ID are of the
type of the request. -/
theorem Hardware.remove {m : INTULocationManager K} (h : m.Hardware)
    {request : INTULocationRequest}
    (htype : ∀ r ∈ m.locationRequests, r.requestID = request.requestID → r.type = request.type) :
    (m.removeLocationRequest request).Hardware := by
  unfold removeLocationRequest
  dsimp only
  split
  · next hsingle => exact h.remove_updating (by simp [hsingle]) htype
  · next hsubscription => exact h.remove_updating (by simp [hsubscription]) htype
  · next hsignificant => exact h.remove_monitoring hsignificant htype

/-- The requests after one is taken up. -/
def followedBy (m : INTULocationManager K) (request : INTULocationRequest) :
    INTULocationManager K :=
  { m with locationRequests := m.locationRequests ++ [request] }

theorem exists_followedBy_iff {m : INTULocationManager K} {request : INTULocationRequest}
    {p : INTULocationRequestType → Prop} (hrequest : ¬p request.type) :
    (∃ r ∈ (m.followedBy request).locationRequests, p r.type) ↔
      ∃ r ∈ m.locationRequests, p r.type := by
  constructor
  · rintro ⟨r, hr, hp⟩
    rcases List.mem_append.1 hr with hold | hnew
    · exact ⟨r, hold, hp⟩
    · obtain rfl := List.mem_singleton.1 hnew
      exact absurd hp hrequest
  · rintro ⟨r, hr, hp⟩
    exact ⟨r, List.mem_append_left _ hr, hp⟩

/-- The hardware updates after a request that needs it. -/
theorem Hardware.takeUp_updating {m : INTULocationManager K} (h : m.Hardware)
    {request : INTULocationRequest} (hrequest : request.type ≠ .significantChanges) :
    (followedBy (m.updateWithMaximumDesiredAccuracy (max request.desiredAccuracy
      (maximumDesiredAccuracy m.activeLocationRequestsExcludingSignificantChanges))
      ).startUpdatingLocationIfNeeded request).Hardware := by
  have hneeded : ∃ r ∈ (m.followedBy request).locationRequests, r.type ≠ .significantChanges :=
    ⟨request, List.mem_append_right _ (List.mem_singleton.2 rfl), hrequest⟩
  have hmonitoring : m.isMonitoringSignificantLocationChanges = true ↔
      ∃ r ∈ (m.followedBy request).locationRequests, r.type = .significantChanges := by
    rw [h.monitoring, exists_followedBy_iff (p := (· = .significantChanges)) hrequest]
  have hactive : (m.followedBy request).activeLocationRequestsExcludingSignificantChanges =
      m.activeLocationRequestsExcludingSignificantChanges ++ [request] := by
    simp [activeLocationRequestsExcludingSignificantChanges, followedBy,
      INTULocationRequest.excludesSignificantChanges, hrequest]
  have haccuracy : ∀ accuracy, coreAccuracy (maximumDesiredAccuracy
      (m.followedBy request).activeLocationRequestsExcludingSignificantChanges) = some accuracy →
      (coreAccuracy (max request.desiredAccuracy (maximumDesiredAccuracy
        m.activeLocationRequestsExcludingSignificantChanges))).getD m.desiredAccuracy =
          accuracy := by
    intro accuracy hsome
    rw [hactive, maximumDesiredAccuracy_append] at hsome
    rw [hsome, Option.getD_some]
  unfold startUpdatingLocationIfNeeded
  split
  · exact ⟨iff_of_true rfl hneeded, hmonitoring, haccuracy⟩
  · next hsome =>
    -- it updates already, since another active request needs it
    have hupdating : m.isUpdatingLocation = true :=
      h.updating.2 (not_not.1 (mt length_activeExcluding_eq_zero_iff.2 hsome))
    exact ⟨iff_of_true hupdating hneeded, hmonitoring, haccuracy⟩

/-- The hardware monitors after a request that needs it. -/
theorem Hardware.takeUp_monitoring {m : INTULocationManager K} (h : m.Hardware)
    {request : INTULocationRequest} (hrequest : request.type = .significantChanges) :
    (followedBy m.startMonitoringSignificantLocationChangesIfNeeded request).Hardware := by
  have hneeded : ∃ r ∈ (m.followedBy request).locationRequests, r.type = .significantChanges :=
    ⟨request, List.mem_append_right _ (List.mem_singleton.2 rfl), hrequest⟩
  have hupdating : m.isUpdatingLocation = true ↔
      ∃ r ∈ (m.followedBy request).locationRequests, r.type ≠ .significantChanges := by
    rw [h.updating, exists_followedBy_iff (p := (· ≠ .significantChanges)) (not_not.2 hrequest)]
  have hactive : (m.followedBy request).activeLocationRequestsExcludingSignificantChanges =
      m.activeLocationRequestsExcludingSignificantChanges := by
    simp [activeLocationRequestsExcludingSignificantChanges, followedBy,
      INTULocationRequest.excludesSignificantChanges, hrequest]
  have haccuracy := h.accuracy
  rw [← hactive] at haccuracy
  unfold startMonitoringSignificantLocationChangesIfNeeded
  split
  · exact ⟨hupdating, iff_of_true rfl hneeded, haccuracy⟩
  · next hsome =>
    have hmonitoring : m.isMonitoringSignificantLocationChanges = true :=
      h.monitoring.2 (not_not.1 (mt length_activeWith_eq_zero_iff.2 hsome))
    exact ⟨hupdating, iff_of_true hmonitoring hneeded, haccuracy⟩

theorem locationRequests_startUpdating (m : INTULocationManager K) :
    m.startUpdatingLocationIfNeeded.locationRequests = m.locationRequests := by
  unfold startUpdatingLocationIfNeeded
  split <;> rfl

theorem locationRequests_startMonitoring (m : INTULocationManager K) :
    m.startMonitoringSignificantLocationChangesIfNeeded.locationRequests =
      m.locationRequests := by
  unfold startMonitoringSignificantLocationChangesIfNeeded
  split <;> rfl

/-- Taking up a request keeps the hardware as it is needed. -/
theorem Hardware.takeUp {m : INTULocationManager K} (h : m.Hardware)
    (request : INTULocationRequest) : (m.takeUp request).Hardware := by
  unfold INTULocationManager.takeUp
  dsimp only
  split
  · next hsingle =>
    have hneeds : request.type ≠ .significantChanges := by simp [hsingle]
    have hhardware := h.takeUp_updating hneeds
    rw [followedBy, locationRequests_startUpdating] at hhardware
    exact hhardware
  · next hsubscription =>
    have hneeds : request.type ≠ .significantChanges := by simp [hsubscription]
    have hhardware := h.takeUp_updating hneeds
    rw [followedBy, locationRequests_startUpdating] at hhardware
    exact hhardware
  · next hsignificant =>
    have hhardware := h.takeUp_monitoring hsignificant
    rw [followedBy, locationRequests_startMonitoring] at hhardware
    exact hhardware

/-- Taking up is about the requests and the hardware. -/
theorem takeUp_keeps (m : INTULocationManager K) (request : INTULocationRequest) :
    (m.takeUp request).nextRequestID = m.nextRequestID ∧
      (m.takeUp request).mainQueue = m.mainQueue ∧ SameReports m (m.takeUp request) := by
  unfold INTULocationManager.takeUp startUpdatingLocationIfNeeded
    startMonitoringSignificantLocationChangesIfNeeded updateWithMaximumDesiredAccuracy
  cases request.type with
  | single | subscription | significantChanges =>
    dsimp only
    split <;> exact ⟨rfl, rfl, rfl, rfl, rfl⟩

/-! ## Along a run -/

/-- Distinct IDs given by the counter, and the hardware as it is needed. -/
structure Sound (m : INTULocationManager K) : Prop where
  fresh : m.Fresh
  hardware : m.Hardware

/-- Of the active requests one has the ID. -/
theorem Fresh.eq_of_requestID {m : INTULocationManager K} (h : m.Fresh)
    {r r' : INTULocationRequest} (hr : r ∈ m.locationRequests) (hr' : r' ∈ m.locationRequests)
    (hid : r.requestID = r'.requestID) : r = r' :=
  List.inj_on_of_nodup_map h.nodup hr hr' hid

theorem Fresh.of_sublist {m m' : INTULocationManager K} (h : m.Fresh)
    (hsub : List.Sublist m'.locationRequests m.locationRequests)
    (hnext : m.nextRequestID ≤ m'.nextRequestID) : m'.Fresh :=
  ⟨h.nodup.sublist (hsub.map _), fun r hr => (h.le r (hsub.subset hr)).trans hnext⟩

theorem Fresh.remove {m : INTULocationManager K} (h : m.Fresh) (request : INTULocationRequest) :
    (m.removeLocationRequest request).Fresh := by
  refine h.of_sublist ?_ (removeLocationRequest_keeps m request).1.ge
  rw [locationRequests_removeLocationRequest]
  exact List.filter_sublist

/-- An active request is removed. -/
theorem Sound.remove {m : INTULocationManager K} (h : m.Sound)
    {request r : INTULocationRequest} (hactive : r ∈ m.locationRequests)
    (hid : request.requestID = r.requestID) (htype : request.type = r.type) :
    (m.removeLocationRequest request).Sound where
  fresh := h.fresh.remove request
  hardware := by
    refine h.hardware.remove fun r' hr' hid' => ?_
    rw [htype, h.fresh.eq_of_requestID hr' hactive (hid'.trans hid)]

theorem Sound.serve {m m' : INTULocationManager K} (h : m.Sound)
    {request : INTULocationRequest} (hserve : Serve P now request m m') : m'.Sound := by
  cases hserve with
  | skip => exact h
  | process =>
    exact ⟨⟨h.fresh.nodup, h.fresh.le⟩,
      ⟨h.hardware.updating, h.hardware.monitoring, h.hardware.accuracy⟩⟩
  | complete timedOut hactive hwhy =>
    have hremoved : (m.removeLocationRequest { request with timedOut := timedOut }).Sound :=
      h.remove hactive rfl rfl
    exact ⟨⟨hremoved.fresh.nodup, hremoved.fresh.le⟩, ⟨hremoved.hardware.updating,
      hremoved.hardware.monitoring, hremoved.hardware.accuracy⟩⟩

theorem Sound.serves {m m' : INTULocationManager K} (h : m.Sound)
    (hserves : Serves P now m m') : m'.Sound := by
  induction hserves with
  | refl => exact h
  | tail _ hserve ih =>
    obtain ⟨request, hserve⟩ := hserve
    exact ih.serve hserve

/-- A request that is taken up has a new ID. -/
theorem Sound.takeUp {m : INTULocationManager K} (h : m.Sound) {request : INTULocationRequest}
    (hid : request.requestID = m.nextRequestID + 1) :
    (INTULocationManager.takeUp { m with nextRequestID := m.getUniqueRequestID }
      request).Sound := by
  refine ⟨⟨h.fresh.nodup_takeUp hid, fun r hr => ?_⟩, Hardware.takeUp ?_ request⟩
  · rw [(takeUp_keeps _ request).1]
    rcases List.mem_append.1 hr with hold | hnew
    · exact (h.fresh.le r hold).trans (Nat.le_succ _)
    · obtain rfl := List.mem_singleton.1 hnew
      exact hid.le
  · exact ⟨h.hardware.updating, h.hardware.monitoring, h.hardware.accuracy⟩

/-- A request that is not taken up leaves the others as they are. -/
theorem Sound.reject {m : INTULocationManager K} (h : m.Sound) {request : INTULocationRequest}
    (hid : request.requestID = m.nextRequestID + 1) :
    (completeLocationRequest P now { m with nextRequestID := m.getUniqueRequestID }
      request).Sound := by
  have hfresh : Fresh { m with nextRequestID := m.getUniqueRequestID } :=
    h.fresh.of_sublist (List.Sublist.refl _) (Nat.le_succ _)
  have hhardware : Hardware { m with nextRequestID := m.getUniqueRequestID } :=
    ⟨h.hardware.updating, h.hardware.monitoring, h.hardware.accuracy⟩
  have hnone : ∀ r ∈ m.locationRequests, r.requestID = request.requestID →
      r.type = request.type := by
    intro r hr hid'
    have hle := h.fresh.le r hr
    omega
  have hremoved := hhardware.remove hnone
  exact ⟨⟨(hfresh.remove request).nodup, (hfresh.remove request).le⟩,
    ⟨hremoved.updating, hremoved.monitoring, hremoved.accuracy⟩⟩

/-- A manager whose requests have other timers, and other reports from Core Location. -/
theorem Sound.observe {m : INTULocationManager K} (h : m.Sound) (services : CLLocationServices)
    (updateFailed : Bool) (lastLocation : Option (CLLocation K))
    {f : INTULocationRequest → INTULocationRequest}
    (hf : ∀ r, ∃ timeoutTimer, f r = { r with timeoutTimer := timeoutTimer }) :
    Sound { m with
      services := services
      updateFailed := updateFailed
      lastLocation := lastLocation
      locationRequests := m.locationRequests.map f } := by
  have hid : ∀ r, (f r).requestID = r.requestID := fun r => by
    obtain ⟨timeoutTimer, heq⟩ := hf r
    rw [heq]
  have htype : ∀ r, (f r).type = r.type := fun r => by
    obtain ⟨timeoutTimer, heq⟩ := hf r
    rw [heq]
  have hdesired : ∀ r, (f r).desiredAccuracy = r.desiredAccuracy := fun r => by
    obtain ⟨timeoutTimer, heq⟩ := hf r
    rw [heq]
  refine ⟨⟨?_, ?_⟩, ⟨?_, ?_, ?_⟩⟩
  · have hids : (fun r => r.requestID) ∘ f = fun r => r.requestID := funext hid
    rw [List.map_map, hids]
    exact h.fresh.nodup
  · intro r hr
    obtain ⟨r', hr', rfl⟩ := List.mem_map.1 hr
    rw [hid]
    exact h.fresh.le r' hr'
  · rw [h.hardware.updating]
    simp [htype]
  · rw [h.hardware.monitoring]
    simp [htype]
  · have hactive : maximumDesiredAccuracy ((m.locationRequests.map f).filter
        (·.excludesSignificantChanges)) =
        maximumDesiredAccuracy m.activeLocationRequestsExcludingSignificantChanges := by
      have hneeds : (fun r => r.excludesSignificantChanges) ∘ f =
          fun r => r.excludesSignificantChanges := by
        funext r
        simp [INTULocationRequest.excludesSignificantChanges, htype]
      have hdesires : (fun r => r.desiredAccuracy) ∘ f = fun r => r.desiredAccuracy :=
        funext hdesired
      unfold maximumDesiredAccuracy activeLocationRequestsExcludingSignificantChanges
      rw [List.filter_map, hneeds, List.map_map, hdesires]
    intro accuracy hsome
    refine h.hardware.accuracy accuracy ?_
    rw [← hactive]
    exact hsome

/-- An event leaves the manager sound. -/
theorem Sound.step {m m' : INTULocationManager K} {e : NSTimeInterval × LocationEvent K}
    (h : m.Sound) (hstep : m.step P e = some m') : m'.Sound := by
  cases eventStep_of_step h.fresh hstep with
  | issue request hnew _ hserves => exact (h.takeUp hnew.requestID).serves hserves
  | reject request hnew hservices => exact h.reject hnew.requestID
  | cancel request hactive hasks hruns hcancels => exact h.remove hactive rfl rfl
  | serve services updateFailed lastLocation f hf hasks hcancels hruns _ hserves =>
    exact (h.observe services updateFailed lastLocation hf).serves hserves
  | run call rest he hqueue =>
    exact ⟨⟨h.fresh.nodup, h.fresh.le⟩,
      ⟨h.hardware.updating, h.hardware.monitoring, h.hardware.accuracy⟩⟩

theorem sound_init (services : CLLocationServices) :
    ({ services := services } : INTULocationManager K).Sound :=
  ⟨⟨by simp, by simp⟩, by simp, by simp, by
    simp [activeLocationRequestsExcludingSignificantChanges, maximumDesiredAccuracy, coreAccuracy]⟩

theorem sound_run (services : CLLocationServices) (es : List (NSTimeInterval × LocationEvent K)) :
    EveryState (step P) (fun _ m => m.Sound) { services := services } es :=
  everyState_of_invariant (sound_init services) (fun _ _ _ _ _ hI h => hI.step h) es

/-- The hardware runs iff an active request needs it, and if one asks for an accuracy, then
at the accuracy of the request that asks for most. -/
structure RunsAsNeeded (m : INTULocationManager K) : Prop where
  updating : m.isUpdatingLocation = true ↔
    ∃ r ∈ m.locationRequests, r.type ≠ .significantChanges
  monitoring : m.isMonitoringSignificantLocationChanges = true ↔
    ∃ r ∈ m.locationRequests, r.type = .significantChanges
  accuracy : (∃ r ∈ m.locationRequests, r.type ≠ .significantChanges ∧
      r.desiredAccuracy ≠ .none) →
    ∃ r ∈ m.locationRequests, r.type ≠ .significantChanges ∧
      coreAccuracy r.desiredAccuracy = some m.desiredAccuracy ∧
      ∀ r' ∈ m.locationRequests, r'.type ≠ .significantChanges →
        r'.desiredAccuracy ≤ r.desiredAccuracy

theorem mem_activeExcluding_iff {m : INTULocationManager K} {r : INTULocationRequest} :
    r ∈ m.activeLocationRequestsExcludingSignificantChanges ↔
      r ∈ m.locationRequests ∧ r.type ≠ .significantChanges := by
  simp [activeLocationRequestsExcludingSignificantChanges,
    INTULocationRequest.excludesSignificantChanges]

/-- Nothing is below `none`. -/
theorem eq_none_of_le_none {accuracy : INTULocationAccuracy} (h : accuracy ≤ .none) :
    accuracy = .none := by
  have hzero := le_iff_rawValue.1 h
  cases accuracy <;> first | rfl | simp [rawValue] at hzero

theorem exists_coreAccuracy {accuracy : INTULocationAccuracy} (h : accuracy ≠ .none) :
    ∃ core, coreAccuracy accuracy = some core := by
  cases accuracy with
  | none => exact absurd rfl h
  | _ => exact ⟨_, rfl⟩

theorem Hardware.runsAsNeeded {m : INTULocationManager K} (h : m.Hardware) : m.RunsAsNeeded where
  updating := h.updating
  monitoring := h.monitoring
  accuracy := by
    rintro ⟨r, hr, htype, hdesired⟩
    obtain ⟨hle, hattained⟩ :=
      maximumDesiredAccuracy_spec m.activeLocationRequestsExcludingSignificantChanges
    have hsome : maximumDesiredAccuracy m.activeLocationRequestsExcludingSignificantChanges ≠
        .none := by
      intro hnone
      have hlow := hle r (mem_activeExcluding_iff.2 ⟨hr, htype⟩)
      rw [hnone] at hlow
      exact hdesired (eq_none_of_le_none hlow)
    obtain ⟨r', hr', hmax⟩ := hattained.resolve_left hsome
    obtain ⟨core, hcore⟩ := exists_coreAccuracy hsome
    obtain ⟨hactive, hneeds⟩ := mem_activeExcluding_iff.1 hr'
    refine ⟨r', hactive, hneeds, ?_, fun r'' hr'' hneeds'' => ?_⟩
    · rw [hmax, hcore, h.accuracy core hcore]
    · rw [hmax]
      exact hle r'' (mem_activeExcluding_iff.2 ⟨hr'', hneeds''⟩)

/-- The hardware runs as needed along every run of the manager. -/
theorem hardware_run (services : CLLocationServices)
    (es : List (NSTimeInterval × LocationEvent K)) :
    EveryState (step P) (fun _ m => m.RunsAsNeeded) { services := services } es :=
  (sound_run services es).mono fun _ _ h => h.hardware.runsAsNeeded

end ConfFriends.Pods.INTULocationManager
