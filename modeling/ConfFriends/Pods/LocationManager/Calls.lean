import ConfFriends.Transition.History
import ConfFriends.Pods.LocationManager.Hardware

/-!
# Every single request is answered once

A single request ends in one of two ways : its block is called, or it is cancelled while
it is active. So at any time a request is active, or cancelled, or its block has been put
on the main queue, once, and exactly one of the three holds (`answered_once`). A cancel
that comes after the block has been put on the main queue is of no active request, and the
block still runs. There are many ways to get to the call : the request can be rejected,
satisfied at once or by a later location, fail, time out in a loop or by its timer, be
forced to complete, or services can be denied. And the call tells the truth : a request
that succeeds gets a location that was as accurate and as recent as it desired when the
call was put on the main queue (`success_achieves`).
-/

set_option linter.unusedSectionVars false

open Relation Transition

namespace ConfFriends.Pods.INTULocationManager

variable {K : Type*} [DecidableEq K] [Zero K] {P : Platform K} {now : NSTimeInterval}

/-! ## The past of a manager -/

/-- What has happened to the requests. -/
structure Past (K : Type*) where
  /-- The single requests, each with its desired accuracy. -/
  asked : List (ℕ × INTULocationAccuracy) := []
  /-- The requests that were cancelled while they were active. -/
  cancelled : List ℕ := []
  /-- The calls of blocks that the main queue has run. -/
  called : List (QueuedCall K) := []

/-- The past after an event. -/
def Past.next (m : INTULocationManager K) (e : NSTimeInterval × LocationEvent K)
    (past : Past K) : Past K where
  asked := past.asked ++ (e.2.asks m).toList
  cancelled := past.cancelled ++ (e.2.cancels m).toList
  called := past.called ++ (e.2.runs m).toList

/-- The past of a run. -/
def past (P : Platform K) (services : CLLocationServices) :
    List (NSTimeInterval × LocationEvent K) → Past K :=
  track (step P) Past.next {} { services := services }

/-- The calls that have run or wait on the main queue. -/
def Past.calls (past : Past K) (m : INTULocationManager K) : List (QueuedCall K) :=
  past.called ++ m.mainQueue

def activeIDs (m : INTULocationManager K) : List ℕ :=
  m.locationRequests.map (·.requestID)

/-- The times that a request is answered, active or cancelled. -/
def ends (past : Past K) (m : INTULocationManager K) (requestID : ℕ) : ℕ :=
  ((past.calls m).map (·.requestID)).count requestID + m.activeIDs.count requestID +
    past.cancelled.count requestID

/-- The call has a location that at the time is as accurate and as recent as the level asks
for, and tells of no lower level. -/
def Achieves (now : NSTimeInterval) (accuracy : INTULocationAccuracy) (call : QueuedCall K) :
    Prop :=
  ∃ location, call.currentLocation = some location ∧ location.reaches now accuracy = true ∧
    accuracy ≤ call.achievedAccuracy

/-- The calls that an event puts on the main queue. -/
def puts (P : Platform K) (m : INTULocationManager K) (e : NSTimeInterval × LocationEvent K) :
    List (QueuedCall K) :=
  (m.step P e).elim [] fun m' => m'.mainQueue.drop m.mainQueue.length

/-! ## The invariant -/

/-- The single requests are balanced. -/
structure Balanced (past : Past K) (m : INTULocationManager K) : Prop where
  sound : m.Sound
  balance : ∀ p ∈ past.asked, ends past m p.1 = 1
  askedOnce : (past.asked.map Prod.fst).Nodup
  single : ∀ r ∈ m.locationRequests, r.type = .single →
    (r.requestID, r.desiredAccuracy) ∈ past.asked
  recurring : ∀ r ∈ m.locationRequests, r.type ≠ .single → ∀ p ∈ past.asked, p.1 ≠ r.requestID
  given : ∀ requestID, requestID ∈ past.asked.map Prod.fst ∨
    requestID ∈ (past.calls m).map (·.requestID) ∨ requestID ∈ past.cancelled →
      requestID ≤ m.nextRequestID

/-- The IDs after a removal. -/
theorem activeIDs_removeLocationRequest (m : INTULocationManager K)
    (request : INTULocationRequest) :
    (m.removeLocationRequest request).activeIDs = m.activeIDs.filter (· ≠ request.requestID) := by
  unfold activeIDs
  rw [locationRequests_removeLocationRequest, List.filter_map]
  rfl

/-- A removed request is not active any more, and the others stay. -/
theorem count_activeIDs_remove {m : INTULocationManager K} (h : m.Fresh)
    {request : INTULocationRequest} (hactive : request.requestID ∈ m.activeIDs) (requestID : ℕ) :
    (m.removeLocationRequest request).activeIDs.count requestID +
      (if requestID = request.requestID then 1 else 0) = m.activeIDs.count requestID := by
  rw [activeIDs_removeLocationRequest]
  split
  · next heq =>
    subst heq
    have hone : m.activeIDs.count request.requestID = 1 :=
      List.count_eq_one_of_mem h.nodup hactive
    rw [hone, List.count_eq_zero_of_not_mem (by simp)]
  · next hne =>
    rw [List.count_filter]
    · rfl
    · simpa using hne

/-- The level that is achieved is the best one that the location reaches. -/
theorem le_achievedAccuracy {location : CLLocation K} {accuracy : INTULocationAccuracy}
    (h : location.reaches now accuracy = true) :
    accuracy ≤ achievedAccuracyForLocation now (some location) := by
  rw [le_iff_rawValue]
  unfold achievedAccuracyForLocation
  dsimp only
  cases accuracy <;> split_ifs <;> simp_all [rawValue]

/-- The call of a satisfied request achieves what it desired. -/
theorem Satisfies.achieves {m : INTULocationManager K} {request r : INTULocationRequest}
    (h : Satisfies P now m request) :
    Achieves now request.desiredAccuracy (m.queuedCall P now r) := by
  obtain ⟨location, hlocation, hreaches⟩ := h
  refine ⟨location, hlocation, hreaches, ?_⟩
  unfold queuedCall
  dsimp only
  rw [hlocation]
  exact le_achievedAccuracy hreaches

/-- One more call waits on the main queue. -/
theorem calls_of_append {past : Past K} {m m' : INTULocationManager K} {call : QueuedCall K}
    (h : m'.mainQueue = m.mainQueue ++ [call]) : past.calls m' = past.calls m ++ [call] := by
  unfold Past.calls
  rw [h, List.append_assoc]

/-- A call of an ID more. -/
theorem count_calls_append (calls : List (QueuedCall K)) (call : QueuedCall K) (requestID : ℕ) :
    ((calls ++ [call]).map (·.requestID)).count requestID =
      (calls.map (·.requestID)).count requestID +
        (if requestID = call.requestID then 1 else 0) := by
  rw [List.map_append, List.count_append, List.map_singleton, List.count_singleton]
  simp only [beq_iff_eq, eq_comm (a := requestID)]

/-! ## Serving -/

/-- The block of a recurring request is called. -/
theorem Balanced.process {past : Past K} {m : INTULocationManager K} (h : Balanced past m)
    {request : INTULocationRequest} (hactive : request ∈ m.locationRequests)
    (hrecurring : request.isRecurring = true) :
    Balanced past (m.processRecurringRequest P now request) := by
  have hcalls : past.calls (m.processRecurringRequest P now request) =
      past.calls m ++ [m.queuedCall P now request] := calls_of_append rfl
  have htype : request.type ≠ .single := by
    intro hsingle
    simp [INTULocationRequest.isRecurring, hsingle] at hrecurring
  have hother := h.recurring request hactive htype
  refine ⟨h.sound.serve (.process hactive hrecurring), fun p hp => ?_, h.askedOnce, h.single,
    h.recurring, fun requestID hid => ?_⟩
  · have hne : p.1 ≠ (m.queuedCall P now request).requestID := hother p hp
    unfold ends
    rw [hcalls, count_calls_append, if_neg hne]
    exact h.balance p hp
  · rw [hcalls, List.map_append, List.mem_append] at hid
    rcases hid with hasked | (hold | hnew) | hcancelled
    · exact h.given requestID (Or.inl hasked)
    · exact h.given requestID (Or.inr (Or.inl hold))
    · obtain rfl := List.mem_singleton.1 hnew
      exact h.sound.fresh.le request hactive
    · exact h.given requestID (Or.inr (Or.inr hcancelled))

/-- A request is completed. -/
theorem Balanced.complete {past : Past K} {m : INTULocationManager K} (h : Balanced past m)
    {request : INTULocationRequest} {timedOut : Bool} (hactive : request ∈ m.locationRequests)
    (hwhy : m.statusForLocationRequest now { request with timedOut := timedOut }.complete =
      .success → request.type = .single → Satisfies P now m request) :
    Balanced past (m.completeLocationRequest P now { request with timedOut := timedOut }) := by
  set r : INTULocationRequest := { request with timedOut := timedOut } with hr
  have hcalls : past.calls (m.completeLocationRequest P now r) =
      past.calls m ++ [m.queuedCall P now r.complete] :=
    calls_of_append (mainQueue_completeLocationRequest m r)
  have hmem : ∀ r', r' ∈ (m.completeLocationRequest P now r).locationRequests →
      r' ∈ m.locationRequests := by
    intro r' hr'
    rw [locationRequests_completeLocationRequest] at hr'
    exact List.mem_of_mem_filter hr'
  have hnext : (m.completeLocationRequest P now r).nextRequestID = m.nextRequestID :=
    nextRequestID_completeLocationRequest m r
  refine ⟨h.sound.serve (.complete timedOut hactive hwhy), fun p hp => ?_, h.askedOnce,
    fun r' hr' => h.single r' (hmem r' hr'), fun r' hr' => h.recurring r' (hmem r' hr'),
    fun requestID hid => ?_⟩
  · -- the request is one call more, and not active any more
    have hmember : r.requestID ∈ m.activeIDs := List.mem_map.2 ⟨request, hactive, rfl⟩
    have hcount := count_activeIDs_remove h.sound.fresh hmember p.1
    have hends := h.balance p hp
    unfold ends at hends ⊢
    have hids : (m.completeLocationRequest P now r).activeIDs =
        (m.removeLocationRequest r).activeIDs := rfl
    rw [hcalls, count_calls_append, hids]
    have hcall : (m.queuedCall P now r.complete).requestID = r.requestID := rfl
    rw [hcall]
    omega
  · rw [hnext]
    rw [hcalls, List.map_append, List.mem_append] at hid
    rcases hid with hasked | (hold | hnew) | hcancelled
    · exact h.given requestID (Or.inl hasked)
    · exact h.given requestID (Or.inr (Or.inl hold))
    · obtain rfl := List.mem_singleton.1 hnew
      exact h.sound.fresh.le request hactive
    · exact h.given requestID (Or.inr (Or.inr hcancelled))

theorem Balanced.serve {past : Past K} {m m' : INTULocationManager K} (h : Balanced past m)
    {request : INTULocationRequest} (hserve : Serve P now request m m') : Balanced past m' := by
  cases hserve with
  | skip => exact h
  | process hactive hrecurring => exact h.process hactive hrecurring
  | complete timedOut hactive hwhy => exact h.complete hactive hwhy

theorem Balanced.serves {past : Past K} {m m' : INTULocationManager K} (h : Balanced past m)
    (hserves : Serves P now m m') : Balanced past m' := by
  induction hserves with
  | refl => exact h
  | tail _ hserve ih =>
    obtain ⟨request, hserve⟩ := hserve
    exact ih.serve hserve

/-! ## New requests -/

/-- An ID that has not been given is nowhere. -/
theorem Balanced.unused {past : Past K} {m : INTULocationManager K} (h : Balanced past m)
    {requestID : ℕ} (hid : requestID = m.nextRequestID + 1) :
    ends past m requestID = 0 ∧ (∀ p ∈ past.asked, p.1 ≠ requestID) ∧
      (∀ call ∈ past.calls m, call.requestID ≠ requestID) ∧
      ∀ r ∈ m.locationRequests, r.requestID ≠ requestID := by
  have hgiven := h.given requestID
  have hactive : ∀ r ∈ m.locationRequests, r.requestID ≠ requestID := by
    intro r hr heq
    have hle := h.sound.fresh.le r hr
    omega
  have hnot : ¬(requestID ∈ past.asked.map Prod.fst ∨
      requestID ∈ (past.calls m).map (·.requestID) ∨ requestID ∈ past.cancelled) := by
    intro hmem
    have hle := hgiven hmem
    omega
  simp only [not_or] at hnot
  obtain ⟨hasked, hcalls, hcancelled⟩ := hnot
  refine ⟨?_, fun p hp heq => hasked (List.mem_map.2 ⟨p, hp, heq⟩),
    fun call hcall heq => hcalls (List.mem_map.2 ⟨call, hcall, heq⟩), hactive⟩
  have hinactive : requestID ∉ m.activeIDs := by
    intro hmem
    obtain ⟨r, hr, heq⟩ := List.mem_map.1 hmem
    exact hactive r hr heq
  unfold ends
  rw [List.count_eq_zero_of_not_mem hcalls, List.count_eq_zero_of_not_mem hinactive,
    List.count_eq_zero_of_not_mem hcancelled]

/-- IDs that are all the same. -/
theorem count_of_forall_eq (ids : List ℕ) {a : ℕ} (h : ∀ b ∈ ids, b = a) (b : ℕ) :
    ids.count b = if b = a then ids.length else 0 := by
  split
  · next heq =>
    subst heq
    exact List.count_eq_length.2 fun c hc => (h c hc).symm
  · next hne => exact List.count_eq_zero_of_not_mem fun hmem => hne (h b hmem)

/-- A new request is either active or answered. -/
theorem Balanced.ask {past : Past K} {m m' : INTULocationManager K} {e : LocationEvent K}
    (h : Balanced past m) {request : INTULocationRequest} (hnew : NewRequest m e request)
    (hsound : m'.Sound) (hnext : m'.nextRequestID = m.nextRequestID + 1)
    (calls : List (QueuedCall K)) (active : List INTULocationRequest)
    (hqueue : m'.mainQueue = m.mainQueue ++ calls)
    (hcalls : ∀ call ∈ calls, call.requestID = request.requestID)
    (hrequests : m'.locationRequests = m.locationRequests ++ active)
    (hactive : ∀ r ∈ active, r = request) (hone : calls.length + active.length = 1) :
    Balanced { past with asked := past.asked ++ (e.asks m).toList } m' := by
  obtain ⟨hnowhere, hasked, hcalled, hothers⟩ := h.unused hnew.requestID
  have hpast : Past.calls { past with asked := past.asked ++ (e.asks m).toList } m' =
      past.calls m ++ calls := by
    unfold Past.calls
    rw [hqueue, List.append_assoc]
  have hasks : ∀ p ∈ (e.asks m).toList, request.type = .single ∧
      p = (request.requestID, request.desiredAccuracy) := by
    intro p hp
    have hp' := Option.mem_toList.1 hp
    rw [hnew.asks] at hp'
    split at hp'
    · next hsingle => exact ⟨hsingle, (Option.some.inj hp').symm⟩
    · simp at hp'
  have hends : ∀ requestID, ends { past with asked := past.asked ++ (e.asks m).toList } m'
      requestID = ends past m requestID + if requestID = request.requestID then 1 else 0 := by
    intro requestID
    have hcallIDs := count_of_forall_eq (calls.map (·.requestID)) (a := request.requestID)
      (by simpa using hcalls) requestID
    have hactiveIDs := count_of_forall_eq (active.map (·.requestID)) (a := request.requestID)
      (by simpa using fun r hr => by rw [hactive r hr]) requestID
    unfold ends activeIDs
    rw [hpast, hrequests, List.map_append, List.map_append, List.count_append, List.count_append,
      hcallIDs, hactiveIDs, List.length_map, List.length_map]
    dsimp only
    split_ifs <;> omega
  refine ⟨hsound, fun p hp => ?_, ?_, fun r hr htype => ?_, fun r hr htype p hp => ?_,
    fun requestID hid => ?_⟩
  · rw [hends]
    rcases List.mem_append.1 hp with hold | hlast
    · rw [if_neg (hasked p hold)]
      exact h.balance p hold
    · obtain ⟨-, rfl⟩ := hasks p hlast
      rw [if_pos rfl, hnowhere]
  · rw [List.map_append, List.nodup_append]
    refine ⟨h.askedOnce, ?_, ?_⟩
    · cases e.asks m <;> simp
    · rintro _ hold _ hlast rfl
      obtain ⟨p, hp, rfl⟩ := List.mem_map.1 hold
      obtain ⟨p', hp', heq⟩ := List.mem_map.1 hlast
      obtain ⟨-, rfl⟩ := hasks p' hp'
      exact hasked p hp heq.symm
  · rw [hrequests] at hr
    rcases List.mem_append.1 hr with hold | hlast
    · exact List.mem_append_left _ (h.single r hold htype)
    · obtain rfl := hactive r hlast
      refine List.mem_append_right _ (Option.mem_toList.2 ?_)
      rw [hnew.asks, if_pos htype]
  · rw [hrequests] at hr
    rcases List.mem_append.1 hr with hold | hlast <;> rcases List.mem_append.1 hp with hp | hp
    · exact h.recurring r hold htype p hp
    · obtain ⟨-, rfl⟩ := hasks p hp
      exact (hothers r hold).symm
    · obtain rfl := hactive r hlast
      exact hasked p hp
    · obtain rfl := hactive r hlast
      exact absurd (hasks p hp).1 htype
  · rw [hnext]
    by_cases hlast : requestID = request.requestID
    · exact (hlast.trans hnew.requestID).le
    · refine (h.given requestID ?_).trans (Nat.le_succ _)
      rcases hid with hid | hid | hid
      · obtain ⟨p, hp, rfl⟩ := List.mem_map.1 hid
        rcases List.mem_append.1 hp with hold | hnew'
        · exact Or.inl (List.mem_map_of_mem hold)
        · obtain ⟨-, rfl⟩ := hasks p hnew'
          exact absurd rfl hlast
      · rw [hpast] at hid
        obtain ⟨call, hcall, rfl⟩ := List.mem_map.1 hid
        rcases List.mem_append.1 hcall with hold | hnew'
        · exact Or.inr (Or.inl (List.mem_map_of_mem hold))
        · exact absurd (hcalls call hnew') hlast
      · exact Or.inr (Or.inr hid)

/-! ## Along a run -/

/-- Who reports what makes no difference to the balance. -/
theorem Balanced.observe {past : Past K} {m : INTULocationManager K} (h : Balanced past m)
    (services : CLLocationServices) (updateFailed : Bool) (lastLocation : Option (CLLocation K))
    {f : INTULocationRequest → INTULocationRequest}
    (hf : ∀ r, ∃ timeoutTimer, f r = { r with timeoutTimer := timeoutTimer }) :
    Balanced past { m with
      services := services
      updateFailed := updateFailed
      lastLocation := lastLocation
      locationRequests := m.locationRequests.map f } := by
  have hids : ∀ r, (f r).requestID = r.requestID ∧ (f r).type = r.type ∧
      (f r).desiredAccuracy = r.desiredAccuracy := fun r => by
    obtain ⟨timeoutTimer, heq⟩ := hf r
    rw [heq]
    exact ⟨rfl, rfl, rfl⟩
  refine ⟨h.sound.observe services updateFailed lastLocation hf, fun p hp => ?_, h.askedOnce,
    fun r hr htype => ?_, fun r hr htype => ?_, h.given⟩
  · have hactive : (m.locationRequests.map f).map (·.requestID) = m.activeIDs := by
      rw [List.map_map]
      exact List.map_congr_left fun r _ => (hids r).1
    have hends := h.balance p hp
    unfold ends activeIDs at hends ⊢
    dsimp only
    rw [hactive]
    exact hends
  · obtain ⟨r', hr', rfl⟩ := List.mem_map.1 hr
    rw [(hids r').1, (hids r').2.2]
    exact h.single r' hr' ((hids r').2.1.symm.trans htype)
  · obtain ⟨r', hr', rfl⟩ := List.mem_map.1 hr
    rw [(hids r').1]
    exact h.recurring r' hr' fun hsingle => htype ((hids r').2.1.trans hsingle)

/-- A cancelled request is not active any more. -/
theorem Balanced.cancel {past : Past K} {m : INTULocationManager K} (h : Balanced past m)
    {request : INTULocationRequest} (hactive : request ∈ m.locationRequests)
    {cancelled : List ℕ} (hcancelled : cancelled = [request.requestID] ∨
      cancelled = [] ∧ request.isRecurring = true) :
    Balanced { past with cancelled := past.cancelled ++ cancelled }
      (m.removeLocationRequest request) := by
  obtain ⟨hnext, hqueue, -⟩ := removeLocationRequest_keeps m request
  have hcalls : Past.calls { past with cancelled := past.cancelled ++ cancelled }
      (m.removeLocationRequest request) = past.calls m := by
    unfold Past.calls
    rw [hqueue]
  have hmem : ∀ r ∈ (m.removeLocationRequest request).locationRequests,
      r ∈ m.locationRequests := fun r hr => (mem_removeLocationRequest.1 hr).1
  refine ⟨h.sound.remove hactive rfl rfl, fun p hp => ?_, h.askedOnce,
    fun r hr => h.single r (hmem r hr), fun r hr => h.recurring r (hmem r hr),
    fun requestID hid => ?_⟩
  · have hcount := count_activeIDs_remove h.sound.fresh (List.mem_map_of_mem hactive) p.1
    have hends := h.balance p hp
    unfold ends at hends ⊢
    rw [hcalls, List.count_append]
    rcases hcancelled with rfl | ⟨rfl, hrecurring⟩
    · rw [List.count_singleton]
      simp only [beq_iff_eq, eq_comm (b := p.1)]
      omega
    · have hne : p.1 ≠ request.requestID := by
        refine h.recurring request hactive ?_ p hp
        intro hsingle
        simp [INTULocationRequest.isRecurring, hsingle] at hrecurring
      rw [if_neg hne] at hcount
      rw [List.count_nil]
      omega
  · rw [hnext]
    rw [hcalls] at hid
    rcases hid with hid | hid | hid
    · exact h.given requestID (Or.inl hid)
    · exact h.given requestID (Or.inr (Or.inl hid))
    · rcases List.mem_append.1 hid with hold | hlast
      · exact h.given requestID (Or.inr (Or.inr hold))
      · rcases hcancelled with rfl | ⟨rfl, -⟩
        · obtain rfl := List.mem_singleton.1 hlast
          exact h.sound.fresh.le request hactive
        · simp at hlast

/-- A call that has run is still a call. -/
theorem Balanced.run {past : Past K} {m : INTULocationManager K} (h : Balanced past m)
    {call : QueuedCall K} {rest : List (QueuedCall K)} (hqueue : m.mainQueue = call :: rest)
    (hsound : Sound { m with mainQueue := rest }) :
    Balanced { past with called := past.called ++ [call] } { m with mainQueue := rest } := by
  have hcalls : Past.calls { past with called := past.called ++ [call] }
      { m with mainQueue := rest } = past.calls m := by
    unfold Past.calls
    rw [hqueue, List.append_assoc]
    rfl
  refine ⟨hsound, fun p hp => ?_, h.askedOnce, h.single, h.recurring, fun requestID hid => ?_⟩
  · have hends := h.balance p hp
    unfold ends at hends ⊢
    rw [hcalls]
    exact hends
  · rw [hcalls] at hid
    exact h.given requestID hid

/-- The past after an event that runs no call. -/
theorem Past.next_eq {past : Past K} {m : INTULocationManager K}
    {e : NSTimeInterval × LocationEvent K} (hruns : e.2.runs m = none) :
    past.next m e = { past with
      asked := past.asked ++ (e.2.asks m).toList
      cancelled := past.cancelled ++ (e.2.cancels m).toList } := by
  simp [Past.next, hruns]

/-- What an event does to the balance and to the main queue. -/
inductive Served (P : Platform K) (past : Past K) (m : INTULocationManager K)
    (e : NSTimeInterval × LocationEvent K) (m' : INTULocationManager K) : Prop
  /-- Requests are served. -/
  | serves (hruns : e.2.runs m = none) (m₀ : INTULocationManager K)
    (hbalanced : Balanced (past.next m e) m₀) (hqueue : m₀.mainQueue = m.mainQueue)
    (hserves : Serves P e.1 m₀ m')
  /-- A new request is rejected. -/
  | reject (hruns : e.2.runs m = none) (hbalanced : Balanced (past.next m e) m')
    (call : QueuedCall K) (hqueue : m'.mainQueue = m.mainQueue ++ [call])
    (hstatus : call.status ≠ .success)
  /-- A call runs. -/
  | run (call : QueuedCall K) (hruns : e.2.runs m = some call)
    (hqueue : m.mainQueue = call :: m'.mainQueue) (hbalanced : Balanced (past.next m e) m')

/-- The inversion of `step` with the balance. -/
theorem Balanced.served {past : Past K} {m m' : INTULocationManager K}
    {e : NSTimeInterval × LocationEvent K} (h : Balanced past m)
    (hstep : m.step P e = some m') : Served P past m e m' := by
  have hs := h.sound.step hstep
  cases eventStep_of_step h.sound.fresh hstep with
  | issue request hnew _ hserves =>
    obtain ⟨hnext, hqueue, -⟩ :=
      takeUp_keeps { m with nextRequestID := m.getUniqueRequestID } request
    refine .serves hnew.runs _ ?_ hqueue hserves
    rw [Past.next_eq hnew.runs, hnew.cancels, Option.toList_none, List.append_nil]
    exact h.ask hnew (h.sound.takeUp hnew.requestID) hnext [] [request]
      (hqueue.trans (List.append_nil _).symm) (by simp) rfl (by simp) rfl
  | reject request hnew hservices =>
    have hqueue : (completeLocationRequest P e.1 { m with nextRequestID := m.getUniqueRequestID }
        request).mainQueue = _ := mainQueue_completeLocationRequest _ request
    have hrequests : (completeLocationRequest P e.1
        { m with nextRequestID := m.getUniqueRequestID } request).locationRequests = _ :=
      locationRequests_completeLocationRequest _ request
    have hkept : m.locationRequests.filter (·.requestID ≠ request.requestID) =
        m.locationRequests ++ [] := by
      rw [List.append_nil, List.filter_eq_self]
      exact fun r hr => decide_eq_true ((h.unused hnew.requestID).2.2.2 r hr)
    refine .reject hnew.runs ?_ _ hqueue (status_ne_success_of_services
      (m := { m with nextRequestID := m.getUniqueRequestID }) hservices _)
    rw [Past.next_eq hnew.runs, hnew.cancels, Option.toList_none, List.append_nil]
    refine h.ask hnew hs (nextRequestID_completeLocationRequest _ request) _ []
      hqueue (fun call hcall => ?_) (hrequests.trans hkept) (by simp) rfl
    obtain rfl := List.mem_singleton.1 hcall
    rfl
  | cancel request hactive hasks hruns hcancels =>
    refine .serves hruns _ ?_ (removeLocationRequest_keeps m request).2.1 .refl
    rw [Past.next_eq hruns, hasks, Option.toList_none, List.append_nil]
    refine h.cancel hactive ?_
    rcases hcancels with hcancels | ⟨hcancels, hrecurring⟩
    · exact Or.inl (by rw [hcancels]; rfl)
    · exact Or.inr ⟨by rw [hcancels]; rfl, hrecurring⟩
  | serve services updateFailed lastLocation f hf hasks hcancels hruns _ hserves =>
    have hbalanced := h.observe services updateFailed lastLocation hf
    refine .serves hruns _ ?_ (by rfl) hserves
    rw [Past.next_eq hruns]
    simpa only [hasks, hcancels, Option.toList_none, List.append_nil] using hbalanced
  | run call rest he hqueue =>
    have hruns : e.2.runs m = some call := by simp [he, LocationEvent.runs, hqueue]
    have hnext : past.next m e = { past with called := past.called ++ [call] } := by
      simp [Past.next, he, LocationEvent.asks, LocationEvent.cancels, LocationEvent.runs, hqueue]
    refine .run call hruns hqueue ?_
    rw [hnext]
    exact h.run hqueue hs

/-- An event keeps the balance. -/
theorem Balanced.step {past : Past K} {m m' : INTULocationManager K}
    {e : NSTimeInterval × LocationEvent K} (h : Balanced past m)
    (hstep : m.step P e = some m') : Balanced (past.next m e) m' := by
  cases h.served hstep with
  | serves hruns m₀ hbalanced hqueue hserves => exact hbalanced.serves hserves
  | reject hruns hbalanced => exact hbalanced
  | run call hruns hqueue hbalanced => exact hbalanced

theorem balanced_init (services : CLLocationServices) :
    Balanced {} ({ services := services } : INTULocationManager K) where
  sound := sound_init services
  balance := by simp
  askedOnce := by simp
  single := by simp
  recurring := by simp
  given := by simp [Past.calls]

theorem balanced_run (services : CLLocationServices)
    (es : List (NSTimeInterval × LocationEvent K)) :
    EveryState (step P) (fun pre m => Balanced (past P services pre) m)
      { services := services } es := by
  refine everyState_of_invariant (balanced_init services) ?_ es
  intro pre m e m' hpre hI h
  have hpast : past P services (pre ++ [e]) = (past P services pre).next m e :=
    track_snoc Past.next e pre {} { services := services } hpre h
  rw [hpast]
  exact hI.step h

/-- Along every run each single request is either active, or was cancelled while it was, or
its block has been called or is about to be, once. -/
theorem answered_once (services : CLLocationServices)
    (es : List (NSTimeInterval × LocationEvent K)) :
    EveryState (step P) (fun pre m => ∀ p ∈ (past P services pre).asked,
        (((past P services pre).calls m).map (·.requestID)).count p.1 +
          (m.locationRequests.map (·.requestID)).count p.1 +
          (past P services pre).cancelled.count p.1 = 1)
      { services := services } es :=
  (balanced_run services es).mono fun _ _ h => h.balance

/-! ## Successful calls -/

/-- A call of a single request that succeeds at the time achieves what the request desired. -/
def Truthful (past : Past K) (now : NSTimeInterval) (call : QueuedCall K) : Prop :=
  ∀ p ∈ past.asked, call.requestID = p.1 → call.status = .success → Achieves now p.2 call

/-- What a loop does for an active request puts truthful calls on the main queue. -/
theorem Balanced.truthful_serve {past : Past K} {m m' : INTULocationManager K}
    (h : Balanced past m) {request : INTULocationRequest} (hserve : Serve P now request m m') :
    ∃ calls, m'.mainQueue = m.mainQueue ++ calls ∧ ∀ call ∈ calls, Truthful past now call := by
  cases hserve with
  | skip => exact ⟨[], (List.append_nil _).symm, by simp⟩
  | process hactive hrecurring =>
    refine ⟨[m.queuedCall P now request], rfl, fun call hcall p hp hid => ?_⟩
    obtain rfl := List.mem_singleton.1 hcall
    have htype : request.type ≠ .single := by
      intro hsingle
      simp [INTULocationRequest.isRecurring, hsingle] at hrecurring
    exact absurd hid.symm (h.recurring request hactive htype p hp)
  | complete timedOut hactive hwhy =>
    refine ⟨_, mainQueue_completeLocationRequest m _, fun call hcall p hp hid hstatus => ?_⟩
    obtain rfl := List.mem_singleton.1 hcall
    have hsame : p.1 = request.requestID := hid.symm
    by_cases htype : request.type = .single
    · -- the request desired what the past says, since it was asked once
      have hasked := h.single request hactive htype
      have hp' : p = (request.requestID, request.desiredAccuracy) :=
        List.inj_on_of_nodup_map h.askedOnce hp hasked hsame
      rw [hp']
      exact (hwhy hstatus htype).achieves
    · exact absurd hsame (h.recurring request hactive htype p hp)

theorem Balanced.truthful_serves {past : Past K} {m m' : INTULocationManager K}
    (h : Balanced past m) (hserves : Serves P now m m') :
    ∃ calls, m'.mainQueue = m.mainQueue ++ calls ∧ ∀ call ∈ calls, Truthful past now call := by
  induction hserves with
  | refl => exact ⟨[], (List.append_nil _).symm, by simp⟩
  | tail hbefore hserve ih =>
    obtain ⟨request, hserve⟩ := hserve
    obtain ⟨calls, hqueue, hcalls⟩ := ih
    obtain ⟨calls', hqueue', hcalls'⟩ := (h.serves hbefore).truthful_serve hserve
    refine ⟨calls ++ calls', by rw [hqueue', hqueue, List.append_assoc], fun call hcall => ?_⟩
    exact (List.mem_append.1 hcall).elim (hcalls call) (hcalls' call)

theorem puts_of_append {m m' : INTULocationManager K} {e : NSTimeInterval × LocationEvent K}
    {calls : List (QueuedCall K)} (hstep : m.step P e = some m')
    (hqueue : m'.mainQueue = m.mainQueue ++ calls) : m.puts P e = calls := by
  rw [puts, hstep, Option.elim_some, hqueue, List.drop_left]

/-- A new request gets the next ID. -/
theorem asks_eq_some {m : INTULocationManager K} {e : LocationEvent K}
    {p : ℕ × INTULocationAccuracy} (h : e.asks m = some p) : p.1 = m.nextRequestID + 1 := by
  cases e with
  | requestLocation desiredAccuracy timeout delayUntilAuthorized =>
    obtain rfl := Option.some.inj h
    rfl
  | _ => simp [LocationEvent.asks] at h

/-- The calls that an event puts on the main queue come last, and are truthful. -/
theorem Balanced.truthful_step {past : Past K} {m m' : INTULocationManager K}
    {e : NSTimeInterval × LocationEvent K} (h : Balanced past m)
    (hstep : m.step P e = some m') :
    (past.next m e).calls m' = past.calls m ++ m.puts P e ∧
      ∀ call ∈ m.puts P e, Truthful (past.next m e) e.1 call := by
  have happend : ∀ calls, e.2.runs m = none → m'.mainQueue = m.mainQueue ++ calls →
      (past.next m e).calls m' = past.calls m ++ calls := by
    intro calls hruns hqueue
    simp [Past.calls, Past.next, hruns, hqueue]
  cases h.served hstep with
  | serves hruns m₀ hbalanced hqueue hserves =>
    obtain ⟨calls, hcalls, htruthful⟩ := hbalanced.truthful_serves hserves
    rw [hqueue] at hcalls
    rw [puts_of_append hstep hcalls]
    exact ⟨happend calls hruns hcalls, htruthful⟩
  | reject hruns hbalanced call hqueue hstatus =>
    rw [puts_of_append hstep hqueue]
    refine ⟨happend [call] hruns hqueue, fun call' hcall' p hp hid hsuccess => ?_⟩
    obtain rfl := List.mem_singleton.1 hcall'
    exact absurd hsuccess hstatus
  | run call hruns hqueue hbalanced =>
    have hnone : m.puts P e = [] := by
      simp [puts, hstep, hqueue]
    rw [hnone]
    refine ⟨?_, by simp⟩
    simp [Past.calls, Past.next, hruns, hqueue]

/-- Along every run a call that tells a single request of success was put on the main queue
at a time at which its location was as accurate and as recent as the request desired. -/
theorem success_achieves (services : CLLocationServices)
    (es : List (NSTimeInterval × LocationEvent K)) :
    EveryState (step P) (fun pre m => ∀ p ∈ (past P services pre).asked,
        ∀ call ∈ (past P services pre).calls m, call.requestID = p.1 → call.status = .success →
          ∃ now, Happened (step P) (fun m e => e.1 = now ∧ call ∈ m.puts P e)
              { services := services } pre ∧ Achieves now p.2 call)
      { services := services } es := by
  refine (everyState_of_invariant (I := fun pre m => Balanced (past P services pre) m ∧
    ∀ p ∈ (past P services pre).asked, ∀ call ∈ (past P services pre).calls m,
      call.requestID = p.1 → call.status = .success →
        ∃ now, Happened (step P) (fun m e => e.1 = now ∧ call ∈ m.puts P e)
          { services := services } pre ∧ Achieves now p.2 call)
    ⟨balanced_init services, by simp [past]⟩ ?_ es).mono fun _ _ h => h.2
  rintro pre m e m' hpre ⟨hI, hsuccess⟩ h
  have hpast : past P services (pre ++ [e]) = (past P services pre).next m e :=
    track_snoc Past.next e pre {} { services := services } hpre h
  obtain ⟨hcalls, htruthful⟩ := hI.truthful_step h
  rw [hpast]
  refine ⟨hI.step h, fun p hp call hcall hid hstatus => ?_⟩
  rw [hcalls] at hcall
  rcases List.mem_append.1 hcall with hold | hnew
  · -- an ID that has been called was asked for before
    have hasked : p ∈ (past P services pre).asked := by
      refine (List.mem_append.1 hp).resolve_right fun hlast => ?_
      have hgiven := hI.given call.requestID
        (Or.inr (Or.inl (List.mem_map.2 ⟨call, hold, rfl⟩)))
      rw [hid, asks_eq_some (Option.mem_toList.1 hlast)] at hgiven
      exact absurd hgiven (Nat.not_succ_le_self _)
    obtain ⟨now, hput, hachieves⟩ := hsuccess p hasked call hold hid hstatus
    exact ⟨now, hput.snoc e, hachieves⟩
  · exact ⟨e.1, happened_last hpre h ⟨rfl, hnew⟩, htruthful call hnew p hp hid hstatus⟩

end ConfFriends.Pods.INTULocationManager
