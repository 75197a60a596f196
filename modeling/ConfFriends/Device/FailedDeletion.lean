import ConfFriends.Device.Subscriptions
import ConfFriends.Device.Deletion

/-!
# A deletion that fails

`deleteUser` stops the location updates and removes the record before it asks Firebase
to delete the account, which is the only part that can fail. The completion with an
error presents it, and neither the record nor the subscriptions come back.

`sameFor_failedDeletion_iff` says for which states a failed deletion changes nothing,
whatever else happens before the error arrives, if it leaves the two alone.
-/

set_option linter.unusedSectionVars false

open Transition

namespace ConfFriends

variable {K : Type*} [LinearOrder K] [Zero K] [IntCast K] {P : Platform K}

/-! ## What stopping leaves alone -/

namespace INTULocationManager

/-- An ID that no request has cancels nothing. -/
theorem cancelLocationRequest_of_forall_ne {m : INTULocationManager K} {requestID : ℕ}
    (h : ∀ r ∈ m.locationRequests, r.requestID ≠ requestID) :
    m.cancelLocationRequest requestID = m := by
  have hnone : m.locationRequests.find? (fun r => decide (r.requestID = requestID)) = none := by
    simpa using h
  unfold cancelLocationRequest
  rw [hnone]

end INTULocationManager

namespace AppDelegate

/-- Stopping keeps the active requests iff none has an ID of the delegate. -/
theorem locationRequests_stopLocationUpdates_eq_iff (a : AppDelegate K) :
    a.stopLocationUpdates.locMgr.locationRequests = a.locMgr.locationRequests ↔
      ∀ r ∈ a.locMgr.locationRequests,
        r.requestID ≠ a.locationRequestID ∧ r.requestID ≠ a.significantRequestID := by
  constructor
  · intro hsame r hr
    rw [← hsame, mem_stopLocationUpdates] at hr
    exact hr.2
  · intro hne
    unfold stopLocationUpdates
    rw [INTULocationManager.cancelLocationRequest_of_forall_ne fun r hr => (hne r hr).1,
      INTULocationManager.cancelLocationRequest_of_forall_ne fun r hr => (hne r hr).2]

end AppDelegate

namespace Device

/-! ## The run of a failed deletion -/

/-- The active location subscriptions. -/
def locationRequests : Device K → List INTULocationRequest
  | .terminated _ => []
  | .running a => a.delegate.locMgr.locationRequests

/-- The record of the user and the subscriptions are the same. -/
structure SameFor (uid : String) (d d' : Device K) : Prop where
  record : d'.stored.users uid = d.stored.users uid
  subscriptions : d'.locationRequests = d.locationRequests

theorem SameFor.trans {uid : String} {d d' d'' : Device K} (h : SameFor uid d d')
    (h' : SameFor uid d' d'') : SameFor uid d d'' :=
  ⟨h'.record.trans h.record, h'.subscriptions.trans h.subscriptions⟩

/-- The events of a run leave the record of the user and the subscriptions alone. -/
def Quiet (P : Platform K) (uid : String) : Device K → List (Event K) → Prop :=
  EveryStep (step P) fun _ d _ d' => SameFor uid d d'

theorem sameFor_of_quiet {uid : String} {d d' : Device K} {es : List (Event K)}
    (hquiet : Quiet P uid d es) (hrun : exec (step P) d es = some d') : SameFor uid d d' :=
  (everyState_of_everyStep (I := fun _ d' => SameFor uid d d') ⟨rfl, rfl⟩
    (fun _ _ _ _ _ hI _ hsame => hI.trans hsame) hquiet).last hrun

/-- The completion of a deletion with an error changes neither. -/
theorem sameFor_deleteCompleted {d d' : Device K} {uid u error : String}
    (h : d.step P (.deleteCompleted u (some error)) = some d') : SameFor uid d d' := by
  cases d with
  | terminated s => simp [step] at h
  | running a =>
    simp only [step, App.handle, Option.ite_none_right_eq_some, Option.some.injEq] at h
    obtain ⟨-, rfl⟩ := h
    exact ⟨rfl, rfl⟩

/-- The device after the confirmation : the location updates are stopped and the record is
gone. -/
theorem step_deleteUser {a : App K} {uid : String} (huser : a.currentUser = some uid) :
    ∃ d₁, (Device.running a).step P .deleteUser = some d₁ ∧ d₁.stored.users uid = {} ∧
      d₁.locationRequests = a.delegate.stopLocationUpdates.locMgr.locationRequests := by
  refine ⟨_, rfl, ?_, ?_⟩
  · simp [App.deleteUser, App.stored_withUserRef, huser]
  · simp [App.deleteUser, App.withUserRef, huser, locationRequests]

/-- A deletion that fails has changed nothing iff the user had no record, and none of the
subscriptions was under an ID of the delegate. -/
theorem sameFor_failedDeletion_iff (error : String) {a : App K} {uid : String}
    (huser : a.currentUser = some uid) {es : List (Event K)} {d : Device K}
    (hquiet : ∀ d₁, (Device.running a).step P .deleteUser = some d₁ → Quiet P uid d₁ es)
    (hrun : exec (step P) (.running a) (.deleteUser :: es ++ [.deleteCompleted uid (some error)]) =
      some d) :
    SameFor uid (.running a) d ↔
      (a.users uid).snapshotExists = false ∧
        ∀ r ∈ a.delegate.locMgr.locationRequests,
          r.requestID ≠ a.delegate.locationRequestID ∧
            r.requestID ≠ a.delegate.significantRequestID := by
  obtain ⟨d₁, hd₁, hrecord, hrequests⟩ := step_deleteUser (P := P) huser
  obtain ⟨d₂, hd₂, hcompleted⟩ := exec_snoc_some hrun
  -- nothing after the confirmation touches the record or the subscriptions
  have hafter : SameFor uid d₁ d := by
    have hes : exec (step P) d₁ es = some d₂ := by simpa [exec, hd₁] using hd₂
    exact (sameFor_of_quiet (hquiet d₁ hd₁) hes).trans (sameFor_deleteCompleted hcompleted)
  rw [← AppDelegate.locationRequests_stopLocationUpdates_eq_iff]
  constructor
  · intro hsame
    refine ⟨?_, ?_⟩
    · have hempty : a.users uid = {} := by
        rw [← hrecord, ← hafter.record]
        exact hsame.record.symm
      rw [hempty]
      exact UserRecord.snapshotExists_empty
    · rw [← hrequests, ← hafter.subscriptions]
      exact hsame.subscriptions
  · rintro ⟨hgone, hstopped⟩
    refine ⟨?_, ?_⟩
    · rw [hafter.record, hrecord]
      exact (UserRecord.eq_empty_of_not_exists hgone).symm
    · rw [hafter.subscriptions, hrequests, hstopped]
      rfl

/-- A user with a record and a subscription. -/
def subscribedApp : App ℤ :=
  { currentUser := some "a"
    users := fun _ => { name := some "Ann", latitude := some 10, longitude := some 20 }
    delegate :=
      { locationRequestID := 1
        locMgr :=
          { services := ⟨true, .authorizedAlways⟩
            locationRequests := [⟨1, .subscription, .block⟩] } } }

theorem quiet_radiusSliderChanged {d : Device ℤ}
    (h : (Device.running subscribedApp).step Platform.flat .deleteUser = some d) :
    Quiet Platform.flat "a" d [.radiusSliderChanged 10] := by
  obtain rfl := Option.some.inj h
  refine everyStep_cons.2 fun d' hd' => ⟨?_, everyStep_nil _ _⟩
  obtain rfl := Option.some.inj hd'
  exact ⟨rfl, rfl⟩

theorem sameFor_failedDeletion_subscribedApp :
    ∃ d, SameFor "a" (.running subscribedApp) d ↔
      (subscribedApp.users "a").snapshotExists = false ∧
        ∀ r ∈ subscribedApp.delegate.locMgr.locationRequests,
          r.requestID ≠ subscribedApp.delegate.locationRequestID ∧
            r.requestID ≠ subscribedApp.delegate.significantRequestID :=
  ⟨_, sameFor_failedDeletion_iff (P := Platform.flat) "offline" rfl
    (fun _ h => quiet_radiusSliderChanged h) rfl⟩

/-- A user without a network loses the record and the subscription, and keeps the account. -/
theorem failedDeletion_changes :
    ∃ d, exec (step Platform.flat) (.running subscribedApp)
        [.deleteUser, .deleteCompleted "a" (some "offline")] = some d ∧
      d.stored.currentUser = some "a" ∧ ¬SameFor "a" (.running subscribedApp) d := by
  refine ⟨_, rfl, rfl, fun h => ?_⟩
  exact absurd (congrArg UserRecord.snapshotExists h.record) (by decide)

end Device

end ConfFriends
