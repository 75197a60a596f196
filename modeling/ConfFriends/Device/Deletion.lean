import ConfFriends.Device.Effects

/-!
# Deleted accounts

`deleteUser` removes the record, and the account is deleted when the completion of
`deleteWithCompletion` arrives. Between the two the user is still signed in, so
anything that writes below the current user brings the record back : a fix after
`applicationDidBecomeActive` has subscribed again, a block that was queued before, or
a second sign-in (`resurrected_record`).

`gone` reads from the past that the record has been removed and not written since.
The records of deleted accounts stay removed along a run iff every deletion completes
with the record gone.
-/

set_option linter.unusedSectionVars false

open Transition

namespace ConfFriends.Device

variable {K : Type*} [LinearOrder K] [Zero K] [IntCast K] {P : Platform K}

/-! ## Deletions in flight -/

/-- The accounts with a deletion that has not completed. -/
def deletions : Device K → List String
  | .terminated _ => []
  | .running a => a.deletions

/-- A handler that needs the current user and leaves a deletion in flight has not raised. -/
theorem deletions_withUserRef {a : App K} {f : String → App K} {u : String}
    (hu : u ∈ (a.withUserRef f).deletions) :
    ∃ uid, a.currentUser = some uid ∧ u ∈ (f uid).deletions := by
  unfold App.withUserRef at hu
  cases huser : a.currentUser with
  | none => simp [huser, App.raise, deletions] at hu
  | some uid => exact ⟨uid, rfl, by simpa [huser, deletions] using hu⟩

theorem deletions_removeCoordinate (a : App K) {u : String}
    (hu : u ∈ a.removeCoordinate.deletions) : u ∈ a.deletions := by
  obtain ⟨uid, -, hmem⟩ := deletions_withUserRef hu
  exact hmem

/-- A deletion in flight was started by `deleteUser` for the current user. -/
theorem deletions_step {d d' : Device K} {e : Event K} (h : d.step P e = some d') {u : String}
    (hu : u ∈ d'.deletions) : u ∈ d.deletions ∨ removes u d e = true := by
  cases d with
  | terminated s =>
    obtain ⟨services, locationKey, rfl, rfl⟩ := step_terminated h
    simp [deletions, Stored.launch] at hu
  | running a =>
    simp only [step] at h
    cases e with
    | launch services locationKey => simp [App.handle] at h
    | kill =>
      obtain rfl := Option.some.inj h
      simp [deletions] at hu
    | signIn credentials result =>
      refine Or.inl ?_
      cases result with
      | error localizedDescription =>
        obtain rfl := Option.some.inj h
        exact hu
      | user user =>
        simp only [App.handle, Option.ite_none_left_eq_some, Option.some.injEq] at h
        obtain ⟨-, rfl⟩ := h
        rcases a.startTwitterAuthentication_cases credentials user with
          ⟨-, message, h⟩ | ⟨-, -, h⟩ |
            ⟨-, -, displayName, avatar, twitterID, username, h⟩ <;>
          rw [h] at hu
        · exact hu
        · simp [App.raise, deletions] at hu
        · exact hu
    | shareMyLocation =>
      simp only [App.handle, Option.ite_none_right_eq_some, Option.some.injEq] at h
      obtain ⟨-, rfl⟩ := h
      exact Or.inl hu
    | dontShareLocation =>
      simp only [App.handle, Option.ite_none_right_eq_some, Option.some.injEq] at h
      obtain ⟨-, rfl⟩ := h
      have hmem := deletions_removeCoordinate _ hu
      exact Or.inl hmem
    | locationSwitchChanged isOn =>
      obtain rfl := Option.some.inj h
      cases isOn with
      | false => exact Or.inl hu
      | true =>
        have hmem := deletions_removeCoordinate _ hu
        exact Or.inl hmem
    | deleteUser =>
      obtain rfl := Option.some.inj h
      obtain ⟨uid, huser, hmem⟩ := deletions_withUserRef hu
      have hcurrent : a.currentUser = some uid := huser
      rcases List.mem_cons.1 hmem with rfl | hmem
      · exact Or.inr (by simp [removes, hcurrent])
      · exact Or.inl hmem
    | deleteCompleted uid error =>
      simp only [App.handle, Option.ite_none_right_eq_some, Option.some.injEq] at h
      obtain ⟨-, rfl⟩ := h
      refine Or.inl (List.mem_of_mem_erase (b := uid) ?_)
      cases error <;> exact hu
    | saveZone visibleMapRect =>
      obtain rfl := Option.some.inj h
      obtain ⟨uid, -, hmem⟩ := deletions_withUserRef hu
      exact Or.inl hmem
    | answerZoneRead i =>
      rcases App.answerZoneRead_cases h with rfl | rfl
      · have hmem := deletions_removeCoordinate _ hu
        exact Or.inl hmem
      · exact Or.inl hu
    | runBlock clock arc4random =>
      obtain rfl := App.handle_runBlock h
      rcases a.runBlock_cases P clock arc4random with ⟨-, heq⟩ | ⟨fix, -, -, write, -, heq⟩ <;>
        rw [heq] at hu <;> exact Or.inl hu
    | _ =>
      obtain rfl := Option.some.inj h
      exact Or.inl hu

/-- The completion of a deletion in flight deletes the account. -/
theorem deletedAccounts_step {d d' : Device K} {e : Event K} (h : d.step P e = some d')
    {u : String} (hu : u ∈ d'.stored.deletedAccounts) :
    u ∈ d.stored.deletedAccounts ∨ e = .deleteCompleted u none := by
  have hs := storedStep_of_step h
  generalize d'.stored = s' at hs hu
  cases hs with
  | accountDeleted uid he =>
    rcases List.mem_cons.1 hu with rfl | hu
    · exact Or.inr he
    · exact Or.inl hu
  | _ => exact Or.inl hu

/-- A completed deletion was in flight, touches no record and signs the account out. -/
theorem deleteCompleted_step {d d' : Device K} {u : String}
    (h : d.step P (.deleteCompleted u none) = some d') :
    u ∈ d.deletions ∧ d'.stored.users = d.stored.users ∧ d'.stored.currentUser ≠ some u ∧
      u ∈ d'.stored.deletedAccounts := by
  cases d with
  | terminated s => simp [step] at h
  | running a =>
    simp only [step, App.handle, Option.ite_none_right_eq_some, Option.some.injEq] at h
    obtain ⟨hmem, rfl⟩ := h
    refine ⟨hmem, rfl, ?_, List.mem_cons_self⟩
    simp only [App.deleteCompleted, stored_running]
    split
    · simp
    · assumption

/-! ## Records since their removal -/

/-- The record of `u` has been removed, and nothing written to it since. -/
def gone (P : Platform K) (d₀ : Device K) (u : String) (pre : List (Event K)) : Bool :=
  since (step P) (removes u) (writes P u) false d₀ pre

theorem gone_snoc {d₀ d d' : Device K} {pre : List (Event K)} {e : Event K} (u : String)
    (hpre : exec (step P) d₀ pre = some d) (h : d.step P e = some d') :
    gone P d₀ u (pre ++ [e]) = (removes u d e || (gone P d₀ u pre && !writes P u d e)) :=
  since_snoc _ _ e pre false d₀ hpre h

/-- What the records of an app look like while accounts are being deleted. -/
structure DeletionInv (P : Platform K) (d₀ : Device K) (pre : List (Event K)) (d : Device K) :
    Prop where
  /-- A record that is gone is empty. -/
  removed : ∀ u, gone P d₀ u pre = true → d.stored.users u = {}
  /-- A record of a deletion in flight that is not gone exists, hidden or not. -/
  rewritten : ∀ u ∈ d.deletions, gone P d₀ u pre = false →
    (d.stored.users u).removeCoordinate.snapshotExists = true
  /-- A deleted account is not signed in and has no record. -/
  deleted : ∀ u ∈ d.stored.deletedAccounts,
    d.stored.users u = {} ∧ d.stored.currentUser ≠ some u

/-- The run completes deletions only while the record of the account is gone. -/
def CompletesGone (P : Platform K) (d₀ : Device K) (pre : List (Event K)) (_ : Device K)
    (e : Event K) (_ : Device K) : Prop :=
  ∀ u, e = .deleteCompleted u none → gone P d₀ u pre = true

theorem DeletionInv.step {d₀ d d' : Device K} {pre : List (Event K)} {e : Event K}
    (hpre : exec (step P) d₀ pre = some d) (hI : DeletionInv P d₀ pre d)
    (h : d.step P e = some d') (hok : CompletesGone P d₀ pre d e d') :
    DeletionInv P d₀ (pre ++ [e]) d' where
  removed u hu := by
    rw [gone_snoc u hpre h] at hu
    rcases record_step h u with ⟨-, hrec⟩ | ⟨hno, hwrites, -⟩ | ⟨hno, hwrites, hrec⟩
    · exact hrec
    · simp [hno, hwrites] at hu
    · have hempty := hI.removed u (by simpa [hno, hwrites] using hu)
      rcases hrec with hrec | ⟨-, hrec⟩ <;> simp [hrec, hempty]
  rewritten u hmem hu := by
    rw [gone_snoc u hpre h] at hu
    rcases record_step h u with ⟨hyes, -⟩ | ⟨hno, hwrites, hrec⟩ | ⟨hno, hwrites, hrec⟩
    · simp [hyes] at hu
    · rcases hrec with ⟨w, -, -, -, hrec⟩ | ⟨-, name, avatar, twitterID, username, hrec⟩
      · simp [hrec, UserRecord.snapshotExists, UserRecord.removeCoordinate,
          UserRecord.setLocation]
      · simp [hrec, UserRecord.snapshotExists, UserRecord.removeCoordinate,
          UserRecord.setProfile]
    · have hbefore : u ∈ d.deletions := (deletions_step h hmem).resolve_right (by simp [hno])
      have hexists := hI.rewritten u hbefore (by simpa [hno, hwrites] using hu)
      rcases hrec with hrec | ⟨-, hrec⟩ <;> rw [hrec] <;> exact hexists
  deleted u hmem := by
    rcases deletedAccounts_step h hmem with hold | rfl
    · obtain ⟨hempty, huser⟩ := hI.deleted u hold
      constructor
      · rcases record_step h u with ⟨-, hrec⟩ | ⟨-, -, hrec⟩ | ⟨-, -, hrec⟩
        · exact hrec
        · rcases hrec with ⟨w, -, -, hcurrent, -⟩ | ⟨hlive, -⟩
          · exact absurd hcurrent huser
          · exact absurd hold hlive
        · rcases hrec with hrec | ⟨-, hrec⟩ <;> simp [hrec, hempty]
      · intro hcurrent
        rcases currentUser_step h hcurrent with hbefore | ⟨-, hlive⟩
        · exact huser hbefore
        · exact hlive hold
    · obtain ⟨-, husers, hcurrent, -⟩ := deleteCompleted_step h
      exact ⟨husers ▸ hI.removed u (hok u rfl), hcurrent⟩

/-! ## Deleted accounts stay deleted -/

/-- The records of deleted accounts do not exist. -/
def StayDeleted (d : Device K) : Prop :=
  ∀ u ∈ d.stored.deletedAccounts, (d.stored.users u).snapshotExists = false

/-- Deleted accounts stay deleted iff every deletion completes with the record gone. -/
theorem stayDeleted_iff_completesGone (users : Users K) (es : List (Event K)) :
    EveryState (step P) (fun _ d => StayDeleted d) (installed users) es ↔
      EveryStep (step P) (CompletesGone P (installed users)) (installed users) es := by
  refine everyState_iff_everyStep (I := DeletionInv P (installed users)) ?_ ?_ ?_ ?_ es
  · exact ⟨fun u hu => by simp [gone] at hu, fun u hu => by simp [installed, deletions] at hu,
      fun u hu => by simp [installed] at hu⟩
  · intro pre d hI u hu
    simp [(hI.deleted u hu).1]
  · intro pre d e d' hpre hI h hok
    exact hI.step hpre h hok
  · intro pre d e d' hpre hI h hbad hstay
    simp only [CompletesGone, not_forall, Bool.not_eq_true] at hbad
    obtain ⟨u, rfl, hnot⟩ := hbad
    obtain ⟨hmem, husers, -, hdeleted⟩ := deleteCompleted_step h
    have hexists := hI.rewritten u hmem hnot
    have hempty := UserRecord.eq_empty_of_not_exists (husers ▸ hstay u hdeleted)
    simp [hempty] at hexists

/-! ## A record that comes back -/

/-- An account deletes itself, the app comes to the front again, and a fix is stored
before the deletion completes. -/
def deleteWhileTracking : List (Event ℤ) :=
  [.launch ⟨true, .authorizedWhenInUse⟩ false, sampleSignIn "a", .shareMyLocation, .deleteUser,
    .applicationWillResignActive, .applicationDidBecomeActive, .didUpdateLocations ⟨10, 20⟩,
    .runBlock ⟨100, 100, 100⟩ 7, .deleteCompleted "a" none]

/-- The account is deleted and its record is back. -/
theorem resurrected_record :
    ¬EveryState (step Platform.flat) (fun _ d => StayDeleted d) (installed fun _ => {})
      deleteWhileTracking := by
  intro hall
  have hgone := hall.last rfl "a" (by decide)
  exact absurd hgone (by decide)

end ConfFriends.Device
