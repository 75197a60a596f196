import ConfFriends.MapView.Markers
import ConfFriends.Network.Whereabouts

/-!
# The records of strangers and of deleted accounts

The phones of other users have no say in a record : it changes by a phone that is signed
in to its account, or is signing in to it (`record_changes_byOwner`).

A deleted account cannot be signed in to, but a phone that was signed in to it when
another one deleted it stays so. Its next publication writes the record anew, and so does
a change of the name or the country, as none of them looks whether the record is there. So
the record of a deleted account stays removed along a run iff no such phone writes
(`removed_iff_unwritten`).
-/

set_option linter.unusedSectionVars false

open Transition

namespace ConfFriends

variable {ι K Image : Type*} [DecidableEq ι] [LinearOrder K] [Zero K] [IntCast K]
  {P : Platform K} {M : MapPlatform Image}

/-! ## Whose record a device writes -/

/-- A profile is written by a sign-in to its account. -/
theorem Event.signsIn_of_writesProfile {e : Event K} {uid : String}
    (h : e.writesProfile = some uid) : e.signsIn = some uid := by
  cases e with
  | signIn credentials result =>
    cases result with
    | error localizedDescription => simp [writesProfile] at h
    | user user =>
      simp only [writesProfile, Option.ite_none_right_eq_some] at h
      obtain ⟨hcomplete, huid⟩ := h
      cases hfails : App.failsCheck credentials user with
      | false => simpa [signsIn, hfails] using huid
      | true => simp [App.profileComplete_of_failsCheck hfails] at hcomplete
  | _ => simp [writesProfile] at h

/-- A device writes the record of the account it is signed in to, or signs in to. -/
theorem Device.record_of_stranger {d d' : Device K} {e : Event K} (h : d.step P e = some d')
    {uid : String} (huser : d.stored.currentUser ≠ some uid) (hsigns : e.signsIn ≠ some uid) :
    d'.stored.users uid = d.stored.users uid := by
  rcases record_step h uid with ⟨hremoves, -⟩ | ⟨-, hwrites, -⟩ | ⟨-, -, hrest⟩
  · unfold removes at hremoves
    split at hremoves
    · exact absurd (of_decide_eq_true hremoves) huser
    · simp at hremoves
  · rcases Bool.or_eq_true_iff.1 hwrites with hpublished | hprofile
    · cases hw : published P d e with
      | none => simp [hw] at hpublished
      | some w =>
        have hu : w.uid = uid := by simpa [hw] using hpublished
        obtain ⟨a, clock, arc4random, fix, rfl, -, -, -, hcurrent, -⟩ :=
          published_eq_some_iff.1 hw
        exact absurd (hu ▸ hcurrent) huser
    · exact absurd (Event.signsIn_of_writesProfile (of_decide_eq_true hprofile)) hsigns
  · exact hrest.resolve_right fun hhidden => huser hhidden.1

/-- An account that has been deleted stays so. -/
theorem Device.deletedAccounts_subset {d d' : Device K} {e : Event K} (h : d.step P e = some d') :
    d.stored.deletedAccounts ⊆ d'.stored.deletedAccounts := by
  have hs := storedStep_of_step h
  generalize d'.stored = s' at hs ⊢
  cases hs with
  | accountDeleted uid he => exact List.subset_cons_self uid _
  | _ => exact List.Subset.refl _

namespace Network

/-! ## Strangers -/

/-- A phone is signed in to the account, or signs in to it. -/
def ActsFor (uid : String) (n : Network ι K Image) (e : ι × PhoneEvent K Image) : Prop :=
  (n.party e.1).currentUser = some uid ∨
    ∃ de, e.2.deviceEvent = some de ∧ de.signsIn = some uid

/-- A step changes a record for its account only. -/
theorem record_of_stranger {n n' : Network ι K Image} {e : ι × PhoneEvent K Image} {uid : String}
    (h : n.step P M e = some n') (hno : ¬ActsFor uid n e) :
    n'.store.users uid = n.store.users uid := by
  obtain ⟨i, e⟩ := e
  have hs := networkStep_of_step h
  have huser : (n.view i).currentUser ≠ some uid := by
    rw [currentUser_view]
    exact fun huser => hno (Or.inl huser)
  rw [hs.store, ← users_view n i]
  rcases Phone.device_step hs.moves with ⟨de, he, hstep⟩ | ⟨he, hkept | ⟨-, uid', hwrite⟩⟩
  · exact Device.record_of_stranger hstep huser fun hde => hno (Or.inr ⟨de, he, hde⟩)
  · rw [← hkept]
    rfl
  · refine hwrite.record_of_ne ?_
    rintro rfl
    exact huser hwrite.currentUser

/-- Along every interleaving a record is what it was, or a phone has acted for its account. -/
theorem record_changes_byOwner (uid : String) (n₀ : Network ι K Image)
    (es : List (ι × PhoneEvent K Image)) :
    EveryState (step P M) (fun pre n => n.store.users uid = n₀.store.users uid ∨
      Happened (step P M) (ActsFor uid) n₀ pre) n₀ es := by
  refine everyState_of_invariant (Or.inl rfl) ?_ es
  rintro pre n e n' hpre (hkept | hacted) h
  · by_cases hacts : ActsFor uid n e
    · exact Or.inr (happened_last hpre h hacts)
    · exact Or.inl ((record_of_stranger h hacts).trans hkept)
  · exact Or.inr (hacted.snoc e)

/-! ## Deleted accounts -/

/-- A step publishes a location of the user, or changes the user's name or country. -/
def Writes (P : Platform K) (uid : String) (n : Network ι K Image)
    (e : ι × PhoneEvent K Image) : Prop :=
  (∃ seen, n.discloses P e = some (uid, some seen)) ∨
    e.2.changesProfile = true ∧ (n.party e.1).currentUser = some uid

/-- A deleted account, whose record is removed. -/
structure Removed (uid : String) (n : Network ι K Image) : Prop where
  deleted : uid ∈ n.store.deletedAccounts
  removed : n.store.users uid = {}

/-- The record of a deleted account stays removed by a step of a device that does not
publish it. -/
theorem Removed.deviceStep {uid : String} {d d' : Device K} {e : Event K}
    (hdeleted : uid ∈ d.stored.deletedAccounts) (hremoved : d.stored.users uid = {})
    (h : d.step P e = some d')
    (hok : ¬∃ seen, d.discloses P e = some (uid, some seen)) : d'.stored.users uid = {} := by
  rcases Device.record_step h uid with ⟨-, hgone⟩ | ⟨-, -, hwrites⟩ | ⟨-, -, hrest⟩
  · exact hgone
  · rcases hwrites with ⟨w, hw, rfl, -⟩ | ⟨hlive, -⟩
    · exact absurd ⟨w.sighting, by simp [Device.discloses, hw]⟩ hok
    · exact absurd hdeleted hlive
  · rcases hrest with hkept | ⟨-, hcleared⟩
    · exact hkept.trans hremoved
    · exact hcleared.trans (by rw [hremoved]; rfl)

/-- The record of a deleted account stays removed, unless it is written. -/
theorem Removed.step {uid : String} {n n' : Network ι K Image} {e : ι × PhoneEvent K Image}
    (hI : Removed uid n) (h : n.step P M e = some n') (hok : ¬Writes P uid n e) :
    Removed uid n' := by
  obtain ⟨i, e⟩ := e
  have hs := networkStep_of_step h
  have hdeleted : uid ∈ (n.view i).device.stored.deletedAccounts := by
    rw [deletedAccounts_view]
    exact hI.deleted
  have hremoved : (n.view i).device.stored.users uid = {} := by
    rw [users_view]
    exact hI.removed
  rcases Phone.device_step hs.moves with ⟨de, he, hstep⟩ | ⟨he, hkept | ⟨hchanges, uid', hwrite⟩⟩
  · have hunpublished : ¬∃ seen, (n.view i).device.discloses P de = some (uid, some seen) := by
      rintro ⟨seen, hseen⟩
      exact hok (Or.inl ⟨seen, by simp [discloses, Network.writes, he, hseen]⟩)
    refine ⟨?_, ?_⟩
    · rw [hs.store]
      exact Device.deletedAccounts_subset hstep hdeleted
    · rw [hs.store]
      exact Removed.deviceStep hdeleted hremoved hstep hunpublished
  · rw [← hkept] at hdeleted hremoved
    refine ⟨?_, ?_⟩
    · rw [hs.store]
      exact hdeleted
    · rw [hs.store]
      exact hremoved
  · have hne : uid ≠ uid' := by
      rintro rfl
      refine hok (Or.inr ⟨hchanges, ?_⟩)
      rw [← currentUser_view n i]
      exact hwrite.currentUser
    refine ⟨?_, ?_⟩
    · rw [hs.store]
      rw [← hwrite.deletedAccounts] at hdeleted
      exact hdeleted
    · rw [hs.store]
      exact (hwrite.record_of_ne hne).trans hremoved

/-- A write makes the record anew. -/
theorem not_removed_of_writes {uid : String} {n n' : Network ι K Image}
    {e : ι × PhoneEvent K Image} (h : n.step P M e = some n') (hbad : Writes P uid n e) :
    n'.store.users uid ≠ {} := by
  rcases hbad with ⟨seen, hdiscloses⟩ | ⟨hchanges, huser⟩
  · have hseen : n'.store.users.whereabouts uid = some seen := by
      rw [whereabouts_step h, hdiscloses, Register.write_some, Function.update_self]
    intro hgone
    rw [Users.whereabouts, hgone] at hseen
    simp at hseen
  · obtain ⟨i, e⟩ := e
    have hs := networkStep_of_step h
    rw [← currentUser_view n i] at huser
    rw [hs.store]
    exact (Phone.profileWrite_of_changesProfile hs.moves hchanges huser).ne_empty

/-- The record of a deleted account stays removed along a run iff no phone writes it. -/
theorem removed_iff_unwritten {uid : String} {n₀ : Network ι K Image} (h : Removed uid n₀)
    (es : List (ι × PhoneEvent K Image)) :
    EveryState (step P M) (fun _ n => n.store.users uid = {}) n₀ es ↔
      EveryStep (step P M) (fun _ n e _ => ¬Writes P uid n e) n₀ es := by
  refine everyState_iff_everyStep (I := fun _ n => Removed uid n) h ?_ ?_ ?_ es
  · exact fun _ _ hI => hI.removed
  · exact fun _ _ _ _ _ hI hs hok => hI.step hs hok
  · exact fun _ _ _ _ _ _ hs hbad => not_removed_of_writes hs (not_not.1 hbad)

/-- The account was deleted on another phone, and this one is still signed in to it. -/
def deletedElsewhere : Network ℕ ℤ String where
  store :=
    { users := fun _ => {}
      deletedAccounts := ["a"]
      past := [fun _ => { name := some "Ana" }] }
  party _ := .terminated
    { defaults := { ddfLocationDisabled := some false }, currentUser := some "a",
      users := fun _ => {} } {}

/-- The phone is launched, and the alert 'Change Name' opens with a record that Firebase
has cached. -/
def renamesAnyway : List (ℕ × PhoneEvent ℤ String) :=
  [(0, .launch ⟨true, .authorizedWhenInUse⟩ false []), (0, .presentNameAlert),
    (0, .answerNameRead 0 "a" { name := some "Ana" }), (0, .saveName "Anna")]

/-- The record of the deleted account is there again. -/
theorem written_anew :
    ¬EveryState (step Platform.flat MapViewController.samplePlatform)
      (fun _ n => n.store.users "a" = {}) deletedElsewhere renamesAnyway := by
  rw [removed_iff_unwritten ⟨by simp [deletedElsewhere], rfl⟩]
  intro hall
  exact hall (renamesAnyway.take 3) (0, .saveName "Anna") _ _ (List.prefix_refl _) rfl rfl
    (Or.inr ⟨rfl, rfl⟩)

end Network

end ConfFriends
