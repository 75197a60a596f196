import ConfFriends.Device.Disclosure
import ConfFriends.Device.Profiles
import ConfFriends.Network

/-!
# The database of the network is a register per user

Any number of phones write to the database, and several can be signed in to one account.
What each device writes into registers that are read off the database, the network writes
into them (`registers_step`), so that after any interleaving a register holds what the last
write to it has put there, by whichever phone (`everyState_registers`).

`seen_iff_lastDisclosure` says so of where and when a user is seen : whoever was taken off
stays off until a phone that is signed in to the account publishes, and the phones of other
users have no say in it (`record_of_stranger`). `profile_iff_lastSignIn` says it of the
Twitter account of a user.
-/

set_option linter.unusedSectionVars false

open Transition

namespace ConfFriends.Network

variable {ι K Image : Type*} [DecidableEq ι] [LinearOrder K] [Zero K] [IntCast K]
  {P : Platform K} {M : MapPlatform Image}

/-! ## Registers of the database -/

/-- What a phone writes by its event, if its device writes so. -/
def writes {α : Type*} (deviceWrites : Device K → Event K → Option (String × α))
    (n : Network ι K Image) (e : ι × PhoneEvent K Image) : Option (String × α) :=
  e.2.deviceEvent.bind (deviceWrites (n.view e.1).device)

variable {α : Type*} {read : Users K → String → α}
  {deviceWrites : Device K → Event K → Option (String × α)}

/-- Registers that the devices write, and that a change of a name or a country keeps, are
written by the network. -/
theorem registers_step
    (hdevice : ∀ {d d' : Device K} {e : Event K}, d.step P e = some d' →
      read d'.stored.users = Register.write (read d.stored.users) (deviceWrites d e))
    (hprofile : ∀ {s s' : Stored K} {uid : String}, s.ProfileWrite uid s' →
      read s'.users = read s.users)
    {n n' : Network ι K Image} {e : ι × PhoneEvent K Image} (h : n.step P M e = some n') :
    read n'.store.users = Register.write (read n.store.users) (n.writes deviceWrites e) := by
  obtain ⟨i, e⟩ := e
  have hs := networkStep_of_step h
  rw [hs.store, ← users_view n i]
  unfold writes
  rcases Phone.device_step hs.moves with ⟨de, he, hstep⟩ | ⟨he, hstored⟩
  · rw [he, Option.bind_some]
    exact hdevice hstep
  · rw [he, Option.bind_none, Register.write_none]
    rcases hstored with hkept | ⟨-, uid, hwrite⟩
    · rw [← hkept]
      rfl
    · exact hprofile hwrite

/-- After any interleaving a register holds what was last written to it. -/
theorem everyState_registers
    (hdevice : ∀ {d d' : Device K} {e : Event K}, d.step P e = some d' →
      read d'.stored.users = Register.write (read d.stored.users) (deviceWrites d e))
    (hprofile : ∀ {s s' : Stored K} {uid : String}, s.ProfileWrite uid s' →
      read s'.users = read s.users)
    (users : Users K) (es : List (ι × PhoneEvent K Image)) :
    EveryState (step P M) (fun pre n => ∀ uid a, read n.store.users uid = a ↔
        Register.LastWrite (step P M) (writes deviceWrites) uid a (installed users) pre ∨
        Register.Unwritten (step P M) (writes deviceWrites) uid (installed users) pre ∧
          read users uid = a)
      (installed users) es := by
  have hcontents : EveryState (step P M) (fun pre n => read n.store.users =
      Register.contents (step P M) (writes deviceWrites) (read users) (installed users) pre)
      (installed users) es :=
    Register.everyState_contents (fun n => read n.store.users)
      (fun _ _ _ => registers_step hdevice hprofile) (installed users) es
  refine hcontents.mono fun pre n hn uid a => ?_
  rw [hn]
  exact Register.contents_eq_iff

/-! ## Whereabouts -/

/-- A change of a name or a country discloses nothing. -/
theorem whereabouts_profileWrite {s s' : Stored K} {uid : String} (h : s.ProfileWrite uid s') :
    s'.users.whereabouts = s.users.whereabouts := by
  cases h with
  | mk huser f hf => exact s.users.whereabouts_of_sighting?_eq uid (hf (s.users uid)).sighting?

/-- What a phone discloses by its event. -/
def discloses (P : Platform K) (n : Network ι K Image) (e : ι × PhoneEvent K Image) :
    Option (String × Option (Sighting K)) :=
  n.writes (Device.discloses P) e

/-- The whereabouts change by the disclosure of the step. -/
theorem whereabouts_step {n n' : Network ι K Image} {e : ι × PhoneEvent K Image}
    (h : n.step P M e = some n') :
    n'.store.users.whereabouts =
      Register.write n.store.users.whereabouts (n.discloses P e) :=
  registers_step Device.whereabouts_step whereabouts_profileWrite h

/-- After any interleaving the database shows the last disclosure about each user. -/
theorem seen_iff_lastDisclosure (users : Users K) (es : List (ι × PhoneEvent K Image)) :
    EveryState (step P M) (fun pre n => ∀ uid seen, (n.store.users uid).sighting? = some seen ↔
        Register.LastWrite (step P M) (discloses P) uid (some seen) (installed users) pre ∨
        Register.Unwritten (step P M) (discloses P) uid (installed users) pre ∧
          (users uid).sighting? = some seen)
      (installed users) es :=
  (everyState_registers Device.whereabouts_step whereabouts_profileWrite users es).mono
    fun _ _ hn uid seen => hn uid (some seen)

/-! ## Profiles -/

/-- A change of a name or a country leaves the Twitter account. -/
theorem profiles_profileWrite {s s' : Stored K} {uid : String} (h : s.ProfileWrite uid s') :
    s'.users.profiles = s.users.profiles := by
  cases h with
  | mk huser f hf =>
    have hkept : ∀ {r r' : UserRecord K}, r.ProfileChange r' →
        r'.twitterProfile = r.twitterProfile := by
      rintro r r' (text | ⟨countryCode, country⟩) <;> rfl
    exact s.users.profiles_of_twitterProfile_eq uid (hkept (hf (s.users uid)))

/-- The profile that a phone writes or removes by its event. -/
def writesProfile (n : Network ι K Image) (e : ι × PhoneEvent K Image) :
    Option (String × TwitterProfile) :=
  n.writes Device.writesProfile e

theorem profiles_step {n n' : Network ι K Image} {e : ι × PhoneEvent K Image}
    (h : n.step P M e = some n') :
    n'.store.users.profiles = Register.write n.store.users.profiles (n.writesProfile e) :=
  registers_step Device.profiles_step profiles_profileWrite h

/-- After any interleaving the Twitter account of a record is that of the last sign-in to it,
unless the record has been removed since. -/
theorem profile_iff_lastSignIn (users : Users K) (es : List (ι × PhoneEvent K Image)) :
    EveryState (step P M) (fun pre n => ∀ uid profile,
        (n.store.users uid).twitterProfile = profile ↔
          Register.LastWrite (step P M) writesProfile uid profile (installed users) pre ∨
          Register.Unwritten (step P M) writesProfile uid (installed users) pre ∧
            (users uid).twitterProfile = profile)
      (installed users) es :=
  everyState_registers Device.profiles_step profiles_profileWrite users es

end ConfFriends.Network
