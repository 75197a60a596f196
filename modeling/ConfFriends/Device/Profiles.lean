import ConfFriends.Transition.Register
import ConfFriends.Device.Effects

/-!
# Whose profile a device writes

A sign-in writes the avatar, the Twitter ID and the Twitter username of a record in one
update, and nothing but the removal of the record ever takes them away. So the profiles
are registers too (`Device.profiles_step`) : the profile of an account is that of its last
sign-in, none if the record has been removed since. The name is not part of it, as the
settings change it as well.
-/

set_option linter.unusedSectionVars false

open Transition

namespace ConfFriends

variable {K : Type*} [LinearOrder K] [Zero K] [IntCast K] {P : Platform K}

/-! ## Profiles -/

/-- The Twitter account of a record. -/
structure TwitterProfile where
  avatar : Option String := none
  twitterID : Option String := none
  twitterUsername : Option String := none
  deriving DecidableEq

def UserRecord.twitterProfile (r : UserRecord K) : TwitterProfile :=
  ⟨r.avatar, r.twitterID, r.twitterUsername⟩

namespace Users

def profiles (users : Users K) : String → TwitterProfile :=
  fun uid => (users uid).twitterProfile

theorem profiles_updateChildValues (users : Users K) (uid : String)
    (f : UserRecord K → UserRecord K) :
    (users.updateChildValues uid f).profiles =
      Function.update users.profiles uid (f (users uid)).twitterProfile := by
  funext u
  by_cases hu : u = uid
  · subst hu
    simp [profiles]
  · simp [profiles, hu]

/-- An update that keeps the profile. -/
theorem profiles_of_twitterProfile_eq (users : Users K) (uid : String)
    {f : UserRecord K → UserRecord K}
    (hf : (f (users uid)).twitterProfile = (users uid).twitterProfile) :
    (users.updateChildValues uid f).profiles = users.profiles := by
  rw [profiles_updateChildValues, hf]
  exact Function.update_eq_self uid users.profiles

theorem profiles_removeValue (users : Users K) (uid : String) :
    (users.removeValue uid).profiles = Function.update users.profiles uid {} := by
  funext u
  by_cases hu : u = uid
  · subst hu
    simp [profiles, UserRecord.twitterProfile]
  · simp [profiles, hu]

theorem profiles_store (users : Users K) (w : LocationWrite K) :
    (users.store w).profiles = users.profiles :=
  users.profiles_of_twitterProfile_eq w.uid rfl

end Users

theorem Stored.profiles_hideCurrent (s : Stored K) :
    s.hideCurrent.users.profiles = s.users.profiles := by
  unfold hideCurrent
  cases s.currentUser with
  | none => rfl
  | some uid => exact s.users.profiles_of_twitterProfile_eq uid rfl

/-! ## Writes -/

/-- The profile that a sign-in with these parts writes, if none is missing. -/
def FIRUserInfo.profile (credentials : FCTwitterCredentials) (provider : FIRUserInfo) :
    Option TwitterProfile :=
  if provider.uid.isSome && provider.displayName.isSome && credentials.username.isSome &&
      provider.photoURL.isSome then
    some ⟨provider.photoURL, provider.uid, credentials.username⟩
  else none

/-- Whose profile an event writes. -/
def Event.profile : Event K → Option (String × TwitterProfile)
  | .signIn credentials (.user user) =>
    (user.providerData.head?.bind fun provider => provider.profile credentials).map
      fun profile => (user.uid, profile)
  | _ => none

/-- A sign-in that writes a profile has all of it. -/
theorem Event.profile_eq_some {e : Event K} {uid : String} {profile : TwitterProfile}
    (h : e.profile = some (uid, profile)) : ∃ avatar twitterID twitterUsername,
      profile = ⟨some avatar, some twitterID, some twitterUsername⟩ := by
  unfold Event.profile at h
  split at h
  · obtain ⟨profile', hprofile, heq⟩ := Option.map_eq_some_iff.1 h
    obtain ⟨provider, -, hprovider⟩ := Option.bind_eq_some_iff.1 hprofile
    obtain ⟨-, rfl⟩ := Prod.mk.inj heq
    simp only [FIRUserInfo.profile, Option.ite_none_right_eq_some, Bool.and_eq_true,
      Option.isSome_iff_exists, Option.some.injEq] at hprovider
    obtain ⟨⟨⟨⟨⟨twitterID, hid⟩, -⟩, ⟨username, husername⟩⟩, ⟨avatar, havatar⟩⟩, rfl⟩ := hprovider
    exact ⟨avatar, twitterID, username, by rw [hid, husername, havatar]⟩
  · simp at h

namespace Device

/-- Whose profile is written or removed by an event. -/
def writesProfile (d : Device K) (e : Event K) : Option (String × TwitterProfile) :=
  match e with
  | .deleteUser => d.stored.currentUser.map fun uid => (uid, {})
  | e => e.profile

/-- A profile is written by a sign-in. -/
theorem profile_of_writesProfile {d : Device K} {e : Event K} {uid : String}
    {profile : TwitterProfile} (h : d.writesProfile e = some (uid, profile)) :
    profile = {} ∨ e.profile = some (uid, profile) := by
  unfold writesProfile at h
  split at h
  · obtain ⟨uid', -, heq⟩ := Option.map_eq_some_iff.1 h
    exact Or.inl (Prod.mk.inj heq).2.symm
  · exact Or.inr h

/-! ## The effect of a step -/

theorem profiles_signIn (a : App K) (credentials : FCTwitterCredentials) (user : FIRUser) :
    (a.startTwitterAuthentication credentials (.user user)).stored.users.profiles =
      Register.write a.users.profiles
        (Event.profile (K := K) (.signIn credentials (.user user))) := by
  obtain ⟨uid, providerData⟩ := user
  unfold App.startTwitterAuthentication App.completeSignIn Event.profile
  cases providerData with
  | nil => rfl
  | cons provider providers =>
    obtain ⟨twitterID, displayName, photoURL⟩ := provider
    obtain ⟨token, secret, username⟩ := credentials
    cases twitterID with
    | none => rfl
    | some twitterID =>
      cases displayName with
      | none => rfl
      | some displayName =>
        cases username with
        | none => rfl
        | some username =>
          cases photoURL with
          | none => rfl
          | some avatar => exact Users.profiles_updateChildValues a.users uid _

/-- A step that neither signs in nor removes keeps the profiles. -/
theorem profiles_of_storedStep {d : Device K} {e : Event K} {s' : Stored K}
    (hs : StoredStep P d e s') (hsign : e.signsIn = none) (hremoves : e ≠ .deleteUser) :
    s'.users.profiles = d.stored.users.profiles := by
  cases hs with
  | hide => exact Stored.profiles_hideCurrent _
  | clear => exact Stored.profiles_hideCurrent _
  | publish _ _ w => exact Users.profiles_store _ w
  | signIn _ uid hsigned => simp [hsign] at hsigned
  | removeUser he => exact absurd he hremoves
  | keep | share | signOut | signInRaised | accountDeleted => rfl

/-- The profiles change by the write of the step. -/
theorem profiles_step {d d' : Device K} {e : Event K} (h : d.step P e = some d') :
    d'.stored.users.profiles = Register.write d.stored.users.profiles (d.writesProfile e) := by
  have hs := storedStep_of_step h
  cases e with
  | signIn credentials result =>
    cases d with
    | terminated s => simp [step] at h
    | running a =>
      cases result with
      | error localizedDescription =>
        obtain rfl := Option.some.inj h
        rfl
      | user user =>
        simp only [step, App.handle, Option.ite_none_left_eq_some, Option.some.injEq] at h
        obtain ⟨-, rfl⟩ := h
        exact profiles_signIn a credentials user
  | deleteUser =>
    cases d with
    | terminated s => simp [step] at h
    | running a =>
      obtain rfl := Option.some.inj h
      rw [App.deleteUser, App.stored_withUserRef]
      cases huser : a.currentUser with
      | none => simp [writesProfile, huser]
      | some uid => simp [writesProfile, huser, Users.profiles_removeValue]
  | _ => exact profiles_of_storedStep hs rfl (by simp)

end Device

end ConfFriends
