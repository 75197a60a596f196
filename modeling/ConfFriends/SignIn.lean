import ConfFriends.TwitterFilter

/-!
# A whole sign-in

A sign-in authorizes with Twitter, signs in to Firebase with the credentials, and writes
the profile : three fields of the first entry of the provider data, and the username of
the session. The user is signed in before the checks run, so a sign-in is all or
nothing only if each missing field meets a check (`AllOrNothing`).

Two of the three checks can fail. A session without a username has an empty one, so its
check never does, and nothing checks the photo URL or that there is any provider data.
`allOrNothing_iff` is the exact condition, over every session and every result.
-/

set_option linter.unusedSectionVars false

open Transition

namespace ConfFriends

variable {K : Type*} [LinearOrder K] [Zero K] [IntCast K]

namespace App

/-! ## The law -/

/-- The completion of an authorization with Twitter, and of the sign-in with its
credentials if there are any. -/
def authorizationCompleted (credentials : Option FCTwitterCredentials) (result : SignInResult)
    (a : App K) : Device K :=
  match credentials with
  | none => .running (a.presentWhoops authenticatingFailed)
  | some credentials => a.startTwitterAuthentication credentials result

/-- The outcomes of a sign-in that does all or nothing, from the app `a`. -/
inductive AllOrNothing (a : App K) :
    Option FCTwitterCredentials → SignInResult → Device K → Prop
  /-- Signed in, with a whole profile written. -/
  | signedIn (credentials : FCTwitterCredentials) (user : FIRUser) (a' : App K)
    (huser : a'.currentUser = some user.uid)
    (name avatar twitterID twitterUsername : String) (hname : name ≠ "") (havatar : avatar ≠ "")
    (hid : twitterID ≠ "") (husername : twitterUsername ≠ "")
    (hwrite : a'.users = a.users.updateChildValues user.uid fun r =>
      r.setProfile name avatar twitterID twitterUsername) :
    AllOrNothing a (some credentials) (.user user) (.running a')
  /-- Signed out, with nothing written. -/
  | signedOut (credentials : Option FCTwitterCredentials) (result : SignInResult) (a' : App K)
    (huser : a'.currentUser = none) (hwrite : a'.users = a.users) :
    AllOrNothing a credentials result (.running a')

/-- Neither missing nor empty. -/
def present (s : Option String) : Bool :=
  s.any (· ≠ "")

/-- One of the two checks that can fail catches the entry, or its profile is whole. -/
def checked (username : Option String) (provider : FIRUserInfo) : Bool :=
  provider.uid.isNone || provider.displayName.isNone ||
    (present provider.displayName && present provider.photoURL && present provider.uid &&
      present username)

/-- The sign-ins that do all or nothing. One that signs nobody in leaves nobody signed in
only if nobody was. -/
def DoesAllOrNothing (username : Option String) (credentials : Option FCTwitterCredentials)
    (result : SignInResult) (a : App K) : Prop :=
  match credentials, result with
  | some _, .user user => user.providerData.head?.any (checked username) = true
  | _, _ => a.currentUser = none

/-! ## The outcomes -/

/-- The username of a session, if it has credentials. -/
theorem username_of_credentialsWithToken {token secret username : Option String}
    {credentials : FCTwitterCredentials}
    (h : FCTwitterCredentials.credentialsWithToken token secret username = some credentials) :
    credentials.username = some (username.getD "") := by
  unfold FCTwitterCredentials.credentialsWithToken at h
  dsimp only at h
  split at h
  · obtain rfl := Option.some.inj h
    rfl
  · simp at h

/-- A sign-in that raises is neither. -/
theorem not_allOrNothing_raise (a a' : App K) (credentials : Option FCTwitterCredentials)
    (result : SignInResult) : ¬AllOrNothing a credentials result a'.raise := by
  rintro ⟨⟩

/-- An alert that changes nothing else is nothing iff nobody is signed in. -/
theorem allOrNothing_presentWhoops_iff (message : String) (a : App K)
    {credentials : Option FCTwitterCredentials} {result : SignInResult}
    (hnobody : credentials = none ∨ ∀ user, result ≠ .user user) :
    AllOrNothing a credentials result (.running (a.presentWhoops message)) ↔
      a.currentUser = none := by
  constructor
  · intro h
    cases h with
    | signedIn credentials user _ huser => simp at hnobody
    | signedOut _ _ _ huser => exact huser
  · intro huser
    exact .signedOut credentials result _ huser rfl

/-- A written profile is whole iff none of its fields is empty. -/
theorem allOrNothing_setProfile_iff {a a' : App K} {credentials : FCTwitterCredentials}
    {user : FIRUser} {name avatar twitterID twitterUsername : String}
    (huser : a'.currentUser = some user.uid)
    (hwrite : a'.users = a.users.updateChildValues user.uid fun r =>
      r.setProfile name avatar twitterID twitterUsername) :
    AllOrNothing a (some credentials) (.user user) (.running a') ↔
      name ≠ "" ∧ avatar ≠ "" ∧ twitterID ≠ "" ∧ twitterUsername ≠ "" := by
  constructor
  · intro h
    cases h with
    | signedIn _ _ _ _ name' avatar' twitterID' twitterUsername' hname havatar hid husername
        hwrite' =>
      -- both writes leave the same record below the user
      have hrecord := congrFun (hwrite.symm.trans hwrite') user.uid
      simp only [Users.updateChildValues_self, UserRecord.setProfile, UserRecord.mk.injEq,
        Option.some.injEq] at hrecord
      simp [hrecord, hname, havatar, hid, husername]
    | signedOut _ _ _ hnone => simp [huser] at hnone
  · rintro ⟨hname, havatar, hid, husername⟩
    exact .signedIn credentials user a' huser name avatar twitterID twitterUsername hname havatar
      hid husername hwrite

/-- A user signed in with credentials, by the first entry of the provider data. -/
theorem allOrNothing_user_iff {credentials : FCTwitterCredentials} {username : Option String}
    (husername : credentials.username = some (username.getD "")) (user : FIRUser) (a : App K) :
    AllOrNothing a (some credentials) (.user user)
        (a.startTwitterAuthentication credentials (.user user)) ↔
      user.providerData.head?.any (checked username) = true := by
  obtain ⟨useruid, providerData⟩ := user
  unfold startTwitterAuthentication completeSignIn
  rw [husername]
  cases providerData with
  | nil => exact iff_of_false (not_allOrNothing_raise _ _ _ _) (by simp)
  | cons provider rest =>
    obtain ⟨uid, displayName, photoURL⟩ := provider
    cases uid with
    | none => exact iff_of_true (.signedOut _ _ _ rfl rfl) rfl
    | some twitterID =>
      cases displayName with
      | none => exact iff_of_true (.signedOut _ _ _ rfl rfl) (by simp [checked])
      | some displayName =>
        cases photoURL with
        | none => exact iff_of_false (not_allOrNothing_raise _ _ _ _) (by simp [checked, present])
        | some avatar =>
          have hiff : present username = true ↔ username.getD "" ≠ "" := by
            cases username <;> simp [present]
          rw [allOrNothing_setProfile_iff rfl rfl]
          simp [checked, present, and_assoc, ← hiff]

/-- A sign-in does all or nothing iff the user it signs in has an entry of provider data
that a check catches or that makes a whole profile, or it signs nobody in and nobody was. -/
theorem allOrNothing_iff (token secret username : Option String) (result : SignInResult)
    (a : App K) :
    AllOrNothing a (FCTwitterCredentials.credentialsWithToken token secret username) result
        (a.authorizationCompleted
          (FCTwitterCredentials.credentialsWithToken token secret username) result) ↔
      DoesAllOrNothing username
        (FCTwitterCredentials.credentialsWithToken token secret username) result a := by
  unfold authorizationCompleted DoesAllOrNothing
  cases hcredentials : FCTwitterCredentials.credentialsWithToken token secret username with
  | none => exact allOrNothing_presentWhoops_iff authenticatingFailed a (Or.inl rfl)
  | some credentials =>
    cases result with
    | error localizedDescription =>
      exact allOrNothing_presentWhoops_iff localizedDescription a (Or.inr (by simp))
    | user user =>
      exact allOrNothing_user_iff (username_of_credentialsWithToken hcredentials) user a

/-- An app with nobody signed in. -/
def signedOutApp : App ℤ :=
  { users := fun _ => {}, delegate := { locMgr := { services := ⟨true, .authorizedAlways⟩ } } }

/-- A session without a username has an empty one written, and a user without a photo URL
or without provider data is signed in when the handler raises. -/
theorem allOrNothing_fails :
    ¬AllOrNothing signedOutApp
        (FCTwitterCredentials.credentialsWithToken (some "token") (some "secret") none)
        (.user ⟨"a", [⟨some "1", some "Ann", some "https://example.com/a.png"⟩]⟩)
        (signedOutApp.authorizationCompleted
          (FCTwitterCredentials.credentialsWithToken (some "token") (some "secret") none)
          (.user ⟨"a", [⟨some "1", some "Ann", some "https://example.com/a.png"⟩]⟩)) ∧
      ∀ providerData ∈ [[⟨some "1", some "Ann", none⟩], []],
        ¬AllOrNothing signedOutApp
          (FCTwitterCredentials.credentialsWithToken (some "token") (some "secret") (some "ann"))
          (.user ⟨"a", providerData⟩)
          (signedOutApp.authorizationCompleted
            (FCTwitterCredentials.credentialsWithToken (some "token") (some "secret") (some "ann"))
            (.user ⟨"a", providerData⟩)) := by
  have hdrops : ∀ (credentials : FCTwitterCredentials) (username : Option String) (user : FIRUser),
      credentials.username = some (username.getD "") →
      user.providerData.head?.any (checked username) = false →
      ¬AllOrNothing signedOutApp (some credentials) (.user user)
        (signedOutApp.authorizationCompleted (some credentials) (.user user)) := by
    intro credentials username user husername hunchecked hall
    rw [authorizationCompleted, allOrNothing_user_iff husername, hunchecked] at hall
    simp at hall
  refine ⟨hdrops _ none _ rfl rfl, fun providerData hmem => hdrops _ (some "ann") _ rfl ?_⟩
  simp only [List.mem_cons, List.not_mem_nil, or_false] at hmem
  rcases hmem with rfl | rfl <;> rfl

end App

end ConfFriends
