import ConfFriends.App

/-!
# Sign-in with Twitter

`FCTwitterCredentials.credentialsWithToken` builds the credentials of a Twitter
session, and `startTwitterAuthentication` is the completion of `signInWithCredential` :
the user is signed in when it runs, so each of its checks signs the user out again.
After the checks it writes the profile and opens the 'Location Sharing' prompt, which
`shareMyLocation` and `dontShareLocation` answer.
-/

set_option linter.unusedSectionVars false

namespace ConfFriends

variable {K : Type*} [LinearOrder K] [Zero K] [IntCast K]

/-! ## Credentials and results -/

structure FCTwitterCredentials where
  token : String
  secret : String
  username : Option String
  deriving DecidableEq

/-- Missing parts become empty strings, and a session without token or secret is `nil`. -/
def FCTwitterCredentials.credentialsWithToken (token secret username : Option String) :
    Option FCTwitterCredentials :=
  let creds : FCTwitterCredentials :=
    ⟨token.getD "", secret.getD "", some (username.getD "")⟩
  if creds.token.length ≠ 0 ∧ creds.secret.length ≠ 0 then some creds else none

/-- One entry of `providerData`. -/
structure FIRUserInfo where
  uid : Option String
  displayName : Option String
  photoURL : Option String
  deriving DecidableEq

structure FIRUser where
  uid : String
  providerData : List FIRUserInfo
  deriving DecidableEq

/-- What the completion of `signInWithCredential` is called with. -/
inductive SignInResult
  | error (localizedDescription : String)
  | user (user : FIRUser)
  deriving DecidableEq

/-! ## The completion of a sign-in -/

/-- The profile that a sign-in writes. -/
def UserRecord.setProfile (r : UserRecord K) (name avatar twitterID twitterUsername : String) :
    UserRecord K :=
  { r with
    name := some name
    avatar := some avatar
    twitterID := some twitterID
    twitterUsername := some twitterUsername }

/-! The messages of the checks. -/

def twitterIDMissing : String :=
  "Your Twitter ID is missing, please try signing in again."

def twitterDisplayNameMissing : String :=
  "Your Twitter display name is missing, please try signing in again."

def twitterUsernameMissing : String :=
  "Your Twitter username is missing, please try signing in again."

namespace App

/-- `[[FIRAuth auth] signOut:nil]` -/
def signOut (a : App K) : App K :=
  { a with currentUser := none }

/-- An alert 'Whoops'. -/
def presentWhoops (message : String) (a : App K) : App K :=
  { a with whoops := some message }

/-- The checks and the profile write, with the user signed in. -/
def completeSignIn (credentials : FCTwitterCredentials) (user : FIRUser) (a : App K) : Device K :=
  match user.providerData with
  | [] => a.raise
  | provider :: _ =>
    match provider.uid, provider.displayName, credentials.username with
    | none, _, _ => .running (a.presentWhoops twitterIDMissing).signOut
    | some _, none, _ => .running (a.presentWhoops twitterDisplayNameMissing).signOut
    | some _, some _, none => .running (a.presentWhoops twitterUsernameMissing).signOut
    | some twitterID, some displayName, some username =>
      match provider.photoURL with
      | none => a.raise
      | some avatar =>
        .running { a with
          users := a.users.updateChildValues user.uid fun r =>
            r.setProfile displayName avatar twitterID username
          locationSharingAlert := true }

/-- One of the three checks fails, and the user is signed out again. -/
def failsCheck (credentials : FCTwitterCredentials) (user : FIRUser) : Bool :=
  match user.providerData with
  | [] => false
  | provider :: _ =>
    !(provider.uid.isSome && provider.displayName.isSome && credentials.username.isSome)

/-- Nothing that the profile is made of is missing. -/
def profileComplete (credentials : FCTwitterCredentials) (user : FIRUser) : Bool :=
  match user.providerData with
  | [] => false
  | provider :: _ =>
    provider.uid.isSome && provider.displayName.isSome && credentials.username.isSome &&
      provider.photoURL.isSome

/-- The completion of `signInWithCredential`. -/
def startTwitterAuthentication (credentials : FCTwitterCredentials) (result : SignInResult)
    (a : App K) : Device K :=
  match result with
  | .error localizedDescription => .running (a.presentWhoops localizedDescription)
  | .user user => { a with currentUser := some user.uid }.completeSignIn credentials user

/-- What a completed sign-in can lead to : signed out again, ended by an exception with
the user still signed in, or in front of the prompt with the profile written. -/
theorem startTwitterAuthentication_cases (credentials : FCTwitterCredentials) (user : FIRUser)
    (a : App K) :
    (failsCheck credentials user = true ∧
      ∃ message, a.startTwitterAuthentication credentials (.user user) =
        .running (a.presentWhoops message).signOut) ∨
    (failsCheck credentials user = false ∧ profileComplete credentials user = false ∧
      a.startTwitterAuthentication credentials (.user user) =
        raise { a with currentUser := some user.uid }) ∨
    (failsCheck credentials user = false ∧ profileComplete credentials user = true ∧
      ∃ displayName avatar twitterID username : String,
        a.startTwitterAuthentication credentials (.user user) =
          .running { a with
            currentUser := some user.uid
            users := a.users.updateChildValues user.uid fun r =>
              r.setProfile displayName avatar twitterID username
            locationSharingAlert := true }) := by
  unfold startTwitterAuthentication completeSignIn failsCheck profileComplete
  dsimp only
  split
  · exact Or.inr (Or.inl ⟨rfl, rfl, rfl⟩)
  · next provider _ _ =>
    split
    · next huid => exact Or.inl ⟨by simp [huid], _, rfl⟩
    · next hname => exact Or.inl ⟨by simp [hname], _, rfl⟩
    · next husername => exact Or.inl ⟨by simp [husername], _, rfl⟩
    · next huid hname husername =>
      split
      · next hphoto =>
        exact Or.inr (Or.inl ⟨by simp [huid, hname, husername], by simp [hphoto], rfl⟩)
      · next hphoto =>
        exact Or.inr (Or.inr ⟨by simp [huid, hname, husername],
          by simp [huid, hname, husername, hphoto], _, _, _, _, rfl⟩)

/-! ## The answers to the prompt -/

/-- The action 'Share My Location'. -/
def shareMyLocation (P : Platform K) (a : App K) : App K :=
  let defaults := { a.defaults with ddfLocationDisabled := some false }
  { a with
    defaults := defaults
    delegate := a.delegate.fetchLocationChanges P defaults
    locationSharingAlert := false }

/-- The action 'Don't Share Location'. -/
def dontShareLocation (a : App K) : Device K :=
  { a with
    defaults := { a.defaults with ddfLocationDisabled := some true }
    locationSharingAlert := false }.removeCoordinate

end App

end ConfFriends
