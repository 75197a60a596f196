import ConfFriends.Device.Effects
import ConfFriends.MapView.Effects
import ConfFriends.ProfileSettings

/-!
# The phone and the set-up of the Twitter filter

A `Phone` is a device together with what the Twitter following filter adds to it : the
flag and the archive of friends, which outlive the process, and in a process the map,
the authorization with Twitter and the requests for friends that are in flight. The
section 'Profile' of the settings adds the reads and the alert of a change of the name.

The rows of the section 'Filter' of the settings turn the filter off and on, or start
`setupTwitterFilter`, which authenticates on its own, requests the friends of whoever
has logged in to Twitter, archives them and turns the filter on. A sign-in
authenticates through the same `FCTwitterAuthorization`. A new authorization cancels
the current instance, but the last call of a cancelled instance clears the current one
too, so that several can be pending.

After every change of the filter the map fetches its users again.
-/

set_option linter.unusedSectionVars false

namespace ConfFriends

variable {K Image : Type*} [LinearOrder K] [Zero K] [IntCast K]

/-! ## The state -/

/-- The flag of the filter, and the object archived under `DDFTwitterFriends`. -/
structure FilterPreferences where
  ddfTwitterFriendFilter : Option Bool := none
  ddfTwitterFriends : Option (List String) := none
  deriving DecidableEq

/-- Who is called with the credentials of an authorization. -/
inductive AuthorizationClient
  | startTwitterAuthentication
  | setupTwitterFilter
  deriving DecidableEq

/-- A call of `getFriendsIDsForUserID:orScreenName:cursor:count:`. -/
structure FriendsIDsRequest where
  /-- The session that signs the request. -/
  oauth : FCTwitterCredentials
  userID : Option String
  screenName : Option String
  cursor : Option String
  count : Option String
  deriving DecidableEq

/-- A running process, with its map. -/
structure Process (K Image : Type*) where
  app : App K
  prefs : FilterPreferences
  map : MapViewController K Image
  /-- The alert 'Setup Filter' is open. -/
  setupFilterAlert : Bool := false
  /-- The instances of `FCTwitterAuthorization` whose completion has not been called. -/
  authorizations : List AuthorizationClient := []
  /-- `g_currentInstance`, an index of `authorizations`. -/
  currentInstance : Option ℕ := none
  /-- The credentials handed to `signInWithCredential`, until its completion. -/
  signIns : List FCTwitterCredentials := []
  requests : List FriendsIDsRequest := []
  /-- The reads of `presentNameAlert`, by the users whose records are read. -/
  nameReads : List String := []
  /-- The alert 'Change Name' is open. -/
  changeNameAlert : Bool := false

inductive Phone (K Image : Type*)
  | terminated (s : Stored K) (prefs : FilterPreferences)
  | running (p : Process K Image)

namespace Phone

def device : Phone K Image → Device K
  | .terminated s _ => .terminated s
  | .running p => .running p.app

def prefs : Phone K Image → FilterPreferences
  | .terminated _ prefs => prefs
  | .running p => p.prefs

def currentUser (p : Phone K Image) : Option String :=
  p.device.stored.currentUser

/-- `boolForKey:` of the flag. -/
def filterOn (p : Phone K Image) : Bool :=
  boolForKey p.prefs.ddfTwitterFriendFilter

end Phone

/-! ## Authorizations -/

def authenticatingFailed : String :=
  "An error occured authenticating."

namespace Process

/-- An alert 'Whoops'. -/
def presentWhoops (message : String) (p : Process K Image) : Process K Image :=
  { p with app := p.app.presentWhoops message }

/-- `friends/ids.json` for the account of the credentials. -/
def requestFriends (credentials : FCTwitterCredentials) (p : Process K Image) :
    Process K Image :=
  { p with
    requests := p.requests ++ [⟨credentials, none, credentials.username, none, some "5000"⟩] }

/-- An instance calls its completion, and there is no current instance any more, whichever
instance it was. -/
def finishWithCredentials (i : ℕ) (credentials : Option FCTwitterCredentials)
    (p : Process K Image) : Process K Image :=
  let finished := { p with
    authorizations := p.authorizations.eraseIdx i
    currentInstance := none }
  match p.authorizations[i]?, credentials with
  | none, _ => finished
  | some _, none => finished.presentWhoops authenticatingFailed
  | some .startTwitterAuthentication, some credentials =>
    { finished with signIns := p.signIns ++ [credentials] }
  | some .setupTwitterFilter, some credentials => finished.requestFriends credentials

/-- `[FCTwitterAuthorization cancel]` -/
def cancel (p : Process K Image) : Process K Image :=
  p.currentInstance.elim p fun i => p.finishWithCredentials i none

/-- `authorizeWithConsumerKey:…` -/
def authorize (client : AuthorizationClient) (p : Process K Image) : Process K Image :=
  { p.cancel with
    authorizations := p.cancel.authorizations ++ [client]
    currentInstance := some p.cancel.authorizations.length }

/-! ## The filter -/

/-- The notification `DDFFilterChanged`, on which the map calls `fetchUsers`. -/
def postFilterChanged (p : Process K Image) : Process K Image :=
  { p with
    map := MapViewController.fetchUsers { p.map with
      ddfTwitterFriendFilter := p.prefs.ddfTwitterFriendFilter
      ddfTwitterFriends := p.prefs.ddfTwitterFriends } }

/-- `setBool:forKey:` of the flag, and the notification. -/
def setFilter (isOn : Bool) (p : Process K Image) : Process K Image :=
  postFilterChanged { p with prefs := { p.prefs with ddfTwitterFriendFilter := some isOn } }

def setupTwitterFilter (p : Process K Image) : Process K Image :=
  p.authorize .setupTwitterFilter

/-- `numberOfRowsInSection:` of the section 'Filter'. -/
def numberOfFilterRows (p : Process K Image) : ℕ :=
  if boolForKey p.prefs.ddfTwitterFriendFilter then 2 else 1

/-- `didSelectRowAtIndexPath:` in the section 'Filter'. -/
def didSelectFilterRow (row : ℕ) (p : Process K Image) : Process K Image :=
  if boolForKey p.prefs.ddfTwitterFriendFilter then
    if row = 0 then p.setFilter false else p.setupTwitterFilter
  else if p.prefs.ddfTwitterFriends.isSome then p.setFilter true
  else { p with setupFilterAlert := true }

/-- The success block of `getFriendsIDsForUserID:…`. No friends are not archived. -/
def friendsFetched (ids : Option (List String)) (p : Process K Image) : Process K Image :=
  if (ids.getD []).length ≠ 0 then
    setFilter true { p with prefs := { p.prefs with ddfTwitterFriends := ids } }
  else p

/-! ## The name and the country -/

/-- The process with what a handler of the app leaves. -/
def ofDevice (p : Process K Image) : Device K → Phone K Image
  | .terminated s => .terminated s p.prefs
  | .running a => .running { p with app := a }

/-- `presentNameAlert` reads the record of the user, and raises without one. -/
def presentNameAlert (p : Process K Image) : Phone K Image :=
  match p.app.currentUser with
  | none => p.ofDevice p.app.raise
  | some uid => .running { p with nameReads := p.nameReads ++ [uid] }

end Process

/-! ## Steps -/

inductive PhoneEvent (K Image : Type*)
  /-- The app is launched, with the children of `users` that Firebase has cached. -/
  | launch (services : CLLocationServices) (locationKey : Bool)
    (children : List (String × UserRecord K))
  /-- An event of the device other than a launch. -/
  | device (e : Event K)
  /-- An event of the map other than `DDFFilterChanged`. -/
  | map (e : MapEvent K Image)
  | startTwitterAuthentication
  | didSelectFilterRow (row : ℕ)
  /-- The actions 'Setup' and 'Cancel' of the alert 'Setup Filter'. -/
  | setup
  | cancelSetup
  /-- The `i`-th authorization finishes, without a token if it has failed. An instance
  that has finished before finishes again without a completion, as one past the end. -/
  | authorizationFinished (i : ℕ) (token secret username : Option String)
  /-- The `i`-th request for friends is answered. -/
  | friendsFetched (i : ℕ) (ids : Option (List String))
  | friendsFailed (i : ℕ) (localizedDescription : String)
  | presentNameAlert
  /-- The `i`-th read of `presentNameAlert` is answered with the record of its user. -/
  | answerNameRead (i : ℕ) (uid : String) (snapshot : UserRecord K)
  /-- The actions 'Save', with the text of the field, and 'Cancel' of the alert 'Change Name'. -/
  | saveName (text : String)
  | cancelName
  | selectCountry (L : CountryLocale) (row : ℕ)

/-- The credentials of the sign-in that an event completes. -/
def Event.completes : Event K → Option FCTwitterCredentials
  | .signIn credentials _ => some credentials
  | _ => none

namespace Process

/-- An event of the device. A sign-in is completed with credentials it was started with. -/
def handleDevice (P : Platform K) (e : Event K) (p : Process K Image) :
    Option (Phone K Image) :=
  if e.completes.all (· ∈ p.signIns) then
    (p.app.handle P e).map fun
      | .terminated s => .terminated s p.prefs
      | .running a =>
        .running { p with app := a, signIns := e.completes.elim p.signIns p.signIns.erase }
  else none

def handle (P : Platform K) (M : MapPlatform Image) (p : Process K Image) :
    PhoneEvent K Image → Option (Phone K Image)
  | .launch _ _ _ => none
  | .device e => p.handleDevice P e
  | .map (.ddfFilterChanged _ _) => none
  | .map e => (p.map.step M e).map fun map => .running { p with map := map }
  | .startTwitterAuthentication => some (.running (p.authorize .startTwitterAuthentication))
  | .didSelectFilterRow row =>
    if row < p.numberOfFilterRows then some (.running (p.didSelectFilterRow row)) else none
  | .setup =>
    if p.setupFilterAlert then
      some (.running (setupTwitterFilter { p with setupFilterAlert := false }))
    else none
  | .cancelSetup =>
    if p.setupFilterAlert then some (.running { p with setupFilterAlert := false }) else none
  | .authorizationFinished i token secret username =>
    some (.running (p.finishWithCredentials i
      (FCTwitterCredentials.credentialsWithToken token secret username)))
  | .friendsFetched i ids =>
    if i < p.requests.length then
      some (.running (friendsFetched ids { p with requests := p.requests.eraseIdx i }))
    else none
  | .friendsFailed i localizedDescription =>
    if i < p.requests.length then
      some (.running (presentWhoops localizedDescription
        { p with requests := p.requests.eraseIdx i }))
    else none
  | .presentNameAlert => some p.presentNameAlert
  | .answerNameRead i uid snapshot =>
    if p.nameReads[i]? = some uid then
      some (.running { p with
        nameReads := p.nameReads.eraseIdx i
        changeNameAlert := p.changeNameAlert || snapshot.snapshotExists })
    else none
  | .saveName text =>
    if p.changeNameAlert then
      some (ofDevice { p with changeNameAlert := false } (p.app.saveName text))
    else none
  | .cancelName =>
    if p.changeNameAlert then some (.running { p with changeNameAlert := false }) else none
  | .selectCountry L row =>
    if row < L.countryCodes.length then some (p.ofDevice (p.app.selectCountry L row)) else none

end Process

namespace Phone

/-- One event. -/
def step (P : Platform K) (M : MapPlatform Image) :
    Phone K Image → PhoneEvent K Image → Option (Phone K Image)
  | .terminated s prefs, .launch services locationKey children =>
    some (.running
      { app := s.launch P services locationKey
        prefs := prefs
        map := MapViewController.viewDidLoad children prefs.ddfTwitterFriendFilter
          prefs.ddfTwitterFriends })
  | .terminated _ _, _ => none
  | .running p, e => p.handle P M e

/-- A phone whose app is terminated launches it, with the map on the archived filter. -/
theorem step_terminated {P : Platform K} {M : MapPlatform Image} {s : Stored K}
    {prefs : FilterPreferences} {e : PhoneEvent K Image} {p' : Phone K Image}
    (h : (terminated s prefs).step P M e = some p') : ∃ services locationKey children,
      e = .launch services locationKey children ∧
        p' = .running
          { app := s.launch P services locationKey
            prefs := prefs
            map := MapViewController.viewDidLoad children prefs.ddfTwitterFriendFilter
              prefs.ddfTwitterFriends } := by
  cases e with
  | launch services locationKey children =>
    exact ⟨services, locationKey, children, rfl, (Option.some.inj h).symm⟩
  | _ => simp [step] at h

/-- A phone with the app just installed, in front of any database. -/
def installed (users : Users K) : Phone K Image :=
  .terminated { users := users } {}

end Phone

end ConfFriends
