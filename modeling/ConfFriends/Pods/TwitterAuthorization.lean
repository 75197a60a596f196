import Mathlib.Data.List.Infix
import ConfFriends.Auth
import ConfFriends.Delimited
import ConfFriends.Tracked.Record

/-!
# The authorization with Twitter

`FCTwitterAuthorization` gets credentials from the Twitter app, which opens a URL of this
app in return, or from the web : a request token, a session in which the user logs in, and
an access token. An instance waits for one block at a time (`Block`). The class keeps one
instance as the current one, which `cancel` and `callbackURLReceived:` are for. A new
authorization cancels the current instance, but the blocks of a cancelled instance still run,
each to its end, and `finishWithCredentials:` clears the current instance whichever it is.

The blocks run one at a time, in any order, and `client` is what a completion is for. An
exception ends the process (`raised`).
-/

set_option linter.unusedSectionVars false

namespace ConfFriends.Pods

/-- What Foundation reads off a URL. -/
structure NSURL where
  absoluteString : String
  host : Option String := none
  queryItems : List (String × Option String) := []
  deriving DecidableEq

/-! ## The consumer -/

/-- `FCBasicOAuthConsumer`, without the keys of the app. -/
structure FCBasicOAuthConsumer where
  token : Option String := none
  tokenSecret : Option String := none
  reportedUsername : Option String := none
  verifier : Option String := none
  deriving DecidableEq

namespace FCBasicOAuthConsumer

/-- One pair of a response. -/
def addPair (oauth : FCBasicOAuthConsumer) : List String → FCBasicOAuthConsumer
  | [name, value] =>
    if name = "" then oauth
    else if name = "oauth_token" then { oauth with token := some value }
    else if name = "oauth_token_secret" then { oauth with tokenSecret := some value }
    else if name = "username" ∨ name = "screen_name" then
      { oauth with reportedUsername := some value }
    else oauth
  | _ => oauth

/-- The text of a response, if it has one. -/
def addAuthorizationResponse (responseData : Option String) (oauth : FCBasicOAuthConsumer) :
    FCBasicOAuthConsumer :=
  (responseData.elim [] pairComponents).foldl addPair oauth

def addQueryItem (oauth : FCBasicOAuthConsumer) (queryItem : String × Option String) :
    FCBasicOAuthConsumer :=
  if queryItem.1 = "oauth_token" then { oauth with token := queryItem.2 }
  else if queryItem.1 = "oauth_verifier" then { oauth with verifier := queryItem.2 }
  else oauth

def addAuthorizedResponseCallbackURL (url : NSURL) (oauth : FCBasicOAuthConsumer) :
    FCBasicOAuthConsumer :=
  url.queryItems.foldl addQueryItem oauth

/-- The consumer has a token and its secret. -/
def hasToken (oauth : FCBasicOAuthConsumer) : Bool :=
  (oauth.token.getD "").length ≠ 0 && (oauth.tokenSecret.getD "").length ≠ 0

/-- The credentials that an instance finishes with. -/
def credentials (oauth : FCBasicOAuthConsumer) : Option FCTwitterCredentials :=
  FCTwitterCredentials.credentialsWithToken oauth.token oauth.tokenSecret oauth.reportedUsername

end FCBasicOAuthConsumer

/-! ## Instances -/

inductive URLSession
  | running | invalidated
  deriving DecidableEq

/-- What an instance waits for. -/
inductive Block
  | openURL
  | requestToken (oauth : FCBasicOAuthConsumer)
  | authenticationSession (oauth : FCBasicOAuthConsumer)
  | accessToken (oauth : FCBasicOAuthConsumer)
  deriving DecidableEq

structure FCTwitterAuthorization (C : Type*) where
  completion : Option C
  urlSession : Option URLSession := none
  block : Option Block := none
  deriving DecidableEq

/-- A call of the completion of the `i`-th instance. -/
structure CompletionCall (C : Type*) where
  index : ℕ
  client : C
  credentials : Option FCTwitterCredentials
  deriving DecidableEq

/-- The instances in the order of their creation. -/
structure Authorizations (C : Type*) where
  instances : List (FCTwitterAuthorization C) := []
  /-- `g_currentInstance` -/
  currentInstance : Option ℕ := none
  calls : List (CompletionCall C) := []
  /-- An exception has ended the process. -/
  raised : Bool := false
  deriving DecidableEq

namespace Authorizations

variable {C : Type*}

/-- The `i`-th instance changes. -/
def set (i : ℕ) (a : FCTwitterAuthorization C) (s : Authorizations C) : Authorizations C :=
  { s with instances := s.instances.set i a }

def raise (s : Authorizations C) : Authorizations C :=
  { s with raised := true }

/-- `finishWithCredentials:` of the instance `a`, the `i`-th one. -/
def finishWithCredentials (i : ℕ) (a : FCTwitterAuthorization C)
    (creds : Option FCTwitterCredentials) (s : Authorizations C) : Authorizations C :=
  { s with
    instances := s.instances.set i { a with
      completion := none
      urlSession := a.urlSession.map fun _ => .invalidated }
    currentInstance := none
    calls := s.calls ++ (a.completion.map fun client => ⟨i, client, creds⟩).toList }

/-- The current instance with its index. -/
def current (s : Authorizations C) : Option (ℕ × FCTwitterAuthorization C) :=
  s.currentInstance.bind fun i => s.instances[i]?.map (i, ·)

/-- `cancel` -/
def cancel (s : Authorizations C) : Authorizations C :=
  s.current.elim s fun p => s.finishWithCredentials p.1 p.2 none

/-- The instance after `startOAuthFlow`. -/
def startOAuthFlow (a : FCTwitterAuthorization C) : FCTwitterAuthorization C :=
  { a with urlSession := some .running, block := some (.requestToken {}) }

/-- `authorizeWithConsumerKey:…` on a device that can open the URL of the Twitter app, or
cannot. -/
def authorize (client : C) (canOpenURL : Bool) (s : Authorizations C) : Authorizations C :=
  let a : FCTwitterAuthorization C := { completion := some client }
  { s.cancel with
    instances := s.cancel.instances ++
      [if canOpenURL then { a with block := some .openURL } else startOAuthFlow a]
    currentInstance := some s.cancel.instances.length }

/-! ## The answer of the Twitter app -/

/-- One pair of the host of a callback URL. A name that cannot be decoded raises. -/
def addParam (removingPercentEncoding : String → Option String) (params : Dictionary String) :
    List String → Option (Dictionary String)
  | [] => some params
  | name :: parts =>
    if name = "" then some params
    else (removingPercentEncoding name).map fun key =>
      params.setObject key ((name :: parts).getLast (List.cons_ne_nil _ _))

def callbackParams (removingPercentEncoding : String → Option String) (host : Option String) :
    Option (Dictionary String) :=
  (host.elim [] pairComponents).foldlM (addParam removingPercentEncoding) .empty

def callbackURLReceived (removingPercentEncoding : String → Option String) (url : NSURL)
    (s : Authorizations C) : Authorizations C :=
  match s.current with
  | none => s
  | some (i, a) =>
    match callbackParams removingPercentEncoding url.host with
    | none => s.raise
    | some params =>
      s.finishWithCredentials i a
        (FCTwitterCredentials.credentialsWithToken (params "token") (params "secret")
          (params "username"))

/-! ## The blocks -/

def openURLCompleted (i : ℕ) (a : FCTwitterAuthorization C) (success : Bool)
    (s : Authorizations C) : Authorizations C :=
  s.set i (if success then { a with block := none } else startOAuthFlow a)

/-- The request has been answered with a token and its secret. -/
def answered (error : Bool) (statusCode : ℕ) (oauth : FCBasicOAuthConsumer) : Bool :=
  !error && statusCode = 200 && oauth.hasToken

def requestTokenCompleted (i : ℕ) (a : FCTwitterAuthorization C) (oauth : FCBasicOAuthConsumer)
    (data : Option String) (error : Bool) (statusCode : ℕ) (s : Authorizations C) :
    Authorizations C :=
  let oauth := oauth.addAuthorizationResponse data
  if answered error statusCode oauth then
    s.set i { a with block := some (.authenticationSession oauth) }
  else s.finishWithCredentials i { a with block := none } none

def accessTokenCompleted (i : ℕ) (a : FCTwitterAuthorization C) (oauth : FCBasicOAuthConsumer)
    (data : Option String) (error : Bool) (statusCode : ℕ) (s : Authorizations C) :
    Authorizations C :=
  let oauth := oauth.addAuthorizationResponse data
  s.finishWithCredentials i { a with block := none }
    (if answered error statusCode oauth then oauth.credentials else none)

/-- `authorizeOAuthConsumer:withCallbackURL:`. A dictionary literal with a missing verifier
raises, and so does a task of an invalidated session. -/
def authorizeOAuthConsumer (i : ℕ) (a : FCTwitterAuthorization C) (oauth : FCBasicOAuthConsumer)
    (callbackURL : NSURL) (s : Authorizations C) : Authorizations C :=
  let oauth := oauth.addAuthorizedResponseCallbackURL callbackURL
  match oauth.verifier, a.urlSession with
  | none, _ => s.raise
  | some _, some .invalidated => s.raise
  | some _, some .running => s.set i { a with block := some (.accessToken oauth) }
  | some _, none => s.set i { a with block := none }

/-- The user has declined. -/
def denied (callbackURL : NSURL) : Bool :=
  "?denied=".toList <:+: callbackURL.absoluteString.toList

def authenticationSessionCompleted (i : ℕ) (a : FCTwitterAuthorization C)
    (oauth : FCBasicOAuthConsumer) (callbackURL : Option NSURL) (error : Bool)
    (s : Authorizations C) : Authorizations C :=
  match callbackURL with
  | none => s.finishWithCredentials i { a with block := none } none
  | some callbackURL =>
    if error || denied callbackURL then s.finishWithCredentials i { a with block := none } none
    else s.authorizeOAuthConsumer i a oauth callbackURL

end Authorizations

/-! ## Steps -/

inductive AuthorizationEvent (C : Type*)
  | authorize (client : C) (canOpenURL : Bool)
  | cancel
  | callbackURLReceived (url : NSURL)
  /-- The completion of `openURL:` of the `i`-th instance. -/
  | openURLCompleted (i : ℕ) (success : Bool)
  /-- The completion of the data task of the `i`-th instance. -/
  | dataTaskCompleted (i : ℕ) (data : Option String) (error : Bool) (statusCode : ℕ)
  | authenticationSessionCompleted (i : ℕ) (callbackURL : Option NSURL) (error : Bool)

namespace Authorizations

variable {C : Type*}

/-- A block of the `i`-th instance runs, if it is the one that the instance waits for. -/
def runBlock (i : ℕ) (f : FCTwitterAuthorization C → Block → Option (Authorizations C))
    (s : Authorizations C) : Option (Authorizations C) :=
  s.instances[i]?.bind fun a => a.block.bind (f a)

def step (removingPercentEncoding : String → Option String) (s : Authorizations C)
    (e : AuthorizationEvent C) : Option (Authorizations C) :=
  if s.raised then none
  else match e with
  | .authorize client canOpenURL => some (s.authorize client canOpenURL)
  | .cancel => some s.cancel
  | .callbackURLReceived url => some (s.callbackURLReceived removingPercentEncoding url)
  | .openURLCompleted i success =>
    s.runBlock i fun a block =>
      match block with
      | .openURL => some (s.openURLCompleted i a success)
      | _ => none
  | .dataTaskCompleted i data error statusCode =>
    s.runBlock i fun a block =>
      match block with
      | .requestToken oauth => some (s.requestTokenCompleted i a oauth data error statusCode)
      | .accessToken oauth => some (s.accessTokenCompleted i a oauth data error statusCode)
      | _ => none
  | .authenticationSessionCompleted i callbackURL error =>
    s.runBlock i fun a block =>
      match block with
      | .authenticationSession oauth =>
        some (s.authenticationSessionCompleted i a oauth callbackURL error)
      | _ => none

end Authorizations

end ConfFriends.Pods
