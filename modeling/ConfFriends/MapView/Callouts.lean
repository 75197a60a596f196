import ConfFriends.MapView

/-!
# The Twitter profile behind a marker

A tap on the callout of a marker, on its button, or on a row of the list opens the Twitter
profile of the user : in Tweetbot or in the Twitter app by its username, in the browser by
its ID. The three handlers do the same. Only the Twitter app needs the username : the URL
is appended to, which a missing one makes raise, where the others print `(null)`.
-/

set_option linter.unusedSectionVars false

namespace ConfFriends

variable {K Image : Type*}

/-- The schemes for which `canOpenURL:` says yes. -/
structure URLSchemes where
  tweetbot : Bool
  twitter : Bool

/-- What is opened, and with which text as URL. -/
inductive OpenedProfile
  | openURL (url : String)
  | safariVC (url : String)
  deriving DecidableEq

/-- A text printed with `%@`. -/
def printed (s : Option String) : String :=
  s.getD "(null)"

namespace DDFUser

/-- The profile that is opened, unless the handler raises. -/
def openProfile (schemes : URLSchemes) (user : DDFUser K) : Option OpenedProfile :=
  if schemes.tweetbot then
    some (.openURL ("tweetbot://" ++ printed user.twitterUsername ++ "/user_profile/" ++
      printed user.twitterUsername))
  else if schemes.twitter then
    user.twitterUsername.map fun handle => .openURL ("twitter://user?screen_name=" ++ handle)
  else
    some (.safariVC ("https://twitter.com/intent/user?user_id=" ++ printed user.twitterID))

/-- `openUsersTwitter:` of the list. -/
def openUsersTwitter (schemes : URLSchemes) (user : DDFUser K) : Option OpenedProfile :=
  user.openProfile schemes

/-- The profile of a Twitter account. -/
def twitterProfileURL (schemes : URLSchemes) (twitterID twitterUsername : String) :
    OpenedProfile :=
  if schemes.tweetbot then
    .openURL ("tweetbot://" ++ twitterUsername ++ "/user_profile/" ++ twitterUsername)
  else if schemes.twitter then .openURL ("twitter://user?screen_name=" ++ twitterUsername)
  else .safariVC ("https://twitter.com/intent/user?user_id=" ++ twitterID)

/-- With nothing missing the profile is opened. -/
theorem openProfile_of_eq_some {user : DDFUser K} {twitterID twitterUsername : String}
    (hid : user.twitterID = some twitterID) (hname : user.twitterUsername = some twitterUsername)
    (schemes : URLSchemes) :
    user.openProfile schemes = some (twitterProfileURL schemes twitterID twitterUsername) := by
  unfold openProfile twitterProfileURL printed
  rw [hid, hname]
  cases schemes.tweetbot <;> cases schemes.twitter <;> rfl

end DDFUser

namespace UserMapAnnotation

def calloutTapped (schemes : URLSchemes) (marker : UserMapAnnotation K Image) :
    Option OpenedProfile :=
  marker.user.openProfile schemes

def calloutAccessoryControlTapped (schemes : URLSchemes)
    (marker : UserMapAnnotation K Image) : Option OpenedProfile :=
  marker.user.openProfile schemes

end UserMapAnnotation

end ConfFriends
