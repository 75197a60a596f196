import ConfFriends.Transition.Run
import ConfFriends.Transition.History
import ConfFriends.Transition.Parties
import ConfFriends.Transition.Register
import ConfFriends.Transition.Simulation
import ConfFriends.Tracked
import ConfFriends.Tracked.Record
import ConfFriends.Delimited
import ConfFriends.PercentEncoding
import ConfFriends.User
import ConfFriends.Plank
import ConfFriends.Plank.RoundTrip
import ConfFriends.Plank.Coding
import ConfFriends.Defaults
import ConfFriends.LocationManager
import ConfFriends.Pods.LocationManager
import ConfFriends.Pods.LocationManager.Effects
import ConfFriends.Pods.LocationManager.Hardware
import ConfFriends.Pods.LocationManager.Calls
import ConfFriends.Pods.LocationManager.Recurring
import ConfFriends.AppDelegate
import ConfFriends.App
import ConfFriends.StoreLocation
import ConfFriends.Auth
import ConfFriends.Pods.TwitterAuthorization
import ConfFriends.Pods.OAuthSignature
import ConfFriends.Pods.OAuthSignature.Received
import ConfFriends.Pods.TwitterAuthorization.Effects
import ConfFriends.Pods.TwitterAuthorization.Completions
import ConfFriends.Pods.TwitterAuthorization.Credentials
import ConfFriends.Screens
import ConfFriends.Device
import ConfFriends.Device.Effects
import ConfFriends.Device.Disclosure
import ConfFriends.Device.Profiles
import ConfFriends.Device.Delegate
import ConfFriends.Device.Consent
import ConfFriends.Device.Deletion
import ConfFriends.Device.Filters
import ConfFriends.Device.Controls
import ConfFriends.Device.Hiding
import ConfFriends.Device.Zone
import ConfFriends.Device.Subscriptions
import ConfFriends.Device.Bearing
import ConfFriends.Device.Throttle
import ConfFriends.Device.FailedDeletion
import ConfFriends.MapView
import ConfFriends.Pods.TimeAgo
import ConfFriends.MapView.Effects
import ConfFriends.MapView.Markers
import ConfFriends.MapView.Filter
import ConfFriends.MapView.Latest
import ConfFriends.MapView.InPlace
import ConfFriends.MapView.Registrations
import ConfFriends.MapView.Provenance
import ConfFriends.MapView.Callouts
import ConfFriends.UsersView
import ConfFriends.UsersView.Segments
import ConfFriends.UsersView.Search
import ConfFriends.Sharing
import ConfFriends.Plank.Row
import ConfFriends.Country
import ConfFriends.UsersView.Country
import ConfFriends.Country.Rows
import ConfFriends.Sphere
import ConfFriends.LocationWithBearing
import ConfFriends.ProfileSettings
import ConfFriends.TwitterFilter
import ConfFriends.TwitterFilter.Effects
import ConfFriends.TwitterFilter.Owner
import ConfFriends.TwitterFilter.Authorization
import ConfFriends.SignIn
import ConfFriends.Cylinder
import ConfFriends.WrappedZone
import ConfFriends.TwitterFilter.Following
import ConfFriends.Network
import ConfFriends.Network.Whereabouts
import ConfFriends.Network.Accounts
import ConfFriends.Network.Provenance
import ConfFriends.Ledger
import ConfFriends.Transition.Program
import ConfFriends.Pods.MemoryCache
import ConfFriends.Pods.MemoryCache.Accounts
import ConfFriends.Pods.MemoryCache.Limits
