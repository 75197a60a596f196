import Mathlib.Logic.Function.Iterate
import ConfFriends.Defaults

/-!
# The map and its markers

`MapViewController` keeps a marker for each user it shows : an annotation on the map
view, and the same object in the dictionary `userAnnotations` under the user's key. A
marker is made in two halves. `addUserMarker` tests the user and starts the download
of the avatar, and the completion of the download inserts the annotation. In between
the user, the dictionary and the filter can change.

Annotations are objects that both containers refer to, so they live on a heap, and the
containers hold references. `children` is the `users` node as Firebase has delivered it.
Each `fetchUsers` adds a registration for `ChildAdded` : a later child is reported to
all registrations, and the existing children to the new one, as `initialEvents` that
are delivered before any later change.
-/

set_option linter.unusedSectionVars false

namespace ConfFriends

variable {K Image : Type*} [DecidableEq K] [Zero K]

/-! ## The state -/

/-- The functions that annotations are made with. -/
structure MapPlatform (Image : Type*) where
  /-- `URLWithString:` -/
  urlWithString : String → Option String
  /-- `timeAgo` of a date at a time, in lower case. -/
  timeAgo : NSTimeInterval → NSTimeInterval → String
  /-- The image as JPEG, in a rounded rectangle. -/
  roundedRectImageFromImage : Image → Image

structure UserMapAnnotation (K Image : Type*) where
  coordinate : CLLocationCoordinate2D K
  title : Option String
  subtitle : String
  image : Image
  user : DDFUser K

structure MapViewController (K Image : Type*) where
  /-- The children of `users`, in the order of their delivery. -/
  children : List (String × UserRecord K)
  childAddedObservers : ℕ := 0
  initialEvents : List (String × UserRecord K) := []
  /-- The preference of the filter. -/
  ddfTwitterFriendFilter : Option Bool
  /-- The archived list of friends. -/
  ddfTwitterFriends : Option (List String)
  twitterFriends : Option (List String) := none
  /-- References to annotations, by the key of the user. -/
  userAnnotations : String → Option ℕ := fun _ => none
  /-- The heap of annotations : a reference is an index. -/
  annotations : List <| UserMapAnnotation K Image := []
  /-- The annotations on the map view. -/
  mapView : List ℕ := []
  /-- The users whose avatar is being downloaded. -/
  downloads : List (DDFUser K) := []

namespace MapViewController

/-! ## Markers -/

/-- The subtitle of an annotation. A missing date is printed as `(null)`. -/
def subtitle (M : MapPlatform Image) (updatedAt : Option NSTimeInterval) (now : NSTimeInterval) :
    String :=
  "Last updated " ++ updatedAt.elim "(null)" fun date => M.timeAgo date now

/-- `containsObject:` of the list of friends, where no list contains anybody and no list
contains `nil`. -/
def containsFriend (s : MapViewController K Image) (twitterID : Option String) : Bool :=
  s.twitterFriends.any fun friends => twitterID.any fun id => decide (id ∈ friends)

def addUserMarker (user : DDFUser K) (s : MapViewController K Image) : MapViewController K Image :=
  if user.identifier.any fun key => (s.userAnnotations key).isSome then s
  else if user.latitude = 0 || user.longitude = 0 || user.avatar.isNone then s
  else if boolForKey s.ddfTwitterFriendFilter && !s.containsFriend user.twitterID then s
  else { s with downloads := s.downloads ++ [user] }

/-- The completion of a download with an image, on the main queue. Every user here has
an identifier, a missing one would raise. -/
def insertMarker (M : MapPlatform Image) (user : DDFUser K) (image : Image)
    (now : NSTimeInterval) (s : MapViewController K Image) : MapViewController K Image :=
  let marker : UserMapAnnotation K Image :=
    { coordinate := user.coordinate
      title := user.name
      subtitle := subtitle M user.updatedAt now
      image := M.roundedRectImageFromImage image
      user := user }
  { s with
    annotations := s.annotations ++ [marker]
    mapView := s.mapView ++ [s.annotations.length]
    userAnnotations := user.identifier.elim s.userAnnotations fun key =>
      Function.update s.userAnnotations key (some s.annotations.length) }

/-- The marker of a key, if any, is taken off the map and out of the dictionary. -/
def removeMarker (key : String) (s : MapViewController K Image) : MapViewController K Image :=
  { s with
    mapView := s.mapView.filter fun ref => s.userAnnotations key ≠ some ref
    userAnnotations := Function.update s.userAnnotations key none }

/-! ## The blocks of the observers -/

/-- The block for `ChildAdded`. -/
def childAdded (M : MapPlatform Image) (key : String) (snapshot : UserRecord K)
    (s : MapViewController K Image) : MapViewController K Image :=
  if snapshot.snapshotExists then
    s.addUserMarker (DDFUser.initWithModelDictionary M.urlWithString key snapshot)
  else s

/-- The block for `ChildChanged`. -/
def childChanged (M : MapPlatform Image) (key : String) (snapshot : UserRecord K)
    (now : NSTimeInterval) (s : MapViewController K Image) : MapViewController K Image :=
  if snapshot.snapshotExists then
    let user := DDFUser.initWithModelDictionary M.urlWithString key snapshot
    if user.latitude = 0 || user.longitude = 0 then s.removeMarker key
    else
      match s.userAnnotations key with
      | some ref =>
        { s with
          annotations := s.annotations.modify ref fun marker =>
            { marker with
              coordinate := user.coordinate
              subtitle := subtitle M user.updatedAt now } }
      | none => s.addUserMarker user
  else s

/-- The block for `ChildRemoved`. -/
def childRemoved (key : String) (s : MapViewController K Image) : MapViewController K Image :=
  if (s.userAnnotations key).isSome then s.removeMarker key else s

def fetchUsers (s : MapViewController K Image) : MapViewController K Image :=
  { s with
    twitterFriends := s.ddfTwitterFriends
    userAnnotations := fun _ => none
    mapView := []
    childAddedObservers := s.childAddedObservers + 1
    initialEvents := s.initialEvents ++ s.children }

/-- The controller after `viewDidLoad`, with the children that Firebase holds already. -/
def viewDidLoad (children : List (String × UserRecord K)) (filter : Option Bool)
    (friends : Option (List String)) : MapViewController K Image :=
  fetchUsers
    { children := children, ddfTwitterFriendFilter := filter, ddfTwitterFriends := friends }

/-! ## Steps -/

/-- The latest snapshot of a user, `none` for a user who has been removed. -/
def latest (s : MapViewController K Image) (key : String) : Option (UserRecord K) :=
  s.children.lookup key

end MapViewController

inductive MapEvent (K Image : Type*)
  | childAdded (key : String) (snapshot : UserRecord K)
  | childChanged (key : String) (snapshot : UserRecord K) (now : NSTimeInterval)
  | childRemoved (key : String)
  /-- An existing child is reported to a new registration. -/
  | initialChildAdded
  /-- The settings change the filter and post `DDFFilterChanged`. -/
  | ddfFilterChanged (filter : Bool) (friends : Option (List String))
  /-- The `i`-th download completes, without an image if it fails. -/
  | downloadCompleted (i : ℕ) (image : Option Image) (now : NSTimeInterval)

namespace MapViewController

/-- One event. Changes of the database are delivered after the initial events. -/
def step (M : MapPlatform Image) (s : MapViewController K Image) :
    MapEvent K Image → Option (MapViewController K Image)
  | .childAdded key snapshot =>
    if s.initialEvents.isEmpty && (s.latest key).isNone && snapshot.snapshotExists then
      some ((childAdded M key snapshot)^[s.childAddedObservers]
        { s with children := s.children ++ [(key, snapshot)] })
    else none
  | .childChanged key snapshot now =>
    if s.initialEvents.isEmpty && (s.latest key).isSome && snapshot.snapshotExists then
      some (childChanged M key snapshot now
        { s with
          children := s.children.map fun child =>
            if child.1 = key then (key, snapshot) else child })
    else none
  | .childRemoved key =>
    if s.initialEvents.isEmpty && (s.latest key).isSome then
      some (childRemoved key { s with children := s.children.filter fun child => child.1 ≠ key })
    else none
  | .initialChildAdded =>
    match s.initialEvents with
    | [] => none
    | (key, snapshot) :: rest => some (childAdded M key snapshot { s with initialEvents := rest })
  | .ddfFilterChanged filter friends =>
    some (fetchUsers
      { s with ddfTwitterFriendFilter := some filter, ddfTwitterFriends := friends })
  | .downloadCompleted i image now =>
    match s.downloads[i]? with
    | none => none
    | some user =>
      let s := { s with downloads := s.downloads.eraseIdx i }
      match image with
      | none => some s
      | some image => some (s.insertMarker M user image now)

/-! ## What the operations do -/

/-- The tests of `addUserMarker`. -/
def admits (user : DDFUser K) (s : MapViewController K Image) : Bool :=
  !(user.identifier.any fun key => (s.userAnnotations key).isSome) &&
    !(user.latitude = 0 || user.longitude = 0 || user.avatar.isNone) &&
    !(boolForKey s.ddfTwitterFriendFilter && !s.containsFriend user.twitterID)

/-- `addUserMarker` starts a download iff the user passes its tests, and does nothing else. -/
theorem addUserMarker_eq (user : DDFUser K) (s : MapViewController K Image) :
    s.addUserMarker user =
      if s.admits user then { s with downloads := s.downloads ++ [user] } else s := by
  unfold addUserMarker admits
  generalize (user.identifier.any fun key => (s.userAnnotations key).isSome) = shown
  generalize (decide (user.latitude = 0) || decide (user.longitude = 0) || user.avatar.isNone) =
    unusable
  generalize (boolForKey s.ddfTwitterFriendFilter && !s.containsFriend user.twitterID) = filtered
  cases shown <;> cases unusable <;> cases filtered <;> rfl

/-- A download has been started iff the user passes the tests. -/
theorem downloads_addUserMarker_iff {user : DDFUser K} {s : MapViewController K Image} :
    (s.addUserMarker user).downloads = s.downloads ++ [user] ↔ s.admits user = true := by
  rw [addUserMarker_eq]
  split
  · next hadmits => exact iff_of_true rfl hadmits
  · next hadmits => exact iff_of_false (by simp) hadmits

/-- The block for `ChildAdded` starts a download of the child. -/
def admitsChild (M : MapPlatform Image) (key : String) (snapshot : UserRecord K)
    (s : MapViewController K Image) : Bool :=
  snapshot.snapshotExists &&
    s.admits (DDFUser.initWithModelDictionary M.urlWithString key snapshot)

theorem childAdded_eq (M : MapPlatform Image) (key : String) (snapshot : UserRecord K)
    (s : MapViewController K Image) : childAdded M key snapshot s =
      { s with
        downloads := s.downloads ++ List.replicate (if s.admitsChild M key snapshot then 1 else 0)
          (DDFUser.initWithModelDictionary M.urlWithString key snapshot) } := by
  unfold childAdded admitsChild
  rw [addUserMarker_eq]
  cases snapshot.snapshotExists with
  | false => simp
  | true =>
    cases s.admits (DDFUser.initWithModelDictionary M.urlWithString key snapshot) with
    | false => simp
    | true => simp

/-- The registrations for `ChildAdded` each start a download of their own. -/
theorem iterate_childAdded (M : MapPlatform Image) (key : String) (snapshot : UserRecord K) :
    ∀ (n : ℕ) (s : MapViewController K Image), (childAdded M key snapshot)^[n] s =
      { s with
        downloads := s.downloads ++ List.replicate (if s.admitsChild M key snapshot then n else 0)
          (DDFUser.initWithModelDictionary M.urlWithString key snapshot) }
  | 0, s => by simp
  | n + 1, s => by
    -- a download under way does not keep the next registration from starting another
    have hkept : (childAdded M key snapshot s).admitsChild M key snapshot =
        s.admitsChild M key snapshot := by
      rw [childAdded_eq]
      rfl
    rw [Function.iterate_succ_apply, iterate_childAdded M key snapshot n, hkept, childAdded_eq]
    cases s.admitsChild M key snapshot with
    | false => simp
    | true => simp [List.replicate_succ]

/-! ## Snapshots after an event -/

theorem lookup_replace (key : String) (snapshot : UserRecord K) (key' : String) :
    ∀ children : List (String × UserRecord K),
      (children.map fun child => if child.1 = key then (key, snapshot) else child).lookup key' =
        if key' = key then (children.lookup key').map fun _ => snapshot
        else children.lookup key'
  | [] => by simp
  | (k, r) :: children => by
    have ih := lookup_replace key snapshot key' children
    by_cases hk : k = key
    · subst hk
      by_cases hkey : key' = k
      · simp [hkey]
      · simp only [List.map_cons, if_true, List.lookup_cons, beq_eq_false_iff_ne.2 hkey, ih,
          hkey, if_false]
    · by_cases hkey : key' = k
      · subst hkey
        simp [hk]
      · simp only [List.map_cons, hk, if_false, List.lookup_cons, beq_eq_false_iff_ne.2 hkey, ih]

theorem lookup_remove {key key' : String} (h : key' ≠ key) :
    ∀ children : List (String × UserRecord K),
      (children.filter fun child => child.1 ≠ key).lookup key' = children.lookup key'
  | [] => rfl
  | (k, r) :: children => by
    have ih := lookup_remove h children
    by_cases hk : k = key
    · subst hk
      simpa [List.lookup_cons, beq_eq_false_iff_ne.2 h] using ih
    · by_cases hkey : key' = k
      · subst hkey
        simp [hk]
      · simpa [hk, List.lookup_cons, beq_eq_false_iff_ne.2 hkey] using ih

end MapViewController

end ConfFriends
