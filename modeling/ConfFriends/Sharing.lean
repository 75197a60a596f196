import ConfFriends.MapView.Markers
import ConfFriends.StoreLocation
import ConfFriends.UsersView

/-!
# Who shares a location

A user shares a location if the record has both coordinates. `storeLocation` writes them
as two children, and whoever stops sharing removes them, one at a time, or the whole
node. The readers see a decoded user, in which a missing coordinate is `0` : the block
for `ChildChanged` and `addUserMarker` on the map, the row action and the icon in the
list of users. All four take a user to be sharing if neither coordinate is `0`
(`readersAgree_iff_sharing`), so they agree with the record after any removal, and
after a write iff it put nobody on the equator or the prime meridian
(`readersAgree_iff`).
-/

set_option linter.unusedSectionVars false

namespace ConfFriends

variable {K Image : Type*}

/-! ## The row of a user -/

/-- What a tap on a row leads to. -/
inductive RowAction (K : Type*)
  /-- `ddf_didSelectUser:` of the map. -/
  | didSelectUser (user : DDFUser K)
  /-- An alert 'Whoops', from which the user's profile can be opened. -/
  | whoops (message : String)

def userNotSharingMessage : String :=
  "This user doesn't currently have a location shared."

/-- `tableNode:didSelectRowAtIndexPath:` for the user of the row. -/
def rowAction [DecidableEq K] [Zero K] (user : DDFUser K) : RowAction K :=
  if user.latitude ≠ 0 && user.longitude ≠ 0 then .didSelectUser user
  else .whoops userNotSharingMessage

/-- The row that is selected, which raises past the end of the list. -/
def UsersViewController.didSelectRowAtIndexPath [DecidableEq K] [Zero K] (row : ℕ)
    (s : UsersViewController K) : Option (RowAction K) :=
  s.filteredUsers[row]?.map rowAction

/-- A text in a font. -/
structure NSAttributedString where
  string : String
  fontName : String
  deriving DecidableEq

structure UserCellNode where
  avatarURL : Option String
  nameString : String
  usernameString : String
  icon : NSAttributedString
  deriving DecidableEq

/-- The icon of a user who shares nothing : a Twitter bird. -/
def twitterIcon : NSAttributedString :=
  ⟨"\uf099", "FontAwesome5BrandsRegular"⟩

/-- The icon of a user to be found on the map : a magnifying glass. -/
def searchIcon : NSAttributedString :=
  ⟨"\uf002", "FontAwesome5ProLight"⟩

def UserCellNode.initWithUser [DecidableEq K] [Zero K] (user : DDFUser K) : UserCellNode where
  avatarURL := user.avatar
  nameString := if user.twitterUsername.isSome then user.name.getD "(null)" else "Unknown"
  usernameString := user.twitterUsername.elim "Unknown" ("@" ++ ·)
  icon := if user.latitude ≠ 0 && user.longitude ≠ 0 then searchIcon else twitterIcon

/-! ## Removals -/

/-- What can be removed of a record : a child, or the node. -/
inductive Removal
  | latitude
  | longitude
  | node

def Removal.removeValue (r : UserRecord K) : Removal → UserRecord K
  | .latitude => { r with latitude := none }
  | .longitude => { r with longitude := none }
  | .node => {}

/-- A record after removals. -/
def UserRecord.afterRemovals (r : UserRecord K) (removals : List Removal) : UserRecord K :=
  removals.foldl Removal.removeValue r

@[simp] theorem coordinate?_removeValue (r : UserRecord K) (removal : Removal) :
    (removal.removeValue r).coordinate? = none := by
  cases removal with
  | latitude => rfl
  | longitude => simp [Removal.removeValue, UserRecord.coordinate?]
  | node => rfl

/-- After any removal the record has no coordinate. -/
theorem coordinate?_afterRemovals (r : UserRecord K) (removals : List Removal) :
    (r.afterRemovals removals).coordinate? = if removals = [] then r.coordinate? else none := by
  induction removals generalizing r with
  | nil => rfl
  | cons removal removals ih =>
    have hrest : (r.afterRemovals (removal :: removals)).coordinate? =
        ((removal.removeValue r).afterRemovals removals).coordinate? := rfl
    rw [hrest, ih, coordinate?_removeValue]
    simp

/-! ## The readers -/

section readers

variable [DecidableEq K] [Zero K]

/-- The block for `ChildChanged`, or for `ChildRemoved` if the node is gone. -/
def MapViewController.deliver (M : MapPlatform Image) (key : String) (record : UserRecord K)
    (now : NSTimeInterval) (s : MapViewController K Image) : MapViewController K Image :=
  if record.snapshotExists then childChanged M key record now s else childRemoved key s

/-- What the readers take for a shared location. -/
def DDFUser.sharing (user : DDFUser K) : Bool :=
  decide (user.latitude ≠ 0) && decide (user.longitude ≠ 0)

/-- Each reader treats the user of the record as sharing iff the record has both
coordinates, and a missing one is decoded as `0`. -/
structure ReadersAgree (Image : Type*) (M : MapPlatform Image) (key : String)
    (record : UserRecord K) : Prop where
  /-- A marker on the map stays. -/
  childChanged : ∀ (s : MapViewController K Image) now, (s.userAnnotations key).isSome →
    (((s.deliver M key record now).userAnnotations key).isSome ↔ record.coordinate?.isSome)
  /-- A marker is made for a user with an avatar whom the filter admits. -/
  addUserMarker : ∀ s : MapViewController K Image, s.userAnnotations key = none →
    (boolForKey s.ddfTwitterFriendFilter = true → s.containsFriend record.twitterID = true) →
    (DDFUser.initWithModelDictionary M.urlWithString key record).avatar.isSome →
    ((s.addUserMarker (DDFUser.initWithModelDictionary M.urlWithString key record)).downloads =
        s.downloads ++ [DDFUser.initWithModelDictionary M.urlWithString key record] ↔
      record.coordinate?.isSome)
  /-- The row opens the map. -/
  rowAction : rowAction (DDFUser.initWithModelDictionary M.urlWithString key record) =
      .didSelectUser (DDFUser.initWithModelDictionary M.urlWithString key record) ↔
    record.coordinate?.isSome
  /-- The row has a magnifying glass. -/
  icon : (UserCellNode.initWithUser
      (DDFUser.initWithModelDictionary M.urlWithString key record)).icon = searchIcon ↔
    record.coordinate?.isSome
  latitude : record.latitude = none →
    (DDFUser.initWithModelDictionary M.urlWithString key record).latitude = 0
  longitude : record.longitude = none →
    (DDFUser.initWithModelDictionary M.urlWithString key record).longitude = 0

/-! ## What a reader takes for sharing -/

theorem rowAction_eq_iff (user : DDFUser K) :
    rowAction user = .didSelectUser user ↔ user.sharing = true := by
  unfold rowAction DDFUser.sharing
  split
  · next hsharing => exact iff_of_true rfl hsharing
  · next hhidden => exact iff_of_false nofun hhidden

theorem icon_eq_iff (user : DDFUser K) :
    (UserCellNode.initWithUser user).icon = searchIcon ↔ user.sharing = true := by
  have hne : twitterIcon ≠ searchIcon := by decide
  unfold UserCellNode.initWithUser DDFUser.sharing
  dsimp only
  split
  · next hsharing => exact iff_of_true rfl hsharing
  · next hhidden => exact iff_of_false hne hhidden

/-- The tests of `addUserMarker` that are left to the coordinates. -/
theorem addUserMarker_iff {s : MapViewController K Image} {user : DDFUser K}
    (habsent : (user.identifier.any fun key => (s.userAnnotations key).isSome) = false)
    (hfriend : boolForKey s.ddfTwitterFriendFilter = true → s.containsFriend user.twitterID = true)
    (havatar : user.avatar.isSome) :
    (s.addUserMarker user).downloads = s.downloads ++ [user] ↔ user.sharing = true := by
  have hfilter : (boolForKey s.ddfTwitterFriendFilter && !s.containsFriend user.twitterID) =
      false := by
    cases hon : boolForKey s.ddfTwitterFriendFilter with
    | false => rfl
    | true => simp [hfriend hon]
  have hadmits : s.admits user = user.sharing := by
    unfold MapViewController.admits DDFUser.sharing
    rw [habsent, hfilter, Option.isNone_eq_false_iff.2 havatar]
    simp
  rw [MapViewController.downloads_addUserMarker_iff, hadmits]

/-- A registered marker stays iff the record decodes to a sharing user. -/
theorem deliver_iff {M : MapPlatform Image} {key : String} {record : UserRecord K}
    {now : NSTimeInterval} {s : MapViewController K Image}
    (hmarker : (s.userAnnotations key).isSome) :
    ((s.deliver M key record now).userAnnotations key).isSome ↔
      (DDFUser.initWithModelDictionary M.urlWithString key record).sharing = true := by
  unfold MapViewController.deliver
  split
  · next hexists =>
    unfold MapViewController.childChanged DDFUser.sharing
    rw [if_pos hexists]
    dsimp only
    split
    · next hzero =>
      refine iff_of_false (by simp [MapViewController.removeMarker]) ?_
      simp only [Bool.or_eq_true, decide_eq_true_eq] at hzero
      rcases hzero with hlat | hlon
      · simp [hlat]
      · simp [hlon]
    · next hzero =>
      obtain ⟨ref, href⟩ := Option.isSome_iff_exists.1 hmarker
      rw [href]
      refine iff_of_true (by simp [href]) ?_
      simpa [not_or] using hzero
  · next hgone =>
    obtain rfl : record = {} := UserRecord.eq_empty_of_not_exists (by simpa using hgone)
    refine iff_of_false ?_ (by simp [DDFUser.sharing, DDFUser.initWithModelDictionary])
    simp [MapViewController.childRemoved, hmarker, MapViewController.removeMarker]

/-- A user who decodes to a sharing one has both coordinates. -/
theorem coordinate?_of_sharing {urlWithString : String → Option String} {key : String}
    {record : UserRecord K}
    (h : (DDFUser.initWithModelDictionary urlWithString key record).sharing = true) :
    record.coordinate?.isSome := by
  have hnonzero : ((DDFUser.initWithModelDictionary urlWithString key record).latitude = 0 ||
      (DDFUser.initWithModelDictionary urlWithString key record).longitude = 0) = false := by
    simpa [DDFUser.sharing] using h
  simp [MapViewController.coordinate?_of_ne_zero hnonzero]

/-- The readers agree with the record iff it decodes to a sharing user iff it has a
coordinate. -/
theorem readersAgree_iff_sharing {M : MapPlatform Image} {key : String} {record : UserRecord K} :
    ReadersAgree Image M key record ↔
      ((DDFUser.initWithModelDictionary M.urlWithString key record).sharing = true ↔
        record.coordinate?.isSome) := by
  constructor
  · intro h
    rw [← icon_eq_iff]
    exact h.icon
  · intro h
    exact
      { childChanged := fun s now hmarker => (deliver_iff hmarker).trans h
        addUserMarker := fun s habsent hfriend havatar =>
          (addUserMarker_iff (by simp [DDFUser.initWithModelDictionary, habsent]) hfriend
            havatar).trans h
        rowAction := (rowAction_eq_iff _).trans h
        icon := (icon_eq_iff _).trans h
        latitude := fun hnone => by simp [DDFUser.initWithModelDictionary, hnone]
        longitude := fun hnone => by simp [DDFUser.initWithModelDictionary, hnone] }

end readers

/-! ## Publisher and readers -/

section publisher

variable [LinearOrder K] [Zero K] [IntCast K]

/-- The record that a write of `storeLocation` leaves. -/
theorem users_of_storeLocation {P : Platform K} {clock : ClockReadings} {arc4random : UInt32}
    {fix : CLLocationCoordinate2D K} {a a' : App K} {w : LocationWrite K}
    (hw : storeLocation P clock arc4random fix a = (a', some w)) :
    a'.users w.uid = (a.users w.uid).setLocation w.coordinate w.updatedAt := by
  rcases storeLocation_cases P clock arc4random fix a with ⟨-, heq⟩ | ⟨-, write, -, heq⟩
  · simp [heq] at hw
  · rw [heq, Prod.mk.injEq] at hw
    obtain ⟨rfl, rfl⟩ := hw
    simp [Users.store]

/-- The readers agree about the record of a write after removals iff something has been
removed or the write put no coordinate at `0`. -/
theorem readersAgree_iff (P : Platform K) (M : MapPlatform Image) {clock : ClockReadings}
    {arc4random : UInt32} {fix : CLLocationCoordinate2D K} {a a' : App K} {w : LocationWrite K}
    (hw : storeLocation P clock arc4random fix a = (a', some w)) (removals : List Removal) :
    ReadersAgree Image M w.uid ((a'.users w.uid).afterRemovals removals) ↔
      removals ≠ [] ∨ (w.coordinate.latitude ≠ 0 ∧ w.coordinate.longitude ≠ 0) := by
  rw [readersAgree_iff_sharing, coordinate?_afterRemovals]
  by_cases hremoved : removals = []
  · subst hremoved
    simp [UserRecord.afterRemovals, users_of_storeLocation hw, UserRecord.setLocation,
      UserRecord.coordinate?, DDFUser.sharing, DDFUser.initWithModelDictionary]
  · rw [if_neg hremoved]
    refine iff_of_true (iff_of_false (fun hsharing => ?_) (by simp)) (Or.inl hremoved)
    have hsome := coordinate?_of_sharing hsharing
    rw [coordinate?_afterRemovals, if_neg hremoved] at hsome
    simp at hsome

/-! A concrete phone in the flat world, signed in, that measures a fix on the equator. -/

def sampleClock : ClockReadings :=
  ⟨100, 100, 100⟩

def sampleApp : App ℤ :=
  { currentUser := some "a", users := fun _ => {},
    delegate := { locMgr := { services := ⟨true, .authorizedAlways⟩ } } }

/-- The phone after the fix. -/
def equatorApp : App ℤ :=
  (storeLocation Platform.flat sampleClock 7 ⟨0, 20⟩ sampleApp).1

theorem readersAgree_equator_hidden :
    ReadersAgree String MapViewController.samplePlatform "a"
        ((equatorApp.users "a").afterRemovals [.latitude]) ↔
      [Removal.latitude] ≠ [] ∨ ((0 : ℤ) ≠ 0 ∧ (20 : ℤ) ≠ 0) :=
  readersAgree_iff Platform.flat MapViewController.samplePlatform
    (show storeLocation Platform.flat sampleClock 7 ⟨0, 20⟩ sampleApp =
      (equatorApp, some ⟨"a", ⟨0, 20⟩, 100⟩) from rfl) _

/-- A user on the equator is hidden from the list. -/
theorem equator_hidden :
    (storeLocation Platform.flat sampleClock 7 ⟨0, 20⟩ sampleApp).2 = some ⟨"a", ⟨0, 20⟩, 100⟩ ∧
      Platform.flat.coordinateIsValid ⟨0, 20⟩ = true ∧
      ¬ReadersAgree String MapViewController.samplePlatform "a"
        ((equatorApp.users "a").afterRemovals []) := by
  refine ⟨rfl, by decide, fun h => ?_⟩
  have hicon := h.icon.2 (by decide)
  exact absurd hicon (by decide)

end publisher

end ConfFriends
