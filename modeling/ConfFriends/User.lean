import Mathlib.Logic.Function.Basic
import Mathlib.Order.Defs.LinearOrder
import Mathlib.Data.Rat.Defs

/-!
# The `users` node of the database and the decoded user

`UserRecord` is the value of `users/<uid>` : the children the app reads or writes,
each present or not. Firebase has no empty nodes, so the record without children is
the absent node, and `snapshotExists` is `FIRDataSnapshot.exists`.

`DDFUser` is what the screens work with. `initWithModelDictionary` decodes a record :
a missing string stays missing, a missing coordinate is the `0` of a fresh instance.
-/

namespace ConfFriends

/-- Seconds since 1970. -/
abbrev NSTimeInterval := ℚ

/-- A coordinate in degrees. The numbers `K` are the doubles of the device, or any
other ordered type with a zero and integers. -/
@[ext]
structure CLLocationCoordinate2D (K : Type*) where
  latitude : K
  longitude : K
  deriving DecidableEq

/-- The children of `users/<uid>`. -/
@[ext]
structure UserRecord (K : Type*) where
  latitude : Option K := none
  longitude : Option K := none
  updatedAt : Option NSTimeInterval := none
  name : Option String := none
  avatar : Option String := none
  twitterID : Option String := none
  twitterUsername : Option String := none
  country : Option String := none
  countryCode : Option String := none
  deriving DecidableEq

/-- Where a user was, and when. -/
@[ext]
structure Sighting (K : Type*) where
  coordinate : CLLocationCoordinate2D K
  updatedAt : Option NSTimeInterval
  deriving DecidableEq

variable {K : Type*}

namespace UserRecord

/-- The node has a child. -/
def snapshotExists (r : UserRecord K) : Bool :=
  r.latitude.isSome || r.longitude.isSome || r.updatedAt.isSome || r.name.isSome ||
    r.avatar.isSome || r.twitterID.isSome || r.twitterUsername.isSome || r.country.isSome ||
    r.countryCode.isSome

/-- The `latitude` and `longitude` children with their `removeValue` applied. -/
def removeCoordinate (r : UserRecord K) : UserRecord K :=
  { r with latitude := none, longitude := none }

/-- The update `storeLocation` sends. -/
def setLocation (r : UserRecord K) (c : CLLocationCoordinate2D K) (updatedAt : NSTimeInterval) :
    UserRecord K :=
  { r with latitude := some c.latitude, longitude := some c.longitude, updatedAt := some updatedAt }

/-- The record has both coordinates. -/
def coordinate? (r : UserRecord K) : Option (CLLocationCoordinate2D K) :=
  match r.latitude, r.longitude with
  | some latitude, some longitude => some ⟨latitude, longitude⟩
  | _, _ => none

/-- What a record with both coordinates shows. -/
def sighting? (r : UserRecord K) : Option (Sighting K) :=
  r.coordinate?.map fun c => ⟨c, r.updatedAt⟩

@[simp] theorem snapshotExists_empty : (({} : UserRecord K)).snapshotExists = false :=
  rfl

/-- A record whose node does not exist has no child. -/
theorem eq_empty_of_not_exists {r : UserRecord K} (h : r.snapshotExists = false) : r = {} := by
  simp only [snapshotExists, Bool.or_eq_false_iff, Option.isSome_eq_false_iff,
    Option.isNone_iff_eq_none] at h
  obtain ⟨⟨⟨⟨⟨⟨⟨⟨h₁, h₂⟩, h₃⟩, h₄⟩, h₅⟩, h₆⟩, h₇⟩, h₈⟩, h₉⟩ := h
  ext1 <;> assumption

/-- A record with both coordinates exists. -/
theorem snapshotExists_of_coordinate {r : UserRecord K} {c : CLLocationCoordinate2D K}
    (h : r.coordinate? = some c) : r.snapshotExists = true := by
  unfold coordinate? at h
  split at h
  · next hlat _ => simp [snapshotExists, hlat]
  · simp at h

@[simp] theorem removeCoordinate_empty : (({} : UserRecord K)).removeCoordinate = {} :=
  rfl

@[simp] theorem removeCoordinate_latitude (r : UserRecord K) :
    r.removeCoordinate.latitude = none :=
  rfl

@[simp] theorem removeCoordinate_longitude (r : UserRecord K) :
    r.removeCoordinate.longitude = none :=
  rfl

@[simp] theorem coordinate?_removeCoordinate (r : UserRecord K) :
    r.removeCoordinate.coordinate? = none :=
  rfl

@[simp] theorem coordinate?_setLocation (r : UserRecord K) (c : CLLocationCoordinate2D K)
    (updatedAt : NSTimeInterval) : (r.setLocation c updatedAt).coordinate? = some c :=
  rfl

@[simp] theorem sighting?_empty : (({} : UserRecord K)).sighting? = none :=
  rfl

@[simp] theorem sighting?_removeCoordinate (r : UserRecord K) :
    r.removeCoordinate.sighting? = none :=
  rfl

@[simp] theorem sighting?_setLocation (r : UserRecord K) (c : CLLocationCoordinate2D K)
    (updatedAt : NSTimeInterval) :
    (r.setLocation c updatedAt).sighting? = some ⟨c, some updatedAt⟩ :=
  rfl

@[simp] theorem snapshotExists_setLocation (r : UserRecord K) (c : CLLocationCoordinate2D K)
    (updatedAt : NSTimeInterval) : (r.setLocation c updatedAt).snapshotExists = true := by
  simp [snapshotExists, setLocation]

end UserRecord

/-! ## Writes to one node -/

/-- The database below `users`, with `removeValue` and `updateChildValues` on one node. -/
abbrev Users (K : Type*) := String → UserRecord K

namespace Users

/-- `updateChildValues` or `removeValue` on children of `users/<uid>`. -/
def updateChildValues (users : Users K) (uid : String) (f : UserRecord K → UserRecord K) :
    Users K :=
  Function.update users uid (f (users uid))

/-- `removeValue` on `users/<uid>`. -/
def removeValue (users : Users K) (uid : String) : Users K :=
  Function.update users uid {}

@[simp] theorem updateChildValues_self (users : Users K) (uid : String)
    (f : UserRecord K → UserRecord K) : users.updateChildValues uid f uid = f (users uid) := by
  simp [updateChildValues]

@[simp] theorem updateChildValues_of_ne (users : Users K) {uid uid' : String} (h : uid' ≠ uid)
    (f : UserRecord K → UserRecord K) : users.updateChildValues uid f uid' = users uid' := by
  simp [updateChildValues, h]

@[simp] theorem removeValue_self (users : Users K) (uid : String) :
    users.removeValue uid uid = {} := by
  simp [removeValue]

@[simp] theorem removeValue_of_ne (users : Users K) {uid uid' : String} (h : uid' ≠ uid) :
    users.removeValue uid uid' = users uid' := by
  simp [removeValue, h]

end Users

/-! ## The decoded user -/

/-- A user as the screens see it. -/
@[ext]
structure DDFUser (K : Type*) where
  latitude : K
  longitude : K
  identifier : Option String
  name : Option String
  avatar : Option String
  twitterID : Option String
  twitterUsername : Option String
  country : Option String
  countryCode : Option String
  updatedAt : Option NSTimeInterval
  deriving DecidableEq

/-- Decode the record of the node `key`, with the key added as `id`. The avatar is
missing as well when `NSURL` rejects its text. -/
def DDFUser.initWithModelDictionary [Zero K] (urlWithString : String → Option String)
    (key : String) (r : UserRecord K) : DDFUser K where
  latitude := r.latitude.getD 0
  longitude := r.longitude.getD 0
  identifier := some key
  name := r.name
  avatar := r.avatar.bind urlWithString
  twitterID := r.twitterID
  twitterUsername := r.twitterUsername
  country := r.country
  countryCode := r.countryCode
  updatedAt := r.updatedAt

/-- The coordinate of a decoded user. -/
def DDFUser.coordinate (user : DDFUser K) : CLLocationCoordinate2D K :=
  ⟨user.latitude, user.longitude⟩

/-- A record with both coordinates decodes to them. -/
theorem DDFUser.coordinate_of_record [Zero K] {urlWithString : String → Option String}
    {key : String} {r : UserRecord K} {c : CLLocationCoordinate2D K} (h : r.coordinate? = some c) :
    (initWithModelDictionary urlWithString key r).coordinate = c := by
  unfold UserRecord.coordinate? at h
  split at h
  · obtain rfl := Option.some.inj h
    simp [coordinate, initWithModelDictionary, *]
  · simp at h

end ConfFriends
