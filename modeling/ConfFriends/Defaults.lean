import ConfFriends.User

/-!
# Preferences and the platform functions

`NSUserDefaults` holds the preferences of the location side of the app, each `none`
while its key is missing. `boolForKey` and `integerForKey` read a missing key as
`false` and `0`; `valueForKey` is the option itself.

A map rectangle is stored as a dictionary of four numbers (`setMapRect`) and read
back by key (`mapRectForKey`); `mapRectForKey_setMapRect` is the round trip.

`Platform` collects the functions the app calls and this development does not
define : the map projection and containment of MapKit, the distance to the venue,
and the displacement of `locationWithBearing`, which the filters of `storeLocation`
only apply.
-/

namespace ConfFriends

variable {K : Type*}

/-! ## Map rectangles -/

@[ext]
structure MKMapPoint (K : Type*) where
  x : K
  y : K
  deriving DecidableEq

structure MKMapSize (K : Type*) where
  width : K
  height : K
  deriving DecidableEq

structure MKMapRect (K : Type*) where
  origin : MKMapPoint K
  size : MKMapSize K
  deriving DecidableEq

/-- A stored dictionary with its entries. -/
abbrev NSDictionary (K : Type*) := List (String × K)

/-- The dictionary that `setMapRect:forKey:` stores. -/
def setMapRect (mapRect : MKMapRect K) : NSDictionary K :=
  [("x", mapRect.origin.x), ("y", mapRect.origin.y), ("width", mapRect.size.width),
    ("height", mapRect.size.height)]

/-- The functions of MapKit, Core Location and Foundation that the app calls, and the
displacement that fuzzing applies. -/
structure Platform (K : Type*) where
  /-- `MKMapPointForCoordinate` -/
  mapPointForCoordinate : CLLocationCoordinate2D K → MKMapPoint K
  /-- `MKMapRectContainsPoint` -/
  mapRectContainsPoint : MKMapRect K → MKMapPoint K → Bool
  /-- `MKMapRectNull` -/
  mapRectNull : MKMapRect K
  /-- `distanceFromLocation:` to the venue, the coordinate that `storeLocation` writes out. -/
  distanceFromVenue : CLLocationCoordinate2D K → K
  /-- `CLLocationCoordinate2DIsValid` -/
  coordinateIsValid : CLLocationCoordinate2D K → Bool
  /-- `locationWithBearing:distance:fromLocation:` -/
  locationWithBearing : ℤ → ℤ → CLLocationCoordinate2D K → CLLocationCoordinate2D K
  /-- `URLWithString:` -/
  urlWithString : String → Option String

/-- A flat world over the integers, for concrete runs : degrees are map points and
metres, a rectangle contains its lower edges, the venue is at `(40, 40)`, and every
displacement goes north. -/
def Platform.flat : Platform ℤ where
  mapPointForCoordinate c := ⟨c.latitude, c.longitude⟩
  mapRectContainsPoint r p :=
    decide (r.origin.x ≤ p.x) && decide (p.x < r.origin.x + r.size.width) &&
      (decide (r.origin.y ≤ p.y) && decide (p.y < r.origin.y + r.size.height))
  mapRectNull := ⟨⟨0, 0⟩, ⟨0, 0⟩⟩
  distanceFromVenue c := (c.latitude - 40).natAbs + (c.longitude - 40).natAbs
  coordinateIsValid c := decide (c.latitude.natAbs ≤ 90) && decide (c.longitude.natAbs ≤ 180)
  locationWithBearing _ distance c := ⟨c.latitude + distance, c.longitude⟩
  urlWithString := some

/-- `mapRectForKey:` of the stored dictionary, if any. A key without a number is `nil`,
whose `doubleValue` is `0`. -/
def mapRectForKey [Zero K] (P : Platform K) : Option (NSDictionary K) → MKMapRect K
  | none => P.mapRectNull
  | some d =>
    ⟨⟨(d.lookup "x").getD 0, (d.lookup "y").getD 0⟩,
      ⟨(d.lookup "width").getD 0, (d.lookup "height").getD 0⟩⟩

/-- The stored rectangle is read back. -/
@[simp] theorem mapRectForKey_setMapRect [Zero K] (P : Platform K) (mapRect : MKMapRect K) :
    mapRectForKey P (some (setMapRect mapRect)) = mapRect :=
  rfl

/-! ## The preferences -/

/-- The accuracies of the location manager. -/
inductive INTULocationAccuracy
  | none
  | city
  | neighborhood
  | block
  | house
  | room
  deriving DecidableEq

/-- `NSUserDefaults` : one field a key, `none` while the key is missing. -/
structure NSUserDefaults (K : Type*) where
  ddfLocationDisabled : Option Bool := none
  ddfAccuracy : Option INTULocationAccuracy := none
  ddfPrivacyZone : Option (NSDictionary K) := none
  ddfLocationFuzzingEnabled : Option Bool := none
  ddfLocationFuzzingRadius : Option ℤ := none
  ddfLocationFuzzingDistance : Option ℤ := none
  ddfLocationFuzzingBearing : Option ℤ := none
  deriving DecidableEq

/-- `boolForKey:` -/
def boolForKey (value : Option Bool) : Bool :=
  value.getD false

/-- `integerForKey:` -/
def integerForKey (value : Option ℤ) : ℤ :=
  value.getD 0

@[simp] theorem boolForKey_none : boolForKey none = false :=
  rfl

@[simp] theorem boolForKey_some (b : Bool) : boolForKey (some b) = b :=
  rfl

@[simp] theorem integerForKey_none : integerForKey none = 0 :=
  rfl

@[simp] theorem integerForKey_some (n : ℤ) : integerForKey (some n) = n :=
  rfl

namespace NSUserDefaults

/-- The switch of the map reads "disabled and hidden". -/
def locationDisabled (d : NSUserDefaults K) : Bool :=
  boolForKey d.ddfLocationDisabled

/-- A stored zone contains the map point of `c`. -/
def insidePrivacyZone [Zero K] (P : Platform K) (d : NSUserDefaults K)
    (c : CLLocationCoordinate2D K) : Bool :=
  d.ddfPrivacyZone.isSome &&
    P.mapRectContainsPoint (mapRectForKey P d.ddfPrivacyZone) (P.mapPointForCoordinate c)

end NSUserDefaults

end ConfFriends
