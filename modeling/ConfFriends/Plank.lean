import Mathlib.Algebra.Order.Ring.Rat
import ConfFriends.Tracked.Record
import ConfFriends.User

/-!
# The generated model class

`DDFUser` is generated by plank from the schema `user.json`. Its instances track which of
the properties were set, in the bits of `DDFUserDirtyProperties`. `userSchema` has the
properties in the order of the generated methods, with their keys and the way each kind of
property is read from a dictionary and written to one. The methods are those of a
`Schema.Record` :

* `initWithModelDictionary:` is `Schema.ofDictionary`, and raises on an object that lacks
  the method that reads it;
* `DDFUserBuilder` is a record as well : `initWithModel:` is `Record.copy`, its setters are
  `Record.set`, and `mergeWithModel:` is `Record.merge`;
* `dictionaryObjectRepresentation` is `Record.toDictionary`, and raises on a `nil` object.
-/

set_option linter.unusedSectionVars false

namespace ConfFriends.Plank

variable {K : Type} [DecidableEq K] [Zero K]

/-! ## Objects -/

/-- What the properties are read with. A URL is known by its absolute string. -/
structure Foundation (K : Type) where
  NSURL : Type
  urlWithString : String → Option NSURL
  absoluteString : NSURL → String
  urlWithString_absoluteString : ∀ url, urlWithString (absoluteString url) = some url
  /-- `doubleValue` of a text. -/
  doubleValue : String → K

/-- URLs are the texts without a blank, and no text is a number. -/
def sampleFoundation : Foundation ℚ where
  NSURL := { s : String // ' ' ∉ s.toList }
  urlWithString s := if h : ' ' ∉ s.toList then some ⟨s, h⟩ else none
  absoluteString := Subtype.val
  urlWithString_absoluteString url := dif_pos url.2
  doubleValue _ := 0

/-- A leaf of a dictionary other than `NSNull`. -/
inductive NSObject (K : Type)
  | number (x : K)
  | string (text : String)
  deriving DecidableEq

/-- `doubleValue` -/
def NSObject.doubleValue (F : Foundation K) : NSObject K → K
  | .number x => x
  | .string text => F.doubleValue text

/-- The dictionaries of the model. The object `none` is `NSNull`. -/
abbrev NSDictionary (K : Type) := Dictionary (Option (NSObject K))

/-! ## Properties -/

inductive TextProperty
  | country | countryCode | identifier | name | twitterID | twitterUsername
  deriving DecidableEq

inductive DateProperty
  | createdAt | updatedAt
  deriving DecidableEq

inductive CoordinateProperty
  | latitude | longitude
  deriving DecidableEq

/-- The properties of `DDFUser`, by the kind of the code that is generated for them. -/
inductive Property
  | avatar
  | text (p : TextProperty)
  | date (p : DateProperty)
  | coordinate (p : CoordinateProperty)
  deriving DecidableEq

namespace Property

def key : Property → String
  | avatar => "avatar"
  | text .country => "country"
  | text .countryCode => "countryCode"
  | text .identifier => "id"
  | text .name => "name"
  | text .twitterID => "twitterID"
  | text .twitterUsername => "twitterUsername"
  | date .createdAt => "createdAt"
  | date .updatedAt => "updatedAt"
  | coordinate .latitude => "latitude"
  | coordinate .longitude => "longitude"

def all : List Property :=
  [avatar, text .country, text .countryCode, date .createdAt, text .identifier,
    coordinate .latitude, coordinate .longitude, text .name, text .twitterID,
    text .twitterUsername, date .updatedAt]

theorem mem_all (i : Property) : i ∈ all := by
  rcases i with _ | p | p | p
  · decide
  all_goals cases p <;> decide

theorem key_injective : Function.Injective key := by
  have h : ∀ i ∈ all, ∀ j ∈ all, key i = key j → i = j := by decide
  exact fun i j => h i (mem_all i) j (mem_all j)

/-- The values of a property. A date is its time interval since 1970. The object `none`
is `nil`. -/
abbrev Value (F : Foundation K) : Property → Type
  | avatar => Option F.NSURL
  | text _ => Option (NSObject K)
  | date _ => Option K
  | coordinate _ => K

/-- The value of a fresh instance. -/
def default (F : Foundation K) : ∀ i, Value F i
  | avatar | text _ | date _ => none
  | coordinate _ => (0 : K)

/-- `URLWithString:`, which raises without a text, `copy`, the date transformer, or
`doubleValue`. -/
def ofObject (F : Foundation K) : ∀ i, Option (NSObject K) → Option (Value F i)
  | avatar, some (.string s) => some (F.urlWithString s)
  | avatar, _ => none
  | text _, object => some object
  | date _, some object => some (some (object.doubleValue F))
  | date _, none => none
  | coordinate _, some object => some (object.doubleValue F)
  | coordinate _, none => none

/-- The object of a value. There is none for `nil`, which `setObject:` raises on. The date
transformer has no reverse, so a date is written as `NSNull`. -/
def toObject (F : Foundation K) : ∀ i, Value F i → Option (Option (NSObject K))
  | avatar, url => url.map fun url => some (.string (F.absoluteString url))
  | text _, object => object.map some
  | date _, _ => some none
  | coordinate _, x => some (some (.number x))

end Property

abbrev userSchema (F : Foundation K) : Schema Property (Option (NSObject K)) where
  null := none
  key := Property.key
  key_injective := Property.key_injective
  properties := Property.all
  mem_properties := Property.mem_all
  Value := Property.Value F
  default := Property.default F
  ofObject := Property.ofObject F
  toObject := Property.toObject F

/-! ## Methods -/

/-- An instance, or a builder. -/
abbrev DDFUser (F : Foundation K) := (userSchema F).Record

namespace DDFUser

variable {F : Foundation K}

variable (F) in
def initWithModelDictionary (modelDictionary : NSDictionary K) : Option (DDFUser F) :=
  (userSchema F).ofDictionary modelDictionary

/-- A builder with the model, the other model merged into it, and what it builds. -/
def mergeWithModel (user modelObject : DDFUser F) : DDFUser F :=
  user.copy.merge modelObject

/-- `copyWithBlock:` for a block that calls these setters. -/
def copyWithBlock (user : DDFUser F) (setters : List (Σ i, Property.Value F i)) : DDFUser F :=
  setters.foldl (fun builder p => builder.set p.1 p.2) user.copy

def dictionaryObjectRepresentation (user : DDFUser F) : Option (NSDictionary K) :=
  user.toDictionary

end DDFUser

end ConfFriends.Plank
