import ConfFriends.Plank.RoundTrip
import ConfFriends.Sharing

/-!
# The row of a user that was read from a record

The list of users reads its models from the children of `users`, with the key of each child
added as `id`. The screens look at the values alone : `toUser` is the user without the
dirty bits, and reading a record gives the `DDFUser.initWithModelDictionary` of the screens
(`toUser_record`).

The dirty bits show in one place. The handler of a tap on a row logs the representation of
its user before it does anything else, and a record with an avatar that is no URL has left a
`nil` that was set. So the tap raises for just these records (`didSelectRow_record`).
-/

set_option linter.unusedSectionVars false

namespace ConfFriends.Plank

variable {F : Foundation ℚ}

/-! ## Records -/

/-- The leaf that a child of `users` has for a property, the key being added as `id`. -/
def recordLeaf (key : String) (r : UserRecord ℚ) : Property → Option (NSObject ℚ)
  | .avatar => r.avatar.map .string
  | .text .country => r.country.map .string
  | .text .countryCode => r.countryCode.map .string
  | .text .identifier => some (.string key)
  | .text .name => r.name.map .string
  | .text .twitterID => r.twitterID.map .string
  | .text .twitterUsername => r.twitterUsername.map .string
  | .date .createdAt => none
  | .date .updatedAt => r.updatedAt.map .number
  | .coordinate .latitude => r.latitude.map .number
  | .coordinate .longitude => r.longitude.map .number

/-- The value of a child of `users`, with its key. -/
def userDictionary (key : String) (r : UserRecord ℚ) : NSDictionary ℚ := fun k =>
  (Property.all.find? fun i => i.key = k).bind fun i => (recordLeaf key r i).map some

theorem userDictionary_key (key : String) (r : UserRecord ℚ) (i : Property) :
    userDictionary key r i.key = (recordLeaf key r i).map some := by
  have hfind : (Property.all.find? fun j => j.key = i.key) = some i := by
    cases hj : Property.all.find? fun j => j.key = i.key with
    | none => exact absurd (List.find?_eq_none.1 hj i (Property.mem_all i)) (by simp)
    | some j =>
      have hkey : j.key = i.key := by simpa using List.find?_some hj
      rw [Property.key_injective hkey]
  rw [userDictionary, hfind, Option.bind_some]

/-! ## Users -/

/-- The text of an object. -/
def NSObject.text? : NSObject ℚ → Option String
  | .string text => some text
  | .number _ => none

namespace DDFUser

variable (F) in
/-- `URLWithString:`, for what is shown of a URL. -/
def urlText (s : String) : Option String :=
  (F.urlWithString s).map F.absoluteString

def text? (user : DDFUser F) (p : TextProperty) : Option String :=
  (user (.text p)).value.bind NSObject.text?

/-- What the screens see of a user. -/
def toUser (user : DDFUser F) : ConfFriends.DDFUser ℚ where
  latitude := (user (.coordinate .latitude)).value
  longitude := (user (.coordinate .longitude)).value
  identifier := user.text? .identifier
  name := user.text? .name
  avatar := (user .avatar).value.map F.absoluteString
  twitterID := user.text? .twitterID
  twitterUsername := user.text? .twitterUsername
  country := user.text? .country
  countryCode := user.text? .countryCode
  updatedAt := (user (.date .updatedAt)).value

/-- The user read from a record. -/
def ofRecord (F : Foundation ℚ) (key : String) (r : UserRecord ℚ) : DDFUser F
  | .avatar => .ofOption none (r.avatar.map F.urlWithString)
  | .text p => .ofOption none ((recordLeaf key r (.text p)).map some)
  | .date p => .ofOption none ((recordLeaf key r (.date p)).map fun x => some (x.doubleValue F))
  | .coordinate p =>
    .ofOption (0 : ℚ) ((recordLeaf key r (.coordinate p)).map (NSObject.doubleValue F))

theorem initWithModelDictionary_record (key : String) (r : UserRecord ℚ) :
    initWithModelDictionary F (userDictionary key r) = some (ofRecord F key r) := by
  refine Schema.ofDictionary_eq_some_iff.2 fun i => ?_
  have hkey := userDictionary_key key r i
  cases hleaf : recordLeaf key r i with
  | none =>
    rw [hleaf] at hkey
    refine (Schema.read_of_missing hkey).trans (congrArg some ?_)
    cases i with
    | avatar =>
      rw [recordLeaf, Option.map_eq_none_iff] at hleaf
      rw [ofRecord, hleaf]
      rfl
    | _ =>
      rw [ofRecord, hleaf]
      rfl
  | some object =>
    rw [hleaf] at hkey
    refine (Schema.read_of_object hkey (by simp)).trans ?_
    cases i with
    | avatar =>
      obtain ⟨s, havatar, rfl⟩ := Option.map_eq_some_iff.1 hleaf
      rw [ofRecord, havatar]
      rfl
    | _ =>
      rw [ofRecord, hleaf]
      rfl

theorem toUser_record (key : String) (r : UserRecord ℚ) :
    (ofRecord F key r).toUser =
      ConfFriends.DDFUser.initWithModelDictionary (urlText F) key r := by
  have htext : ∀ p, (ofRecord F key r).text? p =
      (recordLeaf key r (.text p)).bind NSObject.text? := by
    intro p
    cases hleaf : recordLeaf key r (.text p) <;> simp [text?, ofRecord, hleaf]
  have hstring : ∀ s : Option String, (s.map NSObject.string).bind NSObject.text? = s := by
    rintro (_ | s) <;> rfl
  ext1
  case avatar =>
    change ((r.avatar.map F.urlWithString).getD none).map F.absoluteString =
      r.avatar.bind (urlText F)
    cases r.avatar <;> rfl
  case updatedAt =>
    change ((r.updatedAt.map NSObject.number).map fun x => some (x.doubleValue F)).getD none =
      r.updatedAt
    cases r.updatedAt <;> rfl
  case latitude =>
    change ((r.latitude.map NSObject.number).map (NSObject.doubleValue F)).getD 0 =
      r.latitude.getD 0
    cases r.latitude <;> rfl
  case longitude =>
    change ((r.longitude.map NSObject.number).map (NSObject.doubleValue F)).getD 0 =
      r.longitude.getD 0
    cases r.longitude <;> rfl
  case identifier => exact htext .identifier
  case name => exact (htext .name).trans (hstring r.name)
  case twitterID => exact (htext .twitterID).trans (hstring r.twitterID)
  case twitterUsername => exact (htext .twitterUsername).trans (hstring r.twitterUsername)
  case country => exact (htext .country).trans (hstring r.country)
  case countryCode => exact (htext .countryCode).trans (hstring r.countryCode)

/-! ## A tap on a row -/

/-- `tableNode:didSelectRowAtIndexPath:` with its log. -/
def didSelectRow (user : DDFUser F) : Option (RowAction ℚ) :=
  user.dictionaryObjectRepresentation.map fun _ => rowAction user.toUser

/-- A tap on the row of a record raises iff the avatar of the record is no URL. Otherwise
it does what the row does for the user on the screen. -/
theorem didSelectRow_record (key : String) (r : UserRecord ℚ) :
    (initWithModelDictionary F (userDictionary key r)).bind didSelectRow =
      if ∃ s, r.avatar = some s ∧ F.urlWithString s = none then none
      else some (rowAction (ConfFriends.DDFUser.initWithModelDictionary (urlText F) key r)) := by
  have hwritten : (ofRecord F key r).dictionaryObjectRepresentation = none ↔
      ofRecord F key r .avatar = .set none ∨ ∃ p, ofRecord F key r (.text p) = .set none :=
    dictionaryObjectRepresentation_eq_none_iff
  rw [initWithModelDictionary_record, Option.bind_some, didSelectRow, toUser_record]
  have havatar : ofRecord F key r .avatar = .set none ↔
      ∃ s, r.avatar = some s ∧ F.urlWithString s = none := by
    cases havatar : r.avatar <;> simp [ofRecord, havatar, Tracked.eq_set_iff]
  have htext : ∀ p, ofRecord F key r (.text p) ≠ .set none := by
    intro p
    cases hleaf : recordLeaf key r (.text p) <;> simp [ofRecord, hleaf, Tracked.eq_set_iff]
  rw [havatar, or_iff_left (not_exists.2 htext)] at hwritten
  split
  · next hrejected => rw [hwritten.2 hrejected, Option.map_none]
  · next hrejected =>
    obtain ⟨d, hd⟩ := Option.ne_none_iff_exists'.1 (mt hwritten.1 hrejected)
    rw [hd, Option.map_some]

end DDFUser

end ConfFriends.Plank
