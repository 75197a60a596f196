import ConfFriends.Plank

/-!
# Archives of a user

`encodeWithCoder:` puts the values of the eleven properties and then their dirty bits in an
archive, under twenty-two keys, and `initWithCoder:` gets them back by key. No two of the
keys are the same, so a user comes back from its archive as it was
(`initWithCoder_encodeWithCoder`), unless it holds a number in place of a text : the coder
requires secure coding, and raises on an object of another class.
-/

set_option linter.unusedSectionVars false

namespace ConfFriends.Plank

variable {K : Type} [DecidableEq K] [Zero K]

/-- What an archive has under a key. The object `none` is `nil`. -/
inductive Coded (F : Foundation K)
  | url (url : Option F.NSURL)
  | leaf (object : Option (NSObject K))
  | date (date : Option K)
  | double (x : K)
  | int (n : ℤ)

/-- The entries of an archive in the order of the calls. -/
abbrev Archive (F : Foundation K) := List (String × Coded F)

namespace Property

def dirtyKey (i : Property) : String :=
  i.key ++ "_dirty_property"

def encode (F : Foundation K) : ∀ i, Value F i → Coded F
  | avatar, url => .url url
  | text _, object => .leaf object
  | date _, t => .date t
  | coordinate _, x => .double x

/-- `decodeObjectOfClass:forKey:` or `decodeDoubleForKey:`, for which a missing key is `nil`
or `0`. -/
def decode (F : Foundation K) : ∀ i, Option (Coded F) → Option (Value F i)
  | i, none => some (default F i)
  | avatar, some (.url url) => some url
  | text _, some (.leaf none) => some none
  | text _, some (.leaf (some (.string s))) => some (some (.string s))
  | date _, some (.date t) => some t
  | coordinate _, some (.double x) => some x
  | _, some _ => none

/-- `decodeIntForKey:` and its last bit. -/
def decodeBit {F : Foundation K} : Option (Coded F) → Option Bool
  | none => some false
  | some (.int n) => some (n % 2 = 1)
  | some _ => none

theorem dirtyKey_injective : Function.Injective dirtyKey := by
  have h : ∀ i ∈ all, ∀ j ∈ all, dirtyKey i = dirtyKey j → i = j := by decide
  exact fun i j => h i (mem_all i) j (mem_all j)

theorem dirtyKey_ne_key (i j : Property) : i.dirtyKey ≠ j.key := by
  have h : ∀ i ∈ all, ∀ j ∈ all, dirtyKey i ≠ key j := by decide
  exact h i (mem_all i) j (mem_all j)

end Property

namespace DDFUser

variable {F : Foundation K}

def encodeWithCoder (user : DDFUser F) : Archive F :=
  (Property.all.map fun i => (i.key, i.encode F (user i).value)) ++
    Property.all.map fun i => (i.dirtyKey, .int (if (user i).dirty then 1 else 0))

/-- A property decoded from an archive. -/
def decode (archive : Archive F) (i : Property) : Option (Tracked (Property.Value F i)) := do
  let value ← i.decode F (archive.lookup i.key)
  let dirty ← Property.decodeBit (archive.lookup i.dirtyKey)
  return ⟨value, dirty⟩

def initWithCoder (archive : Archive F) : Option (DDFUser F) :=
  (userSchema F).sequence (decode archive)

/-- No text is a number. -/
def HoldsTexts (user : DDFUser F) : Prop :=
  ∀ p x, (user (.text p)).value ≠ some (.number x)

/-! ## The way back -/

theorem lookup_map_of_mem {β : Type*} {key : Property → String} (hkey : Function.Injective key)
    (entry : Property → β) {i : Property} {l : List Property} (hi : i ∈ l) :
    (l.map fun j => (key j, entry j)).lookup (key i) = some (entry i) := by
  induction l with
  | nil => simp at hi
  | cons j l ih =>
    rw [List.map_cons, List.lookup_cons]
    by_cases hij : i = j
    · simp [hij]
    · rw [beq_false_of_ne (hkey.ne hij)]
      exact ih ((List.mem_cons.1 hi).resolve_left hij)

theorem lookup_key (user : DDFUser F) (i : Property) :
    user.encodeWithCoder.lookup i.key = some (i.encode F (user i).value) := by
  rw [encodeWithCoder, List.lookup_append,
    lookup_map_of_mem Property.key_injective _ (Property.mem_all i)]
  rfl

theorem lookup_dirtyKey (user : DDFUser F) (i : Property) :
    user.encodeWithCoder.lookup i.dirtyKey = some (.int (if (user i).dirty then 1 else 0)) := by
  have hnone : (Property.all.map fun j => (j.key, j.encode F (user j).value)).lookup i.dirtyKey =
      none := by
    rw [List.lookup_eq_none_iff]
    rintro p hp
    obtain ⟨j, -, rfl⟩ := List.mem_map.1 hp
    simpa using i.dirtyKey_ne_key j
  rw [encodeWithCoder, List.lookup_append, hnone, Option.none_or,
    lookup_map_of_mem Property.dirtyKey_injective _ (Property.mem_all i)]

/-- A value that is no number for a text comes back from what it is encoded as. -/
theorem decode_encode {user : DDFUser F} (h : user.HoldsTexts) (i : Property) :
    i.decode F (some (i.encode F (user i).value)) = some (user i).value := by
  rcases i with _ | p | p | p
  · rfl
  · cases hvalue : (user (.text p)).value with
    | none => rfl
    | some object =>
      cases object with
      | number x => exact absurd hvalue (h p x)
      | string s => rfl
  · rfl
  · rfl

theorem decode_encodeWithCoder (user : DDFUser F) (i : Property) :
    decode user.encodeWithCoder i =
      (i.decode F (some (i.encode F (user i).value))).map fun value =>
        ⟨value, (user i).dirty⟩ := by
  have hbit : Property.decodeBit (some (.int (if (user i).dirty then 1 else 0) : Coded F)) =
      some (user i).dirty := by
    cases (user i).dirty <;> rfl
  unfold decode
  rw [lookup_key, lookup_dirtyKey, hbit]
  cases i.decode F (some (i.encode F (user i).value)) <;> rfl

/-- A user comes back from its archive as it was, values and dirty bits, if all of its texts
are texts, and raises otherwise. -/
theorem initWithCoder_encodeWithCoder (user : DDFUser F) :
    (user.HoldsTexts → initWithCoder user.encodeWithCoder = some user) ∧
    (¬user.HoldsTexts → initWithCoder user.encodeWithCoder = none) := by
  constructor
  · intro h
    refine Schema.sequence_eq_some_iff.2 fun i => ?_
    rw [decode_encodeWithCoder, decode_encode h]
    rfl
  · intro h
    simp only [HoldsTexts, not_forall, not_not] at h
    obtain ⟨p, x, hvalue⟩ := h
    refine Schema.sequence_eq_none_iff.2 ⟨.text p, ?_⟩
    rw [decode_encodeWithCoder, hvalue]
    rfl

end DDFUser

end ConfFriends.Plank
