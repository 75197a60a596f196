import ConfFriends.Plank

/-!
# Updates, merges and representations of a user

A user that is read, merged, copied and edited in any way holds what was set last and
defaults elsewhere (`Schema.Build.record_eq`; a copy with a block is such a user by
`record_copyWithBlock`), which gives the two results of this file.

* Users read from partial updates and merged one after the other are the user read from all
  of the updates (`initWithModelDictionary_updates`).
* A user that can be written is read back from its representation, but for the dates
  (`dictionaryObjectRepresentation_roundTrip`). The one way not to be written is to hold a
  `nil` where an object was set, which is what a rejected avatar leaves.
-/

set_option linter.unusedSectionVars false

namespace ConfFriends.Plank

variable {K : Type} [DecidableEq K] [Zero K] {F : Foundation K}

namespace DDFUser

/-! ## Updates -/

/-- A user that was read is its own copy. -/
theorem copy_of_initWithModelDictionary {d : NSDictionary K} {user : DDFUser F}
    (h : initWithModelDictionary F d = some user) : user.copy = user := by
  rw [Schema.ofDictionary_eq h, Schema.copy_ofFields]

/-- An update is merged into a user that was read. -/
theorem initWithModelDictionary_addEntries {d d' : NSDictionary K} {user user' : DDFUser F}
    (h : initWithModelDictionary F d = some user) (h' : initWithModelDictionary F d' = some user') :
    initWithModelDictionary F (d.addEntries d') = some (user.mergeWithModel user') := by
  rw [mergeWithModel, copy_of_initWithModelDictionary h]
  exact Schema.ofDictionary_addEntries h h'

/-- Users that are read from updates, merged one after the other, are what is read from
the updates added to one dictionary. -/
theorem initWithModelDictionary_updates {d : NSDictionary K} {user : DDFUser F}
    {updates : List (NSDictionary K)} {users : List (DDFUser F)}
    (h : initWithModelDictionary F d = some user)
    (hupdates : updates.mapM (initWithModelDictionary F) = some users) :
    initWithModelDictionary F (updates.foldl Dictionary.addEntries d) =
      some (users.foldl mergeWithModel user) := by
  induction updates generalizing d user users with
  | nil =>
    obtain rfl : [] = users := by simpa using hupdates
    exact h
  | cons update updates ih =>
    simp only [List.mapM_cons, Option.bind_eq_bind, Option.bind_eq_some_iff] at hupdates
    obtain ⟨user', huser', users', husers', hcons⟩ := hupdates
    obtain rfl := Option.some.inj hcons
    rw [List.foldl_cons, List.foldl_cons]
    exact ih (initWithModelDictionary_addEntries h huser') husers'

/-- A user with one text. -/
def withText (F : Foundation K) (p : TextProperty) (text : String) : DDFUser F :=
  Schema.Record.set (fun i => ⟨Property.default F i, false⟩) (.text p) (some (.string text))

theorem initWithModelDictionary_text (p : TextProperty) (text : String) :
    initWithModelDictionary F (Dictionary.empty.setObject (Property.text p).key
      (some (.string text))) = some (withText F p text) := by
  refine Schema.ofDictionary_eq_some_iff.2 fun i => ?_
  rcases eq_or_ne i (.text p) with rfl | hne
  · refine (Schema.read_of_object (Dictionary.setObject_self _ _ _) (by simp)).trans ?_
    rw [withText, Schema.Record.set, Function.update_self]
    rfl
  · have hkey : i.key ≠ (Property.text p).key := Property.key_injective.ne hne
    refine (Schema.read_of_missing (Dictionary.setObject_of_ne _ hkey _)).trans ?_
    rw [withText, Schema.Record.set, Function.update_of_ne hne]

/-- Users with one text, read from a list of texts. -/
theorem mapM_initWithModelDictionary_text (p : TextProperty) (texts : List String) :
    (texts.map fun text => Dictionary.empty.setObject (Property.text p).key
      (some (.string text))).mapM (initWithModelDictionary F) =
        some (texts.map (withText F p)) := by
  induction texts with
  | nil => rfl
  | cons text texts ih =>
    rw [List.map_cons, List.mapM_cons, initWithModelDictionary_text, ih]
    rfl

/-- A name, and a country that is updated again. -/
theorem initWithModelDictionary_country :
    initWithModelDictionary sampleFoundation
        (((Dictionary.empty.setObject "name" (some (.string "Ada"))).addEntries
          (Dictionary.empty.setObject "country" (some (.string "Italy")))).addEntries
            (Dictionary.empty.setObject "country" (some (.string "France")))) =
      some (((withText sampleFoundation .name "Ada").mergeWithModel
        (withText sampleFoundation .country "Italy")).mergeWithModel
          (withText sampleFoundation .country "France")) := by
  exact initWithModelDictionary_updates (initWithModelDictionary_text .name "Ada")
    (mapM_initWithModelDictionary_text .country ["Italy", "France"])

/-! ## Copies and merges as expressions -/

/-- A copy with a block is made by the setters that the block calls. -/
theorem record_copyWithBlock {e : (userSchema F).Build} {user : DDFUser F}
    (h : e.record = some user) (setters : List (Σ i, Property.Value F i)) :
    Schema.Build.record (setters.foldl (fun e p => .set e p.1 p.2) (.copy e)) =
      some (user.copyWithBlock setters) := by
  have hset : ∀ (setters : List (Σ i, Property.Value F i)) (e : (userSchema F).Build)
      (user : DDFUser F), e.record = some user →
        Schema.Build.record (setters.foldl (fun e p => .set e p.1 p.2) e) =
          some (setters.foldl (fun builder p => builder.set p.1 p.2) user) := by
    intro setters
    induction setters with
    | nil => exact fun _ _ h => h
    | cons p setters ih => exact fun e user h => ih _ _ (by rw [Schema.Build.record, h]; rfl)
  exact hset setters (.copy e) user.copy (by rw [Schema.Build.record, h]; rfl)

/-! ## Representations -/

/-- The user with `nil` for its dates. -/
def forgetDates (user : DDFUser F) : DDFUser F
  | .date p => ⟨none, (user (.date p)).dirty⟩
  | .avatar => user .avatar
  | .text p => user (.text p)
  | .coordinate p => user (.coordinate p)

theorem forgetDates_of_clean {user : DDFUser F} {i : Property} (h : (user i).dirty = false)
    (hvalue : (user i).value = Property.default F i) : user.forgetDates i = user i := by
  cases i with
  | date p => exact Tracked.ext hvalue.symm rfl
  | _ => rfl

/-- Just the default of an object, which is `nil`, cannot be written. -/
theorem toObject_eq_none_iff {i : Property} {value : Property.Value F i} :
    Property.toObject F i value = none ↔
      value = Property.default F i ∧ Property.toObject F i (Property.default F i) = none := by
  rcases i with _ | p | p | p
  · cases value <;> simp [Property.toObject, Property.default]
  · cases value <;> simp [Property.toObject, Property.default]
  · simp [Property.toObject]
  · simp [Property.toObject]

theorem unwritable_iff {user : DDFUser F} {i : Property} :
    (user i).dirty = true ∧ (userSchema F).toObject i (user i).value = none ↔
      user i = .set (Property.default F i) ∧
        Property.toObject F i (Property.default F i) = none := by
  rw [Tracked.eq_set_iff, and_assoc]
  exact and_congr_right' toObject_eq_none_iff

/-- What is read from the object of a value is the value, or a date that is lost. -/
theorem read_toObject {user : DDFUser F} {d : NSDictionary K} {i : Property}
    (hkey : d i.key = Property.toObject F i (user i).value) (hdirty : (user i).dirty = true)
    (hobject : Property.toObject F i (user i).value ≠ none) :
    (userSchema F).read d i = some (user.forgetDates i) := by
  have hset : user i = .set (user i).value := Tracked.ext rfl hdirty
  rcases i with _ | p | p | p
  · cases hvalue : (user .avatar).value with
    | none => simp [hvalue, Property.toObject] at hobject
    | some url =>
      rw [hvalue] at hset hkey
      refine (Schema.read_of_object hkey (by simp)).trans ?_
      simp [userSchema, Property.ofObject, F.urlWithString_absoluteString, forgetDates, hset]
  · cases hvalue : (user (.text p)).value with
    | none => simp [hvalue, Property.toObject] at hobject
    | some object =>
      rw [hvalue] at hset hkey
      refine (Schema.read_of_object hkey (by simp)).trans ?_
      rw [forgetDates, hset]
      rfl
  · refine (Schema.read_of_null hkey).trans ?_
    rw [forgetDates, hdirty]
    rfl
  · refine (Schema.read_of_object hkey (by simp)).trans ?_
    rw [forgetDates, hset]
    rfl

/-- A user cannot be written iff it holds a `nil` as avatar or as a text that was set. -/
theorem dictionaryObjectRepresentation_eq_none_iff {user : DDFUser F} :
    user.dictionaryObjectRepresentation = none ↔
      user .avatar = .set none ∨ ∃ p, user (.text p) = .set none := by
  refine Schema.toDictionary_eq_none_iff.trans ?_
  constructor
  · rintro ⟨i, hi⟩
    obtain ⟨hnil, hobject⟩ := unwritable_iff.1 hi
    rcases i with _ | p | p | p
    · exact .inl hnil
    · exact .inr ⟨p, hnil⟩
    all_goals simp [Property.toObject] at hobject
  · rintro (hnil | ⟨p, hnil⟩)
    · exact ⟨.avatar, unwritable_iff.2 ⟨hnil, rfl⟩⟩
    · exact ⟨.text p, unwritable_iff.2 ⟨hnil, rfl⟩⟩

/-- A user cannot be written iff it holds a `nil` as avatar or as a text that was set. A
user that is written is read back with its dates lost. -/
theorem dictionaryObjectRepresentation_roundTrip {e : (userSchema F).Build} {user : DDFUser F}
    (h : e.record = some user) :
    (user.dictionaryObjectRepresentation = none ↔
      user .avatar = .set none ∨ ∃ p, user (.text p) = .set none) ∧
    ∀ d, user.dictionaryObjectRepresentation = some d →
      initWithModelDictionary F d = some user.forgetDates := by
  have hclean : ∀ i, (user i).dirty = false → (user i).value = (userSchema F).default i :=
    fun i => Tracked.eq_ofOption_iff.1 ⟨e.fields i, congrFun (Schema.Build.record_eq h) i⟩
  refine ⟨dictionaryObjectRepresentation_eq_none_iff, fun d hd => ?_⟩
  refine Schema.ofDictionary_eq_some_iff.2 fun i => ?_
  have hkey := Schema.toDictionary_key hd i
  cases hdirty : (user i).dirty with
  | false =>
    rw [hdirty] at hkey
    rw [Schema.read_of_missing hkey, forgetDates_of_clean hdirty (hclean i hdirty)]
    exact congrArg some (Tracked.ext (hclean i hdirty).symm hdirty.symm)
  | true =>
    rw [if_pos hdirty] at hkey
    refine read_toObject hkey hdirty fun hobject => ?_
    rw [dictionaryObjectRepresentation, Schema.toDictionary_eq_none_iff.2 ⟨i, hdirty, hobject⟩]
      at hd
    simp at hd

/-- A copy whose block has set a rejected avatar cannot be written. -/
theorem not_written_of_rejectedAvatar :
    dictionaryObjectRepresentation
      ((withText sampleFoundation .name "Ada").copyWithBlock [⟨.avatar, none⟩]) = none := by
  have hname : Schema.Build.record (.set .builder (.text .name) (some (.string "Ada"))) =
      some (withText sampleFoundation .name "Ada") := rfl
  exact (dictionaryObjectRepresentation_roundTrip
    (record_copyWithBlock hname [⟨.avatar, none⟩])).1.2 (.inl rfl)

end DDFUser

end ConfFriends.Plank
