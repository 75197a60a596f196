import Mathlib.Data.List.Basic
import ConfFriends.Tracked

/-!
# Records of tracked values

A `Schema` is a list of properties, each with a key, a type of values, a default, and the
way its values are read from and written to the objects of a dictionary. A `Record` holds
a tracked value for each property. It is read from a dictionary (`ofDictionary`), which
leaves the properties clean whose keys are missing, merged with another record, copied,
edited, and written back to a dictionary (`toDictionary`). A method that raises gives `none`.

What a record stands for is `Fields`, the values that were set : `ofFields`. A `Build` is
an expression of the operations that make records. Its record stands for the fields that a
right-biased overlay gives (`Build.record_eq`), so no such record holds a value in a clean
property.
-/

set_option linter.unusedSectionVars false

namespace ConfFriends

universe u v w

/-- A dictionary with the objects `O`. -/
abbrev Dictionary (O : Type*) := String → Option O

namespace Dictionary

variable {O : Type*}

def empty : Dictionary O :=
  fun _ => none

/-- `setObject:forKey:` -/
def setObject (d : Dictionary O) (key : String) (object : O) : Dictionary O :=
  Function.update d key (some object)

/-- `addEntriesFromDictionary:` -/
def addEntries (d d' : Dictionary O) : Dictionary O :=
  fun key => (d' key).or (d key)

theorem setObject_self (d : Dictionary O) (key : String) (object : O) :
    d.setObject key object key = some object :=
  Function.update_self _ _ _

theorem setObject_of_ne (d : Dictionary O) {key key' : String} (h : key' ≠ key) (object : O) :
    d.setObject key object key' = d key' :=
  Function.update_of_ne h _ _

end Dictionary

/-- The properties of a record. -/
structure Schema (ι : Type u) (O : Type v) where
  /-- The object that stands for the absence of one. -/
  null : O
  key : ι → String
  key_injective : Function.Injective key
  /-- The properties in their order. -/
  properties : List ι
  mem_properties : ∀ i, i ∈ properties
  Value : ι → Type w
  default : ∀ i, Value i
  /-- The value read from an object other than `null`. -/
  ofObject : ∀ i, O → Option (Value i)
  toObject : ∀ i, Value i → Option O

namespace Schema

variable {ι : Type u} {O : Type v} [DecidableEq ι] [DecidableEq O] (S : Schema.{u, v, w} ι O)

abbrev Record := ∀ i, Tracked (S.Value i)

/-- The values that were set. -/
abbrev Fields := ∀ i, Option (S.Value i)

variable {S}

/-- The record in which just these values were set. -/
def ofFields (x : S.Fields) : S.Record :=
  fun i => .ofOption (S.default i) (x i)

/-- The later values over the earlier ones. -/
def Fields.overlay (x y : S.Fields) : S.Fields :=
  fun i => (y i).or (x i)

def Fields.set (x : S.Fields) (i : ι) (value : S.Value i) : S.Fields :=
  Function.update x i (some value)

/-! ## Records -/

namespace Record

def merge (a b : S.Record) : S.Record :=
  fun i => (a i).merge (b i)

def copy (a : S.Record) : S.Record :=
  fun i => (a i).copy (S.default i)

/-- The setter of a property. -/
def set (a : S.Record) (i : ι) (value : S.Value i) : S.Record :=
  Function.update a i (.set value)

end Record

variable (S)

/-- The property read from a dictionary. -/
def read (d : Dictionary O) (i : ι) : Option (Tracked (S.Value i)) :=
  match d (S.key i) with
  | none => some ⟨S.default i, false⟩
  | some object =>
    if object = S.null then some ⟨S.default i, true⟩ else (S.ofObject i object).map .set

/-- The record of these properties, if none of them raises. -/
def sequence (read : ∀ i, Option (Tracked (S.Value i))) : Option S.Record :=
  if h : ∀ i ∈ S.properties, (read i).isSome then
    some fun i => (read i).get (h i (S.mem_properties i))
  else none

def ofDictionary (d : Dictionary O) : Option S.Record :=
  S.sequence (S.read d)

variable {S}

/-- The property written to a dictionary, if it is dirty. -/
def Record.write (a : S.Record) (d : Dictionary O) (i : ι) : Option (Dictionary O) :=
  if (a i).dirty then (S.toObject i (a i).value).map (d.setObject (S.key i)) else some d

def Record.toDictionary (a : S.Record) : Option (Dictionary O) :=
  S.properties.foldlM a.write .empty

/-! ## The operations on the values that were set -/

theorem merge_ofFields (x y : S.Fields) :
    (ofFields x : S.Record).merge (ofFields y) = ofFields (x.overlay y) := by
  funext i
  exact Tracked.merge_ofOption _ _ _

theorem copy_ofFields (x : S.Fields) : (ofFields x : S.Record).copy = ofFields x := by
  funext i
  exact Tracked.copy_ofOption _ _

theorem set_ofFields (x : S.Fields) (i : ι) (value : S.Value i) :
    (ofFields x : S.Record).set i value = ofFields (x.set i value) := by
  funext j
  rcases eq_or_ne j i with rfl | hne
  · simp [Record.set, ofFields, Fields.set]
  · simp [Record.set, ofFields, Fields.set, hne]

/-! ## Reading -/

theorem sequence_eq_some_iff {read : ∀ i, Option (Tracked (S.Value i))} {a : S.Record} :
    S.sequence read = some a ↔ ∀ i, read i = some (a i) := by
  unfold sequence
  constructor
  · intro h i
    split at h
    · obtain rfl := Option.some.inj h
      simp
    · simp at h
  · intro h
    have hall : ∀ i ∈ S.properties, (read i).isSome := fun i _ => by simp [h i]
    rw [dif_pos hall]
    exact congrArg some (funext fun i => by simp [h i])

theorem sequence_eq_none_iff {read : ∀ i, Option (Tracked (S.Value i))} :
    S.sequence read = none ↔ ∃ i, read i = none := by
  unfold sequence
  split
  · next h => simpa [← Option.isSome_iff_ne_none] using fun i => h i (S.mem_properties i)
  · next h => simpa [S.mem_properties] using h

theorem ofDictionary_eq_some_iff {d : Dictionary O} {a : S.Record} :
    S.ofDictionary d = some a ↔ ∀ i, S.read d i = some (a i) :=
  sequence_eq_some_iff

theorem read_congr {d d' : Dictionary O} {i : ι} (h : d (S.key i) = d' (S.key i)) :
    S.read d i = S.read d' i := by
  simp [read, h]

theorem read_of_missing {d : Dictionary O} {i : ι} (h : d (S.key i) = none) :
    S.read d i = some ⟨S.default i, false⟩ := by
  simp [read, h]

theorem read_of_null {d : Dictionary O} {i : ι} (h : d (S.key i) = some S.null) :
    S.read d i = some (.set (S.default i)) := by
  simp [read, h, Tracked.set]

theorem read_of_object {d : Dictionary O} {i : ι} {object : O} (h : d (S.key i) = some object)
    (hnull : object ≠ S.null) : S.read d i = (S.ofObject i object).map .set := by
  simp [read, h, hnull]

variable (S) in
/-- The values that a dictionary sets. -/
def fieldsOf (d : Dictionary O) : S.Fields := fun i =>
  (d (S.key i)).map fun object =>
    if object = S.null then S.default i else (S.ofObject i object).getD (S.default i)

theorem read_eq {d : Dictionary O} {i : ι} {a : Tracked (S.Value i)} (h : S.read d i = some a) :
    a = .ofOption (S.default i) (S.fieldsOf d i) := by
  unfold fieldsOf
  cases hkey : d (S.key i) with
  | none =>
    rw [read_of_missing hkey] at h
    exact (Option.some.inj h).symm
  | some object =>
    by_cases hnull : object = S.null
    · rw [read_of_null (hnull ▸ hkey)] at h
      obtain rfl := Option.some.inj h
      simp [hnull]
    · rw [read_of_object hkey hnull] at h
      obtain ⟨value, hvalue, rfl⟩ := Option.map_eq_some_iff.1 h
      simp [hnull, hvalue]

/-- What is read from a missing key is clean, and what is read from an object is dirty. -/
theorem dirty_of_read {d : Dictionary O} {i : ι} {a : Tracked (S.Value i)}
    (h : S.read d i = some a) : a.dirty = (d (S.key i)).isSome := by
  rw [read_eq h]
  simp [fieldsOf]

/-- A record that is read stands for the values of the dictionary. -/
theorem ofDictionary_eq {d : Dictionary O} {a : S.Record} (h : S.ofDictionary d = some a) :
    a = ofFields (S.fieldsOf d) :=
  funext fun i => read_eq (ofDictionary_eq_some_iff.1 h i)

/-- Entries added to a dictionary are read as a merge. -/
theorem ofDictionary_addEntries {d d' : Dictionary O} {a b : S.Record}
    (h : S.ofDictionary d = some a) (h' : S.ofDictionary d' = some b) :
    S.ofDictionary (d.addEntries d') = some (a.merge b) := by
  rw [ofDictionary_eq_some_iff] at h h' ⊢
  intro i
  have hdirty := dirty_of_read (h' i)
  unfold Record.merge Tracked.merge
  cases hkey : d' (S.key i) with
  | none =>
    rw [hkey, Option.isSome_none] at hdirty
    have hread : S.read (d.addEntries d') i = S.read d i :=
      read_congr (by simp [Dictionary.addEntries, hkey])
    rw [hread, h i, hdirty]
    rfl
  | some object =>
    rw [hkey, Option.isSome_some] at hdirty
    have hread : S.read (d.addEntries d') i = S.read d' i :=
      read_congr (by simp [Dictionary.addEntries, hkey])
    rw [hread, h' i, if_pos hdirty]
    exact congrArg some (Tracked.ext rfl hdirty)

/-! ## Writing -/

theorem write_eq_none_iff {a : S.Record} {d : Dictionary O} {i : ι} :
    a.write d i = none ↔ (a i).dirty = true ∧ S.toObject i (a i).value = none := by
  unfold Record.write
  split <;> simp [*]

theorem write_of_ne {a : S.Record} {d d' : Dictionary O} {i : ι} (h : a.write d i = some d')
    {key : String} (hkey : key ≠ S.key i) : d' key = d key := by
  unfold Record.write at h
  split at h
  · obtain ⟨object, -, rfl⟩ := Option.map_eq_some_iff.1 h
    exact Dictionary.setObject_of_ne _ hkey _
  · rw [Option.some.inj h]

theorem write_self {a : S.Record} {d d' : Dictionary O} {i : ι} (h : a.write d i = some d') :
    d' (S.key i) = if (a i).dirty then S.toObject i (a i).value else d (S.key i) := by
  unfold Record.write at h
  split at h
  · next hdirty =>
    obtain ⟨object, hobject, rfl⟩ := Option.map_eq_some_iff.1 h
    simp [Dictionary.setObject_self, hdirty, hobject]
  · next hdirty =>
    rw [← Option.some.inj h, if_neg hdirty]

/-- Writing properties leaves every key alone that is none of theirs. -/
theorem foldlM_write_of_ne {a : S.Record} {key : String} :
    ∀ {l : List ι} {d d' : Dictionary O}, l.foldlM a.write d = some d' →
      (∀ i ∈ l, key ≠ S.key i) → d' key = d key
  | [], d, d', h, _ => by rw [Option.some.inj h]
  | i :: l, d, d', h, hkey => by
    rw [List.foldlM_cons] at h
    obtain ⟨d₁, hd₁, h⟩ := Option.bind_eq_some_iff.1 h
    rw [foldlM_write_of_ne h fun j hj => hkey j (List.mem_cons_of_mem i hj),
      write_of_ne hd₁ (hkey i List.mem_cons_self)]

/-- Among the properties that are written, the dirty ones are found at their keys. -/
theorem foldlM_write_key {a : S.Record} {i : ι} :
    ∀ {l : List ι} {d d' : Dictionary O}, l.foldlM a.write d = some d' →
      d' (S.key i) =
        if (a i).dirty ∧ i ∈ l then S.toObject i (a i).value else d (S.key i)
  | [], d, d', h => by
    rw [Option.some.inj h]
    simp
  | j :: l, d, d', h => by
    rw [List.foldlM_cons] at h
    obtain ⟨d₁, hd₁, h⟩ := Option.bind_eq_some_iff.1 h
    rw [foldlM_write_key h]
    by_cases hij : i = j
    · subst hij
      rw [write_self hd₁]
      by_cases hdirty : (a i).dirty <;> simp [hdirty]
    · rw [write_of_ne hd₁ (S.key_injective.ne hij)]
      simp [hij]

theorem foldlM_write_eq_none_iff {a : S.Record} :
    ∀ {l : List ι} {d : Dictionary O}, l.foldlM a.write d = none ↔
      ∃ i ∈ l, (a i).dirty = true ∧ S.toObject i (a i).value = none
  | [], d => by simp
  | i :: l, d => by
    rw [List.foldlM_cons, List.exists_mem_cons_iff]
    cases hd : a.write d i with
    | none => simp [write_eq_none_iff.1 hd]
    | some d₁ =>
      have hi : ¬((a i).dirty = true ∧ S.toObject i (a i).value = none) := by
        rw [← write_eq_none_iff (d := d), hd]
        simp
      simpa [hi] using foldlM_write_eq_none_iff (a := a) (l := l) (d := d₁)

/-- A record cannot be written if a value that was set has no object. -/
theorem toDictionary_eq_none_iff {a : S.Record} :
    a.toDictionary = none ↔ ∃ i, (a i).dirty = true ∧ S.toObject i (a i).value = none := by
  unfold Record.toDictionary
  rw [foldlM_write_eq_none_iff]
  simp [S.mem_properties]

/-- The dictionary of a record has the dirty properties and nothing else. -/
theorem toDictionary_key {a : S.Record} {d : Dictionary O} (h : a.toDictionary = some d) (i : ι) :
    d (S.key i) = if (a i).dirty then S.toObject i (a i).value else none := by
  rw [foldlM_write_key h]
  simp [S.mem_properties, Dictionary.empty]

/-! ## Expressions -/

variable (S) in
/-- How a record is made. -/
inductive Build
  | dictionary (d : Dictionary O)
  | builder
  | set (e : Build) (i : ι) (value : S.Value i)
  | copy (e : Build)
  | merge (e e' : Build)

namespace Build

/-- The record of an expression, if nothing raises. -/
def record : S.Build → Option S.Record
  | dictionary d => S.ofDictionary d
  | builder => some fun i => ⟨S.default i, false⟩
  | set e i value => e.record.map (·.set i value)
  | copy e => e.record.map .copy
  | merge e e' => e.record.bind fun a => e'.record.map a.copy.merge

/-- What an expression sets, the later over the earlier. -/
def fields : S.Build → S.Fields
  | dictionary d => S.fieldsOf d
  | builder => fun _ => none
  | set e i value => e.fields.set i value
  | copy e => e.fields
  | merge e e' => e.fields.overlay e'.fields

/-- An expression makes the record that stands for what it sets. -/
theorem record_eq {e : S.Build} {a : S.Record} (h : e.record = some a) : a = ofFields e.fields := by
  induction e generalizing a with
  | dictionary d => exact ofDictionary_eq h
  | builder => exact (Option.some.inj h).symm
  | set e i value ih =>
    obtain ⟨b, hb, rfl⟩ := Option.map_eq_some_iff.1 h
    rw [ih hb, set_ofFields, fields]
  | copy e ih =>
    obtain ⟨b, hb, rfl⟩ := Option.map_eq_some_iff.1 h
    rw [ih hb, copy_ofFields, fields]
  | merge e e' ih ih' =>
    obtain ⟨b, hb, h⟩ := Option.bind_eq_some_iff.1 h
    obtain ⟨b', hb', rfl⟩ := Option.map_eq_some_iff.1 h
    rw [ih hb, ih' hb', copy_ofFields, merge_ofFields, fields]

end Build

end Schema

end ConfFriends
