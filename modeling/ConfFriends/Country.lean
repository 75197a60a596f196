import Mathlib.Data.List.AList
import Mathlib.Data.List.Infix
import ConfFriends.User

/-!
# The choice of a country

`CountryViewController` lists the ISO countries by their names in the locale of the
device. The names are the values of a dictionary, `countryNamesByCode`, sorted; the
codes beside them come out of a second dictionary, `countryCodesByName`, that is made by
enumerating the first. The order in which a dictionary is enumerated is not specified,
so it is a parameter (`CountryLocale`), as the order of the names is.

Whatever these orders are, each row has a name and a code of that name
(`countryName_of_row`). A tap on a row stores the name on the device and writes both to
the record of the user.
-/

set_option linter.unusedSectionVars false

namespace ConfFriends

variable {K : Type*}

/-! ## Dictionaries -/

/-- A dictionary of strings. -/
abbrev StringDictionary := AList fun _ : String => String

/-- `dictionary[key x] = value x` for each `x` of a list, in turn. -/
def setAll {α : Type*} (key value : α → String) (xs : List α) : StringDictionary :=
  xs.foldl (fun dictionary x => dictionary.insert (key x) (value x)) ∅

theorem lookup_setAll {α : Type*} {key value : α → String} {xs : List α} {k v : String}
    (h : (setAll key value xs).lookup k = some v) : ∃ x ∈ xs, key x = k ∧ value x = v := by
  unfold setAll at h
  induction xs using List.reverseRecOn with
  | nil => simp at h
  | append_singleton xs x ih =>
    rw [List.foldl_append, List.foldl_cons, List.foldl_nil] at h
    by_cases hk : k = key x
    · subst hk
      rw [AList.lookup_insert, Option.some.injEq] at h
      exact ⟨x, by simp, rfl, h⟩
    · rw [AList.lookup_insert_ne hk] at h
      obtain ⟨y, hy, hkey⟩ := ih h
      exact ⟨y, List.mem_append_left _ hy, hkey⟩

theorem mem_setAll {α : Type*} {key value : α → String} {xs : List α} {k : String} :
    k ∈ setAll key value xs ↔ ∃ x ∈ xs, key x = k := by
  unfold setAll
  induction xs using List.reverseRecOn with
  | nil => simp
  | append_singleton xs x ih =>
    rw [List.foldl_append, List.foldl_cons, List.foldl_nil, AList.mem_insert, ih]
    simp only [List.mem_append, List.mem_singleton]
    constructor
    · rintro (rfl | ⟨y, hy, rfl⟩)
      · exact ⟨x, Or.inr rfl, rfl⟩
      · exact ⟨y, Or.inl hy, rfl⟩
    · rintro ⟨y, hy | rfl, rfl⟩
      · exact Or.inr ⟨y, hy, rfl⟩
      · exact Or.inl rfl

/-! ## Names and codes -/

/-- What the names of a device are made with. -/
structure CountryLocale where
  /-- `[NSLocale ISOCountryCodes]` -/
  isoCountryCodes : List String
  /-- `displayNameForKey:value:` of the current locale for a country code. -/
  displayNameForCode : String → Option String
  /-- The same of the locale `en_US`. -/
  englishDisplayNameForCode : String → Option String
  /-- `localizedCaseInsensitiveCompare:` gives at most `NSOrderedSame`. -/
  compare : String → String → Bool
  compare_trans : ∀ a b c, compare a b = true → compare b c = true → compare a c = true
  compare_total : ∀ a b, (compare a b || compare b a) = true
  /-- The keys of a dictionary, in the order of its enumeration. -/
  allKeys : StringDictionary → List String
  allKeys_perm : ∀ dictionary, (allKeys dictionary).Perm dictionary.keys
  /-- The values of a dictionary, in some order. -/
  allValues : StringDictionary → List String
  allValues_perm : ∀ dictionary,
    (allValues dictionary).Perm (dictionary.entries.map fun entry => entry.2)

namespace CountryLocale

variable (L : CountryLocale)

/-- The name of a code, with the fallbacks of `countryNamesByCode`. -/
def countryName (code : String) : String :=
  ((L.displayNameForCode code).or (L.englishDisplayNameForCode code)).getD code

def countryNamesByCode : StringDictionary :=
  setAll id L.countryName L.isoCountryCodes

def countryCodesByName : StringDictionary :=
  setAll (fun code => (L.countryNamesByCode.lookup code).getD "") id
    (L.allKeys L.countryNamesByCode)

def countryNames : List String :=
  (L.allValues L.countryNamesByCode).mergeSort L.compare

def countryCodes : List String :=
  L.countryNames.map fun name => (L.countryCodesByName.lookup name).getD ""

/-! ## The rows -/

theorem lookup_countryNamesByCode (code : String) :
    L.countryNamesByCode.lookup code =
      if code ∈ L.isoCountryCodes then some (L.countryName code) else none := by
  split
  · next hmem =>
    have hin : code ∈ L.countryNamesByCode := mem_setAll.2 ⟨code, hmem, rfl⟩
    obtain ⟨name, hname⟩ := Option.isSome_iff_exists.1 (AList.lookup_isSome.2 hin)
    obtain ⟨code', -, hcode, rfl⟩ := lookup_setAll hname
    rw [hname, ← hcode]
    rfl
  · next hmem =>
    refine AList.lookup_eq_none.2 fun hin => hmem ?_
    obtain ⟨code', hcode', rfl⟩ := mem_setAll.1 hin
    exact hcode'

theorem mem_allKeys {code : String} :
    code ∈ L.allKeys L.countryNamesByCode ↔ code ∈ L.isoCountryCodes := by
  rw [(L.allKeys_perm _).mem_iff, ← AList.mem_keys, countryNamesByCode, mem_setAll]
  simp

/-- The names listed are the names of the codes. -/
theorem mem_countryNames {name : String} :
    name ∈ L.countryNames ↔ ∃ code ∈ L.isoCountryCodes, L.countryName code = name := by
  rw [countryNames, (List.mergeSort_perm _ _).mem_iff, (L.allValues_perm _).mem_iff,
    List.mem_map]
  constructor
  · rintro ⟨⟨code, value⟩, hentry, rfl⟩
    have hlookup := AList.mem_lookup_iff.2 hentry
    rw [Option.mem_def, lookup_countryNamesByCode, Option.ite_none_right_eq_some] at hlookup
    exact ⟨code, hlookup.1, Option.some.inj hlookup.2⟩
  · rintro ⟨code, hcode, rfl⟩
    refine ⟨⟨code, L.countryName code⟩, AList.mem_lookup_iff.1 ?_, rfl⟩
    rw [Option.mem_def, lookup_countryNamesByCode, if_pos hcode]

/-- The dictionary of codes has a code of the name, if there is one. -/
theorem lookup_countryCodesByName {name : String}
    (h : ∃ code ∈ L.isoCountryCodes, L.countryName code = name) :
    ∃ code ∈ L.isoCountryCodes, L.countryName code = name ∧
      L.countryCodesByName.lookup name = some code := by
  have hname : ∀ code ∈ L.allKeys L.countryNamesByCode,
      (L.countryNamesByCode.lookup code).getD "" = L.countryName code := by
    intro code hcode
    rw [lookup_countryNamesByCode, if_pos (L.mem_allKeys.1 hcode)]
    rfl
  obtain ⟨code, hcode, rfl⟩ := h
  have hkey := L.mem_allKeys.2 hcode
  have hin : L.countryName code ∈ L.countryCodesByName :=
    mem_setAll.2 ⟨code, hkey, hname code hkey⟩
  obtain ⟨code', hlookup⟩ := Option.isSome_iff_exists.1 (AList.lookup_isSome.2 hin)
  obtain ⟨x, hx, heq, rfl⟩ := lookup_setAll hlookup
  exact ⟨x, L.mem_allKeys.1 hx, (hname x hx).symm.trans heq, hlookup⟩

theorem length_countryCodes : L.countryCodes.length = L.countryNames.length :=
  List.length_map _

/-- A row has a name and an ISO code of that name. -/
theorem countryName_of_row {row : ℕ} {name : String} (h : L.countryNames[row]? = some name) :
    ∃ code ∈ L.isoCountryCodes, L.countryCodes[row]? = some code ∧ L.countryName code = name := by
  have hmem := L.mem_countryNames.1 (List.mem_of_getElem? h)
  obtain ⟨code, hcode, hname, hlookup⟩ := L.lookup_countryCodesByName hmem
  refine ⟨code, hcode, ?_, hname⟩
  rw [countryCodes, List.getElem?_map, h, Option.map_some, hlookup]
  rfl

/-- The code of a row is an ISO code, and the code of its name. -/
theorem exists_name_of_code {row : ℕ} {code : String} (h : L.countryCodes[row]? = some code) :
    code ∈ L.isoCountryCodes ∧
      ∃ name, L.countryNames[row]? = some name ∧ L.countryName code = name := by
  have hrow : row < L.countryNames.length := by
    rw [← length_countryCodes]
    exact (List.getElem?_eq_some_iff.1 h).1
  obtain ⟨code', hmem, hcode', hname⟩ := L.countryName_of_row (List.getElem?_eq_getElem hrow)
  obtain rfl : code = code' := Option.some.inj (h.symm.trans hcode')
  exact ⟨hmem, _, List.getElem?_eq_getElem hrow, hname⟩

/-- Distinct ISO codes have distinct names. -/
def DistinctNames : Prop :=
  ∀ code ∈ L.isoCountryCodes, ∀ code' ∈ L.isoCountryCodes,
    L.countryName code = L.countryName code' → code = code'

/-- A code that shares its name with no other has a row. -/
theorem exists_row (h : L.DistinctNames) {code : String} (hcode : code ∈ L.isoCountryCodes) :
    ∃ row : ℕ, L.countryCodes[row]? = some code := by
  obtain ⟨row, hrow⟩ := List.mem_iff_getElem?.1 (L.mem_countryNames.2 ⟨code, hcode, rfl⟩)
  obtain ⟨code', hmem, hcode', hname⟩ := L.countryName_of_row hrow
  exact ⟨row, by rw [hcode', h code' hmem code hcode hname]⟩

end CountryLocale

/-! ## A tap on a row -/

/-- The record with a country. -/
def UserRecord.setCountry (r : UserRecord K) (countryCode country : String) : UserRecord K :=
  { r with countryCode := some countryCode, country := some country }

/-- What the screen reads and stores. -/
structure CountryViewController (K : Type*) where
  ddfUserCountry : Option String := none
  /-- The uid of the signed-in user. -/
  currentUser : Option String
  users : Users K

namespace CountryViewController

/-- A row past the end raises before anything is stored. Without a user the write raises,
and the preference is stored by then. -/
def didSelectRowAtIndexPath (L : CountryLocale) (row : ℕ) (s : CountryViewController K) :
    CountryViewController K :=
  match L.countryNames[row]?, L.countryCodes[row]? with
  | some countryName, some countryCode =>
    { s with
      ddfUserCountry := some countryName
      users := s.currentUser.elim s.users fun uid =>
        s.users.updateChildValues uid fun r => r.setCountry countryCode countryName }
  | _, _ => s

/-- The rows of a list are selected one after the other. -/
def selectRows (L : CountryLocale) (rows : List ℕ) (s : CountryViewController K) :
    CountryViewController K :=
  rows.foldl (fun s row => s.didSelectRowAtIndexPath L row) s

@[simp] theorem currentUser_selectRows (L : CountryLocale) (rows : List ℕ)
    (s : CountryViewController K) : (s.selectRows L rows).currentUser = s.currentUser := by
  unfold selectRows
  induction rows generalizing s with
  | nil => rfl
  | cons row rows ih =>
    rw [List.foldl_cons, ih, didSelectRowAtIndexPath]
    split <;> rfl

/-- A choice stores the name of the chosen code. -/
theorem ddfUserCountry_selectRows {L : CountryLocale} {row : ℕ} {code : String}
    (h : L.countryCodes[row]? = some code) (rows : List ℕ) (s : CountryViewController K) :
    (s.selectRows L (rows ++ [row])).ddfUserCountry = some (L.countryName code) := by
  obtain ⟨-, name, hname, hcode⟩ := L.exists_name_of_code h
  rw [selectRows, List.foldl_append, List.foldl_cons, List.foldl_nil, didSelectRowAtIndexPath,
    hname, h, hcode]

/-- A choice of a signed-in user writes the code and its name to the record. -/
theorem users_selectRows {L : CountryLocale} {row : ℕ} {code uid : String}
    (h : L.countryCodes[row]? = some code) (rows : List ℕ) {s : CountryViewController K}
    (huser : s.currentUser = some uid) :
    (s.selectRows L (rows ++ [row])).users uid =
      ((s.selectRows L rows).users uid).setCountry code (L.countryName code) := by
  obtain ⟨-, name, hname, hcode⟩ := L.exists_name_of_code h
  have hkept : (rows.foldl (fun s row => s.didSelectRowAtIndexPath L row) s).currentUser =
      some uid := (currentUser_selectRows L rows s).trans huser
  rw [selectRows, List.foldl_append, List.foldl_cons, List.foldl_nil, didSelectRowAtIndexPath,
    hname, h, hcode, hkept]
  simp [selectRows]

end CountryViewController

end ConfFriends
