import ConfFriends.Country
import ConfFriends.UsersView.Segments

/-!
# The country segment and the names of countries

The segment asks for the users whose `country` is the name that the viewer's device has
stored, and `country` is the name that the user's device has written. Both devices write
the ISO code beside it, and the segment does not ask for it. So a user is listed iff the
two names are the same (`Encounter.appears_iff`), and two devices group all users by
code iff they name the codes alike (`groupsByCode_iff`).
-/

set_option linter.unusedSectionVars false

open Transition

namespace ConfFriends.UsersViewController

variable {K : Type*} [Zero K] {U : UsersPlatform}

/-! ## The country segment -/

/-- The user with the uid is in the list. -/
def Appears (uid : String) (s : UsersViewController K) : Prop :=
  ∃ user ∈ s.filteredUsers, user.identifier = some uid

/-- The country segment is selected, and its read is answered. -/
def selectCountrySegment (s : UsersViewController K) (snapshot : UsersSnapshot K) :
    List (UsersEvent K) :=
  [.userFilterControlValueChanged 1, .answer s.reads.length snapshot]

/-- The segment lists the users of its country. -/
theorem mem_filteredUsers_countrySegment {s s' : UsersViewController K} {country : String}
    (hcountry : s.ddfUserCountry = some country) {snapshot : UsersSnapshot K}
    (hs' : exec (step U) s (selectCountrySegment s snapshot) = some s') (user : DDFUser K) :
    user ∈ s'.filteredUsers ↔ user ∈ requested U (some country) snapshot := by
  have hread : (s.userFilterControlValueChanged 1).reads[s.reads.length]? =
      some ⟨s.lastHandle + 1, some country⟩ := by
    simp [userFilterControlValueChanged, selectedCountry, hcountry]
  have hstep : step U s (.userFilterControlValueChanged 1) =
      some (s.userFilterControlValueChanged 1) := by
    simp [step, hcountry]
  have hanswer : step U (s.userFilterControlValueChanged 1) (.answer s.reads.length snapshot) =
      some s' := by
    simpa only [selectCountrySegment, exec, hstep, Option.bind_some, Option.bind_fun_some] using hs'
  simp only [step, hread, Option.some.injEq] at hanswer
  subst hanswer
  unfold readBlock requested
  split
  · next hempty => simp [userFilterControlValueChanged, List.isEmpty_iff.1 hempty, listedUsers]
  · rw [(List.mergeSort_perm _ _).mem_iff]
    simp [userFilterControlValueChanged]

/-- A user of a snapshot is asked for iff the record matches and is complete. -/
theorem exists_requested_iff {snapshot : UsersSnapshot K} {uid country : String}
    {record : UserRecord K} (hmem : (uid, record) ∈ snapshot.children) :
    (∃ user ∈ requested U (some country) snapshot, user.identifier = some uid) ↔
      record.country = some country ∧ record.name.isSome ∧ record.twitterUsername.isSome := by
  unfold requested listedUsers
  simp only [List.mem_filter, List.mem_map]
  constructor
  · rintro ⟨user, ⟨⟨⟨key, r⟩, ⟨hchild, hmatch⟩, rfl⟩, hlisted⟩, hkey⟩
    obtain rfl : key = uid := by simpa [DDFUser.initWithModelDictionary] using hkey
    obtain rfl : r = record := by
      have hpair := List.inj_on_of_nodup_map snapshot.nodup hchild hmem rfl
      exact (Prod.mk.inj hpair).2
    simpa [matchesQuery, isListed, DDFUser.initWithModelDictionary] using And.intro hmatch hlisted
  · rintro ⟨hcountry, hname, husername⟩
    refine ⟨_, ⟨⟨(uid, record), ⟨hmem, ?_⟩, rfl⟩, ?_⟩, rfl⟩
    · simp [matchesQuery, hcountry]
    · simp [isListed, DDFUser.initWithModelDictionary, hname, husername]

/-! ## Two devices -/

/-- A user with a name and a Twitter username has chosen a country last, on a device with
the first locale, and a viewer on a device with the second. The viewer's list then shows
the country segment, of a snapshot with the record of the user. -/
structure Encounter (K : Type*) [Zero K] (U : UsersPlatform) (L₁ L₂ : CountryLocale) where
  user : CountryViewController K
  uid : String
  signedIn : user.currentUser = some uid
  rows₁ : List ℕ
  row₁ : ℕ
  code₁ : String
  chosen₁ : L₁.countryCodes[row₁]? = some code₁
  record : UserRecord K
  written : record = (user.selectRows L₁ (rows₁ ++ [row₁])).users uid
  named : record.name.isSome
  usernamed : record.twitterUsername.isSome
  viewer : CountryViewController K
  rows₂ : List ℕ
  row₂ : ℕ
  code₂ : String
  chosen₂ : L₂.countryCodes[row₂]? = some code₂
  snapshot : UsersSnapshot K
  read : (uid, record) ∈ snapshot.children
  list : UsersViewController K
  country : list.ddfUserCountry = (viewer.selectRows L₂ (rows₂ ++ [row₂])).ddfUserCountry
  shown : UsersViewController K
  run : exec (step U) list (selectCountrySegment list snapshot) = some shown

namespace Encounter

variable {L₁ L₂ : CountryLocale}

/-- The user is listed iff the devices give the two chosen codes the same name. -/
theorem appears_iff (e : Encounter K U L₁ L₂) :
    e.shown.Appears e.uid ↔ L₁.countryName e.code₁ = L₂.countryName e.code₂ := by
  have hviewer := e.country
  rw [CountryViewController.ddfUserCountry_selectRows e.chosen₂] at hviewer
  have hcountry : e.record.country = some (L₁.countryName e.code₁) := by
    rw [e.written, CountryViewController.users_selectRows e.chosen₁ e.rows₁ e.signedIn]
    rfl
  unfold Appears
  simp only [mem_filteredUsers_countrySegment hviewer e.run, exists_requested_iff e.read, hcountry,
    e.named, e.usernamed, and_true, Option.some.injEq]

/-- Any two rows can have been chosen. -/
def ofRows (K : Type*) [Zero K] (U : UsersPlatform) {row₁ row₂ : ℕ} {code₁ code₂ : String}
    (chosen₁ : L₁.countryCodes[row₁]? = some code₁)
    (chosen₂ : L₂.countryCodes[row₂]? = some code₂) : Encounter K U L₁ L₂ where
  user :=
    { currentUser := some "a"
      users := fun _ => { name := some "Ann", twitterUsername := some "ann" } }
  uid := "a"
  signedIn := rfl
  rows₁ := []
  row₁ := row₁
  code₁ := code₁
  chosen₁ := chosen₁
  record :=
    { name := some "Ann", twitterUsername := some "ann", countryCode := some code₁,
      country := some (L₁.countryName code₁) }
  written := by rw [CountryViewController.users_selectRows chosen₁ [] rfl]; rfl
  named := rfl
  usernamed := rfl
  viewer := { currentUser := none, users := fun _ => {} }
  rows₂ := []
  row₂ := row₂
  code₂ := code₂
  chosen₂ := chosen₂
  snapshot := ⟨[("a", _)], List.nodup_singleton _⟩
  read := List.mem_singleton.2 rfl
  list := viewDidLoad (some (L₂.countryName code₂))
  country := (CountryViewController.ddfUserCountry_selectRows chosen₂ [] _).symm
  shown := _
  run := rfl

end Encounter

/-- The user is listed iff the chosen codes are the same. -/
def GroupsByCode {L₁ L₂ : CountryLocale} (e : Encounter K U L₁ L₂) : Prop :=
  e.shown.Appears e.uid ↔ e.code₁ = e.code₂

/-- Two devices group an encounter by code iff they name the two chosen codes alike
exactly when these are the same, and they group all encounters by code iff they give each
ISO code the same name. -/
theorem groupsByCode_iff {L₁ L₂ : CountryLocale} (h₁ : L₁.DistinctNames)
    (h₂ : L₂.DistinctNames)
    (hcodes : ∀ code, code ∈ L₁.isoCountryCodes ↔ code ∈ L₂.isoCountryCodes) :
    (∀ e : Encounter K U L₁ L₂, GroupsByCode e ↔
      (L₁.countryName e.code₁ = L₂.countryName e.code₂ ↔ e.code₁ = e.code₂)) ∧
    ((∀ e : Encounter K U L₁ L₂, GroupsByCode e) ↔
      ∀ code ∈ L₁.isoCountryCodes, L₁.countryName code = L₂.countryName code) := by
  refine ⟨fun e => by rw [GroupsByCode, e.appears_iff], ?_, ?_⟩
  · intro h code hcode
    obtain ⟨row₁, hrow₁⟩ := L₁.exists_row h₁ hcode
    obtain ⟨row₂, hrow₂⟩ := L₂.exists_row h₂ ((hcodes code).1 hcode)
    exact (Encounter.ofRows K U hrow₁ hrow₂).appears_iff.1 ((h _).2 rfl)
  · intro h e
    have hcode₁ := (L₁.exists_name_of_code e.chosen₁).1
    have hcode₂ := (hcodes _).2 ((L₂.exists_name_of_code e.chosen₂).1)
    rw [GroupsByCode, e.appears_iff, ← h e.code₂ hcode₂]
    constructor
    · exact h₁ _ hcode₁ _ hcode₂
    · exact congrArg L₁.countryName

/-! Two concrete devices, one in English and one in French. -/

def sampleLocale (names : List (String × String)) : CountryLocale where
  isoCountryCodes := ["DE", "JP"]
  displayNameForCode code := names.lookup code
  englishDisplayNameForCode _ := none
  compare := samplePlatform.compare
  compare_trans := samplePlatform.compare_trans
  compare_total := samplePlatform.compare_total
  allKeys dictionary := dictionary.keys
  allKeys_perm _ := .rfl
  allValues dictionary := (dictionary.entries.map fun entry => entry.2).reverse
  allValues_perm _ := List.reverse_perm _

def englishLocale : CountryLocale :=
  sampleLocale [("DE", "Germany"), ("JP", "Japan")]

def frenchLocale : CountryLocale :=
  sampleLocale [("DE", "Allemagne"), ("JP", "Japon")]

theorem distinctNames_englishLocale : englishLocale.DistinctNames := by
  unfold CountryLocale.DistinctNames
  decide

theorem distinctNames_frenchLocale : frenchLocale.DistinctNames := by
  unfold CountryLocale.DistinctNames
  decide

theorem groupsByCode_iff_english_french :
    (∀ e : Encounter ℤ samplePlatform englishLocale frenchLocale, GroupsByCode e ↔
      (englishLocale.countryName e.code₁ = frenchLocale.countryName e.code₂ ↔
        e.code₁ = e.code₂)) ∧
    ((∀ e : Encounter ℤ samplePlatform englishLocale frenchLocale, GroupsByCode e) ↔
      ∀ code ∈ englishLocale.isoCountryCodes,
        englishLocale.countryName code = frenchLocale.countryName code) :=
  groupsByCode_iff distinctNames_englishLocale distinctNames_frenchLocale fun _ => Iff.rfl

theorem countryCodes_englishLocale : englishLocale.countryCodes[0]? = some "DE" := by
  have hnames : englishLocale.countryNames = ["Germany", "Japan"] :=
    List.mergeSort_of_pairwise (by decide)
  rw [CountryLocale.countryCodes, hnames]
  decide

theorem countryCodes_frenchLocale : frenchLocale.countryCodes[0]? = some "DE" := by
  have hnames : frenchLocale.countryNames = ["Allemagne", "Japon"] :=
    List.mergeSort_of_pairwise (by decide)
  rw [CountryLocale.countryCodes, hnames]
  decide

/-- Both have chosen Germany. -/
def sampleEncounter : Encounter ℤ samplePlatform englishLocale frenchLocale :=
  .ofRows ℤ samplePlatform countryCodes_englishLocale countryCodes_frenchLocale

/-- The user is not in the list of the viewer's country. -/
theorem same_country_not_listed :
    englishLocale.DistinctNames ∧ frenchLocale.DistinctNames ∧ ¬GroupsByCode sampleEncounter := by
  refine ⟨distinctNames_englishLocale, distinctNames_frenchLocale, fun h => ?_⟩
  have hname : englishLocale.countryName "DE" = frenchLocale.countryName "DE" :=
    sampleEncounter.appears_iff.1 (h.2 rfl)
  exact absurd hname (by decide)

end ConfFriends.UsersViewController
