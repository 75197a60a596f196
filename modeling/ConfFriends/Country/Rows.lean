import ConfFriends.UsersView.Country

/-!
# The rows of the countries

The names and the codes of the rows are two arrays, and only the dictionaries behind them
hold them together : the names are the values of `countryNamesByCode`, sorted, and each
code is looked up by its name in `countryCodesByName`.

`rows_paired` : every row has the name of its own code, whatever the names are and however
the dictionaries are enumerated. If no two codes share a name, each code has one row.
-/

set_option linter.unusedSectionVars false

namespace ConfFriends.CountryLocale

variable (L : CountryLocale)

/-- The two arrays belong together. -/
structure RowsPaired : Prop where
  length : L.countryCodes.length = L.countryNames.length
  sorted : L.countryNames.Pairwise fun name name' => L.compare name name' = true
  /-- The marker for a name that is not found is never used. -/
  found : ∀ name ∈ L.countryNames, (L.countryCodesByName.lookup name).isSome
  paired : ∀ (row : ℕ) (code : String), L.countryCodes[row]? = some code →
    L.countryNamesByCode.lookup code = L.countryNames[row]?

theorem pairwise_countryNames :
    L.countryNames.Pairwise fun name name' => L.compare name name' = true :=
  List.pairwise_mergeSort L.compare_trans L.compare_total _

/-- The values of the dictionary are the names of its keys. -/
theorem values_countryNamesByCode :
    L.countryNamesByCode.entries.map (fun entry => entry.2) =
      L.countryNamesByCode.keys.map L.countryName := by
  rw [AList.keys, List.keys, List.map_map]
  refine List.map_congr_left fun entry hentry => ?_
  have hlookup := AList.mem_lookup_iff.2 hentry
  rw [Option.mem_def, lookup_countryNamesByCode, Option.ite_none_right_eq_some] at hlookup
  exact (Option.some.inj hlookup.2).symm

/-- If no two codes share a name, no name is listed twice. -/
theorem nodup_countryNames (h : L.DistinctNames) : L.countryNames.Nodup := by
  have hvalues : (L.countryNamesByCode.entries.map fun entry => entry.2).Nodup := by
    rw [values_countryNamesByCode]
    refine L.countryNamesByCode.keys_nodup.map_on fun code hcode code' hcode' heq => ?_
    rw [← (L.allKeys_perm _).mem_iff, mem_allKeys] at hcode hcode'
    exact h code hcode code' hcode' heq
  rw [countryNames, (List.mergeSort_perm _ _).nodup_iff, (L.allValues_perm _).nodup_iff]
  exact hvalues

/-- If no two codes share a name, no code has two rows. -/
theorem row_unique (h : L.DistinctNames) {row row' : ℕ} {code : String}
    (hrow : L.countryCodes[row]? = some code) (hrow' : L.countryCodes[row']? = some code) :
    row = row' := by
  obtain ⟨-, name, hname, hcode⟩ := L.exists_name_of_code hrow
  obtain ⟨-, name', hname', hcode'⟩ := L.exists_name_of_code hrow'
  have hlt : row < L.countryNames.length := (List.getElem?_eq_some_iff.1 hname).1
  refine (List.getElem?_inj hlt (L.nodup_countryNames h)).1 ?_
  rw [hname, hname', ← hcode, ← hcode']

/-- Each row has the name of its own code, and each code one row if no two share a name. -/
theorem rows_paired :
    L.RowsPaired ∧
      (L.DistinctNames → ∀ code ∈ L.isoCountryCodes, ∃! row : ℕ,
        L.countryCodes[row]? = some code) := by
  refine ⟨⟨L.length_countryCodes, L.pairwise_countryNames, ?_, ?_⟩, ?_⟩
  · intro name hname
    obtain ⟨code, -, -, hlookup⟩ := L.lookup_countryCodesByName (L.mem_countryNames.1 hname)
    rw [hlookup]
    rfl
  · intro row code hrow
    obtain ⟨hmem, name, hname, rfl⟩ := L.exists_name_of_code hrow
    rw [lookup_countryNamesByCode, if_pos hmem, hname]
  · intro h code hcode
    obtain ⟨row, hrow⟩ := L.exists_row h hcode
    exact ⟨row, hrow, fun row' hrow' => L.row_unique h hrow' hrow⟩

open UsersViewController in
theorem rows_paired_englishLocale :
    englishLocale.RowsPaired ∧
      ∀ code ∈ ["DE", "JP"], ∃! row : ℕ, englishLocale.countryCodes[row]? = some code :=
  ⟨(rows_paired englishLocale).1, (rows_paired englishLocale).2 distinctNames_englishLocale⟩

end ConfFriends.CountryLocale
