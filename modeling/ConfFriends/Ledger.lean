import Mathlib.Algebra.BigOperators.Group.Multiset.Basic
import Mathlib.Data.Finmap

/-!
# The weight of a finite map

A total that is kept beside a map changes by what an entry is replaced with : `total_insert`
and `total_erase` say so, for keys that are in the map or not.
-/

set_option linter.unusedSectionVars false

namespace Ledger

variable {κ α M : Type*} [DecidableEq κ] [AddCommMonoid M] (weight : α → M)

/-- The sum of the weights of the values. -/
def total (s : Finmap fun _ : κ => α) : M :=
  (s.entries.map fun entry => weight entry.2).sum

/-- The weight of a key, or nothing. -/
def amount (s : Finmap fun _ : κ => α) (k : κ) : M :=
  ((s.lookup k).map weight).getD 0

@[simp] theorem total_empty : total weight (∅ : Finmap fun _ : κ => α) = 0 :=
  rfl

theorem erase_of_notMem {s : Finmap fun _ : κ => α} {k : κ} (h : k ∉ s) : s.erase k = s := by
  refine Finmap.ext_lookup fun k' => ?_
  by_cases hk : k' = k
  · rw [hk, Finmap.lookup_erase, Finmap.lookup_eq_none.2 h]
  · exact Finmap.lookup_erase_ne hk

theorem erase_insert (s : Finmap fun _ : κ => α) (k : κ) (a : α) :
    (s.insert k a).erase k = s.erase k := by
  refine Finmap.ext_lookup fun k' => ?_
  by_cases hk : k' = k
  · rw [hk, Finmap.lookup_erase, Finmap.lookup_erase]
  · rw [Finmap.lookup_erase_ne hk, Finmap.lookup_erase_ne hk, Finmap.lookup_insert_of_ne _ hk]

theorem insert_erase {s : Finmap fun _ : κ => α} {k : κ} {a : α} (h : s.lookup k = some a) :
    (s.erase k).insert k a = s := by
  refine Finmap.ext_lookup fun k' => ?_
  by_cases hk : k' = k
  · rw [hk, Finmap.lookup_insert, h]
  · rw [Finmap.lookup_insert_of_ne _ hk, Finmap.lookup_erase_ne hk]

theorem total_insert_of_notMem {s : Finmap fun _ : κ => α} {k : κ} (h : k ∉ s) (a : α) :
    total weight (s.insert k a) = weight a + total weight s := by
  rw [total, Finmap.entries_insert_of_notMem h, Multiset.map_cons, Multiset.sum_cons, total]

/-- The total is what a key holds and the total of the others. -/
theorem total_erase (s : Finmap fun _ : κ => α) (k : κ) :
    total weight s = amount weight s k + total weight (s.erase k) := by
  unfold amount
  cases h : s.lookup k with
  | none => rw [erase_of_notMem (Finmap.lookup_eq_none.1 h), Option.map_none, Option.getD_none,
      zero_add]
  | some a =>
    rw [Option.map_some, Option.getD_some, ← total_insert_of_notMem weight Finmap.notMem_erase_self,
      insert_erase h]

theorem total_insert (s : Finmap fun _ : κ => α) (k : κ) (a : α) :
    total weight (s.insert k a) = weight a + total weight (s.erase k) := by
  rw [total_erase weight (s.insert k a) k, erase_insert, amount, Finmap.lookup_insert,
    Option.map_some, Option.getD_some]

/-- A homomorphism takes the total to that of the other weight. -/
theorem map_total {N : Type*} [AddCommMonoid N] (f : M →+ N) (s : Finmap fun _ : κ => α) :
    f (total weight s) = total (fun a => f (weight a)) s := by
  rw [total, map_multiset_sum, Multiset.map_map, total]
  rfl

end Ledger
