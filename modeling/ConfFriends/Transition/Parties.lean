import Mathlib.Logic.Function.Basic
import ConfFriends.Transition.History

/-!
# Parties over one store

Several parties take steps on one shared store, one at a time and in any order. A step of
a party sees the store and the party's own state, and leaves both anew. `Parties.step`
is the system of all of them, whose events say who moves.

`everyState_of_parties` is the invariant rule : an invariant of the store and one of a
single party, which may both read the past, hold along every interleaving if the step of
one party keeps them and nobody else's step breaks that of a party.
-/

namespace Transition

variable {ι κ σ ε : Type*} [DecidableEq ι]

/-- The store, and the state of each party. -/
@[ext]
structure Parties (ι κ σ : Type*) where
  store : κ
  party : ι → σ

namespace Parties

/-- A party moves. -/
def step (act : κ → σ → ε → Option (κ × σ)) (n : Parties ι κ σ) (e : ι × ε) :
    Option (Parties ι κ σ) :=
  (act n.store (n.party e.1) e.2).map fun r =>
    { store := r.1, party := Function.update n.party e.1 r.2 }

variable {act : κ → σ → ε → Option (κ × σ)}

/-- The inversion of `step` : the party that moves acts on the store, the others stay. -/
theorem step_cases {n n' : Parties ι κ σ} {i : ι} {e : ε} (h : n.step act (i, e) = some n') :
    act n.store (n.party i) e = some (n'.store, n'.party i) ∧
      ∀ j, j ≠ i → n'.party j = n.party j := by
  obtain ⟨⟨k, s⟩, hact, rfl⟩ := Option.map_eq_some_iff.1 h
  refine ⟨by simpa using hact, fun j hj => ?_⟩
  exact Function.update_of_ne hj s n.party

/-- The invariant rule for parties over one store. -/
theorem everyState_of_parties {n₀ : Parties ι κ σ} {I : List (ι × ε) → κ → Prop}
    {J : List (ι × ε) → ι → σ → Prop} (initI : I [] n₀.store)
    (initJ : ∀ i, J [] i (n₀.party i))
    (others : ∀ pre n e n' i s, exec (step act) n₀ pre = some n → n.step act e = some n' →
      J pre i s → J (pre ++ [e]) i s)
    (acts : ∀ pre n i e n', exec (step act) n₀ pre = some n → n.step act (i, e) = some n' →
      I pre n.store → J pre i (n.party i) →
      act n.store (n.party i) e = some (n'.store, n'.party i) →
      I (pre ++ [(i, e)]) n'.store ∧ J (pre ++ [(i, e)]) i (n'.party i))
    (es : List (ι × ε)) :
    EveryState (step act) (fun pre n => I pre n.store ∧ ∀ i, J pre i (n.party i)) n₀ es := by
  refine everyState_of_invariant ⟨initI, initJ⟩ ?_ es
  rintro pre n ⟨i, e⟩ n' hpre ⟨hI, hJ⟩ hstep
  obtain ⟨hact, hothers⟩ := step_cases hstep
  obtain ⟨hI', hJ'⟩ := acts pre n i e n' hpre hstep hI (hJ i) hact
  refine ⟨hI', fun j => ?_⟩
  by_cases hj : j = i
  · subst hj
    exact hJ'
  · rw [hothers j hj]
    exact others pre n (i, e) n' j _ hpre hstep (hJ j)

end Parties

end Transition
