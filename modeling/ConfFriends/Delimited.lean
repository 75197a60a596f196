import Mathlib.Data.List.Basic
import Mathlib.Data.String.Basic

/-!
# Texts with delimiters

A text is split at a delimiter into its components (`componentsSeparatedBy`), and components
are joined by one (`componentsJoinedBy`). Components without the delimiter are the
components of what they are joined to, so such a text determines them
(`componentsSeparatedBy_joinedBy`). Pairs of texts are joined with `=` inside a pair and `&`
between two (`joinPairs`), and come back in the same way (`pairComponents_joinPairs`).
-/

set_option linter.unusedSectionVars false

namespace ConfFriends

/-- `componentsSeparatedByString:`, for a delimiter of one character. -/
def componentsSeparatedBy (delimiter : Char) (s : String) : List String :=
  (s.toList.splitOn delimiter).map String.ofList

/-- `componentsJoinedByString:` -/
def componentsJoinedBy (delimiter : Char) (components : List String) : String :=
  String.ofList ([delimiter].intercalate (components.map String.toList))

/-- Texts without the delimiter are what they are joined to is split into. -/
theorem componentsSeparatedBy_joinedBy {delimiter : Char} {components : List String}
    (hne : components ≠ []) (h : ∀ s ∈ components, delimiter ∉ s.toList) :
    componentsSeparatedBy delimiter (componentsJoinedBy delimiter components) = components := by
  unfold componentsSeparatedBy componentsJoinedBy
  rw [String.toList_ofList, List.splitOn_intercalate, List.map_map]
  · exact List.map_id'' (fun s => String.ofList_toList) components
  · intro l hl
    obtain ⟨s, hs, rfl⟩ := List.mem_map.1 hl
    exact h s hs
  · simpa using hne

/-! ## Pairs -/

/-- The two sides of a pair. -/
def joinPair (p : String × String) : String :=
  componentsJoinedBy '=' [p.1, p.2]

def joinPairs (pairs : List (String × String)) : String :=
  componentsJoinedBy '&' (pairs.map joinPair)

/-- The components of each pair of a text. -/
def pairComponents (s : String) : List (List String) :=
  (componentsSeparatedBy '&' s).map (componentsSeparatedBy '=')

/-- Neither delimiter occurs in the text. -/
def Undelimited (s : String) : Prop :=
  '&' ∉ s.toList ∧ '=' ∉ s.toList

instance (s : String) : Decidable (Undelimited s) :=
  inferInstanceAs (Decidable (_ ∧ _))

theorem toList_joinPair (p : String × String) :
    (joinPair p).toList = p.1.toList ++ '=' :: p.2.toList := by
  simp [joinPair, componentsJoinedBy, List.intercalate, List.intersperse]

theorem componentsSeparatedBy_joinPairs {pairs : List (String × String)} (hne : pairs ≠ [])
    (h : ∀ p ∈ pairs, Undelimited p.1 ∧ Undelimited p.2) :
    componentsSeparatedBy '&' (joinPairs pairs) = pairs.map joinPair := by
  refine componentsSeparatedBy_joinedBy (by simpa using hne) fun s hs => ?_
  obtain ⟨p, hp, rfl⟩ := List.mem_map.1 hs
  simp [toList_joinPair, (h p hp).1.1, (h p hp).2.1]

theorem componentsSeparatedBy_joinPair {p : String × String} (h₁ : Undelimited p.1)
    (h₂ : Undelimited p.2) : componentsSeparatedBy '=' (joinPair p) = [p.1, p.2] := by
  refine componentsSeparatedBy_joinedBy (by simp) fun s hs => ?_
  obtain rfl | rfl : s = p.1 ∨ s = p.2 := by simpa using hs
  · exact h₁.2
  · exact h₂.2

theorem pairComponents_joinPairs {pairs : List (String × String)} (hne : pairs ≠ [])
    (h : ∀ p ∈ pairs, Undelimited p.1 ∧ Undelimited p.2) :
    pairComponents (joinPairs pairs) = pairs.map fun p => [p.1, p.2] := by
  rw [pairComponents, componentsSeparatedBy_joinPairs hne h, List.map_map]
  exact List.map_congr_left fun p hp => componentsSeparatedBy_joinPair (h p hp).1 (h p hp).2

/-- Pairs without delimiters are determined by what they are joined to. -/
theorem joinPairs_injective {pairs pairs' : List (String × String)}
    (h : ∀ p ∈ pairs, Undelimited p.1 ∧ Undelimited p.2)
    (h' : ∀ p ∈ pairs', Undelimited p.1 ∧ Undelimited p.2)
    (heq : joinPairs pairs = joinPairs pairs') : pairs = pairs' := by
  -- the empty text has one component, and no pair has just one
  have hempty : pairComponents (joinPairs []) = [[""]] := by decide
  have hcomponents := congrArg pairComponents heq
  rcases eq_or_ne pairs [] with rfl | hne <;> rcases eq_or_ne pairs' [] with rfl | hne'
  · rfl
  · rw [hempty, pairComponents_joinPairs hne' h'] at hcomponents
    cases pairs' <;> simp at hcomponents
  · rw [hempty, pairComponents_joinPairs hne h] at hcomponents
    cases pairs <;> simp at hcomponents
  · rw [pairComponents_joinPairs hne h, pairComponents_joinPairs hne' h'] at hcomponents
    refine List.map_injective_iff.2 (fun p q hpq => ?_) hcomponents
    obtain ⟨h₁, h₂⟩ : p.1 = q.1 ∧ p.2 = q.2 := by simpa using hpq
    exact Prod.ext h₁ h₂

end ConfFriends
