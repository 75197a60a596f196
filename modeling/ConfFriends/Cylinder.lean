import Mathlib.Algebra.Order.ToIntervalMod

/-!
# Intervals on a circle

The numbers from `0` to `W` are the points of a circle of circumference `W`, and every
number is a copy of one of them, whole turns away. A set of numbers, drawn on the circle,
covers the points with a copy in it (`Wound`).

Testing the point itself and none of its copies is exact for an interval iff the interval
is empty, lies within the one turn or contains all of it
(`forall_mem_of_wound_Ico_iff`).
-/

open Set

namespace Cylinder

variable {G : Type*} [AddCommGroup G] [LinearOrder G] [IsOrderedAddMonoid G] {W a b x : G}

/-- Some copy of the point lies in the set. -/
def Wound (W : G) (s : Set G) (x : G) : Prop :=
  ∃ k : ℤ, x + k • W ∈ s

/-- A copy in the turn of the point is the point itself. -/
theorem eq_zero_of_mem_Ico (hW : 0 < W) (hx : x ∈ Ico 0 W) {k : ℤ} (hk : x + k • W ∈ Ico 0 W) :
    k = 0 := by
  rcases lt_trichotomy k 0 with hneg | rfl | hpos
  · have hle : k • W ≤ (-1 : ℤ) • W := zsmul_le_zsmul_left hW.le (by omega)
    rw [neg_one_zsmul] at hle
    have hlt : x + k • W < W + -W := add_lt_add_of_lt_of_le hx.2 hle
    rw [add_neg_cancel] at hlt
    exact absurd hk.1 (not_le.2 hlt)
  · rfl
  · have hle : (1 : ℤ) • W ≤ k • W := zsmul_le_zsmul_left hW.le (by omega)
    rw [one_zsmul] at hle
    exact absurd hk.2 (not_lt.2 (hle.trans (le_add_of_nonneg_left hx.1)))

/-- An interval that lies within the turn or contains it covers its own points only. -/
theorem mem_of_wound_Ico (hW : 0 < W) (h : b ≤ a ∨ (0 ≤ a ∧ b ≤ W) ∨ (a ≤ 0 ∧ W ≤ b))
    (hx : x ∈ Ico 0 W) (hwound : Wound W (Ico a b) x) : x ∈ Ico a b := by
  obtain ⟨k, hk⟩ := hwound
  rcases h with hempty | ⟨ha, hb⟩ | ⟨ha, hb⟩
  · exact absurd (hk.1.trans_lt hk.2) (not_lt.2 hempty)
  · obtain rfl : k = 0 := eq_zero_of_mem_Ico hW hx ⟨ha.trans hk.1, hk.2.trans_le hb⟩
    simpa using hk
  · exact ⟨ha.trans hx.1, hx.2.trans_le hb⟩

variable [Archimedean G]

/-- An interval that is not empty covers some point. -/
theorem exists_wound_Ico (hW : 0 < W) (h : a < b) : ∃ x ∈ Ico 0 W, Wound W (Ico a b) x := by
  obtain ⟨m, hm, -⟩ := existsUnique_add_zsmul_mem_Ico hW a 0
  rw [zero_add] at hm
  exact ⟨a + m • W, hm, -m, by simpa using h⟩

/-- An interval covers its own points only iff it is empty, lies within the turn or contains
it. -/
theorem forall_mem_of_wound_Ico_iff (hW : 0 < W) :
    (∀ x ∈ Ico 0 W, Wound W (Ico a b) x → x ∈ Ico a b) ↔
      b ≤ a ∨ (0 ≤ a ∧ b ≤ W) ∨ (a ≤ 0 ∧ W ≤ b) := by
  refine ⟨fun hall => ?_, fun h x hx => mem_of_wound_Ico hW h hx⟩
  rcases le_or_gt b a with hempty | hlt
  · exact Or.inl hempty
  refine Or.inr ?_
  -- the interval meets the turn, so only its ends can stick out
  obtain ⟨y, hy, hwound⟩ := exists_wound_Ico hW hlt
  have hmem := hall y hy hwound
  have haW : a < W := hmem.1.trans_lt hy.2
  have hb0 : 0 < b := hy.1.trans_lt hmem.2
  rcases le_or_gt 0 a with ha | ha
  · rcases le_or_gt b W with hb | hb
    · exact Or.inl ⟨ha, hb⟩
    · have hzero : (0 : G) ∈ Ico a b :=
        hall 0 ⟨le_rfl, hW⟩ ⟨1, by simpa using ⟨haW.le, hb⟩⟩
      exact Or.inr ⟨hzero.1, hb.le⟩
  · rcases le_or_gt W b with hb | hb
    · exact Or.inr ⟨ha.le, hb⟩
    · -- the last part of the turn is covered from below, and not by the interval itself
      have haW' : a + W < W := by simpa using ha
      have hcopy : Wound W (Ico a b) (max b (a + W)) := by
        refine ⟨-1, ?_, ?_⟩
        · rw [neg_one_zsmul, ← sub_eq_add_neg, le_sub_iff_add_le]
          exact le_max_right _ _
        · rw [neg_one_zsmul, ← sub_eq_add_neg, sub_lt_iff_lt_add]
          exact (max_lt hb haW').trans (lt_add_of_pos_left W hb0)
      have hend := hall (max b (a + W)) ⟨hb0.le.trans (le_max_left _ _), max_lt hb haW'⟩ hcopy
      exact absurd hend.2 (not_lt.2 (le_max_left _ _))

end Cylinder
