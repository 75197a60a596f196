import Mathlib.Analysis.InnerProductSpace.PiL2
import Mathlib.Analysis.SpecialFunctions.Complex.Arg
import Mathlib.Analysis.SpecialFunctions.Trigonometric.Angle
import Mathlib.Geometry.Euclidean.Angle.Unoriented.Basic

/-!
# Great circles of the unit sphere

`point φ θ` is the point of the unit sphere at the latitude `φ` and the longitude `θ`, in
radians, with the tangents `north φ θ` and `east θ`. `travel φ θ β δ` is the point that
the great circle with the heading `β`, clockwise from north, reaches after the angle `δ`,
and `heading` reads the heading off the point reached (`heading_travel`).

`destLatitude` and `destLongitude` are the destination formula in coordinates. Away from
the poles they are the coordinates of the point reached (`point_dest`), and at a pole,
where no heading is defined, they are still at the angle `δ` (`angle_point_dest`). The
longitude is a sum, and `destLongitude_mem_iff` says when it stays between `-π` and `π` :
unless the great circle crosses the antimeridian.
-/

open Real

namespace Sphere

/-! ## Points and tangents -/

/-- The point at a latitude and a longitude. -/
noncomputable def point (φ θ : ℝ) : EuclideanSpace ℝ (Fin 3) :=
  !₂[cos φ * cos θ, cos φ * sin θ, sin φ]

/-- The unit tangent to the north. -/
noncomputable def north (φ θ : ℝ) : EuclideanSpace ℝ (Fin 3) :=
  !₂[-(sin φ * cos θ), -(sin φ * sin θ), cos φ]

/-- The unit tangent to the east. -/
noncomputable def east (θ : ℝ) : EuclideanSpace ℝ (Fin 3) :=
  !₂[-sin θ, cos θ, 0]

theorem inner_eq (v w : EuclideanSpace ℝ (Fin 3)) :
    inner ℝ v w = v 0 * w 0 + v 1 * w 1 + v 2 * w 2 := by
  simp [PiLp.inner_apply, Fin.sum_univ_three, mul_comm]

/-- The cosine rule. -/
theorem inner_point_point (φ θ φ' θ' : ℝ) : inner ℝ (point φ θ) (point φ' θ') =
    sin φ * sin φ' + cos φ * cos φ' * cos (θ - θ') := by
  rw [inner_eq, cos_sub]
  simp [point]
  ring

theorem norm_eq_one {v : EuclideanSpace ℝ (Fin 3)} (h : v 0 ^ 2 + v 1 ^ 2 + v 2 ^ 2 = 1) :
    ‖v‖ = 1 := by
  rw [EuclideanSpace.norm_eq, Fin.sum_univ_three]
  simp [h]

@[simp] theorem norm_point (φ θ : ℝ) : ‖point φ θ‖ = 1 := by
  refine norm_eq_one ?_
  simp [point]
  linear_combination cos φ ^ 2 * sin_sq_add_cos_sq θ + sin_sq_add_cos_sq φ

@[simp] theorem norm_north (φ θ : ℝ) : ‖north φ θ‖ = 1 := by
  refine norm_eq_one ?_
  simp [north]
  linear_combination sin φ ^ 2 * sin_sq_add_cos_sq θ + sin_sq_add_cos_sq φ

@[simp] theorem norm_east (θ : ℝ) : ‖east θ‖ = 1 := by
  refine norm_eq_one ?_
  simp [east]

@[simp] theorem inner_point_north (φ θ : ℝ) : inner ℝ (point φ θ) (north φ θ) = 0 := by
  rw [inner_eq]
  simp [point, north]
  linear_combination -(sin φ * cos φ) * sin_sq_add_cos_sq θ

@[simp] theorem inner_point_east (φ θ : ℝ) : inner ℝ (point φ θ) (east θ) = 0 := by
  rw [inner_eq]
  simp [point, east]
  ring

@[simp] theorem inner_north_east (φ θ : ℝ) : inner ℝ (north φ θ) (east θ) = 0 := by
  rw [inner_eq]
  simp [north, east]
  ring

/-! ## Great circles -/

/-- The point reached from a point with the heading `β` after the angle `δ`. -/
noncomputable def travel (φ θ β δ : ℝ) : EuclideanSpace ℝ (Fin 3) :=
  cos δ • point φ θ + sin δ • (cos β • north φ θ + sin β • east θ)

/-- The heading from a point to another, clockwise from north. -/
noncomputable def heading (φ θ : ℝ) (v : EuclideanSpace ℝ (Fin 3)) : Real.Angle :=
  (Complex.arg ⟨inner ℝ (north φ θ) v, inner ℝ (east θ) v⟩ : ℝ)

theorem inner_point_travel (φ θ β δ : ℝ) : inner ℝ (point φ θ) (travel φ θ β δ) = cos δ := by
  simp [travel, inner_add_right, inner_smul_right]

theorem inner_north_travel (φ θ β δ : ℝ) :
    inner ℝ (north φ θ) (travel φ θ β δ) = sin δ * cos β := by
  simp [travel, inner_add_right, inner_smul_right, real_inner_comm (point φ θ)]

theorem inner_east_travel (φ θ β δ : ℝ) : inner ℝ (east θ) (travel φ θ β δ) = sin δ * sin β := by
  simp [travel, inner_add_right, inner_smul_right, real_inner_comm (point φ θ),
    real_inner_comm (north φ θ)]

/-- A great circle is reached with the heading it was left with. -/
theorem heading_travel (φ θ β : ℝ) {δ : ℝ} (hδ : 0 < sin δ) :
    heading φ θ (travel φ θ β δ) = β := by
  have harg := Complex.arg_mul_cos_add_sin_mul_I_coe_angle hδ β
  rw [heading, inner_north_travel, inner_east_travel, ← harg]
  congr 2
  apply Complex.ext <;> simp [-Complex.ofReal_cos, -Complex.ofReal_sin]

/-! ## The destination formula -/

/-- The latitude of the point reached. -/
noncomputable def destLatitude (φ β δ : ℝ) : ℝ :=
  arcsin (sin φ * cos δ + cos φ * sin δ * cos β)

/-- The longitude of the point reached. -/
noncomputable def destLongitude (φ θ β δ : ℝ) : ℝ :=
  θ + Complex.arg ⟨cos δ - sin φ * sin (destLatitude φ β δ), sin β * sin δ * cos φ⟩

/-- The coordinates of the point reached along the meridian of the origin and across it, in
the plane of the equator. -/
noncomputable def equatorial (φ β δ : ℝ) : ℂ :=
  ⟨cos δ * cos φ - sin δ * cos β * sin φ, sin δ * sin β⟩

theorem normSq_equatorial (φ β δ : ℝ) :
    ‖equatorial φ β δ‖ ^ 2 = 1 - (sin φ * cos δ + cos φ * sin δ * cos β) ^ 2 := by
  rw [Complex.sq_norm, equatorial, Complex.normSq_mk]
  linear_combination sin δ ^ 2 * sin_sq_add_cos_sq β + sin_sq_add_cos_sq δ +
    (cos δ ^ 2 + sin δ ^ 2 * cos β ^ 2) * sin_sq_add_cos_sq φ

/-- The formula takes the arcsine of a sine. -/
theorem sin_destLatitude (φ β δ : ℝ) :
    sin (destLatitude φ β δ) = sin φ * cos δ + cos φ * sin δ * cos β := by
  have hsq : (sin φ * cos δ + cos φ * sin δ * cos β) ^ 2 ≤ 1 := by
    have h := normSq_equatorial φ β δ
    linarith [sq_nonneg ‖equatorial φ β δ‖]
  have habs := abs_le.1 ((sq_le_one_iff_abs_le_one _).1 hsq)
  exact sin_arcsin habs.1 habs.2

theorem cos_destLatitude (φ β δ : ℝ) : cos (destLatitude φ β δ) = ‖equatorial φ β δ‖ := by
  rw [destLatitude, cos_arcsin, ← normSq_equatorial, sqrt_sq (norm_nonneg _)]

/-- The formula takes the argument of a multiple of the equatorial coordinates, by the
cosine of the latitude. -/
theorem destLongitude_eq (φ θ β δ : ℝ) :
    destLongitude φ θ β δ = θ + Complex.arg (cos φ * equatorial φ β δ) := by
  rw [destLongitude, sin_destLatitude]
  congr 2
  apply Complex.ext
  · simp [equatorial, -Complex.ofReal_cos]
    linear_combination -cos δ * sin_sq_add_cos_sq φ
  · simp [equatorial, -Complex.ofReal_cos]
    ring

/-- Away from the poles the formula gives the coordinates of the point reached. -/
theorem point_dest {φ : ℝ} (hφ : 0 < cos φ) (θ β δ : ℝ) :
    point (destLatitude φ β δ) (destLongitude φ θ β δ) = travel φ θ β δ := by
  have hre : ‖equatorial φ β δ‖ * cos (Complex.arg (equatorial φ β δ)) =
      cos δ * cos φ - sin δ * cos β * sin φ := Complex.norm_mul_cos_arg _
  have him : ‖equatorial φ β δ‖ * sin (Complex.arg (equatorial φ β δ)) = sin δ * sin β :=
    Complex.norm_mul_sin_arg _
  rw [destLongitude_eq, Complex.arg_real_mul _ hφ, point, sin_destLatitude, cos_destLatitude,
    cos_add, sin_add]
  ext i
  fin_cases i
  · simp [travel, point, north, east]
    linear_combination cos θ * hre - sin θ * him
  · simp [travel, point, north, east]
    linear_combination sin θ * hre + cos θ * him
  · simp [travel, point, north, east]
    ring

/-- The central angle of two points whose inner product is a cosine. -/
theorem angle_of_inner {v w : EuclideanSpace ℝ (Fin 3)} (hv : ‖v‖ = 1) (hw : ‖w‖ = 1) {δ : ℝ}
    (h : inner ℝ v w = cos δ) (h₀ : 0 ≤ δ) (hπ : δ ≤ π) : InnerProductGeometry.angle v w = δ := by
  rw [InnerProductGeometry.angle, hv, hw, h, mul_one, div_one, arccos_cos h₀ hπ]

/-- The point that the formula gives is at the angle `δ`, also from a pole. -/
theorem angle_point_dest {φ δ : ℝ} (hφ : 0 ≤ cos φ) (h₀ : 0 ≤ δ) (hπ : δ ≤ π) (θ β : ℝ) :
    InnerProductGeometry.angle (point φ θ) (point (destLatitude φ β δ) (destLongitude φ θ β δ)) =
      δ := by
  refine angle_of_inner (norm_point _ _) (norm_point _ _) ?_ h₀ hπ
  rcases hφ.eq_or_lt with hpole | hpos
  · -- at a pole the cosine rule has no term with a longitude
    have hsin : sin φ ^ 2 = 1 := by simpa [← hpole] using sin_sq_add_cos_sq φ
    rw [inner_point_point, sin_destLatitude, ← hpole]
    linear_combination cos δ * hsin
  · rw [point_dest hpos, inner_point_travel]

/-! ## The antimeridian -/

/-- From the origin's side of the antimeridian, the great circle reaches the other side : to
the east, to the west, or over a pole on the meridian opposite. -/
def CrossesAntimeridian (φ θ β δ : ℝ) : Prop :=
  0 < cos φ ∧
    ((0 < θ ∧ 0 < sin δ * sin β ∧ travel φ θ β δ 1 < 0) ∨
      (θ < 0 ∧ sin δ * sin β < 0 ∧ 0 < travel φ θ β δ 1) ∨
      (0 < θ ∧ sin δ * sin β = 0 ∧ cos δ * cos φ < sin δ * cos β * sin φ))

/-- The sine of a sum with an argument, in coordinates. -/
theorem norm_mul_sin_add_arg (θ : ℝ) (z : ℂ) :
    ‖z‖ * sin (θ + Complex.arg z) = z.re * sin θ + z.im * cos θ := by
  rw [sin_add]
  linear_combination sin θ * Complex.norm_mul_cos_arg z + cos θ * Complex.norm_mul_sin_arg z

/-- A sum with an argument goes beyond `π`. -/
theorem pi_lt_add_arg_iff {θ : ℝ} (hθ : θ ≤ π) (z : ℂ) : π < θ + Complex.arg z ↔
    0 < θ ∧ (0 < z.im ∧ z.re * sin θ + z.im * cos θ < 0 ∨ z.im = 0 ∧ z.re < 0) := by
  rw [← norm_mul_sin_add_arg]
  have hle := Complex.arg_le_pi z
  constructor
  · intro h
    refine ⟨by linarith, ?_⟩
    rcases hle.lt_or_eq with hlt | heq
    · have hnorm : 0 < ‖z‖ := norm_pos_iff.2 fun hz => by
        rw [hz, Complex.arg_zero] at h
        linarith
      have hsin : 0 < sin (Complex.arg z) := sin_pos_of_pos_of_lt_pi (by linarith) hlt
      have hsum : 0 < sin (θ + Complex.arg z - π) :=
        sin_pos_of_pos_of_lt_pi (by linarith) (by linarith)
      rw [sin_sub_pi] at hsum
      refine Or.inl ⟨?_, mul_neg_of_pos_of_neg hnorm (by linarith)⟩
      rw [← Complex.norm_mul_sin_arg]
      exact mul_pos hnorm hsin
    · exact Or.inr (Complex.arg_eq_pi_iff.1 heq).symm
  · rintro ⟨hpos, ⟨him, hsin⟩ | ⟨him, hre⟩⟩
    · by_contra hnot
      have harg : 0 ≤ Complex.arg z := Complex.arg_nonneg_iff.2 him.le
      have hnonneg := sin_nonneg_of_nonneg_of_le_pi (by linarith : 0 ≤ θ + Complex.arg z)
        (not_lt.1 hnot)
      exact absurd hsin (not_lt.2 (mul_nonneg (norm_nonneg z) hnonneg))
    · rw [Complex.arg_eq_pi_iff.2 ⟨hre, him⟩]
      linarith

/-- A sum with an argument goes beyond `-π`. -/
theorem add_arg_lt_neg_pi_iff {θ : ℝ} (hθ : -π ≤ θ) (z : ℂ) : θ + Complex.arg z < -π ↔
    θ < 0 ∧ z.im < 0 ∧ 0 < z.re * sin θ + z.im * cos θ := by
  rw [← norm_mul_sin_add_arg]
  have hlt := Complex.neg_pi_lt_arg z
  constructor
  · intro h
    have hneg : Complex.arg z < 0 := by linarith
    have hnorm : 0 < ‖z‖ := norm_pos_iff.2 fun hz => by
      rw [hz, Complex.arg_zero] at hneg
      exact lt_irrefl 0 hneg
    have hsum : sin (θ + Complex.arg z + π) < 0 :=
      sin_neg_of_neg_of_neg_pi_lt (by linarith) (by linarith)
    rw [sin_add_pi] at hsum
    exact ⟨by linarith, Complex.arg_neg_iff.1 hneg, mul_pos hnorm (by linarith)⟩
  · rintro ⟨hneg, him, hsin⟩
    by_contra hnot
    have harg : Complex.arg z < 0 := Complex.arg_neg_iff.2 him
    have hnonpos := sin_nonpos_of_nonpos_of_neg_pi_le (by linarith : θ + Complex.arg z ≤ 0)
      (not_lt.1 hnot)
    exact absurd hsin (not_lt.2 (mul_nonpos_of_nonneg_of_nonpos (norm_nonneg z) hnonpos))

/-- The longitude of the formula is between `-π` and `π` iff the great circle does not
cross the antimeridian. -/
theorem destLongitude_mem_iff {φ θ : ℝ} (hφ : 0 ≤ cos φ) (hθ : θ ∈ Set.Icc (-π) π) (β δ : ℝ) :
    destLongitude φ θ β δ ∈ Set.Icc (-π) π ↔ ¬CrossesAntimeridian φ θ β δ := by
  have hmem : destLongitude φ θ β δ ∈ Set.Icc (-π) π ↔
      ¬(π < destLongitude φ θ β δ ∨ destLongitude φ θ β δ < -π) := by
    rw [Set.mem_Icc, not_or, not_lt, not_lt, and_comm]
  rw [hmem, not_iff_not, destLongitude_eq, pi_lt_add_arg_iff hθ.2, add_arg_lt_neg_pi_iff hθ.1]
  have hre : (cos φ * equatorial φ β δ).re =
      cos φ * (cos δ * cos φ - sin δ * cos β * sin φ) := by
    simp [equatorial, -Complex.ofReal_cos]
  have him : (cos φ * equatorial φ β δ).im = cos φ * (sin δ * sin β) := by
    simp [equatorial, -Complex.ofReal_cos]
  have htravel : travel φ θ β δ 1 =
      (cos δ * cos φ - sin δ * cos β * sin φ) * sin θ + sin δ * sin β * cos θ := by
    simp [travel, point, north, east]
    ring
  have hsum : cos φ * (cos δ * cos φ - sin δ * cos β * sin φ) * sin θ +
      cos φ * (sin δ * sin β) * cos θ = cos φ * travel φ θ β δ 1 := by
    rw [htravel]
    ring
  rw [hre, him, hsum]
  unfold CrossesAntimeridian
  rcases hφ.eq_or_lt with hpole | hpos
  · simp [← hpole]
  · have hneg : ∀ x, cos φ * x < 0 ↔ x < 0 := fun x =>
      ⟨fun h => neg_of_mul_neg_right h hpos.le, mul_neg_of_pos_of_neg hpos⟩
    simp only [mul_pos_iff_of_pos_left hpos, hneg, mul_eq_zero, hpos.ne', false_or, hpos,
      true_and, sub_neg, and_or_left, or_assoc]
    exact or_congr_right or_comm

end Sphere
