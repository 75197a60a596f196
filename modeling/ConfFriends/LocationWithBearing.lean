import Mathlib.Analysis.Real.Pi.Irrational
import ConfFriends.Device.Filters
import ConfFriends.Sphere

/-!
# The displacement, over the reals

`locationWithBearing` moves a coordinate along a great circle, by the destination formula
on a sphere with the radius of the earth. Here it is computed with exact reals and an
`atan2` with values in `(-π, π]`, as the formula that `Sphere` develops.

The displacement is right : the target is at the chosen distance, poles included
(`centralAngle_locationWithBearing`). Its two parameters and its result are read in
different units. The bearing goes into `sin` and `cos` as it is, so as radians, and the
caller draws a number of degrees : the heading of the target is the bearing for `0` only
(`heading_iff`). And the longitude is not brought back between -180° and 180°, so a target
on the other side of the antimeridian is no valid coordinate
(`valid_iff_not_crosses`).
-/

set_option linter.unusedSectionVars false

open Real

namespace ConfFriends

/-! ## The function -/

/-- `atan2` -/
noncomputable def atan2 (y x : ℝ) : ℝ :=
  Complex.arg ⟨x, y⟩

noncomputable def locationWithBearing (bearing distanceMeters : ℝ)
    (origin : CLLocationCoordinate2D ℝ) : CLLocationCoordinate2D ℝ :=
  let distRadians := distanceMeters / 6372797.6
  let lat1 := origin.latitude * π / 180
  let lon1 := origin.longitude * π / 180
  let lat2 := arcsin (sin lat1 * cos distRadians + cos lat1 * sin distRadians * cos bearing)
  let lon2 := lon1 + atan2 (sin bearing * sin distRadians * cos lat1)
    (cos distRadians - sin lat1 * sin lat2)
  ⟨lat2 * 180 / π, lon2 * 180 / π⟩

/-- Degrees in radians. -/
noncomputable def radians (degrees : ℝ) : ℝ :=
  degrees * π / 180

/-- The angle of a displacement. -/
noncomputable def distRadians (distanceMeters : ℝ) : ℝ :=
  distanceMeters / 6372797.6

/-- The coordinate as a point of the sphere. -/
noncomputable def CLLocationCoordinate2D.onSphere (c : CLLocationCoordinate2D ℝ) :
    EuclideanSpace ℝ (Fin 3) :=
  Sphere.point (radians c.latitude) (radians c.longitude)

theorem radians_div (x : ℝ) : radians (x * 180 / π) = x := by
  have hπ := pi_ne_zero
  unfold radians
  field_simp

/-- The target has the coordinates of the destination formula. -/
theorem onSphere_locationWithBearing (bearing distance : ℝ) (origin : CLLocationCoordinate2D ℝ) :
    (locationWithBearing bearing distance origin).onSphere =
      Sphere.point (Sphere.destLatitude (radians origin.latitude) bearing (distRadians distance))
        (Sphere.destLongitude (radians origin.latitude) (radians origin.longitude) bearing
          (distRadians distance)) := by
  unfold CLLocationCoordinate2D.onSphere locationWithBearing
  dsimp only
  rw [radians_div, radians_div]
  rfl

/-! ## The distance -/

/-- The central angle between two coordinates. -/
noncomputable def centralAngle (c c' : CLLocationCoordinate2D ℝ) : ℝ :=
  InnerProductGeometry.angle c.onSphere c'.onSphere

theorem cos_radians_nonneg {latitude : ℝ} (h : latitude ∈ Set.Icc (-90) 90) :
    0 ≤ cos (radians latitude) := by
  refine cos_nonneg_of_neg_pi_div_two_le_of_le ?_ ?_ <;> unfold radians <;>
    nlinarith [h.1, h.2, pi_pos]

/-- The target is at the distance chosen. -/
theorem centralAngle_locationWithBearing {origin : CLLocationCoordinate2D ℝ}
    (hlatitude : origin.latitude ∈ Set.Icc (-90) 90) (bearing : ℝ) {distance : ℝ}
    (h₀ : 0 ≤ distance / 6372797.6) (hπ : distance / 6372797.6 ≤ π) :
    centralAngle origin (locationWithBearing bearing distance origin) = distance / 6372797.6 := by
  rw [centralAngle, onSphere_locationWithBearing]
  exact Sphere.angle_point_dest (cos_radians_nonneg hlatitude) h₀ hπ _ bearing

/-- A fluff distance is a small angle. -/
theorem distRadians_mem {distance : ℤ} (h : distance ∈ fluffDistances) :
    0 < distRadians distance ∧ distRadians distance < 1 := by
  unfold distRadians
  simp only [fluffDistances, List.mem_cons, List.not_mem_nil, or_false] at h
  rcases h with rfl | rfl | rfl | rfl | rfl <;> constructor <;> norm_num

/-- From the north pole, 2 km. -/
theorem centralAngle_northPole :
    centralAngle ⟨90, 20⟩ (locationWithBearing 7 2000 ⟨90, 20⟩) = 2000 / 6372797.6 := by
  refine centralAngle_locationWithBearing ⟨by norm_num, le_rfl⟩ 7 (by norm_num) ?_
  exact le_trans (by norm_num) two_le_pi

/-! ## The heading -/

/-- The heading from a coordinate to another, clockwise from north. -/
noncomputable def compassHeading (c c' : CLLocationCoordinate2D ℝ) : Real.Angle :=
  Sphere.heading (radians c.latitude) (radians c.longitude) c'.onSphere

theorem cos_radians_pos {latitude : ℝ} (h : latitude ∈ Set.Ioo (-90) 90) :
    0 < cos (radians latitude) := by
  refine cos_pos_of_mem_Ioo ⟨?_, ?_⟩ <;> unfold radians <;> nlinarith [h.1, h.2, pi_pos]

/-- The heading of the target is the bearing in radians. -/
theorem compassHeading_locationWithBearing {origin : CLLocationCoordinate2D ℝ}
    (hlatitude : origin.latitude ∈ Set.Ioo (-90) 90) (bearing : ℝ) {distance : ℝ}
    (hdistance : 0 < sin (distRadians distance)) :
    compassHeading origin (locationWithBearing bearing distance origin) = bearing := by
  rw [compassHeading, onSphere_locationWithBearing, Sphere.point_dest (cos_radians_pos hlatitude),
    Sphere.heading_travel _ _ _ hdistance]

/-- No number of radians but `0` is the same number of degrees. -/
theorem coe_eq_radians_iff (bearing : ℤ) :
    ((bearing : ℝ) : Real.Angle) = (radians bearing : ℝ) ↔ bearing = 0 := by
  constructor
  · intro h
    obtain ⟨k, hk⟩ := Real.Angle.angle_eq_iff_two_pi_dvd_sub.1 h
    have hmul : π * ((2 * k + bearing / 180 : ℚ) : ℝ) = bearing := by
      unfold radians at hk
      push_cast
      linarith
    by_contra hne
    -- otherwise `π` is a quotient of rationals
    have hq : ((2 * k + bearing / 180 : ℚ) : ℝ) ≠ 0 := by
      intro hzero
      rw [hzero, mul_zero] at hmul
      exact hne (by exact_mod_cast hmul.symm)
    refine irrational_pi ⟨bearing / (2 * k + bearing / 180), ?_⟩
    rw [Rat.cast_div, Rat.cast_intCast, div_eq_iff hq, hmul]
  · rintro rfl
    simp [radians]

/-- The heading of the target is the bearing in degrees iff the bearing is `0`. -/
theorem heading_iff {origin : CLLocationCoordinate2D ℝ}
    (hlatitude : origin.latitude ∈ Set.Ioo (-90) 90) (bearing : ℤ) {distance : ℤ}
    (hdistance : distance ∈ fluffDistances) :
    compassHeading origin (locationWithBearing bearing distance origin) = (radians bearing : ℝ) ↔
      bearing = 0 := by
  obtain ⟨hpos, hlt⟩ := distRadians_mem hdistance
  have hsin : 0 < sin (distRadians distance) :=
    sin_pos_of_pos_of_lt_pi hpos (hlt.trans (by linarith [two_le_pi]))
  rw [compassHeading_locationWithBearing hlatitude bearing hsin, coe_eq_radians_iff]

theorem heading_iff_east :
    compassHeading ⟨37, -121⟩ (locationWithBearing (90 : ℤ) (2000 : ℤ) ⟨37, -121⟩) =
      (radians (90 : ℤ) : ℝ) ↔ (90 : ℤ) = 0 :=
  heading_iff ⟨by norm_num, by norm_num⟩ 90 (by simp [fluffDistances])

/-- A displacement to the east does not go east. -/
theorem not_east :
    compassHeading ⟨37, -121⟩ (locationWithBearing (90 : ℤ) (2000 : ℤ) ⟨37, -121⟩) ≠
      (radians (90 : ℤ) : ℝ) := by
  obtain ⟨hpos, hlt⟩ := distRadians_mem (show 2000 ∈ fluffDistances by simp [fluffDistances])
  have hsin := sin_pos_of_pos_of_lt_pi hpos (hlt.trans (by linarith [two_le_pi]))
  rw [compassHeading_locationWithBearing ⟨by norm_num, by norm_num⟩ _ hsin, Ne,
    coe_eq_radians_iff]
  decide

/-! ## Valid coordinates -/

/-- A coordinate that MapKit takes. -/
def CLLocationCoordinate2D.Valid (c : CLLocationCoordinate2D ℝ) : Prop :=
  c.latitude ∈ Set.Icc (-90) 90 ∧ c.longitude ∈ Set.Icc (-180) 180

/-- The displacement crosses the antimeridian. -/
def Crosses (bearing distance : ℝ) (origin : CLLocationCoordinate2D ℝ) : Prop :=
  Sphere.CrossesAntimeridian (radians origin.latitude) (radians origin.longitude) bearing
    (distRadians distance)

/-- Between two bounds in degrees and in radians. -/
theorem degrees_mem_iff (x : ℝ) {b : ℝ} :
    x * 180 / π ∈ Set.Icc (-b) b ↔ x ∈ Set.Icc (-radians b) (radians b) := by
  have hπ := pi_pos
  unfold radians
  rw [Set.mem_Icc, Set.mem_Icc, le_div_iff₀ hπ, div_le_iff₀ hπ]
  constructor <;> rintro ⟨h₁, h₂⟩ <;> constructor <;> linarith

/-- The target of a valid origin is valid iff the displacement does not cross the
antimeridian. -/
theorem valid_locationWithBearing_iff {origin : CLLocationCoordinate2D ℝ} (h : origin.Valid)
    (bearing distance : ℝ) :
    (locationWithBearing bearing distance origin).Valid ↔ ¬Crosses bearing distance origin := by
  have hlat : (locationWithBearing bearing distance origin).latitude ∈ Set.Icc (-90) 90 := by
    refine (degrees_mem_iff _).2 ?_
    have hrad : radians 90 = π / 2 := by unfold radians; ring
    rw [hrad]
    exact arcsin_mem_Icc _
  have hlon : radians origin.longitude ∈ Set.Icc (-π) π := by
    unfold radians
    constructor <;> nlinarith [h.2.1, h.2.2, pi_pos]
  have hrad : radians 180 = π := by unfold radians; ring
  rw [CLLocationCoordinate2D.Valid, and_iff_right hlat, Crosses,
    ← Sphere.destLongitude_mem_iff (cos_radians_nonneg h.1) hlon, ← hrad, ← degrees_mem_iff]
  rfl

/-- A displacement of a valid coordinate is valid iff it does not cross the antimeridian,
and so is what `storeLocation` writes for it. -/
theorem valid_iff_not_crosses {fix : CLLocationCoordinate2D ℝ} (h : fix.Valid) :
    (∀ bearing distance : ℝ,
      (locationWithBearing bearing distance fix).Valid ↔ ¬Crosses bearing distance fix) ∧
    ∀ (P : Platform ℝ) (clock : ClockReadings) (arc4random : UInt32) (a : App ℝ)
      (w : LocationWrite ℝ),
      (∀ (b d : ℤ) c, P.locationWithBearing b d c = locationWithBearing b d c) →
      (storeLocation P clock arc4random fix a).2 = some w →
      (w.coordinate.Valid ↔ (fuzzes P a.defaults fix = true →
        ¬Crosses (integerForKey (drawBearing arc4random a.defaults).ddfLocationFuzzingBearing)
          (integerForKey a.defaults.ddfLocationFuzzingDistance) fix)) := by
  refine ⟨valid_locationWithBearing_iff h, fun P clock arc4random a w hP hw => ?_⟩
  obtain ⟨-, -, hcoord, -⟩ := (storeLocation_write_iff P clock arc4random fix a w).1 hw
  rw [hcoord]
  rcases fuzzLocation_cases P arc4random a.defaults fix with
    ⟨hno, heq⟩ | ⟨hyes, bearing, hdraw, heq⟩
  · simp [heq, hno, h]
  · simp only [heq, hyes, hdraw, hP, valid_locationWithBearing_iff h, integerForKey_some,
      forall_const]

/-- Real coordinates and the displacement of the app, without zones, 3 km from the venue. -/
noncomputable def Platform.displacing : Platform ℝ where
  mapPointForCoordinate c := ⟨c.latitude, c.longitude⟩
  mapRectContainsPoint _ _ := false
  mapRectNull := ⟨⟨0, 0⟩, ⟨0, 0⟩⟩
  distanceFromVenue _ := 3000
  coordinateIsValid _ := true
  locationWithBearing bearing distance c :=
    ConfFriends.locationWithBearing bearing distance c
  urlWithString := some

/-- An app that moves fixes by 2 km, with an account signed in. -/
def App.fuzzing : App ℝ where
  defaults :=
    { ddfLocationFuzzingEnabled := some true
      ddfLocationFuzzingRadius := some 2000
      ddfLocationFuzzingDistance := some 2000 }
  currentUser := some "a"
  users := fun _ => {}
  delegate := { locMgr := { services := ⟨true, .authorizedAlways⟩ } }

/-- A fix in San Jose, written with the bearing 7. -/
theorem valid_iff_not_crosses_sanJose :
    (∀ bearing distance : ℝ, (locationWithBearing bearing distance ⟨37, -121⟩).Valid ↔
      ¬Crosses bearing distance ⟨37, -121⟩) ∧
    ((locationWithBearing (7 : ℤ) (2000 : ℤ) ⟨37, -121⟩).Valid ↔
      (fuzzes Platform.displacing App.fuzzing.defaults ⟨37, -121⟩ = true →
        ¬Crosses
          (integerForKey (drawBearing 7 App.fuzzing.defaults).ddfLocationFuzzingBearing)
          (integerForKey App.fuzzing.defaults.ddfLocationFuzzingDistance) ⟨37, -121⟩)) := by
  have hwrite : (storeLocation Platform.displacing ⟨100, 100, 100⟩ 7 ⟨37, -121⟩
      App.fuzzing).2 =
      some ⟨"a", locationWithBearing (7 : ℤ) (2000 : ℤ) ⟨37, -121⟩, 100⟩ := by
    refine (storeLocation_write_iff _ _ _ _ _ _).2 ⟨⟨rfl, rfl, by decide⟩, rfl, ?_, rfl⟩
    simp [fuzzLocation, fuzzes, App.fuzzing, Platform.displacing, drawBearing]
    norm_num
  obtain ⟨hpoint, hstored⟩ := valid_iff_not_crosses
    (show CLLocationCoordinate2D.Valid ⟨37, -121⟩ from
      ⟨⟨by norm_num, by norm_num⟩, by norm_num, by norm_num⟩)
  exact ⟨hpoint, hstored Platform.displacing _ 7 App.fuzzing _ (fun _ _ _ => rfl) hwrite⟩

/-- From the antimeridian to the east, the longitude is greater than 180°. -/
theorem beyond_antimeridian :
    (⟨0, 180⟩ : CLLocationCoordinate2D ℝ).Valid ∧
      ¬(locationWithBearing (1 : ℤ) (100 : ℤ) ⟨0, 180⟩).Valid := by
  have hvalid : (⟨0, 180⟩ : CLLocationCoordinate2D ℝ).Valid :=
    ⟨⟨by norm_num, by norm_num⟩, by norm_num, le_rfl⟩
  refine ⟨hvalid, ?_⟩
  rw [valid_locationWithBearing_iff hvalid, not_not]
  obtain ⟨hpos, hlt⟩ := distRadians_mem (show 100 ∈ fluffDistances by simp [fluffDistances])
  have hsin : 0 < sin (distRadians (100 : ℤ)) :=
    sin_pos_of_pos_of_lt_pi hpos (hlt.trans (by linarith [two_le_pi]))
  have hone : 0 < sin 1 := sin_pos_of_pos_of_lt_pi one_pos (by linarith [two_le_pi])
  have hθ : radians 180 = π := by unfold radians; ring
  have hφ : radians 0 = 0 := by simp [radians]
  unfold Crosses Sphere.CrossesAntimeridian
  simp only [hθ, hφ, cos_zero, Int.cast_one]
  refine ⟨one_pos, Or.inl ⟨pi_pos, mul_pos hsin hone, ?_⟩⟩
  simp [Sphere.travel, Sphere.point, Sphere.north, Sphere.east]
  exact mul_pos hsin hone

end ConfFriends
