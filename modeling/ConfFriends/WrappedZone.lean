import Mathlib.Algebra.Order.Ring.Defs
import Mathlib.Data.Int.Cast.Lemmas
import ConfFriends.Cylinder
import ConfFriends.Screens
import ConfFriends.StoreLocation

/-!
# A privacy zone across the 180th meridian

The world of MapKit is a cylinder : map points a whole width apart are the same place.
The visible rectangle of a map that shows the 180th meridian is stored as a rectangle of
the plane that reaches beyond the world, and `storeLocation` tests the map point of a
fix against it, which lies inside the world, without trying its copies.

`publishes_nothing_iff` says for which fixes the zone still protects, and for which zones
all of them are. `protectsAll_iff` says that these are the only zones : those that do
not cross the meridian, or cover the whole width.
-/

set_option linter.unusedSectionVars false

open Cylinder

namespace ConfFriends

variable {K : Type*} [CommRing K] [LinearOrder K] [IsStrictOrderedRing K]

/-! ## Rectangles and points of the plane -/

/-- The point `k` widths of the world to the east. -/
def MKMapPoint.shift (W : K) (k : ℤ) (p : MKMapPoint K) : MKMapPoint K :=
  { p with x := p.x + k • W }

namespace MKMapRect

/-- The `x` of the points in a rectangle, and the `y`. -/
def columns (r : MKMapRect K) : Set K :=
  Set.Ico r.origin.x (r.origin.x + r.size.width)

def rows (r : MKMapRect K) : Set K :=
  Set.Ico r.origin.y (r.origin.y + r.size.height)

/-- A copy of the point lies in the rectangle. -/
def Covers (W : K) (r : MKMapRect K) (p : MKMapPoint K) : Prop :=
  ∃ k : ℤ, (p.shift W k).x ∈ r.columns ∧ (p.shift W k).y ∈ r.rows

/-- The rectangle does not reach beyond the world, or it has no point or spans it. -/
def Unbroken (W : K) (r : MKMapRect K) : Prop :=
  r.origin.x + r.size.width ≤ r.origin.x ∨
    (0 ≤ r.origin.x ∧ r.origin.x + r.size.width ≤ W) ∨
    (r.origin.x ≤ 0 ∧ W ≤ r.origin.x + r.size.width)

theorem covers_iff {W : K} {r : MKMapRect K} {p : MKMapPoint K} :
    r.Covers W p ↔ Wound W r.columns p.x ∧ p.y ∈ r.rows := by
  constructor
  · rintro ⟨k, hx, hy⟩
    exact ⟨⟨k, hx⟩, hy⟩
  · rintro ⟨⟨k, hx⟩, hy⟩
    exact ⟨k, hx, hy⟩

end MKMapRect

/-- What the app relies on of MapKit, in a world of the width `W`. -/
structure PlaneMap (P : Platform K) (W : K) : Prop where
  width_pos : 0 < W
  range : ∀ c, (P.mapPointForCoordinate c).x ∈ Set.Ico 0 W
  /-- Containment is that of the plane. -/
  contains : ∀ r p, P.mapRectContainsPoint r p = true ↔ p.x ∈ r.columns ∧ p.y ∈ r.rows

/-! ## Which fixes are protected -/

section zone

variable {P : Platform K} {W : K} {mapRect : MKMapRect K} {a : App K}

/-- The zone that `saveZone` has stored, as `storeLocation` reads it. -/
theorem insidePrivacyZone_saveZone {b : App K}
    (hzone : a.defaults.ddfPrivacyZone = (b.saveZone mapRect).stored.defaults.ddfPrivacyZone)
    (fix : CLLocationCoordinate2D K) :
    a.defaults.insidePrivacyZone P fix =
      P.mapRectContainsPoint mapRect (P.mapPointForCoordinate fix) := by
  have hstored : a.defaults.ddfPrivacyZone = some (setMapRect mapRect) := by
    rw [hzone]
    unfold App.saveZone App.withUserRef
    dsimp only
    split <;> rfl
  simp [NSUserDefaults.insidePrivacyZone, hstored]

/-- A point inside the world that an unbroken rectangle covers lies in it. -/
theorem MKMapRect.Unbroken.contains (hP : PlaneMap P W) (h : mapRect.Unbroken W)
    {fix : CLLocationCoordinate2D K} (hcovers : mapRect.Covers W (P.mapPointForCoordinate fix)) :
    P.mapRectContainsPoint mapRect (P.mapPointForCoordinate fix) = true := by
  obtain ⟨hwound, hy⟩ := MKMapRect.covers_iff.1 hcovers
  exact (hP.contains _ _).2 ⟨mem_of_wound_Ico hP.width_pos h (hP.range fix) hwound, hy⟩

/-- A call publishes nothing iff one of its tests stops it. -/
theorem storeLocation_eq_none_iff (P : Platform K) (clock : ClockReadings) (arc4random : UInt32)
    (fix : CLLocationCoordinate2D K) (a : App K) :
    (storeLocation P clock arc4random fix a).2 = none ↔
      a.defaults.locationDisabled = true ∨ a.defaults.insidePrivacyZone P fix = true ∨
        wholeSeconds clock.currentSeconds < a.delegate.lastLocationUpdateTime + 60 ∨
        a.currentUser = none := by
  rcases storeLocation_cases P clock arc4random fix a with
    ⟨hno, heq⟩ | ⟨hpass, write, rfl, heq⟩
  · rw [heq]
    refine iff_of_true rfl ?_
    by_contra hall
    simp only [not_or, Bool.not_eq_true, not_lt] at hall
    exact hno ⟨hall.1, hall.2.1, hall.2.2.1⟩
  · rw [heq]
    simp [hpass.enabled, hpass.outside, not_lt.2 hpass.throttle]

/-- While the zone is stored, a covered fix is not published iff its own map point is in the
rectangle or another test stops it. A zone that is unbroken protects every covered fix. -/
theorem publishes_nothing_iff (hP : PlaneMap P W) {b : App K}
    (hzone : a.defaults.ddfPrivacyZone = (b.saveZone mapRect).stored.defaults.ddfPrivacyZone)
    (clock : ClockReadings) (arc4random : UInt32) (fix : CLLocationCoordinate2D K) :
    ((mapRect.Covers W (P.mapPointForCoordinate fix) →
        (storeLocation P clock arc4random fix a).2 = none) ↔
      (∀ k : ℤ, k ≠ 0 → ¬(((P.mapPointForCoordinate fix).shift W k).x ∈ mapRect.columns ∧
        ((P.mapPointForCoordinate fix).shift W k).y ∈ mapRect.rows)) ∨
      P.mapRectContainsPoint mapRect (P.mapPointForCoordinate fix) = true ∨
      a.defaults.locationDisabled = true ∨
      wholeSeconds clock.currentSeconds < a.delegate.lastLocationUpdateTime + 60 ∨
      a.currentUser = none) ∧
    (mapRect.Unbroken W → mapRect.Covers W (P.mapPointForCoordinate fix) →
      (storeLocation P clock arc4random fix a).2 = none) := by
  rw [storeLocation_eq_none_iff, insidePrivacyZone_saveZone hzone]
  refine ⟨⟨fun hprotects => ?_, fun hcond hcovers => ?_⟩, fun hunbroken hcovers => ?_⟩
  · by_cases hcovers : mapRect.Covers W (P.mapPointForCoordinate fix)
    · rcases hprotects hcovers with h | h | h
      · exact Or.inr (Or.inr (Or.inl h))
      · exact Or.inr (Or.inl h)
      · exact Or.inr (Or.inr (Or.inr h))
    · exact Or.inl fun k _ hk => hcovers ⟨k, hk⟩
  · rcases hcond with hnocopy | h | h | h
    · -- only the point itself is left
      obtain ⟨k, hk⟩ := hcovers
      obtain rfl : k = 0 := by
        by_contra hne
        exact hnocopy k hne hk
      exact Or.inr (Or.inl ((hP.contains _ _).2 (by simpa [MKMapPoint.shift] using hk)))
    · exact Or.inr (Or.inl h)
    · exact Or.inl h
    · exact Or.inr (Or.inr h)
  · exact Or.inr (Or.inl (hunbroken.contains hP hcovers))

end zone

/-! ## Which zones protect -/

/-- A phone that shares its location, with a zone stored and the throttle run out. -/
def sharingApp (mapRect : MKMapRect K) : App K :=
  { defaults := { ddfPrivacyZone := some (setMapRect mapRect) }
    currentUser := some "a"
    users := fun _ => {}
    delegate := { locMgr := { services := ⟨true, .authorizedAlways⟩ } } }

/-- The zone protects every fix that it covers, on any phone. -/
def MKMapRect.ProtectsAll (P : Platform K) (W : K) (mapRect : MKMapRect K) : Prop :=
  ∀ (a : App K) (clock : ClockReadings) (arc4random : UInt32) (fix : CLLocationCoordinate2D K),
    a.defaults.ddfPrivacyZone = some (setMapRect mapRect) →
    mapRect.Covers W (P.mapPointForCoordinate fix) →
    (storeLocation P clock arc4random fix a).2 = none

/-- If each `x` of the world is that of a fix in the rows of the zone, the zone protects every
fix iff it is unbroken. -/
theorem protectsAll_iff [Archimedean K] {P : Platform K} {W : K} {mapRect : MKMapRect K}
    (hP : PlaneMap P W) (honto : ∀ x ∈ Set.Ico 0 W, ∃ fix,
      (P.mapPointForCoordinate fix).x = x ∧ (P.mapPointForCoordinate fix).y ∈ mapRect.rows) :
    mapRect.ProtectsAll P W ↔ mapRect.Unbroken W := by
  constructor
  · intro hall
    refine (forall_mem_of_wound_Ico_iff hP.width_pos).1 fun x hx hwound => ?_
    obtain ⟨fix, rfl, hy⟩ := honto x hx
    have hnone := hall (sharingApp mapRect) ⟨60, 60, 60⟩ 0 fix rfl
      (MKMapRect.covers_iff.2 ⟨hwound, hy⟩)
    rw [storeLocation_eq_none_iff] at hnone
    have hinside : P.mapRectContainsPoint mapRect (P.mapPointForCoordinate fix) = true := by
      simpa [sharingApp, NSUserDefaults.locationDisabled, NSUserDefaults.insidePrivacyZone,
        wholeSeconds] using hnone
    exact ((hP.contains _ _).1 hinside).1
  · intro hunbroken a clock arc4random fix hzone hcovers
    rw [storeLocation_eq_none_iff]
    refine Or.inr (Or.inl ?_)
    simpa [NSUserDefaults.insidePrivacyZone, hzone] using hunbroken.contains hP hcovers

/-! A concrete world of 360 columns, in the plane map. -/

/-- The flat world on a cylinder : degrees of longitude are columns. -/
def Platform.cylinder : Platform ℤ :=
  { Platform.flat with
    mapPointForCoordinate := fun c => ⟨(c.longitude + 180) % 360, c.latitude + 90⟩ }

theorem planeMap_cylinder : PlaneMap Platform.cylinder 360 where
  width_pos := by decide
  range c := ⟨Int.emod_nonneg _ (by decide), Int.emod_lt_of_pos _ (by decide)⟩
  contains r p := by
    simp [Platform.cylinder, Platform.flat, MKMapRect.columns, MKMapRect.rows]

/-- The visible rectangle of a map from 10 degrees west of the 180th meridian to 10 degrees
east of it. -/
def meridianRect : MKMapRect ℤ :=
  ⟨⟨350, 80⟩, ⟨20, 20⟩⟩

theorem publishes_nothing_meridianRect :
    ((meridianRect.Covers 360 (Platform.cylinder.mapPointForCoordinate ⟨0, 175⟩) →
        (storeLocation Platform.cylinder ⟨60, 60, 60⟩ 0 ⟨0, 175⟩ (sharingApp meridianRect)).2 =
          none) ↔
      (∀ k : ℤ, k ≠ 0 →
        ¬(((Platform.cylinder.mapPointForCoordinate ⟨0, 175⟩).shift 360 k).x ∈
            meridianRect.columns ∧
          ((Platform.cylinder.mapPointForCoordinate ⟨0, 175⟩).shift 360 k).y ∈
            meridianRect.rows)) ∨
      Platform.cylinder.mapRectContainsPoint meridianRect
        (Platform.cylinder.mapPointForCoordinate ⟨0, 175⟩) = true ∨
      (sharingApp meridianRect).defaults.locationDisabled = true ∨
      wholeSeconds 60 < (sharingApp meridianRect).delegate.lastLocationUpdateTime + 60 ∨
      (sharingApp meridianRect).currentUser = none) ∧
    (meridianRect.Unbroken 360 →
      meridianRect.Covers 360 (Platform.cylinder.mapPointForCoordinate ⟨0, 175⟩) →
      (storeLocation Platform.cylinder ⟨60, 60, 60⟩ 0 ⟨0, 175⟩ (sharingApp meridianRect)).2 =
        none) :=
  publishes_nothing_iff planeMap_cylinder (b := sharingApp meridianRect) rfl ⟨60, 60, 60⟩ 0
    ⟨0, 175⟩

/-- A fix 5 degrees east of the meridian, in the middle of the eastern half of the zone, is
published. -/
theorem published_across_meridian :
    meridianRect.Covers 360 (Platform.cylinder.mapPointForCoordinate ⟨0, -175⟩) ∧
      (sharingApp meridianRect).defaults.ddfPrivacyZone =
        ((sharingApp meridianRect).saveZone meridianRect).stored.defaults.ddfPrivacyZone ∧
      (storeLocation Platform.cylinder ⟨60, 60, 60⟩ 0 ⟨0, -175⟩ (sharingApp meridianRect)).2 =
        some ⟨"a", ⟨0, -175⟩, 60⟩ := by
  refine ⟨⟨1, ?_, ?_⟩, rfl, by decide⟩
  · exact Set.mem_Ico.2 ⟨by decide, by decide⟩
  · exact Set.mem_Ico.2 ⟨by decide, by decide⟩

/-- A zone across the meridian does not protect all that it covers. -/
theorem not_protectsAll_meridianRect : ¬meridianRect.ProtectsAll Platform.cylinder 360 := by
  have honto : ∀ x ∈ Set.Ico (0 : ℤ) 360, ∃ fix,
      (Platform.cylinder.mapPointForCoordinate fix).x = x ∧
        (Platform.cylinder.mapPointForCoordinate fix).y ∈ meridianRect.rows := by
    intro x hx
    have hcolumn : (x - 180 + 180) % 360 = x := by
      rw [sub_add_cancel, Int.emod_eq_of_lt hx.1 hx.2]
    have hrow : (0 + 90 : ℤ) ∈ meridianRect.rows := Set.mem_Ico.2 ⟨by decide, by decide⟩
    exact ⟨⟨0, x - 180⟩, hcolumn, hrow⟩
  rw [protectsAll_iff planeMap_cylinder honto]
  simp [MKMapRect.Unbroken, meridianRect]

end ConfFriends
