import ConfFriends.MapView.Markers
import ConfFriends.Transition.History

/-!
# Markers and the latest position

The registered marker of a user should be where the latest snapshot puts the user, once
no download of the user is in flight. A position gets to the marker by the block for
`ChildChanged`, or with the user that a download has captured. The last of several
downloads to complete decides, and that need not be the last one to start
(`stale_marker`) : so the markers converge along a run iff the last download of a user
to complete has captured the position of the latest snapshot
(`converged_iff_endsCurrent`).
-/

set_option linter.unusedSectionVars false

open Transition

namespace ConfFriends.MapViewController

variable {K Image : Type*} [DecidableEq K] [Zero K] {M : MapPlatform Image}

/-! ## Positions -/

/-- The coordinate of an annotation. -/
def positionOf (s : MapViewController K Image) (ref : ℕ) : Option (CLLocationCoordinate2D K) :=
  s.annotations[ref]?.map (·.coordinate)

/-- A download of the user is in flight. -/
def Downloading (s : MapViewController K Image) (key : String) : Prop :=
  ∃ user ∈ s.downloads, user.identifier = some key

/-- The registered annotation of the user, if any, is where the latest snapshot is. -/
def Current (s : MapViewController K Image) (key : String) : Prop :=
  ∀ ref, s.userAnnotations key = some ref → ∃ snapshot c,
    s.latest key = some snapshot ∧ snapshot.coordinate? = some c ∧ s.positionOf ref = some c

/-- The registered annotations of users without a download in flight are current. -/
def Converged (s : MapViewController K Image) : Prop :=
  ∀ key, ¬s.Downloading key → s.Current key

theorem positionOf_insertMarker {s : MapViewController K Image} (user : DDFUser K)
    (image : Image) (now : NSTimeInterval) (downloads : List (DDFUser K)) {ref : ℕ}
    (h : ref < s.annotations.length) :
    (insertMarker M user image now { s with downloads := downloads }).positionOf ref =
      s.positionOf ref := by
  unfold positionOf insertMarker
  rw [List.getElem?_append_left h]

@[simp] theorem positionOf_insertMarker_self (s : MapViewController K Image) (user : DDFUser K)
    (image : Image) (now : NSTimeInterval) (downloads : List (DDFUser K)) :
    (insertMarker M user image now { s with downloads := downloads }).positionOf
      s.annotations.length = some user.coordinate := by
  simp [positionOf, insertMarker]

/-- The annotation that moves is at its new coordinate, the others stay. -/
theorem positionOf_modify (s s' : MapViewController K Image) (ref ref' : ℕ)
    (c : CLLocationCoordinate2D K) (subtitle : String) (hlt : ref' < s.annotations.length)
    (h : s'.annotations = s.annotations.modify ref fun marker =>
      { marker with coordinate := c, subtitle := subtitle }) :
    s'.positionOf ref' = if ref = ref' then some c else s.positionOf ref' := by
  unfold positionOf
  rw [h, List.getElem?_modify, List.getElem?_eq_getElem hlt]
  split <;> simp [*]

/-- More downloads leave a user without downloads only where there were none. -/
theorem not_downloading_of_append {s : MapViewController K Image} {key : String}
    {downloads started : List (DDFUser K)} (hdownloads : downloads = s.downloads ++ started)
    (h : ¬∃ user ∈ downloads, user.identifier = some key) : ¬s.Downloading key := by
  rintro ⟨user, huser, hkey⟩
  exact h ⟨user, hdownloads ▸ List.mem_append_left _ huser, hkey⟩

/-- A completed download is no download of another user. -/
theorem not_downloading_of_eraseIdx {s : MapViewController K Image} {i : ℕ} {user : DDFUser K}
    {key : String} (huser : s.downloads[i]? = some user) (hne : user.identifier ≠ some key)
    (h : ¬∃ other ∈ s.downloads.eraseIdx i, other.identifier = some key) :
    ¬s.Downloading key := by
  rintro ⟨other, hother, hkey⟩
  obtain ⟨j, hj⟩ := List.mem_iff_getElem?.1 hother
  refine h ⟨other, List.mem_eraseIdx_iff_getElem?.2 ⟨j, ?_, hj⟩, hkey⟩
  rintro rfl
  rw [huser, Option.some.injEq] at hj
  exact hne (hj ▸ hkey)

/-! ## Captured positions -/

/-- The position that the download captured with which a user's marker was made. A change of
the user moves the marker, and takes it off if it cannot. -/
def capture (s : MapViewController K Image) (e : MapEvent K Image)
    (captured : String → Option (CLLocationCoordinate2D K)) :
    String → Option (CLLocationCoordinate2D K) :=
  match e with
  | .childChanged key _ _ => Function.update captured key none
  | .childRemoved key => Function.update captured key none
  | .ddfFilterChanged _ _ => fun _ => none
  | .downloadCompleted i (some _) _ =>
    (s.downloads[i]?).elim captured fun user => user.identifier.elim captured fun key =>
      Function.update captured key (some user.coordinate)
  | _ => captured

/-- The captured positions after a run. -/
def captured (M : MapPlatform Image) (s₀ : MapViewController K Image)
    (pre : List (MapEvent K Image)) : String → Option (CLLocationCoordinate2D K) :=
  track (step M) capture (fun _ => none) s₀ pre

/-- The marker of a user is at the captured position, if there is one, and current if not. -/
structure Placed (captured : String → Option (CLLocationCoordinate2D K))
    (s : MapViewController K Image) : Prop where
  completed : ∀ key c, captured key = some c →
    ∃ ref, s.userAnnotations key = some ref ∧ s.positionOf ref = some c
  changed : ∀ key, captured key = none → s.Current key

/-- The latest snapshot of the user has the captured position, if there is one. -/
def CapturesLatest (captured : String → Option (CLLocationCoordinate2D K))
    (s : MapViewController K Image) (key : String) : Prop :=
  ∀ c, captured key = some c → ∃ snapshot,
    s.latest key = some snapshot ∧ snapshot.coordinate? = some c

theorem Placed.current_iff {captured : String → Option (CLLocationCoordinate2D K)}
    {s : MapViewController K Image} (h : Placed captured s) (key : String) :
    s.Current key ↔ CapturesLatest captured s key := by
  constructor
  · intro hcurrent c hc
    obtain ⟨ref, href, hposition⟩ := h.completed key c hc
    obtain ⟨snapshot, c', hlatest, hcoord, hposition'⟩ := hcurrent ref href
    obtain rfl := Option.some.inj (hposition.symm.trans hposition')
    exact ⟨snapshot, hlatest, hcoord⟩
  · intro hcaptures
    cases hc : captured key with
    | none => exact h.changed key hc
    | some c =>
      obtain ⟨ref, href, hposition⟩ := h.completed key c hc
      obtain ⟨snapshot, hlatest, hcoord⟩ := hcaptures c hc
      intro ref' href'
      obtain rfl := Option.some.inj (href.symm.trans href')
      exact ⟨snapshot, c, hlatest, hcoord, hposition⟩

/-! ## The last download of a user -/

/-- The last download of a user in flight has captured the position of the latest snapshot.
If it fails, the last one that did not has, unless the user has changed since. -/
structure EndsCurrent (captured : String → Option (CLLocationCoordinate2D K))
    (s : MapViewController K Image) (e : MapEvent K Image) : Prop where
  inserts : ∀ i image now user key, e = .downloadCompleted i (some image) now →
    s.downloads[i]? = some user → user.identifier = some key →
    (¬∃ other ∈ s.downloads.eraseIdx i, other.identifier = some key) →
    ∃ snapshot, s.latest key = some snapshot ∧ snapshot.coordinate? = some user.coordinate
  fails : ∀ i now user key, e = .downloadCompleted i none now →
    s.downloads[i]? = some user → user.identifier = some key →
    (¬∃ other ∈ s.downloads.eraseIdx i, other.identifier = some key) →
    CapturesLatest captured s key

/-- A registered marker stays current while its snapshot and its place stay. -/
theorem Current.congr {s s' : MapViewController K Image} {key : String} (h : s.Current key)
    (hkept : ∀ ref, s'.userAnnotations key = some ref →
      s.userAnnotations key = some ref ∧ s'.positionOf ref = s.positionOf ref ∧
        ∀ snapshot, s.latest key = some snapshot → s'.latest key = some snapshot) :
    s'.Current key := by
  intro ref href
  obtain ⟨hold, hposition, hlatest⟩ := hkept ref href
  obtain ⟨snapshot, c, hsnapshot, hcoord, hpos⟩ := h ref hold
  exact ⟨snapshot, c, hlatest snapshot hsnapshot, hcoord, hposition.trans hpos⟩

/-- What an event leaves of a user : the captured position, the marker at its place, and the
snapshot, if there is one. -/
structure Keeps (captured captured' : String → Option (CLLocationCoordinate2D K))
    (s s' : MapViewController K Image) (key : String) : Prop where
  captured : captured' key = captured key
  registered : s'.userAnnotations key = s.userAnnotations key
  position : ∀ ref, s.userAnnotations key = some ref → s'.positionOf ref = s.positionOf ref
  latest : ∀ snapshot, s.latest key = some snapshot → s'.latest key = some snapshot

/-- An event leaves a user as it is, or is a change of the user or a completed download. -/
theorem keeps_step (captured : String → Option (CLLocationCoordinate2D K))
    {s s' : MapViewController K Image} {e : MapEvent K Image} (hs : MarkerStep M s e s')
    (hkeyed : ∀ key ref, s.userAnnotations key = some ref → s.keyOf ref = some key)
    (key' : String) : Keeps captured (capture s e captured) s s' key' ∨
      (capture s e captured key' = none ∧ s'.Current key') ∨
      ∃ i image now user, e = .downloadCompleted i (some image) now ∧
        s.downloads[i]? = some user ∧ user.identifier = some key' ∧
        s' = insertMarker M user image now { s with downloads := s.downloads.eraseIdx i } := by
  have hlt : ∀ ref, s.userAnnotations key' = some ref → ref < s.annotations.length :=
    fun ref href => lt_of_keyOf (hkeyed key' ref href)
  have hremoved : ∀ (key : String) (children : List (String × UserRecord K)),
      (removeMarker key { s with children := children }).Current key := by
    intro key children ref href
    exact absurd rfl (userAnnotations_removeMarker href).1
  cases hs with
  | added key snapshot n he hnew =>
    subst he
    refine Or.inl ⟨rfl, rfl, fun _ _ => rfl, fun snapshot' hlatest => ?_⟩
    rw [latest] at hlatest ⊢
    rw [List.lookup_append, hlatest]
    rfl
  | reported key snapshot rest n he =>
    subst he
    exact Or.inl ⟨rfl, rfl, fun _ _ => rfl, fun _ => id⟩
  | wanted key snapshot now n he hpresent hmarker hcoord =>
    subst he
    by_cases heq : key' = key
    · subst heq
      refine Or.inr (Or.inl ⟨Function.update_self .., fun ref href => ?_⟩)
      exact absurd (hmarker.symm.trans href) (by simp)
    · refine Or.inl ⟨Function.update_of_ne heq .., rfl, fun _ _ => rfl, fun _ hlatest => ?_⟩
      rw [latest, lookup_replaceChild hpresent, if_neg heq]
      exact hlatest
  | moved key snapshot now ref c he hpresent hmarker hcoord =>
    subst he
    by_cases heq : key' = key
    · subst heq
      refine Or.inr (Or.inl ⟨Function.update_self .., fun ref' href' => ?_⟩)
      obtain rfl : ref = ref' := Option.some.inj (hmarker.symm.trans href')
      refine ⟨snapshot, c, ?_, hcoord, ?_⟩
      · rw [latest, lookup_replaceChild hpresent, if_pos rfl]
      · rw [positionOf_modify s _ ref ref c _ (hlt ref hmarker) rfl, if_pos rfl]
    · refine Or.inl ⟨Function.update_of_ne heq .., rfl, fun ref' href' => ?_, fun _ hlatest => ?_⟩
      · -- another key has another annotation
        have hne : ref ≠ ref' := by
          rintro rfl
          have hkeys := (hkeyed key' ref href').symm.trans (hkeyed key ref hmarker)
          exact heq (Option.some.inj hkeys)
        rw [positionOf_modify s _ ref ref' c _ (hlt ref' href') rfl, if_neg hne]
      · rw [latest, lookup_replaceChild hpresent, if_neg heq]
        exact hlatest
  | hidden key snapshot now he hpresent =>
    subst he
    by_cases heq : key' = key
    · subst heq
      exact Or.inr (Or.inl ⟨Function.update_self .., hremoved _ _⟩)
    · refine Or.inl ⟨Function.update_of_ne heq .., Function.update_of_ne heq .., fun _ _ => rfl,
        fun _ hlatest => ?_⟩
      rw [latest, removeMarker, lookup_replaceChild hpresent, if_neg heq]
      exact hlatest
  | left key he =>
    subst he
    by_cases heq : key' = key
    · subst heq
      exact Or.inr (Or.inl ⟨Function.update_self .., hremoved _ _⟩)
    · refine Or.inl ⟨Function.update_of_ne heq .., Function.update_of_ne heq .., fun _ _ => rfl,
        fun _ hlatest => ?_⟩
      rw [latest, removeMarker, lookup_remove heq]
      exact hlatest
  | fetched filter friends he =>
    subst he
    refine Or.inr (Or.inl ⟨rfl, fun ref href => ?_⟩)
    simp [fetchUsers] at href
  | inserted i image now user he huser =>
    subst he
    by_cases heq : user.identifier = some key'
    · exact Or.inr (Or.inr ⟨i, image, now, user, rfl, huser, heq, rfl⟩)
    · left
      cases hkey : user.identifier with
      | none =>
        refine ⟨by simp [capture, huser, hkey], by simp [insertMarker, hkey], fun ref href => ?_,
          fun _ => id⟩
        exact positionOf_insertMarker user image now _ (hlt ref href)
      | some key =>
        have hne : key' ≠ key := fun hkeys => heq (hkeys ▸ hkey)
        refine ⟨by simp [capture, huser, hkey, hne], ?_, fun ref href => ?_, fun _ => id⟩
        · rw [userAnnotations_insertMarker hkey, if_neg hne]
        · exact positionOf_insertMarker user image now _ (hlt ref href)
  | failed i now user he huser =>
    subst he
    exact Or.inl ⟨rfl, rfl, fun _ _ => rfl, fun _ => id⟩

/-- The marker of a user is at the captured position after any event. -/
theorem Placed.step {captured : String → Option (CLLocationCoordinate2D K)}
    {s s' : MapViewController K Image} {e : MapEvent K Image} (h : Placed captured s)
    (hs : MarkerStep M s e s')
    (hkeyed : ∀ key ref, s.userAnnotations key = some ref → s.keyOf ref = some key) :
    Placed (capture s e captured) s' where
  completed key c hc := by
    obtain hkeeps | ⟨hnone, -⟩ | ⟨i, image, now, user, rfl, huser, hkey, rfl⟩ :=
      keeps_step captured hs hkeyed key
    · obtain ⟨ref, href, hposition⟩ := h.completed key c (hkeeps.captured ▸ hc)
      exact ⟨ref, hkeeps.registered.trans href, (hkeeps.position ref href).trans hposition⟩
    · simp [hnone] at hc
    · obtain rfl : user.coordinate = c := by simpa [capture, huser, hkey] using hc
      refine ⟨s.annotations.length, ?_, positionOf_insertMarker_self ..⟩
      rw [userAnnotations_insertMarker hkey, if_pos rfl]
  changed key hnone := by
    obtain hkeeps | ⟨-, hcurrent⟩ | ⟨i, image, now, user, rfl, huser, hkey, rfl⟩ :=
      keeps_step captured hs hkeyed key
    · refine (h.changed key (hkeeps.captured ▸ hnone)).congr fun ref href => ?_
      have hold : s.userAnnotations key = some ref := hkeeps.registered ▸ href
      exact ⟨hold, hkeeps.position ref hold, hkeeps.latest⟩
    · exact hcurrent
    · simp [capture, huser, hkey] at hnone

/-- A download stays in flight until it completes. -/
theorem downloading_step {s s' : MapViewController K Image} {e : MapEvent K Image} {key : String}
    (hs : MarkerStep M s e s') (h : s.Downloading key) :
    s'.Downloading key ∨ ∃ i image now user, e = .downloadCompleted i image now ∧
      s.downloads[i]? = some user ∧ user.identifier = some key ∧
      s'.downloads = s.downloads.eraseIdx i := by
  by_cases hno : s'.Downloading key
  · exact Or.inl hno
  right
  cases hs with
  | added | reported | wanted => exact absurd h (not_downloading_of_append rfl hno)
  | moved | hidden | left | fetched => exact absurd h hno
  | inserted i image now user he huser =>
    by_cases heq : user.identifier = some key
    · exact ⟨i, some image, now, user, he, huser, heq, rfl⟩
    · exact absurd h (not_downloading_of_eraseIdx huser heq hno)
  | failed i now user he huser =>
    by_cases heq : user.identifier = some key
    · exact ⟨i, none, now, user, he, huser, heq, rfl⟩
    · exact absurd h (not_downloading_of_eraseIdx huser heq hno)

/-- The invariant : a user without a download in flight has the latest snapshot captured. -/
structure Converging (captured : String → Option (CLLocationCoordinate2D K))
    (s : MapViewController K Image) : Prop where
  placed : Placed captured s
  capturesLatest : ∀ key, ¬s.Downloading key → CapturesLatest captured s key
  keyed : ∀ key ref, s.userAnnotations key = some ref → s.keyOf ref = some key
  identified : ∀ user ∈ s.downloads, ∃ key, user.identifier = some key

/-- A step keeps the latest snapshot captured, unless the last download of a user ends with
another. -/
theorem Converging.capturesLatest_step {captured : String → Option (CLLocationCoordinate2D K)}
    {s s' : MapViewController K Image} {e : MapEvent K Image} (h : Converging captured s)
    (hs : MarkerStep M s e s') (hok : EndsCurrent captured s e) (key : String)
    (hno : ¬s'.Downloading key) : CapturesLatest (capture s e captured) s' key := by
  obtain hkeeps | ⟨hnone, -⟩ | ⟨i, image, now, user, rfl, huser, hkey, rfl⟩ :=
    keeps_step captured hs h.keyed key
  · have hold : CapturesLatest captured s key := by
      by_cases hdownloading : s.Downloading key
      · obtain ⟨i, image, now, user, rfl, huser, hkey, hdownloads⟩ :=
          (downloading_step hs hdownloading).resolve_left hno
        have hlast : ¬∃ other ∈ s.downloads.eraseIdx i, other.identifier = some key := by
          rwa [Downloading, hdownloads] at hno
        cases image with
        | none => exact hok.fails i now user key rfl huser hkey hlast
        | some image =>
          intro c hc
          obtain rfl : user.coordinate = c := by
            simpa [capture, huser, hkey, hc] using hkeeps.captured
          exact hok.inserts i image now user key rfl huser hkey hlast
      · exact h.capturesLatest key hdownloading
    intro c hc
    obtain ⟨snapshot, hlatest, hcoord⟩ := hold c (hkeeps.captured ▸ hc)
    exact ⟨snapshot, hkeeps.latest snapshot hlatest, hcoord⟩
  · intro c hc
    simp [hnone] at hc
  · intro c hc
    obtain rfl : user.coordinate = c := by simpa [capture, huser, hkey] using hc
    exact hok.inserts i image now user key rfl huser hkey hno

/-- If the markers have converged after a step, the last download of a user has captured
the latest snapshot. -/
theorem endsCurrent_of_converged {captured : String → Option (CLLocationCoordinate2D K)}
    {s s' : MapViewController K Image} {e : MapEvent K Image} (hplaced : Placed captured s)
    (hs : s.step M e = some s') (h : s'.Converged) : EndsCurrent captured s e where
  inserts := by
    rintro i image now user key rfl huser hkey hno
    simp only [step, huser, Option.some.injEq] at hs
    subst hs
    have href : (insertMarker M user image now
        { s with downloads := s.downloads.eraseIdx i }).userAnnotations key =
          some s.annotations.length := by
      rw [userAnnotations_insertMarker hkey, if_pos rfl]
    obtain ⟨snapshot, c, hlatest, hcoord, hposition⟩ := h key hno _ href
    rw [positionOf_insertMarker_self, Option.some.injEq] at hposition
    exact ⟨snapshot, hlatest, hposition ▸ hcoord⟩
  fails := by
    rintro i now user key rfl huser hkey hno
    simp only [step, huser, Option.some.injEq] at hs
    subst hs
    exact (hplaced.current_iff key).1 <|
      (h key hno).congr fun _ href => ⟨href, rfl, fun _ => id⟩

/-- The markers have converged along a run iff the last download of a user always ends
with the latest snapshot captured. -/
theorem converged_iff_endsCurrent (children : List (String × UserRecord K))
    (filter : Option Bool) (friends : Option (List String)) (es : List (MapEvent K Image)) :
    EveryState (step M) (fun _ s => s.Converged) (viewDidLoad children filter friends) es ↔
      EveryStep (step M)
        (fun pre s e _ => EndsCurrent (captured M (viewDidLoad children filter friends) pre) s e)
        (viewDidLoad children filter friends) es := by
  refine everyState_iff_everyStep
    (I := fun pre s => Converging (captured M (viewDidLoad children filter friends) pre) s)
    ?_ ?_ ?_ ?_ es
  · have hidle : ∀ key,
        (viewDidLoad children filter friends : MapViewController K Image).Current key := by
      intro key ref href
      simp [viewDidLoad, fetchUsers] at href
    have hnone : ∀ key c,
        captured M (viewDidLoad children filter friends) [] key ≠ some c := by
      simp [captured]
    exact ⟨⟨fun key c hc => absurd hc (hnone key c), fun key _ => hidle key⟩,
      fun key _ c hc => absurd hc (hnone key c), by simp [viewDidLoad, fetchUsers],
      by simp [viewDidLoad, fetchUsers]⟩
  · exact fun _ _ hI key hno => (hI.placed.current_iff key).2 (hI.capturesLatest key hno)
  · intro pre s e s' hpre hI h hok
    have hs := markerStep_of_step h
    have htrack := track_snoc capture e pre (fun _ => none) _ hpre h
    rw [captured, htrack]
    exact ⟨hI.placed.step hs hI.keyed, hI.capturesLatest_step hs hok,
      keyed_step hI.keyed hI.identified hs, identified_step hI.identified hs⟩
  · exact fun _ _ _ _ _ hI h hbad hconv => hbad (endsCurrent_of_converged hI.placed h hconv)

/-- A user moves before the first avatar has arrived, and the avatar of the second
download arrives first. -/
def reorderedDownloads : List (MapEvent ℤ String) :=
  [.childAdded "a" sampleRecord, .childChanged "a" { sampleRecord with latitude := some 11 } 100,
    .downloadCompleted 1 (some "avatar") 101, .downloadCompleted 0 (some "avatar") 102]

/-- The marker is where the user was first. -/
theorem stale_marker :
    ¬EveryState (step samplePlatform) (fun _ s => s.Converged) sampleMap reorderedDownloads := by
  intro hall
  have hidle : ¬∃ user ∈ ([] : List (DDFUser ℤ)), user.identifier = some "a" := by simp
  obtain ⟨snapshot, c, hlatest, hcoord, hposition⟩ := hall.last rfl "a" hidle 1 (by decide)
  obtain rfl : { sampleRecord with latitude := some 11 } = snapshot := Option.some.inj hlatest
  obtain rfl : (⟨10, 20⟩ : CLLocationCoordinate2D ℤ) = c := Option.some.inj hposition
  exact absurd hcoord (by decide)

end ConfFriends.MapViewController
