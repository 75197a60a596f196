import Mathlib.Data.Rat.Floor
import ConfFriends.Transition.Run
import ConfFriends.MapView.Effects

/-!
# One marker per user, and none for hidden users

The map and the dictionary should hold the same annotations, so that an event for a
key reaches every marker of the user. The blocks that remove a marker take it out of
both. The completion of a download puts a new annotation into both without looking : if
the key has one already, the old one stays on the map and leaves the dictionary
(`two_markers`). `addUserMarker` tests for that when the download starts, and two
downloads can be under way. So the containers agree along a run iff every download
completes with its key absent (`tidy_iff_completesAbsent`).

For the same reason a marker appears although its user has hidden or left during the
download (`marker_of_hidden_user`).
-/

set_option linter.unusedSectionVars false

open Transition

namespace ConfFriends.MapViewController

variable {K Image : Type*} [DecidableEq K] [Zero K] {M : MapPlatform Image}

/-! ## Markers and their keys -/

/-- The key of the user that an annotation is about. -/
def keyOf (s : MapViewController K Image) (ref : ℕ) : Option String :=
  s.annotations[ref]?.bind (·.user.identifier)

/-- The annotations on the map are the values of the dictionary, so at most one a key. -/
structure Tidy (s : MapViewController K Image) : Prop where
  values : ∀ ref, ref ∈ s.mapView ↔ ∃ key, s.userAnnotations key = some ref
  atMostOne : ∀ ref ∈ s.mapView, ∀ ref' ∈ s.mapView, s.keyOf ref = s.keyOf ref' → ref = ref'

/-- The invariant : the containers agree, and the dictionary has each annotation under the
key of its user. -/
structure Registered (s : MapViewController K Image) : Prop where
  values : ∀ ref, ref ∈ s.mapView ↔ ∃ key, s.userAnnotations key = some ref
  keyed : ∀ key ref, s.userAnnotations key = some ref → s.keyOf ref = some key
  identified : ∀ user ∈ s.downloads, ∃ key, user.identifier = some key

theorem Registered.tidy {s : MapViewController K Image} (h : s.Registered) : s.Tidy where
  values := h.values
  atMostOne ref href ref' href' heq := by
    obtain ⟨key, hkey⟩ := (h.values ref).1 href
    obtain ⟨key', hkey'⟩ := (h.values ref').1 href'
    rw [h.keyed key ref hkey, h.keyed key' ref' hkey', Option.some.injEq] at heq
    subst heq
    exact Option.some.inj (hkey.symm.trans hkey')

theorem keyOf_eq (s : MapViewController K Image) (ref : ℕ) :
    s.keyOf ref = (s.userOf ref).bind (·.identifier) := by
  unfold keyOf userOf
  cases s.annotations[ref]? <;> rfl

/-- A key with an annotation is the key of an object on the heap. -/
theorem lt_of_keyOf {s : MapViewController K Image} {ref : ℕ} {key : String}
    (h : s.keyOf ref = some key) : ref < s.annotations.length := by
  rw [keyOf_eq] at h
  obtain ⟨user, huser, -⟩ := Option.bind_eq_some_iff.1 h
  exact lt_of_userOf huser

theorem keyOf_insertMarker {s : MapViewController K Image} (user : DDFUser K) (image : Image)
    (now : NSTimeInterval) (downloads : List (DDFUser K)) {ref : ℕ}
    (h : ref < s.annotations.length) :
    (insertMarker M user image now { s with downloads := downloads }).keyOf ref =
      s.keyOf ref := by
  rw [keyOf_eq, keyOf_eq, userOf_insertMarker user image now downloads h]

@[simp] theorem keyOf_insertMarker_self (s : MapViewController K Image) (user : DDFUser K)
    (image : Image) (now : NSTimeInterval) (downloads : List (DDFUser K)) :
    (insertMarker M user image now { s with downloads := downloads }).keyOf
      s.annotations.length = user.identifier := by
  rw [keyOf_eq, userOf_insertMarker_self, Option.bind_some]

/-! ## What every step keeps -/

/-- Downloads of a child of the database are of a user with an identifier. -/
theorem mem_downloads_append {downloads : List (DDFUser K)} {n : ℕ} {key : String}
    {snapshot : UserRecord K} {user : DDFUser K}
    (h : user ∈ downloads ++
      List.replicate n (DDFUser.initWithModelDictionary M.urlWithString key snapshot)) :
    user ∈ downloads ∨ ∃ key, user.identifier = some key := by
  rcases List.mem_append.1 h with hold | hnew
  · exact Or.inl hold
  · obtain rfl := List.eq_of_mem_replicate hnew
    exact Or.inr ⟨key, rfl⟩

/-- A download that a step starts is of a user with an identifier. -/
theorem downloads_step {s s' : MapViewController K Image} {e : MapEvent K Image}
    (hs : MarkerStep M s e s') :
    ∀ user ∈ s'.downloads, user ∈ s.downloads ∨ ∃ key, user.identifier = some key := by
  intro user huser
  cases hs with
  | added | reported | wanted => exact mem_downloads_append huser
  | moved | hidden | left | fetched => exact Or.inl huser
  | inserted | failed => exact Or.inl (List.mem_of_mem_eraseIdx huser)

theorem identified_step {s s' : MapViewController K Image} {e : MapEvent K Image}
    (h : ∀ user ∈ s.downloads, ∃ key, user.identifier = some key) (hs : MarkerStep M s e s') :
    ∀ user ∈ s'.downloads, ∃ key, user.identifier = some key :=
  fun user huser => (downloads_step hs user huser).elim (h user) id

/-- A dictionary without a key is a smaller dictionary. -/
theorem userAnnotations_removeMarker {s : MapViewController K Image} {key key' : String} {ref : ℕ}
    (h : (s.removeMarker key).userAnnotations key' = some ref) :
    key' ≠ key ∧ s.userAnnotations key' = some ref := by
  by_cases heq : key' = key
  · simp [removeMarker, heq] at h
  · exact ⟨heq, by simpa [removeMarker, heq] using h⟩

/-- The annotation under a key after an insertion. -/
theorem userAnnotations_insertMarker {s : MapViewController K Image} {user : DDFUser K}
    {key : String} (huser : user.identifier = some key) (image : Image) (now : NSTimeInterval)
    (key' : String) : (insertMarker M user image now s).userAnnotations key' =
      if key' = key then some s.annotations.length else s.userAnnotations key' := by
  simp [insertMarker, huser, Function.update_apply]

/-- The dictionary has each annotation under the key of its user after any step. -/
theorem keyed_step {s s' : MapViewController K Image} {e : MapEvent K Image}
    (h : ∀ key ref, s.userAnnotations key = some ref → s.keyOf ref = some key)
    (hidentified : ∀ user ∈ s.downloads, ∃ key, user.identifier = some key)
    (hs : MarkerStep M s e s') :
    ∀ key ref, s'.userAnnotations key = some ref → s'.keyOf ref = some key := by
  intro key' ref' hkey'
  cases hs with
  | added | reported | wanted | failed => exact h key' ref' hkey'
  | moved key snapshot now ref c he hpresent hmarker hcoord =>
    rw [keyOf_eq, userOf_modify s _ ref ref' c _ rfl, ← keyOf_eq]
    exact h key' ref' hkey'
  | hidden | left => exact h key' ref' (userAnnotations_removeMarker hkey').2
  | fetched => simp [fetchUsers] at hkey'
  | inserted i image now user he huser =>
    obtain ⟨key, hkey⟩ := hidentified user (List.mem_of_getElem? huser)
    rw [userAnnotations_insertMarker hkey] at hkey'
    split at hkey'
    · next heq =>
      obtain rfl := Option.some.inj hkey'
      rw [keyOf_insertMarker_self, hkey, heq]
    · have hold : s.keyOf ref' = some key' := h key' ref' hkey'
      rw [keyOf_insertMarker user image now _ (lt_of_keyOf hold)]
      exact hold

/-! ## One marker per user -/

/-- A download that completes with an image finds its key absent from the dictionary. -/
def CompletesAbsent (s : MapViewController K Image) (e : MapEvent K Image) : Prop :=
  ∀ i image now user, e = .downloadCompleted i (some image) now → s.downloads[i]? = some user →
    ∀ key, user.identifier = some key → s.userAnnotations key = none

/-- The map without the registered annotation of a key. -/
theorem values_removeMarker {s : MapViewController K Image} (h : s.Registered) (key : String)
    (ref : ℕ) : ref ∈ (s.removeMarker key).mapView ↔
      ∃ key', (s.removeMarker key).userAnnotations key' = some ref := by
  simp only [removeMarker, List.mem_filter, decide_eq_true_eq, h.values]
  constructor
  · rintro ⟨⟨key', hkey'⟩, hne⟩
    refine ⟨key', ?_⟩
    rw [Function.update_of_ne, hkey']
    rintro rfl
    exact hne hkey'
  · rintro ⟨key', hkey'⟩
    obtain ⟨hne, hold⟩ := userAnnotations_removeMarker hkey'
    refine ⟨⟨key', hold⟩, fun hkey => hne ?_⟩
    -- one object is in the dictionary under one key only
    have := (h.keyed key' ref hold).symm.trans (h.keyed key ref hkey)
    exact Option.some.inj this

/-- The map with a new annotation, under a key that had none. -/
theorem values_insertMarker {s : MapViewController K Image} (h : s.Registered) {user : DDFUser K}
    {key : String} (huser : user.identifier = some key) (habsent : s.userAnnotations key = none)
    (image : Image) (now : NSTimeInterval) (downloads : List (DDFUser K)) (ref : ℕ) :
    ref ∈ (insertMarker M user image now { s with downloads := downloads }).mapView ↔
      ∃ key', (insertMarker M user image now
        { s with downloads := downloads }).userAnnotations key' = some ref := by
  simp only [userAnnotations_insertMarker huser]
  simp only [insertMarker, List.mem_append, List.mem_singleton, h.values]
  constructor
  · rintro (⟨key', hkey'⟩ | rfl)
    · refine ⟨key', ?_⟩
      rw [if_neg, hkey']
      rintro rfl
      simp [habsent] at hkey'
    · exact ⟨key, if_pos rfl⟩
  · rintro ⟨key', hkey'⟩
    split at hkey'
    · exact Or.inr (Option.some.inj hkey').symm
    · exact Or.inl ⟨key', hkey'⟩

/-- A step keeps the markers registered, unless a download completes for a key with one. -/
theorem Registered.step {s s' : MapViewController K Image} {e : MapEvent K Image}
    (h : s.Registered) (hs : s.step M e = some s') (hok : CompletesAbsent s e) :
    s'.Registered where
  values := by
    have hstep := markerStep_of_step hs
    cases hstep with
    | added | reported | wanted | moved | failed => exact h.values
    | hidden key snapshot now he hpresent =>
      exact values_removeMarker (s := { s with children := replaceChild key snapshot s.children })
        ⟨h.values, h.keyed, h.identified⟩ key
    | left key he =>
      exact values_removeMarker
        (s := { s with children := s.children.filter fun child => child.1 ≠ key })
        ⟨h.values, h.keyed, h.identified⟩ key
    | fetched => simp [fetchUsers]
    | inserted i image now user he huser =>
      obtain ⟨key, hkey⟩ := h.identified user (List.mem_of_getElem? huser)
      exact values_insertMarker h hkey (hok i image now user he huser key hkey) image now _
  keyed := keyed_step h.keyed h.identified (markerStep_of_step hs)
  identified := identified_step h.identified (markerStep_of_step hs)

/-- A download that completes for a key with a marker leaves that marker on the map and
out of the dictionary. -/
theorem not_tidy_of_completes {s s' : MapViewController K Image} {e : MapEvent K Image}
    (h : s.Registered) (hs : s.step M e = some s') (hbad : ¬CompletesAbsent s e) : ¬s'.Tidy := by
  simp only [CompletesAbsent, not_forall] at hbad
  obtain ⟨i, image, now, user, rfl, huser, key, hkey, hpresent⟩ := hbad
  obtain ⟨ref, href⟩ := Option.ne_none_iff_exists'.1 hpresent
  simp only [MapViewController.step, huser, Option.some.injEq] at hs
  subst hs
  intro htidy
  have hlt := lt_of_keyOf (h.keyed key ref href)
  have hmem : ref ∈ (MapViewController.insertMarker M user image now
      { s with downloads := s.downloads.eraseIdx i }).mapView :=
    List.mem_append_left _ ((h.values ref).2 ⟨key, href⟩)
  obtain ⟨key', hkey'⟩ := (htidy.values ref).1 hmem
  by_cases heq : key' = key
  · have hnew : s.annotations.length = ref := by
      simpa [MapViewController.insertMarker, hkey, heq] using hkey'
    omega
  · have hold : s.userAnnotations key' = some ref := by
      simpa [MapViewController.insertMarker, hkey, heq] using hkey'
    exact heq (Option.some.inj ((h.keyed key' ref hold).symm.trans (h.keyed key ref href)))

theorem registered_viewDidLoad (children : List (String × UserRecord K)) (filter : Option Bool)
    (friends : Option (List String)) :
    (viewDidLoad children filter friends : MapViewController K Image).Registered :=
  ⟨by simp [viewDidLoad, fetchUsers], by simp [viewDidLoad, fetchUsers],
    by simp [viewDidLoad, fetchUsers]⟩

/-- The map and the dictionary agree along a run iff every download that completes with
an image finds its key absent. -/
theorem tidy_iff_completesAbsent (children : List (String × UserRecord K))
    (filter : Option Bool) (friends : Option (List String)) (es : List (MapEvent K Image)) :
    EveryState (step M) (fun _ s => s.Tidy) (viewDidLoad children filter friends) es ↔
      EveryStep (step M) (fun _ s e _ => CompletesAbsent s e)
        (viewDidLoad children filter friends) es := by
  refine everyState_iff_everyStep (I := fun _ s => s.Registered)
    (registered_viewDidLoad children filter friends) ?_ ?_ ?_ es
  · exact fun _ _ hI => hI.tidy
  · exact fun _ _ _ _ _ hI h hok => hI.step h hok
  · exact fun _ _ _ _ _ hI h hbad => not_tidy_of_completes hI h hbad

/-! A concrete map, whose images are names. -/

def samplePlatform : MapPlatform String :=
  ⟨some, fun _ _ => "just now", fun image => "rounded " ++ image⟩

def sampleRecord : UserRecord ℤ :=
  { latitude := some 10, longitude := some 20, name := some "Ann",
    avatar := some "https://example.com/avatar.png", twitterID := some "1" }

def sampleMap : MapViewController ℤ String :=
  viewDidLoad [] none none

/-- A user appears and moves before the first avatar has arrived, then both avatars do. -/
def movedDuringDownload : List (MapEvent ℤ String) :=
  [.childAdded "a" sampleRecord, .childChanged "a" { sampleRecord with latitude := some 11 } 100,
    .downloadCompleted 0 (some "avatar") 101, .downloadCompleted 0 (some "avatar") 102]

/-- The user has two markers. -/
theorem two_markers :
    ¬EveryState (step samplePlatform) (fun _ s => s.Tidy) sampleMap movedDuringDownload := by
  intro hall
  have hone := (hall.last rfl).atMostOne 0 (by decide) 1 (by decide) (by decide)
  exact absurd hone (by decide)

/-! ## Markers of hidden users -/

/-- The latest snapshot of the user has coordinates. -/
def Sharing (s : MapViewController K Image) (key : String) : Prop :=
  ∃ snapshot, s.latest key = some snapshot ∧ snapshot.coordinate?.isSome

/-- Every marker on the map is of a user who shares a location. -/
def AllSharing (s : MapViewController K Image) : Prop :=
  ∀ ref ∈ s.mapView, ∃ key, s.keyOf ref = some key ∧ s.Sharing key

/-- With no download in flight, nobody is on the map who has hidden or left. -/
def HiddenDisappear (s : MapViewController K Image) : Prop :=
  s.downloads = [] → s.AllSharing

/-- A download that completes with an image finds its user sharing, and a user who hides
or leaves has no marker but the registered one. -/
structure MarksSharing (s : MapViewController K Image) (e : MapEvent K Image) : Prop where
  completes : ∀ i image now user key, e = .downloadCompleted i (some image) now →
    s.downloads[i]? = some user → user.identifier = some key → s.Sharing key
  hides : ∀ key, (e = .childRemoved key ∨
      ∃ snapshot now, e = .childChanged key snapshot now ∧ snapshot.coordinate? = none) →
    ∀ ref ∈ s.mapView, s.keyOf ref = some key → s.userAnnotations key = some ref

/-- The invariant : every marker is of a sharing user, and downloads have keys. -/
structure Shown (s : MapViewController K Image) : Prop where
  sharing : s.AllSharing
  identified : ∀ user ∈ s.downloads, ∃ key, user.identifier = some key

/-- Markers that were there before, of users who share as before. -/
theorem AllSharing.of_subset {s s' : MapViewController K Image} (h : s.AllSharing)
    (hmap : ∀ ref ∈ s'.mapView, ref ∈ s.mapView ∧ s'.keyOf ref = s.keyOf ref)
    (hsharing : ∀ ref ∈ s'.mapView, ∀ key, s.keyOf ref = some key → s.Sharing key →
      s'.Sharing key) : s'.AllSharing := by
  intro ref href
  obtain ⟨key, hkey, hshares⟩ := h ref (hmap ref href).1
  exact ⟨key, (hmap ref href).2.trans hkey, hsharing ref href key hkey hshares⟩

/-- A step keeps every marker of a sharing user, unless a download completes for a hidden
user or a user hides with an unregistered marker. -/
theorem AllSharing.step {s s' : MapViewController K Image} {e : MapEvent K Image}
    (h : s.AllSharing) (hidentified : ∀ user ∈ s.downloads, ∃ key, user.identifier = some key)
    (hs : MarkerStep M s e s') (hok : MarksSharing s e) : s'.AllSharing := by
  cases hs with
  | added key snapshot n he hnew =>
    refine h.of_subset (fun ref href => ⟨href, rfl⟩) ?_
    rintro ref - key' - ⟨snapshot', hlatest, hcoord⟩
    refine ⟨snapshot', ?_, hcoord⟩
    rw [latest] at hlatest ⊢
    rw [List.lookup_append, hlatest]
    rfl
  | reported | failed => exact h.of_subset (fun ref href => ⟨href, rfl⟩) fun _ _ _ _ => id
  | wanted key snapshot now n he hpresent hmarker hcoord =>
    refine h.of_subset (fun ref href => ⟨href, rfl⟩) fun ref href key' hkey' hshares => ?_
    unfold Sharing latest
    rw [lookup_replaceChild hpresent]
    split
    · exact ⟨snapshot, rfl, hcoord⟩
    · exact hshares
  | moved key snapshot now ref c he hpresent hmarker hcoord =>
    refine h.of_subset (fun ref' href' => ⟨href', ?_⟩) fun ref' href' key' hkey' hshares => ?_
    · rw [keyOf_eq, userOf_modify s _ ref ref' c _ rfl, ← keyOf_eq]
    · unfold Sharing latest
      rw [lookup_replaceChild hpresent]
      split
      · exact ⟨snapshot, rfl, by simp [hcoord]⟩
      · exact hshares
  | hidden key snapshot now he hpresent =>
    refine h.of_subset (fun ref href => ⟨(List.mem_filter.1 href).1, rfl⟩)
      fun ref href key' hkey' hshares => ?_
    obtain ⟨hmem, hunregistered⟩ := List.mem_filter.1 href
    unfold Sharing latest removeMarker
    rw [lookup_replaceChild hpresent]
    split
    · next heq =>
      subst heq
      refine ⟨snapshot, rfl, Option.isSome_iff_ne_none.2 fun hnone => ?_⟩
      have hregistered := hok.hides key' (Or.inr ⟨snapshot, now, he, hnone⟩) ref hmem hkey'
      exact absurd hregistered (of_decide_eq_true hunregistered)
    · exact hshares
  | left key he =>
    refine h.of_subset (fun ref href => ⟨(List.mem_filter.1 href).1, rfl⟩)
      fun ref href key' hkey' hshares => ?_
    obtain ⟨hmem, hunregistered⟩ := List.mem_filter.1 href
    have hne : key' ≠ key := by
      rintro rfl
      exact of_decide_eq_true hunregistered (hok.hides key' (Or.inl he) ref hmem hkey')
    unfold Sharing latest removeMarker
    rw [lookup_remove hne]
    exact hshares
  | fetched => exact fun ref href => by simp [fetchUsers] at href
  | inserted i image now user he huser =>
    obtain ⟨key, hkey⟩ := hidentified user (List.mem_of_getElem? huser)
    intro ref href
    rcases List.mem_append.1 href with hold | hnew
    · obtain ⟨key', hkey', hshares⟩ := h ref hold
      refine ⟨key', ?_, hshares⟩
      rw [keyOf_insertMarker user image now _ (lt_of_keyOf hkey')]
      exact hkey'
    · obtain rfl := List.mem_singleton.1 hnew
      refine ⟨key, ?_, hok.completes i image now user key he huser hkey⟩
      rw [← hkey]
      exact keyOf_insertMarker_self ..

theorem Shown.step {s s' : MapViewController K Image} {e : MapEvent K Image} (h : s.Shown)
    (hs : s.step M e = some s') (hok : MarksSharing s e) : s'.Shown where
  sharing := h.sharing.step h.identified (markerStep_of_step hs) hok
  identified := identified_step h.identified (markerStep_of_step hs)

/-- Hidden users disappear along a run whose downloads complete for sharing users and
whose users hide with their markers registered. -/
theorem hiddenDisappear_of_marksSharing (children : List (String × UserRecord K))
    (filter : Option Bool) (friends : Option (List String)) (es : List (MapEvent K Image))
    (hmarks : EveryStep (step M) (fun _ s e _ => MarksSharing s e)
      (viewDidLoad children filter friends) es) :
    EveryState (step M) (fun _ s => s.HiddenDisappear) (viewDidLoad children filter friends)
      es := by
  refine EveryState.mono (everyState_of_everyStep (I := fun _ s => s.Shown) ?_ ?_ hmarks) ?_
  · exact ⟨fun ref href => by simp [viewDidLoad, fetchUsers] at href,
      fun user huser => by simp [viewDidLoad, fetchUsers] at huser⟩
  · exact fun _ _ _ _ _ hI h hok => hI.step h hok
  · exact fun _ _ hI _ => hI.sharing

/-- A user appears, hides while the avatar is on its way, and the avatar arrives. -/
def hiddenDuringDownload : List (MapEvent ℤ String) :=
  [.childAdded "a" sampleRecord, .childChanged "a" sampleRecord.removeCoordinate 100,
    .downloadCompleted 0 (some "avatar") 101]

/-- The hidden user is on the map. -/
theorem marker_of_hidden_user :
    ¬EveryState (step samplePlatform) (fun _ s => s.HiddenDisappear) sampleMap
      hiddenDuringDownload := by
  intro hall
  obtain ⟨key, hkey, snapshot, hlatest, hcoord⟩ := hall.last rfl rfl 0 (by decide)
  obtain rfl : "a" = key := Option.some.inj hkey
  obtain rfl : sampleRecord.removeCoordinate = snapshot := Option.some.inj hlatest
  exact absurd hcoord (by decide)

/-- A user appears, gets a marker, and hides. -/
def hiddenWithMarker : List (MapEvent ℤ String) :=
  [.childAdded "a" sampleRecord, .downloadCompleted 0 (some "avatar") 101,
    .childChanged "a" sampleRecord.removeCoordinate 102]

theorem hiddenDisappear_hiddenWithMarker :
    EveryState (step samplePlatform) (fun _ s => s.HiddenDisappear) sampleMap
      hiddenWithMarker := by
  refine hiddenDisappear_of_marksSharing [] none none hiddenWithMarker ?_
  unfold hiddenWithMarker
  simp only [everyStep_cons, everyStep_nil, and_true]
  rintro s₁ hs₁
  obtain rfl := Option.some.inj hs₁
  refine ⟨⟨by simp, by simp⟩, fun s₂ hs₂ => ?_⟩
  obtain rfl := Option.some.inj hs₂
  refine ⟨⟨?_, by simp⟩, fun s₃ hs₃ => ⟨by simp, ?_⟩⟩
  · -- the avatar arrives while the user shares
    rintro i image now user key he huser hkey
    cases he
    obtain rfl := Option.some.inj huser
    obtain rfl : "a" = key := Option.some.inj hkey
    exact ⟨sampleRecord, rfl, rfl⟩
  · -- the marker of the user is registered when she hides
    rintro key (he | ⟨snapshot, now, he, -⟩) ref href -
    · simp at he
    · cases he
      obtain rfl := List.mem_singleton.1 href
      rfl

end ConfFriends.MapViewController
