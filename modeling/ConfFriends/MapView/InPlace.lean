import ConfFriends.MapView.Markers

/-!
# Markers that are updated in place

A user who has a marker and changes should have the marker that a new one would be. The
block for `ChildChanged` gives the marker the new coordinate and the new subtitle, but
its title, its image and the user attached to it are those of the user it was made of.
The callout reads the flag and the Twitter link from that user.

`everyStep_likeFresh_iff` : along a run whose downloads succeed, the markers are like new
ones iff every change leaves the user as it was when the marker was made.
-/

set_option linter.unusedSectionVars false

open Transition

namespace ConfFriends.MapViewController

variable {K Image : Type*} [DecidableEq K] [Zero K] {M : MapPlatform Image}
  {imageOf : String → Image}

/-! ## New markers -/

/-- The annotation that is made of a user. -/
def newMarker (M : MapPlatform Image) (user : DDFUser K) (image : Image) (now : NSTimeInterval) :
    UserMapAnnotation K Image where
  coordinate := user.coordinate
  title := user.name
  subtitle := subtitle M user.updatedAt now
  image := M.roundedRectImageFromImage image
  user := user

theorem annotations_insertMarker (user : DDFUser K) (image : Image) (now : NSTimeInterval)
    (s : MapViewController K Image) : (s.insertMarker M user image now).annotations =
      s.annotations ++ [newMarker M user image now] :=
  rfl

/-- Downloads succeed, with the image at the URL of the avatar. -/
def Succeeds (imageOf : String → Image) (s : MapViewController K Image) (e : MapEvent K Image) :
    Prop :=
  ∀ i image now user, e = .downloadCompleted i image now → s.downloads[i]? = some user →
    ∃ avatar, user.avatar = some avatar ∧ image = some (imageOf avatar)

/-- A displayed user changes, with coordinates and an avatar, and passes the filter. -/
structure ChangesShown (M : MapPlatform Image) (s : MapViewController K Image)
    (e : MapEvent K Image) (ref : ℕ) (user : DDFUser K) (avatar : String) (now : NSTimeInterval) :
    Prop where
  changed : ∃ key snapshot, e = .childChanged key snapshot now ∧
    s.userAnnotations key = some ref ∧
    user = DDFUser.initWithModelDictionary M.urlWithString key snapshot
  latitude : user.latitude ≠ 0
  longitude : user.longitude ≠ 0
  avatar : user.avatar = some avatar
  friend : boolForKey s.ddfTwitterFriendFilter = true → s.containsFriend user.twitterID = true

/-- A change in place leaves the annotation that a new marker would be. -/
def LikeFresh (M : MapPlatform Image) (imageOf : String → Image) (s : MapViewController K Image)
    (e : MapEvent K Image) (s' : MapViewController K Image) : Prop :=
  ∀ ref user avatar now, ChangesShown M s e ref user avatar now →
    s'.annotations[ref]? = some (newMarker M user (imageOf avatar) now)

/-- A change in place is of the user that the marker was made of. -/
def SameUser (M : MapPlatform Image) (s : MapViewController K Image) (e : MapEvent K Image) :
    Prop :=
  ∀ ref user avatar now, ChangesShown M s e ref user avatar now → s.userOf ref = some user

/-! ## Markers of their users -/

/-- The title and the image of a marker are those of its user. -/
def MadeOf (M : MapPlatform Image) (imageOf : String → Image)
    (marker : UserMapAnnotation K Image) : Prop :=
  marker.title = marker.user.name ∧ ∃ avatar, marker.user.avatar = some avatar ∧
    marker.image = M.roundedRectImageFromImage (imageOf avatar)

/-- The invariant : every marker is made of its user, and the dictionary has markers. -/
structure Made (M : MapPlatform Image) (imageOf : String → Image)
    (s : MapViewController K Image) : Prop where
  markers : ∀ marker ∈ s.annotations, MadeOf M imageOf marker
  keyed : ∀ key ref, s.userAnnotations key = some ref → s.keyOf ref = some key
  identified : ∀ user ∈ s.downloads, ∃ key, user.identifier = some key

/-- A step of a run whose downloads succeed makes markers of their users. -/
theorem Made.step {s s' : MapViewController K Image} {e : MapEvent K Image}
    (h : s.Made M imageOf) (hs : s.step M e = some s') (hsucceeds : Succeeds imageOf s e) :
    s'.Made M imageOf where
  markers := by
    intro marker hmarker
    cases markerStep_of_step hs with
    | moved key snapshot now ref c he hpresent href hcoord =>
      obtain ⟨i, hi⟩ := List.mem_iff_getElem?.1 hmarker
      rw [List.getElem?_modify] at hi
      obtain ⟨old, hold, rfl⟩ := Option.map_eq_some_iff.1 hi
      have hmade := h.markers old (List.mem_of_getElem? hold)
      split
      · exact hmade
      · exact hmade
    | inserted i image now user he huser =>
      rw [annotations_insertMarker, List.mem_append, List.mem_singleton] at hmarker
      rcases hmarker with hold | rfl
      · exact h.markers marker hold
      · obtain ⟨avatar, havatar, himage⟩ := hsucceeds i (some image) now user he huser
        obtain rfl := Option.some.inj himage
        exact ⟨rfl, avatar, havatar, rfl⟩
    | _ => exact h.markers marker hmarker
  keyed := keyed_step h.keyed h.identified (markerStep_of_step hs)
  identified := identified_step h.identified (markerStep_of_step hs)

/-! ## A change in place -/

/-- A change in place moves the marker, and leaves the rest of it. -/
theorem ChangesShown.annotation {s s' : MapViewController K Image} {e : MapEvent K Image}
    {ref : ℕ} {user : DDFUser K} {avatar : String} {now : NSTimeInterval}
    (h : ChangesShown M s e ref user avatar now) (hs : s.step M e = some s') :
    s'.annotations[ref]? = s.annotations[ref]?.map fun marker =>
      { marker with coordinate := user.coordinate, subtitle := subtitle M user.updatedAt now } := by
  obtain ⟨key, snapshot, rfl, href, rfl⟩ := h.changed
  have hzero : ((DDFUser.initWithModelDictionary M.urlWithString key snapshot).latitude = 0 ||
      (DDFUser.initWithModelDictionary M.urlWithString key snapshot).longitude = 0) = false := by
    simp [h.latitude, h.longitude]
  simp only [step, Option.ite_none_right_eq_some, Option.some.injEq, Bool.and_eq_true] at hs
  obtain ⟨⟨-, hexists⟩, rfl⟩ := hs
  unfold childChanged
  rw [if_pos hexists]
  dsimp only
  rw [hzero, href]
  simp

/-- In a map of made markers a change in place leaves a new marker iff it changes nothing. -/
theorem likeFresh_iff {s s' : MapViewController K Image} {e : MapEvent K Image}
    (hI : s.Made M imageOf) (hs : s.step M e = some s') :
    LikeFresh M imageOf s e s' ↔ SameUser M s e := by
  unfold LikeFresh SameUser
  refine forall_congr' fun ref => forall_congr' fun user => forall_congr' fun avatar =>
    forall_congr' fun now => imp_congr_right fun hshown => ?_
  have hlt : ref < s.annotations.length := by
    obtain ⟨key, -, -, href, -⟩ := hshown.changed
    exact lt_of_keyOf (hI.keyed key ref href)
  obtain ⟨htitle, avatar', havatar', himage⟩ :=
    hI.markers _ (List.getElem_mem hlt)
  rw [hshown.annotation hs, userOf, List.getElem?_eq_getElem hlt, Option.map_some,
    Option.map_some, Option.some.injEq, Option.some.injEq]
  constructor
  · intro heq
    exact congrArg UserMapAnnotation.user heq
  · intro huser
    obtain rfl : avatar' = avatar := by
      rw [huser, hshown.avatar] at havatar'
      exact (Option.some.inj havatar').symm
    unfold newMarker
    rw [← himage, ← huser, ← htitle]

/-- Along a run whose downloads succeed, changes in place leave new markers iff each of them
leaves the user that the marker was made of. -/
theorem everyStep_likeFresh_iff (imageOf : String → Image)
    (children : List (String × UserRecord K)) (filter : Option Bool)
    (friends : Option (List String)) (es : List (MapEvent K Image))
    (hsucceeds : EveryStep (step M) (fun _ s e _ => Succeeds imageOf s e)
      (viewDidLoad children filter friends) es) :
    EveryStep (step M) (fun _ s e s' => LikeFresh M imageOf s e s')
        (viewDidLoad children filter friends) es ↔
      EveryStep (step M) (fun _ s e _ => SameUser M s e) (viewDidLoad children filter friends)
        es := by
  have hmade : EveryState (step M) (fun _ s => s.Made M imageOf)
      (viewDidLoad children filter friends) es := by
    refine everyState_of_everyStep ?_ (fun _ _ _ _ _ hI hs hok => hI.step hs hok) hsucceeds
    exact ⟨by simp [viewDidLoad, fetchUsers], by simp [viewDidLoad, fetchUsers],
      by simp [viewDidLoad, fetchUsers]⟩
  exact everyStep_congr hmade fun _ _ _ _ hI hs => likeFresh_iff hI hs

/-- A user gets a marker, and changes her name. -/
def renamedUser : List (MapEvent ℤ String) :=
  [.childAdded "a" sampleRecord, .downloadCompleted 0 (some "avatar") 101,
    .childChanged "a" { sampleRecord with name := some "Anna" } 102]

theorem succeeds_renamedUser :
    EveryStep (step samplePlatform) (fun _ s e _ => Succeeds (fun _ => "avatar") s e) sampleMap
      renamedUser := by
  unfold renamedUser
  simp only [everyStep_cons, everyStep_nil, and_true]
  rintro s₁ hs₁
  obtain rfl := Option.some.inj hs₁
  refine ⟨by simp [Succeeds], fun s₂ hs₂ => ?_⟩
  obtain rfl := Option.some.inj hs₂
  refine ⟨?_, fun s₃ hs₃ => by simp [Succeeds]⟩
  rintro i image now user he huser
  cases he
  obtain rfl := Option.some.inj huser
  exact ⟨_, rfl, rfl⟩

theorem everyStep_likeFresh_renamedUser :
    EveryStep (step samplePlatform)
        (fun _ s e s' => LikeFresh samplePlatform (fun _ => "avatar") s e s') sampleMap
        renamedUser ↔
      EveryStep (step samplePlatform) (fun _ s e _ => SameUser samplePlatform s e) sampleMap
        renamedUser :=
  everyStep_likeFresh_iff (fun _ => "avatar") [] none none renamedUser succeeds_renamedUser

/-- The marker keeps the old name, although every download has succeeded. -/
theorem title_stays :
    EveryStep (step samplePlatform) (fun _ s e _ => Succeeds (fun _ => "avatar") s e) sampleMap
        renamedUser ∧
      ¬EveryStep (step samplePlatform)
        (fun _ s e s' => LikeFresh samplePlatform (fun _ => "avatar") s e s') sampleMap
        renamedUser := by
  refine ⟨succeeds_renamedUser, fun h => ?_⟩
  have hfresh := h (renamedUser.take 2) _ _ _ (List.prefix_refl _) rfl rfl 0 _
    "https://example.com/avatar.png" 102
    ⟨⟨"a", _, rfl, by decide, rfl⟩, by decide, by decide, rfl, by decide⟩
  have htitle := congrArg (Option.map UserMapAnnotation.title) hfresh
  exact absurd htitle (by decide)

end ConfFriends.MapViewController
