import ConfFriends.MapView.Effects
import ConfFriends.MapView.Markers

/-!
# The Twitter following filter

With the filter on, the map should show friends only. `addUserMarker` asks for the
filter when a download starts, and `fetchUsers` empties the map for a new filter but
cancels no download : the completion of one that was started before inserts its user
unasked (`unfollowed_marker`). So the filter holds along a run iff every download that
completes with the filter on is of a friend (`filtered_iff_completesFriend`).
-/

set_option linter.unusedSectionVars false

open Transition

namespace ConfFriends.MapViewController

variable {K Image : Type*} [DecidableEq K] [Zero K] {M : MapPlatform Image}

/-- With the filter on, every annotation on the map is about a user of the list that
`fetchUsers` has loaded. -/
def Filtered (s : MapViewController K Image) : Prop :=
  boolForKey s.ddfTwitterFriendFilter = true →
    ∀ ref ∈ s.mapView, ∃ user, s.userOf ref = some user ∧ s.containsFriend user.twitterID = true

/-- A download that completes with an image while the filter is on is of a user of the
list. -/
def CompletesFriend (s : MapViewController K Image) (e : MapEvent K Image) : Prop :=
  ∀ i image now user, e = .downloadCompleted i (some image) now → s.downloads[i]? = some user →
    boolForKey s.ddfTwitterFriendFilter = true → s.containsFriend user.twitterID = true

/-- Annotations that were there before, under the same filter. -/
theorem Filtered.of_subset {s s' : MapViewController K Image} (h : s.Filtered)
    (hfilter : s'.ddfTwitterFriendFilter = s.ddfTwitterFriendFilter)
    (hfriends : s'.twitterFriends = s.twitterFriends)
    (hmap : ∀ ref ∈ s'.mapView, ref ∈ s.mapView ∧ s'.userOf ref = s.userOf ref) :
    s'.Filtered := by
  intro hon ref href
  obtain ⟨hmem, huserOf⟩ := hmap ref href
  obtain ⟨user, huser, hfriend⟩ := h (hfilter ▸ hon) ref hmem
  refine ⟨user, huserOf.trans huser, ?_⟩
  rw [containsFriend, hfriends]
  exact hfriend

/-- A step keeps the map filtered, unless a download completes for somebody else. -/
theorem Filtered.step {s s' : MapViewController K Image} {e : MapEvent K Image}
    (h : s.Filtered) (hs : s.step M e = some s') (hok : CompletesFriend s e) : s'.Filtered := by
  cases markerStep_of_step hs with
  | added | reported | wanted | failed =>
    exact h.of_subset rfl rfl fun ref href => ⟨href, rfl⟩
  | moved key snapshot now ref c he hpresent hmarker hcoord =>
    exact h.of_subset rfl rfl fun ref' href' => ⟨href', userOf_modify s _ ref ref' c _ rfl⟩
  | hidden | left =>
    refine h.of_subset rfl rfl fun ref href => ⟨?_, rfl⟩
    exact (List.mem_filter.1 href).1
  | fetched filter friends he => exact fun _ ref href => by simp [fetchUsers] at href
  | inserted i image now user he huser =>
    intro hon ref href
    rcases List.mem_append.1 href with hold | hnew
    · obtain ⟨user', huser', hfriend⟩ := h hon ref hold
      refine ⟨user', ?_, hfriend⟩
      rw [userOf_insertMarker user image now _ (lt_of_userOf huser')]
      exact huser'
    · obtain rfl := List.mem_singleton.1 hnew
      exact ⟨user, userOf_insertMarker_self .., hok i image now user he huser hon⟩

/-- A download that completes for somebody else puts an annotation about him on the map. -/
theorem not_filtered_of_completes {s s' : MapViewController K Image} {e : MapEvent K Image}
    (hs : s.step M e = some s') (hbad : ¬CompletesFriend s e) : ¬s'.Filtered := by
  simp only [CompletesFriend, not_forall] at hbad
  obtain ⟨i, image, now, user, rfl, huser, hon, hnot⟩ := hbad
  simp only [MapViewController.step, huser, Option.some.injEq] at hs
  subst hs
  intro hfiltered
  have hmem : s.annotations.length ∈ (insertMarker M user image now
      { s with downloads := s.downloads.eraseIdx i }).mapView :=
    List.mem_append_right _ (List.mem_singleton.2 rfl)
  obtain ⟨user', huser', hfriend⟩ := hfiltered hon _ hmem
  obtain rfl : user = user' := by
    rw [← Option.some.injEq, ← huser']
    exact (userOf_insertMarker_self ..).symm
  exact hnot hfriend

/-- The map is filtered along a run iff every download that completes with the filter on
is of a user of the list. -/
theorem filtered_iff_completesFriend (children : List (String × UserRecord K))
    (filter : Option Bool) (friends : Option (List String)) (es : List (MapEvent K Image)) :
    EveryState (step M) (fun _ s => s.Filtered) (viewDidLoad children filter friends) es ↔
      EveryStep (step M) (fun _ s e _ => CompletesFriend s e)
        (viewDidLoad children filter friends) es := by
  refine everyState_iff_everyStep (I := fun _ s => s.Filtered) ?_ ?_ ?_ ?_ es
  · exact fun _ ref href => by simp [viewDidLoad, fetchUsers] at href
  · exact fun _ _ hI => hI
  · exact fun _ _ _ _ _ hI h hok => hI.step h hok
  · exact fun _ _ _ _ _ _ h hbad => not_filtered_of_completes h hbad

/-- A user appears, the filter is turned on with a list without this user, and then the
avatar arrives. -/
def filteredDuringDownload : List (MapEvent ℤ String) :=
  [.childAdded "a" sampleRecord, .ddfFilterChanged true (some ["2"]), .initialChildAdded,
    .downloadCompleted 0 (some "avatar") 101]

/-- A user who is not followed is on the map. -/
theorem unfollowed_marker :
    ¬EveryState (step samplePlatform) (fun _ s => s.Filtered) sampleMap filteredDuringDownload := by
  intro hall
  obtain ⟨user, huser, hfriend⟩ := hall.last rfl rfl 0 (by decide)
  obtain rfl := Option.some.inj huser
  exact absurd hfriend (by decide)

end ConfFriends.MapViewController
