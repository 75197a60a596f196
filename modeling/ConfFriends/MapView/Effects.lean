import ConfFriends.MapView

/-!
# What an event does to the markers

`MarkerStep` lists the effects that an event can have on the controller, one
constructor a kind of effect : downloads are started, a marker is moved, taken off or
inserted, or the map is emptied. `markerStep_of_step` is the inversion of `step`, and
an invariant of the markers is checked against the constructors.
-/

set_option linter.unusedSectionVars false

namespace ConfFriends.MapViewController

variable {K Image : Type*} [DecidableEq K] [Zero K] {M : MapPlatform Image}

/-! ## Snapshots -/

/-- The `users` node with a changed child. -/
def replaceChild (key : String) (snapshot : UserRecord K)
    (children : List (String × UserRecord K)) : List (String × UserRecord K) :=
  children.map fun child => if child.1 = key then (key, snapshot) else child

/-- A changed child has its new snapshot, the others keep theirs. -/
theorem lookup_replaceChild {s : MapViewController K Image} {key : String}
    (hpresent : (s.latest key).isSome) (snapshot : UserRecord K) (key' : String) :
    (replaceChild key snapshot s.children).lookup key' =
      if key' = key then some snapshot else s.latest key' := by
  rw [replaceChild, lookup_replace]
  split
  · next heq =>
    obtain ⟨old, hold⟩ := Option.isSome_iff_exists.1 hpresent
    have hlookup : s.children.lookup key' = some old := heq ▸ hold
    rw [hlookup, Option.map_some]
  · rfl

/-- A snapshot that decodes to nonzero coordinates has them. -/
theorem coordinate?_of_ne_zero {urlWithString : String → Option String} {key : String}
    {snapshot : UserRecord K}
    (h : ((DDFUser.initWithModelDictionary urlWithString key snapshot).latitude = 0 ||
      (DDFUser.initWithModelDictionary urlWithString key snapshot).longitude = 0) = false) :
    snapshot.coordinate? =
      some (DDFUser.initWithModelDictionary urlWithString key snapshot).coordinate := by
  simp only [DDFUser.initWithModelDictionary, Bool.or_eq_false_iff] at h
  unfold UserRecord.coordinate? DDFUser.coordinate DDFUser.initWithModelDictionary
  cases hlat : snapshot.latitude with
  | none => simp [hlat] at h
  | some latitude =>
    cases hlon : snapshot.longitude with
    | none => simp [hlon] at h
    | some longitude => rfl

/-- Without a marker under the key there is nothing to take off. -/
theorem removeMarker_of_none {s : MapViewController K Image} {key : String}
    (h : s.userAnnotations key = none) : s.removeMarker key = s := by
  unfold removeMarker
  have hmap : (s.mapView.filter fun ref => decide (s.userAnnotations key ≠ some ref)) =
      s.mapView := by
    simp [h]
  have hdict : Function.update s.userAnnotations key none = s.userAnnotations := by
    rw [← h, Function.update_eq_self]
  rw [hmap, hdict]

/-! ## Users of annotations -/

/-- The user that an annotation is about. -/
def userOf (s : MapViewController K Image) (ref : ℕ) : Option (DDFUser K) :=
  s.annotations[ref]?.map (·.user)

/-- An annotation with a user is an object on the heap. -/
theorem lt_of_userOf {s : MapViewController K Image} {ref : ℕ} {user : DDFUser K}
    (h : s.userOf ref = some user) : ref < s.annotations.length := by
  obtain ⟨marker, hget, -⟩ := Option.map_eq_some_iff.1 h
  exact (List.getElem?_eq_some_iff.1 hget).1

/-- An annotation that moves keeps its user. -/
theorem userOf_modify (s s' : MapViewController K Image) (ref ref' : ℕ)
    (coordinate : CLLocationCoordinate2D K) (subtitle : String)
    (h : s'.annotations = s.annotations.modify ref fun marker =>
      { marker with coordinate := coordinate, subtitle := subtitle }) :
    s'.userOf ref' = s.userOf ref' := by
  unfold userOf
  rw [h, List.getElem?_modify, Option.map_eq_map, Option.map_map]
  congr 1
  funext marker
  by_cases heq : ref = ref' <;> simp [heq]

/-- A new annotation is behind all others on the heap. -/
theorem userOf_insertMarker {s : MapViewController K Image} (user : DDFUser K) (image : Image)
    (now : NSTimeInterval) (downloads : List (DDFUser K)) {ref : ℕ}
    (h : ref < s.annotations.length) :
    (insertMarker M user image now { s with downloads := downloads }).userOf ref =
      s.userOf ref := by
  unfold userOf insertMarker
  rw [List.getElem?_append_left h]

@[simp] theorem userOf_insertMarker_self (s : MapViewController K Image) (user : DDFUser K)
    (image : Image) (now : NSTimeInterval) (downloads : List (DDFUser K)) :
    (insertMarker M user image now { s with downloads := downloads }).userOf
      s.annotations.length = some user := by
  simp [userOf, insertMarker]

/-! ## Effects -/

/-- The effects of an event on the controller. -/
inductive MarkerStep (M : MapPlatform Image) (s : MapViewController K Image)
    (e : MapEvent K Image) : MapViewController K Image → Prop
  /-- A new child, whose avatar is asked for by some of the registrations. -/
  | added (key : String) (snapshot : UserRecord K) (n : ℕ) (he : e = .childAdded key snapshot)
    (hnew : s.latest key = none) :
    MarkerStep M s e { s with
      children := s.children ++ [(key, snapshot)]
      downloads := s.downloads ++
        List.replicate n (DDFUser.initWithModelDictionary M.urlWithString key snapshot) }
  /-- An existing child is reported, and its avatar asked for at most once. -/
  | reported (key : String) (snapshot : UserRecord K) (rest : List (String × UserRecord K))
    (n : ℕ) (he : e = .initialChildAdded) (hrest : s.initialEvents = (key, snapshot) :: rest) :
    MarkerStep M s e { s with
      initialEvents := rest
      downloads := s.downloads ++
        List.replicate n (DDFUser.initWithModelDictionary M.urlWithString key snapshot) }
  /-- A child without a marker has changed, and its avatar is asked for at most once. -/
  | wanted (key : String) (snapshot : UserRecord K) (now : NSTimeInterval) (n : ℕ)
    (he : e = .childChanged key snapshot now) (hpresent : (s.latest key).isSome)
    (hmarker : s.userAnnotations key = none) (hcoord : snapshot.coordinate?.isSome) :
    MarkerStep M s e { s with
      children := replaceChild key snapshot s.children
      downloads := s.downloads ++
        List.replicate n (DDFUser.initWithModelDictionary M.urlWithString key snapshot) }
  /-- The registered marker of a child moves to its new coordinate. -/
  | moved (key : String) (snapshot : UserRecord K) (now : NSTimeInterval) (ref : ℕ)
    (c : CLLocationCoordinate2D K) (he : e = .childChanged key snapshot now)
    (hpresent : (s.latest key).isSome) (hmarker : s.userAnnotations key = some ref)
    (hcoord : snapshot.coordinate? = some c) :
    MarkerStep M s e { s with
      children := replaceChild key snapshot s.children
      annotations := s.annotations.modify ref fun marker =>
        { marker with coordinate := c, subtitle := subtitle M snapshot.updatedAt now } }
  /-- The registered marker of a child without usable coordinates is taken off. -/
  | hidden (key : String) (snapshot : UserRecord K) (now : NSTimeInterval)
    (he : e = .childChanged key snapshot now) (hpresent : (s.latest key).isSome) :
    MarkerStep M s e
      (removeMarker key { s with children := replaceChild key snapshot s.children })
  /-- The registered marker of a removed child is taken off. -/
  | left (key : String) (he : e = .childRemoved key) :
    MarkerStep M s e
      (removeMarker key { s with children := s.children.filter fun child => child.1 ≠ key })
  /-- The map is emptied, and all children will be reported again. -/
  | fetched (filter : Bool) (friends : Option (List String))
    (he : e = .ddfFilterChanged filter friends) :
    MarkerStep M s e (fetchUsers
      { s with ddfTwitterFriendFilter := some filter, ddfTwitterFriends := friends })
  /-- A download gives the user a marker. -/
  | inserted (i : ℕ) (image : Image) (now : NSTimeInterval) (user : DDFUser K)
    (he : e = .downloadCompleted i (some image) now) (huser : s.downloads[i]? = some user) :
    MarkerStep M s e
      (insertMarker M user image now { s with downloads := s.downloads.eraseIdx i })
  /-- A download fails. -/
  | failed (i : ℕ) (now : NSTimeInterval) (user : DDFUser K)
    (he : e = .downloadCompleted i none now) (huser : s.downloads[i]? = some user) :
    MarkerStep M s e { s with downloads := s.downloads.eraseIdx i }

/-- The inversion of the block for `ChildChanged`. -/
theorem markerStep_childChanged {s : MapViewController K Image} {key : String}
    {snapshot : UserRecord K} {now : NSTimeInterval} (hpresent : (s.latest key).isSome)
    (hexists : snapshot.snapshotExists = true) :
    MarkerStep M s (.childChanged key snapshot now) (childChanged M key snapshot now
      { s with children := replaceChild key snapshot s.children }) := by
  unfold childChanged
  rw [if_pos hexists]
  dsimp only
  split
  · exact .hidden key snapshot now rfl hpresent
  · next hzero =>
    have hcoord := coordinate?_of_ne_zero (by simpa using hzero)
    split
    · next ref href => exact .moved key snapshot now ref _ rfl hpresent href hcoord
    · next hmarker =>
      have hsome : snapshot.coordinate?.isSome := by simp [hcoord]
      rw [addUserMarker_eq]
      split
      · exact .wanted key snapshot now 1 rfl hpresent hmarker hsome
      · have hs := MarkerStep.wanted (M := M) key snapshot now 0 rfl hpresent hmarker hsome
        simpa using hs

/-- The inversion of `step`. -/
theorem markerStep_of_step {s s' : MapViewController K Image} {e : MapEvent K Image}
    (h : s.step M e = some s') : MarkerStep M s e s' := by
  cases e with
  | childAdded key snapshot =>
    simp only [step, Option.ite_none_right_eq_some, Option.some.injEq, Bool.and_eq_true,
      Option.isNone_iff_eq_none] at h
    obtain ⟨⟨⟨-, hnew⟩, -⟩, rfl⟩ := h
    rw [iterate_childAdded]
    exact .added key snapshot _ rfl hnew
  | childChanged key snapshot now =>
    simp only [step, Option.ite_none_right_eq_some, Option.some.injEq, Bool.and_eq_true] at h
    obtain ⟨⟨⟨-, hpresent⟩, hexists⟩, rfl⟩ := h
    exact markerStep_childChanged hpresent hexists
  | childRemoved key =>
    simp only [step, Option.ite_none_right_eq_some, Option.some.injEq] at h
    obtain ⟨-, rfl⟩ := h
    have hs := MarkerStep.left (M := M) (s := s) key rfl
    unfold childRemoved
    split
    · exact hs
    · next hnone => rwa [removeMarker_of_none (by simpa using hnone)] at hs
  | initialChildAdded =>
    simp only [step] at h
    split at h
    · simp at h
    · next key snapshot rest hrest =>
      obtain rfl := Option.some.inj h
      rw [childAdded_eq]
      exact .reported key snapshot rest _ rfl hrest
  | ddfFilterChanged filter friends =>
    obtain rfl := Option.some.inj h
    exact .fetched filter friends rfl
  | downloadCompleted i image now =>
    simp only [step] at h
    split at h
    · simp at h
    · next user huser =>
      split at h
      · obtain rfl := Option.some.inj h
        exact .failed i now user rfl huser
      · next image =>
        obtain rfl := Option.some.inj h
        exact .inserted i image now user rfl huser

/-- The filter of a map changes by `DDFFilterChanged` only. -/
theorem filter_step {s s' : MapViewController K Image} {e : MapEvent K Image}
    (h : s.step M e = some s') (he : ∀ filter friends, e ≠ .ddfFilterChanged filter friends) :
    s'.ddfTwitterFriendFilter = s.ddfTwitterFriendFilter ∧
      s'.twitterFriends = s.twitterFriends := by
  cases markerStep_of_step h with
  | fetched filter friends heq => exact absurd heq (he filter friends)
  | _ => exact ⟨rfl, rfl⟩

end ConfFriends.MapViewController
