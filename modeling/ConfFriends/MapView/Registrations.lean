import ConfFriends.MapView.Markers

/-!
# Registrations that accumulate

`fetchUsers` adds a registration for `ChildAdded` and takes none away, so a controller
that has fetched `n` times reports a new child to `n` blocks. Nothing else in its state
shows the number. `Alike` compares two controllers but for it : they have the same
children, downloads and friends, and the same markers up to a renaming of the objects
on the heap (`Renames`).

Each event keeps two alike controllers alike, except a new child whose avatar is asked
for : one download a registration. So a controller that has fetched again, and has finished,
reacts like one that has fetched once iff it shows the same markers and no such child appears
(`idempotent_iff`). After one that does, it has several downloads of it under way
(`two_downloads`).

It shows the same markers if it had finished when it fetched (`alike_refetched`). A download
that is under way at a fetch survives it, and its marker comes on top of the new one.
-/

set_option linter.unusedSectionVars false

open Transition

namespace ConfFriends.MapViewController

variable {K Image : Type*} [DecidableEq K] [Zero K] {M : MapPlatform Image}
  {R : String → String → Prop}

/-! ## Alike controllers -/

/-- A container refers to the object. -/
def Live (s : MapViewController K Image) (ref : ℕ) : Prop :=
  ref ∈ s.mapView ∨ ∃ key, s.userAnnotations key = some ref

/-- Two annotations that agree, with subtitles in a relation : the subtitle is the age of
the position when it was written, and no block reads it. -/
structure Agree (R : String → String → Prop) (marker marker' : UserMapAnnotation K Image) :
    Prop where
  coordinate : marker.coordinate = marker'.coordinate
  title : marker.title = marker'.title
  subtitle : R marker.subtitle marker'.subtitle
  image : marker.image = marker'.image
  user : marker.user = marker'.user

/-- The containers of the second controller are those of the first with their objects
renamed, and the objects agree. -/
structure Renames (R : String → String → Prop) (ρ : ℕ → ℕ) (s s' : MapViewController K Image) :
    Prop where
  mapView : s'.mapView.Perm (s.mapView.map ρ)
  userAnnotations : ∀ key, s'.userAnnotations key = (s.userAnnotations key).map ρ
  injective : ∀ ref ref', s.Live ref → s.Live ref' → ρ ref = ρ ref' → ref = ref'
  annotations : ∀ ref, s.Live ref → ∃ marker marker', s.annotations[ref]? = some marker ∧
    s'.annotations[ρ ref]? = some marker' ∧ Agree R marker marker'

/-- Two controllers in the same state but for their registrations. -/
structure Alike (R : String → String → Prop) (s s' : MapViewController K Image) : Prop where
  children : s'.children = s.children
  initialEvents : s'.initialEvents = s.initialEvents
  filter : boolForKey s'.ddfTwitterFriendFilter = boolForKey s.ddfTwitterFriendFilter
  twitterFriends : s'.twitterFriends = s.twitterFriends
  downloads : s'.downloads = s.downloads
  markers : ∃ ρ, Renames R ρ s s'

/-! ## Containers that change -/

theorem live_of_removeMarker {s : MapViewController K Image} {key : String} {ref : ℕ}
    (h : (s.removeMarker key).Live ref) : s.Live ref := by
  rcases h with hmem | ⟨key', hkey'⟩
  · exact Or.inl (List.mem_filter.1 hmem).1
  · exact Or.inr ⟨key', (userAnnotations_removeMarker hkey').2⟩

theorem live_of_insertMarker {s : MapViewController K Image} {user : DDFUser K} {image : Image}
    {now : NSTimeInterval} {ref : ℕ} (h : (s.insertMarker M user image now).Live ref) :
    s.Live ref ∨ ref = s.annotations.length := by
  rcases h with hmem | ⟨key, hkey⟩
  · simp only [insertMarker, List.mem_append, List.mem_singleton] at hmem
    exact hmem.imp Or.inl id
  · cases huser : user.identifier with
    | none => exact Or.inl (Or.inr ⟨key, by simpa [insertMarker, huser] using hkey⟩)
    | some key' =>
      rw [userAnnotations_insertMarker huser] at hkey
      split at hkey
      · exact Or.inr (Option.some.inj hkey).symm
      · exact Or.inl (Or.inr ⟨key, hkey⟩)

namespace Renames

variable {ρ : ℕ → ℕ} {s s' : MapViewController K Image}

/-- Both controllers have the object on their heap. -/
theorem lt (h : Renames R ρ s s') {ref : ℕ} (href : s.Live ref) :
    ref < s.annotations.length ∧ ρ ref < s'.annotations.length := by
  obtain ⟨marker, marker', hget, hget', -⟩ := h.annotations ref href
  exact ⟨(List.getElem?_eq_some_iff.1 hget).1, (List.getElem?_eq_some_iff.1 hget').1⟩

/-- The one has the object under a key iff the other has the renamed object there. -/
theorem userAnnotations_iff (h : Renames R ρ s s') (key : String) {ref : ℕ}
    (href : s.Live ref) :
    s'.userAnnotations key = some (ρ ref) ↔ s.userAnnotations key = some ref := by
  rw [h.userAnnotations key, Option.map_eq_some_iff]
  constructor
  · rintro ⟨ref', href', heq⟩
    rwa [← h.injective ref' ref (Or.inr ⟨key, href'⟩) href heq]
  · exact fun hkey => ⟨ref, hkey, rfl⟩

/-- Markers that are taken off have the same key, so the rest is renamed as before. -/
theorem removeMarker (h : Renames R ρ s s') (key : String) :
    Renames R ρ (s.removeMarker key) (s'.removeMarker key) where
  mapView := by
    have hfilter : (s.mapView.map ρ).filter (fun ref => s'.userAnnotations key ≠ some ref) =
        (s.mapView.filter fun ref => s.userAnnotations key ≠ some ref).map ρ := by
      rw [List.filter_map]
      congr 1
      refine List.filter_congr fun ref hmem => ?_
      simp [h.userAnnotations_iff key (Or.inl hmem)]
    unfold MapViewController.removeMarker
    rw [← hfilter]
    exact h.mapView.filter _
  userAnnotations key' := by
    unfold MapViewController.removeMarker
    by_cases heq : key' = key
    · simp [heq]
    · simpa [heq] using h.userAnnotations key'
  injective ref ref' href href' :=
    h.injective ref ref' (live_of_removeMarker href) (live_of_removeMarker href')
  annotations ref href := h.annotations ref (live_of_removeMarker href)

/-- An object and its renamed object are moved to the same place. -/
theorem modify (hR : ∀ text, R text text) (h : Renames R ρ s s') {ref : ℕ} (href : s.Live ref)
    (c : CLLocationCoordinate2D K) (subtitle : String) :
    Renames R ρ
      { s with annotations := s.annotations.modify ref fun marker =>
          { marker with coordinate := c, subtitle := subtitle } }
      { s' with annotations := s'.annotations.modify (ρ ref) fun marker =>
          { marker with coordinate := c, subtitle := subtitle } } where
  mapView := h.mapView
  userAnnotations := h.userAnnotations
  injective := h.injective
  annotations ref' href' := by
    obtain ⟨marker, marker', hget, hget', hagree⟩ := h.annotations ref' href'
    by_cases heq : ref = ref'
    · subst heq
      refine ⟨{ marker with coordinate := c, subtitle := subtitle },
        { marker' with coordinate := c, subtitle := subtitle }, ?_, ?_,
        rfl, hagree.title, hR subtitle, hagree.image, hagree.user⟩
      · simp [hget]
      · simp [hget']
    · have hne : ρ ref ≠ ρ ref' := fun hρ => heq (h.injective ref ref' href href' hρ)
      refine ⟨marker, marker', ?_, ?_, hagree⟩
      · simp [heq, hget]
      · simp [hne, hget']

/-- The new object of the one is renamed to the new object of the other. -/
theorem insertMarker (hR : ∀ text, R text text) (h : Renames R ρ s s') (user : DDFUser K)
    (image : Image) (now : NSTimeInterval) :
    Renames R (Function.update ρ s.annotations.length s'.annotations.length)
      (s.insertMarker M user image now) (s'.insertMarker M user image now) := by
  have hold : ∀ ref, s.Live ref →
      Function.update ρ s.annotations.length s'.annotations.length ref = ρ ref :=
    fun ref href => Function.update_of_ne (h.lt href).1.ne _ _
  refine ⟨?_, fun key => ?_, fun ref ref' href href' heq => ?_, fun ref href => ?_⟩
  · have hmap : s.mapView.map (Function.update ρ s.annotations.length s'.annotations.length) =
        s.mapView.map ρ :=
      List.map_congr_left fun ref hmem => hold ref (Or.inl hmem)
    simpa [MapViewController.insertMarker, hmap] using h.mapView.append_right _
  · have hkept : s'.userAnnotations key = (s.userAnnotations key).map
        (Function.update ρ s.annotations.length s'.annotations.length) := by
      rw [h.userAnnotations key]
      exact Option.map_congr fun ref href => (hold ref (Or.inr ⟨key, href⟩)).symm
    cases huser : user.identifier with
    | none => simpa [MapViewController.insertMarker, huser] using hkept
    | some key' =>
      rw [userAnnotations_insertMarker huser, userAnnotations_insertMarker huser, hkept]
      split
      · simp
      · rfl
  · rcases live_of_insertMarker href with hs | rfl <;>
      rcases live_of_insertMarker href' with hs' | rfl
    · rw [hold ref hs, hold ref' hs'] at heq
      exact h.injective ref ref' hs hs' heq
    · rw [hold ref hs, Function.update_self] at heq
      exact absurd heq (h.lt hs).2.ne
    · rw [hold ref' hs', Function.update_self] at heq
      exact absurd heq (h.lt hs').2.ne'
    · rfl
  · rcases live_of_insertMarker href with hs | rfl
    · obtain ⟨marker, marker', hget, hget', hagree⟩ := h.annotations ref hs
      refine ⟨marker, marker', ?_, ?_, hagree⟩
      · rw [MapViewController.insertMarker, List.getElem?_append_left (h.lt hs).1, hget]
      · rw [hold ref hs, MapViewController.insertMarker,
          List.getElem?_append_left (h.lt hs).2, hget']
    · refine ⟨_, _, List.getElem?_concat_length, ?_, rfl, rfl, hR _, rfl, rfl⟩
      rw [Function.update_self]
      exact List.getElem?_concat_length

end Renames

/-! ## Alike controllers react alike -/

namespace Alike

variable {s s' : MapViewController K Image}

/-- The tests of `addUserMarker` come out the same. -/
theorem admits (h : Alike R s s') (user : DDFUser K) : s'.admits user = s.admits user := by
  obtain ⟨ρ, hρ⟩ := h.markers
  have hshown : (user.identifier.any fun key => (s'.userAnnotations key).isSome) =
      user.identifier.any fun key => (s.userAnnotations key).isSome := by
    simp [hρ.userAnnotations]
  unfold MapViewController.admits containsFriend
  rw [hshown, h.filter, h.twitterFriends]

theorem admitsChild (h : Alike R s s') (key : String) (snapshot : UserRecord K) :
    s'.admitsChild M key snapshot = s.admitsChild M key snapshot := by
  unfold MapViewController.admitsChild
  rw [h.admits]

theorem withChildren (h : Alike R s s') (children : List (String × UserRecord K)) :
    Alike R { s with children := children } { s' with children := children } := by
  obtain ⟨ρ, hρ⟩ := h.markers
  exact { h with children := rfl, markers := ⟨ρ, { hρ with }⟩ }

theorem withInitialEvents (h : Alike R s s') (events : List (String × UserRecord K)) :
    Alike R { s with initialEvents := events } { s' with initialEvents := events } := by
  obtain ⟨ρ, hρ⟩ := h.markers
  exact { h with initialEvents := rfl, markers := ⟨ρ, { hρ with }⟩ }

theorem withDownloads (h : Alike R s s') (downloads : List (DDFUser K)) :
    Alike R { s with downloads := downloads } { s' with downloads := downloads } := by
  obtain ⟨ρ, hρ⟩ := h.markers
  exact { h with downloads := rfl, markers := ⟨ρ, { hρ with }⟩ }

theorem addUserMarker (h : Alike R s s') (user : DDFUser K) :
    Alike R (s.addUserMarker user) (s'.addUserMarker user) := by
  rw [addUserMarker_eq, addUserMarker_eq, h.admits, h.downloads]
  split
  · exact h.withDownloads _
  · exact h

theorem insertMarker (hR : ∀ text, R text text) (h : Alike R s s') (user : DDFUser K)
    (image : Image) (now : NSTimeInterval) :
    Alike R (s.insertMarker M user image now) (s'.insertMarker M user image now) := by
  obtain ⟨ρ, hρ⟩ := h.markers
  exact { h with markers := ⟨_, hρ.insertMarker hR user image now⟩ }

theorem removeMarker (h : Alike R s s') (key : String) :
    Alike R (s.removeMarker key) (s'.removeMarker key) := by
  obtain ⟨ρ, hρ⟩ := h.markers
  exact { h with markers := ⟨ρ, hρ.removeMarker key⟩ }

/-- As many registrations, or a child that is not asked for : the block for `ChildAdded`
starts as many downloads. -/
theorem iterate_childAdded (h : Alike R s s') (key : String) (snapshot : UserRecord K) {n n' : ℕ}
    (hsame : n' = n ∨ s.admitsChild M key snapshot = false) :
    Alike R ((childAdded M key snapshot)^[n] s) ((childAdded M key snapshot)^[n'] s') := by
  have hnum : (if s'.admitsChild M key snapshot then n' else 0) =
      if s.admitsChild M key snapshot then n else 0 := by
    rw [h.admitsChild]
    rcases hsame with rfl | hnot
    · rfl
    · simp [hnot]
  rw [MapViewController.iterate_childAdded, MapViewController.iterate_childAdded, hnum,
    h.downloads]
  exact h.withDownloads _

theorem childChanged (hR : ∀ text, R text text) (h : Alike R s s') (key : String)
    (snapshot : UserRecord K) (now : NSTimeInterval) :
    Alike R (childChanged M key snapshot now s) (childChanged M key snapshot now s') := by
  obtain ⟨ρ, hρ⟩ := h.markers
  unfold MapViewController.childChanged
  split
  · dsimp only
    split
    · exact h.removeMarker key
    · rw [hρ.userAnnotations key]
      cases href : s.userAnnotations key with
      | none => exact h.addUserMarker _
      | some ref => exact { h with markers := ⟨ρ, hρ.modify hR (Or.inr ⟨key, href⟩) _ _⟩ }
  · exact h

theorem childRemoved (h : Alike R s s') (key : String) :
    Alike R (childRemoved key s) (childRemoved key s') := by
  obtain ⟨ρ, hρ⟩ := h.markers
  unfold MapViewController.childRemoved
  rw [hρ.userAnnotations key, Option.isSome_map]
  split
  · exact h.removeMarker key
  · exact h

end Alike

/-- The event is a new child whose avatar is asked for. -/
def AsksAvatar (M : MapPlatform Image) (s : MapViewController K Image) (e : MapEvent K Image) :
    Prop :=
  ∃ key snapshot, e = .childAdded key snapshot ∧ s.admitsChild M key snapshot = true

/-- The event is a change of the filter, which fetches again. -/
def isFilterChange : MapEvent K Image → Bool
  | .ddfFilterChanged _ _ => true
  | _ => false

/-- Two guarded steps with the same guard. -/
theorem rel_ite {σ : Type*} {R : σ → σ → Prop} {guard guard' : Bool} {s s' : σ}
    (hguard : guard' = guard) (h : guard = true → R s s') :
    Option.Rel R (if guard then some s else none) (if guard' then some s' else none) := by
  subst hguard
  cases guard' with
  | false => exact .none
  | true => exact .some (h rfl)

/-- An event keeps alike controllers alike, if they have as many registrations or the
event asks for no avatar of a new child. -/
theorem Alike.step {s s' : MapViewController K Image} (hR : ∀ text, R text text)
    (h : Alike R s s') {e : MapEvent K Image} (he : isFilterChange e = false)
    (hsame : ∀ t, s.step M e = some t →
      s'.childAddedObservers = s.childAddedObservers ∨ ¬AsksAvatar M s e) :
    Option.Rel (Alike R) (s.step M e) (s'.step M e) := by
  have hlatest : ∀ key, s'.latest key = s.latest key := fun key => by
    rw [latest, latest, h.children]
  cases e with
  | childAdded key snapshot =>
    refine rel_ite (by rw [h.initialEvents, hlatest]) fun hguard => ?_
    rw [h.children]
    refine (h.withChildren _).iterate_childAdded key snapshot
      ((hsame _ (if_pos hguard)).imp_right fun hnot => ?_)
    rw [← Bool.not_eq_true]
    exact fun hasks => hnot ⟨key, snapshot, rfl, hasks⟩
  | childChanged key snapshot now =>
    refine rel_ite (by rw [h.initialEvents, hlatest]) fun _ => ?_
    rw [h.children]
    exact (h.withChildren _).childChanged hR key snapshot now
  | childRemoved key =>
    refine rel_ite (by rw [h.initialEvents, hlatest]) fun _ => ?_
    rw [h.children]
    exact (h.withChildren _).childRemoved key
  | initialChildAdded =>
    unfold MapViewController.step
    dsimp only
    rw [h.initialEvents]
    cases s.initialEvents with
    | nil => exact .none
    | cons child rest =>
      exact .some ((h.withInitialEvents rest).iterate_childAdded (n := 1) child.1 child.2
        (Or.inl rfl))
  | ddfFilterChanged filter friends => cases he
  | downloadCompleted i image now =>
    unfold MapViewController.step
    dsimp only
    rw [h.downloads]
    cases s.downloads[i]? with
    | none => exact .none
    | some user =>
      cases image with
      | none => exact .some (h.withDownloads _)
      | some image => exact .some ((h.withDownloads _).insertMarker hR user image now)

/-! ## Fetching again -/

/-- How often `fetchUsers` has run in a run from `viewDidLoad`. -/
def fetches (es : List (MapEvent K Image)) : ℕ :=
  1 + es.countP isFilterChange

/-- The second controller reacts to the events like the first, and starts at most one
download for a new child. -/
structure Idempotent (R : String → String → Prop) (M : MapPlatform Image)
    (s s' : MapViewController K Image) (es : List (MapEvent K Image)) : Prop where
  alike : ∀ pre, pre <+: es → Option.Rel (Alike R) (exec (step M) s pre) (exec (step M) s' pre)
  oneDownload : EveryStep (step M) (fun _ t e t' => ∀ key snapshot, e = .childAdded key snapshot →
    t'.downloads.length ≤ t.downloads.length + 1) s' es

/-- Each fetch adds a registration, and no other event adds or removes one. -/
theorem childAddedObservers_exec (s : MapViewController K Image) :
    ∀ es t, exec (step M) s es = some t →
      t.childAddedObservers = s.childAddedObservers + es.countP isFilterChange := by
  refine exec_induction rfl fun pre t e t' _ ih ht' => ?_
  rw [List.countP_append, ← Nat.add_assoc, ← ih]
  cases markerStep_of_step ht' with
  | added key snapshot n he => subst he; rfl
  | reported key snapshot rest n he => subst he; rfl
  | wanted key snapshot now n he => subst he; rfl
  | moved key snapshot now ref c he => subst he; rfl
  | hidden key snapshot now he => subst he; rfl
  | left key he => subst he; rfl
  | fetched filter friends he => subst he; rfl
  | inserted i image now user he => subst he; rfl
  | failed i now user he => subst he; rfl

theorem childAddedObservers_viewDidLoad {children : List (String × UserRecord K)}
    {filter : Option Bool} {friends : Option (List String)} {es : List (MapEvent K Image)}
    {s : MapViewController K Image}
    (hs : exec (step M) (viewDidLoad children filter friends) es = some s) :
    s.childAddedObservers = fetches es :=
  childAddedObservers_exec _ es s hs

/-- Events that fetch nothing leave the registrations. -/
theorem childAddedObservers_eq {s t : MapViewController K Image}
    {es pre : List (MapEvent K Image)} (hes : ∀ e ∈ es, isFilterChange e = false)
    (hpre : pre <+: es) (ht : exec (step M) s pre = some t) :
    t.childAddedObservers = s.childAddedObservers := by
  have hcount : pre.countP isFilterChange = 0 :=
    List.countP_eq_zero.2 fun e he => by simp [hes e (hpre.mem he)]
  rw [childAddedObservers_exec s pre t ht, hcount, Nat.add_zero]

/-- A new child whose avatar is asked for starts a download for each registration. -/
theorem length_downloads_childAdded {s s' : MapViewController K Image} {key : String}
    {snapshot : UserRecord K} (hs : s.step M (.childAdded key snapshot) = some s') :
    s'.downloads.length = s.downloads.length +
      if s.admitsChild M key snapshot then s.childAddedObservers else 0 := by
  simp only [step, Option.ite_none_right_eq_some, Option.some.injEq] at hs
  obtain ⟨-, rfl⟩ := hs
  have hkept : admitsChild M key snapshot
      { s with children := s.children ++ [(key, snapshot)] } = s.admitsChild M key snapshot := rfl
  rw [iterate_childAdded, List.length_append, List.length_replicate, hkept]

/-- The two have been told of the same database, filter and friends, and have finished. -/
structure Settled (s s' : MapViewController K Image) : Prop where
  children : s'.children = s.children
  filter : boolForKey s'.ddfTwitterFriendFilter = boolForKey s.ddfTwitterFriendFilter
  twitterFriends : s'.twitterFriends = s.twitterFriends
  initialEvents : s.initialEvents = [] ∧ s'.initialEvents = []
  downloads : s.downloads = [] ∧ s'.downloads = []

theorem Settled.alike_iff {s s' : MapViewController K Image} (h : Settled s s') :
    Alike R s s' ↔ ∃ ρ, Renames R ρ s s' := by
  refine ⟨Alike.markers, fun hmarkers => ?_⟩
  exact {
    children := h.children
    initialEvents := h.initialEvents.2.trans h.initialEvents.1.symm
    filter := h.filter
    twitterFriends := h.twitterFriends
    downloads := h.downloads.2.trans h.downloads.1.symm
    markers := hmarkers }

/-- A fetch of a controller that has finished is a fresh start, but for the registrations. -/
theorem alike_fetchUsers {t : MapViewController K Image} (hreported : t.initialEvents = [])
    (hdrained : t.downloads = []) (filter : Bool) (friends : Option (List String)) :
    Alike R (viewDidLoad t.children (some filter) friends)
      (fetchUsers { t with
        ddfTwitterFriendFilter := some filter, ddfTwitterFriends := friends }) where
  children := rfl
  initialEvents := by simp [viewDidLoad, fetchUsers, hreported]
  filter := rfl
  twitterFriends := rfl
  downloads := hdrained
  markers := by
    have hnone : ∀ ref, ¬(viewDidLoad t.children (some filter) friends :
        MapViewController K Image).Live ref := by
      rintro ref (hmem | ⟨key, hkey⟩)
      · exact absurd hmem List.not_mem_nil
      · exact absurd hkey (by simp [viewDidLoad, fetchUsers])
    exact ⟨id, .nil, fun _ => rfl, fun ref _ href => absurd href (hnone ref),
      fun ref href => absurd href (hnone ref)⟩

/-- A controller that had finished when it fetched is like a fresh one with the same
database, and stays so while no new child is asked for. -/
theorem alike_refetched (hR : ∀ text, R text text) {t u u' : MapViewController K Image}
    (hreported : t.initialEvents = []) (hdrained : t.downloads = []) {filter : Bool}
    {friends : Option (List String)} {es : List (MapEvent K Image)}
    (hes : ∀ e ∈ es, isFilterChange e = false)
    (hasks : EveryStep (step M) (fun _ s e _ => ¬AsksAvatar M s e)
      (viewDidLoad t.children (some filter) friends) es)
    (hu : exec (step M) (viewDidLoad t.children (some filter) friends) es = some u)
    (hu' : exec (step M) t (.ddfFilterChanged filter friends :: es) = some u') :
    Alike R u u' := by
  have hu'' : exec (step M) (fetchUsers { t with
      ddfTwitterFriendFilter := some filter, ddfTwitterFriends := friends }) es = some u' := hu'
  have hrel : ∀ pre, pre <+: es → Option.Rel (Alike R)
      (exec (step M) (viewDidLoad t.children (some filter) friends) pre)
      (exec (step M) (fetchUsers { t with
        ddfTwitterFriendFilter := some filter, ddfTwitterFriends := friends }) pre) := by
    refine exec_rel (alike_fetchUsers hreported hdrained filter friends) ?_
    intro pre e s s' hpre hs _ h
    refine h.step hR (hes e (hpre.mem (by simp))) fun s₁ hs₁ => Or.inr ?_
    exact hasks pre e s s₁ hpre hs hs₁
  have hlast := hrel es (List.prefix_refl es)
  rw [hu, hu''] at hlast
  cases hlast with
  | some h => exact h

/-- Of two controllers that have finished, one that has fetched once and one that has fetched
any number of times, the second reacts to events like the first iff it shows the same markers
and has fetched once as well, or no child appears whose avatar is asked for. -/
theorem idempotent_iff (hR : ∀ text, R text text)
    {children children' : List (String × UserRecord K)} {filter filter' : Option Bool}
    {friends friends' : Option (List String)} {once many es : List (MapEvent K Image)}
    {s s' : MapViewController K Image}
    (hs : exec (step M) (viewDidLoad children filter friends) once = some s)
    (hs' : exec (step M) (viewDidLoad children' filter' friends') many = some s')
    (honce : fetches once = 1) (hsettled : Settled s s')
    (hes : ∀ e ∈ es, isFilterChange e = false) :
    Idempotent R M s s' es ↔ (∃ ρ, Renames R ρ s s') ∧
      (fetches many = 1 ∨ EveryStep (step M) (fun _ t e _ => ¬AsksAvatar M t e) s es) := by
  have hobservers : ∀ pre t, pre <+: es → exec (step M) s pre = some t →
      t.childAddedObservers = 1 := fun pre t hpre ht => by
    rw [childAddedObservers_eq hes hpre ht, childAddedObservers_viewDidLoad hs, honce]
  have hobservers' : ∀ pre t', pre <+: es → exec (step M) s' pre = some t' →
      t'.childAddedObservers = fetches many := fun pre t' hpre ht' => by
    rw [childAddedObservers_eq hes hpre ht', childAddedObservers_viewDidLoad hs']
  have hbefore : ∀ {pre e}, pre ++ [e] <+: es → pre <+: es :=
    fun {pre e} hpre => (List.prefix_append pre [e]).trans hpre
  constructor
  · intro h
    have hstart := h.alike [] (List.nil_prefix)
    cases hstart with
    | some halike =>
    refine ⟨halike.markers, ?_⟩
    by_contra hnot
    rw [not_or] at hnot
    refine hnot.2 fun pre e t t₁ hpre ht ht₁ hask => hnot.1 ?_
    -- the second controller takes the step as well, and starts a download a registration
    obtain ⟨t', ht', hrel⟩ := exec_rel_right (h.alike pre (hbefore hpre)) ht
    obtain ⟨u, hu, -⟩ := exec_rel_right (h.alike _ hpre) (exec_step ht ht₁)
    have hstep : step M t' e = some u := by
      rwa [exec_snoc, ht', Option.bind_some] at hu
    obtain ⟨key, snapshot, rfl, hadmits⟩ := hask
    have hmany := length_downloads_childAdded hstep
    rw [hrel.admitsChild, if_pos hadmits, hobservers' pre t' (hbefore hpre) ht'] at hmany
    have hone := h.oneDownload pre _ t' u hpre ht' hstep key snapshot rfl
    have hpos : 1 ≤ fetches many := Nat.le_add_right 1 _
    omega
  · rintro ⟨hmarkers, h⟩
    have halike : Alike R s s' := hsettled.alike_iff.2 hmarkers
    have halikeAt : ∀ pre, pre <+: es →
        Option.Rel (Alike R) (exec (step M) s pre) (exec (step M) s' pre) := by
      refine exec_rel halike fun pre e t t' hpre ht ht' hrel => ?_
      refine hrel.step hR (hes e (hpre.mem (by simp))) fun t₁ ht₁ => ?_
      refine h.imp (fun hmany => ?_) fun hnone => hnone pre e t t₁ hpre ht ht₁
      rw [hobservers pre t (hbefore hpre) ht, hobservers' pre t' (hbefore hpre) ht', hmany]
    refine ⟨halikeAt, ?_⟩
    rintro pre e t' u hpre ht' hu key snapshot rfl
    obtain ⟨t, ht, hrel⟩ := exec_rel_left (halikeAt pre (hbefore hpre)) ht'
    obtain ⟨t₁, ht₁, -⟩ := exec_rel_left (halikeAt _ hpre) (exec_step ht' hu)
    have hstep : step M t (.childAdded key snapshot) = some t₁ := by
      rwa [exec_snoc, ht, Option.bind_some] at ht₁
    rw [length_downloads_childAdded hu, hrel.admitsChild, hobservers' pre t' (hbefore hpre) ht']
    split
    · next hadmits =>
      have hmany : fetches many = 1 := h.resolve_right fun hnone =>
        hnone pre _ t t₁ hpre ht hstep ⟨key, snapshot, rfl, hadmits⟩
      rw [hmany]
    · exact Nat.le_add_right _ 1

/-! A concrete map with a marker, and the same map after the filter has been turned off,
which it was : the marker has been made anew. -/

/-- The child is reported, and its avatar comes. -/
def shows : List (MapEvent ℤ String) :=
  [.initialChildAdded, .downloadCompleted 0 (some "avatar") 100]

def fetchesAgain : List (MapEvent ℤ String) :=
  shows ++ .ddfFilterChanged false none :: shows

def loadedMap : MapViewController ℤ String :=
  viewDidLoad [("a", sampleRecord)] (some false) none

def shownMap : MapViewController ℤ String :=
  (exec (step samplePlatform) loadedMap shows).getD loadedMap

def shownAgainMap : MapViewController ℤ String :=
  (exec (step samplePlatform) loadedMap fetchesAgain).getD loadedMap

theorem settled_shownAgainMap : Settled shownMap shownAgainMap :=
  ⟨rfl, rfl, rfl, ⟨rfl, rfl⟩, ⟨rfl, rfl⟩⟩

theorem renames_shownAgainMap : ∃ ρ, Renames Eq ρ shownMap shownAgainMap := by
  have halike : Alike Eq shownMap shownAgainMap := by
    refine alike_refetched (M := samplePlatform) (t := shownMap) (fun _ => rfl) rfl rfl ?_ ?_
      (show exec (step samplePlatform) loadedMap shows = some shownMap from rfl)
      (show exec (step samplePlatform) shownMap (.ddfFilterChanged false none :: shows) =
        some shownAgainMap from rfl)
    · simp [shows, isFilterChange]
    · rintro pre e s s' hpre - - ⟨key, snapshot, rfl, -⟩
      have hmem := hpre.subset (List.mem_append_right pre List.mem_cons_self)
      simp [shows] at hmem
  exact halike.markers

/-- The marker of a user who leaves goes, whichever it is. -/
theorem idempotent_userLeft :
    shownMap.mapView = [0] ∧ shownAgainMap.mapView = [1] ∧
      Idempotent Eq samplePlatform shownMap shownAgainMap [.childRemoved "a"] := by
  refine ⟨rfl, rfl, (idempotent_iff (fun _ => rfl)
    (show exec (step samplePlatform) loadedMap shows = some shownMap from rfl)
    (show exec (step samplePlatform) loadedMap fetchesAgain = some shownAgainMap from rfl)
    rfl settled_shownAgainMap (by simp [isFilterChange])).2 ⟨renames_shownAgainMap, Or.inr ?_⟩⟩
  rintro pre e s s' hpre - - ⟨key, snapshot, rfl, -⟩
  have hmem := hpre.subset (List.mem_append_right pre List.mem_cons_self)
  simp at hmem

/-- A new user is downloaded twice. -/
theorem two_downloads :
    exec (step samplePlatform) loadedMap shows = some shownMap ∧
      exec (step samplePlatform) loadedMap fetchesAgain = some shownAgainMap ∧
      Settled shownMap shownAgainMap ∧ (∃ ρ, Renames Eq ρ shownMap shownAgainMap) ∧
      ¬Idempotent Eq samplePlatform shownMap shownAgainMap [.childAdded "b" sampleRecord] := by
  refine ⟨rfl, rfl, settled_shownAgainMap, renames_shownAgainMap, fun h => ?_⟩
  have hone := h.oneDownload [] (.childAdded "b" sampleRecord) shownAgainMap _
    (List.prefix_refl _) rfl rfl "b" sampleRecord rfl
  exact absurd hone (by decide)

end ConfFriends.MapViewController
