import ConfFriends.MapView.Markers

/-!
# Where the markers of a map come from

The map makes nothing up : if every snapshot that Firebase reports for a key has some
property, every marker is of a user who is decoded from a snapshot with it, and its
coordinate and the date of its subtitle are those of one snapshot with it, told at the time
of an event for the user (`Sourced.step`). The map stores the children, hands them to new
registrations, decodes them for the downloads and copies the coordinate of a download into
its marker. On the way a record without a coordinate is decoded to zeros, which the tests of
the markers keep out.
-/

set_option linter.unusedSectionVars false

namespace ConfFriends

variable {K Image : Type*} [DecidableEq K] [Zero K] {M : MapPlatform Image}

/-- The snapshots that Firebase reports with an event. -/
def MapEvent.deliveries : MapEvent K Image → List (String × UserRecord K)
  | .childAdded key snapshot => [(key, snapshot)]
  | .childChanged key snapshot _ => [(key, snapshot)]
  | _ => []

namespace MapViewController

/-! ## Snapshots with a property -/

/-- A user with an avatar who is decoded from a snapshot with the property, coordinate
included. -/
def Decoded (M : MapPlatform Image) (Q : String → UserRecord K → Prop) (key : String)
    (user : DDFUser K) : Prop :=
  ∃ snapshot, Q key snapshot ∧ user = DDFUser.initWithModelDictionary M.urlWithString key snapshot ∧
    snapshot.coordinate? = some user.coordinate ∧ user.avatar.isSome

/-- The event puts an age into the subtitle of the user's marker, at the time. -/
inductive TellsAge (s : MapViewController K Image) (e : MapEvent K Image) (key : String)
    (now : NSTimeInterval) : Prop
  | changed (snapshot : UserRecord K) (he : e = .childChanged key snapshot now)
  | downloaded (i : ℕ) (image : Image) (user : DDFUser K)
    (he : e = .downloadCompleted i (some image) now) (huser : s.downloads[i]? = some user)
    (hkey : user.identifier = some key)

/-- The coordinate and the date of a marker are those of one snapshot with the property, and
the age was told at a time with the other. -/
def ShownBy (M : MapPlatform Image) (Q : String → UserRecord K → Prop)
    (T : String → NSTimeInterval → Prop) (key : String) (marker : UserMapAnnotation K Image) :
    Prop :=
  ∃ snapshot now, Q key snapshot ∧ T key now ∧ snapshot.coordinate? = some marker.coordinate ∧
    marker.subtitle = subtitle M snapshot.updatedAt now

/-- Every snapshot that the map holds for a key has the property, and so has every time. -/
structure Sourced (M : MapPlatform Image) (Q : String → UserRecord K → Prop)
    (T : String → NSTimeInterval → Prop) (s : MapViewController K Image) : Prop where
  children : ∀ child ∈ s.children, Q child.1 child.2
  initialEvents : ∀ child ∈ s.initialEvents, Q child.1 child.2
  downloads : ∀ user ∈ s.downloads, ∃ key, Decoded M Q key user
  registered : ∀ key ref, s.userAnnotations key = some ref → s.keyOf ref = some key
  annotations : ∀ marker ∈ s.annotations, ∃ key, Decoded M Q key marker.user ∧
    ShownBy M Q T key marker

variable {Q Q' : String → UserRecord K → Prop} {T T' : String → NSTimeInterval → Prop}

theorem Decoded.identifier {key : String} {user : DDFUser K} (h : Decoded M Q key user) :
    user.identifier = some key := by
  obtain ⟨snapshot, -, rfl, -⟩ := h
  rfl

theorem Decoded.mono {key : String} {user : DDFUser K} (h : Decoded M Q key user)
    (hQ : ∀ key snapshot, Q key snapshot → Q' key snapshot) : Decoded M Q' key user :=
  h.imp fun snapshot hsnapshot => hsnapshot.imp_left (hQ key snapshot)

theorem ShownBy.mono {key : String} {marker : UserMapAnnotation K Image}
    (h : ShownBy M Q T key marker) (hQ : ∀ key snapshot, Q key snapshot → Q' key snapshot)
    (hT : ∀ key now, T key now → T' key now) : ShownBy M Q' T' key marker := by
  obtain ⟨snapshot, now, hsnapshot, hnow, hshown⟩ := h
  exact ⟨snapshot, now, hQ key snapshot hsnapshot, hT key now hnow, hshown⟩

theorem Sourced.mono {s : MapViewController K Image} (h : s.Sourced M Q T)
    (hQ : ∀ key snapshot, Q key snapshot → Q' key snapshot)
    (hT : ∀ key now, T key now → T' key now) : s.Sourced M Q' T' where
  children child hchild := hQ child.1 child.2 (h.children child hchild)
  initialEvents child hchild := hQ child.1 child.2 (h.initialEvents child hchild)
  downloads user huser := (h.downloads user huser).imp fun _ hkey => hkey.mono hQ
  registered := h.registered
  annotations marker hmarker :=
    (h.annotations marker hmarker).imp fun _ hkey => ⟨hkey.1.mono hQ, hkey.2.mono hQ hT⟩

/-! ## Downloads -/

/-- A user whom the tests admit has the coordinate of the snapshot, and an avatar. -/
theorem decoded_of_admits {s : MapViewController K Image} {key : String}
    {snapshot : UserRecord K} (hQ : Q key snapshot)
    (h : s.admits (DDFUser.initWithModelDictionary M.urlWithString key snapshot) = true) :
    Decoded M Q key (DDFUser.initWithModelDictionary M.urlWithString key snapshot) := by
  simp only [admits, Bool.and_eq_true, Bool.not_eq_true', Bool.or_eq_false_iff] at h
  refine ⟨snapshot, hQ, rfl, coordinate?_of_ne_zero (Bool.or_eq_false_iff.2 h.1.2.1), ?_⟩
  exact Option.isNone_eq_false_iff.1 h.1.2.2

/-- A download that the block for `ChildAdded` starts is of the child. -/
theorem decoded_of_mem_childAdded {s : MapViewController K Image} {key : String}
    {snapshot : UserRecord K} {n : ℕ} {user : DDFUser K} (hQ : Q key snapshot)
    (h : user ∈ List.replicate (if s.admitsChild M key snapshot then n else 0)
      (DDFUser.initWithModelDictionary M.urlWithString key snapshot)) :
    Decoded M Q key user := by
  obtain ⟨hn, rfl⟩ := List.mem_replicate.1 h
  refine decoded_of_admits (s := s) hQ ?_
  cases hadmits : s.admitsChild M key snapshot with
  | false => simp [hadmits] at hn
  | true => exact (Bool.and_eq_true_iff.1 hadmits).2

/-- A download that a step starts is of a child that is reported. -/
theorem Sourced.downloads_step {s s' : MapViewController K Image} {e : MapEvent K Image}
    (hI : s.Sourced M Q T) (h : s.step M e = some s')
    (hnew : ∀ child ∈ e.deliveries, Q child.1 child.2) :
    ∀ user ∈ s'.downloads, ∃ key, Decoded M Q key user := by
  intro user huser
  cases e with
  | childAdded key snapshot =>
    simp only [step, Option.ite_none_right_eq_some, Option.some.injEq] at h
    obtain ⟨-, rfl⟩ := h
    rw [iterate_childAdded] at huser
    rcases List.mem_append.1 huser with hold | hstarted
    · exact hI.downloads user hold
    · exact ⟨key, decoded_of_mem_childAdded (hnew _ (List.mem_singleton.2 rfl)) hstarted⟩
  | childChanged key snapshot now =>
    simp only [step, Option.ite_none_right_eq_some, Option.some.injEq] at h
    obtain ⟨-, rfl⟩ := h
    unfold childChanged at huser
    dsimp only at huser
    split at huser
    · split at huser
      · exact hI.downloads user huser
      · split at huser
        · exact hI.downloads user huser
        · rw [addUserMarker_eq] at huser
          split at huser
          · next hadmits =>
            rcases List.mem_append.1 huser with hold | hstarted
            · exact hI.downloads user hold
            · obtain rfl := List.mem_singleton.1 hstarted
              exact ⟨key, decoded_of_admits (hnew _ (List.mem_singleton.2 rfl)) hadmits⟩
          · exact hI.downloads user huser
    · exact hI.downloads user huser
  | childRemoved key =>
    simp only [step, Option.ite_none_right_eq_some, Option.some.injEq] at h
    obtain ⟨-, rfl⟩ := h
    unfold childRemoved at huser
    split at huser <;> exact hI.downloads user huser
  | initialChildAdded =>
    simp only [step] at h
    split at h
    · simp at h
    · next key snapshot rest hrest =>
      obtain rfl := Option.some.inj h
      rw [childAdded_eq] at huser
      rcases List.mem_append.1 huser with hold | hstarted
      · exact hI.downloads user hold
      · have hQ : Q key snapshot := hI.initialEvents _ (hrest ▸ List.mem_cons_self)
        exact ⟨key, decoded_of_mem_childAdded hQ hstarted⟩
  | ddfFilterChanged filter friends =>
    obtain rfl := Option.some.inj h
    exact hI.downloads user huser
  | downloadCompleted i image now =>
    simp only [step] at h
    split at h
    · simp at h
    · split at h
      · obtain rfl := Option.some.inj h
        exact hI.downloads user (List.mem_of_mem_eraseIdx huser)
      · obtain rfl := Option.some.inj h
        exact hI.downloads user (List.mem_of_mem_eraseIdx huser)

/-! ## Steps -/

/-- A map whose view has just been loaded holds what Firebase had cached. -/
theorem sourced_viewDidLoad {children : List (String × UserRecord K)} (filter : Option Bool)
    (friends : Option (List String)) (h : ∀ child ∈ children, Q child.1 child.2) :
    (viewDidLoad children filter friends : MapViewController K Image).Sourced M Q T :=
  ⟨h, h, by simp [viewDidLoad, fetchUsers], by simp [viewDidLoad, fetchUsers],
    by simp [viewDidLoad, fetchUsers]⟩

/-- The children after one has changed. -/
theorem sourced_replaceChild {key : String} {snapshot : UserRecord K}
    {children : List (String × UserRecord K)} (h : ∀ child ∈ children, Q child.1 child.2)
    (hnew : Q key snapshot) :
    ∀ child ∈ replaceChild key snapshot children, Q child.1 child.2 := by
  intro child hchild
  obtain ⟨old, hold, heq⟩ := List.mem_map.1 hchild
  split at heq
  · subst heq
    exact hnew
  · subst heq
    exact h old hold

/-- The children stay as they are, or those that Firebase reports with the event. -/
theorem Sourced.children_step {s s' : MapViewController K Image} {e : MapEvent K Image}
    (h : s.Sourced M Q T) (hs : MarkerStep M s e s')
    (hnew : ∀ child ∈ e.deliveries, Q child.1 child.2) :
    ∀ child ∈ s'.children, Q child.1 child.2 := by
  cases hs with
  | added key snapshot n he =>
    subst he
    exact List.forall_mem_append.2 ⟨h.children, hnew⟩
  | wanted key snapshot now n he | moved key snapshot now ref c he
    | hidden key snapshot now he =>
    subst he
    exact sourced_replaceChild h.children (hnew _ (List.mem_singleton.2 rfl))
  | left key he => exact fun child hchild => h.children child (List.mem_of_mem_filter hchild)
  | reported | fetched | inserted | failed => exact h.children

/-- The markers show snapshots that were reported for their keys. -/
theorem Sourced.annotations_step {s s' : MapViewController K Image} {e : MapEvent K Image}
    (h : s.Sourced M Q T) (hs : MarkerStep M s e s')
    (hnew : ∀ child ∈ e.deliveries, Q child.1 child.2)
    (htells : ∀ key now, s.TellsAge e key now → T key now) :
    ∀ marker ∈ s'.annotations, ∃ key, Decoded M Q key marker.user ∧ ShownBy M Q T key marker := by
  cases hs with
  | moved key snapshot now ref c he hpresent hmarker hcoord =>
    subst he
    -- the marker that moves is registered, so it is of the user whose child has changed
    intro marker hmem
    obtain ⟨i, hi⟩ := List.mem_iff_getElem?.1 hmem
    rw [List.getElem?_modify] at hi
    obtain ⟨old, hold, hmarker'⟩ := Option.map_eq_some_iff.1 hi
    obtain ⟨key', hdecoded, hshown⟩ := h.annotations old (List.mem_of_getElem? hold)
    by_cases href : ref = i
    · subst href
      have hkey : s.keyOf ref = some key := h.registered key ref hmarker
      rw [keyOf, hold, Option.bind_some, hdecoded.identifier] at hkey
      obtain rfl := Option.some.inj hkey
      rw [if_pos rfl] at hmarker'
      subst hmarker'
      exact ⟨key', hdecoded, snapshot, now, hnew _ (List.mem_singleton.2 rfl),
        htells key' now (.changed snapshot rfl), hcoord, rfl⟩
    · rw [if_neg href] at hmarker'
      subst hmarker'
      exact ⟨key', hdecoded, hshown⟩
  | inserted i image now user he huser =>
    refine List.forall_mem_append.2 ⟨h.annotations, fun marker hmarker => ?_⟩
    obtain rfl := List.mem_singleton.1 hmarker
    obtain ⟨key, hdecoded⟩ := h.downloads user (List.mem_of_getElem? huser)
    have hnow : T key now :=
      htells key now (.downloaded i image user he huser hdecoded.identifier)
    refine ⟨key, hdecoded, ?_⟩
    obtain ⟨snapshot, hQ, rfl, hcoord, -⟩ := hdecoded
    exact ⟨snapshot, now, hQ, hnow, hcoord, rfl⟩
  | added | reported | wanted | hidden | left | fetched | failed => exact h.annotations

/-- A step keeps the properties, if the snapshots and the time that it is given have them. -/
theorem Sourced.step {s s' : MapViewController K Image} {e : MapEvent K Image}
    (h : s.Sourced M Q T) (hstep : s.step M e = some s')
    (hnew : ∀ child ∈ e.deliveries, Q child.1 child.2)
    (htells : ∀ key now, s.TellsAge e key now → T key now) : s'.Sourced M Q T where
  children := h.children_step (markerStep_of_step hstep) hnew
  initialEvents := by
    cases markerStep_of_step hstep with
    | reported key snapshot rest n he hrest =>
      exact fun child hchild => h.initialEvents child (hrest ▸ List.mem_cons_of_mem _ hchild)
    | fetched => exact List.forall_mem_append.2 ⟨h.initialEvents, h.children⟩
    | _ => exact h.initialEvents
  downloads := h.downloads_step hstep hnew
  registered := by
    refine keyed_step h.registered (fun user huser => ?_) (markerStep_of_step hstep)
    obtain ⟨key, hdecoded⟩ := h.downloads user huser
    exact ⟨key, hdecoded.identifier⟩
  annotations := h.annotations_step (markerStep_of_step hstep) hnew htells

end MapViewController

end ConfFriends
