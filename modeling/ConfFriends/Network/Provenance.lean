import ConfFriends.MapView.Callouts
import ConfFriends.MapView.Provenance
import ConfFriends.Network.Whereabouts
import ConfFriends.Pods.TimeAgo

/-!
# Where the markers of the network come from

A record takes a long way to the map of a phone : one phone writes it, the server holds
it, Firebase reports it to others, sooner or later, their maps store the snapshot, start a
download with it and make a marker when the avatar is there. The theorems go the way back,
for any number of phones and along every interleaving.

A marker is where its user was at the start, or where a phone that was signed in as the
user has stored a fix that passed the filters, and the age in its subtitle is of the same
date as the coordinate (`marker_provenance`) and told in words that are true of it at the
time of an event for that user (`marker_tellsAge`). A tap on it opens the profile of a
Twitter account with which somebody has signed in as the user, unless the record is from the
start (`marker_opens`).
-/

set_option linter.unusedSectionVars false

open Transition

namespace ConfFriends

variable {ι K Image : Type*} [DecidableEq ι] [LinearOrder K] [Zero K] [IntCast K]
  {P : Platform K} {M : MapPlatform Image}

/-! ## The map of a phone -/

namespace Phone

variable {Q Q' : String → UserRecord K → Prop} {T T' : String → NSTimeInterval → Prop}

/-- The event puts an age into the subtitle of the user's marker, at the time. -/
def TellsAge (p : Phone K Image) (e : PhoneEvent K Image) (uid : String)
    (now : NSTimeInterval) : Prop :=
  ∃ q me, p = running q ∧ e = .map me ∧ q.map.TellsAge me uid now

/-- The snapshots and the times on the map of a running phone have the properties. -/
def MapSourced (M : MapPlatform Image) (Q : String → UserRecord K → Prop)
    (T : String → NSTimeInterval → Prop) (p : Phone K Image) : Prop :=
  ∀ q, p = running q → q.map.Sourced M Q T

theorem MapSourced.mono {p : Phone K Image} (h : p.MapSourced M Q T)
    (hQ : ∀ uid r, Q uid r → Q' uid r) (hT : ∀ uid now, T uid now → T' uid now) :
    p.MapSourced M Q' T' :=
  fun q hq => (h q hq).mono hQ hT

/-- What the server has is not what the map has. -/
theorem mapSourced_sees {p : Phone K Image} (server : Server K) (h : p.MapSourced M Q T) :
    (p.sees server).MapSourced M Q T := by
  intro q hq
  cases p with
  | terminated s prefs => simp [sees] at hq
  | running p =>
    obtain rfl := running.inj hq
    exact h p rfl

/-- A step keeps the properties of the map, if what Firebase reports with it and its time
have them. -/
theorem MapSourced.step {p p' : Phone K Image} {e : PhoneEvent K Image}
    (hI : p.MapSourced M Q T) (h : p.step P M e = some p')
    (hnew : ∀ child ∈ e.deliveries, Q child.1 child.2)
    (htells : ∀ uid now, p.TellsAge e uid now → T uid now) : p'.MapSourced M Q T := by
  rintro q' rfl
  cases p with
  | terminated s prefs =>
    obtain ⟨services, locationKey, children, rfl, hlaunched⟩ := step_terminated h
    obtain rfl := running.inj hlaunched
    exact MapViewController.sourced_viewDidLoad _ _ hnew
  | running q =>
    have hmap : q.map.Sourced M Q T := hI q rfl
    have hchange : ∀ filter friends map', q.map.step M (.ddfFilterChanged filter friends) =
        some map' → map'.Sourced M Q T := fun filter friends map' hstep =>
      hmap.step hstep (by simp [MapEvent.deliveries]) fun uid now htime => by
        cases htime with
        | changed _ he => cases he
        | downloaded _ _ _ he => cases he
    cases processStep_of_step h with
    | device de _ he hstep hprefs hkept => exact hkept q' rfl ▸ hmap
    | map me map he hme hstep =>
      subst he
      exact hmap.step hstep hnew fun uid now htime => htells uid now ⟨q, me, rfl, rfl, htime⟩
    | keep _ hsign harchives henables hkeeps => exact hkeeps.map ▸ hmap
    | profile _ _ hsign harchives henables hchanges hprofile hdevice hprefs hkept =>
      exact hkept q' rfl ▸ hmap
    | disable row he hon => exact hchange false q.prefs.ddfTwitterFriends _ rfl
    | enable row he hoff harchive => exact hchange true q.prefs.ddfTwitterFriends _ rfl
    | archive i friends request he hfriends hrequest => exact hchange true (some friends) _ rfl

end Phone

namespace Network

/-! ## Writes -/

/-- A phone that is signed in as the user stores a fix that passes the filters : what
fuzzing makes of it, with the time. -/
def Stores (P : Platform K) (uid : String) (seen : Sighting K)
    (n : Network ι K Image) (e : ι × PhoneEvent K Image) : Prop :=
  ∃ p clock arc4random fix, n.view e.1 = .running p ∧ e.2 = .device (.runBlock clock arc4random) ∧
    p.app.nextFix = some fix ∧ PassesFilters P clock fix p.app ∧
    p.app.currentUser = some uid ∧
    seen = ⟨(fuzzLocation P arc4random p.app.defaults fix).2, some clock.updatedAt⟩

/-- A user is put somewhere by storing a fix. -/
theorem stores_of_discloses {n : Network ι K Image} {e : ι × PhoneEvent K Image} {uid : String}
    {seen : Sighting K} (h : n.discloses P e = some (uid, some seen)) :
    Stores P uid seen n e := by
  obtain ⟨i, e⟩ := e
  obtain ⟨de, he, hde⟩ := Option.bind_eq_some_iff.1 h
  obtain ⟨w, hw, rfl, rfl⟩ := Device.discloses_eq_some_some hde
  obtain ⟨a, clock, arc4random, fix, hdevice, rfl, hfix, hpass, huser, hc, hdate⟩ :=
    Device.published_eq_some_iff.1 hw
  obtain rfl : e = .device (.runBlock clock arc4random) := by
    cases e with
    | device de => exact congrArg _ (Option.some.inj he)
    | _ => simp [PhoneEvent.deviceEvent] at he
  cases hview : n.view i with
  | terminated s prefs => simp [hview, Phone.device] at hdevice
  | running p =>
    obtain rfl : p.app = a := by simpa [hview, Phone.device] using hdevice
    refine ⟨p, clock, arc4random, fix, hview, rfl, hfix, hpass, huser, ?_⟩
    rw [LocationWrite.sighting, hc, hdate]

/-- A phone signs in as the user, with the Twitter account of the profile. -/
def SignsIn (uid : String) (profile : TwitterProfile) (_ : Network ι K Image)
    (e : ι × PhoneEvent K Image) : Prop :=
  ∃ de, e.2 = .device de ∧ de.profile = some (uid, profile)

/-- A profile is written by a sign-in. -/
theorem signsIn_of_writesProfile {n : Network ι K Image} {e : ι × PhoneEvent K Image}
    {uid : String} {profile : TwitterProfile} (h : n.writesProfile e = some (uid, profile)) :
    profile = {} ∨ SignsIn uid profile n e := by
  obtain ⟨i, e⟩ := e
  obtain ⟨de, he, hde⟩ := Option.bind_eq_some_iff.1 h
  refine (Device.profile_of_writesProfile hde).imp_right fun hprofile => ?_
  cases e with
  | device e =>
    obtain rfl := Option.some.inj he
    exact ⟨e, rfl, hprofile⟩
  | launch services locationKey children =>
    obtain rfl := Option.some.inj he
    simp [Event.profile] at hprofile
  | _ => simp [PhoneEvent.deviceEvent] at he

/-! ## Records -/

/-- What a record shows was there at the start or has been written. -/
structure Known (P : Platform K) (M : MapPlatform Image) (users : Users K)
    (pre : List (ι × PhoneEvent K Image)) (uid : String) (r : UserRecord K) : Prop where
  sighting : ∀ seen, r.sighting? = some seen → (users uid).sighting? = some seen ∨
    Happened (step P M) (Stores P uid seen) (installed users) pre
  profile : r.twitterProfile = (users uid).twitterProfile ∨ r.twitterProfile = {} ∨
    Happened (step P M) (SignsIn uid r.twitterProfile) (installed users) pre

theorem Known.snoc {users : Users K} {pre : List (ι × PhoneEvent K Image)} {uid : String}
    {r : UserRecord K} (h : Known P M users pre uid r) (e : ι × PhoneEvent K Image) :
    Known P M users (pre ++ [e]) uid r where
  sighting seen hseen := (h.sighting seen hseen).imp_right (Happened.snoc · e)
  profile := h.profile.imp_right fun hrest => hrest.imp_right (Happened.snoc · e)

/-- Every value of the database is known. -/
def ServerKnown (Q : String → UserRecord K → Prop) (server : Server K) : Prop :=
  ∀ users ∈ server.users :: server.past, ∀ uid, Q uid (users uid)

/-- A record is known, or what is left of one that loses its coordinate. -/
theorem ServerKnown.delivers {users : Users K} {pre : List (ι × PhoneEvent K Image)}
    {server : Server K} (h : ServerKnown (Known P M users pre) server) {key : String}
    {snapshot : UserRecord K} (hdelivers : server.delivers key snapshot = true) :
    Known P M users pre key snapshot := by
  obtain ⟨users', hmem, hsnapshot⟩ := List.any_eq_true.1 hdelivers
  have hknown := h users' hmem key
  rcases Bool.or_eq_true_iff.1 hsnapshot with heq | heq
  · obtain rfl := of_decide_eq_true heq
    exact hknown
  · -- without its latitude a record has no coordinate
    obtain rfl := of_decide_eq_true heq
    exact ⟨fun seen hseen => by simp [UserRecord.sighting?, UserRecord.coordinate?] at hseen,
      hknown.profile⟩

/-- A step leaves the database with known records. -/
theorem serverKnown_step {users : Users K} {pre : List (ι × PhoneEvent K Image)}
    {n n' : Network ι K Image} {e : ι × PhoneEvent K Image}
    (hpre : exec (step P M) (installed users) pre = some n) (h : n.step P M e = some n')
    (hI : ServerKnown (Known P M users pre) n.store) :
    ServerKnown (Known P M users (pre ++ [e])) n'.store := by
  have hpast : n'.store.past = n.store.users :: n.store.past := by
    rw [(networkStep_of_step (i := e.1) (e := e.2) h).store]
    rfl
  intro users' hmem uid
  rcases List.mem_cons.1 hmem with rfl | hold
  · have hknown := (hI _ List.mem_cons_self uid).snoc e
    refine ⟨fun seen hseen => ?_, ?_⟩
    · have hwritten : Register.write n.store.users.whereabouts (n.discloses P e) uid =
          some seen := by
        rw [← whereabouts_step h]
        exact hseen
      rcases Register.write_eq hwritten with hdiscloses | hkept
      · exact Or.inr (happened_last hpre h (stores_of_discloses hdiscloses))
      · exact hknown.sighting seen hkept
    · have hwritten : Register.write n.store.users.profiles (n.writesProfile e) uid =
          (n'.store.users uid).twitterProfile := by
        rw [← profiles_step h]
        rfl
      rcases Register.write_eq hwritten with hwrites | hkept
      · rcases signsIn_of_writesProfile hwrites with hempty | hsigns
        · exact Or.inr (Or.inl hempty)
        · exact Or.inr (Or.inr (happened_last hpre h hsigns))
      · rw [← hkept]
        exact hknown.profile
  · exact (hI users' (hpast ▸ hold) uid).snoc e

/-- A phone puts an age into the subtitle of the user's marker, at the time. -/
def TellsAge (i : ι) (uid : String) (now : NSTimeInterval) (n : Network ι K Image)
    (e : ι × PhoneEvent K Image) : Prop :=
  e.1 = i ∧ (n.view i).TellsAge e.2 uid now

/-- The phone has told an age at the time. -/
def Told (P : Platform K) (M : MapPlatform Image) (users : Users K)
    (pre : List (ι × PhoneEvent K Image)) (i : ι) (uid : String) (now : NSTimeInterval) : Prop :=
  Happened (step P M) (TellsAge i uid now) (installed users) pre

/-- Along every interleaving the maps of all phones show what is known, and tell ages at the
times of their events. -/
theorem everyState_known (users : Users K) (es : List (ι × PhoneEvent K Image)) :
    EveryState (step P M) (fun pre n => ∀ i,
      (n.party i).MapSourced M (Known P M users pre) (Told P M users pre i))
      (installed users) es := by
  have hall : EveryState (Parties.step (Phone.act P M)) (fun pre n =>
      ServerKnown (Known P M users pre) n.store ∧
        ∀ i, (n.party i).MapSourced M (Known P M users pre) (Told P M users pre i))
      (installed users) es := by
    refine Parties.everyState_of_parties
      (I := fun pre server => ServerKnown (Known P M users pre) server)
      (J := fun pre i p => Phone.MapSourced M (Known P M users pre) (Told P M users pre i) p)
      ?_ ?_ ?_ ?_ es
    · intro users' hmem uid
      obtain rfl := List.mem_singleton.1 hmem
      exact ⟨fun _ hseen => Or.inl hseen, Or.inl rfl⟩
    · exact fun i q hq => by simp [installed, Phone.installed] at hq
    · exact fun pre n e n' i p hpre h hp =>
        hp.mono (fun uid r hknown => hknown.snoc e) fun uid now htold => htold.snoc e
    · intro pre n i e n' hpre h hI hJ hact
      refine ⟨serverKnown_step hpre h hI, ?_⟩
      have hs := networkStep_of_step h
      have hmap : (view n i).MapSourced M (Known P M users (pre ++ [(i, e)]))
          (Told P M users (pre ++ [(i, e)]) i) :=
        Phone.mapSourced_sees n.store (hJ.mono (fun uid r hknown => hknown.snoc (i, e))
          fun uid now htold => htold.snoc (i, e))
      refine hmap.step hs.moves (fun child hchild => ?_) fun uid now htells => ?_
      · exact (hI.delivers (hs.delivers child hchild)).snoc (i, e)
      · exact happened_last hpre h ⟨rfl, htells⟩
  exact hall.mono fun pre n hn => hn.2

/-! ## Markers -/

/-- A marker of a known record shows where its user was at the start, or a fix that was
stored. -/
theorem sighting_of_shownBy {users : Users K} {pre : List (ι × PhoneEvent K Image)}
    {T : String → NSTimeInterval → Prop} {uid : String} {marker : UserMapAnnotation K Image}
    (h : MapViewController.ShownBy M (Known P M users pre) T uid marker) :
    ∃ date now, T uid now ∧ marker.subtitle = MapViewController.subtitle M date now ∧
      ((users uid).sighting? = some ⟨marker.coordinate, date⟩ ∨
        Happened (step P M) (Stores P uid ⟨marker.coordinate, date⟩) (installed users) pre) := by
  obtain ⟨snapshot, now, hknown, hnow, hcoord, hsubtitle⟩ := h
  refine ⟨snapshot.updatedAt, now, hnow, hsubtitle, hknown.sighting _ ?_⟩
  rw [UserRecord.sighting?, hcoord]
  rfl

/-- Along every interleaving each marker of each phone is where its user was at the start,
or where a phone that was signed in as the user has stored a fix, and its subtitle tells the
age of that. -/
theorem marker_provenance (users : Users K) (es : List (ι × PhoneEvent K Image)) :
    EveryState (step P M) (fun pre n => ∀ i p, n.party i = .running p →
        ∀ marker ∈ p.map.annotations, ∃ uid date now, marker.user.identifier = some uid ∧
          marker.subtitle = MapViewController.subtitle M date now ∧
          ((users uid).sighting? = some ⟨marker.coordinate, date⟩ ∨
            Happened (step P M) (Stores P uid ⟨marker.coordinate, date⟩) (installed users) pre))
      (installed users) es := by
  refine (everyState_known users es).mono fun pre n hn i p hp marker hmarker => ?_
  obtain ⟨uid, hdecoded, hshown⟩ := (hn i p hp).annotations marker hmarker
  obtain ⟨date, now, -, hsubtitle, hsighting⟩ := sighting_of_shownBy hshown
  exact ⟨uid, date, now, hdecoded.identifier, hsubtitle, hsighting⟩

/-- Along every interleaving a tap on a marker opens the profile of a Twitter account with
which a phone has signed in as the user, unless the marker is of a record from the start. -/
theorem marker_opens (users : Users K) (es : List (ι × PhoneEvent K Image)) :
    EveryState (step P M) (fun pre n => ∀ i p, n.party i = .running p →
        ∀ marker ∈ p.map.annotations, ∃ uid, marker.user.identifier = some uid ∧
          (marker.user.twitterID = (users uid).twitterID ∧
              marker.user.twitterUsername = (users uid).twitterUsername ∨
            ∃ avatar twitterID twitterUsername,
              Happened (step P M)
                (SignsIn uid ⟨some avatar, some twitterID, some twitterUsername⟩)
                (installed users) pre ∧
              ∀ schemes, marker.calloutTapped schemes =
                some (DDFUser.twitterProfileURL schemes twitterID twitterUsername)))
      (installed users) es := by
  refine (everyState_known users es).mono fun pre n hn i p hp marker hmarker => ?_
  obtain ⟨uid, hdecoded, -⟩ := (hn i p hp).annotations marker hmarker
  refine ⟨uid, hdecoded.identifier, ?_⟩
  obtain ⟨r, hknown, huser, -, havatar⟩ := hdecoded
  have hid : marker.user.twitterID = r.twitterProfile.twitterID := by rw [huser]; rfl
  have hname : marker.user.twitterUsername = r.twitterProfile.twitterUsername := by rw [huser]; rfl
  rcases hknown.profile with hstart | hempty | hsigns
  · refine Or.inl ⟨?_, ?_⟩
    · rw [hid, hstart]
      rfl
    · rw [hname, hstart]
      rfl
  · -- a marker has an avatar, so its record had a profile
    have hnone : r.avatar = none := congrArg TwitterProfile.avatar hempty
    rw [huser, DDFUser.initWithModelDictionary, hnone] at havatar
    simp at havatar
  · have hprofile : ∃ avatar twitterID twitterUsername,
        r.twitterProfile = ⟨some avatar, some twitterID, some twitterUsername⟩ := by
      obtain ⟨-, -, -, -, -, -, -, de, -, hde⟩ := hsigns
      exact Event.profile_eq_some hde
    obtain ⟨avatar, twitterID, twitterUsername, heq⟩ := hprofile
    rw [heq] at hsigns hid hname
    exact Or.inr ⟨avatar, twitterID, twitterUsername, hsigns,
      DDFUser.openProfile_of_eq_some hid hname⟩

end Network

end ConfFriends
