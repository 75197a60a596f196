import ConfFriends.MapView.Markers
import ConfFriends.TwitterFilter.Effects

/-!
# Whether the archived list is the list followed

Twitter serves the accounts that an account follows in pages, each with the cursor of the
next one. `setupTwitterFilter` requests the first page and archives it, if it is not
empty, and never asks for another page. So a longer list is cut off, and an account
that follows nobody any more keeps the list from before.

`FriendsService` is any such service, and `Lists` says what it serves from a request on.
`followsExactly_iff` gives the exact condition for the archive, and with it the filter of
the map, to be the list followed after a request has been answered.
-/

set_option linter.unusedSectionVars false

open Transition

namespace ConfFriends

variable {K Image : Type*} [LinearOrder K] [Zero K] [IntCast K] {P : Platform K}
  {M : MapPlatform Image}

/-! ## The service -/

/-- An answer of `friends/ids.json`. -/
structure FriendsIDsPage where
  ids : List String
  nextCursor : String

/-- The service. It answers a request for the account of its session. -/
structure FriendsService where
  page : FriendsIDsRequest → FriendsIDsPage

namespace FriendsService

/-- The pages from a request on, put end to end. The cursor `0` ends them. -/
inductive Lists (S : FriendsService) : FriendsIDsRequest → List String → Prop
  | last (request : FriendsIDsRequest) (hlast : (S.page request).nextCursor = "0") :
    Lists S request (S.page request).ids
  | next (request : FriendsIDsRequest) (rest : List String)
    (hnext : (S.page request).nextCursor ≠ "0")
    (hrest : Lists S { request with cursor := some (S.page request).nextCursor } rest) :
    Lists S request ((S.page request).ids ++ rest)

/-- The first page is part of the list. -/
theorem Lists.page_subset {S : FriendsService} {request : FriendsIDsRequest}
    {following : List String} (h : S.Lists request following) :
    (S.page request).ids ⊆ following := by
  cases h with
  | last hlast => exact List.Subset.refl _
  | next rest hnext hrest => exact List.subset_append_left _ _

end FriendsService

/-! ## The requests -/

namespace Process

/-- The requests of an operation are those of before, or ask for a first page. -/
def RequestsFirst (p p' : Process K Image) : Prop :=
  ∀ request ∈ p'.requests, request ∈ p.requests ∨ request.cursor = none

theorem requestsFirst_of_eq {p p' : Process K Image} (h : p'.requests = p.requests) :
    p.RequestsFirst p' :=
  fun _ hrequest => Or.inl (h ▸ hrequest)

theorem requestsFirst_finishWithCredentials (i : ℕ) (credentials : Option FCTwitterCredentials)
    (p : Process K Image) : p.RequestsFirst (p.finishWithCredentials i credentials) := by
  unfold finishWithCredentials
  dsimp only
  split
  · exact requestsFirst_of_eq rfl
  · exact requestsFirst_of_eq rfl
  · exact requestsFirst_of_eq rfl
  · intro request hrequest
    rcases List.mem_append.1 hrequest with hrequest | hrequest
    · exact Or.inl hrequest
    · obtain rfl := List.mem_singleton.1 hrequest
      exact Or.inr rfl

theorem requestsFirst_authorize (client : AuthorizationClient) (p : Process K Image) :
    p.RequestsFirst (p.authorize client) := by
  unfold RequestsFirst authorize cancel
  cases p.currentInstance with
  | none => exact requestsFirst_of_eq rfl
  | some i => exact requestsFirst_finishWithCredentials i none p

theorem requestsFirst_didSelectFilterRow (row : ℕ) (p : Process K Image) :
    p.RequestsFirst (p.didSelectFilterRow row) := by
  unfold didSelectFilterRow
  split_ifs
  · exact requestsFirst_of_eq rfl
  · exact p.requestsFirst_authorize _
  · exact requestsFirst_of_eq rfl
  · exact requestsFirst_of_eq rfl

theorem requests_friendsFetched (ids : Option (List String)) (p : Process K Image) :
    (p.friendsFetched ids).requests = p.requests := by
  unfold friendsFetched
  split <;> rfl

theorem requests_ofDevice {p q : Process K Image} {d : Device K} (h : p.ofDevice d = .running q) :
    q.requests = p.requests := by
  cases d with
  | terminated s => simp [ofDevice] at h
  | running a =>
    obtain rfl := Phone.running.inj h
    rfl

end Process

namespace Phone

/-- A step starts requests for a first page only. -/
theorem requestsFirst_step {p p' : Process K Image} {e : PhoneEvent K Image}
    (h : (running p).step P M e = some (running p')) : p.RequestsFirst p' := by
  simp only [step] at h
  cases e with
  | launch services locationKey children => simp [Process.handle] at h
  | device e =>
    simp only [Process.handle, Process.handleDevice, Option.ite_none_right_eq_some] at h
    obtain ⟨d, -, hd⟩ := Option.map_eq_some_iff.1 h.2
    cases d with
    | terminated s => simp at hd
    | running a =>
      obtain rfl := running.inj hd
      exact Process.requestsFirst_of_eq rfl
  | map e =>
    cases e with
    | ddfFilterChanged filter friends => simp [Process.handle] at h
    | _ =>
      obtain ⟨map, -, hmap⟩ := Option.map_eq_some_iff.1 h
      obtain rfl := running.inj hmap
      exact Process.requestsFirst_of_eq rfl
  | startTwitterAuthentication =>
    obtain rfl := running.inj (Option.some.inj h)
    exact p.requestsFirst_authorize _
  | didSelectFilterRow row =>
    simp only [Process.handle, Option.ite_none_right_eq_some, Option.some.injEq] at h
    obtain rfl := running.inj h.2
    exact p.requestsFirst_didSelectFilterRow row
  | setup =>
    simp only [Process.handle, Option.ite_none_right_eq_some, Option.some.injEq] at h
    obtain rfl := running.inj h.2
    exact Process.requestsFirst_authorize .setupTwitterFilter { p with setupFilterAlert := false }
  | cancelSetup =>
    simp only [Process.handle, Option.ite_none_right_eq_some, Option.some.injEq] at h
    obtain rfl := running.inj h.2
    exact Process.requestsFirst_of_eq rfl
  | authorizationFinished i token secret username =>
    obtain rfl := running.inj (Option.some.inj h)
    exact p.requestsFirst_finishWithCredentials i _
  | friendsFetched i ids =>
    simp only [Process.handle, Option.ite_none_right_eq_some, Option.some.injEq] at h
    obtain rfl := running.inj h.2
    intro request hrequest
    rw [Process.requests_friendsFetched] at hrequest
    exact Or.inl (List.mem_of_mem_eraseIdx hrequest)
  | friendsFailed i localizedDescription =>
    simp only [Process.handle, Option.ite_none_right_eq_some, Option.some.injEq] at h
    obtain rfl := running.inj h.2
    exact fun request hrequest => Or.inl (List.mem_of_mem_eraseIdx hrequest)
  | presentNameAlert =>
    have hp : p.presentNameAlert = running p' := Option.some.inj h
    refine Process.requestsFirst_of_eq ?_
    unfold Process.presentNameAlert at hp
    split at hp
    · exact Process.requests_ofDevice hp
    · obtain rfl := running.inj hp
      rfl
  | answerNameRead i uid snapshot =>
    simp only [Process.handle, Option.ite_none_right_eq_some, Option.some.injEq] at h
    obtain rfl := running.inj h.2
    exact Process.requestsFirst_of_eq rfl
  | saveName text =>
    simp only [Process.handle, Option.ite_none_right_eq_some, Option.some.injEq] at h
    have hrequests : p'.requests = p.requests :=
      Process.requests_ofDevice (p := { p with changeNameAlert := false }) h.2
    exact Process.requestsFirst_of_eq hrequests
  | cancelName =>
    simp only [Process.handle, Option.ite_none_right_eq_some, Option.some.injEq] at h
    obtain rfl := running.inj h.2
    exact Process.requestsFirst_of_eq rfl
  | selectCountry L row =>
    simp only [Process.handle, Option.ite_none_right_eq_some, Option.some.injEq] at h
    exact Process.requestsFirst_of_eq (Process.requests_ofDevice h.2)

/-- Every request of a run is for a first page. -/
theorem everyState_requestsFirst (users : Users K) (es : List (PhoneEvent K Image)) :
    EveryState (step P M)
      (fun _ p => ∀ q, p = running q → ∀ request ∈ q.requests, request.cursor = none)
      (installed users) es := by
  refine everyState_of_invariant (by simp [installed]) ?_ es
  rintro pre p e p' - hI h q' rfl request hrequest
  cases p with
  | terminated s prefs =>
    obtain ⟨services, locationKey, children, rfl, hlaunched⟩ := step_terminated h
    obtain rfl := running.inj hlaunched
    simp at hrequest
  | running q =>
    rcases requestsFirst_step h request hrequest with hbefore | hfirst
    · exact hI q rfl request hbefore
    · exact hfirst

theorem everyState_synced (users : Users K) (es : List (PhoneEvent K Image)) :
    EveryState (step P M) (fun _ p => p.Synced) (installed users) es :=
  everyState_of_invariant (by simp [installed, Synced]) (fun _ _ _ _ _ hI h => synced_step hI h) es

end Phone

/-! ## The list followed -/

/-- Nothing but the filter keeps the user off the map. -/
structure MapViewController.Placeable (s : MapViewController K Image) (user : DDFUser K) :
    Prop where
  hidden : ∀ key, user.identifier = some key → s.userAnnotations key = none
  latitude : user.latitude ≠ 0
  longitude : user.longitude ≠ 0
  avatar : user.avatar.isSome

namespace Process

/-- The archive holds exactly the accounts followed, and the filter admits exactly them. -/
structure FollowsExactly (following : List String) (p : Process K Image) : Prop where
  archived : ∀ id, id ∈ p.prefs.ddfTwitterFriends.getD [] ↔ id ∈ following
  admits : boolForKey p.map.ddfTwitterFriendFilter = true → ∀ user, p.map.Placeable user →
    ((p.map.addUserMarker user).downloads = p.map.downloads ++ [user] ↔
      ∃ id ∈ following, user.twitterID = some id)

end Process

/-- With the filter on, a user without another obstacle is downloaded iff it is a friend. -/
theorem MapViewController.Placeable.addUserMarker_iff {s : MapViewController K Image}
    {user : DDFUser K} (h : s.Placeable user)
    (hon : boolForKey s.ddfTwitterFriendFilter = true) :
    (s.addUserMarker user).downloads = s.downloads ++ [user] ↔
      s.containsFriend user.twitterID = true := by
  have hhidden : (user.identifier.any fun key => (s.userAnnotations key).isSome) = false := by
    cases hkey : user.identifier with
    | none => rfl
    | some key => simp [h.hidden key hkey]
  have hadmits : s.admits user = s.containsFriend user.twitterID := by
    unfold MapViewController.admits
    rw [hhidden, hon, Option.isNone_eq_false_iff.2 h.avatar]
    simp [h.latitude, h.longitude]
  rw [MapViewController.downloads_addUserMarker_iff, hadmits]

/-- The friends of a map are those of its list. -/
theorem MapViewController.containsFriend_iff {s : MapViewController K Image}
    {twitterID : Option String} :
    s.containsFriend twitterID = true ↔
      ∃ id ∈ s.twitterFriends.getD [], twitterID = some id := by
  unfold MapViewController.containsFriend
  cases s.twitterFriends with
  | none => simp
  | some friends =>
    cases twitterID with
    | none => simp
    | some id => simp

namespace Phone

/-- A map that filters by the archived list admits the accounts in it. -/
theorem Synced.followsExactly_iff_archived {p : Process K Image} (h : (running p).Synced)
    (following : List String) :
    p.FollowsExactly following ↔
      ∀ id, id ∈ p.prefs.ddfTwitterFriends.getD [] ↔ id ∈ following := by
  refine ⟨fun hexact => hexact.archived, fun harchived => ⟨harchived, ?_⟩⟩
  intro hon user hplaceable
  rw [hplaceable.addUserMarker_iff hon, MapViewController.containsFriend_iff, (h p rfl).2]
  simp only [harchived]

/-- The archive after the answer to a request : its friends, or what it was without any. -/
theorem archive_friendsFetched (ids : List String) (p : Process K Image) :
    (p.friendsFetched (some ids)).prefs.ddfTwitterFriends =
      if ids = [] then p.prefs.ddfTwitterFriends else some ids := by
  unfold Process.friendsFetched
  cases ids <;> rfl

/-- The answer to a request, which is for a first page : the archive is exact iff what it
holds then is. -/
theorem answered_iff {ids : List String} {users : Users K} {es : List (PhoneEvent K Image)}
    {p p' : Process K Image} {i : ℕ} {request : FriendsIDsRequest} (following : List String)
    (hp : exec (step P M) (installed users) es = some (running p))
    (hrequest : p.requests[i]? = some request)
    (h : (running p).step P M (.friendsFetched i (some ids)) = some (running p')) :
    { request with cursor := none } = request ∧
      (p'.FollowsExactly following ↔
        ∀ id, id ∈ (if ids = [] then p.prefs.ddfTwitterFriends else some ids).getD [] ↔
          id ∈ following) := by
  have hcursor : request.cursor = none :=
    (everyState_requestsFirst users es).last hp p rfl request (List.mem_of_getElem? hrequest)
  have hsynced : (running p').Synced := synced_step ((everyState_synced users es).last hp) h
  simp only [step, Process.handle, Option.ite_none_right_eq_some, Option.some.injEq] at h
  obtain rfl := running.inj h.2
  refine ⟨by rw [← hcursor], ?_⟩
  rw [hsynced.followsExactly_iff_archived, archive_friendsFetched]

/-- After a request has been answered the archive is the list followed iff the first page
is all of it, or is empty and the list was archived before. -/
theorem followsExactly_iff (S : FriendsService) (users : Users K)
    {es : List (PhoneEvent K Image)} {p p' : Process K Image} {i : ℕ}
    {request : FriendsIDsRequest} {following : List String}
    (hp : exec (step P M) (installed users) es = some (running p))
    (hrequest : p.requests[i]? = some request)
    (hlists : S.Lists { request with cursor := none } following)
    (h : (running p).step P M (.friendsFetched i (some (S.page request).ids)) =
      some (running p')) :
    p'.FollowsExactly following ↔
      if (S.page { request with cursor := none }).ids = [] then
        ∀ id, id ∈ p.prefs.ddfTwitterFriends.getD [] ↔ id ∈ following
      else following ⊆ (S.page { request with cursor := none }).ids := by
  obtain ⟨hfirst, hiff⟩ := answered_iff following hp hrequest h
  rw [hfirst] at hlists ⊢
  rw [hiff]
  split
  · exact Iff.rfl
  · rw [Option.getD_some]
    exact ⟨fun hall id hid => (hall id).2 hid,
      fun hsub id => ⟨fun hid => hlists.page_subset hid, fun hid => hsub hid⟩⟩

/-! ## Somebody who follows nobody any more -/

/-- A user sets the filter up, and later refreshes the list. -/
def refreshedList : List (PhoneEvent ℤ String) :=
  let provider : FIRUserInfo :=
    ⟨some "1", some "Twitterer", some "https://example.com/avatar.png"⟩
  [.launch ⟨true, .authorizedWhenInUse⟩ false [], .startTwitterAuthentication,
    .authorizationFinished 0 (some "token") (some "secret") (some "first"),
    .device (.signIn ⟨"token", "secret", some "first"⟩ (.user ⟨"a", [provider]⟩)),
    .device .dontShareLocation, .didSelectFilterRow 0, .setup,
    .authorizationFinished 0 (some "token") (some "secret") (some "first"),
    .friendsFetched 0 (some ["2"]), .didSelectFilterRow 1,
    .authorizationFinished 0 (some "token") (some "secret") (some "first")]

def refreshRequest : FriendsIDsRequest :=
  ⟨⟨"token", "secret", some "first"⟩, none, some "first", none, some "5000"⟩

/-- The account follows nobody any more. -/
def emptyService : FriendsService :=
  ⟨fun _ => ⟨[], "0"⟩⟩

/-- The account follows two others, on one page. -/
def pairService : FriendsService :=
  ⟨fun _ => ⟨["2", "3"], "0"⟩⟩

theorem followsExactly_pairService :
    ∃ p p' : Process ℤ String,
      exec (step Platform.flat MapViewController.samplePlatform) (installed fun _ => {})
        refreshedList = some (running p) ∧
      (p'.FollowsExactly ["2", "3"] ↔
        if (pairService.page { refreshRequest with cursor := none }).ids = [] then
          ∀ id, id ∈ p.prefs.ddfTwitterFriends.getD [] ↔ id ∈ ["2", "3"]
        else ["2", "3"] ⊆ (pairService.page { refreshRequest with cursor := none }).ids) :=
  ⟨_, _, rfl, followsExactly_iff (P := Platform.flat) (M := MapViewController.samplePlatform)
    (i := 0) pairService (fun _ => {})
    (show exec (step _ _) (installed fun _ => {}) refreshedList = some (running _) from rfl)
    (show _ = some refreshRequest from rfl) (.last _ rfl) rfl⟩

/-- The list from before stays in force. -/
theorem unfollowed_stay :
    ∃ p p' : Process ℤ String,
      exec (step Platform.flat MapViewController.samplePlatform) (installed fun _ => {})
        refreshedList = some (running p) ∧
      p.requests[0]? = some refreshRequest ∧
      emptyService.Lists { refreshRequest with cursor := none } [] ∧
      (running p).step Platform.flat MapViewController.samplePlatform
        (.friendsFetched 0 (some (emptyService.page refreshRequest).ids)) = some (running p') ∧
      ¬p'.FollowsExactly [] := by
  refine ⟨_, _, rfl, rfl, .last _ rfl, rfl, fun h => ?_⟩
  exact absurd ((h.archived "2").1 (by decide)) (by simp)

end Phone

end ConfFriends
