import ConfFriends.TwitterFilter

/-!
# What an event does to the filter

`ProcessStep` lists the effects that an event can have on a running process, one
constructor a kind of effect, and `processStep_of_step` is the inversion of `step`.

`FilterStep` reads them on the flag of the filter, the archive and the session : a user
signs in, the filter is turned on with the list there is, a list is archived, or at most
the filter is turned off and the user signed out. `synced_step` reads them on the map, which
always filters by the archived list.
-/

set_option linter.unusedSectionVars false

open Transition

namespace ConfFriends

variable {K Image : Type*} [LinearOrder K] [Zero K] [IntCast K] {P : Platform K}
  {M : MapPlatform Image}

/-! ## Reading events -/

/-- The uid that a completed sign-in signs in, unless a check signs it out again, and the
session that it signs in with. -/
def PhoneEvent.signsIn : PhoneEvent K Image → Option (String × FCTwitterCredentials)
  | .device e => e.signsIn.bind fun uid => e.completes.map fun credentials => (uid, credentials)
  | _ => none

/-- The event changes the name or the country of a record, if somebody is signed in. -/
def PhoneEvent.changesProfile : PhoneEvent K Image → Bool
  | .saveName text => text ≠ ""
  | .selectCountry _ _ => true
  | _ => false

namespace Phone

/-- The list that an event archives, and the session that has requested it. -/
def archives : Phone K Image → PhoneEvent K Image → Option (List String × FCTwitterCredentials)
  | .running p, .friendsFetched i ids =>
    if (ids.getD []).length ≠ 0 then
      p.requests[i]?.map fun request => (ids.getD [], request.oauth)
    else none
  | _, _ => none

/-- The row 'Enable Twitter Following Filter' is selected. -/
def enables (p : Phone K Image) : PhoneEvent K Image → Bool
  | .didSelectFilterRow _ => !p.filterOn && p.prefs.ddfTwitterFriends.isSome
  | _ => false

end Phone

/-! ## Authorizations -/

namespace Process

/-- An operation that is not about the filter or the session. -/
structure Keeps (p p' : Process K Image) : Prop where
  prefs : p'.prefs = p.prefs
  map : p'.map = p.map
  stored : p'.app.toStored = p.app.toStored

theorem keeps_finishWithCredentials (i : ℕ) (credentials : Option FCTwitterCredentials)
    (p : Process K Image) : p.Keeps (p.finishWithCredentials i credentials) := by
  unfold finishWithCredentials
  dsimp only
  split <;> exact ⟨rfl, rfl, rfl⟩

theorem keeps_cancel (p : Process K Image) : p.Keeps p.cancel := by
  unfold cancel
  cases p.currentInstance with
  | none => exact ⟨rfl, rfl, rfl⟩
  | some i => exact keeps_finishWithCredentials i none p

theorem keeps_authorize (client : AuthorizationClient) (p : Process K Image) :
    p.Keeps (p.authorize client) :=
  ⟨p.keeps_cancel.prefs, p.keeps_cancel.map, p.keeps_cancel.stored⟩

@[simp] theorem device_ofDevice (p : Process K Image) (d : Device K) :
    (p.ofDevice d).device = d := by
  cases d <;> rfl

@[simp] theorem prefs_ofDevice (p : Process K Image) (d : Device K) :
    (p.ofDevice d).prefs = p.prefs := by
  cases d <;> rfl

theorem map_ofDevice {p q : Process K Image} {d : Device K} (h : p.ofDevice d = .running q) :
    q.map = p.map := by
  cases d with
  | terminated s => simp [ofDevice] at h
  | running a =>
    obtain rfl := Phone.running.inj h
    rfl

end Process

/-! ## Effects -/

/-- The effects of an event on a running process. -/
inductive ProcessStep (P : Platform K) (M : MapPlatform Image) (p : Process K Image)
    (e : PhoneEvent K Image) : Phone K Image → Prop
  /-- An event of the device. -/
  | device (de : Event K) (p' : Phone K Image) (he : e = .device de)
    (hstep : (Device.running p.app).step P de = some p'.device) (hprefs : p'.prefs = p.prefs)
    (hmap : ∀ q, p' = .running q → q.map = p.map) : ProcessStep P M p e p'
  /-- An event of the map. -/
  | map (me : MapEvent K Image) (map : MapViewController K Image) (he : e = .map me)
    (hme : ∀ filter friends, me ≠ .ddfFilterChanged filter friends)
    (hstep : p.map.step M me = some map) : ProcessStep P M p e (.running { p with map := map })
  /-- An alert, an authorization, or a request that ends without a list. -/
  | keep (p' : Process K Image) (hsign : e.signsIn = none)
    (harchives : (Phone.running p).archives e = none)
    (henables : (Phone.running p).enables e = false) (hkeeps : p.Keeps p') :
    ProcessStep P M p e (.running p')
  /-- A handler that needs the uid of the current user raises. -/
  | raise (hsign : e.signsIn = none) (harchives : (Phone.running p).archives e = none)
    (henables : (Phone.running p).enables e = false) :
    ProcessStep P M p e (.terminated p.app.toStored p.prefs)
  /-- The name or the country of a record is changed, or the handler raises. -/
  | profile (d : Device K) (p' : Phone K Image) (hsign : e.signsIn = none)
    (harchives : (Phone.running p).archives e = none)
    (henables : (Phone.running p).enables e = false) (hchanges : e.changesProfile = true)
    (hstep : p.app.ProfileStep d) (hdevice : p'.device = d) (hprefs : p'.prefs = p.prefs)
    (hmap : ∀ q, p' = .running q → q.map = p.map) : ProcessStep P M p e p'
  | disable (row : ℕ) (he : e = .didSelectFilterRow row)
    (hon : boolForKey p.prefs.ddfTwitterFriendFilter = true) :
    ProcessStep P M p e (.running (p.setFilter false))
  | enable (row : ℕ) (he : e = .didSelectFilterRow row)
    (hoff : boolForKey p.prefs.ddfTwitterFriendFilter = false)
    (harchive : p.prefs.ddfTwitterFriends.isSome) :
    ProcessStep P M p e (.running (p.setFilter true))
  /-- A request is answered with friends. -/
  | archive (i : ℕ) (friends : List String) (request : FriendsIDsRequest)
    (he : e = .friendsFetched i (some friends)) (hfriends : friends.length ≠ 0)
    (hrequest : p.requests[i]? = some request) :
    ProcessStep P M p e (.running (Process.setFilter true { p with
      requests := p.requests.eraseIdx i
      prefs := { p.prefs with ddfTwitterFriends := some friends } }))

/-- The inversion of the row of the filter. -/
theorem processStep_didSelectFilterRow (p : Process K Image) (row : ℕ) :
    ProcessStep P M p (.didSelectFilterRow row) (.running (p.didSelectFilterRow row)) := by
  unfold Process.didSelectFilterRow
  split
  · next hon =>
    split
    · exact .disable row rfl hon
    · refine .keep _ rfl rfl ?_ (p.keeps_authorize _)
      simp [Phone.enables, Phone.filterOn, Phone.prefs, hon]
  · next hoff =>
    split
    · next harchive => exact .enable row rfl (by simpa using hoff) harchive
    · next hnone =>
      refine .keep _ rfl rfl ?_ ⟨rfl, rfl, rfl⟩
      simp only [Phone.enables, Phone.prefs, hnone, Bool.and_false]

/-- The inversion of the success block. -/
theorem processStep_friendsFetched {p : Process K Image} {i : ℕ} (hi : i < p.requests.length)
    (ids : Option (List String)) :
    ProcessStep P M p (.friendsFetched i ids)
      (.running (Process.friendsFetched ids { p with requests := p.requests.eraseIdx i })) := by
  unfold Process.friendsFetched
  split
  · next hids =>
    cases ids with
    | none => simp at hids
    | some friends =>
      exact .archive i friends (p.requests.get ⟨i, hi⟩) rfl hids (List.getElem?_eq_getElem hi)
  · next hids =>
    exact .keep _ rfl (by simp only [Phone.archives, hids, if_false]) rfl ⟨rfl, rfl, rfl⟩

/-- The inversion of `step` on a running process. -/
theorem processStep_of_step {p : Process K Image} {p' : Phone K Image} {e : PhoneEvent K Image}
    (h : (Phone.running p).step P M e = some p') : ProcessStep P M p e p' := by
  simp only [Phone.step] at h
  cases e with
  | launch services locationKey children => simp [Process.handle] at h
  | device e =>
    simp only [Process.handle, Process.handleDevice, Option.ite_none_right_eq_some] at h
    obtain ⟨d, hd, rfl⟩ := Option.map_eq_some_iff.1 h.2
    cases d with
    | terminated s => exact .device e _ rfl hd rfl (by simp)
    | running a =>
      refine .device e _ rfl hd rfl fun q hq => ?_
      obtain rfl := Phone.running.inj hq
      rfl
  | map e =>
    cases e with
    | ddfFilterChanged filter friends => simp [Process.handle] at h
    | _ =>
      obtain ⟨map, hstep, rfl⟩ := Option.map_eq_some_iff.1 h
      exact .map _ map rfl (by simp) hstep
  | startTwitterAuthentication =>
    obtain rfl := Option.some.inj h
    exact .keep _ rfl rfl rfl (p.keeps_authorize _)
  | didSelectFilterRow row =>
    simp only [Process.handle, Option.ite_none_right_eq_some, Option.some.injEq] at h
    obtain ⟨-, rfl⟩ := h
    exact processStep_didSelectFilterRow p row
  | setup =>
    simp only [Process.handle, Option.ite_none_right_eq_some, Option.some.injEq] at h
    obtain ⟨-, rfl⟩ := h
    have hkeeps :=
      Process.keeps_authorize .setupTwitterFilter { p with setupFilterAlert := false }
    exact .keep _ rfl rfl rfl ⟨hkeeps.prefs, hkeeps.map, hkeeps.stored⟩
  | cancelSetup =>
    simp only [Process.handle, Option.ite_none_right_eq_some, Option.some.injEq] at h
    obtain ⟨-, rfl⟩ := h
    exact .keep _ rfl rfl rfl ⟨rfl, rfl, rfl⟩
  | authorizationFinished i token secret username =>
    obtain rfl := Option.some.inj h
    exact .keep _ rfl rfl rfl (p.keeps_finishWithCredentials i _)
  | friendsFetched i ids =>
    simp only [Process.handle, Option.ite_none_right_eq_some, Option.some.injEq] at h
    obtain ⟨hi, rfl⟩ := h
    exact processStep_friendsFetched hi ids
  | friendsFailed i localizedDescription =>
    simp only [Process.handle, Option.ite_none_right_eq_some, Option.some.injEq] at h
    obtain ⟨-, rfl⟩ := h
    exact .keep _ rfl rfl rfl ⟨rfl, rfl, rfl⟩
  | presentNameAlert =>
    obtain rfl := Option.some.inj h
    unfold Process.presentNameAlert
    split
    · exact .raise rfl rfl rfl
    · exact .keep _ rfl rfl rfl ⟨rfl, rfl, rfl⟩
  | answerNameRead i uid snapshot =>
    simp only [Process.handle, Option.ite_none_right_eq_some, Option.some.injEq] at h
    obtain ⟨-, rfl⟩ := h
    exact .keep _ rfl rfl rfl ⟨rfl, rfl, rfl⟩
  | saveName text =>
    simp only [Process.handle, Option.ite_none_right_eq_some, Option.some.injEq] at h
    obtain ⟨-, rfl⟩ := h
    by_cases htext : text = ""
    · rw [App.saveName, if_pos htext]
      exact .keep _ rfl rfl rfl ⟨rfl, rfl, rfl⟩
    · have hchanges : (PhoneEvent.saveName text : PhoneEvent K Image).changesProfile = true :=
        decide_eq_true htext
      exact .profile _ _ rfl rfl rfl hchanges (App.profileStep_saveName htext p.app)
        (Process.device_ofDevice _ _) (Process.prefs_ofDevice _ _) fun _ => Process.map_ofDevice
  | cancelName =>
    simp only [Process.handle, Option.ite_none_right_eq_some, Option.some.injEq] at h
    obtain ⟨-, rfl⟩ := h
    exact .keep _ rfl rfl rfl ⟨rfl, rfl, rfl⟩
  | selectCountry L row =>
    simp only [Process.handle, Option.ite_none_right_eq_some, Option.some.injEq] at h
    obtain ⟨hrow, rfl⟩ := h
    exact .profile _ _ rfl rfl rfl rfl (App.profileStep_selectCountry hrow p.app)
      (Process.device_ofDevice _ _) (Process.prefs_ofDevice _ _) fun _ => Process.map_ofDevice

/-! ## The filter -/

/-- The effects of an event on the flag, the archive and the session. -/
inductive FilterStep (p : Phone K Image) (e : PhoneEvent K Image) (p' : Phone K Image) : Prop
  /-- The filter is turned off or the user signed out, at most. -/
  | keep (hsign : e.signsIn = none) (harchives : p.archives e = none)
    (henables : p.enables e = false)
    (harchive : p'.prefs.ddfTwitterFriends = p.prefs.ddfTwitterFriends)
    (hfilter : p'.filterOn = true → p.filterOn = true)
    (huser : ∀ uid, p'.currentUser = some uid → p.currentUser = some uid)
  /-- A user is signed in. -/
  | signIn (uid : String) (credentials : FCTwitterCredentials)
    (hsign : e.signsIn = some (uid, credentials)) (harchives : p.archives e = none)
    (henables : p.enables e = false) (hprefs : p'.prefs = p.prefs)
    (huser : p'.currentUser = some uid)
  /-- The filter is turned on with the list that is archived. -/
  | enable (hsign : e.signsIn = none) (harchives : p.archives e = none)
    (henables : p.enables e = true)
    (harchive : p'.prefs.ddfTwitterFriends = p.prefs.ddfTwitterFriends)
    (hfilter : p'.filterOn = true) (huser : p'.currentUser = p.currentUser)
  /-- A list is archived, and the filter turned on. -/
  | archive (friends : List String) (credentials : FCTwitterCredentials)
    (hsign : e.signsIn = none) (harchives : p.archives e = some (friends, credentials))
    (henables : p.enables e = false) (harchive : p'.prefs.ddfTwitterFriends = some friends)
    (hfilter : p'.filterOn = true) (huser : p'.currentUser = p.currentUser)

/-- An event of the device signs a user in, or leaves signed in who was. -/
theorem filterStep_device {p : Process K Image} {p' : Phone K Image} {e : Event K}
    (hstep : (Device.running p.app).step P e = some p'.device) (hprefs : p'.prefs = p.prefs) :
    FilterStep (.running p) (.device e) p' := by
  cases hsigns : e.signsIn with
  | none =>
    refine .keep (by simp [PhoneEvent.signsIn, hsigns]) rfl rfl ?_ ?_ ?_
    · rw [hprefs]
      rfl
    · rw [Phone.filterOn, hprefs]
      exact id
    · intro uid huser
      refine (Device.currentUser_step hstep huser).resolve_right ?_
      simp [hsigns]
  | some uid =>
    obtain ⟨credentials, hcompletes⟩ : ∃ credentials, e.completes = some credentials := by
      cases e with
      | signIn credentials result => exact ⟨credentials, rfl⟩
      | _ => simp [Event.signsIn] at hsigns
    exact .signIn uid credentials (by simp [PhoneEvent.signsIn, hsigns, hcompletes]) rfl rfl
      hprefs (Device.signsIn_step hstep hsigns)

/-- The inversion of `step` on the filter. -/
theorem filterStep_of_step {p p' : Phone K Image} {e : PhoneEvent K Image}
    (h : p.step P M e = some p') : FilterStep p e p' := by
  cases p with
  | terminated s prefs =>
    obtain ⟨services, locationKey, children, rfl, rfl⟩ := Phone.step_terminated h
    exact .keep rfl rfl rfl rfl id fun _ => id
  | running p =>
    cases processStep_of_step h with
    | device de p' he hstep hprefs hmap =>
      subst he
      exact filterStep_device hstep hprefs
    | map me map he hme hstep =>
      subst he
      exact .keep rfl rfl rfl rfl id fun _ => id
    | keep p' hsign harchives henables hkeeps =>
      refine .keep hsign harchives henables ?_ ?_ ?_
      · exact congrArg FilterPreferences.ddfTwitterFriends hkeeps.prefs
      · intro hon
        rw [Phone.filterOn, Phone.prefs, hkeeps.prefs] at hon
        exact hon
      · intro uid huser
        rw [Phone.currentUser, Phone.device, Device.stored_running, hkeeps.stored] at huser
        exact huser
    | raise hsign harchives henables => exact .keep hsign harchives henables rfl id fun _ => id
    | profile d p' hsign harchives henables hchanges hprofile hdevice hprefs hmap =>
      refine .keep hsign harchives henables ?_ ?_ ?_
      · rw [hprefs]
        rfl
      · rw [Phone.filterOn, hprefs]
        exact id
      · intro uid huser
        rw [Phone.currentUser, hdevice, hprofile.currentUser] at huser
        exact huser
    | disable row he hon =>
      subst he
      have henables : (Phone.running p).enables (.didSelectFilterRow row) = false := by
        simp [Phone.enables, Phone.filterOn, Phone.prefs, hon]
      exact .keep rfl rfl henables rfl (fun _ => hon) fun _ => id
    | enable row he hoff harchive =>
      subst he
      refine .enable rfl rfl ?_ rfl rfl rfl
      simp [Phone.enables, Phone.filterOn, Phone.prefs, hoff, harchive]
    | archive i friends request he hfriends hrequest =>
      subst he
      refine .archive friends request.oauth rfl ?_ rfl rfl rfl rfl
      simp [Phone.archives, hfriends, hrequest]

/-! ## The map -/

namespace Phone

/-- A running map filters by the flag and the archived list. -/
def Synced (p : Phone K Image) : Prop :=
  ∀ q, p = running q → q.map.ddfTwitterFriendFilter = q.prefs.ddfTwitterFriendFilter ∧
    q.map.twitterFriends = q.prefs.ddfTwitterFriends

theorem synced_step {p p' : Phone K Image} {e : PhoneEvent K Image} (hI : p.Synced)
    (h : p.step P M e = some p') : p'.Synced := by
  rintro q' rfl
  cases p with
  | terminated s prefs =>
    obtain ⟨services, locationKey, children, rfl, hlaunched⟩ := step_terminated h
    obtain rfl := running.inj hlaunched
    exact ⟨rfl, rfl⟩
  | running q =>
    obtain ⟨hfilter, hfriends⟩ := hI q rfl
    cases processStep_of_step h with
    | device de _ he hstep hprefs hmap =>
      have hprefs' : q'.prefs = q.prefs := hprefs
      rw [hprefs', hmap q' rfl]
      exact ⟨hfilter, hfriends⟩
    | map me map he hme hstep =>
      obtain ⟨hfilter', hfriends'⟩ := MapViewController.filter_step hstep hme
      exact ⟨hfilter'.trans hfilter, hfriends'.trans hfriends⟩
    | keep _ hsign harchives henables hkeeps =>
      rw [hkeeps.prefs, hkeeps.map]
      exact ⟨hfilter, hfriends⟩
    | profile _ _ hsign harchives henables hchanges hprofile hdevice hprefs hmap =>
      have hprefs' : q'.prefs = q.prefs := hprefs
      rw [hprefs', hmap q' rfl]
      exact ⟨hfilter, hfriends⟩
    | disable | enable | archive => exact ⟨rfl, rfl⟩

end Phone

end ConfFriends
