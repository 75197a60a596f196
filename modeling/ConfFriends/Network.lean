import ConfFriends.Transition.Parties
import ConfFriends.MapView.Provenance
import ConfFriends.TwitterFilter.Effects

/-!
# Phones in front of one database

The users of the app share one database. A `Network` is the server, with the database and
the accounts, and any number of phones, whose events come in any order. A write of a phone
reaches the server in the step that makes it. What Firebase reports to the map of a phone
can be late : it is a snapshot of some value that the database has had, and between the
two writes that remove a coordinate the latitude alone is gone.

`Network.networkStep_of_step` is the inversion of `step` : the phone that moves takes a
step of its own in front of the server, and the other phones stay as they are.
-/

set_option linter.unusedSectionVars false

open Transition

namespace ConfFriends

variable {ι K Image : Type*} [DecidableEq ι] [LinearOrder K] [Zero K] [IntCast K]
  {P : Platform K} {M : MapPlatform Image}

/-! ## The server -/

structure Server (K : Type*) where
  users : Users K
  deletedAccounts : List String := []
  /-- The values that the database had before. -/
  past : List (Users K) := []

namespace Server

/-- A snapshot of the node of `key` that Firebase can report. -/
def delivers (server : Server K) (key : String) (snapshot : UserRecord K) : Bool :=
  (server.users :: server.past).any fun users =>
    snapshot = users key || snapshot = { users key with latitude := none }

/-- The server after a step of a phone. -/
def after (server : Server K) (s : Stored K) : Server K where
  users := s.users
  deletedAccounts := s.deletedAccounts
  past := server.users :: server.past

end Server

/-! ## A phone in front of the server -/

/-- The stored state with what the server has. -/
def Stored.sees (server : Server K) (s : Stored K) : Stored K :=
  { s with users := server.users, deletedAccounts := server.deletedAccounts }

namespace Phone

/-- The phone with what the server has. -/
def sees (server : Server K) : Phone K Image → Phone K Image
  | .terminated s prefs => .terminated (s.sees server) prefs
  | .running p => .running { p with app := { p.app with toStored := p.app.sees server } }

@[simp] theorem stored_sees (server : Server K) (p : Phone K Image) :
    (p.sees server).device.stored = p.device.stored.sees server := by
  cases p <;> rfl

@[simp] theorem currentUser_sees (server : Server K) (p : Phone K Image) :
    (p.sees server).currentUser = p.currentUser := by
  rw [currentUser, stored_sees]
  rfl

end Phone

/-- The snapshots that Firebase reports with an event. -/
def PhoneEvent.deliveries : PhoneEvent K Image → List (String × UserRecord K)
  | .launch _ _ children => children
  | .map e => e.deliveries
  | .answerNameRead _ uid snapshot => [(uid, snapshot)]
  | _ => []

/-- An event of a phone in front of the server. -/
def Phone.act (P : Platform K) (M : MapPlatform Image) (server : Server K) (p : Phone K Image)
    (e : PhoneEvent K Image) : Option (Server K × Phone K Image) :=
  if e.deliveries.all fun child => server.delivers child.1 child.2 then
    ((p.sees server).step P M e).map fun p' => (server.after p'.device.stored, p')
  else none

/-! ## The network -/

/-- The phones, each under its own index. -/
abbrev Network (ι K Image : Type*) := Parties ι (Server K) (Phone K Image)

namespace Network

/-- One event, of one phone. -/
def step (P : Platform K) (M : MapPlatform Image) :
    Network ι K Image → ι × PhoneEvent K Image → Option (Network ι K Image) :=
  Parties.step (Phone.act P M)

/-- Phones with the app just installed, in front of a database. -/
def installed (users : Users K) : Network ι K Image where
  store := { users := users }
  party _ := Phone.installed users

/-- A phone, with what the server has. -/
def view (n : Network ι K Image) (i : ι) : Phone K Image :=
  (n.party i).sees n.store

@[simp] theorem currentUser_view (n : Network ι K Image) (i : ι) :
    (n.view i).currentUser = (n.party i).currentUser :=
  Phone.currentUser_sees n.store (n.party i)

@[simp] theorem users_view (n : Network ι K Image) (i : ι) :
    (n.view i).device.stored.users = n.store.users := by
  rw [view, Phone.stored_sees]
  rfl

@[simp] theorem deletedAccounts_view (n : Network ι K Image) (i : ι) :
    (n.view i).device.stored.deletedAccounts = n.store.deletedAccounts := by
  rw [view, Phone.stored_sees]
  rfl

/-- What an event of a phone does to the network. -/
structure NetworkStep (P : Platform K) (M : MapPlatform Image) (n : Network ι K Image) (i : ι)
    (e : PhoneEvent K Image) (n' : Network ι K Image) : Prop where
  delivers : ∀ child ∈ e.deliveries, n.store.delivers child.1 child.2 = true
  moves : (n.view i).step P M e = some (n'.party i)
  store : n'.store = n.store.after (n'.party i).device.stored
  others : ∀ j, j ≠ i → n'.party j = n.party j

/-- The inversion of an event in front of the server. -/
theorem act_eq_some {server server' : Server K} {p p' : Phone K Image} {e : PhoneEvent K Image}
    (h : p.act P M server e = some (server', p')) :
    (∀ child ∈ e.deliveries, server.delivers child.1 child.2 = true) ∧
      (p.sees server).step P M e = some p' ∧ server' = server.after p'.device.stored := by
  simp only [Phone.act, Option.ite_none_right_eq_some, List.all_eq_true] at h
  obtain ⟨hdelivers, hmap⟩ := h
  obtain ⟨q, hq, heq⟩ := Option.map_eq_some_iff.1 hmap
  obtain ⟨rfl, rfl⟩ := Prod.mk.inj heq
  exact ⟨hdelivers, hq, rfl⟩

/-- The inversion of `step`. -/
theorem networkStep_of_step {n n' : Network ι K Image} {i : ι} {e : PhoneEvent K Image}
    (h : n.step P M (i, e) = some n') : NetworkStep P M n i e n' := by
  obtain ⟨hact, hothers⟩ := Parties.step_cases h
  obtain ⟨hdelivers, hmoves, hstore⟩ := act_eq_some hact
  exact ⟨hdelivers, hmoves, hstore, hothers⟩

end Network

/-! ## The device of a phone -/

/-- The event of the device that an event of the phone is. -/
def PhoneEvent.deviceEvent : PhoneEvent K Image → Option (Event K)
  | .launch services locationKey _ => some (.launch services locationKey)
  | .device e => some e
  | _ => none

namespace Phone

/-- What the device of a running phone has stored changes by its own events, or by a change
of the name or the country. -/
theorem stored_of_deviceEvent_eq_none {p : Process K Image} {p' : Phone K Image}
    {e : PhoneEvent K Image} (h : (running p).step P M e = some p') (he : e.deviceEvent = none) :
    p'.device.stored = (running p).device.stored ∨ e.changesProfile = true ∧
      ∃ uid, (running p).device.stored.ProfileWrite uid p'.device.stored := by
  cases processStep_of_step h with
  | device de _ heq => simp [heq, PhoneEvent.deviceEvent] at he
  | keep p' hsign harchives henables hkeeps => exact Or.inl hkeeps.stored
  | profile d _ hsign harchives henables hchanges hprofile hdevice =>
    rw [hdevice]
    cases hprofile with
    | raise huser => exact Or.inl rfl
    | write uid a' hwrite => exact Or.inr ⟨hchanges, uid, hwrite⟩
  | map | raise | disable | enable | archive => exact Or.inl rfl

/-- The device of a phone takes a step of its own, has the name or the country of its user
changed, or keeps what it has stored. -/
theorem device_step {p p' : Phone K Image} {e : PhoneEvent K Image}
    (h : p.step P M e = some p') :
    (∃ de, e.deviceEvent = some de ∧ p.device.step P de = some p'.device) ∨
      e.deviceEvent = none ∧ (p'.device.stored = p.device.stored ∨ e.changesProfile = true ∧
        ∃ uid, p.device.stored.ProfileWrite uid p'.device.stored) := by
  cases p with
  | terminated s prefs =>
    obtain ⟨services, locationKey, children, rfl, rfl⟩ := step_terminated h
    exact Or.inl ⟨.launch services locationKey, rfl, rfl⟩
  | running p =>
    cases e with
    | launch services locationKey children => simp [step, Process.handle] at h
    | device de =>
      simp only [step, Process.handle, Process.handleDevice, Option.ite_none_right_eq_some] at h
      obtain ⟨d, hd, rfl⟩ := Option.map_eq_some_iff.1 h.2
      refine Or.inl ⟨de, rfl, ?_⟩
      cases d <;> exact hd
    | _ => exact Or.inr ⟨rfl, stored_of_deviceEvent_eq_none h rfl⟩

/-- With somebody signed in, a change of the name or the country writes to the record. -/
theorem profileWrite_of_changesProfile {p p' : Phone K Image} {e : PhoneEvent K Image}
    {uid : String} (h : p.step P M e = some p') (he : e.changesProfile = true)
    (huser : p.currentUser = some uid) : p.device.stored.ProfileWrite uid p'.device.stored := by
  cases p with
  | terminated s prefs =>
    obtain ⟨services, locationKey, children, rfl, -⟩ := step_terminated h
    simp [PhoneEvent.changesProfile] at he
  | running p =>
    have hprofile : p.app.ProfileStep p'.device := by
      cases e with
      | saveName text =>
        simp only [step, Process.handle, Option.ite_none_right_eq_some, Option.some.injEq] at h
        obtain ⟨-, rfl⟩ := h
        rw [Process.device_ofDevice]
        exact App.profileStep_saveName (of_decide_eq_true he) p.app
      | selectCountry L row =>
        simp only [step, Process.handle, Option.ite_none_right_eq_some, Option.some.injEq] at h
        obtain ⟨hrow, rfl⟩ := h
        rw [Process.device_ofDevice]
        exact App.profileStep_selectCountry hrow p.app
      | _ => simp [PhoneEvent.changesProfile] at he
    exact hprofile.profileWrite huser

end Phone

end ConfFriends
