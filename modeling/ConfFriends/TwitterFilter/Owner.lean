import ConfFriends.Transition.History
import ConfFriends.TwitterFilter.Effects
import ConfFriends.MapView.Markers

/-!
# Whose friends the filter shows

With the filter on, the archived list should be that of the account that is signed in.
But the flag and the archive belong to the phone and stay through a sign-out, so the
next account that signs in has its map filtered by the friends of the one before
(`another_account_signs_in`), and nothing compares the account of the set-up with the
one that is signed in. `ownFriends_iff` gives the exact condition on the three kinds of
steps that put a list in force : a sign-in, enabling, and an answer to a request.

`account` is the Twitter account that a session belongs to, in any type of accounts.
-/

set_option linter.unusedSectionVars false

open Transition

namespace ConfFriends.Phone

variable {K Image A : Type*} [LinearOrder K] [Zero K] [IntCast K] {P : Platform K}
  {M : MapPlatform Image} {account : FCTwitterCredentials → A}

/-! ## The past of a phone -/

/-- What has happened on a phone. -/
structure Past (A : Type*) where
  /-- The list that has been archived last, with the account whose session requested it. -/
  fetched : Option (List String × A) := none
  /-- The uid that has signed in last, with the account of its session. -/
  signedIn : Option (String × A) := none

/-- The past after an event. -/
def Past.next (account : FCTwitterCredentials → A) (p : Phone K Image) (e : PhoneEvent K Image)
    (past : Past A) : Past A where
  fetched := ((p.archives e).map (Prod.map id account)).or past.fetched
  signedIn := (e.signsIn.map (Prod.map id account)).or past.signedIn

/-- The past of a run. -/
def past (P : Platform K) (M : MapPlatform Image) (account : FCTwitterCredentials → A) :
    Phone K Image → List (PhoneEvent K Image) → Past A :=
  track (step P M) (Past.next account) {}

theorem past_snoc {p₀ p p' : Phone K Image} {pre : List (PhoneEvent K Image)}
    {e : PhoneEvent K Image} (hp : exec (step P M) p₀ pre = some p)
    (h : p.step P M e = some p') :
    past P M account p₀ (pre ++ [e]) = (past P M account p₀ pre).next account p e :=
  track_snoc (Past.next account) e pre {} p₀ hp h

/-! ## The list in force -/

/-- With the filter on and somebody signed in, the archived list was fetched for the
account that is signed in. -/
def OwnFriends (past : Past A) (p : Phone K Image) : Prop :=
  p.filterOn = true → ∀ uid, p.currentUser = some uid → ∃ friends a,
    p.prefs.ddfTwitterFriends = some friends ∧ past.fetched = some (friends, a) ∧
      past.signedIn = some (uid, a)

/-- The archive is the list fetched last, and who is signed in has signed in last. -/
structure Remembers (past : Past A) (p : Phone K Image) : Prop where
  archive : p.prefs.ddfTwitterFriends = past.fetched.map Prod.fst
  account : ∀ uid, p.currentUser = some uid → past.signedIn.map Prod.fst = some uid

/-- The last list was fetched for the account that has signed in last. -/
def Past.Owned (past : Past A) : Prop :=
  past.fetched.map Prod.snd = past.signedIn.map Prod.snd

/-- A list that an event puts in force was fetched for the account that is signed in
after it. -/
structure PutsOwn (account : FCTwitterCredentials → A) (past : Past A) (p : Phone K Image)
    (e : PhoneEvent K Image) : Prop where
  /-- The filter is on, and an account signs in. -/
  signsIn : ∀ uid credentials, e.signsIn = some (uid, credentials) → p.filterOn = true →
    past.fetched.map Prod.snd = some (account credentials)
  /-- The filter is enabled with the list there is. -/
  enables : p.enables e = true → p.currentUser.isSome → past.Owned
  /-- A list arrives. -/
  archives : ∀ friends credentials, p.archives e = some (friends, credentials) →
    p.currentUser.isSome → past.signedIn.map Prod.snd = some (account credentials)

/-- With somebody signed in, the list is the account's iff it was fetched for it. -/
theorem Remembers.ownFriends_iff_owned {p : Phone K Image} {past : Past A} (hI : p.Remembers past)
    (hfilter : p.filterOn = true) (huser : p.currentUser.isSome) :
    p.OwnFriends past ↔ past.Owned := by
  obtain ⟨uid, huid⟩ := Option.isSome_iff_exists.1 huser
  obtain ⟨⟨uid', a⟩, hsigned, rfl⟩ := Option.map_eq_some_iff.1 (hI.account uid huid)
  constructor
  · intro h
    obtain ⟨friends, a', -, hfetched, hsigned'⟩ := h hfilter uid' huid
    rw [Past.Owned, hfetched, hsigned']
    rfl
  · intro h _ uid hcurrent
    obtain rfl : uid' = uid := by simpa [huid] using hcurrent
    rw [Past.Owned, hsigned] at h
    obtain ⟨⟨friends, a'⟩, hfetched, rfl⟩ := Option.map_eq_some_iff.1 h
    refine ⟨friends, a', ?_, hfetched, hsigned⟩
    rw [hI.archive, hfetched]
    rfl

/-- A step keeps what the phone remembers. -/
theorem Remembers.step {p p' : Phone K Image} {e : PhoneEvent K Image} {past : Past A}
    (hI : p.Remembers past) (account : FCTwitterCredentials → A)
    (h : p.step P M e = some p') : p'.Remembers (past.next account p e) := by
  unfold Past.next
  cases filterStep_of_step h with
  | keep hsign harchives henables harchive hfilter huser =>
    rw [harchives, hsign]
    exact ⟨harchive.trans hI.archive, fun uid hin => hI.account uid (huser uid hin)⟩
  | signIn uid credentials hsign harchives henables hprefs huser =>
    rw [harchives, hsign]
    refine ⟨by rw [hprefs]; exact hI.archive, fun uid' hin => ?_⟩
    rw [huser] at hin
    exact hin
  | enable hsign harchives henables harchive hfilter huser =>
    rw [harchives, hsign]
    exact ⟨harchive.trans hI.archive, fun uid hin => hI.account uid (huser ▸ hin)⟩
  | archive friends credentials hsign harchives henables harchive hfilter huser =>
    rw [harchives, hsign]
    exact ⟨harchive, fun uid hin => hI.account uid (huser ▸ hin)⟩

/-- A step keeps the list in force that of the account, if it puts no other in force. -/
theorem OwnFriends.step {p p' : Phone K Image} {e : PhoneEvent K Image} {past : Past A}
    (hown : p.OwnFriends past) (hI : p.Remembers past) (h : p.step P M e = some p')
    (hok : PutsOwn account past p e) : p'.OwnFriends (past.next account p e) := by
  have hI' := hI.step account h
  intro hon uid hin
  have huser' : p'.currentUser.isSome := by simp [hin]
  refine (hI'.ownFriends_iff_owned hon huser').2 ?_ hon uid hin
  unfold Past.next
  cases filterStep_of_step h with
  | keep hsign harchives henables harchive hfilter huser =>
    rw [harchives, hsign]
    have hbefore : p.currentUser.isSome := by simp [huser uid hin]
    exact (hI.ownFriends_iff_owned (hfilter hon) hbefore).1 hown
  | signIn uid credentials hsign harchives henables hprefs huser =>
    rw [harchives, hsign]
    rw [filterOn, hprefs] at hon
    exact hok.signsIn uid credentials hsign hon
  | enable hsign harchives henables harchive hfilter huser =>
    rw [harchives, hsign]
    exact hok.enables henables (huser ▸ huser')
  | archive friends credentials hsign harchives henables harchive hfilter huser =>
    rw [harchives, hsign]
    exact (hok.archives friends credentials harchives (huser ▸ huser')).symm

/-- A step that puts the list of another account in force leaves it in force. -/
theorem putsOwn_of_ownFriends {p p' : Phone K Image} {e : PhoneEvent K Image} {past : Past A}
    (hI : p.Remembers past) (h : p.step P M e = some p')
    (hown : p'.OwnFriends (past.next account p e)) : PutsOwn account past p e := by
  have hI' := hI.step account h
  have howned : p'.filterOn = true → p'.currentUser.isSome → (past.next account p e).Owned :=
    fun hon huser => (hI'.ownFriends_iff_owned hon huser).1 hown
  unfold Past.next at howned
  have hs := filterStep_of_step h
  constructor
  · intro uid credentials hsigns hon
    cases hs with
    | signIn uid' credentials' hsign harchives henables hprefs huser =>
      obtain ⟨rfl, rfl⟩ : uid' = uid ∧ credentials' = credentials := by
        simpa [hsign] using hsigns
      rw [harchives, hsign] at howned
      exact howned (by rw [filterOn, hprefs]; exact hon) (by simp [huser])
    | _ => simp_all
  · intro henables hin
    cases hs with
    | enable hsign harchives _ harchive hfilter huser =>
      rw [harchives, hsign] at howned
      exact howned hfilter (huser ▸ hin)
    | _ => simp_all
  · intro friends credentials harchives hin
    cases hs with
    | archive friends' credentials' hsign harchives' henables harchive hfilter huser =>
      obtain ⟨rfl, rfl⟩ : friends' = friends ∧ credentials' = credentials := by
        simpa [harchives'] using harchives
      rw [harchives', hsign] at howned
      exact (howned hfilter (huser ▸ hin)).symm
    | _ => simp_all

/-- Along a run the list in force is the signed-in account's, and the map filters by it,
iff every step that puts a list in force puts the account's own. -/
theorem ownFriends_iff (account : FCTwitterCredentials → A) (users : Users K)
    (es : List (PhoneEvent K Image)) :
    EveryState (step P M)
        (fun pre p => p.OwnFriends (past P M account (installed users) pre) ∧ p.Synced)
        (installed users) es ↔
      EveryStep (step P M)
        (fun pre p e _ => PutsOwn account (past P M account (installed users) pre) p e)
        (installed users) es := by
  refine everyState_iff_everyStep
    (I := fun pre p => p.OwnFriends (past P M account (installed users) pre) ∧
      p.Remembers (past P M account (installed users) pre) ∧ p.Synced) ?_ ?_ ?_ ?_ es
  · refine ⟨fun hon => by simp [installed, filterOn, prefs] at hon, ⟨rfl, ?_⟩, ?_⟩
    · exact fun uid huid => by simp [installed, currentUser, device] at huid
    · simp [installed, Synced]
  · exact fun _ _ hI => ⟨hI.1, hI.2.2⟩
  · rintro pre p e p' hp ⟨hown, hI, hsynced⟩ h hok
    rw [past_snoc hp h]
    exact ⟨hown.step hI h hok, hI.step account h, synced_step hsynced h⟩
  · rintro pre p e p' hp ⟨-, hI, -⟩ h hbad ⟨hown, -⟩
    rw [past_snoc hp h] at hown
    exact hbad (putsOwn_of_ownFriends hI h hown)

/-! ## The next account -/

/-- One account signs in, sets the filter up and signs out, and another one signs in. -/
def nextAccount : List (PhoneEvent ℤ String) :=
  let provider : FIRUserInfo :=
    ⟨some "1", some "Twitterer", some "https://example.com/avatar.png"⟩
  [.launch ⟨true, .authorizedWhenInUse⟩ false [], .startTwitterAuthentication,
    .authorizationFinished 0 (some "token") (some "secret") (some "first"),
    .device (.signIn ⟨"token", "secret", some "first"⟩ (.user ⟨"a", [provider]⟩)),
    .device .dontShareLocation, .didSelectFilterRow 0, .setup,
    .authorizationFinished 0 (some "token") (some "secret") (some "first"),
    .friendsFetched 0 (some ["2"]), .device .signoutUser, .startTwitterAuthentication,
    .authorizationFinished 0 (some "token'") (some "secret'") (some "second"),
    .device (.signIn ⟨"token'", "secret'", some "second"⟩ (.user ⟨"b", [provider]⟩))]

/-- The map of the second account is filtered by the friends of the first. -/
theorem another_account_signs_in :
    ¬EveryState (step Platform.flat MapViewController.samplePlatform)
      (fun pre p => p.OwnFriends (past Platform.flat MapViewController.samplePlatform
        (·.username) (installed fun _ => {}) pre) ∧ p.Synced)
      (installed fun _ => {}) nextAccount := by
  intro hall
  obtain ⟨friends, owner, -, hfetched, hsigned⟩ := (hall.last rfl).1 rfl "b" rfl
  obtain rfl : some "first" = owner := congrArg Prod.snd (Option.some.inj hfetched)
  exact absurd hsigned (by decide)

end ConfFriends.Phone
