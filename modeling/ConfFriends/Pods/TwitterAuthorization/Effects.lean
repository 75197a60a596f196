import ConfFriends.Pods.TwitterAuthorization

/-!
# What a step does to an authorization

A step adds an instance, finishes one, moves one on to its next block, or raises
(`authorizationStep_of_step`). `completionOf` reads off the completions that have not been
called : a new instance has one, and only finishing takes one away.
-/

set_option linter.unusedSectionVars false

namespace ConfFriends.Pods

variable {C : Type*}

/-- The instance whose block an event runs. -/
def AuthorizationEvent.index : AuthorizationEvent C → Option ℕ
  | .openURLCompleted i _ | .dataTaskCompleted i _ _ _ | .authenticationSessionCompleted i _ _ =>
    some i
  | _ => none

/-- The clients of the authorizations that are started. -/
def AuthorizationEvent.client : AuthorizationEvent C → Option C
  | .authorize client _ => some client
  | _ => none

namespace Authorizations

/-- The completion of the `i`-th instance, if it has not been called. -/
def completionOf (s : Authorizations C) (i : ℕ) : Option C :=
  s.instances[i]?.bind (·.completion)

/-! ## The instances after an operation -/

@[simp] theorem length_finishWithCredentials (i : ℕ) (a : FCTwitterAuthorization C)
    (creds : Option FCTwitterCredentials) (s : Authorizations C) :
    (s.finishWithCredentials i a creds).instances.length = s.instances.length :=
  List.length_set

@[simp] theorem length_set (i : ℕ) (a : FCTwitterAuthorization C) (s : Authorizations C) :
    (s.set i a).instances.length = s.instances.length :=
  List.length_set

@[simp] theorem completionOf_raise (s : Authorizations C) (j : ℕ) :
    s.raise.completionOf j = s.completionOf j :=
  rfl

theorem completionOf_of_length_le {s : Authorizations C} {i : ℕ} (h : s.instances.length ≤ i) :
    s.completionOf i = none := by
  rw [completionOf, List.getElem?_eq_none h, Option.bind_none]

theorem completionOf_finish_self (i : ℕ) (a : FCTwitterAuthorization C)
    (creds : Option FCTwitterCredentials) (s : Authorizations C) :
    (s.finishWithCredentials i a creds).completionOf i = none := by
  unfold finishWithCredentials completionOf
  rw [List.getElem?_set_self']
  cases s.instances[i]? <;> rfl

theorem completionOf_finish_of_ne {i j : ℕ} (h : i ≠ j) (a : FCTwitterAuthorization C)
    (creds : Option FCTwitterCredentials) (s : Authorizations C) :
    (s.finishWithCredentials i a creds).completionOf j = s.completionOf j := by
  unfold finishWithCredentials completionOf
  rw [List.getElem?_set_ne h]

theorem completionOf_set {i : ℕ} {a a' : FCTwitterAuthorization C} {s : Authorizations C}
    (ha : s.instances[i]? = some a) (h : a'.completion = a.completion) (j : ℕ) :
    (s.set i a').completionOf j = s.completionOf j := by
  unfold set completionOf
  rcases eq_or_ne i j with rfl | hne
  · rw [List.getElem?_set_self', ha]
    exact h
  · rw [List.getElem?_set_ne hne]

theorem cancel_of_current {s : Authorizations C} {i : ℕ} {a : FCTwitterAuthorization C}
    (h : s.current = some (i, a)) : s.cancel = s.finishWithCredentials i a none := by
  rw [cancel, h]
  rfl

theorem cancel_of_not_current {s : Authorizations C} (h : s.current = none) : s.cancel = s := by
  rw [cancel, h]
  rfl

theorem current_eq_some_iff {s : Authorizations C} {i : ℕ} {a : FCTwitterAuthorization C} :
    s.current = some (i, a) ↔ s.currentInstance = some i ∧ s.instances[i]? = some a := by
  unfold current
  constructor
  · intro h
    obtain ⟨j, hj, h⟩ := Option.bind_eq_some_iff.1 h
    obtain ⟨b, hb, heq⟩ := Option.map_eq_some_iff.1 h
    obtain ⟨rfl, rfl⟩ := Prod.mk.inj heq
    exact ⟨hj, hb⟩
  · rintro ⟨hi, ha⟩
    simp [hi, ha]

theorem length_cancel (s : Authorizations C) : s.cancel.instances.length = s.instances.length := by
  cases h : s.current with
  | none => rw [cancel_of_not_current h]
  | some p => rw [cancel_of_current h, length_finishWithCredentials]

/-- Cancelling takes the completion of the current instance. -/
theorem completionOf_cancel (s : Authorizations C) (j : ℕ) :
    s.cancel.completionOf j = if s.currentInstance = some j then none else s.completionOf j := by
  cases h : s.current with
  | none =>
    rw [cancel_of_not_current h]
    split
    · next hj =>
      have hnone : s.instances[j]? = none := by simpa [current, hj] using h
      rw [completionOf, hnone, Option.bind_none]
    · rfl
  | some p =>
    obtain ⟨i, a⟩ := p
    obtain ⟨hi, ha⟩ := current_eq_some_iff.1 h
    rw [cancel_of_current h, hi]
    rcases eq_or_ne i j with rfl | hne
    · rw [completionOf_finish_self, if_pos rfl]
    · rw [completionOf_finish_of_ne hne, if_neg fun hij => hne (Option.some.inj hij)]

/-- A new instance has its completion, and the current one has lost it. -/
theorem completionOf_authorize (client : C) (canOpenURL : Bool) (s : Authorizations C) (j : ℕ) :
    (s.authorize client canOpenURL).completionOf j =
      if j = s.instances.length then some client else s.cancel.completionOf j := by
  unfold authorize completionOf
  dsimp only
  rcases lt_trichotomy j s.instances.length with hlt | rfl | hgt
  · rw [List.getElem?_append_left (by rwa [length_cancel]), if_neg hlt.ne]
  · rw [List.getElem?_append_right (by rw [length_cancel]), length_cancel, Nat.sub_self, if_pos rfl]
    cases canOpenURL <;> rfl
  · have hout : s.instances.length + 1 ≤ j := hgt
    rw [List.getElem?_eq_none (by simpa [length_cancel] using hout), if_neg hgt.ne',
      List.getElem?_eq_none (by rw [length_cancel]; exact hgt.le)]

theorem length_authorize (client : C) (canOpenURL : Bool) (s : Authorizations C) :
    (s.authorize client canOpenURL).instances.length = s.instances.length + 1 := by
  simp [authorize, length_cancel]

/-! ## Steps -/

variable {removingPercentEncoding : String → Option String}

/-- The block that follows one that does not finish its instance. -/
inductive NextBlock : AuthorizationEvent C → Block → Option Block → Prop
  | opened (i : ℕ) : NextBlock (.openURLCompleted i true) .openURL none
  | notOpened (i : ℕ) :
    NextBlock (.openURLCompleted i false) .openURL (some (.requestToken {}))
  | answered (i : ℕ) (oauth : FCBasicOAuthConsumer) (data : Option String) :
    NextBlock (.dataTaskCompleted i data false 200) (.requestToken oauth)
      (some (.authenticationSession (oauth.addAuthorizationResponse data)))
  | authorized (i : ℕ) (oauth : FCBasicOAuthConsumer) (url : NSURL) :
    NextBlock (.authenticationSessionCompleted i (some url) false) (.authenticationSession oauth)
      (some (.accessToken (oauth.addAuthorizedResponseCallbackURL url)))
  /-- A task of no session. -/
  | stopped (i : ℕ) (oauth : FCBasicOAuthConsumer) (url : NSURL) :
    NextBlock (.authenticationSessionCompleted i (some url) false) (.authenticationSession oauth)
      none

/-- The credentials that a block finishes its instance with. -/
inductive BlockCredentials : AuthorizationEvent C → Block → Option FCTwitterCredentials → Prop
  | failed (e : AuthorizationEvent C) (block : Block) : BlockCredentials e block none
  | answered (i : ℕ) (oauth : FCBasicOAuthConsumer) (data : Option String) :
    BlockCredentials (.dataTaskCompleted i data false 200) (.accessToken oauth)
      (oauth.addAuthorizationResponse data).credentials

variable (removingPercentEncoding) in
/-- What the step of an event does. -/
inductive AuthorizationStep (s : Authorizations C) : AuthorizationEvent C → Authorizations C → Prop
  | started (client : C) (canOpenURL : Bool) :
    AuthorizationStep s (.authorize client canOpenURL) (s.authorize client canOpenURL)
  | cancelled : AuthorizationStep s .cancel s.cancel
  /-- A callback URL that nobody waits for. -/
  | ignored (url : NSURL) (hcurrent : s.current = none) :
    AuthorizationStep s (.callbackURLReceived url) s
  /-- The Twitter app has answered the current instance. -/
  | received (url : NSURL) (i : ℕ) (a : FCTwitterAuthorization C) (params : Dictionary String)
    (hcurrent : s.current = some (i, a))
    (hparams : callbackParams removingPercentEncoding url.host = some params) :
    AuthorizationStep s (.callbackURLReceived url) (s.finishWithCredentials i a
      (FCTwitterCredentials.credentialsWithToken (params "token") (params "secret")
        (params "username")))
  | raised (e : AuthorizationEvent C) (hclient : e.client = none) :
    AuthorizationStep s e s.raise
  /-- A block of an instance ends, and the instance goes on. -/
  | advanced (e : AuthorizationEvent C) (i : ℕ) (a a' : FCTwitterAuthorization C) (block : Block)
    (hindex : e.index = some i) (ha : s.instances[i]? = some a) (hblock : a.block = some block)
    (hnext : NextBlock e block a'.block) (hcompletion : a'.completion = a.completion) :
    AuthorizationStep s e (s.set i a')
  /-- A block of an instance ends, and the instance finishes. -/
  | finished (e : AuthorizationEvent C) (i : ℕ) (a : FCTwitterAuthorization C)
    (block : Block) (creds : Option FCTwitterCredentials) (hindex : e.index = some i)
    (ha : s.instances[i]? = some a) (hblock : a.block = some block)
    (hcreds : BlockCredentials e block creds) :
    AuthorizationStep s e (s.finishWithCredentials i { a with block := none } creds)

/-- A block that has run is the one its instance waited for. -/
theorem runBlock_eq_some {s s' : Authorizations C} {i : ℕ}
    {f : FCTwitterAuthorization C → Block → Option (Authorizations C)}
    (h : s.runBlock i f = some s') :
    ∃ a block, s.instances[i]? = some a ∧ a.block = some block ∧ f a block = some s' := by
  obtain ⟨a, ha, h⟩ := Option.bind_eq_some_iff.1 h
  obtain ⟨block, hblock, h⟩ := Option.bind_eq_some_iff.1 h
  exact ⟨a, block, ha, hblock, h⟩

theorem authorizationStep_of_callbackURLReceived (s : Authorizations C) (url : NSURL) :
    AuthorizationStep removingPercentEncoding s (.callbackURLReceived url)
      (s.callbackURLReceived removingPercentEncoding url) := by
  unfold callbackURLReceived
  split
  · next hcurrent => exact .ignored url hcurrent
  · next i a hcurrent =>
    split
    · exact .raised _ rfl
    · next params hparams => exact .received url i a params hcurrent hparams

theorem answered_eq_true {error : Bool} {statusCode : ℕ} {oauth : FCBasicOAuthConsumer}
    (h : answered error statusCode oauth = true) : error = false ∧ statusCode = 200 := by
  simp only [answered, Bool.and_eq_true, Bool.not_eq_true', decide_eq_true_eq] at h
  exact h.1

theorem authorizationStep_of_authenticationSessionCompleted {s : Authorizations C} {i : ℕ}
    {a : FCTwitterAuthorization C} {oauth : FCBasicOAuthConsumer} (ha : s.instances[i]? = some a)
    (hblock : a.block = some (.authenticationSession oauth)) (callbackURL : Option NSURL)
    (error : Bool) :
    AuthorizationStep removingPercentEncoding s
      (.authenticationSessionCompleted i callbackURL error)
      (s.authenticationSessionCompleted i a oauth callbackURL error) := by
  unfold authenticationSessionCompleted
  split
  · exact .finished _ i a _ none rfl ha hblock (.failed _ _)
  · next url =>
    split
    · exact .finished _ i a _ none rfl ha hblock (.failed _ _)
    · next hok =>
      obtain ⟨rfl, -⟩ : error = false ∧ denied url = false := by simpa using hok
      unfold authorizeOAuthConsumer
      dsimp only
      split
      · exact .raised _ rfl
      · exact .raised _ rfl
      · exact .advanced _ i a _ _ rfl ha hblock (.authorized i oauth url) rfl
      · exact .advanced _ i a _ _ rfl ha hblock (.stopped i oauth url) rfl

theorem authorizationStep_of_openURLCompleted {s : Authorizations C} {i : ℕ}
    {a : FCTwitterAuthorization C} (ha : s.instances[i]? = some a)
    (hblock : a.block = some .openURL) (success : Bool) :
    AuthorizationStep removingPercentEncoding s (.openURLCompleted i success)
      (s.openURLCompleted i a success) := by
  cases success with
  | true => exact .advanced _ i a _ _ rfl ha hblock (.opened i) rfl
  | false => exact .advanced _ i a _ _ rfl ha hblock (.notOpened i) rfl

theorem authorizationStep_of_requestTokenCompleted {s : Authorizations C} {i : ℕ}
    {a : FCTwitterAuthorization C} {oauth : FCBasicOAuthConsumer} (ha : s.instances[i]? = some a)
    (hblock : a.block = some (.requestToken oauth)) (data : Option String) (error : Bool)
    (statusCode : ℕ) :
    AuthorizationStep removingPercentEncoding s (.dataTaskCompleted i data error statusCode)
      (s.requestTokenCompleted i a oauth data error statusCode) := by
  unfold requestTokenCompleted
  dsimp only
  split
  · next hanswered =>
    obtain ⟨rfl, rfl⟩ := answered_eq_true hanswered
    exact .advanced _ i a _ _ rfl ha hblock (.answered i oauth data) rfl
  · exact .finished _ i a _ none rfl ha hblock (.failed _ _)

theorem authorizationStep_of_accessTokenCompleted {s : Authorizations C} {i : ℕ}
    {a : FCTwitterAuthorization C} {oauth : FCBasicOAuthConsumer} (ha : s.instances[i]? = some a)
    (hblock : a.block = some (.accessToken oauth)) (data : Option String) (error : Bool)
    (statusCode : ℕ) :
    AuthorizationStep removingPercentEncoding s (.dataTaskCompleted i data error statusCode)
      (s.accessTokenCompleted i a oauth data error statusCode) := by
  unfold accessTokenCompleted
  dsimp only
  split
  · next hanswered =>
    obtain ⟨rfl, rfl⟩ := answered_eq_true hanswered
    exact .finished _ i a _ _ rfl ha hblock (.answered i oauth data)
  · exact .finished _ i a _ none rfl ha hblock (.failed _ _)

theorem authorizationStep_of_step {s s' : Authorizations C} {e : AuthorizationEvent C}
    (h : step removingPercentEncoding s e = some s') :
    s.raised = false ∧ AuthorizationStep removingPercentEncoding s e s' := by
  unfold step at h
  split at h
  · simp at h
  · next hraised =>
    refine ⟨by simpa using hraised, ?_⟩
    cases e with
    | authorize client canOpenURL =>
      obtain rfl := Option.some.inj h
      exact .started client canOpenURL
    | cancel =>
      obtain rfl := Option.some.inj h
      exact .cancelled
    | callbackURLReceived url =>
      obtain rfl := Option.some.inj h
      exact authorizationStep_of_callbackURLReceived s url
    | openURLCompleted i success =>
      obtain ⟨a, block, ha, hblock, h⟩ := runBlock_eq_some h
      cases block with
      | openURL =>
        obtain rfl := Option.some.inj h
        exact authorizationStep_of_openURLCompleted ha hblock success
      | _ => simp at h
    | dataTaskCompleted i data error statusCode =>
      obtain ⟨a, block, ha, hblock, h⟩ := runBlock_eq_some h
      cases block with
      | requestToken oauth =>
        obtain rfl := Option.some.inj h
        exact authorizationStep_of_requestTokenCompleted ha hblock data error statusCode
      | accessToken oauth =>
        obtain rfl := Option.some.inj h
        exact authorizationStep_of_accessTokenCompleted ha hblock data error statusCode
      | _ => simp at h
    | authenticationSessionCompleted i callbackURL error =>
      obtain ⟨a, block, ha, hblock, h⟩ := runBlock_eq_some h
      cases block with
      | authenticationSession oauth =>
        obtain rfl := Option.some.inj h
        exact authorizationStep_of_authenticationSessionCompleted ha hblock callbackURL error
      | _ => simp at h

end Authorizations

end ConfFriends.Pods
