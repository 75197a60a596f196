import ConfFriends.Pods.TwitterAuthorization.Effects
import ConfFriends.Transition.Run

/-!
# Where credentials come from

The web flow of an instance hears three texts, in this order : the response with a request
token, the callback URL of the session, and the response with an access token (`Heard`).
The credentials that a completion is called with are computed from these three, or from the
answer of the Twitter app to the current instance (`credentials_run`).
-/

set_option linter.unusedSectionVars false

open Transition

namespace ConfFriends.Pods

/-! ## What an instance hears -/

/-- A text that the web flow of an instance gets. -/
inductive HeardText
  | response (data : Option String)
  | callback (url : NSURL)
  deriving DecidableEq

variable {C : Type*}

/-- The text that an event has for the `i`-th instance. -/
def AuthorizationEvent.text (i : ℕ) : AuthorizationEvent C → Option HeardText
  | .dataTaskCompleted j data _ _ => if j = i then some (.response data) else none
  | .authenticationSessionCompleted j (some url) _ => if j = i then some (.callback url) else none
  | _ => none

/-- The texts of the `i`-th instance, in order. -/
def texts (es : List (AuthorizationEvent C)) (i : ℕ) : List HeardText :=
  es.filterMap (·.text i)

theorem texts_snoc (es : List (AuthorizationEvent C)) (e : AuthorizationEvent C) (i : ℕ) :
    texts (es ++ [e]) i = texts es i ++ (e.text i).toList := by
  unfold texts
  rw [List.filterMap_append]
  cases htext : e.text i <;> simp [htext]

/-- An event is heard by the instance whose block it runs. -/
theorem text_eq_none {e : AuthorizationEvent C} {i : ℕ} (h : e.index ≠ some i) :
    e.text i = none := by
  cases e with
  | dataTaskCompleted j data error statusCode =>
    exact if_neg fun hji => h (congrArg some hji)
  | authenticationSessionCompleted j callbackURL error =>
    cases callbackURL with
    | none => rfl
    | some url => exact if_neg fun hji => h (congrArg some hji)
  | _ => rfl

/-- The consumer after a text. -/
def FCBasicOAuthConsumer.hear (oauth : FCBasicOAuthConsumer) : HeardText → FCBasicOAuthConsumer
  | .response data => oauth.addAuthorizationResponse data
  | .callback url => oauth.addAuthorizedResponseCallbackURL url

/-- What an instance has heard when it comes to a block. -/
inductive Heard : Block → List HeardText → Prop
  | openURL : Heard .openURL []
  | requestToken : Heard (.requestToken {}) []
  | authenticationSession (data : Option String) :
    Heard (.authenticationSession (({} : FCBasicOAuthConsumer).hear (.response data)))
      [.response data]
  | accessToken (data : Option String) (url : NSURL) :
    Heard (.accessToken ((({} : FCBasicOAuthConsumer).hear (.response data)).hear (.callback url)))
      [.response data, .callback url]

namespace Authorizations

variable {removingPercentEncoding : String → Option String}

theorem heard_next {block block' : Block} {e : AuthorizationEvent C} {i : ℕ} {l : List HeardText}
    (h : Heard block l) (hi : e.index = some i) (hnext : NextBlock e block (some block')) :
    Heard block' (l ++ (e.text i).toList) := by
  cases hnext with
  | notOpened j =>
    cases h
    exact .requestToken
  | answered j oauth data =>
    obtain rfl := Option.some.inj hi
    cases h
    rw [AuthorizationEvent.text, if_pos rfl]
    exact .authenticationSession data
  | authorized j oauth url =>
    obtain rfl := Option.some.inj hi
    cases h with
    | authenticationSession data =>
      rw [AuthorizationEvent.text, if_pos rfl]
      exact .accessToken data url

/-- Each instance has heard what its block says. -/
structure HeardBy (es : List (AuthorizationEvent C)) (s : Authorizations C) : Prop where
  heard : ∀ i a block, s.instances[i]? = some a → a.block = some block → Heard block (texts es i)
  unheard : ∀ i, s.instances.length ≤ i → texts es i = []

/-- An event that runs no block is heard by nobody. -/
theorem HeardBy.quiet {es : List (AuthorizationEvent C)} {e : AuthorizationEvent C}
    {s : Authorizations C} (h : HeardBy es s) (hindex : e.index = none) :
    HeardBy (es ++ [e]) s := by
  have htexts : ∀ i, texts (es ++ [e]) i = texts es i := by
    intro i
    rw [texts_snoc, text_eq_none (by simp [hindex]), Option.toList_none, List.append_nil]
  exact ⟨fun i a block ha hblock => htexts i ▸ h.heard i a block ha hblock,
    fun i hi => htexts i ▸ h.unheard i hi⟩

/-- An instance that finishes without a change of its block. -/
theorem HeardBy.finish {es : List (AuthorizationEvent C)} {s : Authorizations C}
    (h : HeardBy es s) {i : ℕ} {a : FCTwitterAuthorization C} (ha : s.instances[i]? = some a)
    (creds : Option FCTwitterCredentials) : HeardBy es (s.finishWithCredentials i a creds) := by
  refine ⟨fun j b block hb hblock => ?_, fun j hj => h.unheard j (by simpa using hj)⟩
  rcases eq_or_ne i j with rfl | hne
  · rw [finishWithCredentials, List.getElem?_set_self', ha] at hb
    obtain rfl := Option.some.inj hb
    exact h.heard i a block ha hblock
  · rw [finishWithCredentials, List.getElem?_set_ne hne] at hb
    exact h.heard j b block hb hblock

theorem HeardBy.cancel {es : List (AuthorizationEvent C)} {s : Authorizations C}
    (h : HeardBy es s) : HeardBy es s.cancel := by
  cases hcurrent : s.current with
  | none => rwa [cancel_of_not_current hcurrent]
  | some p =>
    rw [cancel_of_current hcurrent]
    exact h.finish (current_eq_some_iff.1 hcurrent).2 none

theorem HeardBy.authorize {es : List (AuthorizationEvent C)} {s : Authorizations C}
    (h : HeardBy es s) (client : C) (canOpenURL : Bool) :
    HeardBy es (s.authorize client canOpenURL) := by
  have hcancel := h.cancel
  refine ⟨fun i a block ha hblock => ?_, fun i hi => ?_⟩
  · rcases lt_or_ge i s.cancel.instances.length with hlt | hge
    · rw [Authorizations.authorize, List.getElem?_append_left hlt] at ha
      exact hcancel.heard i a block ha hblock
    · rw [hcancel.unheard i hge]
      rw [Authorizations.authorize, List.getElem?_append_right hge] at ha
      obtain rfl := List.mem_singleton.1 (List.mem_of_getElem? ha)
      cases canOpenURL with
      | true =>
        obtain rfl : Block.openURL = block := Option.some.inj hblock
        exact .openURL
      | false =>
        obtain rfl : Block.requestToken {} = block := Option.some.inj hblock
        exact .requestToken
  · rw [length_authorize] at hi
    exact h.unheard i (Nat.le_of_succ_le hi)

/-- An instance whose block changes. -/
theorem HeardBy.change {es : List (AuthorizationEvent C)} {e : AuthorizationEvent C}
    {s s' : Authorizations C} (h : HeardBy es s) {i : ℕ} {a a' : FCTwitterAuthorization C}
    (hi : e.index = some i) (ha : s.instances[i]? = some a)
    (hs' : s'.instances = s.instances.set i a')
    (hblock : ∀ block, a'.block = some block → Heard block (texts (es ++ [e]) i)) :
    HeardBy (es ++ [e]) s' := by
  have htexts : ∀ {j}, i ≠ j → texts (es ++ [e]) j = texts es j := by
    intro j hne
    rw [texts_snoc, text_eq_none (by simpa [hi] using hne), Option.toList_none, List.append_nil]
  have hlt : i < s.instances.length := (List.getElem?_eq_some_iff.1 ha).1
  refine ⟨fun j b block hb hb' => ?_, fun j hj => ?_⟩
  · rw [hs'] at hb
    rcases eq_or_ne i j with rfl | hne
    · rw [List.getElem?_set_self', ha] at hb
      obtain rfl := Option.some.inj hb
      exact hblock block hb'
    · rw [List.getElem?_set_ne hne] at hb
      rw [htexts hne]
      exact h.heard j b block hb hb'
  · rw [hs', List.length_set] at hj
    rw [htexts (hlt.trans_le hj).ne]
    exact h.unheard j hj

theorem HeardBy.step {es : List (AuthorizationEvent C)} {s s' : Authorizations C}
    {e : AuthorizationEvent C} (h : HeardBy es s)
    (hs : AuthorizationStep removingPercentEncoding s e s') (hraised : s'.raised = false) :
    HeardBy (es ++ [e]) s' := by
  cases hs with
  | started client canOpenURL => exact (h.authorize client canOpenURL).quiet rfl
  | cancelled => exact h.cancel.quiet rfl
  | ignored url hcurrent => exact h.quiet rfl
  | received url i a params hcurrent hparams =>
    exact (h.finish (current_eq_some_iff.1 hcurrent).2 _).quiet rfl
  | raised e hclient => exact absurd hraised (by simp [raise])
  | advanced e i a a' block hi ha hblock hnext hcompletion =>
    refine h.change hi ha rfl fun block' hblock' => ?_
    rw [texts_snoc]
    exact heard_next (h.heard i a block ha hblock) hi (hblock' ▸ hnext)
  | finished e i a block creds hi ha hblock hcreds =>
    exact h.change hi ha rfl fun block' hblock' => absurd hblock'.symm (Option.some_ne_none _)

theorem heardBy_of_exec {es : List (AuthorizationEvent C)} {s : Authorizations C}
    (h : exec (step removingPercentEncoding) {} es = some s) : s.raised = false → HeardBy es s := by
  refine exec_induction (motive := fun es s => s.raised = false → HeardBy es s)
    (fun _ => ⟨fun i a block ha => ?_, fun i _ => rfl⟩) (fun pre s e s' _ ih he => ?_) es s h
  · exact absurd ha.symm (Option.some_ne_none _)
  · obtain ⟨hraised, hs⟩ := authorizationStep_of_step he
    exact (ih hraised).step hs

/-! ## Credentials -/

/-- A call that finishing adds. -/
theorem calls_finish {s : Authorizations C} {i : ℕ} {a : FCTwitterAuthorization C}
    {creds : Option FCTwitterCredentials} {call : CompletionCall C}
    (h : (s.finishWithCredentials i a creds).calls = s.calls ++ [call]) :
    call.index = i ∧ call.credentials = creds := by
  have hcall := List.append_cancel_left h
  cases hcompletion : a.completion with
  | none => simp [hcompletion] at hcall
  | some client =>
    simp only [hcompletion, Option.map_some, Option.toList_some, List.cons.injEq, and_true] at hcall
    obtain rfl := hcall
    exact ⟨rfl, rfl⟩

theorem calls_cancel {s : Authorizations C} {call : CompletionCall C}
    (h : s.cancel.calls = s.calls ++ [call]) : call.credentials = none := by
  cases hcurrent : s.current with
  | none =>
    rw [cancel_of_not_current hcurrent] at h
    simp at h
  | some p =>
    rw [cancel_of_current hcurrent] at h
    exact (calls_finish h).2

/-- The credentials are those of the Twitter app's answer to the current instance. -/
def FromTwitterApp (removingPercentEncoding : String → Option String) (s : Authorizations C)
    (e : AuthorizationEvent C) (i : ℕ) (creds : FCTwitterCredentials) : Prop :=
  ∃ url params, e = .callbackURLReceived url ∧ s.currentInstance = some i ∧
    callbackParams removingPercentEncoding url.host = some params ∧
    FCTwitterCredentials.credentialsWithToken (params "token") (params "secret")
      (params "username") = some creds

/-- The credentials are those of the three texts that the instance has heard. -/
def FromWeb (pre : List (AuthorizationEvent C)) (e : AuthorizationEvent C) (i : ℕ)
    (creds : FCTwitterCredentials) : Prop :=
  ∃ data url data', e = .dataTaskCompleted i data' false 200 ∧
    texts (pre ++ [e]) i = [.response data, .callback url, .response data'] ∧
    ((texts (pre ++ [e]) i).foldl FCBasicOAuthConsumer.hear {}).credentials = some creds

/-- In every run, the credentials that a completion is called with are the Twitter app's
answer to the current instance, or computed from just the texts that the instance has
heard : the response with the request token, the callback URL, and the last response. -/
theorem credentials_run (es : List (AuthorizationEvent C)) :
    EveryStep (step removingPercentEncoding) (fun pre s e s' => ∀ i client creds,
      s'.calls = s.calls ++ [⟨i, client, some creds⟩] →
        FromTwitterApp removingPercentEncoding s e i creds ∨ FromWeb pre e i creds) {} es := by
  intro pre e s s' _ hpre he i client creds hcalls
  obtain ⟨hraised, hs⟩ := authorizationStep_of_step he
  have hheard := heardBy_of_exec hpre hraised
  cases hs with
  | started client canOpenURL => exact absurd (calls_cancel hcalls) (by simp)
  | cancelled => exact absurd (calls_cancel hcalls) (by simp)
  | ignored | raised | advanced => exact absurd hcalls (by simp [raise, set])
  | received url j a params hcurrent hparams =>
    obtain ⟨hij, hcreds⟩ := calls_finish hcalls
    dsimp only at hij hcreds
    subst hij
    exact .inl ⟨url, params, rfl, (current_eq_some_iff.1 hcurrent).1, hparams, hcreds.symm⟩
  | finished e j a block creds' hj ha hblock hcreds =>
    obtain ⟨hij, hcreds'⟩ := calls_finish hcalls
    dsimp only at hij hcreds'
    subst hij
    cases hcreds with
    | failed => simp at hcreds'
    | answered k oauth data' =>
      obtain rfl : k = i := Option.some.inj hj
      have hprev := hheard.heard k a _ ha hblock
      refine .inr ?_
      unfold FromWeb
      rw [texts_snoc, AuthorizationEvent.text, if_pos rfl]
      generalize texts pre k = l at hprev
      cases hprev with
      | accessToken data url => exact ⟨data, url, data', rfl, rfl, hcreds'.symm⟩

end Authorizations

end ConfFriends.Pods
