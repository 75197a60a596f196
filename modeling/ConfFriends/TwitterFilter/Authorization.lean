import Mathlib.Logic.Relation
import ConfFriends.Pods.TwitterAuthorization.Completions
import ConfFriends.TwitterFilter

/-!
# The authorizations of the phone are those of the class

A `Process` knows of an authorization only that it waits, for whom, and which one is the
current one. `FCTwitterAuthorization` has the instances with their blocks. Each of its steps
is one of the process or none (`AuthorizationMove`) : an instance that finishes is the
authorization at its rank among those that wait, or one past the end if it does not wait any
more. The credentials that the process goes on with are those of the calls (`moves_run`).
-/

set_option linter.unusedSectionVars false

open Transition

namespace ConfFriends

open Pods

variable {K Image : Type*} [LinearOrder K] [Zero K] [IntCast K]

/-- A process that starts an authorization, or one of whose authorizations finishes. -/
inductive AuthorizationMove (P : Platform K) (M : MapPlatform Image) :
    Process K Image → Process K Image → Prop
  | authorize (p : Process K Image) (client : AuthorizationClient) :
    AuthorizationMove P M p (p.authorize client)
  | finished (p p' : Process K Image) (i : ℕ) (token secret username : Option String)
    (h : Phone.step P M (.running p) (.authorizationFinished i token secret username) =
      some (.running p')) : AuthorizationMove P M p p'

namespace Pods.Authorizations

/-- The instances that wait. -/
def waiting {C : Type*} (s : Authorizations C) : List C :=
  s.instances.filterMap (·.completion)

/-- The index of the `i`-th instance among those that wait. -/
def rank {C : Type*} (s : Authorizations C) (i : ℕ) : ℕ :=
  ((s.instances.take i).filterMap (·.completion)).length

/-- The credentials that the completions of a client were called with. -/
def credentialsFor {C : Type*} [DecidableEq C] (client : C) (s : Authorizations C) :
    List FCTwitterCredentials :=
  s.calls.filterMap fun call => if call.client = client then call.credentials else none

/-! ## Instances that wait -/

section Waiting

variable {C : Type*} {s : Authorizations C} {i : ℕ} {a : FCTwitterAuthorization C}

theorem instances_eq (ha : s.instances[i]? = some a) :
    s.instances = s.instances.take i ++ a :: s.instances.drop (i + 1) := by
  obtain ⟨hi, rfl⟩ := List.getElem?_eq_some_iff.1 ha
  rw [List.getElem_cons_drop, List.take_append_drop]

theorem waiting_eq (ha : s.instances[i]? = some a) :
    s.waiting = (s.instances.take i).filterMap (·.completion) ++
      (a.completion.toList ++ (s.instances.drop (i + 1)).filterMap (·.completion)) := by
  unfold waiting
  conv_lhs => rw [instances_eq ha]
  rw [List.filterMap_append, List.filterMap_cons]
  cases a.completion <;> rfl

theorem waiting_finish (ha : s.instances[i]? = some a) (a' : FCTwitterAuthorization C)
    (creds : Option FCTwitterCredentials) :
    (s.finishWithCredentials i a' creds).waiting =
      (s.instances.take i).filterMap (·.completion) ++
        (s.instances.drop (i + 1)).filterMap (·.completion) := by
  have hi : i < s.instances.length := (List.getElem?_eq_some_iff.1 ha).1
  unfold waiting finishWithCredentials
  dsimp only
  rw [List.set_eq_take_append_cons_drop, if_pos hi, List.filterMap_append, List.filterMap_cons]

/-- The instance that waits is found at its rank. -/
theorem getElem?_waiting {client : C} (ha : s.instances[i]? = some a)
    (hclient : a.completion = some client) : s.waiting[s.rank i]? = some client := by
  rw [waiting_eq ha, hclient, rank, List.getElem?_append_right (le_refl _)]
  simp

/-- Finishing an instance that waits takes it from its rank. -/
theorem eraseIdx_waiting {client : C} (ha : s.instances[i]? = some a)
    (hclient : a.completion = some client) (a' : FCTwitterAuthorization C)
    (creds : Option FCTwitterCredentials) :
    s.waiting.eraseIdx (s.rank i) = (s.finishWithCredentials i a' creds).waiting := by
  rw [waiting_finish ha, waiting_eq ha, hclient, rank,
    List.eraseIdx_append_of_length_le (le_refl _)]
  simp

/-- Finishing an instance that does not wait takes nothing. -/
theorem waiting_finish_of_none (ha : s.instances[i]? = some a) (hnone : a.completion = none)
    (a' : FCTwitterAuthorization C) (creds : Option FCTwitterCredentials) :
    (s.finishWithCredentials i a' creds).waiting = s.waiting := by
  rw [waiting_finish ha, waiting_eq ha, hnone, Option.toList_none, List.nil_append]

/-- A change of an instance that leaves its completion alone. -/
theorem completions_set (ha : s.instances[i]? = some a) {a' : FCTwitterAuthorization C}
    (hcompletion : a'.completion = a.completion) :
    (s.set i a').instances.map (·.completion) = s.instances.map (·.completion) := by
  obtain ⟨hi, rfl⟩ := List.getElem?_eq_some_iff.1 ha
  rw [set, List.map_set, hcompletion]
  conv_rhs => rw [← List.set_getElem_self hi, List.map_set]

theorem waiting_eq_completions (s : Authorizations C) :
    s.waiting = (s.instances.map (·.completion)).filterMap id := by
  rw [waiting, List.filterMap_map]
  rfl

theorem rank_eq_completions (s : Authorizations C) (i : ℕ) :
    s.rank i = (((s.instances.map (·.completion)).take i).filterMap id).length := by
  rw [rank, ← List.map_take, List.filterMap_map]
  rfl

theorem waiting_set (ha : s.instances[i]? = some a) {a' : FCTwitterAuthorization C}
    (hcompletion : a'.completion = a.completion) : (s.set i a').waiting = s.waiting := by
  rw [waiting_eq_completions, completions_set ha hcompletion, waiting_eq_completions]

theorem rank_set (ha : s.instances[i]? = some a) {a' : FCTwitterAuthorization C}
    (hcompletion : a'.completion = a.completion) : (s.set i a').rank = s.rank := by
  funext j
  rw [rank_eq_completions, completions_set ha hcompletion, rank_eq_completions]

/-- A new instance waits behind those that a cancellation leaves waiting. -/
theorem waiting_authorize (client : C) (canOpenURL : Bool) (s : Authorizations C) :
    (s.authorize client canOpenURL).waiting = s.cancel.waiting ++ [client] := by
  unfold waiting authorize
  rw [List.filterMap_append]
  cases canOpenURL <;> rfl

theorem rank_authorize (client : C) (canOpenURL : Bool) (s : Authorizations C) :
    (s.authorize client canOpenURL).rank s.cancel.instances.length = s.cancel.waiting.length := by
  unfold rank authorize waiting
  rw [List.take_left]

theorem credentialsFor_finish [DecidableEq C] (client : C) (i : ℕ) (a : FCTwitterAuthorization C)
    (creds : Option FCTwitterCredentials) (s : Authorizations C) :
    (s.finishWithCredentials i a creds).credentialsFor client =
      s.credentialsFor client ++ if a.completion = some client then creds.toList else [] := by
  unfold credentialsFor finishWithCredentials
  rw [List.filterMap_append]
  cases hcompletion : a.completion with
  | none => simp
  | some client' => by_cases hclient : client' = client <;> cases creds <;> simp [hclient]

end Waiting

end Pods.Authorizations

/-! ## The process -/

namespace Process

/-- The process with no authorization started. -/
def withoutAuthorizations (p : Process K Image) : Process K Image :=
  { p with authorizations := [], currentInstance := none }

/-- The request for the friends of the account of the credentials. -/
def friendsRequest (credentials : FCTwitterCredentials) : FriendsIDsRequest :=
  ⟨credentials, none, credentials.username, none, some "5000"⟩

variable (k : ℕ) (creds : Option FCTwitterCredentials) (p : Process K Image)

theorem authorizations_finish :
    (p.finishWithCredentials k creds).authorizations = p.authorizations.eraseIdx k := by
  unfold finishWithCredentials
  split <;> rfl

theorem currentInstance_finish : (p.finishWithCredentials k creds).currentInstance = none := by
  unfold finishWithCredentials
  split <;> rfl

theorem signIns_finish :
    (p.finishWithCredentials k creds).signIns = p.signIns ++
      if p.authorizations[k]? = some .startTwitterAuthentication then creds.toList else [] := by
  unfold finishWithCredentials
  cases p.authorizations[k]? with
  | none => simp
  | some client => cases client <;> cases creds <;> simp [presentWhoops, requestFriends]

theorem requests_finish :
    (p.finishWithCredentials k creds).requests = p.requests ++
      if p.authorizations[k]? = some .setupTwitterFilter then creds.toList.map friendsRequest
      else [] := by
  unfold finishWithCredentials
  cases p.authorizations[k]? with
  | none => simp
  | some client =>
    cases client <;> cases creds <;> simp [presentWhoops, requestFriends, friendsRequest]

end Process

/-! ## The process that matches -/

namespace Pods.Authorizations

/-- The process has the authorizations that wait, and has gone on from `p₀` with the
credentials of the calls. -/
structure Matches (p₀ p : Process K Image) (s : Authorizations AuthorizationClient) : Prop where
  authorizations : p.authorizations = s.waiting
  currentInstance : p.currentInstance = s.currentInstance.map s.rank
  signIns : p.signIns = p₀.signIns ++ s.credentialsFor .startTwitterAuthentication
  requests : p.requests =
    p₀.requests ++ (s.credentialsFor .setupTwitterFilter).map Process.friendsRequest

variable {s : Authorizations AuthorizationClient} {p₀ p : Process K Image} {i : ℕ}
  {a a' : FCTwitterAuthorization AuthorizationClient}

/-- An instance finishes, and so does the authorization of its completion. -/
theorem Matches.finish_at (h : Matches p₀ p s) (hcompletion : a'.completion = a.completion)
    (creds : Option FCTwitterCredentials) {k : ℕ} (hget : p.authorizations[k]? = a.completion)
    (herase : p.authorizations.eraseIdx k = (s.finishWithCredentials i a' creds).waiting) :
    Matches p₀ (p.finishWithCredentials k creds) (s.finishWithCredentials i a' creds) := by
  refine ⟨?_, ?_, ?_, ?_⟩
  · rw [Process.authorizations_finish, herase]
  · rw [Process.currentInstance_finish]
    rfl
  · rw [Process.signIns_finish, credentialsFor_finish, hget, hcompletion, h.signIns,
      List.append_assoc]
  · rw [Process.requests_finish, credentialsFor_finish, hget, hcompletion, h.requests,
      List.map_append, List.append_assoc]
    split <;> simp

/-- An instance that waits is the authorization at its rank. -/
theorem Matches.finish_waiting {client : AuthorizationClient} (h : Matches p₀ p s)
    (ha : s.instances[i]? = some a) (hclient : a.completion = some client)
    (hcompletion : a'.completion = a.completion) (creds : Option FCTwitterCredentials) :
    Matches p₀ (p.finishWithCredentials (s.rank i) creds) (s.finishWithCredentials i a' creds) := by
  refine h.finish_at hcompletion creds ?_ ?_
  · rw [h.authorizations, getElem?_waiting ha hclient, hclient]
  · rw [h.authorizations, eraseIdx_waiting ha hclient]

/-- One that has finished before is past the end. -/
theorem Matches.finish_again (h : Matches p₀ p s) (ha : s.instances[i]? = some a)
    (hnone : a.completion = none) (hcompletion : a'.completion = a.completion)
    (creds : Option FCTwitterCredentials) :
    Matches p₀ (p.finishWithCredentials p.authorizations.length creds)
      (s.finishWithCredentials i a' creds) := by
  refine h.finish_at hcompletion creds ?_ ?_
  · rw [List.getElem?_eq_none (le_refl _), hnone]
  · rw [List.eraseIdx_of_length_le (le_refl _), h.authorizations, waiting_finish_of_none ha hnone]

theorem Matches.finish (h : Matches p₀ p s) (ha : s.instances[i]? = some a)
    (hcompletion : a'.completion = a.completion) (creds : Option FCTwitterCredentials) :
    ∃ k, Matches p₀ (p.finishWithCredentials k creds) (s.finishWithCredentials i a' creds) := by
  cases hclient : a.completion with
  | none => exact ⟨_, h.finish_again ha hclient hcompletion creds⟩
  | some client => exact ⟨_, h.finish_waiting ha hclient hcompletion creds⟩

/-- An instance goes on to another block. -/
theorem Matches.set (h : Matches p₀ p s) (ha : s.instances[i]? = some a)
    (hcompletion : a'.completion = a.completion) : Matches p₀ p (s.set i a') := by
  refine ⟨?_, ?_, h.signIns, h.requests⟩
  · rw [waiting_set ha hcompletion, h.authorizations]
  · rw [rank_set ha hcompletion]
    exact h.currentInstance

/-- The current instance is cancelled in both. -/
theorem Matches.cancel (h : Matches p₀ p s) (hcurrent : s.CurrentWaits) :
    Matches p₀ p.cancel s.cancel := by
  cases hs : s.current with
  | none =>
    have hnone : s.currentInstance = none := by
      by_contra hne
      obtain ⟨i, hi⟩ := Option.ne_none_iff_exists'.1 hne
      exact hcurrent.current_ne_none hi hs
    rw [cancel_of_not_current hs, Process.cancel, h.currentInstance, hnone]
    exact h
  | some q =>
    obtain ⟨i, a⟩ := q
    obtain ⟨hi, ha⟩ := current_eq_some_iff.1 hs
    obtain ⟨client, hclient⟩ : ∃ client, a.completion = some client := by
      have hwaits := hcurrent i hi
      rw [completionOf, ha] at hwaits
      exact Option.ne_none_iff_exists'.1 hwaits
    rw [cancel_of_current hs, Process.cancel, h.currentInstance, hi]
    exact h.finish_waiting ha hclient rfl none

theorem Matches.authorize (h : Matches p₀ p s) (hcurrent : s.CurrentWaits)
    (client : AuthorizationClient) (canOpenURL : Bool) :
    Matches p₀ (p.authorize client) (s.authorize client canOpenURL) := by
  have hcancel := h.cancel hcurrent
  refine ⟨?_, ?_, hcancel.signIns, hcancel.requests⟩
  · rw [waiting_authorize, ← hcancel.authorizations]
    rfl
  · refine congrArg some ?_
    rw [rank_authorize, hcancel.authorizations]

/-! ## Runs -/

variable {P : Platform K} {M : MapPlatform Image} {removingPercentEncoding : String → Option String}

theorem finished_move (k : ℕ) (token secret username : Option String) (p : Process K Image) :
    AuthorizationMove P M p (p.finishWithCredentials k
      (FCTwitterCredentials.credentialsWithToken token secret username)) :=
  .finished p _ k token secret username rfl

/-- Finishing without credentials. -/
theorem failed_move (k : ℕ) (p : Process K Image) :
    AuthorizationMove P M p (p.finishWithCredentials k none) :=
  finished_move k none none none p

theorem cancel_moves (p : Process K Image) :
    Relation.ReflTransGen (AuthorizationMove P M) p p.cancel := by
  unfold Process.cancel
  cases p.currentInstance with
  | none => exact .refl
  | some k => exact .single (failed_move k p)

/-- A step of the class is at most one move of the process. -/
theorem Matches.step {s' : Authorizations AuthorizationClient}
    {e : AuthorizationEvent AuthorizationClient} (h : Matches p₀ p s) (hcurrent : s.CurrentWaits)
    (hs : AuthorizationStep removingPercentEncoding s e s') :
    ∃ p', Relation.ReflTransGen (AuthorizationMove P M) p p' ∧ Matches p₀ p' s' := by
  cases hs with
  | started client canOpenURL =>
    exact ⟨_, .single (.authorize p client), h.authorize hcurrent client canOpenURL⟩
  | cancelled => exact ⟨_, cancel_moves p, h.cancel hcurrent⟩
  | ignored url hnone => exact ⟨p, .refl, h⟩
  | received url i a params hsome hparams =>
    obtain ⟨k, hk⟩ := h.finish (current_eq_some_iff.1 hsome).2 rfl
      (FCTwitterCredentials.credentialsWithToken (params "token") (params "secret")
        (params "username"))
    exact ⟨_, .single (finished_move k _ _ _ p), hk⟩
  | raised e hclient => exact ⟨p, .refl, h.authorizations, h.currentInstance, h.signIns, h.requests⟩
  | advanced e i a a' block hi ha hblock hnext hcompletion =>
    exact ⟨p, .refl, h.set ha hcompletion⟩
  | finished e i a block creds hi ha hblock hcreds =>
    obtain ⟨k, hk⟩ : ∃ k, Matches p₀ (p.finishWithCredentials k creds)
        (s.finishWithCredentials i { a with block := none } creds) :=
      h.finish ha (by rfl) creds
    cases hcreds with
    | failed => exact ⟨_, .single (failed_move k p), hk⟩
    | answered => exact ⟨_, .single (finished_move k _ _ _ p), hk⟩

/-- Every run of the class is one of the process, from a process without authorizations : it
has the authorizations that wait with the current one among them, and goes on with the
credentials of just those calls. -/
theorem moves_run (P : Platform K) (M : MapPlatform Image) (p₀ : Process K Image)
    (es : List (AuthorizationEvent AuthorizationClient)) :
    EveryState (Authorizations.step removingPercentEncoding) (fun _ s =>
      ∃ p, Relation.ReflTransGen (AuthorizationMove P M) p₀.withoutAuthorizations p ∧
        Matches p₀ p s) {} es := by
  have hinit : Matches p₀ p₀.withoutAuthorizations ({} : Authorizations AuthorizationClient) :=
    ⟨rfl, rfl, (List.append_nil _).symm, (List.append_nil _).symm⟩
  refine (everyState_of_invariant (I := fun _ s => CurrentWaits s ∧
    ∃ p, Relation.ReflTransGen (AuthorizationMove P M) p₀.withoutAuthorizations p ∧
      Matches p₀ p s) ⟨fun i hi => absurd hi.symm (Option.some_ne_none i), _, .refl, hinit⟩
    (fun pre s e s' _ ih he => ?_) es).mono fun _ _ h => h.2
  obtain ⟨hcurrent, p, hmoves, hmatches⟩ := ih
  have hs := (authorizationStep_of_step he).2
  obtain ⟨p', hmove, hmatches'⟩ := hmatches.step hcurrent hs
  exact ⟨hcurrent.step hs, p', hmoves.trans hmove, hmatches'⟩

end Pods.Authorizations

end ConfFriends
