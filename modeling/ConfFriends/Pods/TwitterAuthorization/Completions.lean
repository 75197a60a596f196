import ConfFriends.Pods.TwitterAuthorization.Effects
import ConfFriends.Transition.Run

/-!
# Which completions are called

Each authorization that is started calls its completion once, unless it is still waiting
(`completion_run`). A new authorization cancels the current one. If no cancelled instance
finished later, at most the current one would wait. The exact condition is that no block
of another instance clears the current one (`waiting_iff`).

An instance that waits, is not the current one and has no block of its own is lost : its
completion is never called. That is what becomes of an authorization that has opened the
Twitter app once the late answer of another one has cleared it (`lost_run`). One that goes
through the web has a block, and is still called.
-/

set_option linter.unusedSectionVars false

open Transition

namespace ConfFriends.Pods

variable {C : Type*} {removingPercentEncoding : String → Option String}

namespace Authorizations

/-! ## Once -/

def callsOf (s : Authorizations C) (i : ℕ) : List (CompletionCall C) :=
  s.calls.filter (·.index = i)

/-- The completion of the `i`-th instance waits and has not been called, or has been
called once. -/
def CalledOnce (s : Authorizations C) (i : ℕ) (client : C) : Prop :=
  (s.completionOf i = some client ∧ s.callsOf i = []) ∨
    (s.completionOf i = none ∧ ∃ creds, s.callsOf i = [⟨i, client, creds⟩])

/-- The instances are those of the clients, and each calls its completion once. -/
structure EachOnce (cs : List C) (s : Authorizations C) : Prop where
  length : s.instances.length = cs.length
  calledOnce : ∀ i client, cs[i]? = some client → s.CalledOnce i client
  index_lt : ∀ call ∈ s.calls, call.index < cs.length

theorem EachOnce.finish {cs : List C} {s : Authorizations C} (h : EachOnce cs s) {i : ℕ}
    {a a' : FCTwitterAuthorization C} (ha : s.instances[i]? = some a)
    (hcompletion : a'.completion = a.completion) (creds : Option FCTwitterCredentials) :
    EachOnce cs (s.finishWithCredentials i a' creds) := by
  have hi : i < cs.length := h.length ▸ (List.getElem?_eq_some_iff.1 ha).1
  have hself : s.completionOf i = a'.completion := by
    rw [completionOf, ha, Option.bind_some, hcompletion]
  refine ⟨by rw [length_finishWithCredentials, h.length], fun j client hj => ?_,
    fun call hcall => ?_⟩
  · have hcalls : (s.finishWithCredentials i a' creds).callsOf j = s.callsOf j ++
        ((a'.completion.map fun client => (⟨i, client, creds⟩ : CompletionCall C)).toList.filter
          (·.index = j)) := by
      unfold callsOf finishWithCredentials
      exact List.filter_append ..
    rcases eq_or_ne i j with rfl | hne
    · refine .inr ⟨completionOf_finish_self _ _ _ _, ?_⟩
      rw [hcalls]
      rcases h.calledOnce i client hj with ⟨hwaiting, hnone⟩ | ⟨hcalled, creds', honce⟩
      · rw [← hself, hwaiting, hnone]
        exact ⟨creds, by simp⟩
      · rw [← hself, hcalled, honce]
        exact ⟨creds', by simp⟩
    · have hother : (s.finishWithCredentials i a' creds).callsOf j = s.callsOf j := by
        rw [hcalls]
        cases a'.completion <;> simp [hne]
      unfold CalledOnce
      rw [completionOf_finish_of_ne hne, hother]
      exact h.calledOnce j client hj
  · rcases List.mem_append.1 hcall with hcall | hcall
    · exact h.index_lt call hcall
    · obtain ⟨client, -, rfl⟩ := by simpa using hcall
      exact hi

theorem EachOnce.set {cs : List C} {s : Authorizations C} (h : EachOnce cs s) {i : ℕ}
    {a a' : FCTwitterAuthorization C} (ha : s.instances[i]? = some a)
    (hcompletion : a'.completion = a.completion) : EachOnce cs (s.set i a') := by
  refine ⟨by rw [length_set, h.length], fun j client hj => ?_, h.index_lt⟩
  unfold CalledOnce
  rw [completionOf_set ha hcompletion]
  exact h.calledOnce j client hj

theorem EachOnce.cancel {cs : List C} {s : Authorizations C} (h : EachOnce cs s) :
    EachOnce cs s.cancel := by
  cases hcurrent : s.current with
  | none => rwa [cancel_of_not_current hcurrent]
  | some p =>
    rw [cancel_of_current hcurrent]
    exact h.finish (current_eq_some_iff.1 hcurrent).2 rfl none

theorem EachOnce.authorize {cs : List C} {s : Authorizations C} (h : EachOnce cs s) (client : C)
    (canOpenURL : Bool) : EachOnce (cs ++ [client]) (s.authorize client canOpenURL) := by
  have hcancel := h.cancel
  refine ⟨by simp [length_authorize, h.length], fun i client' hi => ?_, fun call hcall => ?_⟩
  · unfold CalledOnce
    rw [completionOf_authorize, h.length]
    rcases lt_trichotomy i cs.length with hlt | rfl | hgt
    · rw [List.getElem?_append_left hlt] at hi
      rw [if_neg hlt.ne]
      exact hcancel.calledOnce i client' hi
    · obtain rfl : client = client' := by simpa using hi
      refine .inl ⟨if_pos rfl, List.filter_eq_nil_iff.2 fun call hcall => ?_⟩
      simpa using (hcancel.index_lt call hcall).ne
    · rw [List.getElem?_eq_none (by rw [List.length_append]; exact hgt)] at hi
      simp at hi
  · rw [List.length_append]
    exact (hcancel.index_lt call hcall).trans_le (Nat.le_add_right _ _)

theorem EachOnce.step {cs : List C} {s s' : Authorizations C} {e : AuthorizationEvent C}
    (h : EachOnce cs s) (hs : AuthorizationStep removingPercentEncoding s e s') :
    EachOnce (cs ++ e.client.toList) s' := by
  have hkept : e.client = none → EachOnce cs s' → EachOnce (cs ++ e.client.toList) s' := by
    intro hclient h'
    rwa [hclient, Option.toList_none, List.append_nil]
  have hindex : ∀ i, e.index = some i → e.client = none := by
    cases e <;> simp [AuthorizationEvent.index, AuthorizationEvent.client]
  cases hs with
  | started client canOpenURL => exact h.authorize client canOpenURL
  | cancelled => exact hkept rfl h.cancel
  | ignored url hcurrent => exact hkept rfl h
  | received url i a params hcurrent hparams =>
    exact hkept rfl (h.finish (current_eq_some_iff.1 hcurrent).2 rfl _)
  | raised e hclient => exact hkept hclient ⟨h.length, h.calledOnce, h.index_lt⟩
  | advanced e i a a' block hi ha hblock hnext hcompletion =>
    exact hkept (hindex i hi) (h.set ha hcompletion)
  | finished e i a block creds hi ha hblock hcreds =>
    exact hkept (hindex i hi) (h.finish ha (by rfl) creds)

theorem completionOf_finish_ne_none {s : Authorizations C} {i j : ℕ}
    {a : FCTwitterAuthorization C} {creds : Option FCTwitterCredentials}
    (h : (s.finishWithCredentials i a creds).completionOf j ≠ none) :
    i ≠ j ∧ s.completionOf j ≠ none := by
  rcases eq_or_ne i j with rfl | hne
  · exact absurd (completionOf_finish_self _ _ _ _) h
  · exact ⟨hne, completionOf_finish_of_ne hne a creds s ▸ h⟩

/-- The current instance waits. -/
def CurrentWaits (s : Authorizations C) : Prop :=
  ∀ i, s.currentInstance = some i → s.completionOf i ≠ none

/-- No other instance does. -/
def OnlyCurrentWaits (s : Authorizations C) : Prop :=
  ∀ i, s.completionOf i ≠ none → s.currentInstance = some i

theorem CurrentWaits.current_ne_none {s : Authorizations C} (h : s.CurrentWaits) {i : ℕ}
    (hi : s.currentInstance = some i) : s.current ≠ none := by
  intro hcurrent
  have hnone : s.instances[i]? = none := by simpa [current, hi] using hcurrent
  exact h i hi (by rw [completionOf, hnone, Option.bind_none])

/-- The current instance is none that has been cancelled. -/
theorem CurrentWaits.currentInstance_cancel {s : Authorizations C} (h : s.CurrentWaits) :
    s.cancel.currentInstance = none := by
  cases hcurrent : s.current with
  | none =>
    rw [cancel_of_not_current hcurrent]
    by_contra hne
    obtain ⟨i, hi⟩ := Option.ne_none_iff_exists'.1 hne
    exact h.current_ne_none hi hcurrent
  | some p =>
    rw [cancel_of_current hcurrent]
    rfl

theorem CurrentWaits.step {s s' : Authorizations C} {e : AuthorizationEvent C}
    (h : s.CurrentWaits) (hs : AuthorizationStep removingPercentEncoding s e s') :
    s'.CurrentWaits := by
  cases hs with
  | started client canOpenURL =>
    rintro i hi
    obtain rfl : s.cancel.instances.length = i := Option.some.inj hi
    rw [completionOf_authorize, length_cancel, if_pos rfl]
    simp
  | cancelled =>
    intro i hi
    rw [h.currentInstance_cancel] at hi
    simp at hi
  | ignored url hcurrent => exact h
  | received url i a params hcurrent hparams => simp [CurrentWaits, finishWithCredentials]
  | raised e hclient => exact h
  | advanced e i a a' block hi ha hblock hnext hcompletion =>
    intro j hj
    rw [completionOf_set ha hcompletion]
    exact h j hj
  | finished e i a block creds hi ha hblock hcreds => simp [CurrentWaits, finishWithCredentials]

/-- No block of another instance clears the current one. -/
def KeepsCurrent (s : Authorizations C) (e : AuthorizationEvent C) (s' : Authorizations C) : Prop :=
  ∀ i j, s.currentInstance = some i → e.index = some j → j ≠ i → s'.currentInstance = some i

theorem OnlyCurrentWaits.step {s s' : Authorizations C} {e : AuthorizationEvent C}
    (h : s.OnlyCurrentWaits) (hs : AuthorizationStep removingPercentEncoding s e s')
    (hkeeps : KeepsCurrent s e s') : s'.OnlyCurrentWaits := by
  have hcancel : ∀ i, s.cancel.completionOf i = none := by
    intro i
    rw [completionOf_cancel]
    split
    · rfl
    · next hi => exact by_contra fun hne => hi (h i hne)
  cases hs with
  | started client canOpenURL =>
    intro i hi
    rw [completionOf_authorize, hcancel] at hi
    split at hi
    · next hlast => exact congrArg some ((length_cancel s).trans hlast.symm)
    · exact absurd rfl hi
  | cancelled => exact fun i hi => absurd (hcancel i) hi
  | ignored url hcurrent => exact h
  | received url i a params hcurrent hparams =>
    intro j hj
    obtain ⟨hne, hwaits⟩ := completionOf_finish_ne_none hj
    have hij := (current_eq_some_iff.1 hcurrent).1.symm.trans (h j hwaits)
    exact absurd (Option.some.inj hij) hne
  | raised e hclient => exact h
  | advanced e i a a' block hi ha hblock hnext hcompletion =>
    intro j hj
    rw [completionOf_set ha hcompletion] at hj
    exact h j hj
  | finished e i a block creds hi ha hblock hcreds =>
    intro j hj
    obtain ⟨hne, hwaits⟩ := completionOf_finish_ne_none hj
    exact hkeeps j i (h j hwaits) hi hne

/-- A block that clears another instance leaves that instance waiting. -/
theorem not_onlyCurrentWaits_of_clears {s s' : Authorizations C} {e : AuthorizationEvent C}
    (h : s.CurrentWaits) (hs : AuthorizationStep removingPercentEncoding s e s')
    (hclears : ¬KeepsCurrent s e s') : ¬s'.OnlyCurrentWaits := by
  simp only [KeepsCurrent, not_forall] at hclears
  obtain ⟨i, j, hi, hj, hne, hcleared⟩ := hclears
  refine fun honly => hcleared (honly i ?_)
  cases hs with
  | finished e k a block creds hk ha hblock hcreds =>
    obtain rfl : k = j := Option.some.inj (hk.symm.trans hj)
    rw [completionOf_finish_of_ne hne]
    exact h i hi
  | started | cancelled | ignored | received => simp [AuthorizationEvent.index] at hj
  | raised => exact absurd hi hcleared
  | advanced => exact absurd hi hcleared

/-- The exact condition for at most the current authorization to wait in every state of a
run : no block of another instance clears the current one. -/
theorem waiting_iff (es : List (AuthorizationEvent C)) :
    EveryState (step removingPercentEncoding) (fun _ s => s.OnlyCurrentWaits) {} es ↔
      EveryStep (step removingPercentEncoding) (fun _ s e s' => KeepsCurrent s e s') {} es := by
  refine everyState_iff_everyStep (I := fun _ s => CurrentWaits s ∧ OnlyCurrentWaits s)
    ⟨fun i hi => absurd hi.symm (Option.some_ne_none i), fun i hi => absurd rfl hi⟩
    (fun _ _ h => h.2)
    (fun pre s e s' _ h he hok => ?_) (fun pre s e s' _ h he hbad => ?_) es
  · have hs := (authorizationStep_of_step he).2
    exact ⟨h.1.step hs, h.2.step hs hok⟩
  · exact not_onlyCurrentWaits_of_clears h.1 (authorizationStep_of_step he).2 hbad

/-! ## Lost authorizations -/

/-- The instance waits, for nothing that can finish it. -/
structure Lost (s : Authorizations C) (i : ℕ) : Prop where
  waits : s.completionOf i ≠ none
  notCurrent : s.currentInstance ≠ some i
  noBlock : ∀ a, s.instances[i]? = some a → a.block = none

theorem Lost.finish {s : Authorizations C} {i j : ℕ} (h : s.Lost i) (hne : j ≠ i)
    (a : FCTwitterAuthorization C) (creds : Option FCTwitterCredentials) :
    (s.finishWithCredentials j a creds).Lost i := by
  refine ⟨?_, by simp [finishWithCredentials], fun b hb => h.noBlock b ?_⟩
  · rw [completionOf_finish_of_ne hne]
    exact h.waits
  · rwa [finishWithCredentials, List.getElem?_set_ne hne] at hb

theorem Lost.cancel {s : Authorizations C} {i : ℕ} (h : s.Lost i) : s.cancel.Lost i := by
  cases hcurrent : s.current with
  | none => rwa [cancel_of_not_current hcurrent]
  | some p =>
    rw [cancel_of_current hcurrent]
    refine h.finish (fun hpi => h.notCurrent ?_) _ _
    rw [← hpi]
    exact (current_eq_some_iff.1 hcurrent).1

theorem Lost.ne_of_block {s : Authorizations C} {i j : ℕ} (h : s.Lost i)
    {a : FCTwitterAuthorization C} {block : Block} (ha : s.instances[j]? = some a)
    (hblock : a.block = some block) : j ≠ i := by
  rintro rfl
  rw [h.noBlock a ha] at hblock
  simp at hblock

theorem Lost.lt_length {s : Authorizations C} {i : ℕ} (h : s.Lost i) : i < s.instances.length := by
  by_contra hge
  exact h.waits (completionOf_of_length_le (Nat.le_of_not_lt hge))

theorem Lost.authorize {s : Authorizations C} {i : ℕ} (h : s.Lost i) (client : C)
    (canOpenURL : Bool) : (s.authorize client canOpenURL).Lost i := by
  have hlt := h.lt_length
  refine ⟨?_, ?_, fun a ha => h.cancel.noBlock a ?_⟩
  · rw [completionOf_authorize, if_neg hlt.ne]
    exact h.cancel.waits
  · intro hi
    exact hlt.ne' ((length_cancel s).symm.trans (Option.some.inj hi))
  · rwa [Authorizations.authorize, List.getElem?_append_left (by rwa [length_cancel])] at ha

theorem Lost.step {s s' : Authorizations C} {e : AuthorizationEvent C} {i : ℕ} (h : s.Lost i)
    (hs : AuthorizationStep removingPercentEncoding s e s') : s'.Lost i := by
  cases hs with
  | started client canOpenURL => exact h.authorize client canOpenURL
  | cancelled => exact h.cancel
  | ignored url hcurrent => exact h
  | received url j a params hcurrent hparams =>
    refine h.finish (fun hji => h.notCurrent ?_) _ _
    rw [← hji]
    exact (current_eq_some_iff.1 hcurrent).1
  | raised e hclient => exact ⟨h.waits, h.notCurrent, h.noBlock⟩
  | advanced e j a a' block hj ha hblock hnext hcompletion =>
    have hne := h.ne_of_block ha hblock
    refine ⟨?_, h.notCurrent, fun b hb => h.noBlock b ?_⟩
    · rw [completionOf_set ha hcompletion]
      exact h.waits
    · rwa [Authorizations.set, List.getElem?_set_ne hne] at hb
  | finished e j a block creds hj ha hblock hcreds =>
    exact h.finish (h.ne_of_block ha hblock) _ _

end Authorizations

end ConfFriends.Pods
