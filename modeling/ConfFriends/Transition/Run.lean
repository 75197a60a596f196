import Mathlib.Data.List.Infix
import Mathlib.Tactic.TypeStar

/-!
# Runs of a partial step function

A system is a step function `σ → ε → Option σ` : the state after an event, or
`none` when the event cannot happen. `exec` runs a list of events. `EveryState`
and `EveryStep` quantify over the states and the steps of a run, each with the
events before it, so that a property can read the past.

`everyState_of_invariant` is the induction over a run, and
`everyState_of_everyStep` the same with a condition on the steps.
`everyState_iff_everyStep` gives the exact condition : if a step outside the
condition breaks the property at once, the property holds along a run iff the
condition holds of its steps, and `everyStep_iff_of_invariant` does it for a property
of the steps.
-/

namespace Transition

variable {σ ε : Type*} {step : σ → ε → Option σ}

/-! ## Executing a list of events -/

/-- The state after the events `es`, if each can happen in its turn. -/
def exec (step : σ → ε → Option σ) : σ → List ε → Option σ
  | s, [] => some s
  | s, e :: es => (step s e).bind fun s' => exec step s' es

@[simp] theorem exec_nil (s : σ) : exec step s [] = some s :=
  rfl

theorem exec_append (es es' : List ε) :
    ∀ s, exec step s (es ++ es') = (exec step s es).bind fun s' => exec step s' es' := by
  induction es with
  | nil => intro s; rfl
  | cons e es ih =>
    intro s
    cases h : step s e with
    | none => simp [exec, h]
    | some s' => simp [exec, h, ih]

theorem exec_snoc (es : List ε) (e : ε) (s : σ) :
    exec step s (es ++ [e]) = (exec step s es).bind fun s' => step s' e := by
  rw [exec_append]
  congr 1
  funext s'
  simp [exec]

/-- A step after a run is a run. -/
theorem exec_step {s₀ s s' : σ} {pre : List ε} {e : ε} (hpre : exec step s₀ pre = some s)
    (hs : step s e = some s') : exec step s₀ (pre ++ [e]) = some s' := by
  rw [exec_snoc, hpre]
  exact hs

/-- The last step of a run. -/
theorem exec_snoc_some {s₀ s' : σ} {pre : List ε} {e : ε}
    (h : exec step s₀ (pre ++ [e]) = some s') :
    ∃ s, exec step s₀ pre = some s ∧ step s e = some s' := by
  rw [exec_snoc] at h
  exact Option.bind_eq_some_iff.1 h

/-- Induction over a run from its end, with the events so far. -/
theorem exec_induction {s₀ : σ} {motive : List ε → σ → Prop} (init : motive [] s₀)
    (next : ∀ pre s e s', exec step s₀ pre = some s → motive pre s → step s e = some s' →
      motive (pre ++ [e]) s') :
    ∀ es s, exec step s₀ es = some s → motive es s := by
  intro es
  induction es using List.reverseRecOn with
  | nil =>
    intro s h
    obtain rfl : s₀ = s := by simpa using h
    exact init
  | append_singleton es e ih =>
    intro s' h
    obtain ⟨s, hs, he⟩ := exec_snoc_some h
    exact next es s e s' hs (ih s hs) he

/-! ## Properties of every state and of every step -/

/-- `P` holds of every state the run of `es` reaches, with the events before it. -/
def EveryState (step : σ → ε → Option σ) (P : List ε → σ → Prop) (s₀ : σ) (es : List ε) : Prop :=
  ∀ pre s, pre <+: es → exec step s₀ pre = some s → P pre s

/-- `Q` holds of every step the run of `es` takes : the events before it, the state
before it, its event and the state after it. -/
def EveryStep (step : σ → ε → Option σ) (Q : List ε → σ → ε → σ → Prop) (s₀ : σ)
    (es : List ε) : Prop :=
  ∀ pre e s s', pre ++ [e] <+: es → exec step s₀ pre = some s → step s e = some s' → Q pre s e s'

theorem EveryState.mono {P P' : List ε → σ → Prop} {s₀ : σ} {es : List ε}
    (h : EveryState step P s₀ es) (hP : ∀ pre s, P pre s → P' pre s) :
    EveryState step P' s₀ es :=
  fun pre s hpre hs => hP pre s (h pre s hpre hs)

@[simp] theorem everyStep_nil (Q : List ε → σ → ε → σ → Prop) (s₀ : σ) :
    EveryStep step Q s₀ [] := by
  intro pre e s s' hpre
  simp at hpre

/-- The steps of a run are its first step and the steps of the rest. -/
theorem everyStep_cons {Q : List ε → σ → ε → σ → Prop} {s₀ : σ} {e : ε} {es : List ε} :
    EveryStep step Q s₀ (e :: es) ↔ ∀ s₁, step s₀ e = some s₁ →
      Q [] s₀ e s₁ ∧ EveryStep step (fun pre => Q (e :: pre)) s₁ es := by
  constructor
  · intro h s₁ hs₁
    refine ⟨h [] e s₀ s₁ (by simp) rfl hs₁, fun pre d s s' hpre hs hd => ?_⟩
    refine h (e :: pre) d s s' (by simpa using hpre) ?_ hd
    simpa [exec, hs₁] using hs
  · rintro h (_ | ⟨d, pre⟩) d' s s' hpre hs hd
    · obtain rfl : s₀ = s := by simpa using hs
      obtain rfl : d' = e := by simpa using hpre
      exact (h s' hd).1
    · obtain ⟨rfl, hrest⟩ := List.cons_prefix_cons.1 hpre
      obtain ⟨s₁, hs₁, hs⟩ := Option.bind_eq_some_iff.1 hs
      exact (h s₁ hs₁).2 pre d' s s' hrest hs hd

/-- A run is checked step by step. -/
instance decidableEveryStep : ∀ (Q : List ε → σ → ε → σ → Prop)
    [∀ pre s e s', Decidable (Q pre s e s')] (s₀ : σ) (es : List ε),
    Decidable (EveryStep step Q s₀ es)
  | Q, _, s₀, [] => .isTrue (everyStep_nil Q s₀)
  | Q, _, s₀, e :: es =>
    match hs : step s₀ e with
    | none => .isTrue (everyStep_cons.2 fun s₁ hs₁ => by simp [hs] at hs₁)
    | some s₁ =>
      have : Decidable (EveryStep step (fun pre => Q (e :: pre)) s₁ es) :=
        decidableEveryStep (fun pre => Q (e :: pre)) s₁ es
      decidable_of_iff (Q [] s₀ e s₁ ∧ EveryStep step (fun pre => Q (e :: pre)) s₁ es)
        (by simp [everyStep_cons, hs])

/-- The steps of a run are those of a shorter run and its last one. -/
theorem everyStep_snoc {Q : List ε → σ → ε → σ → Prop} {s₀ : σ} {es : List ε} {e : ε} :
    EveryStep step Q s₀ (es ++ [e]) ↔ EveryStep step Q s₀ es ∧
      ∀ s s', exec step s₀ es = some s → step s e = some s' → Q es s e s' := by
  constructor
  · intro h
    refine ⟨fun pre d s s' hpre => ?_, fun s s' => h es e s s' (List.prefix_refl _)⟩
    exact h pre d s s' (hpre.trans (List.prefix_append es [e]))
  · rintro ⟨hes, hlast⟩ pre d s s' hpre hs hd
    rcases List.prefix_concat_iff.1 hpre with heq | hpre
    · obtain ⟨rfl, hsingle⟩ := List.append_inj' heq rfl
      obtain rfl := List.singleton_inj.1 hsingle
      exact hlast s s' hs hd
    · exact hes pre d s s' hpre hs hd

/-- The property of the state a whole run ends in. -/
theorem EveryState.last {P : List ε → σ → Prop} {s₀ s : σ} {es : List ε}
    (h : EveryState step P s₀ es) (hs : exec step s₀ es = some s) : P es s :=
  h es s (List.prefix_refl es) hs

/-- A property of every run is a property of every state of every run. -/
theorem everyState_of_exec {P : List ε → σ → Prop} {s₀ : σ}
    (h : ∀ es s, exec step s₀ es = some s → P es s) (es : List ε) : EveryState step P s₀ es :=
  fun pre s _ hs => h pre s hs

/-- The invariant rule : what holds at the start and survives every step holds in
every state. -/
theorem everyState_of_invariant {I : List ε → σ → Prop} {s₀ : σ} (init : I [] s₀)
    (next : ∀ pre s e s', exec step s₀ pre = some s → I pre s → step s e = some s' →
      I (pre ++ [e]) s') (es : List ε) : EveryState step I s₀ es :=
  everyState_of_exec (exec_induction init next) es

/-- Two step properties that agree wherever the invariant holds agree along a run. -/
theorem everyStep_congr {I : List ε → σ → Prop} {Q Q' : List ε → σ → ε → σ → Prop} {s₀ : σ}
    {es : List ε} (h : EveryState step I s₀ es)
    (hQ : ∀ pre s e s', I pre s → step s e = some s' → (Q pre s e s' ↔ Q' pre s e s')) :
    EveryStep step Q s₀ es ↔ EveryStep step Q' s₀ es := by
  have hI : ∀ pre e s, pre ++ [e] <+: es → exec step s₀ pre = some s → I pre s :=
    fun pre e s hpre hs => h pre s ((List.prefix_append pre [e]).trans hpre) hs
  constructor
  · intro hall pre e s s' hpre hs he
    exact (hQ pre s e s' (hI pre e s hpre hs) he).1 (hall pre e s s' hpre hs he)
  · intro hall pre e s s' hpre hs he
    exact (hQ pre s e s' (hI pre e s hpre hs) he).2 (hall pre e s s' hpre hs he)

/-- The invariant rule under a condition on the steps. -/
theorem everyState_of_everyStep {I : List ε → σ → Prop} {ok : List ε → σ → ε → σ → Prop} {s₀ : σ}
    (init : I [] s₀)
    (next : ∀ pre s e s', exec step s₀ pre = some s → I pre s → step s e = some s' →
      ok pre s e s' → I (pre ++ [e]) s') {es : List ε} (h : EveryStep step ok s₀ es) :
    EveryState step I s₀ es := by
  intro pre
  induction pre using List.reverseRecOn with
  | nil =>
    intro s _ hs
    obtain rfl : s₀ = s := by simpa using hs
    exact init
  | append_singleton pre e ih =>
    intro s' hpre hs'
    obtain ⟨s, hs, he⟩ := exec_snoc_some hs'
    have hI : I pre s := ih s ((List.prefix_append pre [e]).trans hpre) hs
    exact next pre s e s' hs hI he (h pre e s s' hpre hs he)

/-- The exact condition. If steps within `ok` keep an invariant that implies `P`, and
a step outside `ok` leads to a state without `P`, then `P` holds along a run iff its
steps are all within `ok`. -/
theorem everyState_iff_everyStep {I P : List ε → σ → Prop} {ok : List ε → σ → ε → σ → Prop}
    {s₀ : σ} (init : I [] s₀) (hP : ∀ pre s, I pre s → P pre s)
    (next : ∀ pre s e s', exec step s₀ pre = some s → I pre s → step s e = some s' →
      ok pre s e s' → I (pre ++ [e]) s')
    (bad : ∀ pre s e s', exec step s₀ pre = some s → I pre s → step s e = some s' →
      ¬ok pre s e s' → ¬P (pre ++ [e]) s') (es : List ε) :
    EveryState step P s₀ es ↔ EveryStep step ok s₀ es := by
  constructor
  · intro hall
    -- the steps before a first bad one keep the invariant, so the induction is on the prefix
    have hI : ∀ pre s, pre <+: es → exec step s₀ pre = some s → I pre s := by
      intro pre
      induction pre using List.reverseRecOn with
      | nil =>
        intro s _ hs
        obtain rfl : s₀ = s := by simpa using hs
        exact init
      | append_singleton pre e ih =>
        intro s' hpre hs'
        obtain ⟨s, hs, he⟩ := exec_snoc_some hs'
        have hIs : I pre s := ih s ((List.prefix_append pre [e]).trans hpre) hs
        refine next pre s e s' hs hIs he ?_
        by_contra hbad
        exact bad pre s e s' hs hIs he hbad (hall _ s' hpre hs')
    intro pre e s s' hpre hs he
    by_contra hbad
    have hIs : I pre s := hI pre s ((List.prefix_append pre [e]).trans hpre) hs
    exact bad pre s e s' hs hIs he hbad (hall _ s' hpre (exec_step hs he))
  · intro hok
    exact (everyState_of_everyStep init next hok).mono hP

/-- The exact condition for a step property. If steps within `ok` keep an invariant, and
a step from it has the property iff it is within `ok`, then the steps of a run have the
property iff they are all within `ok`. -/
theorem everyStep_iff_of_invariant {I : List ε → σ → Prop} {Q ok : List ε → σ → ε → σ → Prop}
    {s₀ : σ} (init : I [] s₀)
    (next : ∀ pre s e s', exec step s₀ pre = some s → I pre s → step s e = some s' →
      ok pre s e s' → I (pre ++ [e]) s')
    (hQ : ∀ pre s e s', I pre s → step s e = some s' → (Q pre s e s' ↔ ok pre s e s'))
    (es : List ε) : EveryStep step Q s₀ es ↔ EveryStep step ok s₀ es := by
  constructor
  · intro hall
    have hI : EveryState step I s₀ es := everyState_of_everyStep init
      (fun pre s e s' hs hI he hq => next pre s e s' hs hI he ((hQ pre s e s' hI he).1 hq)) hall
    exact (everyStep_congr hI hQ).1 hall
  · intro hok
    exact (everyStep_congr (everyState_of_everyStep init next hok) hQ).2 hok

/-! ## Two runs -/

/-- Related states stay related along the run of the same events, if each step that the
first run takes keeps them related. -/
theorem exec_rel {R : σ → σ → Prop} {s₀ s₀' : σ} {es : List ε} (h : R s₀ s₀')
    (next : ∀ pre e s s', pre ++ [e] <+: es → exec step s₀ pre = some s →
      exec step s₀' pre = some s' → R s s' → Option.Rel R (step s e) (step s' e)) :
    ∀ pre, pre <+: es → Option.Rel R (exec step s₀ pre) (exec step s₀' pre) := by
  intro pre
  induction pre using List.reverseRecOn with
  | nil => exact fun _ => .some h
  | append_singleton pre e ih =>
    intro hpre
    have hrel := ih ((List.prefix_append pre [e]).trans hpre)
    rw [exec_snoc, exec_snoc]
    generalize hs : exec step s₀ pre = t at hrel
    generalize hs' : exec step s₀' pre = t' at hrel
    cases hrel with
    | none => exact .none
    | some hR => exact next pre e _ _ hpre hs hs' hR

/-- A state that the first run reaches is related to one that the second run reaches. -/
theorem exec_rel_right {R : σ → σ → Prop} {s₀ s₀' s : σ} {pre : List ε}
    (h : Option.Rel R (exec step s₀ pre) (exec step s₀' pre)) (hs : exec step s₀ pre = some s) :
    ∃ s', exec step s₀' pre = some s' ∧ R s s' := by
  rw [hs] at h
  generalize hs' : exec step s₀' pre = t' at h
  cases h with
  | some hR => exact ⟨_, rfl, hR⟩

/-- A state that the second run reaches is related to one that the first run reaches. -/
theorem exec_rel_left {R : σ → σ → Prop} {s₀ s₀' s' : σ} {pre : List ε}
    (h : Option.Rel R (exec step s₀ pre) (exec step s₀' pre)) (hs' : exec step s₀' pre = some s') :
    ∃ s, exec step s₀ pre = some s ∧ R s s' := by
  rw [hs'] at h
  generalize hs : exec step s₀ pre = t at h
  cases h with
  | some hR => exact ⟨_, rfl, hR⟩

end Transition
