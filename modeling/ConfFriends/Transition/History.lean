import ConfFriends.Transition.Run

/-!
# The past of a run

`track` computes a history variable along a run : a value, updated at each step by the
state before it and its event. A property that speaks about the past through such a
variable stays executable, and `track_snoc` is the only fact an invariant over runs
needs about it. `track_rel` compares two variables along one run.

`since A B` is the variable that reads whether `A` has held at some step, and `B` at
none after it. `Happened` says that `A` has held at some step, for an `A` that need not be
decidable.
-/

namespace Transition

variable {σ ε β β' : Type*} {step : σ → ε → Option σ}

/-! ## History variables -/

/-- The value after the events from the state, the first argument `b` before them. -/
def track (step : σ → ε → Option σ) (update : σ → ε → β → β) : β → σ → List ε → β
  | b, _, [] => b
  | b, s, e :: es =>
    match step s e with
    | none => b
    | some s' => track step update (update s e b) s' es

@[simp] theorem track_nil (update : σ → ε → β → β) (b : β) (s : σ) :
    track step update b s [] = b :=
  rfl

/-- The last step updates the value of the run before it. -/
theorem track_snoc (update : σ → ε → β → β) (e : ε) :
    ∀ (pre : List ε) (b : β) (s₀ : σ) {s s' : σ}, exec step s₀ pre = some s →
      step s e = some s' →
      track step update b s₀ (pre ++ [e]) = update s e (track step update b s₀ pre)
  | [], b, s₀, s, s', hs, he => by
    obtain rfl : s₀ = s := by simpa using hs
    simp [track, he]
  | d :: pre, b, s₀, s, s', hs, he => by
    cases hd : step s₀ d with
    | none => simp [exec, hd] at hs
    | some s₁ =>
      have hs₁ : exec step s₁ pre = some s := by simpa [exec, hd] using hs
      simpa [track, hd] using track_snoc update e pre _ s₁ hs₁ he

/-- Two history variables stay in a relation that each update keeps. -/
theorem track_rel {update : σ → ε → β → β} {update' : σ → ε → β' → β'} {R : β → β' → Prop}
    (hR : ∀ s e b b', R b b' → R (update s e b) (update' s e b')) :
    ∀ (es : List ε) (b : β) (b' : β') (s : σ), R b b' →
      R (track step update b s es) (track step update' b' s es)
  | [], _, _, _, h => h
  | e :: es, b, b', s, h => by
    unfold track
    cases step s e with
    | none => exact h
    | some s' => exact track_rel hR es _ _ s' (hR s e b b' h)

/-! ## Since -/

/-- `A` held at a step of the run of the events from the state, `B` at none after it.
The bit is the answer for the empty run. -/
def since (step : σ → ε → Option σ) (A B : σ → ε → Bool) : Bool → σ → List ε → Bool :=
  track step fun s e acc => A s e || (acc && !B s e)

@[simp] theorem since_nil (A B : σ → ε → Bool) (acc : Bool) (s : σ) :
    since step A B acc s [] = acc :=
  rfl

/-- At the last step, `A` sets the bit, `B` clears it, and any other step keeps it. -/
theorem since_snoc (A B : σ → ε → Bool) (e : ε) (pre : List ε) (acc : Bool) (s₀ : σ) {s s' : σ}
    (hs : exec step s₀ pre = some s) (he : step s e = some s') :
    since step A B acc s₀ (pre ++ [e]) = (A s e || (since step A B acc s₀ pre && !B s e)) :=
  track_snoc _ e pre acc s₀ hs he

/-- More events that set the bit leave it set more often. -/
theorem since_mono {A A' B : σ → ε → Bool} (hA : ∀ s e, A s e = true → A' s e = true)
    (es : List ε) (acc : Bool) (s : σ) (h : since step A B acc s es = true) :
    since step A' B acc s es = true := by
  refine track_rel (R := fun b b' => b = true → b' = true) (fun s e b b' hb hset => ?_)
    es acc acc s id h
  simp only [Bool.or_eq_true, Bool.and_eq_true] at hset ⊢
  exact hset.imp (hA s e) fun hkept => ⟨hb hkept.1, hkept.2⟩

/-! ## At some step -/

/-- `A` held at a step of the run of the events. -/
def Happened (step : σ → ε → Option σ) (A : σ → ε → Prop) (s₀ : σ) (es : List ε) : Prop :=
  ∃ pre e s s', pre ++ [e] <+: es ∧ exec step s₀ pre = some s ∧ step s e = some s' ∧ A s e

/-- What has happened stays so. -/
theorem Happened.snoc {A : σ → ε → Prop} {s₀ : σ} {es : List ε}
    (h : Happened step A s₀ es) (d : ε) : Happened step A s₀ (es ++ [d]) := by
  obtain ⟨pre, e, s, s', hpre, hrest⟩ := h
  exact ⟨pre, e, s, s', hpre.trans (List.prefix_append es [d]), hrest⟩

/-- `A` holds at the last step. -/
theorem happened_last {A : σ → ε → Prop} {s₀ s s' : σ} {pre : List ε} {e : ε}
    (hpre : exec step s₀ pre = some s) (hs : step s e = some s') (hA : A s e) :
    Happened step A s₀ (pre ++ [e]) :=
  ⟨pre, e, s, s', List.prefix_refl _, hpre, hs, hA⟩

end Transition
