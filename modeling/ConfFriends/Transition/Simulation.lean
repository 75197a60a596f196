import ConfFriends.Transition.Run

/-!
# Simulations

Two systems over the same events, with a relation between their states that each event
keeps : it happens in both or in neither, and leads to related states. Then a run of the
one is a run of the other, and ends in related states.
-/

namespace Transition

variable {σ τ ε : Type*} {step : σ → ε → Option σ} {step' : τ → ε → Option τ}

/-- Related states take related steps, by the events within `ok`. -/
def Simulates (step : σ → ε → Option σ) (step' : τ → ε → Option τ) (ok : ε → Prop)
    (R : σ → τ → Prop) : Prop :=
  ∀ s t e, ok e → R s t → Option.Rel R (step s e) (step' t e)

/-- The runs of the same events from related states. -/
theorem Simulates.exec {ok : ε → Prop} {R : σ → τ → Prop} (h : Simulates step step' ok R) :
    ∀ {es : List ε} {s : σ} {t : τ}, (∀ e ∈ es, ok e) → R s t →
      Option.Rel R (Transition.exec step s es) (Transition.exec step' t es)
  | [], s, t, _, hst => .some hst
  | e :: es, s, t, hok, hst => by
    have hrel := h s t e (hok e List.mem_cons_self) hst
    unfold Transition.exec
    generalize step s e = o at hrel ⊢
    generalize step' t e = o' at hrel ⊢
    cases hrel with
    | none => exact .none
    | some hst' => exact h.exec (fun d hd => hok d (List.mem_cons_of_mem e hd)) hst'

/-- A relation that determines the second state makes the second run the image of the
first. -/
theorem Simulates.map_exec {ok : ε → Prop} {R : σ → τ → Prop} (h : Simulates step step' ok R)
    {f : σ → τ} (hf : ∀ s t, R s t → f s = t) {es : List ε} {s : σ} {t : τ}
    (hok : ∀ e ∈ es, ok e) (hst : R s t) :
    (Transition.exec step s es).map f = Transition.exec step' t es := by
  have hrel := h.exec hok hst
  generalize Transition.exec step s es = o at hrel ⊢
  generalize Transition.exec step' t es = o' at hrel ⊢
  cases hrel with
  | none => rfl
  | some hst' => exact congrArg some (hf _ _ hst')

end Transition
