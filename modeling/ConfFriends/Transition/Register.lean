import Mathlib.Logic.Function.Basic
import ConfFriends.Transition.History

/-!
# Registers along a run

Some steps of a system write a register, others write nothing. `contents` is what the
registers hold after a run, and `contents_eq_iff` reads it off the past : a register holds
what the last write to it has put there, or what it held at the start if there was none.
`everyState_contents` connects a system to its registers.
-/

set_option linter.unusedSectionVars false

namespace Transition

variable {σ ε κ α : Type*} [DecidableEq κ] {step : σ → ε → Option σ}
  {writes : σ → ε → Option (κ × α)}

/-- The run of `pre` and then of the rest. -/
theorem track_append {β : Type*} (update : σ → ε → β → β) (post : List ε) :
    ∀ (pre : List ε) (b : β) (s₀ : σ) {s : σ}, exec step s₀ pre = some s →
      track step update b s₀ (pre ++ post) =
        track step update (track step update b s₀ pre) s post
  | [], b, s₀, s, hs => by
    obtain rfl : s₀ = s := by simpa using hs
    rfl
  | d :: pre, b, s₀, s, hs => by
    obtain ⟨s₁, hd, hs₁⟩ := Option.bind_eq_some_iff.1 hs
    simpa [track, hd] using track_append update post pre (update s₀ d b) s₁ hs₁

namespace Register

/-! ## Writes -/

/-- The registers after a write, if there is one. -/
def write (f : κ → α) : Option (κ × α) → κ → α
  | none => f
  | some (k, a) => Function.update f k a

@[simp] theorem write_none (f : κ → α) : write f none = f :=
  rfl

@[simp] theorem write_some (f : κ → α) (k : κ) (a : α) :
    write f (some (k, a)) = Function.update f k a :=
  rfl

/-- A write to another register. -/
theorem write_of_ne (f : κ → α) {w : Option (κ × α)} {k : κ} (h : ∀ a, w ≠ some (k, a)) :
    write f w k = f k := by
  match w with
  | none => rfl
  | some (k', a) =>
    have hne : k ≠ k' := by
      rintro rfl
      exact h a rfl
    exact Function.update_of_ne hne a f

/-- What a register holds after a write was written, or there before. -/
theorem write_eq {f : κ → α} {w : Option (κ × α)} {k : κ} {a : α} (h : write f w k = a) :
    w = some (k, a) ∨ f k = a := by
  by_cases hw : ∃ b, w = some (k, b)
  · obtain ⟨b, rfl⟩ := hw
    rw [write_some, Function.update_self] at h
    exact Or.inl (by rw [h])
  · exact Or.inr ((write_of_ne f (not_exists.1 hw)).symm.trans h)

/-- What the registers hold after a run from `f`. -/
def contents (step : σ → ε → Option σ) (writes : σ → ε → Option (κ × α)) (f : κ → α) (s : σ)
    (es : List ε) : κ → α :=
  track step (fun s e f => write f (writes s e)) f s es

/-- The last step writes to what the run before it leaves. -/
theorem contents_snoc {f : κ → α} {s₀ s s' : σ} {pre : List ε} {e : ε}
    (hpre : exec step s₀ pre = some s) (hs : step s e = some s') :
    contents step writes f s₀ (pre ++ [e]) =
      write (contents step writes f s₀ pre) (writes s e) :=
  track_snoc (fun s e f => write f (writes s e)) e pre f s₀ hpre hs

/-- No step of the run writes to the register. -/
def Unwritten (step : σ → ε → Option σ) (writes : σ → ε → Option (κ × α)) (k : κ) (s : σ)
    (es : List ε) : Prop :=
  EveryStep step (fun _ t e _ => ∀ a, writes t e ≠ some (k, a)) s es

/-- The last write of the run to the register writes `a`. -/
def LastWrite (step : σ → ε → Option σ) (writes : σ → ε → Option (κ × α)) (k : κ) (a : α)
    (s₀ : σ) (es : List ε) : Prop :=
  ∃ pre e post s s', es = pre ++ e :: post ∧ exec step s₀ pre = some s ∧ step s e = some s' ∧
    writes s e = some (k, a) ∧ Unwritten step writes k s' post

/-! ## Reading the contents off the past -/

theorem unwritten_cons {k : κ} {s : σ} {e : ε} {es : List ε} :
    Unwritten step writes k s (e :: es) ↔ ∀ s₁, step s e = some s₁ →
      (∀ a, writes s e ≠ some (k, a)) ∧ Unwritten step writes k s₁ es :=
  everyStep_cons

/-- A register that is not written keeps what it holds. -/
theorem contents_of_unwritten {k : κ} :
    ∀ {es : List ε} {f : κ → α} {s : σ}, Unwritten step writes k s es →
      contents step writes f s es k = f k
  | [], f, s, _ => rfl
  | e :: es, f, s, h => by
    unfold contents track
    cases hs : step s e with
    | none => rfl
    | some s₁ =>
      obtain ⟨hne, hrest⟩ := unwritten_cons.1 h s₁ hs
      exact (contents_of_unwritten hrest).trans (write_of_ne f hne)

/-- A register holds what was written last. -/
theorem contents_of_lastWrite {k : κ} {a : α} {f : κ → α} {s₀ : σ} {es : List ε}
    (h : LastWrite step writes k a s₀ es) : contents step writes f s₀ es k = a := by
  obtain ⟨pre, e, post, s, s', rfl, hpre, hs, hwrites, hrest⟩ := h
  have hrun : contents step writes f s₀ (pre ++ e :: post) =
      contents step writes (write (contents step writes f s₀ pre) (writes s e)) s' post := by
    unfold contents
    rw [track_append _ (e :: post) pre f s₀ hpre]
    simp [track, hs]
  rw [hrun, contents_of_unwritten hrest, hwrites, write_some, Function.update_self]

/-- A run writes to the register for a last time, or never. -/
theorem unwritten_or_lastWrite (k : κ) :
    ∀ (es : List ε) (s : σ),
      Unwritten step writes k s es ∨ ∃ a, LastWrite step writes k a s es
  | [], s => Or.inl (everyStep_nil _ s)
  | e :: es, s => by
    cases hs : step s e with
    | none => exact Or.inl (unwritten_cons.2 (by simp [hs]))
    | some s₁ =>
      rcases unwritten_or_lastWrite k es s₁ with hrest | ⟨a, hlast⟩
      · by_cases hwrites : ∃ a, writes s e = some (k, a)
        · obtain ⟨a, ha⟩ := hwrites
          exact Or.inr ⟨a, [], e, es, s, s₁, rfl, rfl, hs, ha, hrest⟩
        · refine Or.inl (unwritten_cons.2 fun s₁' hs₁' => ?_)
          obtain rfl : s₁ = s₁' := Option.some.inj (hs.symm.trans hs₁')
          exact ⟨not_exists.1 hwrites, hrest⟩
      · obtain ⟨pre, d, post, t, t', rfl, hpre, ht, hwrites, hpost⟩ := hlast
        refine Or.inr ⟨a, e :: pre, d, post, t, t', rfl, ?_, ht, hwrites, hpost⟩
        simpa [exec, hs] using hpre

/-- A register holds `a` iff `a` was written last, or was there and nothing was written. -/
theorem contents_eq_iff {k : κ} {a : α} {f : κ → α} {s : σ} {es : List ε} :
    contents step writes f s es k = a ↔
      LastWrite step writes k a s es ∨ Unwritten step writes k s es ∧ f k = a := by
  constructor
  · intro h
    rcases unwritten_or_lastWrite k es s with hun | ⟨b, hlast⟩
    · exact Or.inr ⟨hun, (contents_of_unwritten hun).symm.trans h⟩
    · obtain rfl : b = a := (contents_of_lastWrite hlast).symm.trans h
      exact Or.inl hlast
  · rintro (hlast | ⟨hun, rfl⟩)
    · exact contents_of_lastWrite hlast
    · exact contents_of_unwritten hun

/-- The rule for registers : if each step changes what is read off the state by its write,
the state shows the contents of the registers along every run. -/
theorem everyState_contents (read : σ → κ → α)
    (h : ∀ s e s', step s e = some s' → read s' = write (read s) (writes s e)) (s₀ : σ)
    (es : List ε) :
    EveryState step (fun pre s => read s = contents step writes (read s₀) s₀ pre) s₀ es := by
  refine everyState_of_invariant (I := fun pre s => read s = contents step writes (read s₀) s₀ pre)
    rfl ?_ es
  intro pre s e s' hpre hI hs
  rw [h s e s' hs, hI, contents_snoc hpre hs]

end Register

end Transition
