import ConfFriends.Transition.Parties

/-!
# Programs in critical sections

Threads share data behind one lock. A `Program` takes the lock for a section, lets it go,
and goes on with what the section has replied. A section has an effect on the data, which
can depend on an input from outside, such as the clock, and may not take every input.

The threads are parties over the data : each runs the program of one call after another, and
between any two sections of one thread others can have theirs. `act_cases` is the inversion
of their step.
-/

set_option linter.unusedSectionVars false

namespace Transition

universe u v

/-- A program over the sections `Q`. -/
inductive Program (Q : Type v) (Reply : Q → Type u) (α : Type u)
  | done (a : α)
  | lock (q : Q) (next : Reply q → Program Q Reply α)

namespace Program

variable {Q : Type v} {Reply : Q → Type u} {α β : Type u}

def bind : Program Q Reply α → (α → Program Q Reply β) → Program Q Reply β
  | done a, f => f a
  | lock q next, f => lock q fun r => (next r).bind f

instance : Monad (Program Q Reply) where
  pure := done
  bind := bind

/-- A single section. -/
def locked (q : Q) : Program Q Reply (Reply q) :=
  lock q done

@[simp] theorem pure_eq (a : α) : (pure a : Program Q Reply α) = done a :=
  rfl

@[simp] theorem done_bind (a : α) (f : α → Program Q Reply β) :
    done a >>= f = f a :=
  rfl

@[simp] theorem lock_bind (q : Q) (next : Reply q → Program Q Reply α)
    (f : α → Program Q Reply β) : lock q next >>= f = lock q fun r => next r >>= f :=
  rfl

@[simp] theorem locked_bind (q : Q) (f : Reply q → Program Q Reply β) :
    locked q >>= f = lock q f :=
  rfl

theorem bind_done (p : Program Q Reply α) : p >>= done = p := by
  induction p with
  | done a => rfl
  | lock q next ih =>
    simp only [lock_bind]
    congr 1
    funext r
    exact ih r

theorem bind_assoc {γ : Type u} (p : Program Q Reply α) (f : α → Program Q Reply β)
    (g : β → Program Q Reply γ) : p >>= f >>= g = p >>= fun a => f a >>= g := by
  induction p with
  | done a => rfl
  | lock q next ih =>
    simp only [lock_bind]
    congr 1
    funext r
    exact ih r

/-! ## Threads -/

/-- What happens to a thread : a call of the method `m`, or its next section. -/
inductive ThreadEvent (M ι : Type*)
  | call (m : M)
  | resume (input : ι)

variable {κ ι M : Type*} {body : M → Program Q Reply α} {effect : κ → Q → ι → κ}
  {reply : κ → (q : Q) → ι → Option (Reply q)}

/-- A thread moves. Only an idle one is called. -/
def act (body : M → Program Q Reply α) (effect : κ → Q → ι → κ)
    (reply : κ → (q : Q) → ι → Option (Reply q)) (data : κ) (p : Program Q Reply α) :
    ThreadEvent M ι → Option (κ × Program Q Reply α)
  | .call m =>
    match p with
    | done _ => some (data, body m)
    | lock _ _ => none
  | .resume input =>
    match p with
    | done _ => none
    | lock q next => (reply data q input).map fun r => (effect data q input, next r)

/-- The section that a thread has by its event, with the input. -/
def sectionOf (p : Program Q Reply α) : ThreadEvent M ι → Option (Q × ι)
  | .call _ => none
  | .resume input =>
    match p with
    | done _ => none
    | lock q _ => some (q, input)

/-- The inversion of `act`. -/
theorem act_cases {data data' : κ} {p p' : Program Q Reply α} {e : ThreadEvent M ι}
    (h : act body effect reply data p e = some (data', p')) :
    (∃ m a, e = .call m ∧ p = done a ∧ data' = data ∧ p' = body m) ∨
      ∃ input q next r, e = .resume input ∧ p = lock q next ∧
        reply data q input = some r ∧ data' = effect data q input ∧ p' = next r := by
  cases e with
  | call m =>
    cases p with
    | done a =>
      obtain ⟨rfl, rfl⟩ := Prod.mk.inj (Option.some.inj h)
      exact Or.inl ⟨m, a, rfl, rfl, rfl, rfl⟩
    | lock q next => simp [act] at h
  | resume input =>
    cases p with
    | done a => simp [act] at h
    | lock q next =>
      obtain ⟨r, hr, heq⟩ := Option.map_eq_some_iff.1 h
      obtain ⟨rfl, rfl⟩ := Prod.mk.inj heq
      exact Or.inr ⟨input, q, next, r, rfl, rfl, hr, rfl, rfl⟩

/-- The data changes by the effect of the section. -/
theorem data_of_act {data data' : κ} {p p' : Program Q Reply α} {e : ThreadEvent M ι}
    (h : act body effect reply data p e = some (data', p')) :
    data' = (sectionOf p e).elim data fun s => effect data s.1 s.2 := by
  obtain ⟨m, a, rfl, rfl, rfl, -⟩ | ⟨input, q, next, r, rfl, rfl, -, rfl, -⟩ := act_cases h
  · rfl
  · rfl

end Program

end Transition
