import ConfFriends.Pods.MemoryCache

/-!
# The accounts of the memory cache

A removal reads the cost of its key in one section and takes it off the total in the next.
Along every interleaving the total is the sum of the costs iff no removal takes off a cost
that its key has no longer (`accounted_iff`). Two removals of one key are enough to break
it : the total then wraps around (`removesTwice`).

The costs have the keys of the objects. The dates can have more, since an access is dated in
a section of its own : `dated_iff` says when. `books_iff` is both.
-/

set_option linter.unusedSectionVars false

namespace ConfFriends.Pods

open Transition

namespace PINMemoryCache

variable {V : Type} {τ : Type*} [DecidableEq τ]

/-- The section of a step, if it has one, is as wanted. -/
def Sections (ok : PINMemoryCache V → Section V → Prop) (s : Threads τ V) (e : CacheEvent τ V) :
    Prop :=
  ∀ q ∈ sectionAt s e, ok s.store q.1

instance {ok : PINMemoryCache V → Section V → Prop} [∀ c, DecidablePred (ok c)]
    (s : Threads τ V) (e : CacheEvent τ V) : Decidable (Sections ok s e) :=
  match h : sectionAt s e with
  | none => .isTrue (by simp [Sections, h])
  | some q => decidable_of_iff (ok s.store q.1) (by simp [Sections, h])

/-- A property of the cache that the wanted sections keep and the others break. -/
theorem everyState_iff_sections {I P : PINMemoryCache V → Prop}
    {ok : PINMemoryCache V → Section V → Prop} (init : I {}) (hP : ∀ c, I c → P c)
    (next : ∀ c q input, I c → ok c q → I (c.effect q input))
    (bad : ∀ c q input, I c → ¬ok c q → ¬P (c.effect q input)) (es : List (CacheEvent τ V)) :
    EveryState step (fun _ s => P s.store) unused es ↔
      EveryStep step (fun _ s e _ => Sections ok s e) unused es := by
  refine everyState_iff_everyStep (I := fun _ s => I s.store) init (fun _ s => hP s.store) ?_ ?_ es
  · intro _ s e s' _ hI hs hok
    rw [store_of_step hs]
    cases hq : sectionAt s e with
    | none => exact hI
    | some q => exact next s.store q.1 q.2 hI (hok q hq)
  · intro _ s e s' _ hI hs hbad
    simp only [Sections, not_forall] at hbad
    obtain ⟨q, hq, hnot⟩ := hbad
    rw [store_of_step hs, Option.mem_def.1 hq]
    exact bad s.store q.1 q.2 hI hnot

/-! ## The total -/

/-- The total is the sum of the costs. -/
def Accounted (c : PINMemoryCache V) : Prop :=
  c.totalCost = Ledger.total id c.costs

/-- The section takes off what it removes. -/
def KeepsAccount (c : PINMemoryCache V) : Section V → Prop
  | .remove key cost => cost.getD 0 = Ledger.amount id c.costs key
  | _ => True

theorem accounted_remove_iff {c : PINMemoryCache V} (h : c.Accounted) (key : String)
    (cost : Option NSUInteger) (input : SectionInput) :
    (c.effect (.remove key cost) input).Accounted ↔ c.KeepsAccount (.remove key cost) := by
  have htotal := Ledger.total_erase id c.costs key
  simp only [Accounted, effect, KeepsAccount]
  rw [show c.totalCost = _ from h, htotal, sub_eq_iff_eq_add, add_comm, add_right_inj, eq_comm]

theorem accounted_add {c : PINMemoryCache V} (h : c.Accounted) (key : String) (object : V)
    (cost costLimit : NSUInteger) (input : SectionInput) :
    (c.effect (.add key object cost costLimit) input).Accounted := by
  have htotal := Ledger.total_erase id c.costs key
  have hamount : Ledger.amount id c.costs key = (c.costs.lookup key).getD 0 := by
    simp [Ledger.amount]
  simp only [Accounted, effect]
  rw [show c.totalCost = _ from h, htotal, hamount, add_sub_cancel_left, Ledger.total_insert,
    add_comm, id]

theorem Accounted.effect {c : PINMemoryCache V} (h : c.Accounted) {q : Section V}
    (hq : c.KeepsAccount q) (input : SectionInput) : (c.effect q input).Accounted := by
  cases q with
  | remove key cost => exact (accounted_remove_iff h key cost input).2 hq
  | add key object cost costLimit => exact accounted_add h key object cost costLimit input
  | _ => first | exact h | rfl

/-- The total is the sum of the costs along a run iff every removal takes off the cost that
its key has. -/
theorem accounted_iff (es : List (CacheEvent τ V)) :
    EveryState step (fun _ s => s.store.Accounted) unused es ↔
      EveryStep step (fun _ s e _ => Sections KeepsAccount s e) unused es := by
  have hinit : Accounted ({} : PINMemoryCache V) := rfl
  refine everyState_iff_sections hinit (fun _ h => h) (fun c q input h hq => h.effect hq input)
    ?_ es
  intro c q input h hbad
  cases q with
  | remove key cost => exact fun hall => hbad ((accounted_remove_iff h key cost input).1 hall)
  | _ => exact absurd trivial hbad

/-- Two threads remove one object. -/
def removesTwice : List (CacheEvent Bool String) :=
  [(true, .call (.setObject (some "avatar") "a" 5)), (true, .resume {}), (true, .resume {}),
    (true, .call (.removeObjectForKey "a")), (false, .call (.removeObjectForKey "a")),
    (true, .resume {}), (false, .resume {}), (true, .resume {}), (false, .resume {})]

/-- The total of the empty cache is below zero, which is a large number. -/
example : (exec step unused removesTwice).map
    (fun s : Threads Bool String => (s.store.costs.keys, s.store.totalCost)) = some (∅, -5) := by
  decide

/-! ## The keys -/

/-- Every object has a cost and a date, and only objects have costs. -/
structure Keyed (c : PINMemoryCache V) : Prop where
  costs : ∀ key, key ∈ c.costs ↔ key ∈ c.dictionary
  dates : ∀ key, key ∈ c.dictionary → key ∈ c.dates

theorem Keyed.effect {c : PINMemoryCache V} (h : c.Keyed) (q : Section V)
    (input : SectionInput) : (c.effect q input).Keyed := by
  obtain ⟨hcosts, hdates⟩ := h
  cases q with
  | remove key cost =>
    refine ⟨fun key' => ?_, fun key' => ?_⟩
    · simp only [PINMemoryCache.effect, Finmap.mem_erase, hcosts]
    · simp only [PINMemoryCache.effect, Finmap.mem_erase]
      exact And.imp_right (hdates key')
  | date key now =>
    refine ⟨hcosts, fun key' hkey => ?_⟩
    exact Finmap.mem_insert.2 (Or.inr (hdates key' hkey))
  | add key object cost costLimit =>
    refine ⟨fun key' => ?_, fun key' => ?_⟩
    · simp only [PINMemoryCache.effect, Finmap.mem_insert, hcosts]
    · simp only [PINMemoryCache.effect, Finmap.mem_insert]
      exact Or.imp_right (hdates key')
  | removeAll => exact ⟨fun _ => Iff.rfl, fun _ => id⟩
  | _ => exact ⟨hcosts, hdates⟩

/-- The cache has dates for its objects only. -/
def Dated (c : PINMemoryCache V) : Prop :=
  ∀ key, key ∈ c.dates ↔ key ∈ c.dictionary

/-- The section dates an access to an object that is there. -/
def DatesObject (c : PINMemoryCache V) : Section V → Prop
  | .date key _ => key ∈ c.dictionary
  | _ => True

theorem Dated.effect {c : PINMemoryCache V} (h : c.Dated) {q : Section V}
    (hq : c.DatesObject q) (input : SectionInput) : (c.effect q input).Dated := by
  cases q with
  | remove key cost =>
    intro key'
    simp only [PINMemoryCache.effect, Finmap.mem_erase, h key']
  | date key now =>
    intro key'
    simp only [PINMemoryCache.effect, Finmap.mem_insert, h key', or_iff_right_iff_imp]
    rintro rfl
    exact hq
  | add key object cost costLimit =>
    intro key'
    simp only [PINMemoryCache.effect, Finmap.mem_insert, h key']
  | removeAll => exact fun _ => Iff.rfl
  | _ => exact h

/-- The dates have the keys of the objects along a run iff no access is dated after its
object was removed. -/
theorem dated_iff (es : List (CacheEvent τ V)) :
    EveryState step (fun _ s => s.store.Dated) unused es ↔
      EveryStep step (fun _ s e _ => Sections DatesObject s e) unused es := by
  have hinit : Dated ({} : PINMemoryCache V) := fun _ => Iff.rfl
  refine everyState_iff_sections hinit (fun _ h => h) (fun c q input h hq => h.effect hq input)
    ?_ es
  intro c q input h hbad
  cases q with
  | date key now => exact fun hall => hbad ((hall key).1 (Finmap.mem_insert.2 (Or.inl rfl)))
  | _ => exact absurd trivial hbad

/-- Along a run the total is right iff every removal takes off the cost that its key has, and
the dates are those of the objects iff no access is dated after its object was removed. -/
theorem books_iff (es : List (CacheEvent τ V)) :
    (EveryState step (fun _ s => s.store.Accounted) unused es ↔
        EveryStep step (fun _ s e _ => Sections KeepsAccount s e) unused es) ∧
      (EveryState step (fun _ s => s.store.Dated) unused es ↔
        EveryStep step (fun _ s e _ => Sections DatesObject s e) unused es) :=
  ⟨accounted_iff es, dated_iff es⟩

end PINMemoryCache

end ConfFriends.Pods
