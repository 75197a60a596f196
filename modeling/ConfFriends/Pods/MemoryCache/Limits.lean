import ConfFriends.Pods.MemoryCache.Accounts

/-!
# The cost limit of the memory cache

The limit is kept by whoever adds : `setObject:forKey:withCost:` reads the limit, adds, and
trims, in sections of their own, and so does `setCostLimit:`. In between the cache holds too
much, and several threads can trim at once, over lists of keys that are out of date.

`withinLimit_run` says that nevertheless, once no call is under way, the total is within the
limit, along every interleaving whose removals take off the right costs and whose additions
are made under the present limit and fit into the total. The invariant is that while the
total is above the limit, some thread has all the keys still before it (`Trims`).
-/

set_option linter.unusedSectionVars false

namespace ConfFriends.Pods

open Transition

namespace PINMemoryCache

variable {V : Type} {τ : Type*} [DecidableEq τ] {α β : Type}

/-! ## The size -/

/-- The sum of the costs, however large. -/
def size (c : PINMemoryCache V) : ℕ :=
  Ledger.total BitVec.toNat c.costs

/-- The total shows the size. -/
structure Exact (c : PINMemoryCache V) : Prop where
  keyed : c.Keyed
  accounted : c.Accounted
  fits : c.size < 2 ^ 64

theorem Exact.toNat_totalCost {c : PINMemoryCache V} (h : c.Exact) :
    c.totalCost.toNat = c.size := by
  have hweight : (fun cost : NSUInteger => Nat.castAddMonoidHom NSUInteger cost.toNat) = id := by
    funext cost
    simp
  have hsize : ((c.size : ℕ) : NSUInteger) = Ledger.total id c.costs := by
    have hmap := Ledger.map_total BitVec.toNat (Nat.castAddMonoidHom NSUInteger) c.costs
    rwa [hweight] at hmap
  rw [show c.totalCost = _ from h.accounted, ← hsize]
  exact Nat.mod_eq_of_lt h.fits

/-- The addition fits into the total, and its method has read the present limit. -/
def AddsWithinLimits (c : PINMemoryCache V) : Section V → Prop
  | .add key _ cost costLimit =>
    Ledger.total BitVec.toNat (c.costs.erase key) + cost.toNat < 2 ^ 64 ∧ costLimit = c.costLimit
  | _ => True

theorem size_remove_le (c : PINMemoryCache V) (key : String) (cost : Option NSUInteger)
    (input : SectionInput) : (c.effect (.remove key cost) input).size ≤ c.size := by
  have htotal := Ledger.total_erase BitVec.toNat c.costs key
  simp only [size, effect]
  omega

theorem Exact.effect {c : PINMemoryCache V} (h : c.Exact) {q : Section V}
    (hkeeps : c.KeepsAccount q) (hadds : c.AddsWithinLimits q) (input : SectionInput) :
    (c.effect q input).Exact := by
  refine ⟨h.keyed.effect q input, h.accounted.effect hkeeps input, ?_⟩
  cases q with
  | remove key cost => exact (size_remove_le c key cost input).trans_lt h.fits
  | add key object cost costLimit =>
    simp only [size, PINMemoryCache.effect, Ledger.total_insert]
    have hlt := hadds.1
    omega
  | removeAll => exact Nat.two_pow_pos 64
  | _ => exact h.fits

/-! ## Programs that trim after an addition -/

/-- The section neither adds nor sets the limit. -/
def Plain : Section V → Prop
  | .add _ _ _ _ | .setCostLimit _ => False
  | _ => True

/-- The program trims after every addition and every new limit. -/
inductive TrimsAfter : Code V α → Prop
  | done (a : α) : TrimsAfter (.done a)
  | add {object : V} {key : String} {cost costLimit : NSUInteger} {f : Unit → Code V α}
      (hf : ∀ u, TrimsAfter (f u)) :
      TrimsAfter (.lock (.add key object cost costLimit) fun _ => trimIfLimited costLimit >>= f)
  | setCostLimit {costLimit : NSUInteger} {f : Unit → Code V α} (hf : ∀ u, TrimsAfter (f u)) :
      TrimsAfter (.lock (.setCostLimit costLimit) fun _ => trimIfLimited costLimit >>= f)
  | plain {q : Section V} {next : Reply q → Code V α} (hq : Plain q)
      (hnext : ∀ r, TrimsAfter (next r)) : TrimsAfter (.lock q next)

theorem TrimsAfter.bind {p : Code V α} {f : α → Code V β} (hp : TrimsAfter p)
    (hf : ∀ a, TrimsAfter (f a)) : TrimsAfter (p >>= f) := by
  induction hp with
  | done a => exact hf a
  | add _ ih =>
    simp only [Program.lock_bind, Program.bind_assoc]
    exact TrimsAfter.add ih
  | setCostLimit _ ih =>
    simp only [Program.lock_bind, Program.bind_assoc]
    exact TrimsAfter.setCostLimit ih
  | plain hq _ ih => exact TrimsAfter.plain hq ih

theorem trimsAfter_removeObject (key : String) :
    TrimsAfter (removeObjectAndExecuteBlocksForKey key : Code V Unit) :=
  .plain trivial fun _ => .plain trivial fun _ => .done ()

theorem trimsAfter_removeOlder (trimDate : NSTimeInterval)
    (dates : Finmap fun _ : String => NSTimeInterval) :
    ∀ keys, TrimsAfter (removeOlder trimDate dates keys : Code V Unit)
  | [] => .done ()
  | key :: keys => by
    have ih := trimsAfter_removeOlder trimDate dates keys
    unfold removeOlder
    split
    · exact ih
    · split
      · exact (trimsAfter_removeObject key).bind fun _ => ih
      · exact .done ()

theorem trimsAfter_trimMemoryToDate (trimDate : NSTimeInterval) :
    TrimsAfter (trimMemoryToDate trimDate : Code V Unit) := by
  rw [trimMemoryToDate_eq]
  exact .plain trivial fun r => trimsAfter_removeOlder trimDate r.2.1 r.2.2

theorem TrimsAfter.ite {P : Prop} [Decidable P] {p p' : Code V Unit} (hp : TrimsAfter p)
    (hp' : TrimsAfter p') : TrimsAfter (if P then p else p') := by
  split
  · exact hp
  · exact hp'

theorem trimsAfter_removeToLimit (limit : NSUInteger) :
    ∀ keys, TrimsAfter (removeToLimit limit keys : Code V Unit)
  | [] => .done ()
  | key :: keys => by
    rw [removeToLimit_cons]
    refine .plain trivial fun _ => .plain trivial fun _ => .plain trivial fun _ => ?_
    exact TrimsAfter.ite (.done ()) (trimsAfter_removeToLimit limit keys)

theorem trimsAfter_trimToCostLimitByDate (limit : NSUInteger) :
    TrimsAfter (trimToCostLimitByDate limit : Code V Unit) := by
  rw [trimToCostLimitByDate_eq]
  exact .plain trivial fun r => TrimsAfter.ite (.done ()) (trimsAfter_removeToLimit limit r.2.2)

theorem trimsAfter_trimIfLimited (costLimit : NSUInteger) :
    TrimsAfter (trimIfLimited costLimit : Code V Unit) :=
  TrimsAfter.ite (trimsAfter_trimToCostLimitByDate costLimit) (.done ())

theorem trimsAfter_trimToAgeLimitRecursively :
    TrimsAfter (trimToAgeLimitRecursively : Code V Unit) := by
  rw [trimToAgeLimitRecursively_eq]
  exact .plain trivial fun _ => TrimsAfter.ite (.done ()) (trimsAfter_trimMemoryToDate _)

theorem trimsAfter_trimToDate (trimDate : Option NSTimeInterval) :
    TrimsAfter (PINMemoryCache.trimToDate trimDate : Code V Unit) := by
  cases trimDate with
  | none => exact .done ()
  | some trimDate =>
    exact TrimsAfter.ite (.plain trivial fun _ => .done ()) (trimsAfter_trimMemoryToDate trimDate)

theorem trimsAfter_addObject (object : V) (key : String) (cost costLimit : NSUInteger) :
    TrimsAfter (addObject object key cost costLimit) := by
  have h : TrimsAfter (.lock (.add key object cost costLimit) fun _ =>
      trimIfLimited costLimit >>= Program.done) := TrimsAfter.add .done
  simpa only [Program.bind_done, ← addObject_eq] using h

theorem trimsAfter_setCostLimit (costLimit : NSUInteger) :
    TrimsAfter (setCostLimit costLimit : Code V Unit) := by
  have h : TrimsAfter (.lock (.setCostLimit costLimit : Section V) fun _ =>
      trimIfLimited costLimit >>= Program.done) := TrimsAfter.setCostLimit .done
  simpa only [Program.bind_done, ← setCostLimit_eq] using h

theorem trimsAfter_objectForKey (key : String) (now : NSTimeInterval) :
    TrimsAfter (objectForKey key now : Code V (Option V)) := by
  refine .plain trivial fun object => ?_
  cases object with
  | none => exact .done none
  | some object => exact .plain trivial fun _ => .done _

theorem trimsAfter_setObject (object : Option V) (key : String) (cost : NSUInteger) :
    TrimsAfter (setObject object key cost) := by
  cases object with
  | none => exact .done ()
  | some object =>
    exact .plain trivial fun costLimit => trimsAfter_addObject object key cost costLimit

/-- The methods trim after their additions. -/
theorem trimsAfter_body (m : Method V) : TrimsAfter m.body := by
  have hwithout : ∀ {p : Code V Unit}, TrimsAfter p → TrimsAfter (withoutObject p) :=
    fun hp => hp.bind fun _ => .done none
  cases m with
  | containsObjectForKey key => exact .plain trivial fun _ => .done none
  | objectForKey key now => exact trimsAfter_objectForKey key now
  | setObject object key cost => exact hwithout (trimsAfter_setObject object key cost)
  | removeObjectForKey key => exact hwithout (trimsAfter_removeObject key)
  | trimToDate trimDate => exact hwithout (trimsAfter_trimToDate trimDate)
  | trimToCost cost =>
    refine hwithout ?_
    rw [trimToCostLimit_eq]
    exact .plain trivial fun r => TrimsAfter.ite (.done ()) (trimsAfter_removeToLimit cost _)
  | trimToCostByDate cost => exact hwithout (trimsAfter_trimToCostLimitByDate cost)
  | removeAllObjects => exact hwithout (.plain trivial fun _ => .done ())
  | trimToAgeLimitRecursively => exact hwithout trimsAfter_trimToAgeLimitRecursively
  | setAgeLimit ageLimit =>
    exact hwithout (.plain trivial fun _ => trimsAfter_trimToAgeLimitRecursively)
  | setCostLimit costLimit => exact hwithout (trimsAfter_setCostLimit costLimit)
  | setTtlCache ttlCache => exact hwithout (.plain trivial fun _ => .done ())

/-! ## A thread that trims -/

/-- What the loop to the limit does after a removal. -/
def checkLimit (limit : NSUInteger) (keys : List String) : Code V Unit :=
  .lock .readTotalCost fun totalCost : NSUInteger =>
    if totalCost ≤ limit then pure () else removeToLimit limit keys

theorem trimToCostLimitByDate_bind (limit : NSUInteger) (f : Unit → Code V α) :
    trimToCostLimitByDate limit >>= f = .lock .sortDates
      fun r : NSUInteger × (Finmap fun _ : String => NSTimeInterval) × List String =>
        (if r.1 ≤ limit then pure () else removeToLimit limit r.2.2) >>= f :=
  rfl

theorem checkLimit_bind (limit : NSUInteger) (keys : List String) (f : Unit → Code V α) :
    checkLimit limit keys >>= f = .lock .readTotalCost fun totalCost : NSUInteger =>
      (if totalCost ≤ limit then pure () else removeToLimit limit keys) >>= f :=
  rfl

def OverLimit (c : PINMemoryCache V) : Prop :=
  0 < c.costLimit ∧ c.costLimit < c.totalCost

/-- The program is about to sort the keys, or in the loop with all keys before it. -/
inductive Trims (c : PINMemoryCache V) (p : Code V α) : Prop
  | sorts (f : Unit → Code V α) (hp : p = trimToCostLimitByDate c.costLimit >>= f)
  | loops (key : String) (keys : List String) (f : Unit → Code V α)
    (hp : p = removeToLimit c.costLimit (key :: keys) >>= f)
    (hkeys : ∀ key' ∈ c.costs, key' ∈ key :: keys)
  | removes (key : String) (cost : Option NSUInteger) (keys : List String)
    (f : Unit → Code V α)
    (hp : p = .lock (.remove key cost) fun _ => checkLimit c.costLimit keys >>= f)
    (hkeys : ∀ key' ∈ c.costs, key' ∈ key :: keys)
  | checks (keys : List String) (f : Unit → Code V α) (hp : p = checkLimit c.costLimit keys >>= f)
    (hkeys : ∀ key' ∈ c.costs, key' ∈ keys)

theorem not_trims_done (c : PINMemoryCache V) (a : α) : ¬Trims c (.done a : Code V α) := by
  rintro (⟨f, hp⟩ | ⟨key, keys, f, hp, -⟩ | ⟨key, cost, keys, f, hp, -⟩ | ⟨keys, f, hp, -⟩)
  · rw [trimToCostLimitByDate_bind] at hp
    cases hp
  · rw [removeToLimit_cons, Program.lock_bind] at hp
    cases hp
  · cases hp
  · rw [checkLimit_bind] at hp
    cases hp

/-- A total above the limit is that of some entry. -/
theorem Exact.exists_mem_costs {c : PINMemoryCache V} (h : c.Exact) (hover : c.OverLimit) :
    ∃ key, key ∈ c.costs := by
  by_contra hnone
  have hempty : c.costs = ∅ :=
    Finmap.ext_lookup fun key => Finmap.lookup_eq_none.2 fun hmem => hnone ⟨key, hmem⟩
  have hzero : c.size = 0 := by
    rw [size, hempty]
    rfl
  have hlt := BitVec.lt_def.1 hover.2
  rw [h.toNat_totalCost, hzero] at hlt
  exact Nat.not_lt_zero _ hlt

/-- A loop goes on with all keys before it. -/
theorem Exact.trims_loops {c : PINMemoryCache V} (h : c.Exact) (hover : c.OverLimit)
    {keys : List String} (hkeys : ∀ key ∈ c.costs, key ∈ keys) (f : Unit → Code V α) :
    Trims c (removeToLimit c.costLimit keys >>= f) := by
  obtain ⟨key, hkey⟩ := h.exists_mem_costs hover
  cases keys with
  | nil => exact absurd (hkeys key hkey) List.not_mem_nil
  | cons key' keys => exact .loops key' keys f rfl hkeys

/-- A section of a thread that trims leaves it trimming, or the cache within its limit. -/
theorem Trims.next {c : PINMemoryCache V} {q : Section V} {next : Reply q → Code V α}
    {input : SectionInput} {r : Reply q} (h : Trims c (.lock q next)) (hexact : c.Exact)
    (hreply : c.reply q input = some r) (hover : (c.effect q input).OverLimit) :
    Trims (c.effect q input) (next r) := by
  rcases h with ⟨f, hp⟩ | ⟨key, keys, f, hp, hkeys⟩ | ⟨key, cost, keys, f, hp, hkeys⟩ |
    ⟨keys, f, hp, hkeys⟩
  · rw [trimToCostLimitByDate_bind] at hp
    cases hp
    simp only [reply] at hreply
    split at hreply
    · next hsorted =>
      obtain rfl := Option.some.inj hreply
      have habove : ¬c.totalCost ≤ c.costLimit := BitVec.not_le.2 hover.2
      simp only [if_neg habove]
      refine hexact.trims_loops hover (fun key hkey => ?_) f
      have hdate := hexact.keyed.dates key ((hexact.keyed.costs key).1 hkey)
      rw [← List.mem_toFinset, hsorted.2.1]
      exact Finmap.mem_keys.2 hdate
    · simp at hreply
  · rw [removeToLimit_cons, Program.lock_bind] at hp
    cases hp
    exact .removes key r keys f rfl hkeys
  · cases hp
    refine .checks keys f rfl fun key' hkey' => ?_
    obtain ⟨hne, hmem⟩ := Finmap.mem_erase.1 hkey'
    exact (List.mem_cons.1 (hkeys key' hmem)).resolve_left hne
  · rw [checkLimit_bind] at hp
    cases hp
    obtain rfl := Option.some.inj hreply
    have habove : ¬c.totalCost ≤ c.costLimit := BitVec.not_le.2 hover.2
    simp only [if_neg habove]
    exact hexact.trims_loops hover hkeys f

/-- What a section other than an addition or a new limit does to the limit and the keys. -/
theorem effect_of_plain (c : PINMemoryCache V) {q : Section V} (hq : Plain q)
    (input : SectionInput) : (c.effect q input).costLimit = c.costLimit ∧
      ∀ key ∈ (c.effect q input).costs, key ∈ c.costs := by
  cases q with
  | remove key cost => exact ⟨rfl, fun key' hkey' => (Finmap.mem_erase.1 hkey').2⟩
  | removeAll => exact ⟨rfl, fun key hkey => absurd hkey Finmap.notMem_empty⟩
  | add key object cost costLimit => exact absurd hq id
  | setCostLimit costLimit => exact absurd hq id
  | _ => exact ⟨rfl, fun _ => id⟩

/-- Other threads that add nothing leave it trimming. -/
theorem Trims.of_plain {c : PINMemoryCache V} {p : Code V α} (h : Trims c p) {q : Section V}
    (hq : Plain q) (input : SectionInput) : Trims (c.effect q input) p := by
  obtain ⟨hlimit, hcosts⟩ := effect_of_plain c hq input
  rcases h with ⟨f, rfl⟩ | ⟨key, keys, f, rfl, hkeys⟩ | ⟨key, cost, keys, f, rfl, hkeys⟩ |
    ⟨keys, f, rfl, hkeys⟩
  · exact .sorts f (by rw [hlimit])
  · exact .loops key keys f (by rw [hlimit]) fun key' hkey' => hkeys key' (hcosts key' hkey')
  · exact .removes key cost keys f (by rw [hlimit]) fun key' hkey' =>
      hkeys key' (hcosts key' hkey')
  · exact .checks keys f (by rw [hlimit]) fun key' hkey' => hkeys key' (hcosts key' hkey')

/-- Without an addition or a new limit the total stays within the limit. -/
theorem Exact.overLimit_of_plain {c : PINMemoryCache V} (h : c.Exact) {q : Section V}
    (hq : Plain q) {input : SectionInput} (h' : (c.effect q input).Exact)
    (hover : (c.effect q input).OverLimit) : c.OverLimit := by
  have hlimit := (effect_of_plain c hq input).1
  have hsize : (c.effect q input).size ≤ c.size := by
    cases q with
    | remove key cost => exact size_remove_le c key cost input
    | removeAll => exact Nat.zero_le _
    | add key object cost costLimit => exact absurd hq id
    | setCostLimit costLimit => exact absurd hq id
    | _ => exact le_refl _
  have hlt := BitVec.lt_def.1 hover.2
  rw [h'.toNat_totalCost, hlimit] at hlt
  refine ⟨hlimit ▸ hover.1, BitVec.lt_def.2 ?_⟩
  rw [h.toNat_totalCost]
  omega

/-! ## Runs -/

/-- A removal takes off the cost that its key has, and an addition fits into the total and is
made under the present limit. -/
def Orderly (c : PINMemoryCache V) (q : Section V) : Prop :=
  c.KeepsAccount q ∧ c.AddsWithinLimits q

/-- While the total is above the limit, some thread trims. -/
structure Trimmed (s : Threads τ V) : Prop where
  exact : s.store.Exact
  trimsAfter : ∀ i, TrimsAfter (s.party i)
  trims : s.store.OverLimit → ∃ i, Trims s.store (s.party i)

theorem trimmed_unused : Trimmed (unused : Threads τ V) where
  exact := ⟨⟨fun _ => Iff.rfl, fun _ => id⟩, rfl, Nat.two_pow_pos 64⟩
  trimsAfter _ := .done none
  trims h := absurd h.1 (BitVec.not_lt.2 (BitVec.le_refl 0#64))

theorem TrimsAfter.next {q : Section V} {next : Reply q → Code V α}
    (h : TrimsAfter (.lock q next)) (r : Reply q) : TrimsAfter (next r) := by
  cases h with
  | add hf => exact (trimsAfter_trimIfLimited _).bind hf
  | setCostLimit hf => exact (trimsAfter_trimIfLimited _).bind hf
  | plain _ hnext => exact hnext r

/-- After an addition or a new limit the thread itself trims. -/
theorem TrimsAfter.trims {c : PINMemoryCache V} {q : Section V} {next : Reply q → Code V α}
    (h : TrimsAfter (.lock q next)) (hq : ¬Plain q) (hadds : c.AddsWithinLimits q)
    {input : SectionInput} (r : Reply q) (hover : (c.effect q input).OverLimit) :
    Trims (c.effect q input) (next r) := by
  cases h with
  | plain hplain _ => exact absurd hplain hq
  | @add object key cost costLimit f hf =>
    have hlimit : costLimit = c.costLimit := hadds.2
    refine .sorts f ?_
    rw [trimIfLimited, if_pos (hlimit ▸ hover.1), hlimit]
    rfl
  | @setCostLimit costLimit f hf =>
    have hlimit : 0 < costLimit := hover.1
    refine .sorts f ?_
    rw [trimIfLimited, if_pos hlimit]
    rfl

/-- An orderly step keeps a thread that trims, as long as the total is above the limit. -/
theorem Trimmed.step {s s' : Threads τ V} {e : CacheEvent τ V} (h : Trimmed s)
    (hs : step s e = some s') (hok : Sections Orderly s e) : Trimmed s' := by
  obtain ⟨i, e⟩ := e
  obtain ⟨hact, hothers⟩ := Parties.step_cases hs
  have hkept : ∀ j, j ≠ i → TrimsAfter (s'.party j) := by
    intro j hj
    rw [hothers j hj]
    exact h.trimsAfter j
  obtain ⟨m, a, rfl, hidle, hstore, hparty⟩ | ⟨input, q, next, r, rfl, hlock, hreply, hstore,
    hparty⟩ := Program.act_cases hact
  · refine ⟨hstore ▸ h.exact, fun j => ?_, fun hover => ?_⟩
    · rcases eq_or_ne j i with rfl | hj
      · exact hparty ▸ trimsAfter_body m
      · exact hkept j hj
    · obtain ⟨j, hj⟩ := h.trims (hstore ▸ hover)
      rcases eq_or_ne j i with rfl | hji
      · exact absurd (hidle ▸ hj) (not_trims_done _ _)
      · exact ⟨j, by rwa [hstore, hothers j hji]⟩
  · have hafter : TrimsAfter (.lock q next) := hlock ▸ h.trimsAfter i
    have hsection : sectionAt s (i, .resume input) = some (q, input) := by
      rw [sectionAt, hlock]
      rfl
    obtain ⟨hkeeps, hadds⟩ := hok (q, input) hsection
    have hexact := h.exact.effect hkeeps hadds input
    refine ⟨hstore ▸ hexact, fun j => ?_, fun hover => ?_⟩
    · rcases eq_or_ne j i with rfl | hj
      · exact hparty ▸ hafter.next r
      · exact hkept j hj
    · rw [hstore] at hover ⊢
      by_cases hq : Plain q
      · obtain ⟨j, hj⟩ := h.trims (h.exact.overLimit_of_plain hq hexact hover)
        rcases eq_or_ne j i with rfl | hji
        · rw [hlock] at hj
          exact ⟨j, hparty ▸ hj.next h.exact hreply hover⟩
        · exact ⟨j, hothers j hji ▸ hj.of_plain hq input⟩
      · exact ⟨i, hparty ▸ hafter.trims hq hadds r hover⟩

/-- Once no call is under way, the total is within the limit, if there is one : along every
interleaving whose removals take off the right costs and whose additions fit and are made
under the present limit. -/
theorem withinLimit_run {es : List (CacheEvent τ V)}
    (h : EveryStep step (fun _ s e _ => Sections Orderly s e) unused es) :
    EveryState step (fun _ s => (∀ i, ∃ object, s.party i = .done object) →
      s.store.costLimit = 0 ∨ s.store.totalCost ≤ s.store.costLimit) unused es := by
  have htrimmed : EveryState step (fun _ s => Trimmed s) (unused : Threads τ V) es :=
    everyState_of_everyStep trimmed_unused (fun _ _ _ _ _ hI hs hok => hI.step hs hok) h
  refine htrimmed.mono fun pre s hs hidle => ?_
  by_contra hnot
  rw [not_or] at hnot
  obtain ⟨hlimit, habove⟩ := hnot
  have hover : s.store.OverLimit :=
    ⟨(BitVec.pos_iff_ne_zero _).2 hlimit, BitVec.not_le.1 habove⟩
  obtain ⟨i, hi⟩ := hs.trims hover
  obtain ⟨object, hdone⟩ := hidle i
  rw [hdone] at hi
  exact not_trims_done _ _ hi

instance (c : PINMemoryCache V) : DecidablePred c.Orderly := fun q => by
  unfold Orderly KeepsAccount AddsWithinLimits
  cases q <;> infer_instance

/-- Under a limit of 5 two threads add at once. -/
def addsAtOnce : List (CacheEvent Bool String) :=
  [(true, .call (.setCostLimit 5)), (true, .resume {}), (true, .resume {}),
    (true, .call (.setObject (some "avatar") "a" 3)),
    (false, .call (.setObject (some "avatar") "b" 4)), (true, .resume {}), (false, .resume {}),
    (true, .resume {}), (false, .resume { now := 1 }), (true, .resume { keys := ["a", "b"] }),
    (true, .resume {}), (true, .resume {}), (true, .resume {}),
    (false, .resume { keys := ["b"] })]

theorem withinLimit_addsAtOnce :
    ∃ s : Threads Bool String, exec step unused addsAtOnce = some s ∧
      s.store.costs.keys = {"b"} ∧
      (s.store.costLimit = 0 ∨ s.store.totalCost ≤ s.store.costLimit) := by
  have hcosts : (exec step unused addsAtOnce).map (fun s : Threads Bool String =>
      s.store.costs.keys) = some {"b"} := by decide
  obtain ⟨s, hs, hkeys⟩ := Option.map_eq_some_iff.1 hcosts
  have hdone : ∀ i, (exec step unused addsAtOnce).map (fun s : Threads Bool String =>
      s.party i) = some (.done none) := by
    intro i
    cases i <;> rfl
  have hidle : ∀ i, ∃ object, s.party i = .done object := by
    intro i
    have hi := hdone i
    rw [hs] at hi
    exact ⟨none, Option.some.inj hi⟩
  exact ⟨s, hs, hkeys, (withinLimit_run (by decide)).last hs hidle⟩

end PINMemoryCache

end ConfFriends.Pods
