import Mathlib.Algebra.Order.Group.Unbundled.Abs
import Mathlib.Algebra.Order.Ring.Rat
import Mathlib.Data.BitVec
import ConfFriends.Ledger
import ConfFriends.Transition.Program
import ConfFriends.User

/-!
# The memory cache

The avatars of the markers are kept in a `PINMemoryCache`, which any thread can use. A lock
guards its three dictionaries, but a method takes it several times : between two of its
critical sections the methods of other threads have theirs. Here a method is a `Program`
over the sections, with one section for each place where the source holds the lock, unless
it only reads the blocks that a client can set, which the image manager does not.

The keys that a dictionary sorts by value are an input of the section, since equal values can
stand in any order. The clock is another.
-/

set_option linter.unusedSectionVars false

namespace ConfFriends.Pods

open Transition

abbrev NSUInteger := BitVec 64

/-- `+[NSDate distantPast]`, in seconds from the reference date. -/
def distantPast : NSTimeInterval :=
  -63114076800

structure PINMemoryCache (V : Type) where
  dictionary : Finmap fun _ : String => V := ∅
  dates : Finmap fun _ : String => NSTimeInterval := ∅
  costs : Finmap fun _ : String => NSUInteger := ∅
  totalCost : NSUInteger := 0
  costLimit : NSUInteger := 0
  ageLimit : NSTimeInterval := 0
  ttlCache : Bool := false

/-- `keysSortedByValueUsingSelector:` gives the keys. -/
def IsSortedByValue {α : Type} [LE α] (values : Finmap fun _ : String => α)
    (keys : List String) : Prop :=
  keys.Nodup ∧ keys.toFinset = values.keys ∧
    keys.Pairwise fun key key' => ∀ a ∈ values.lookup key, ∀ a' ∈ values.lookup key', a ≤ a'

instance {α : Type} [LE α] [DecidableLE α] (values : Finmap fun _ : String => α)
    (keys : List String) : Decidable (IsSortedByValue values keys) := by
  unfold IsSortedByValue
  infer_instance

/-- What a section gets from outside. -/
structure SectionInput where
  /-- The reading of the clock. -/
  now : NSTimeInterval := 0
  /-- The keys in the order of their values. -/
  keys : List String := []

namespace PINMemoryCache

variable {V : Type}

/-! ## Critical sections -/

inductive Section (V : Type)
  /-- `removeObjectAndExecuteBlocksForKey:` reads the cost, and then removes. -/
  | readCost (key : String)
  | remove (key : String) (cost : Option NSUInteger)
  | sortDates
  | sortCosts
  | readTotalCost
  | readAgeLimit
  | contains (key : String)
  /-- `objectForKey:` reads the object, and then dates the access. -/
  | read (key : String) (now : NSTimeInterval)
  | date (key : String) (now : NSTimeInterval)
  | readCostLimit
  /-- The addition. The method trims to `costLimit`, which it has read, in what follows. -/
  | add (key : String) (object : V) (cost costLimit : NSUInteger)
  | removeAll
  | setAgeLimit (ageLimit : NSTimeInterval)
  | setCostLimit (costLimit : NSUInteger)
  | setTtlCache (ttlCache : Bool)

/-- What a method goes on with. The sections that sort also read what they sort by. -/
def Reply : Section V → Type
  | .readCost _ => Option NSUInteger
  | .sortDates => NSUInteger × (Finmap fun _ : String => NSTimeInterval) × List String
  | .sortCosts => NSUInteger × List String
  | .readTotalCost => NSUInteger
  | .readAgeLimit => NSTimeInterval × NSTimeInterval
  | .contains _ => Bool
  | .read _ _ => Option V
  | .readCostLimit => NSUInteger
  | .remove _ _ | .date _ _ | .add _ _ _ _ | .removeAll => Unit
  | .setAgeLimit _ | .setCostLimit _ | .setTtlCache _ => Unit

/-- A message to a missing date gives `0`. -/
def isAlive (c : PINMemoryCache V) (key : String) (now : NSTimeInterval) : Bool :=
  !c.ttlCache || c.ageLimit ≤ 0 || |((c.dates.lookup key).map (· - now)).getD 0| < c.ageLimit

/-- The cache after a section. -/
def effect (c : PINMemoryCache V) (q : Section V) (input : SectionInput) : PINMemoryCache V :=
  match q with
  | .remove key cost =>
    { c with
      totalCost := c.totalCost - cost.getD 0
      dictionary := c.dictionary.erase key
      dates := c.dates.erase key
      costs := c.costs.erase key }
  | .date key now => { c with dates := c.dates.insert key now }
  | .add key object cost _ =>
    { c with
      totalCost := c.totalCost - (c.costs.lookup key).getD 0 + cost
      dictionary := c.dictionary.insert key object
      dates := c.dates.insert key input.now
      costs := c.costs.insert key cost }
  | .removeAll => { c with dictionary := ∅, dates := ∅, costs := ∅, totalCost := 0 }
  | .setAgeLimit ageLimit => { c with ageLimit }
  | .setCostLimit costLimit => { c with costLimit }
  | .setTtlCache ttlCache => { c with ttlCache }
  | _ => c

/-- What a section replies, if the input can be. -/
def reply (c : PINMemoryCache V) (q : Section V) (input : SectionInput) : Option (Reply q) :=
  match q with
  | .readCost key => some (c.costs.lookup key)
  | .sortDates =>
    if IsSortedByValue c.dates input.keys then some (c.totalCost, c.dates, input.keys) else none
  | .sortCosts =>
    if IsSortedByValue c.costs input.keys then some (c.totalCost, input.keys) else none
  | .readTotalCost => some c.totalCost
  | .readAgeLimit => some (c.ageLimit, input.now)
  | .contains key => some (c.dictionary.lookup key).isSome
  | .read key now => some (if c.isAlive key now then c.dictionary.lookup key else none)
  | .readCostLimit => some c.costLimit
  | .remove _ _ | .date _ _ | .add _ _ _ _ | .removeAll => some ()
  | .setAgeLimit _ | .setCostLimit _ | .setTtlCache _ => some ()

/-! ## Methods -/

abbrev Code (V : Type) := Program (Section V) Reply

/-- A single section of a method. -/
def locked (q : Section V) : Code V (Reply q) :=
  Program.locked q

@[simp] theorem locked_bind {α : Type} (q : Section V) (f : Reply q → Code V α) :
    locked q >>= f = Program.lock q f :=
  rfl

def removeObjectAndExecuteBlocksForKey (key : String) : Code V Unit := do
  let cost ← locked (.readCost key)
  locked (.remove key cost)

/-- The loop of `trimMemoryToDate:` over a copy of the dates. -/
def removeOlder (trimDate : NSTimeInterval) (dates : Finmap fun _ : String => NSTimeInterval) :
    List String → Code V Unit
  | [] => pure ()
  | key :: keys =>
    match dates.lookup key with
    | none => removeOlder trimDate dates keys
    | some accessDate =>
      if accessDate < trimDate then do
        removeObjectAndExecuteBlocksForKey key
        removeOlder trimDate dates keys
      else pure ()

def trimMemoryToDate (trimDate : NSTimeInterval) : Code V Unit := do
  let (_, dates, keysSortedByDate) ← locked .sortDates
  removeOlder trimDate dates keysSortedByDate

/-- The loop of `trimToCostLimit:` and of `trimToCostLimitByDate:`. -/
def removeToLimit (limit : NSUInteger) : List String → Code V Unit
  | [] => pure ()
  | key :: keys => do
    removeObjectAndExecuteBlocksForKey key
    let totalCost : NSUInteger ← locked .readTotalCost
    if totalCost ≤ limit then pure () else removeToLimit limit keys

def trimToCostLimit (limit : NSUInteger) : Code V Unit := do
  let (totalCost, keysSortedByCost) ← locked .sortCosts
  if totalCost ≤ limit then pure () else removeToLimit limit keysSortedByCost.reverse

def trimToCostLimitByDate (limit : NSUInteger) : Code V Unit := do
  let (totalCost, _, keysSortedByDate) ← locked .sortDates
  if totalCost ≤ limit then pure () else removeToLimit limit keysSortedByDate

/-- What comes after an addition, or after a new limit. -/
def trimIfLimited (costLimit : NSUInteger) : Code V Unit :=
  if 0 < costLimit then trimToCostLimitByDate costLimit else pure ()

/-- One turn. The next is a call of its own. -/
def trimToAgeLimitRecursively : Code V Unit := do
  let (ageLimit, now) ← locked .readAgeLimit
  if ageLimit = 0 then pure () else trimMemoryToDate (now - ageLimit)

def objectForKey (key : String) (now : NSTimeInterval) : Code V (Option V) := do
  let object ← locked (.read key now)
  match object with
  | none => pure none
  | some object => do
    locked (.date key now)
    pure (some object)

/-- The end of `setObject:forKey:withCost:`, from the addition on. -/
def addObject (object : V) (key : String) (cost costLimit : NSUInteger) : Code V Unit := do
  locked (.add key object cost costLimit)
  trimIfLimited costLimit

def setObject (object : Option V) (key : String) (cost : NSUInteger) : Code V Unit :=
  match object with
  | none => pure ()
  | some object => do
    let costLimit ← locked .readCostLimit
    addObject object key cost costLimit

def trimToDate (trimDate : Option NSTimeInterval) : Code V Unit :=
  match trimDate with
  | none => pure ()
  | some trimDate =>
    if trimDate = distantPast then locked .removeAll else trimMemoryToDate trimDate

def setAgeLimit (ageLimit : NSTimeInterval) : Code V Unit := do
  locked (.setAgeLimit ageLimit)
  trimToAgeLimitRecursively

def setCostLimit (costLimit : NSUInteger) : Code V Unit := do
  locked (.setCostLimit costLimit)
  trimIfLimited costLimit

/-! ## Programs by their first section -/

theorem trimMemoryToDate_eq (trimDate : NSTimeInterval) :
    (trimMemoryToDate trimDate : Code V Unit) =
      .lock .sortDates fun r => removeOlder trimDate r.2.1 r.2.2 :=
  rfl

/-- What a loop to the limit does after a removal. -/
theorem removeToLimit_cons (limit : NSUInteger) (key : String) (keys : List String) :
    (removeToLimit limit (key :: keys) : Code V Unit) =
      .lock (.readCost key) fun cost => .lock (.remove key cost) fun _ =>
        .lock .readTotalCost fun totalCost : NSUInteger =>
          if totalCost ≤ limit then pure () else removeToLimit limit keys :=
  rfl

theorem trimToCostLimit_eq (limit : NSUInteger) : (trimToCostLimit limit : Code V Unit) =
    .lock .sortCosts fun r : NSUInteger × List String =>
      if r.1 ≤ limit then pure () else removeToLimit limit r.2.reverse :=
  rfl

theorem trimToCostLimitByDate_eq (limit : NSUInteger) :
    (trimToCostLimitByDate limit : Code V Unit) = .lock .sortDates
      fun r : NSUInteger × (Finmap fun _ : String => NSTimeInterval) × List String =>
        if r.1 ≤ limit then pure () else removeToLimit limit r.2.2 :=
  rfl

theorem trimToAgeLimitRecursively_eq : (trimToAgeLimitRecursively : Code V Unit) =
    .lock .readAgeLimit fun r : NSTimeInterval × NSTimeInterval =>
      if r.1 = 0 then pure () else trimMemoryToDate (r.2 - r.1) :=
  rfl

theorem addObject_eq (object : V) (key : String) (cost costLimit : NSUInteger) :
    addObject object key cost costLimit =
      .lock (.add key object cost costLimit) fun _ => trimIfLimited costLimit :=
  rfl

theorem setCostLimit_eq (costLimit : NSUInteger) : (setCostLimit costLimit : Code V Unit) =
    .lock (.setCostLimit costLimit) fun _ => trimIfLimited costLimit :=
  rfl

/-! ## Threads -/

/-- The methods of the cache. -/
inductive Method (V : Type)
  | containsObjectForKey (key : String)
  | objectForKey (key : String) (now : NSTimeInterval)
  | setObject (object : Option V) (key : String) (cost : NSUInteger)
  | removeObjectForKey (key : String)
  | trimToDate (trimDate : Option NSTimeInterval)
  | trimToCost (cost : NSUInteger)
  | trimToCostByDate (cost : NSUInteger)
  | removeAllObjects
  | trimToAgeLimitRecursively
  | setAgeLimit (ageLimit : NSTimeInterval)
  | setCostLimit (costLimit : NSUInteger)
  | setTtlCache (ttlCache : Bool)

/-- A method that returns no object. -/
def withoutObject (p : Code V Unit) : Code V (Option V) := do
  p
  pure none

/-- The program of a method, up to the object that it returns. -/
def Method.body : Method V → Code V (Option V)
  | containsObjectForKey key => do
    let _ ← locked (.contains key)
    pure none
  | objectForKey key now => PINMemoryCache.objectForKey key now
  | setObject object key cost => withoutObject (PINMemoryCache.setObject object key cost)
  | removeObjectForKey key => withoutObject (removeObjectAndExecuteBlocksForKey key)
  | trimToDate trimDate => withoutObject (PINMemoryCache.trimToDate trimDate)
  | trimToCost cost => withoutObject (trimToCostLimit cost)
  | trimToCostByDate cost => withoutObject (trimToCostLimitByDate cost)
  | removeAllObjects => withoutObject (locked .removeAll)
  | trimToAgeLimitRecursively => withoutObject PINMemoryCache.trimToAgeLimitRecursively
  | setAgeLimit ageLimit => withoutObject (PINMemoryCache.setAgeLimit ageLimit)
  | setCostLimit costLimit => withoutObject (PINMemoryCache.setCostLimit costLimit)
  | setTtlCache ttlCache => withoutObject (locked (.setTtlCache ttlCache))

variable {τ : Type*} [DecidableEq τ]

/-- The cache with its threads. -/
abbrev Threads (τ : Type*) (V : Type) := Parties τ (PINMemoryCache V) (Code V (Option V))

abbrev CacheEvent (τ : Type*) (V : Type) := τ × Program.ThreadEvent (Method V) SectionInput

def step : Threads τ V → CacheEvent τ V → Option (Threads τ V) :=
  Parties.step (Program.act Method.body effect reply)

/-- An empty cache and idle threads. -/
def unused : Threads τ V where
  store := {}
  party _ := Program.done none

/-- The section that an event is. -/
def sectionAt (s : Threads τ V) (e : CacheEvent τ V) : Option (Section V × SectionInput) :=
  Program.sectionOf (s.party e.1) e.2

/-- The cache changes by the section of the step. -/
theorem store_of_step {s s' : Threads τ V} {e : CacheEvent τ V} (h : step s e = some s') :
    s'.store = (sectionAt s e).elim s.store fun q => s.store.effect q.1 q.2 := by
  obtain ⟨i, e⟩ := e
  exact Program.data_of_act (Parties.step_cases h).1

end PINMemoryCache

end ConfFriends.Pods
