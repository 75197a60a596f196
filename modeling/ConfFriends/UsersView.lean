import Mathlib.Data.List.Nodup
import Mathlib.Data.Option.Basic
import ConfFriends.User

/-!
# The list of users

`UsersViewController` fills `allUsers` from reads of the database, one for each choice of
a segment, and `filteredUsers` from `allUsers` and the search text. A read is answered
later, and its block appends to whatever the list holds by then : a new segment empties
the list but does not cancel the reads that are under way.

A read is known by its handle. The handles count the reads, so `lastHandle` is the
handle of the read that the selected segment has started.
-/

set_option linter.unusedSectionVars false

namespace ConfFriends

variable {K : Type*} [Zero K]

/-! ## Strings and snapshots -/

/-- The functions on strings that the list is made with. -/
structure UsersPlatform where
  /-- `URLWithString:` -/
  urlWithString : String → Option String
  /-- `compare:` gives at most `NSOrderedSame`. -/
  compare : String → String → Bool
  compare_trans : ∀ a b c, compare a b = true → compare b c = true → compare a c = true
  compare_total : ∀ a b, (compare a b || compare b a) = true
  /-- The operator `contains[c]` of predicates. -/
  containsCaseInsensitive : String → String → Bool

/-- The value of `users` : its children in the order of `allKeys`. -/
structure UsersSnapshot (K : Type*) where
  children : List (String × UserRecord K)
  nodup : (children.map Prod.fst).Nodup

/-- A read under way : of all users, or of those of a country. -/
structure UsersRead where
  handle : ℕ
  country : Option String
  deriving DecidableEq

structure UsersViewController (K : Type*) where
  /-- The preference `DDFUserCountry`, which the control is made for. -/
  ddfUserCountry : Option String
  selectedSegmentIndex : ℕ := 0
  previousSearch : String := ""
  allUsers : List (DDFUser K) := []
  filteredUsers : List (DDFUser K) := []
  lastHandle : ℕ := 0
  reads : List UsersRead := []

namespace UsersViewController

/-! ## Reads -/

/-- The child matches the query of a read. -/
def matchesQuery (country : Option String) (child : String × UserRecord K) : Bool :=
  country.all fun country => child.2.country = some country

/-- The test of the block. -/
def isListed (model : DDFUser K) : Bool :=
  model.name.isSome && model.twitterUsername.isSome

/-- The users that the block of a read adds for the children of its snapshot. -/
def listedUsers (U : UsersPlatform) (children : List (String × UserRecord K)) :
    List (DDFUser K) :=
  (children.map fun child =>
    DDFUser.initWithModelDictionary U.urlWithString child.1 child.2).filter isListed

/-- The order of the sort descriptor. Every listed user has a name. -/
def nameAscending (U : UsersPlatform) (user user' : DDFUser K) : Bool :=
  U.compare (user.name.getD "") (user'.name.getD "")

/-- The block of a read, for the children that match its query. -/
def readBlock (U : UsersPlatform) (children : List (String × UserRecord K))
    (s : UsersViewController K) : UsersViewController K :=
  if children.isEmpty then s
  else
    let allUsers := (s.allUsers ++ listedUsers U children).mergeSort (nameAscending U)
    { s with allUsers := allUsers, filteredUsers := allUsers }

/-- The controller after `viewDidLoad`, which reads all users. -/
def viewDidLoad (ddfUserCountry : Option String) : UsersViewController K :=
  { ddfUserCountry := ddfUserCountry, reads := [⟨0, none⟩] }

/-- What the selected segment asks for. -/
def selectedCountry (s : UsersViewController K) : Option String :=
  if s.selectedSegmentIndex = 0 then none else s.ddfUserCountry

def userFilterControlValueChanged (selectedSegmentIndex : ℕ) (s : UsersViewController K) :
    UsersViewController K :=
  let s := { s with selectedSegmentIndex := selectedSegmentIndex }
  { s with
    allUsers := []
    filteredUsers := []
    lastHandle := s.lastHandle + 1
    reads := s.reads ++ [⟨s.lastHandle + 1, s.selectedCountry⟩] }

/-! ## The search -/

/-- The predicate on name and Twitter username. -/
def matchesSearch (U : UsersPlatform) (text : String) (user : DDFUser K) : Bool :=
  user.name.any (U.containsCaseInsensitive · text) ||
    user.twitterUsername.any (U.containsCaseInsensitive · text)

def updateSearchResults (U : UsersPlatform) (text : String) (s : UsersViewController K) :
    UsersViewController K :=
  if s.previousSearch = text then s
  else
    { s with
      previousSearch := text
      filteredUsers :=
        if text = "" then s.allUsers else s.allUsers.filter (matchesSearch U text) }

end UsersViewController

/-! ## Steps -/

inductive UsersEvent (K : Type*)
  /-- The segmented control exists if there is a country. -/
  | userFilterControlValueChanged (selectedSegmentIndex : ℕ)
  | updateSearchResults (text : String)
  /-- The `i`-th read is answered. -/
  | answer (i : ℕ) (snapshot : UsersSnapshot K)

namespace UsersViewController

def step (U : UsersPlatform) (s : UsersViewController K) :
    UsersEvent K → Option (UsersViewController K)
  | .userFilterControlValueChanged i =>
    if s.ddfUserCountry.isSome then some (s.userFilterControlValueChanged i) else none
  | .updateSearchResults text => some (s.updateSearchResults U text)
  | .answer i snapshot =>
    match s.reads[i]? with
    | none => none
    | some read =>
      some (readBlock U (snapshot.children.filter (matchesQuery read.country))
        { s with reads := s.reads.eraseIdx i })

/-! ## What a block does to the list -/

/-- A block adds the users of its snapshot. -/
theorem allUsers_readBlock (U : UsersPlatform) (children : List (String × UserRecord K))
    (s : UsersViewController K) :
    (readBlock U children s).allUsers.Perm (s.allUsers ++ listedUsers U children) := by
  unfold readBlock
  split
  · next hempty => simp [List.isEmpty_iff.1 hempty, listedUsers]
  · exact List.mergeSort_perm _ _

/-- A block leaves a list in ascending order. -/
theorem pairwise_readBlock (U : UsersPlatform) (children : List (String × UserRecord K))
    {s : UsersViewController K} (h : s.allUsers.Pairwise fun u v => nameAscending U u v = true) :
    (readBlock U children s).allUsers.Pairwise fun u v => nameAscending U u v = true := by
  unfold readBlock
  split
  · exact h
  · have htrans : ∀ u v w : DDFUser K, nameAscending U u v = true → nameAscending U v w = true →
        nameAscending U u w = true := fun _ _ _ => U.compare_trans _ _ _
    have htotal : ∀ u v : DDFUser K, (nameAscending U u v || nameAscending U v u) = true :=
      fun _ _ => U.compare_total _ _
    exact List.pairwise_mergeSort htrans htotal _

@[simp] theorem reads_readBlock (U : UsersPlatform) (children : List (String × UserRecord K))
    (s : UsersViewController K) : (readBlock U children s).reads = s.reads := by
  unfold readBlock
  split <;> rfl

@[simp] theorem lastHandle_readBlock (U : UsersPlatform) (children : List (String × UserRecord K))
    (s : UsersViewController K) : (readBlock U children s).lastHandle = s.lastHandle := by
  unfold readBlock
  split <;> rfl

@[simp] theorem selectedCountry_readBlock (U : UsersPlatform)
    (children : List (String × UserRecord K)) (s : UsersViewController K) :
    (readBlock U children s).selectedCountry = s.selectedCountry := by
  unfold readBlock
  split <;> rfl

/-- A snapshot lists nobody twice. -/
theorem nodup_listedUsers (U : UsersPlatform) (snapshot : UsersSnapshot K)
    (p : String × UserRecord K → Bool) :
    ((listedUsers U (snapshot.children.filter p)).map (·.identifier)).Nodup := by
  have hkeys : ((snapshot.children.filter p).map fun child => some child.1).Nodup := by
    rw [← Function.comp_def some, ← List.map_map]
    exact (snapshot.nodup.sublist (List.filter_sublist.map _)).map (Option.some_injective _)
  refine List.Nodup.sublist (List.filter_sublist.map _) ?_
  rw [List.map_map]
  exact hkeys

end UsersViewController

end ConfFriends
