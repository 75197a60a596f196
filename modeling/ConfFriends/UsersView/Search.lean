import ConfFriends.UsersView.Segments

/-!
# The list and the search text

`filteredUsers` is written in four places : the block of a read shows the whole list, a
new segment empties it, and a search applies its text, unless the text is that of the
search before. So a read that is answered while a text is in the search bar shows users
who do not match it, and reporting the same text again does not help.

`reflectsSearch_iff_answersMatch` says when the visible list reflects the text in every state
of a run : each such answer leaves only matching users in the list.
-/

set_option linter.unusedSectionVars false

open Transition

namespace ConfFriends.UsersViewController

variable {K : Type*} [Zero K] {U : UsersPlatform}

/-! ## The text and the list -/

/-- The search text that was reported last. -/
def lastSearch (es : List (UsersEvent K)) : String :=
  es.foldl (fun last e =>
    match e with
    | .updateSearchResults text => text
    | _ => last) ""

/-- The users whose name or Twitter username contains the text, in the order of the list. -/
def visible (U : UsersPlatform) (text : String) (allUsers : List (DDFUser K)) :
    List (DDFUser K) :=
  if text = "" then allUsers else allUsers.filter (matchesSearch U text)

@[simp] theorem visible_nil (text : String) : visible U text ([] : List (DDFUser K)) = [] := by
  unfold visible
  split <;> rfl

/-- The whole list is visible iff everybody matches. -/
theorem eq_visible_iff {text : String} {allUsers : List (DDFUser K)} :
    allUsers = visible U text allUsers ↔
      (text ≠ "" → ∀ user ∈ allUsers, matchesSearch U text user = true) := by
  unfold visible
  split
  · next hempty => simp [hempty]
  · next htext => rw [eq_comm, List.filter_eq_self, imp_iff_right htext]

/-- The visible list reflects the text that was reported last. -/
def ReflectsSearch (U : UsersPlatform) (pre : List (UsersEvent K)) (s : UsersViewController K) :
    Prop :=
  s.filteredUsers = visible U (lastSearch pre) s.allUsers

/-- A read that is answered with users, while a text is in the search bar, leaves nobody in
the list who does not match. -/
def AnswersMatch (U : UsersPlatform) (pre : List (UsersEvent K)) (s : UsersViewController K)
    (e : UsersEvent K) : Prop :=
  ∀ i snapshot read, e = .answer i snapshot → s.reads[i]? = some read →
    snapshot.children.filter (matchesQuery read.country) ≠ [] → lastSearch pre ≠ "" →
    ∀ user ∈ s.allUsers ++ requested U read.country snapshot,
      matchesSearch U (lastSearch pre) user = true

/-! ## What a step does to the visible list -/

theorem lastSearch_snoc (pre : List (UsersEvent K)) (e : UsersEvent K) :
    lastSearch (pre ++ [e]) =
      match e with
      | .updateSearchResults text => text
      | _ => lastSearch pre := by
  unfold lastSearch
  rw [List.foldl_append]
  rfl

/-- A block with children shows the whole list. -/
theorem filteredUsers_readBlock {children : List (String × UserRecord K)} (h : children ≠ [])
    (s : UsersViewController K) :
    (readBlock U children s).filteredUsers = (readBlock U children s).allUsers := by
  unfold readBlock
  rw [if_neg (by simpa using h)]

@[simp] theorem previousSearch_readBlock (children : List (String × UserRecord K))
    (s : UsersViewController K) : (readBlock U children s).previousSearch = s.previousSearch := by
  unfold readBlock
  split <;> rfl

/-- The text of the last search is the one that was reported last. -/
theorem previousSearch_step {pre : List (UsersEvent K)} {s s' : UsersViewController K}
    {e : UsersEvent K} (hI : s.previousSearch = lastSearch pre) (h : s.step U e = some s') :
    s'.previousSearch = lastSearch (pre ++ [e]) := by
  rw [lastSearch_snoc]
  cases e with
  | userFilterControlValueChanged i =>
    simp only [step, Option.ite_none_right_eq_some, Option.some.injEq] at h
    obtain ⟨-, rfl⟩ := h
    exact hI
  | updateSearchResults text =>
    obtain rfl := Option.some.inj h
    unfold updateSearchResults
    split
    · next hsame => exact hsame
    · rfl
  | answer i snapshot =>
    simp only [step] at h
    split at h
    · simp at h
    · obtain rfl := Option.some.inj h
      rw [previousSearch_readBlock]
      exact hI

theorem answersMatch_answer_iff {pre : List (UsersEvent K)} {s : UsersViewController K} {i : ℕ}
    {snapshot : UsersSnapshot K} {read : UsersRead} (hread : s.reads[i]? = some read) :
    AnswersMatch U pre s (.answer i snapshot) ↔
      (snapshot.children.filter (matchesQuery read.country) ≠ [] → lastSearch pre ≠ "" →
        ∀ user ∈ s.allUsers ++ requested U read.country snapshot,
          matchesSearch U (lastSearch pre) user = true) := by
  constructor
  · exact fun h => h i snapshot read rfl hread
  · rintro h _ _ read' heq hread'
    cases heq
    obtain rfl : read = read' := by simpa [hread] using hread'
    exact h

/-- From a visible list that reflects the text, a step leads to one iff an answer leaves
only matching users. -/
theorem reflectsSearch_step_iff {pre : List (UsersEvent K)} {s s' : UsersViewController K}
    {e : UsersEvent K} (hlast : s.previousSearch = lastSearch pre) (hI : ReflectsSearch U pre s)
    (h : s.step U e = some s') :
    ReflectsSearch U (pre ++ [e]) s' ↔ AnswersMatch U pre s e := by
  unfold ReflectsSearch at hI ⊢
  rw [lastSearch_snoc]
  cases e with
  | userFilterControlValueChanged i =>
    simp only [step, Option.ite_none_right_eq_some, Option.some.injEq] at h
    obtain ⟨-, rfl⟩ := h
    exact iff_of_true (by simp [userFilterControlValueChanged]) (by simp [AnswersMatch])
  | updateSearchResults text =>
    obtain rfl := Option.some.inj h
    refine iff_of_true ?_ (by simp [AnswersMatch])
    unfold updateSearchResults
    split
    · next hsame =>
      rw [← hsame, hlast]
      exact hI
    · rfl
  | answer i snapshot =>
    cases hread : s.reads[i]? with
    | none => simp [step, hread] at h
    | some read =>
      simp only [step, hread, Option.some.injEq] at h
      subst h
      rw [answersMatch_answer_iff hread]
      by_cases hnil : snapshot.children.filter (matchesQuery read.country) = []
      · -- the snapshot has nothing for the read, and its block does nothing
        refine iff_of_true ?_ fun hne => absurd hnil hne
        rw [hnil]
        exact hI
      · have hperm := allUsers_readBlock U (snapshot.children.filter (matchesQuery read.country))
          { s with reads := s.reads.eraseIdx i }
        rw [filteredUsers_readBlock hnil, eq_visible_iff, imp_iff_right hnil]
        simp only [hperm.mem_iff]
        rfl

/-- In every state of a run the visible list reflects the text iff every read answered with
users under a text leaves only users who match it. -/
theorem reflectsSearch_iff_answersMatch (ddfUserCountry : Option String)
    (es : List (UsersEvent K)) :
    EveryState (step U) (ReflectsSearch U) (viewDidLoad ddfUserCountry) es ↔
      EveryStep (step U) (fun pre s e _ => AnswersMatch U pre s e) (viewDidLoad ddfUserCountry)
        es := by
  refine everyState_iff_everyStep
    (I := fun pre s => s.previousSearch = lastSearch pre ∧ ReflectsSearch U pre s)
    ⟨rfl, by simp [ReflectsSearch, viewDidLoad]⟩ (fun _ _ hI => hI.2) ?_ ?_ es
  · intro pre s e s' _ hI hs hmatch
    exact ⟨previousSearch_step hI.1 hs, (reflectsSearch_step_iff hI.1 hI.2 hs).2 hmatch⟩
  · intro pre s e s' _ hI hs hbad hreflects
    exact hbad ((reflectsSearch_step_iff hI.1 hI.2 hs).1 hreflects)

/-- The sample lists compare the characters in lower case. -/
theorem containsCaseInsensitive_samplePlatform (name text : String) :
    samplePlatform.containsCaseInsensitive name text =
      decide (text.toList.map Char.toLower <:+: name.toList.map Char.toLower) := by
  rw [← String.toList_map, ← String.toList_map]
  rfl

/-- A text is typed before the users have been read. -/
def searchDuringRead : List (UsersEvent ℤ) :=
  [.updateSearchResults "bob", .answer 0 sampleSnapshot]

/-- Everybody is visible below the text. -/
theorem search_ignored :
    ¬EveryState (step samplePlatform) (ReflectsSearch samplePlatform) (viewDidLoad none)
      searchDuringRead := by
  intro h
  have hanswer : AnswersMatch samplePlatform [.updateSearchResults "bob"] _
      (.answer 0 sampleSnapshot) :=
    (reflectsSearch_step_iff rfl (h _ _ (List.prefix_append _ [UsersEvent.answer 0 sampleSnapshot])
      rfl) rfl).1 (h.last rfl)
  have hann := hanswer 0 sampleSnapshot ⟨0, none⟩ rfl rfl (by decide) (by decide)
    (DDFUser.initWithModelDictionary some "a"
      { name := some "Ann", twitterUsername := some "ann", country := some "Japan" })
    (by decide)
  simp only [matchesSearch, containsCaseInsensitive_samplePlatform] at hann
  exact absurd hann (by decide)

end ConfFriends.UsersViewController
