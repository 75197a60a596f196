import Mathlib.Data.Rat.Floor
import Mathlib.Data.String.Basic
import ConfFriends.Transition.History
import ConfFriends.UsersView

/-!
# The list and the selected segment

With no read under way, the list should hold exactly the users that the selected segment
asks for. It does while only the read of the segment is answered. A read that an earlier
segment has started is answered into the list as well (`list_of_two_segments`).

`answered` and `stale` read the past : the snapshot that answered the read of the
segment, and whether a superseded read has listed somebody since the segment was
selected. At every moment the list is a permutation of the users of the first and those
of the second (`ListInv`), so it is right iff nothing stale was listed
(`listsSegment_iff_not_stale`).
-/

set_option linter.unusedSectionVars false

open Transition

namespace ConfFriends.UsersViewController

variable {K : Type*} [Zero K] {U : UsersPlatform}

/-! ## What has been answered -/

/-- The users that a read of the snapshot asks for. -/
def requested (U : UsersPlatform) (country : Option String) (snapshot : UsersSnapshot K) :
    List (DDFUser K) :=
  listedUsers U (snapshot.children.filter (matchesQuery country))

/-- The snapshot that has answered the read of the selected segment. -/
def answered (U : UsersPlatform) (s₀ : UsersViewController K) (pre : List (UsersEvent K)) :
    Option (UsersSnapshot K) :=
  track (step U)
    (fun s e last =>
      match e with
      | .userFilterControlValueChanged _ => none
      | .updateSearchResults _ => last
      | .answer i snapshot =>
        if s.reads[i]?.any (·.handle = s.lastHandle) then some snapshot else last) none s₀ pre

/-- A read of an earlier segment is answered with somebody to list. -/
def listsStale (U : UsersPlatform) (s : UsersViewController K) : UsersEvent K → Bool
  | .answer i snapshot =>
    s.reads[i]?.any fun read =>
      decide (read.handle ≠ s.lastHandle) && !(requested U read.country snapshot).isEmpty
  | _ => false

def changesSegment (_ : UsersViewController K) : UsersEvent K → Bool
  | .userFilterControlValueChanged _ => true
  | _ => false

/-- An earlier read has listed somebody since the segment was selected. -/
def stale (U : UsersPlatform) (s₀ : UsersViewController K) (pre : List (UsersEvent K)) : Bool :=
  since (step U) (listsStale U) changesSegment false s₀ pre

/-- What the list consists of, and which reads are under way. -/
structure ListInv (U : UsersPlatform) (s₀ : UsersViewController K) (pre : List (UsersEvent K))
    (s : UsersViewController K) : Prop where
  handles : (s.reads.map (·.handle)).Nodup
  le : ∀ read ∈ s.reads, read.handle ≤ s.lastHandle
  /-- The read of the segment asks for what the segment asks for. -/
  current : ∀ read ∈ s.reads, read.handle = s.lastHandle → read.country = s.selectedCountry
  underway : answered U s₀ pre = none ↔ ∃ read ∈ s.reads, read.handle = s.lastHandle
  sorted : s.allUsers.Pairwise fun u v => nameAscending U u v = true
  content : ∃ extra, s.allUsers.Perm
      ((answered U s₀ pre).elim [] (requested U s.selectedCountry) ++ extra) ∧
    (extra = [] ↔ stale U s₀ pre = false)

theorem listInv_viewDidLoad (ddfUserCountry : Option String) :
    ListInv U (viewDidLoad ddfUserCountry : UsersViewController K) []
      (viewDidLoad ddfUserCountry) where
  handles := by simp [viewDidLoad]
  le := by simp [viewDidLoad]
  current := by simp [viewDidLoad, selectedCountry]
  underway := by simp [viewDidLoad, answered]
  sorted := List.Pairwise.nil
  content := ⟨[], List.Perm.refl _, by simp [stale]⟩

/-- A new segment empties the list and starts a read of its own. -/
theorem ListInv.segment {s₀ s s' : UsersViewController K} {pre : List (UsersEvent K)} {i : ℕ}
    (hpre : exec (step U) s₀ pre = some s) (h : ListInv U s₀ pre s)
    (hs : s.step U (.userFilterControlValueChanged i) = some s') :
    ListInv U s₀ (pre ++ [.userFilterControlValueChanged i]) s' := by
  have hanswered : answered U s₀ (pre ++ [.userFilterControlValueChanged i]) = none :=
    track_snoc _ _ pre none s₀ hpre hs
  have hstale : stale U s₀ (pre ++ [.userFilterControlValueChanged i]) = false := by
    rw [stale, since_snoc _ _ _ pre false s₀ hpre hs]
    simp [listsStale, changesSegment]
  simp only [step, Option.ite_none_right_eq_some, Option.some.injEq] at hs
  obtain ⟨-, rfl⟩ := hs
  refine ⟨?_, ?_, ?_, ?_, List.Pairwise.nil, [], ?_, ?_⟩
  · simp only [userFilterControlValueChanged, List.map_append, List.map_cons, List.map_nil]
    refine List.Nodup.append h.handles (by simp) ?_
    simp only [List.disjoint_singleton, List.mem_map, not_exists, not_and]
    intro read hread heq
    have := h.le read hread
    omega
  · intro read hread
    rcases List.mem_append.1 hread with hread | hread
    · exact (h.le read hread).trans (Nat.le_succ _)
    · obtain rfl := List.mem_singleton.1 hread
      exact le_rfl
  · intro read hread heq
    rcases List.mem_append.1 hread with hread | hread
    · have := h.le read hread
      simp only [userFilterControlValueChanged] at heq
      omega
    · obtain rfl := List.mem_singleton.1 hread
      rfl
  · rw [hanswered]
    simp [userFilterControlValueChanged]
  · rw [hanswered]
    exact List.Perm.refl _
  · simp [hstale]

/-- A search changes neither the list nor the reads. -/
theorem ListInv.search {s₀ s s' : UsersViewController K} {pre : List (UsersEvent K)}
    {text : String} (hpre : exec (step U) s₀ pre = some s) (h : ListInv U s₀ pre s)
    (hs : s.step U (.updateSearchResults text) = some s') :
    ListInv U s₀ (pre ++ [.updateSearchResults text]) s' := by
  have hanswered : answered U s₀ (pre ++ [.updateSearchResults text]) = answered U s₀ pre :=
    track_snoc _ _ pre none s₀ hpre hs
  have hstale : stale U s₀ (pre ++ [.updateSearchResults text]) = stale U s₀ pre := by
    rw [stale, since_snoc _ _ _ pre false s₀ hpre hs]
    simp [listsStale, changesSegment, stale]
  obtain rfl := Option.some.inj hs
  unfold updateSearchResults
  split
  · exact ⟨h.handles, h.le, h.current, hanswered ▸ h.underway, h.sorted,
      by rw [hanswered, hstale]; exact h.content⟩
  · exact ⟨h.handles, h.le, h.current, hanswered ▸ h.underway, h.sorted,
      by rw [hanswered, hstale]; exact h.content⟩

/-- No other read has the handle of an answered one. -/
theorem ListInv.handle_ne {s₀ s : UsersViewController K} {pre : List (UsersEvent K)}
    (h : ListInv U s₀ pre s) {i : ℕ} {read : UsersRead} (hread : s.reads[i]? = some read) :
    ∀ other ∈ s.reads.eraseIdx i, other.handle ≠ read.handle := by
  intro other hother heq
  obtain ⟨j, hji, hj⟩ := List.mem_eraseIdx_iff_getElem?.1 hother
  have hlt : j < (s.reads.map (·.handle)).length := by
    simpa using (List.getElem?_eq_some_iff.1 hj).1
  refine hji ((List.getElem?_inj hlt h.handles).1 ?_)
  simp [hj, hread, heq]

/-- An answer adds the users of its snapshot to the list. -/
theorem ListInv.answer {s₀ s s' : UsersViewController K} {pre : List (UsersEvent K)}
    {i : ℕ} {snapshot : UsersSnapshot K} (hpre : exec (step U) s₀ pre = some s)
    (h : ListInv U s₀ pre s) (hs : s.step U (.answer i snapshot) = some s') :
    ListInv U s₀ (pre ++ [.answer i snapshot]) s' := by
  have hanswered : answered U s₀ (pre ++ [.answer i snapshot]) =
      if s.reads[i]?.any (·.handle = s.lastHandle) then some snapshot
      else answered U s₀ pre := track_snoc _ _ pre none s₀ hpre hs
  have hstale : stale U s₀ (pre ++ [.answer i snapshot]) =
      (listsStale U s (.answer i snapshot) || stale U s₀ pre) := by
    rw [stale, since_snoc _ _ _ pre false s₀ hpre hs]
    simp [changesSegment, stale]
  cases hread : s.reads[i]? with
  | none => simp [step, hread] at hs
  | some read =>
    have hmem : read ∈ s.reads := List.mem_of_getElem? hread
    have hother := h.handle_ne hread
    obtain ⟨extra, hperm, hextra⟩ := h.content
    simp only [hread, Option.any_some, decide_eq_true_eq] at hanswered
    simp only [listsStale, hread, Option.any_some] at hstale
    simp only [step, hread, Option.some.injEq] at hs
    subst hs
    have hadded := allUsers_readBlock U (snapshot.children.filter (matchesQuery read.country))
      { s with reads := s.reads.eraseIdx i }
    have hall := hadded.trans (hperm.append_right (requested U read.country snapshot))
    have hcountry : ({ s with reads := s.reads.eraseIdx i } :
      UsersViewController K).selectedCountry = s.selectedCountry := rfl
    refine ⟨?_, ?_, ?_, ?_, pairwise_readBlock U _ h.sorted, ?_⟩
    · rw [reads_readBlock]
      exact h.handles.sublist ((List.eraseIdx_sublist _ _).map _)
    · rw [reads_readBlock, lastHandle_readBlock]
      exact fun other hmem' => h.le other (List.mem_of_mem_eraseIdx hmem')
    · rw [reads_readBlock, lastHandle_readBlock, selectedCountry_readBlock]
      exact fun other hmem' => h.current other (List.mem_of_mem_eraseIdx hmem')
    · rw [hanswered, reads_readBlock, lastHandle_readBlock]
      split
      · next hcurrent =>
        simp only [reduceCtorEq, false_iff, not_exists, not_and]
        exact fun other hmem' => hcurrent ▸ hother other hmem'
      · next hsuperseded =>
        rw [h.underway]
        constructor
        · rintro ⟨other, hmem', heq⟩
          obtain ⟨j, hj⟩ := List.mem_iff_getElem?.1 hmem'
          refine ⟨other, List.mem_eraseIdx_iff_getElem?.2 ⟨j, ?_, hj⟩, heq⟩
          rintro rfl
          rw [hread, Option.some.injEq] at hj
          exact hsuperseded (hj ▸ heq)
        · rintro ⟨other, hmem', heq⟩
          exact ⟨other, List.mem_of_mem_eraseIdx hmem', heq⟩
    · rw [hanswered, hstale, selectedCountry_readBlock, hcountry]
      by_cases hcurrent : read.handle = s.lastHandle
      · -- the read of the segment : its users take the place of none
        have hnone : answered U s₀ pre = none := h.underway.2 ⟨read, hmem, hcurrent⟩
        rw [hnone] at hall
        refine ⟨extra, ?_, by simpa [hcurrent] using hextra⟩
        rw [if_pos hcurrent, ← h.current read hmem hcurrent]
        exact hall.trans List.perm_append_comm
      · -- a superseded read : its users are extra
        refine ⟨extra ++ requested U read.country snapshot, ?_, ?_⟩
        · rw [if_neg hcurrent, ← List.append_assoc]
          exact hall
        · simp only [List.append_eq_nil_iff, hextra, Bool.or_eq_false_iff, hcurrent,
            not_false_eq_true, decide_true, Bool.true_and, ne_eq, Bool.not_eq_false',
            List.isEmpty_iff]
          exact and_comm

theorem everyState_listInv (ddfUserCountry : Option String) (es : List (UsersEvent K)) :
    EveryState (step U) (ListInv U (viewDidLoad ddfUserCountry)) (viewDidLoad ddfUserCountry)
      es := by
  refine everyState_of_invariant (listInv_viewDidLoad ddfUserCountry) ?_ es
  intro pre s e s' hpre hI hs
  cases e with
  | userFilterControlValueChanged i => exact hI.segment hpre hs
  | updateSearchResults text => exact hI.search hpre hs
  | answer i snapshot => exact hI.answer hpre hs

/-! ## The list of the segment -/

/-- The list is exactly what the segment asks for of a snapshot. -/
structure ListsExactly (U : UsersPlatform) (snapshot : UsersSnapshot K)
    (s : UsersViewController K) : Prop where
  users : s.allUsers.Perm (requested U s.selectedCountry snapshot)
  once : (s.allUsers.map (·.identifier)).Nodup
  sorted : s.allUsers.Pairwise fun u v => nameAscending U u v = true

/-- With no read under way, the read of the segment has been answered and the list is
exactly what the segment asks for. -/
def ListsSegment (U : UsersPlatform) (s₀ : UsersViewController K) (pre : List (UsersEvent K))
    (s : UsersViewController K) : Prop :=
  s.reads = [] → ∃ snapshot, answered U s₀ pre = some snapshot ∧ ListsExactly U snapshot s

theorem ListInv.listsSegment_iff {s₀ s : UsersViewController K} {pre : List (UsersEvent K)}
    (h : ListInv U s₀ pre s) :
    ListsSegment U s₀ pre s ↔ (s.reads = [] → stale U s₀ pre = false) := by
  refine imp_congr_right fun hnone => ?_
  obtain ⟨extra, hperm, hextra⟩ := h.content
  rw [← hextra]
  cases hanswered : answered U s₀ pre with
  | none =>
    obtain ⟨read, hmem, -⟩ := h.underway.1 hanswered
    simp [hnone] at hmem
  | some snapshot =>
    rw [hanswered, Option.elim_some] at hperm
    constructor
    · rintro ⟨_, heq, hexact⟩
      obtain rfl := Option.some.inj heq
      have hlength := (hperm.symm.trans hexact.users).length_eq
      rw [List.length_append] at hlength
      exact List.length_eq_zero_iff.1 (by omega)
    · rintro rfl
      rw [List.append_nil] at hperm
      refine ⟨snapshot, rfl, hperm, ?_, h.sorted⟩
      exact (hperm.map _).nodup_iff.2 (nodup_listedUsers U snapshot _)

/-- The list matches the segment in every state of a run iff, whenever no read is under
way, no superseded read has listed anybody since the segment was selected. -/
theorem listsSegment_iff_not_stale (ddfUserCountry : Option String) (es : List (UsersEvent K)) :
    EveryState (step U) (ListsSegment U (viewDidLoad ddfUserCountry))
      (viewDidLoad ddfUserCountry) es ↔
    EveryState (step U)
      (fun pre s => s.reads = [] → stale U (viewDidLoad ddfUserCountry) pre = false)
      (viewDidLoad ddfUserCountry) es := by
  have hI := everyState_listInv (U := U) (K := K) ddfUserCountry es
  constructor
  · exact fun h pre s hpre hs => (hI pre s hpre hs).listsSegment_iff.1 (h pre s hpre hs)
  · exact fun h pre s hpre hs => (hI pre s hpre hs).listsSegment_iff.2 (h pre s hpre hs)

/-! A concrete list, of one user a country. -/

def samplePlatform : UsersPlatform where
  urlWithString := some
  compare a b := decide (a ≤ b)
  compare_trans a b c hab hbc := by
    simp only [decide_eq_true_eq] at hab hbc ⊢
    exact hab.trans hbc
  compare_total a b := by
    simpa using le_total a b
  containsCaseInsensitive name text := decide (text.toLower.toList <:+: name.toLower.toList)

def sampleSnapshot : UsersSnapshot ℤ where
  children :=
    [("a", { name := some "Ann", twitterUsername := some "ann", country := some "Japan" }),
      ("b", { name := some "Bob", twitterUsername := some "bob", country := some "Canada" })]
  nodup := by decide

/-- The country is selected before the first read is answered, and then both reads are. -/
def switchedDuringRead : List (UsersEvent ℤ) :=
  [.userFilterControlValueChanged 1, .answer 0 sampleSnapshot, .answer 0 sampleSnapshot]

/-- The list of the country holds the users of all countries, and one of them twice. -/
theorem list_of_two_segments :
    ¬EveryState (step samplePlatform) (ListsSegment samplePlatform (viewDidLoad (some "Japan")))
      (viewDidLoad (some "Japan")) switchedDuringRead := by
  intro hall
  have hI := (everyState_listInv (U := samplePlatform) (some "Japan") switchedDuringRead).last rfl
  have hfresh := hI.listsSegment_iff.1 (hall.last rfl) rfl
  exact absurd hfresh (by decide)

end ConfFriends.UsersViewController
