import Mathlib.Data.Option.Basic
import Mathlib.Logic.Function.Basic

/-!
# Values that know whether they were set

A `Tracked` value is a value with its dirty bit. It starts clean, at a default, and
whoever sets it sets the bit as well. A merge takes the other value if that one is dirty.

What such a value stands for is an `Option` : nothing while it is clean (`ofOption`). On
the values that stand for something, `merge` is `Option.or` with the later value first
(`merge_ofOption`) and a copy of what is dirty is the value itself (`copy_ofOption`).
-/

set_option linter.unusedSectionVars false

namespace ConfFriends

/-- A value and its dirty bit. -/
@[ext]
structure Tracked (α : Type*) where
  value : α
  dirty : Bool
  deriving DecidableEq

namespace Tracked

variable {α : Type*}

/-- The value has been set. -/
def set (x : α) : Tracked α :=
  ⟨x, true⟩

/-- A fresh value, with what is dirty in `a` copied. -/
def copy (default : α) (a : Tracked α) : Tracked α :=
  ⟨if a.dirty then a.value else default, a.dirty⟩

/-- The dirty values of `b` set in `a`. -/
def merge (a b : Tracked α) : Tracked α :=
  if b.dirty then set b.value else a

/-- The value that was set, if any. -/
def ofOption (default : α) (x : Option α) : Tracked α :=
  ⟨x.getD default, x.isSome⟩

@[simp] theorem value_set (x : α) : (set x).value = x :=
  rfl

@[simp] theorem dirty_set (x : α) : (set x).dirty = true :=
  rfl

theorem eq_set_iff {a : Tracked α} {x : α} : a = set x ↔ a.dirty = true ∧ a.value = x :=
  ⟨fun h => by simp [h], fun h => Tracked.ext h.2 h.1⟩

@[simp] theorem ofOption_some (default x : α) : ofOption default (some x) = set x :=
  rfl

@[simp] theorem value_ofOption (default : α) (x : Option α) :
    (ofOption default x).value = x.getD default :=
  rfl

@[simp] theorem dirty_ofOption (default : α) (x : Option α) :
    (ofOption default x).dirty = x.isSome :=
  rfl

@[simp] theorem merge_set (a : Tracked α) (x : α) : a.merge (set x) = set x :=
  rfl

theorem copy_ofOption (default : α) (x : Option α) :
    (ofOption default x).copy default = ofOption default x := by
  cases x <;> rfl

theorem merge_ofOption (default : α) (x y : Option α) :
    (ofOption default x).merge (ofOption default y) = ofOption default (y.or x) := by
  cases y <;> rfl

/-- A value that is at its default as long as it is clean stands for what was set. -/
theorem eq_ofOption_iff {default : α} {a : Tracked α} :
    (∃ x, a = ofOption default x) ↔ (a.dirty = false → a.value = default) := by
  constructor
  · rintro ⟨x, rfl⟩ hclean
    obtain rfl : x = none := by simpa using hclean
    rfl
  · intro h
    cases hdirty : a.dirty with
    | false => exact ⟨none, Tracked.ext (h hdirty) hdirty⟩
    | true => exact ⟨some a.value, Tracked.ext rfl hdirty⟩

end Tracked

end ConfFriends
