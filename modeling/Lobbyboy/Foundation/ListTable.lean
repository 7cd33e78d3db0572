import Lobbyboy.Foundation.OrderedDict
import Mathlib.Data.Nat.Notation
import Mathlib.Logic.Function.Basic

/-! A dictionary of lists that are objects: the dictionary has references, a list can be
appended to in place, and a key can be bound to another list. No two keys share a list, so
an append to the list of one key is seen under that key alone. -/

namespace Lobbyboy.Foundation

variable {κ τ : Type*} [DecidableEq κ]

/-- `fresh` is the number of lists that have been made. -/
structure ListTable (κ τ : Type*) [DecidableEq κ] where
  table : OrderedDict κ ℕ
  lists : ℕ → List τ
  fresh : ℕ
  made : ∀ {k r}, table.get? k = some r → r < fresh
  unshared : ∀ {k k' r}, table.get? k = some r → table.get? k' = some r → k = k'

namespace ListTable

def empty : ListTable κ τ where
  table := .empty
  lists := fun _ => []
  fresh := 0
  made h := by cases h
  unshared h := by cases h

variable (d : ListTable κ τ)

/-- The list that is bound to the key, or an empty one. -/
def contents (k : κ) : List τ :=
  match d.table.get? k with
  | some r => d.lists r
  | none => []

/-- A new list, bound to the key. -/
def rebind (k : κ) (xs : List τ) : ListTable κ τ where
  table := d.table.insert k d.fresh
  lists := Function.update d.lists d.fresh xs
  fresh := d.fresh + 1
  made := by
    intro k' r h
    rw [OrderedDict.get?_insert] at h
    split_ifs at h with hk
    · cases h
      exact Nat.lt_succ_self _
    · exact Nat.lt_succ_of_lt (d.made h)
  unshared := by
    intro k₁ k₂ r h₁ h₂
    rw [OrderedDict.get?_insert] at h₁ h₂
    split_ifs at h₁ h₂ with hk₁ hk₂ hk₂
    · rw [hk₁, hk₂]
    · cases h₁
      exact absurd (d.made h₂) (Nat.lt_irrefl _)
    · cases h₂
      exact absurd (d.made h₁) (Nat.lt_irrefl _)
    · exact d.unshared h₁ h₂

/-- The reference of the list that is bound to the key, which is bound to a new one first if
need be. -/
def setdefault (k : κ) : ℕ × ListTable κ τ :=
  match d.table.get? k with
  | some r => (r, d)
  | none => (d.fresh, d.rebind k [])

/-- In place. -/
def append (r : ℕ) (x : τ) : ListTable κ τ :=
  { d with lists := Function.update d.lists r (d.lists r ++ [x]) }

@[simp] theorem contents_empty (k : κ) : (empty : ListTable κ τ).contents k = [] := rfl

variable {d} {k k' : κ} {r : ℕ}

theorem contents_of_get? (h : d.table.get? k = some r) : d.contents k = d.lists r := by
  rw [contents, h]

theorem contents_of_none (h : d.table.get? k = none) : d.contents k = [] := by rw [contents, h]

variable (d k k')

theorem contents_rebind (xs : List τ) :
    (d.rebind k xs).contents k' = if k' = k then xs else d.contents k' := by
  unfold contents rebind
  rw [OrderedDict.get?_insert]
  split_ifs with hk
  · exact Function.update_self ..
  · cases h : d.table.get? k' with
    | none => rfl
    | some r => exact Function.update_of_ne (Nat.ne_of_lt (d.made h)) ..

theorem get?_setdefault : (d.setdefault k).2.table.get? k = some (d.setdefault k).1 := by
  unfold setdefault
  cases h : d.table.get? k with
  | none => exact OrderedDict.get?_insert_self ..
  | some r => exact h

@[simp] theorem contents_setdefault : (d.setdefault k).2.contents k' = d.contents k' := by
  unfold setdefault
  cases h : d.table.get? k with
  | none =>
    rw [contents_rebind]
    split_ifs with hk
    · rw [hk, contents_of_none h]
    · rfl
  | some r => rfl

variable {k}

theorem contents_append (h : d.table.get? k = some r) (x : τ) :
    (d.append r x).contents k' = if k' = k then d.contents k ++ [x] else d.contents k' := by
  unfold contents append
  split_ifs with hk
  · rw [hk, h]
    exact Function.update_self ..
  · cases h' : d.table.get? k' with
    | none => rfl
    | some r' =>
      have hr : r' ≠ r := fun heq => hk (d.unshared (heq ▸ h') h)
      exact Function.update_of_ne hr ..

end ListTable

end Lobbyboy.Foundation
