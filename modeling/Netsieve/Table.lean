/-!
# `Netsieve.Table`: entries at numbered positions

A table has an entry at every position. All but finitely many of them are the
default, so that writing and reading back need no bounds: `get_set_self` and
`get_set_of_ne` hold for all positions. What a table has grown to is its `size`,
and `push` writes the first position that was never used.
-/

set_option autoImplicit false

namespace Netsieve

/-- A table of entries, all but finitely many of which are the default. -/
structure Table (α : Type) where
  /-- The entries up to the last one that was written. -/
  entries : Array α := #[]

namespace Table

variable {α : Type}

/-- How many positions are in use. -/
def size (t : Table α) : Nat :=
  t.entries.size

/-- Writes the first position that is not in use. -/
def push (t : Table α) (a : α) : Table α :=
  ⟨t.entries.push a⟩

/-- One more position is in use. -/
@[simp] theorem size_push (t : Table α) (a : α) : (t.push a).size = t.size + 1 := by
  simp [size, push]

variable [Inhabited α]

/-- The entry at a position. -/
def get (t : Table α) (i : Nat) : α :=
  t.entries.getD i default

/-- Writes the entry at a position. -/
def set (t : Table α) (i : Nat) (a : α) : Table α :=
  if i < t.size then ⟨t.entries.setIfInBounds i a⟩
  else ⟨(t.entries ++ Array.replicate (i - t.size) default).push a⟩

/-- The entry at a position that is not in use is the default. -/
theorem get_eq (t : Table α) (i : Nat) : t.get i = (t.entries[i]?).getD default := by
  simp [get]

/-- What was written is read. -/
@[simp] theorem get_set_self (t : Table α) (i : Nat) (a : α) : (t.set i a).get i = a := by
  unfold set
  split
  · next h =>
    unfold size at h
    simp [get_eq, h]
  · next h =>
    have width : (t.entries ++ Array.replicate (i - t.size) (default : α)).size = i := by
      unfold size at h ⊢
      simp; omega
    rw [get_eq, Array.getElem?_push, if_pos width.symm]
    rfl

/-- Writing one entry leaves the others alone. -/
@[simp] theorem get_set_of_ne (t : Table α) {i j : Nat} (a : α) (h : i ≠ j) :
    (t.set i a).get j = t.get j := by
  unfold set
  split
  · simp [get_eq, Array.getElem?_setIfInBounds_ne h]
  · next out =>
    -- A position between the old end and the new one is filled with the default,
    -- which is also what reading beyond the old end gives.
    have width : (t.entries ++ Array.replicate (i - t.size) (default : α)).size = i := by
      unfold size at out ⊢
      simp; omega
    rw [get_eq, get_eq, Array.getElem?_push, if_neg (by rw [width]; exact Ne.symm h),
      Array.getElem?_append]
    split
    · rfl
    · next beyond =>
      rw [Array.getElem?_eq_none (Nat.le_of_not_lt beyond), Array.getElem?_replicate]
      split <;> rfl

/-- Writing brings all positions up to the written one into use. -/
theorem size_set (t : Table α) (i : Nat) (a : α) : (t.set i a).size = max t.size (i + 1) := by
  unfold set
  split
  · next inside =>
    unfold size at inside ⊢
    simp; omega
  · next beyond =>
    unfold size at beyond ⊢
    simp; omega

/-- A position that is not in use has the default. -/
theorem get_of_size_le (t : Table α) {i : Nat} (h : t.size ≤ i) : t.get i = default := by
  rw [get_eq, Array.getElem?_eq_none h]
  rfl

/-- A new entry stands at the first position that was not in use. -/
theorem get_push (t : Table α) (a : α) (i : Nat) :
    (t.push a).get i = if i = t.size then a else t.get i := by
  rw [get_eq, push, Array.getElem?_push]
  unfold size
  split
  · rfl
  · rw [get_eq]

/-- A table is told by its size and its entries. -/
theorem eq_of_get {t u : Table α} (size : t.size = u.size) (get : ∀ i, t.get i = u.get i) :
    t = u := by
  have entries : t.entries = u.entries := by
    refine Array.ext size fun i inside inside' => ?_
    have same := get i
    rwa [get_eq, get_eq, Array.getElem?_eq_getElem inside, Array.getElem?_eq_getElem inside',
      Option.getD_some, Option.getD_some] at same
  cases t
  cases u
  exact congrArg Table.mk entries

/-- The default can be pushed without any entry changing. -/
theorem get_push_default (t : Table α) (i : Nat) : (t.push default).get i = t.get i := by
  rw [get_push]
  split
  · next fresh =>
    have unused : t.entries[i]? = none := Array.getElem?_eq_none (Nat.le_of_eq fresh.symm)
    rw [get_eq, unused]
    rfl
  · rfl

end Table

end Netsieve
