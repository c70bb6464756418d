import Mathlib.Data.List.Forall2

/-!
# `Netsieve.Proofs.Reading`: readings that may fail, one after the other

The readers of this library go through a list and stop where something does not fit. Some
read each element by itself (`mapM`), and some carry along how far they have come
(`foldlM`).
-/

set_option autoImplicit false

namespace Netsieve

section Map

variable {α β : Type}

/-- Elements are read one by one exactly if every one of them can be read. -/
theorem mapM_eq_some_iff {f : α → Option β} {xs : List α} {ys : List β} :
    xs.mapM f = some ys ↔ List.Forall₂ (fun x y => f x = some y) xs ys := by
  induction xs generalizing ys with
  | nil => simp [eq_comm]
  | cons x xs ih =>
    simp only [List.mapM_cons, Option.bind_eq_bind, Option.bind_eq_some_iff, Option.pure_def,
      Option.some.injEq, ih, List.forall₂_cons_left_iff]
    constructor
    · rintro ⟨y, hy, rest, hrest, rfl⟩
      exact ⟨y, rest, hy, hrest, rfl⟩
    · rintro ⟨y, rest, hy, hrest, rfl⟩
      exact ⟨y, hy, rest, hrest, rfl⟩

/-- A list is the image of another one exactly if each element is the image of its
neighbour. -/
theorem forall₂_eq_map_iff {f : β → α} {xs : List α} {ys : List β} :
    List.Forall₂ (fun x y => x = f y) xs ys ↔ xs = ys.map f := by
  rw [← List.forall₂_map_right_iff, List.forall₂_eq_eq_eq]

/-- There is a row of partners exactly if every element has a partner. -/
theorem exists_forall₂_iff {R : α → β → Prop} {xs : List α} :
    (∃ ys, List.Forall₂ R xs ys) ↔ ∀ x ∈ xs, ∃ y, R x y := by
  induction xs with
  | nil => simp
  | cons x xs ih =>
    rw [List.forall_mem_cons, ← ih]
    simp only [List.forall₂_cons_left_iff]
    constructor
    · rintro ⟨_, y, ys, hy, hys, rfl⟩
      exact ⟨⟨y, hy⟩, ys, hys⟩
    · rintro ⟨⟨y, hy⟩, ys, hys⟩
      exact ⟨_, y, ys, hy, hys, rfl⟩

end Map

section Fold

variable {α β : Type} {f : β → α → Option β} {b c : β}

/-- Behind one element the reading goes on from where that one has led. -/
theorem foldlM_cons_of {a : α} (h : f b a = some c) (as : List α) :
    (a :: as).foldlM f b = as.foldlM f c := by
  rw [List.foldlM_cons, h]
  rfl

/-- Behind some elements the reading goes on from where these have led. -/
theorem foldlM_append_of {front : List α} (h : front.foldlM f b = some c) (as : List α) :
    (front ++ as).foldlM f b = as.foldlM f c := by
  rw [List.foldlM_append, h]
  rfl

end Fold

end Netsieve
