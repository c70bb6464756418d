import Mathlib.Data.List.Induction
import Netsieve.Endpoint

/-!
# `Netsieve.Proofs.Ascending`: sets as lists

Insertion keeps a list ascending (`ascending_insert`), so that the list of the members of a
set is ascending (`ascending_ofList`). It is the only such list:

* `ofList_of_ascending`: an ascending list is the list of its members.
* `ofList_congr`: lists with the same members have the same list of members.
-/

set_option autoImplicit false

namespace Netsieve.Ascending

variable {α : Type}

/-- Each element is less than those behind it. -/
def IsAscending (cmp : α → α → Ordering) (as : List α) : Prop :=
  as.Pairwise fun a b => cmp a b = .lt

variable {cmp : α → α → Ordering}

/-- Insertion brings in nothing but the new member. -/
theorem mem_of_mem_insert {a b : α} {as : List α} (h : b ∈ insert cmp a as) : b = a ∨ b ∈ as := by
  induction as with
  | nil => exact .inl (List.mem_singleton.mp h)
  | cons c cs ih =>
    rw [insert] at h
    cases order : cmp a c with
    | lt => simpa [order] using h
    | eq => exact .inr (by simpa [order] using h)
    | gt =>
      simp only [order] at h
      rcases List.mem_cons.mp h with rfl | there
      · exact .inr List.mem_cons_self
      · exact (ih there).imp_right (List.mem_cons_of_mem c)

section Members

variable [Std.LawfulEqCmp cmp]

/-- An insertion adds exactly the new member, if members that compare equal are equal. -/
theorem mem_insert {a b : α} {as : List α} : b ∈ insert cmp a as ↔ b = a ∨ b ∈ as := by
  refine ⟨mem_of_mem_insert, ?_⟩
  induction as with
  | nil => simp [insert]
  | cons c cs ih =>
    intro there
    rw [insert]
    cases order : cmp a c with
    | lt => exact List.mem_cons.mpr there
    | eq =>
      have same : a = c := Std.LawfulEqCmp.eq_of_compare order
      rcases there with rfl | there
      · exact same ▸ List.mem_cons_self
      · exact there
    | gt =>
      -- The new member goes further back, so `c` stays in front of it.
      show b ∈ c :: insert cmp a cs
      rw [List.mem_cons] at there ⊢
      rcases there with rfl | rfl | there
      · exact .inr (ih (.inl rfl))
      · exact .inl rfl
      · exact .inr (ih (.inr there))

/-- The members of a set are the elements of the list it was made from. -/
theorem mem_ofList {b : α} (as : List α) : b ∈ ofList cmp as ↔ b ∈ as := by
  induction as using List.reverseRecOn with
  | nil => rfl
  | append_singleton as a ih =>
    rw [ofList, List.foldl_append, List.mem_append, List.mem_singleton, or_comm, ← ih]
    exact mem_insert

end Members

variable [Std.TransCmp cmp]

/-- Insertion keeps a list ascending and free of repeats. -/
theorem ascending_insert (a : α) {as : List α} (h : IsAscending cmp as) :
    IsAscending cmp (insert cmp a as) := by
  induction as with
  | nil => exact List.pairwise_singleton _ a
  | cons c cs ih =>
    obtain ⟨least, rest⟩ := List.pairwise_cons.mp h
    rw [insert]
    cases order : cmp a c with
    | lt =>
      -- What is less than `c` is less than all that `c` is less than.
      refine List.pairwise_cons.mpr ⟨fun b there => ?_, h⟩
      rcases List.mem_cons.mp there with rfl | there
      · exact order
      · exact Std.TransCmp.lt_trans order (least b there)
    | eq => exact h
    | gt =>
      -- `c` is still the least: the tail has only got the greater `a`.
      refine List.pairwise_cons.mpr ⟨fun b there => ?_, ih rest⟩
      rcases mem_of_mem_insert there with rfl | there
      · exact Std.OrientedCmp.gt_iff_lt.mp order
      · exact least b there

/-- The list of the members of a set is ascending. -/
theorem ascending_ofList (as : List α) : IsAscending cmp (ofList cmp as) := by
  induction as using List.reverseRecOn with
  | nil => exact List.Pairwise.nil
  | append_singleton as a ih =>
    rw [ofList, List.foldl_append]
    exact ascending_insert a ih

/-- A greater element goes to the end. -/
theorem insert_of_greater {a : α} {as : List α} (h : ∀ b ∈ as, cmp b a = .lt) :
    insert cmp a as = as ++ [a] := by
  induction as with
  | nil => rfl
  | cons c cs ih =>
    have order : cmp a c = .gt := Std.OrientedCmp.gt_iff_lt.mpr (h c List.mem_cons_self)
    rw [insert, order, ih fun b there => h b (List.mem_cons_of_mem c there)]
    rfl

/-- An ascending list is the list of its members. -/
theorem ofList_of_ascending {as : List α} (h : IsAscending cmp as) : ofList cmp as = as := by
  induction as using List.reverseRecOn with
  | nil => rfl
  | append_singleton as a ih =>
    obtain ⟨front, -, less⟩ := List.pairwise_append.mp h
    have same : insert cmp a (ofList cmp as) = as ++ [a] := by
      rw [ih front]
      exact insert_of_greater fun b there => less b there a List.mem_cons_self
    rw [ofList, List.foldl_append]
    exact same

/-- An ascending list is told by its members. -/
theorem eq_of_ascending {as bs : List α} (has : IsAscending cmp as) (hbs : IsAscending cmp bs)
    (same : ∀ a, a ∈ as ↔ a ∈ bs) : as = bs := by
  have distinct : ∀ {cs : List α}, IsAscending cmp cs → cs.Nodup := by
    intro cs h
    refine h.imp fun {a b} less => ?_
    rintro rfl
    have same : cmp a a = .eq := Std.ReflCmp.compare_self
    rw [same] at less
    cases less
  have perm : as.Perm bs := (List.perm_ext_iff_of_nodup (distinct has) (distinct hbs)).mpr same
  refine perm.eq_of_pairwise (fun a b _ _ less greater => ?_) has hbs
  rw [Std.OrientedCmp.gt_iff_lt.mpr greater] at less
  cases less

/-- Lists with the same members have the same list of members. -/
theorem ofList_congr [Std.LawfulEqCmp cmp] {as bs : List α} (same : ∀ a, a ∈ as ↔ a ∈ bs) :
    ofList cmp as = ofList cmp bs := by
  refine eq_of_ascending (ascending_ofList as) (ascending_ofList bs) fun a => ?_
  rw [mem_ofList, mem_ofList, same]

end Netsieve.Ascending
