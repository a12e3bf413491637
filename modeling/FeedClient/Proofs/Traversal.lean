import Mathlib.Data.List.Forall2

/-!
# Lists read item by item

A list is read if each of its items is, and the results stand in the order of the
items.
-/
namespace FeedClient

variable {α β : Type} {f : α → Option β} {l : List α}

theorem mapM_eq_none_iff : l.mapM f = none ↔ ∃ a ∈ l, f a = none := by
  induction l with
  | nil => simp
  | cons a l ih =>
      rw [List.exists_mem_cons_iff, ← ih, List.mapM_cons]
      cases f a with
      | none => simp
      | some b => cases l.mapM f <;> simp

theorem mapM_eq_some_iff {bs : List β} :
    l.mapM f = some bs ↔ List.Forall₂ (fun a b => f a = some b) l bs := by
  induction l generalizing bs with
  | nil => cases bs <;> simp
  | cons a l ih =>
      rw [List.mapM_cons]
      cases bs with
      | nil => cases f a <;> cases l.mapM f <;> simp
      | cons b bs =>
          rw [List.forall₂_cons, ← ih]
          cases f a <;> cases l.mapM f <;> simp

/-- What is related to an item of the second list stands in the first one. -/
theorem exists_of_forall₂_right {R : α → β → Prop} {as : List α} {bs : List β}
    (h : List.Forall₂ R as bs) {b : β} (hb : b ∈ bs) : ∃ a ∈ as, R a b := by
  induction h with
  | nil => cases hb
  | cons hab _ ih =>
      rcases List.mem_cons.mp hb with rfl | hb
      · exact ⟨_, List.mem_cons_self .., hab⟩
      · obtain ⟨a, ha, hR⟩ := ih hb
        exact ⟨a, List.mem_cons_of_mem _ ha, hR⟩

end FeedClient
