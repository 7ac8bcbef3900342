import Mathlib.Data.List.Basic

/-!
# Lists with repetitions

What arrives when every item is handed over until it is acknowledged: each item
in its turn, at least once and a bounded number of times in a row.
-/

namespace Lora32Mqtt

/-- The copies of each item, one to `most` of them, in the order of the items. -/
inductive Repeated {Item : Type*} (most : Nat) : List Item → List Item → Prop where
  | nil : Repeated most [] []
  | cons {items copies : List Item} (item : Item) {count : Nat} :
      1 ≤ count → count ≤ most → Repeated most items copies →
      Repeated most (item :: items) (List.replicate count item ++ copies)

namespace Repeated

variable {Item : Type*} {most : Nat} {items copies : List Item}

theorem append {others copiesOfOthers : List Item}
    (first : Repeated most items copies)
    (second : Repeated most others copiesOfOthers) :
    Repeated most (items ++ others) (copies ++ copiesOfOthers) := by
  induction first with
  | nil => exact second
  | cons item positive bounded _ induction =>
      rw [List.cons_append, List.append_assoc]
      exact .cons item positive bounded induction

theorem singleton (item : Item) {count : Nat} (positive : 1 ≤ count)
    (bounded : count ≤ most) :
    Repeated most [item] (List.replicate count item) := by
  have one := Repeated.cons item positive bounded .nil
  rwa [List.append_nil] at one

theorem sublist (repeated : Repeated most items copies) :
    List.Sublist items copies := by
  induction repeated with
  | nil => exact List.Sublist.slnil
  | @cons items copies item count positive _ _ induction =>
      have taken : List.Sublist [item] (List.replicate count item) := by
        rw [List.singleton_sublist, List.mem_replicate]
        exact ⟨Nat.ne_of_gt positive, rfl⟩
      exact taken.append induction

theorem mem_iff (repeated : Repeated most items copies) (item : Item) :
    item ∈ copies ↔ item ∈ items := by
  induction repeated with
  | nil => rfl
  | cons other positive _ _ induction =>
      rw [List.mem_append, List.mem_replicate, List.mem_cons, induction]
      refine or_congr_left ?_
      exact and_iff_right (Nat.ne_of_gt positive)

theorem eq_of_one (repeated : Repeated 1 items copies) : copies = items := by
  induction repeated with
  | nil => rfl
  | @cons items copies item count positive bounded _ induction =>
      obtain rfl : count = 1 := Nat.le_antisymm bounded positive
      rw [induction, List.replicate_one, List.singleton_append]

end Repeated

end Lora32Mqtt
