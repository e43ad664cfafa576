import Mathlib.Data.Nat.Notation
/-!
# Texts with separators

Fields are joined by a separator (`joined`), lines are each ended by one
(`terminated`). What has no separator in it is found again by splitting the
text there, but a list of fields cannot be told from none when all it has
is one that is empty (`fields_joined_iff`).
-/

namespace Twstools

variable {α : Type} {sep x : α} {ls : List (List α)} {s l : List α}

/-- Fields with a separator between each two. -/
def joined (sep : α) (ls : List (List α)) : List α := [sep].intercalate ls

/-- Lines with a separator at the end of each. -/
def terminated (sep : α) (ls : List (List α)) : List α := ls.flatMap (· ++ [sep])

theorem joined_cons_cons {l' : List α} :
    joined sep (l :: l' :: ls) = l ++ sep :: joined sep (l' :: ls) := by
  rw [joined, List.intercalate_cons_cons, List.append_assoc]
  rfl

theorem mem_joined (hx : x ≠ sep) : x ∈ joined sep ls ↔ ∃ l ∈ ls, x ∈ l := by
  induction ls with
  | nil => simp [joined]
  | cons l ls ih =>
      cases ls with
      | nil => simp [joined]
      | cons l' ls =>
          rw [joined_cons_cons, List.mem_append, List.mem_cons, ih]
          simp [hx]

theorem terminated_cons : terminated sep (l :: ls) = l ++ sep :: terminated sep ls := by
  rw [terminated, List.flatMap_cons, List.append_assoc]
  rfl

theorem terminated_eq_joined : terminated sep ls = joined sep (ls ++ [[]]) := by
  induction ls with
  | nil => rfl
  | cons l ls ih =>
      cases ls with
      | nil =>
          rw [terminated_cons, List.singleton_append, joined_cons_cons]
          rfl
      | cons l' ls =>
          rw [terminated_cons, ih]
          exact joined_cons_cons.symm

section

variable [DecidableEq α]

/-- The fields of a text that is empty when there are none. -/
def fields (sep : α) (s : List α) : List (List α) := if s = [] then [] else s.splitOn sep

/-- The lines of a text, each of which is ended. -/
def lines (sep : α) (s : List α) : List (List α) := (s.splitOn sep).dropLast

/-- Fields are found again, if there is one. -/
theorem splitOn_joined (h : ∀ l ∈ ls, sep ∉ l) (hne : ls ≠ []) :
    (joined sep ls).splitOn sep = ls := List.splitOn_intercalate sep h hne

/-- **Fields are found again** unless all there is is an empty one. -/
theorem fields_joined_iff (h : ∀ l ∈ ls, sep ∉ l) :
    fields sep (joined sep ls) = ls ↔ ls ≠ [[]] := by
  by_cases hnil : ls = []
  · rw [hnil]
    exact ⟨fun _ => List.cons_ne_nil _ _ |>.symm, fun _ => rfl⟩
  · have hsplit := splitOn_joined h hnil
    unfold fields
    constructor
    · rintro hf rfl
      cases hf
    · intro hne
      rw [if_neg, hsplit]
      intro hempty
      rw [hempty] at hsplit
      exact hne hsplit.symm

/-- **Lines are found again.** -/
theorem lines_terminated (h : ∀ l ∈ ls, sep ∉ l) : lines sep (terminated sep ls) = ls := by
  rw [lines, terminated_eq_joined, splitOn_joined _ (by simp), List.dropLast_concat]
  intro l hl
  rcases List.mem_append.1 hl with hl | hl
  · exact h l hl
  · rw [List.mem_singleton.1 hl]
    exact List.not_mem_nil

/-- There is a separator for each line. -/
theorem count_terminated (h : ∀ l ∈ ls, sep ∉ l) : (terminated sep ls).count sep = ls.length := by
  induction ls with
  | nil => rfl
  | cons l ls ih =>
      rw [terminated_cons, List.count_append, List.count_cons_self,
        List.count_eq_zero.2 (h l List.mem_cons_self),
        ih fun l hl => h l (List.mem_cons_of_mem _ hl), Nat.zero_add, List.length_cons]

end

end Twstools
