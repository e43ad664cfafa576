import Mathlib.Data.List.Perm.Basic
/-!
# Splitting a list by tests

Tests that partition a list split it into sublists that together are the
list again, up to order.
-/

namespace Twstools

variable {α : Type*}

/-- One element more goes into as many of the sublists as accept it. -/
private theorem flatMap_filter_cons (ps : List (α → Bool)) (a : α) (l : List α) :
    (ps.flatMap fun p => (a :: l).filter p).Perm
      (List.replicate (ps.countP (· a)) a ++ ps.flatMap fun p => l.filter p) := by
  induction ps with
  | nil => simp
  | cons p ps ih =>
      rw [List.flatMap_cons, List.flatMap_cons]
      by_cases hp : p a = true
      · rw [List.filter_cons_of_pos hp]
        simp only [List.countP_cons, hp, if_true, List.replicate_succ, List.cons_append]
        refine List.Perm.cons a ((ih.append_left _).trans ?_)
        rw [← List.append_assoc, ← List.append_assoc]
        exact List.perm_append_comm.append_right _
      · rw [List.filter_cons_of_neg hp]
        simp only [List.countP_cons, hp]
        refine (ih.append_left _).trans ?_
        rw [← List.append_assoc, ← List.append_assoc]
        exact List.perm_append_comm.append_right _

/-- **If exactly one test accepts each element, the sublists are the
list.** -/
theorem flatMap_filter_perm (ps : List (α → Bool)) (l : List α)
    (h : ∀ a ∈ l, ps.countP (· a) = 1) : (ps.flatMap fun p => l.filter p).Perm l := by
  induction l with
  | nil => simp
  | cons a l ih =>
      refine (flatMap_filter_cons ps a l).trans ?_
      rw [h a List.mem_cons_self]
      exact (ih fun b hb => h b (List.mem_cons_of_mem _ hb)).cons a

end Twstools
