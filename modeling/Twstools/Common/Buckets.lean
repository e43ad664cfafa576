import Mathlib.Algebra.BigOperators.Group.Finset.Piecewise
import Mathlib.Algebra.Order.BigOperators.Group.Finset
import Mathlib.Data.Int.Interval
import Mathlib.Tactic.Ring
/-!
# Loads of aligned and of sliding windows

A log lists amounts and the instants they were spent at. `load` is what
was spent at the instants of a kind. Time is cut into aligned buckets of
length `d`; a window of length `k * d` meets at most `k + 1` of them, so a
bound for each bucket bounds each window, wherever it begins
(`load_window_le`).
-/

namespace Twstools

variable {M : Type*} [AddCommMonoid M]

/-- What was spent at the instants with `p`. -/
def load (l : List (ℤ × M)) (p : ℤ → Prop) [DecidablePred p] : M :=
  ((l.filter fun e => p e.1).map Prod.snd).sum

variable {l : List (ℤ × M)} {e : ℤ × M} {p : ℤ → Prop} [DecidablePred p]

@[simp] theorem load_nil : load ([] : List (ℤ × M)) p = 0 := rfl

theorem load_cons : load (e :: l) p = (if p e.1 then e.2 else 0) + load l p := by
  unfold load
  by_cases h : p e.1 <;> simp [h]

theorem load_append {l' : List (ℤ × M)} : load (l ++ l') p = load l p + load l' p := by
  simp [load]

theorem load_singleton : load [e] p = if p e.1 then e.2 else 0 := by
  rw [load_cons, load_nil, add_zero]

/-- Nothing is spent at instants that do not occur. -/
theorem load_eq_zero (h : ∀ e ∈ l, ¬ p e.1) : load l p = 0 := by
  rw [load, List.filter_eq_nil_iff.2 (by simpa using h)]
  rfl

variable [PartialOrder M] [IsOrderedAddMonoid M]

/-- **What is spent in some classes** is at most what is spent in each,
added up. -/
theorem load_le_sum (h0 : ∀ e ∈ l, 0 ≤ e.2) (f : ℤ → ℤ) {S : Finset ℤ}
    (hS : ∀ t, p t → f t ∈ S) : load l p ≤ ∑ b ∈ S, load l fun t => f t = b := by
  induction l with
  | nil => simp
  | cons e l ih =>
      rw [List.forall_mem_cons] at h0
      simp only [load_cons, Finset.sum_add_distrib, Finset.sum_ite_eq]
      refine add_le_add ?_ (ih h0.2)
      by_cases hp : p e.1
      · rw [if_pos hp, if_pos (hS e.1 hp)]
      · rw [if_neg hp]
        split
        · exact h0.1
        · exact le_refl _

/-- **A bound for the buckets bounds the windows.** A window of `k` bucket
lengths meets one bucket more. -/
theorem load_window_le (h0 : ∀ e ∈ l, 0 ≤ e.2) {d : ℤ} (hd : 0 < d) {r : M}
    (h : ∀ b, load l (fun t => t / d = b) ≤ r) (a : ℤ) (k : ℕ) :
    load l (fun t => a ≤ t ∧ t < a + k * d) ≤ (k + 1) • r := by
  have hS : ∀ t, a ≤ t ∧ t < a + k * d → t / d ∈ Finset.Icc (a / d) (a / d + k) := by
    rintro t ⟨hat, htk⟩
    have hlow := Int.ediv_le_ediv hd hat
    have hhigh := Int.ediv_le_ediv hd htk.le
    rw [Int.add_mul_ediv_right _ _ hd.ne'] at hhigh
    exact Finset.mem_Icc.2 ⟨hlow, hhigh⟩
  have hcard : (Finset.Icc (a / d) (a / d + k)).card = k + 1 := by
    rw [Int.card_Icc]
    omega
  calc load l (fun t => a ≤ t ∧ t < a + k * d)
      ≤ ∑ b ∈ Finset.Icc (a / d) (a / d + k), load l fun t => t / d = b := load_le_sum h0 _ hS
    _ ≤ (Finset.Icc (a / d) (a / d + k)).card • r := Finset.sum_le_card_nsmul _ _ _ fun b _ => h b
    _ = (k + 1) • r := by rw [hcard]

end Twstools
