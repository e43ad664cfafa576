import Mathlib.Data.List.NodupEquivFin
import Mathlib.Algebra.Order.Group.Defs
import Mathlib.Algebra.Order.Group.Int
/-!
# Spaced lists and the windows they fit in

A list of instants is spaced by `d` at distance `k` when each entry lies at
least `d` after the one `k` places before it. In an ordered list that is
the same as a rate limit: every half-open window of length `d` holds at
most `k` entries (`Spaced.length_window_le`). A spaced list is extended by
looking at its `k`-th latest entry only (`Spaced.snoc`), and what holds of
an ordered list holds of each of its sublists (`Spaced.sublist`,
`latest_le_of_sublist`).
-/

namespace Twstools

variable {α : Type*}

/-- Each entry lies at least `d` after the entry `k` places before it. -/
def Spaced [Add α] [LE α] (k : ℕ) (d : α) (l : List α) : Prop :=
  ∀ ⦃i a b⦄, l[i]? = some a → l[i + k]? = some b → a + d ≤ b

namespace Spaced

theorem nil [Add α] [LE α] {k : ℕ} {d : α} : Spaced k d ([] : List α) := by
  intro i a b h; simp at h

/-- **One entry more.** Only the `k`-th latest entry is looked at. -/
theorem snoc [Add α] [LE α] {k : ℕ} {d x : α} {l : List α} (hk : 0 < k) (h : Spaced k d l)
    (hx : ∀ a, k ≤ l.length → l[l.length - k]? = some a → a + d ≤ x) :
    Spaced k d (l ++ [x]) := by
  intro i a b ha hb
  have hlt : i + k < (l ++ [x]).length := (List.getElem?_eq_some_iff.1 hb).1
  rw [List.length_append, List.length_singleton] at hlt
  rw [List.getElem?_append_left (by omega)] at ha
  rcases Nat.lt_or_ge (i + k) l.length with hik | hik
  · rw [List.getElem?_append_left hik] at hb
    exact h ha hb
  · obtain rfl : b = x := by
      rw [List.getElem?_append_right hik, show i + k - l.length = 0 by omega] at hb
      simpa using hb.symm
    exact hx a (by omega) (by rwa [show l.length - k = i by omega])

variable [AddCommMonoid α] [LinearOrder α] [IsOrderedAddMonoid α] {k : ℕ} {d : α} {l w : List α}

omit [IsOrderedAddMonoid α] in
/-- A sublist of an ordered spaced list is spaced: its entries lie further
apart than the same number of places in the list. -/
theorem sublist (h : Spaced k d l) (hl : l.Pairwise (· ≤ ·)) (hw : w.Sublist l) :
    Spaced k d w := by
  obtain ⟨f, hf⟩ := List.sublist_iff_exists_orderEmbedding_getElem?_eq.1 hw
  intro i a b ha hb
  rw [hf] at ha hb
  have hfi : f i + k ≤ f (i + k) := by simpa [Nat.add_comm] using f.strictMono.add_le_nat k i
  have hlt : f (i + k) < l.length := (List.getElem?_eq_some_iff.1 hb).1
  obtain ⟨c, hc⟩ : ∃ c, l[f i + k]? = some c :=
    ⟨_, List.getElem?_eq_getElem (by omega)⟩
  refine le_trans (h ha hc) ?_
  rcases Nat.eq_or_lt_of_le hfi with he | hlt'
  · rw [he, hb] at hc; exact le_of_eq (Option.some.inj hc).symm
  · obtain ⟨h1, rfl⟩ := List.getElem?_eq_some_iff.1 hc
    obtain ⟨h2, rfl⟩ := List.getElem?_eq_some_iff.1 hb
    exact List.pairwise_iff_getElem.1 hl _ _ h1 h2 hlt'

/-- **A window holds at most `k`.** Otherwise its first entry and the one
`k` places on are less than `d` apart. -/
theorem length_window_le (h : Spaced k d l) (hl : l.Pairwise (· ≤ ·)) (a : α) :
    (l.filter fun x => a ≤ x ∧ x < a + d).length ≤ k := by
  by_contra hc
  set w := l.filter fun x => a ≤ x ∧ x < a + d with hw
  have hmem : ∀ x ∈ w, a ≤ x ∧ x < a + d := fun x hx => by
    simpa using (List.mem_filter.1 hx).2
  have h0 : w[0]? = some w[0] := List.getElem?_eq_getElem _
  have hk : w[0 + k]? = some w[0 + k] := List.getElem?_eq_getElem (by omega)
  have hsp := h.sublist hl List.filter_sublist h0 hk
  have hle : a + d ≤ w[0] + d := by
    gcongr
    exact (hmem _ (List.getElem_mem _)).1
  exact absurd (hmem _ (List.getElem_mem (by omega))).2 (not_lt.2 (le_trans hle hsp))

end Spaced

/-- **The `k`-th latest entry of a sublist is not later than the list's.** -/
theorem latest_le_of_sublist [Preorder α] {l w : List α} (hl : l.Pairwise (· ≤ ·))
    (hw : w.Sublist l) {k : ℕ} (hk : 0 < k) {a b : α} (hkw : k ≤ w.length)
    (ha : w[w.length - k]? = some a) (hb : l[l.length - k]? = some b) : a ≤ b := by
  obtain ⟨f, hf⟩ := List.sublist_iff_exists_orderEmbedding_getElem?_eq.1 hw
  have hlen := hw.length_le
  have hlast : f (w.length - 1) < l.length := by
    have h := hf (w.length - 1)
    rw [List.getElem?_eq_getElem (by omega), eq_comm, List.getElem?_eq_some_iff] at h
    exact h.1
  have hstep : f (w.length - k) + (k - 1) ≤ f (w.length - 1) := by
    have h := f.strictMono.add_le_nat (k - 1) (w.length - k)
    rw [show k - 1 + (w.length - k) = w.length - 1 by omega] at h
    omega
  rw [hf] at ha
  obtain ⟨h1, rfl⟩ := List.getElem?_eq_some_iff.1 ha
  obtain ⟨h2, rfl⟩ := List.getElem?_eq_some_iff.1 hb
  rcases Nat.eq_or_lt_of_le (show f (w.length - k) ≤ l.length - k by omega) with he | hlt
  · simp only [he]; exact le_refl _
  · exact List.pairwise_iff_getElem.1 hl _ _ h1 h2 hlt

/-- In a falling list what is behind the entries above a bound is not above
it. -/
theorem not_above_of_takeWhile {α : Type*} [Preorder α] {l : List α} (hl : l.Pairwise (· ≥ ·))
    {p : α → Bool} (hp : ∀ a b, a ≤ b → p a = true → p b = true) {j : ℕ} {a : α}
    (hj : (l.takeWhile p).length ≤ j) (ha : l[j]? = some a) : p a = false := by
  induction l generalizing j with
  | nil => simp at ha
  | cons b l ih =>
      rw [List.pairwise_cons] at hl
      by_cases hb : p b = true
      · rw [List.takeWhile_cons_of_pos hb, List.length_cons] at hj
        obtain ⟨i, rfl⟩ : ∃ i, j = i + 1 := ⟨j - 1, by omega⟩
        exact ih hl.2 (j := i) (by omega) (by simpa using ha)
      · -- the list is not above the bound from here on
        have hab : a ≤ b := by
          rcases List.mem_cons.1 (List.mem_of_getElem? ha) with rfl | hm
          · exact le_refl _
          · exact hl.1 a hm
        exact Bool.eq_false_iff.2 fun h => hb (hp a b hab h)

/-- **An entry of a falling list is above a bound** exactly when it is one
of those in front that are. -/
theorem above_iff_lt_takeWhile {α : Type*} [Preorder α] {l : List α} (hl : l.Pairwise (· ≥ ·))
    {p : α → Bool} (hp : ∀ a b, a ≤ b → p a = true → p b = true) {j : ℕ} {a : α}
    (ha : l[j]? = some a) : p a = true ↔ j < (l.takeWhile p).length := by
  constructor
  · intro h
    by_contra hj
    have := not_above_of_takeWhile hl hp (not_lt.1 hj) ha
    simp [h] at this
  · intro hj
    have hget : (l.takeWhile p)[j]? = some a := by
      rw [List.getElem?_eq_getElem hj, ← ha]
      exact (List.prefix_iff_getElem?.1 (List.takeWhile_prefix p) j hj).symm
    exact List.all_eq_true.1 List.all_takeWhile a (List.mem_of_getElem? hget)

/-- The entries in front that are above a bound are all that are. -/
theorem takeWhile_eq_filter {α : Type*} [Preorder α] {l : List α} (hl : l.Pairwise (· ≥ ·))
    {p : α → Bool} (hp : ∀ a b, a ≤ b → p a = true → p b = true) :
    l.takeWhile p = l.filter p := by
  induction l with
  | nil => rfl
  | cons b l ih =>
      rw [List.pairwise_cons] at hl
      by_cases hb : p b = true
      · rw [List.takeWhile_cons_of_pos hb, List.filter_cons_of_pos hb, ih hl.2]
      · have hnone : ∀ a ∈ l, ¬ p a = true := fun a ha h => hb (hp a b (hl.1 a ha) h)
        rw [List.takeWhile_cons_of_neg hb, List.filter_cons_of_neg hb, eq_comm,
          List.filter_eq_nil_iff]
        exact hnone

end Twstools
