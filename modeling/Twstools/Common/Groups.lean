import Mathlib.Data.List.Chain
import Mathlib.Data.List.Infix
import Mathlib.Data.Finset.Card
import Mathlib.Data.Finset.Insert
import Mathlib.Data.Finset.Dedup
/-!
# Groups that begin with a new value

A list falls into groups: each value that was not in the list before begins
a new one. Filing a list into a row of cells writes every value of the
`i`-th group into the `i`-th cell, one after the other. Where a cell may be
written while it is blank or holds the value already, `Fits` says which
lists can be filed, and `settlesOn_iff` what is in a cell in the end.
-/

namespace Twstools

variable {α : Type*} {blank a c w : α} {bound i : ℕ} {cells l l' : List α}

/-! ## What a cell takes -/

/-- A cell may be written that is blank or holds the value. -/
def MayWrite (blank v a : α) : Prop := v = blank ∨ v = a

/-- Blanks, and then only the one value. -/
def SettlesOn (blank w : α) (l : List α) : Prop :=
  ∃ k n : ℕ, l = List.replicate k blank ++ List.replicate (n + 1) w

/-- **A cell settles on a value**: it is written without a fault, and has
the value in the end. -/
theorem settlesOn_iff : SettlesOn blank w (c :: l) ↔
    (c :: l).IsChain (MayWrite blank) ∧ l.getLastD c = w := by
  induction l generalizing c with
  | nil =>
      constructor
      · rintro ⟨k, n, h⟩
        have hlen := congrArg List.length h
        simp only [List.length_cons, List.length_nil, List.length_append,
          List.length_replicate] at hlen
        obtain ⟨rfl, rfl⟩ : k = 0 ∧ n = 0 := by omega
        exact ⟨List.isChain_singleton c, by simpa using h⟩
      · rintro ⟨-, rfl⟩
        exact ⟨0, 0, rfl⟩
  | cons b l ih =>
      rw [List.isChain_cons_cons, List.getLastD_cons, and_assoc, ← ih]
      constructor
      · rintro ⟨k, n, h⟩
        cases k with
        | zero =>
            cases n with
            | zero => cases h
            | succ n =>
                obtain ⟨rfl, hl⟩ := List.cons.inj h
                have hb : b = c := (List.cons.inj hl).1
                exact ⟨.inr hb.symm, 0, n, hl⟩
        | succ k =>
            obtain ⟨rfl, hl⟩ := List.cons.inj h
            exact ⟨.inl rfl, k, n, hl⟩
      · rintro ⟨rfl | rfl, k, n, hl⟩
        · exact ⟨k + 1, n, by rw [hl]; rfl⟩
        · cases k with
          | zero =>
              have hcw : c = w := (List.cons.inj hl).1
              exact ⟨0, n + 1, by rw [hl, hcw]; rfl⟩
          | succ k =>
              obtain ⟨rfl, -⟩ := List.cons.inj hl
              exact ⟨k + 2, n, by rw [hl]; rfl⟩

/-! ## Groups -/

variable [DecidableEq α]

/-- The `i`-th group: the values with which the list so far has `i + 1`
different ones. -/
def group (l : List α) (i : ℕ) : List α :=
  (l.inits.filter fun p => p.toFinset.card = i + 1).filterMap List.getLast?

/-- The cells after the list was filed. -/
def filed (cells l : List α) : List α := cells.mapIdx fun i c => (group l i).getLastD c

/-- **The list can be filed**: there are not more groups than `bound`, and
none of them changes what is in its cell. -/
structure Fits (blank : α) (bound : ℕ) (cells l : List α) : Prop where
  card_le : l.toFinset.card ≤ bound
  chain : ∀ i c, cells[i]? = some c → (c :: group l i).IsChain (MayWrite blank)

/-! ## One value more -/

@[simp] theorem group_nil : group ([] : List α) i = [] := by
  simp [group]

/-- **The last value belongs to the last group.** -/
theorem group_snoc (l : List α) (a : α) (i : ℕ) :
    group (l ++ [a]) i = group l i ++ if (l ++ [a]).toFinset.card = i + 1 then [a] else [] := by
  have hinits : (l ++ [a]).inits = l.inits ++ [l ++ [a]] := by simp [List.inits_append]
  rw [group, hinits, List.filter_append, List.filterMap_append, ← group]
  congr 1
  by_cases h : (l ++ [a]).toFinset.card = i + 1
  · rw [if_pos h, List.filter_cons_of_pos (by simpa using h)]
    simp
  · rw [if_neg h, List.filter_cons_of_neg (by simpa using h)]
    rfl

theorem card_snoc (l : List α) (a : α) :
    (l ++ [a]).toFinset.card = l.toFinset.card + if a ∈ l then 0 else 1 := by
  have hinsert : (l ++ [a]).toFinset = insert a l.toFinset := by
    ext b
    simp
  rw [hinsert]
  split
  · rename_i h
    rw [Finset.insert_eq_of_mem (List.mem_toFinset.2 h)]
    rfl
  · rename_i h
    exact Finset.card_insert_of_notMem fun hm => h (List.mem_toFinset.1 hm)

theorem card_snoc_pos (l : List α) (a : α) : 0 < (l ++ [a]).toFinset.card :=
  Finset.card_pos.2 ⟨a, by simp⟩

@[simp] theorem length_filed : (filed cells l).length = cells.length := List.length_mapIdx

@[simp] theorem filed_nil : filed cells [] = cells := by
  refine List.ext_getElem? fun i => ?_
  simp [filed, List.getElem?_mapIdx]

theorem getElem?_filed : (filed cells l)[i]? = cells[i]?.map fun c => (group l i).getLastD c :=
  List.getElem?_mapIdx

/-- **One cell is written**: the number of different values tells which. -/
theorem filed_snoc (cells l : List α) (a : α) : filed cells (l ++ [a]) =
    (filed cells l).set ((l ++ [a]).toFinset.card - 1) a := by
  have hpos := card_snoc_pos l a
  refine List.ext_getElem? fun i => ?_
  rw [getElem?_filed, List.getElem?_set, getElem?_filed, group_snoc, length_filed]
  by_cases h : (l ++ [a]).toFinset.card = i + 1
  · have hi : (l ++ [a]).toFinset.card - 1 = i := by omega
    rw [if_pos h, if_pos hi, hi]
    by_cases hlt : i < cells.length
    · simp [hlt]
    · simp [hlt]
  · have hi : ¬ (l ++ [a]).toFinset.card - 1 = i := by omega
    rw [if_neg h, if_neg hi, List.append_nil]

/-! ## What can be filed -/

theorem fits_nil : Fits blank bound cells [] where
  card_le := Nat.zero_le _
  chain i c _ := by
    rw [group_nil]
    exact List.isChain_singleton c

/-- What is in a cell is the last value of its list. -/
theorem getLast?_cons_group : (c :: group l i).getLast? = some ((group l i).getLastD c) := by
  rw [List.getLast?_cons]
  cases group l i <;> rfl

/-- **What can be filed after a list**: one cell decides. -/
theorem fits_snoc (blank : α) (bound : ℕ) (cells l : List α) (a : α) :
    Fits blank bound cells (l ++ [a]) ↔ Fits blank bound cells l ∧
      (l ++ [a]).toFinset.card ≤ bound ∧
      ∀ v, (filed cells l)[(l ++ [a]).toFinset.card - 1]? = some v → MayWrite blank v a := by
  have hpos := card_snoc_pos l a
  have hcons : ∀ i c, c :: group (l ++ [a]) i =
      (c :: group l i) ++ if (l ++ [a]).toFinset.card = i + 1 then [a] else [] := fun i c => by
    rw [group_snoc, List.cons_append]
  constructor
  · rintro ⟨hcard, hchain⟩
    refine ⟨⟨?_, fun i c hc => ?_⟩, hcard, fun v hv => ?_⟩
    · have := card_snoc l a
      omega
    · have h := hchain i c hc
      rw [hcons] at h
      exact (List.isChain_append.1 h).1
    · rw [getElem?_filed, Option.map_eq_some_iff] at hv
      obtain ⟨c, hc, rfl⟩ := hv
      have h := hchain _ c hc
      rw [hcons, if_pos (by omega), List.isChain_append] at h
      exact h.2.2 _ getLast?_cons_group a rfl
  · rintro ⟨⟨-, hchain⟩, hcard, hwrite⟩
    refine ⟨hcard, fun i c hc => ?_⟩
    rw [hcons]
    by_cases h : (l ++ [a]).toFinset.card = i + 1
    · rw [if_pos h, List.isChain_append]
      refine ⟨hchain i c hc, List.isChain_singleton a, fun v hv b hb => ?_⟩
      obtain rfl : a = b := Option.some.inj hb
      rw [getLast?_cons_group] at hv
      obtain rfl := Option.some.inj hv
      have hi : (l ++ [a]).toFinset.card - 1 = i := by omega
      refine hwrite _ ?_
      rw [hi, getElem?_filed, hc, Option.map_some]
    · rw [if_neg h, List.append_nil]
      exact hchain i c hc

/-- **A list that can be filed can be filed up to any place.** -/
theorem Fits.of_append (h : Fits blank bound cells (l ++ l')) : Fits blank bound cells l := by
  induction l' using List.reverseRecOn with
  | nil => rwa [List.append_nil] at h
  | append_singleton l' a ih =>
      rw [← List.append_assoc] at h
      exact ih ((fits_snoc _ _ _ _ _).1 h).1

end Twstools
