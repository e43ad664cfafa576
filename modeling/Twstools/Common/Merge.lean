import Mathlib.Order.Lattice
import Mathlib.Data.List.Basic
/-!
# Merging one ordered list into another in place

`insertMerge` is the walk that merges a list into another by inserting:
the cursor stands in the first list, an entry of the second that is
smaller than the one under the cursor goes in before it, and what is left
of the second list at the end is appended. When the second list is ordered
this is the stable merge `List.merge` (`insertMerge_eq_merge`), entries of
the first list coming first among equals; so the entries are those of both
lists and the result is ordered. The two last lemmas say which entry ends
the merge.
-/

namespace Twstools

variable {α κ : Type*} [LinearOrder κ] (key : α → κ)

/-- The order of the keys, as the comparison `List.merge` takes. -/
def keyLe (a b : α) : Bool := key a ≤ key b

/-- The in-place merge: the first list from the cursor on, and the entries
of the second still to be placed. -/
def insertMerge : List α → List α → List α
  | t :: ts, o :: os =>
      if key o < key t then insertMerge (o :: t :: ts) os
      else t :: insertMerge ts (o :: os)
  | [], os => os
  | ts, [] => ts
termination_by ts os => 2 * os.length + ts.length
decreasing_by all_goals simp only [List.length_cons]; omega

variable {key} {ts os : List α} {t o : α}

@[simp] theorem keyLe_iff {a b : α} : keyLe key a b = true ↔ key a ≤ key b := by simp [keyLe]

/-- The entry just inserted is passed over at once, the rest of the second
list being no smaller. -/
private theorem insertMerge_cons_of_le (h : ∀ p ∈ os, key o ≤ key p) :
    insertMerge key (o :: ts) os = o :: insertMerge key ts os := by
  cases os with
  | nil => cases ts <;> simp [insertMerge]
  | cons p ps => rw [insertMerge, if_neg (not_lt.2 (h p List.mem_cons_self))]

/-- **Inserting an ordered list is the stable merge.** -/
theorem insertMerge_eq_merge : ∀ (ts os : List α), os.Pairwise (key · ≤ key ·) →
    insertMerge key ts os = ts.merge os (keyLe key)
  | [], os, _ => by simp [insertMerge]
  | t :: ts, [], _ => by simp [insertMerge]
  | t :: ts, o :: os, h => by
      rw [List.pairwise_cons] at h
      rw [insertMerge]
      split
      · rename_i hlt
        rw [insertMerge_cons_of_le h.1, insertMerge_eq_merge (t :: ts) os h.2,
          List.cons_merge_cons_neg _ _ _ (by simpa using hlt)]
      · rename_i hge
        rw [insertMerge_eq_merge ts (o :: os) (List.pairwise_cons.2 h),
          List.cons_merge_cons_pos _ _ _ (by simpa using hge)]
termination_by ts os => ts.length + os.length

theorem insertMerge_perm (h : os.Pairwise (key · ≤ key ·)) :
    (insertMerge key ts os).Perm (ts ++ os) := by
  rw [insertMerge_eq_merge _ _ h]
  exact List.merge_perm_append _

/-- **The merge of ordered lists is ordered.** -/
theorem insertMerge_pairwise (ht : ts.Pairwise (key · ≤ key ·))
    (ho : os.Pairwise (key · ≤ key ·)) : (insertMerge key ts os).Pairwise (key · ≤ key ·) := by
  rw [insertMerge_eq_merge _ _ ho]
  have htrans : ∀ a b c : α, keyLe key a b → keyLe key b c → keyLe key a c :=
    fun a b c hab hbc => by rw [keyLe_iff] at *; exact le_trans hab hbc
  have h := List.pairwise_merge htrans (fun a b => by simpa using le_total (key a) (key b)) ts os
    (ht.imp (by simp)) (ho.imp (by simp))
  exact h.imp (by simp)

/-- **Equal entries keep their order**, those of the first list in front. -/
theorem filter_insertMerge (ht : ts.Pairwise (key · ≤ key ·)) (ho : os.Pairwise (key · ≤ key ·))
    (k : κ) : (insertMerge key ts os).filter (key · = k) =
      ts.filter (key · = k) ++ os.filter (key · = k) := by
  rw [insertMerge_eq_merge _ _ ho]
  induction ts generalizing os with
  | nil => simp
  | cons t ts ih =>
      rw [List.pairwise_cons] at ht
      induction os with
      | nil => simp
      | cons o os ih' =>
          rw [List.pairwise_cons] at ho
          by_cases hto : keyLe key t o = true
          · have hrest := ih ht.2 (List.pairwise_cons.2 ho)
            rw [List.cons_merge_cons_pos _ _ _ hto]
            by_cases hk : key t = k
            · rw [List.filter_cons_of_pos (by simpa using hk), hrest,
                List.filter_cons_of_pos (a := t) (by simpa using hk), List.cons_append]
            · rw [List.filter_cons_of_neg (by simpa using hk), hrest,
                List.filter_cons_of_neg (a := t) (by simpa using hk)]
          · have hlt : key o < key t := by simpa using hto
            rw [List.cons_merge_cons_neg _ _ _ hto]
            by_cases hk : key o = k
            · -- the first list has nothing as small
              have hnone : (t :: ts).filter (key · = k) = [] := by
                rw [List.filter_eq_nil_iff]
                intro s hs hsk
                have hts : key t ≤ key s := by
                  rcases List.mem_cons.1 hs with rfl | hs
                  · exact le_refl _
                  · exact ht.1 s hs
                have hsk' : key s = k := by simpa using hsk
                rw [hsk', ← hk] at hts
                exact absurd hlt (not_lt.2 hts)
              have hrest := ih' ho.2
              rw [List.filter_cons_of_pos (by simpa using hk), hrest, hnone, List.nil_append,
                List.nil_append, List.filter_cons_of_pos (a := o) (by simpa using hk)]
            · rw [List.filter_cons_of_neg (by simpa using hk), ih' ho.2,
                List.filter_cons_of_neg (a := o) (by simpa using hk)]

/-- An entry later than all of the second list stays last. -/
theorem merge_concat_left (h : ∀ o ∈ os, key o < key t) :
    (ts ++ [t]).merge os (keyLe key) = ts.merge os (keyLe key) ++ [t] := by
  induction ts generalizing os with
  | nil =>
      induction os with
      | nil => simp
      | cons o os ih =>
          rw [List.nil_append, List.nil_merge,
            List.cons_merge_cons_neg _ _ _ (by simpa using h o List.mem_cons_self)]
          have := ih fun p hp => h p (List.mem_cons_of_mem _ hp)
          rw [List.nil_append, List.nil_merge] at this
          rw [this, List.cons_append]
  | cons s ts ih =>
      induction os with
      | nil => simp
      | cons o os ih' =>
          rw [List.cons_append]
          by_cases hso : keyLe key s o = true
          · rw [List.cons_merge_cons_pos _ _ _ hso, List.cons_merge_cons_pos _ _ _ hso, ih h,
              List.cons_append]
          · rw [List.cons_merge_cons_neg _ _ _ hso, List.cons_merge_cons_neg _ _ _ hso,
              ← List.cons_append, ih' fun p hp => h p (List.mem_cons_of_mem _ hp), List.cons_append]

/-- An entry of the second list no earlier than all of the first ends the
merge. -/
theorem merge_concat_right (h : ∀ t ∈ ts, key t ≤ key o) :
    ts.merge (os ++ [o]) (keyLe key) = ts.merge os (keyLe key) ++ [o] := by
  induction ts generalizing os with
  | nil => simp
  | cons t ts ih =>
      have hts : ∀ s ∈ ts, key s ≤ key o := fun s hs => h s (List.mem_cons_of_mem _ hs)
      induction os with
      | nil =>
          rw [List.nil_append,
            List.cons_merge_cons_pos _ _ _ (by simpa using h t List.mem_cons_self)]
          have := @ih [] hts
          rw [List.nil_append, List.merge_right] at this
          rw [this, List.merge_right, List.cons_append]
      | cons p os ih' =>
          rw [List.cons_append]
          by_cases htp : keyLe key t p = true
          · rw [List.cons_merge_cons_pos _ _ _ htp, List.cons_merge_cons_pos _ _ _ htp,
              ← List.cons_append, ih hts, List.cons_append]
          · rw [List.cons_merge_cons_neg _ _ _ htp, List.cons_merge_cons_neg _ _ _ htp, ih',
              List.cons_append]

end Twstools
