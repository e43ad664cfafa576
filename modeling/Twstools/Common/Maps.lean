import Std.Data.TreeMap.Lemmas
import Mathlib.Data.List.Nodup
/-!
# Looking things up in a map

Membership and lookup of an ordered map, in the two directions proofs
need them.
-/

namespace Twstools

open Std

variable {α β : Type} {cmp : α → α → Ordering} [TransCmp cmp] {m : TreeMap α β cmp} {k : α} {v : β}

theorem mem_of_getElem? (h : m[k]? = some v) : k ∈ m := by
  rw [TreeMap.mem_iff_isSome_getElem?, h]
  rfl

theorem notMem_of_getElem? (h : m[k]? = none) : k ∉ m := by
  rw [TreeMap.mem_iff_isSome_getElem?, h]
  exact Bool.false_ne_true

theorem exists_getElem? (h : k ∈ m) : ∃ v, m[k]? = some v :=
  Option.isSome_iff_exists.1 (TreeMap.mem_iff_isSome_getElem?.1 h)

theorem getElem?_of_notMem (h : k ∉ m) : m[k]? = none := by
  rw [TreeMap.mem_iff_isSome_getElem?, Option.not_isSome_iff_eq_none] at h
  exact h

/-! ## Inserting and erasing -/

theorem mem_insert_iff [LawfulEqCmp cmp] {a : α} : a ∈ m.insert k v ↔ a = k ∨ a ∈ m := by
  rw [TreeMap.mem_insert, LawfulEqCmp.compare_eq_iff_eq, eq_comm]

theorem mem_erase_iff [LawfulEqCmp cmp] {a : α} : a ∈ m.erase k ↔ a ≠ k ∧ a ∈ m := by
  rw [TreeMap.mem_erase, Ne, LawfulEqCmp.compare_eq_iff_eq, eq_comm]

/-- What is found is the new value, or what was there at another key. -/
theorem getElem?_insert_cases [LawfulEqCmp cmp] {a : α} {w : β}
    (h : (m.insert k v)[a]? = some w) : (a = k ∧ w = v) ∨ (a ≠ k ∧ m[a]? = some w) := by
  rw [TreeMap.getElem?_insert] at h
  split at h
  · rename_i hk
    exact .inl ⟨(LawfulEqCmp.eq_of_compare hk).symm, (Option.some.inj h).symm⟩
  · rename_i hk
    exact .inr ⟨fun ha => hk (LawfulEqCmp.compare_eq_iff_eq.2 ha.symm), h⟩

/-- What holds of all values holds after a new one. -/
theorem forall_insert {P : β → Prop} (hv : P v) (h : ∀ (a : α) (w : β), m[a]? = some w → P w)
    (a : α) (w : β) (ha : (m.insert k v)[a]? = some w) : P w := by
  rw [TreeMap.getElem?_insert] at ha
  split at ha
  · rwa [← Option.some.inj ha]
  · exact h a w ha

/-- What holds of each key and its value holds of those that are left. -/
theorem forall_erase_key {P : α → β → Prop} (h : ∀ (a : α) (w : β), m[a]? = some w → P a w)
    (a : α) (w : β) (ha : (m.erase k)[a]? = some w) : P a w := by
  rw [TreeMap.getElem?_erase] at ha
  split at ha
  · cases ha
  · exact h a w ha

theorem forall_erase {P : β → Prop} (h : ∀ (a : α) (w : β), m[a]? = some w → P w)
    (a : α) (w : β) (ha : (m.erase k)[a]? = some w) : P w :=
  forall_erase_key (P := fun _ w => P w) h a w ha

/-- A key stands in a map once or not at all. -/
theorem countP_toList [LawfulEqCmp cmp] [DecidableEq α] :
    m.toList.countP (fun e => decide (k = e.1)) = if k ∈ m then 1 else 0 := by
  have h : m.toList.countP (fun e => decide (k = e.1)) = m.keys.count k := by
    rw [← TreeMap.map_fst_toList_eq_keys, List.count, List.countP_map]
    refine List.countP_congr fun e _ => ?_
    simp [eq_comm (a := k)]
  rw [h, m.nodup_keys.count]
  simp [TreeMap.mem_keys]

end Twstools
