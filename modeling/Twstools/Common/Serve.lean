import Mathlib.Data.List.TakeWhile
/-!
# Serving a list in order

The elements of a list are handed out one at a time. The one that is out
is either finished, and the next one is to come, or put back, and it comes
again. Whatever the order of these, those finished are a prefix of the
list, and the one handed out is always the first that is not finished.
-/

namespace Twstools

variable {α : Type*}

/-- What happens to the elements of a list. -/
inductive Service (α : Type*) where
  | give (a : α)
  | back
  | finish (a : α)

/-- The element a service finishes. -/
def Service.finished : Service α → Option α
  | finish a => some a
  | _ => none

/-- The elements a log finishes. -/
def finishedOf (log : List (Service α)) : List α := log.filterMap Service.finished

/-- The logs of serving `rs`, with how many elements are finished, and
whether one is out. -/
inductive Served (rs : List α) : List (Service α) → ℕ → Bool → Prop
  | start : Served rs [] 0 false
  | give {log : List (Service α)} {i : ℕ} {a : α} : Served rs log i false → rs[i]? = some a →
      Served rs (log ++ [.give a]) i true
  | back {log : List (Service α)} {i : ℕ} : Served rs log i true →
      Served rs (log ++ [.back]) i false
  | finish {log : List (Service α)} {i : ℕ} {a : α} : Served rs log i true → rs[i]? = some a →
      Served rs (log ++ [.finish a]) (i + 1) false

/-- In order: those finished are a prefix, and what is handed out is the
first that is not finished. -/
def InOrder (rs : List α) (log : List (Service α)) : Prop :=
  finishedOf log = rs.take (finishedOf log).length ∧
    ∀ l₁ a l₂, log = l₁ ++ .give a :: l₂ → rs[(finishedOf l₁).length]? = some a

namespace Served

variable {rs : List α} {log : List (Service α)} {i : ℕ} {out : Bool}

theorem finishedOf_concat (s : Service α) :
    finishedOf (log ++ [s]) = finishedOf log ++ s.finished.toList := by
  cases s <;> simp [finishedOf, Service.finished]

/-- **Those finished are a prefix.** -/
theorem finishedOf_eq (h : Served rs log i out) : finishedOf log = rs.take i := by
  induction h with
  | start => rfl
  | give _ _ ih => simpa [finishedOf_concat, Service.finished] using ih
  | back _ ih => simpa [finishedOf_concat, Service.finished] using ih
  | @finish log i a _ ha ih =>
      rw [finishedOf_concat, ih, List.take_add_one, ha]
      rfl

theorem le_length (h : Served rs log i out) : i ≤ rs.length := by
  induction h with
  | start => exact Nat.zero_le _
  | give _ _ ih => exact ih
  | back _ ih => exact ih
  | finish _ ha ih => exact (List.getElem?_eq_some_iff.1 ha).1

theorem length_finishedOf (h : Served rs log i out) : (finishedOf log).length = i := by
  rw [h.finishedOf_eq, List.length_take, Nat.min_eq_left h.le_length]

/-- What a log that ends differently handed out was handed out before. -/
theorem give_mem_init {l₁ l₂ : List (Service α)} {a : α} {s : Service α} (hs : ∀ b, s ≠ .give b)
    (h : log ++ [s] = l₁ ++ .give a :: l₂) : ∃ l, log = l₁ ++ .give a :: l := by
  rcases List.eq_nil_or_concat l₂ with rfl | ⟨l, b, rfl⟩
  · exact absurd (List.append_inj_right' h rfl) (by simpa using hs a)
  · refine ⟨l, ?_⟩
    have h' : log ++ [s] = (l₁ ++ .give a :: l) ++ [b] := by simpa using h
    exact (List.append_inj' h' rfl).1

/-- **What is handed out is the first that is not finished.** -/
theorem give_eq (h : Served rs log i out) {l₁ l₂ : List (Service α)} {a : α}
    (hl : log = l₁ ++ .give a :: l₂) : rs[(finishedOf l₁).length]? = some a := by
  induction h generalizing l₂ with
  | start => simp at hl
  | @give log i b h hb ih =>
      rcases List.eq_nil_or_concat l₂ with rfl | ⟨l, s, rfl⟩
      · obtain ⟨rfl, hab⟩ := List.append_inj' hl rfl
        obtain rfl : b = a := by simpa using hab
        rw [h.length_finishedOf]
        exact hb
      · have hl' : log ++ [.give b] = (l₁ ++ .give a :: l) ++ [s] := by simpa using hl
        exact ih (List.append_inj' hl' rfl).1
  | back _ ih =>
      obtain ⟨l, hl'⟩ := give_mem_init (by simp) hl
      exact ih hl'
  | finish _ _ ih =>
      obtain ⟨l, hl'⟩ := give_mem_init (by simp) hl
      exact ih hl'

/-- **A list is served in order.** -/
theorem inOrder (h : Served rs log i out) : InOrder rs log :=
  ⟨by rw [h.length_finishedOf]; exact h.finishedOf_eq, fun _ _ _ hl => h.give_eq hl⟩

end Served

end Twstools
