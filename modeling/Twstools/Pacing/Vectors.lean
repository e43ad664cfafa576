import Twstools.Pacing.Control
/-!
# The two vectors of a control

The operations of a control with every access of its vectors checked: `back`
and `pop_back` of an empty vector, and `erase` up to the last entry of one,
have nothing to work on. On a control whose vectors are in step the checked
operations are the plain ones (`InStep.apply_eq_ok`). What is built from
new controls under a clock that does not go back is `Kept`: in step and in
order.
-/

namespace Twstools

namespace PacingControl

/-- `pop_back`. -/
def popBack {α : Type} (l : List α) : Exec Assertion (List α) := do
  let _ ← deref l.getLast?
  pure l.dropLast

/-- `erase` of all entries but the last. -/
def eraseToBack {α : Type} (l : List α) : Exec Assertion (List α) := do
  let _ ← deref l.getLast?
  pure (l.drop (l.length - 1))

/-- `clear`, checked. -/
def clearChecked (c : PacingControl) (now : ℤ) : Exec Assertion PacingControl :=
  if c.dateTimes.isEmpty then pure c
  else do
    let back ← deref c.dateTimes.getLast?
    if now - back < 5000 then do
      let dateTimes ← eraseToBack c.dateTimes
      let violations ← eraseToBack c.violations
      pure { c with dateTimes := dateTimes, violations := violations }
    else pure { c with dateTimes := [], violations := [] }

/-- `remove_last_request`, checked. -/
def removeLastRequestChecked (c : PacingControl) : Exec Assertion PacingControl :=
  if c.dateTimes.length ≤ 0 then pure c
  else do
    let dateTimes ← popBack c.dateTimes
    let violations ← popBack c.violations
    pure { c with dateTimes := dateTimes, violations := violations }

/-- `notifyViolation`, checked. -/
def notifyViolationChecked (c : PacingControl) (now : ℤ) : Exec Assertion PacingControl := do
  let c := if c.violations.isEmpty then c.addRequest now else c
  let _ ← deref c.violations.getLast?
  pure { c with violations := c.violations.dropLast ++ [true] }

/-- The operations on one control. -/
inductive Operation where
  | addRequest
  | remove_last_request
  | notifyViolation
  | clear
  deriving DecidableEq

/-- One operation at the time `now`. -/
def Operation.apply (now : ℤ) (c : PacingControl) : Operation → Exec Assertion PacingControl
  | addRequest => pure (c.addRequest now)
  | remove_last_request => c.removeLastRequestChecked
  | notifyViolation => c.notifyViolationChecked now
  | clear => c.clearChecked now

/-- What an operation gives when no access is checked. -/
def Operation.result (now : ℤ) (c : PacingControl) : Operation → PacingControl
  | addRequest => c.addRequest now
  | remove_last_request => c.removeLastRequest
  | notifyViolation => c.notifyViolation now
  | clear => c.clear now

/-- What there is at the time `now` of a control: operations and merges,
with the clock going on in between. -/
inductive Built : ℤ → PacingControl → Prop
  | new {now : ℤ} {c : PacingControl} : c.dateTimes = [] → c.violations = [] → Built now c
  | later {t now : ℤ} {c : PacingControl} : Built t c → t ≤ now → Built now c
  | apply {now : ℤ} {c c' : PacingControl} (o : Operation) :
      Built now c → o.apply now c = .ok c' → Built now c'
  | merge {now : ℤ} {c other c' : PacingControl} :
      Built now c → Built now other → c.merge other = .ok c' → Built now c'

variable {c c' other : PacingControl} {now t : ℤ}

/-! ## Nothing is missed -/

/-- The last flag is there when there is a time stamp. -/
theorem InStep.exists_last (h : c.InStep) (hne : c.dateTimes ≠ []) :
    ∃ v, c.violations.getLast? = some v := by
  have hv : c.violations ≠ [] := mt h.violations_eq_nil.1 hne
  exact ⟨_, List.getLast?_eq_some_getLast hv⟩

theorem InStep.removeLastRequest_ok (h : c.InStep) :
    c.removeLastRequestChecked = .ok c.removeLastRequest := by
  unfold removeLastRequestChecked PacingControl.removeLastRequest
  split
  · rfl
  · rename_i hlen
    have hne : c.dateTimes ≠ [] := by
      intro he
      simp [he] at hlen
    obtain ⟨v, hv⟩ := h.exists_last hne
    simp [popBack, hv, List.getLast?_eq_some_getLast hne, deref]

theorem notifyViolation_ok (c : PacingControl) (now : ℤ) :
    c.notifyViolationChecked now = .ok (c.notifyViolation now) := by
  unfold notifyViolationChecked PacingControl.notifyViolation
  by_cases he : c.violations.isEmpty = true
  · simp [he, deref]
  · have hne : c.violations ≠ [] := by simpa using he
    simp [he, List.getLast?_eq_some_getLast hne, deref]

theorem InStep.clear_ok (h : c.InStep) : c.clearChecked now = .ok (c.clear now) := by
  unfold clearChecked PacingControl.clear
  by_cases hne : c.dateTimes = []
  · simp [hne]
  · obtain ⟨v, hv⟩ := h.exists_last hne
    have hback := List.getLast?_eq_some_getLast hne
    simp only [List.isEmpty_iff, hne, if_false, hback, deref, Exec.ok_bind, eraseToBack, hv]
    split <;> rfl

/-- **In step, nothing is read or erased in an empty vector.** -/
theorem InStep.apply_eq_ok (h : c.InStep) (o : Operation) :
    o.apply now c = .ok (o.result now c) := by
  cases o with
  | addRequest => rfl
  | remove_last_request => exact h.removeLastRequest_ok
  | notifyViolation => exact notifyViolation_ok c now
  | clear => exact h.clear_ok

/-! ## What is kept -/

/-- In step, in order, and nothing lies ahead of the clock. -/
structure Kept (now : ℤ) (c : PacingControl) : Prop where
  inStep : c.InStep
  ordered : c.Ordered
  past : ∀ t ∈ c.dateTimes, t ≤ now

namespace Kept

/-- The pairs are in order as the time stamps are. -/
theorem entries_pairwise (h : Kept now c) :
    c.entries.Pairwise (Prod.fst · ≤ Prod.fst ·) := by
  rw [← List.pairwise_map, h.inStep.map_fst_entries]
  exact h.ordered

theorem addRequest (h : Kept now c) : Kept now (c.addRequest now) where
  inStep := h.inStep.addRequest
  ordered := by
    rw [Ordered, dateTimes_addRequest, List.pairwise_append]
    refine ⟨h.ordered, List.pairwise_singleton _ _, fun t ht s hs => ?_⟩
    rw [List.mem_singleton.1 hs]
    exact h.past t ht
  past t ht := by
    rw [dateTimes_addRequest] at ht
    rcases List.mem_append.1 ht with ht | ht
    · exact h.past t ht
    · exact le_of_eq (List.mem_singleton.1 ht)

theorem removeLastRequest (h : Kept now c) : Kept now c.removeLastRequest where
  inStep := h.inStep.removeLastRequest
  ordered := by
    rw [Ordered, dateTimes_removeLastRequest]
    exact h.ordered.sublist (List.dropLast_sublist _)
  past t ht := by
    rw [dateTimes_removeLastRequest] at ht
    exact h.past t (List.dropLast_subset _ ht)

/-- A violation leaves the time stamps, or is the first to leave one. -/
theorem notifyViolation (h : Kept now c) : Kept now (c.notifyViolation now) := by
  have hd : (c.notifyViolation now).dateTimes = c.dateTimes ∨
      (c.notifyViolation now).dateTimes = (c.addRequest now).dateTimes := by
    unfold PacingControl.notifyViolation
    split
    · exact .inr rfl
    · exact .inl rfl
  refine ⟨h.inStep.notifyViolation, ?_, ?_⟩
  · rcases hd with he | he
    · rw [Ordered, he]; exact h.ordered
    · rw [Ordered, he]; exact h.addRequest.ordered
  · rcases hd with he | he
    · rw [he]; exact h.past
    · rw [he]; exact h.addRequest.past

theorem clear (h : Kept now c) : Kept now (c.clear now) := by
  unfold PacingControl.clear
  split
  · exact h
  split
  · refine ⟨?_, h.ordered.sublist (List.drop_sublist _ _), fun t ht => ?_⟩
    · have := h.inStep
      simp only [InStep] at this
      simp [InStep, this]
    · exact h.past t (List.mem_of_mem_drop ht)
  · exact ⟨rfl, List.Pairwise.nil, by simp⟩

theorem merge (h : Kept now c) (ho : Kept now other) (hm : c.merge other = .ok c') :
    Kept now c' := by
  obtain ⟨c₁, hc₁, hstep, -, hent⟩ := merge_eq_ok h.inStep ho.inStep
  obtain rfl : c' = c₁ := by simpa [hm] using hc₁
  obtain ⟨hord, hperm⟩ := dateTimes_merge h.inStep ho.inStep h.ordered ho.ordered hstep hent
  refine ⟨hstep, hord, fun t ht => ?_⟩
  rcases List.mem_append.1 (hperm.mem_iff.1 ht) with ht | ht
  · exact h.past t ht
  · exact ho.past t ht

/-- **One operation.** -/
theorem apply (h : Kept now c) {o : Operation} (hc : o.apply now c = .ok c') : Kept now c' := by
  rw [h.inStep.apply_eq_ok] at hc
  obtain rfl := Except.ok.inj hc
  cases o with
  | addRequest => exact h.addRequest
  | remove_last_request => exact h.removeLastRequest
  | notifyViolation => exact h.notifyViolation
  | clear => exact h.clear

end Kept

/-- **What is built is kept.** -/
theorem Built.kept (h : Built now c) : Kept now c := by
  induction h with
  | new hd hv =>
      refine ⟨by rw [InStep, hd, hv]; rfl, by rw [Ordered, hd]; exact .nil, by simp [hd]⟩
  | later _ hle ih => exact ⟨ih.inStep, ih.ordered, fun t ht => le_trans (ih.past t ht) hle⟩
  | apply o _ hc ih => exact ih.apply hc
  | merge _ _ hm ih iho => exact ih.merge iho hm

/-- A control of these entries; its parameters are of no importance. -/
def ofEntries (entries : List (ℤ × Bool)) : PacingControl where
  dateTimes := entries.map Prod.fst
  violations := entries.map Prod.snd
  maxRequests := 60
  checkInterval := 605000
  minPacingTime := 1000
  violationPause := 60000

/-- A violation at 5 and a request at 7. -/
def violatedAt5 : PacingControl := ofEntries [(5, true), (7, false)]

/-- Requests at 5 and 7, on a farm that turns out to be the same. -/
def requestsAt5 : PacingControl := ofEntries [(5, false), (7, false)]

theorem built_examples : Built 7 violatedAt5 ∧ Built 7 requestsAt5 := by
  have hnew : Built 5 (ofEntries []) := .new rfl rfl
  have h₁ : Built 5 (ofEntries [(5, false)]) := hnew.apply .addRequest rfl
  have h₂ : Built 5 (ofEntries [(5, true)]) := h₁.apply .notifyViolation rfl
  exact ⟨(h₂.later (by decide)).apply .addRequest rfl, (h₁.later (by decide)).apply .addRequest rfl⟩

/-- **The vectors stay in step, and a merge is the ordered union.** Every
operation on a control that was built finds what it reads or erases; the
merge with another gives the pairs of both, ordered by time, and at equal
times those of this control in front. -/
theorem built_spec (h : Built now c) :
    c.dateTimes.length = c.violations.length ∧ c.dateTimes.Pairwise (· ≤ ·) ∧
      (∀ o : Operation, ∃ c', o.apply now c = .ok c') ∧
      ∀ other, Built now other → ∃ c', c.merge other = .ok c' ∧
        c'.dateTimes = c'.entries.map Prod.fst ∧ c'.violations = c'.entries.map Prod.snd ∧
        c'.entries.Pairwise (Prod.fst · ≤ Prod.fst ·) ∧
        c'.entries.Perm (c.entries ++ other.entries) ∧
        ∀ t, c'.entries.filter (Prod.fst · = t) =
          c.entries.filter (Prod.fst · = t) ++ other.entries.filter (Prod.fst · = t) := by
  have hk := h.kept
  refine ⟨hk.inStep.symm, hk.ordered, fun o => ⟨_, hk.inStep.apply_eq_ok o⟩, fun other ho => ?_⟩
  have hko := ho.kept
  obtain ⟨c', hc', hstep, -, hent⟩ := merge_eq_ok hk.inStep hko.inStep
  have hp := hk.entries_pairwise
  have hpo := hko.entries_pairwise
  refine ⟨c', hc', hstep.map_fst_entries.symm, hstep.map_snd_entries.symm, ?_, ?_, fun t => ?_⟩
  · rw [hent]
    exact insertMerge_pairwise hp hpo
  · rw [hent]
    exact insertMerge_perm hpo
  · rw [hent]
    exact filter_insertMerge hp hpo t

theorem built_spec_violatedAt5 :
    violatedAt5.dateTimes.length = violatedAt5.violations.length ∧
      violatedAt5.dateTimes.Pairwise (· ≤ ·) ∧
      (∀ o : Operation, ∃ c', o.apply 7 violatedAt5 = .ok c') ∧
      violatedAt5.merge requestsAt5 =
        .ok (ofEntries [(5, true), (5, false), (7, false), (7, false)]) ∧
      ∃ c', violatedAt5.merge requestsAt5 = .ok c' ∧
        c'.dateTimes = c'.entries.map Prod.fst ∧ c'.violations = c'.entries.map Prod.snd ∧
        c'.entries.Pairwise (Prod.fst · ≤ Prod.fst ·) ∧
        c'.entries.Perm (violatedAt5.entries ++ requestsAt5.entries) ∧
        ∀ t, c'.entries.filter (Prod.fst · = t) =
          violatedAt5.entries.filter (Prod.fst · = t) ++
            requestsAt5.entries.filter (Prod.fst · = t) := by
  obtain ⟨hlen, hord, hops, hmerge⟩ := built_spec built_examples.1
  exact ⟨hlen, hord, hops, by decide +kernel, hmerge requestsAt5 built_examples.2⟩

end PacingControl

end Twstools
