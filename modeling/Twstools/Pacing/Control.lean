import Twstools.Clib.Int
import Twstools.Common.Merge
import Twstools.Common.Window
import Twstools.Assertion
/-!
# One pacing control

`PacingControl` is the history of the requests to one place: their time
stamps, and for each whether TWS answered it with a pacing violation.
`goodTime` says how long to wait before the next request, `countLeft` how
many are left in the current interval; `merge` takes up the history of
another control. Both vectors grow and shrink together (`InStep`), so a
history is a list of pairs, and `merge` is the ordered merge of the
pairs. With no narrowing in the way, `goodTime` is not positive exactly
when the history is `Free`.
-/

namespace Twstools

/-- `PacingControl`, the newest entries last. -/
structure PacingControl where
  dateTimes : List ℤ := []
  violations : List Bool := []
  maxRequests : ℤ
  checkInterval : ℤ
  minPacingTime : ℤ
  violationPause : ℤ
  deriving DecidableEq

namespace PacingControl

/-- `isEmpty`. -/
def isEmpty (c : PacingControl) : Bool := c.dateTimes.isEmpty

/-- `setPacingTime`. -/
def setPacingTime (c : PacingControl) (r i m : ℤ) : PacingControl :=
  { c with maxRequests := r, checkInterval := i, minPacingTime := m }

/-- `setViolationPause`. -/
def setViolationPause (c : PacingControl) (vP : ℤ) : PacingControl :=
  { c with violationPause := vP }

/-- `clear`. The last entry stays while it is younger than 5 seconds. -/
def clear (c : PacingControl) (now : ℤ) : PacingControl :=
  match c.dateTimes.getLast? with
  | none => c
  | some back =>
      if now - back < 5000 then
        { c with
          dateTimes := c.dateTimes.drop (c.dateTimes.length - 1)
          violations := c.violations.drop (c.violations.length - 1) }
      else { c with dateTimes := [], violations := [] }

/-- `addRequest`. -/
def addRequest (c : PacingControl) (now : ℤ) : PacingControl :=
  { c with dateTimes := c.dateTimes ++ [now], violations := c.violations ++ [false] }

/-- `remove_last_request`: nothing happens to an empty history. -/
def removeLastRequest (c : PacingControl) : PacingControl :=
  if c.dateTimes.length ≤ 0 then c
  else { c with dateTimes := c.dateTimes.dropLast, violations := c.violations.dropLast }

/-- `notifyViolation`: an empty history first gets the request TWS
complains about. -/
def notifyViolation (c : PacingControl) (now : ℤ) : PacingControl :=
  let c := if c.violations.isEmpty then c.addRequest now else c
  { c with violations := c.violations.dropLast ++ [true] }

/-- `SWAP_MAX`. -/
def swapMax (retVal waitX : ℤ) : ℤ := if retVal < waitX then waitX else retVal

/-- `goodTime`. -/
def goodTime (c : PacingControl) (now : ℤ) : Exec Assertion ℤ :=
  match c.dateTimes.getLast? with
  | none => pure INT_MIN
  | some back => do
      let waitMin := toInt (back + c.minPacingTime - now)
      let retVal := swapMax INT_MIN waitMin
      let violated ← deref c.violations.getLast?
      let waitViol := if violated then toInt (back + c.violationPause - now) else INT_MIN
      let retVal := swapMax retVal waitViol
      let p_index := toInt (c.dateTimes.length - c.maxRequests)
      let waitBurst ←
        if 0 ≤ p_index then do
          let p_time ← atIndex c.dateTimes p_index
          pure (toInt (p_time + c.checkInterval - now))
        else pure INT_MIN
      pure (swapMax retVal waitBurst)

/-- The loop of `countLeft`, over the time stamps from the newest on. -/
def countLeftLoop (c : PacingControl) (now : ℤ) : List ℤ → ℤ → ℤ
  | [], retVal => retVal
  | t :: ts, retVal =>
      if 0 < toInt (t + c.checkInterval - now) then c.countLeftLoop now ts (retVal - 1)
      else retVal

/-- `countLeft`. -/
def countLeft (c : PacingControl) (now : ℤ) : Exec Assertion ℤ := do
  let waiting ←
    match c.dateTimes.getLast? with
    | none => pure false
    | some back => do
        let violated ← deref c.violations.getLast?
        pure (violated && decide (0 < toInt (back + c.violationPause - now)))
  if waiting then pure 0
  else pure (c.countLeftLoop now c.dateTimes.reverse c.maxRequests)

/-- The loops of `merge`: what the cursors `t_d` and `t_v` have in front
of them and what is left of the other control. The cursors of the two
vectors move together. When the other history outlasts this one, the
cursor stands at the end, as the second loop asserts. -/
def mergeLoop : List ℤ → List Bool → List ℤ → List Bool → Exec Assertion (List ℤ × List Bool)
  | t :: td, tv, o :: od, ov =>
      if o < t then do
        let v ← deref ov.head?
        mergeLoop (o :: t :: td) (v :: tv) od ov.tail
      else do
        let v ← deref tv.head?
        let (ds, vs) ← mergeLoop td tv.tail (o :: od) ov
        pure (t :: ds, v :: vs)
  | [], tv, o :: od, ov => do
      let v ← deref ov.head?
      let (ds, vs) ← mergeLoop [] tv od ov.tail
      pure (o :: ds, v :: vs)
  | td, tv, [], _ => pure (td, tv)
termination_by td _ od _ => 2 * od.length + td.length
decreasing_by all_goals simp only [List.length_cons]; omega

/-- `merge`. -/
def merge (c other : PacingControl) : Exec Assertion PacingControl := do
  let (ds, vs) ← mergeLoop c.dateTimes c.violations other.dateTimes other.violations
  pure { c with dateTimes := ds, violations := vs }

/-! ## The two vectors -/

variable {c other c' : PacingControl} {now : ℤ}

/-- One violation flag for each time stamp. -/
def InStep (c : PacingControl) : Prop := c.violations.length = c.dateTimes.length

/-- The history as one list: when, and whether it was a violation. -/
def entries (c : PacingControl) : List (ℤ × Bool) := c.dateTimes.zip c.violations

/-- The history is ordered by time. -/
def Ordered (c : PacingControl) : Prop := c.dateTimes.Pairwise (· ≤ ·)

/-- The two controls have the same parameters. -/
def SameParams (c c' : PacingControl) : Prop :=
  c'.maxRequests = c.maxRequests ∧ c'.checkInterval = c.checkInterval ∧
    c'.minPacingTime = c.minPacingTime ∧ c'.violationPause = c.violationPause

theorem SameParams.refl (c : PacingControl) : SameParams c c := ⟨rfl, rfl, rfl, rfl⟩

theorem SameParams.trans {c₁ c₂ c₃ : PacingControl} (h : SameParams c₁ c₂)
    (h' : SameParams c₂ c₃) : SameParams c₁ c₃ :=
  ⟨h'.1.trans h.1, h'.2.1.trans h.2.1, h'.2.2.1.trans h.2.2.1, h'.2.2.2.trans h.2.2.2⟩

namespace InStep

theorem map_fst_entries (h : c.InStep) : c.entries.map Prod.fst = c.dateTimes :=
  List.map_fst_zip (le_of_eq h.symm)

theorem map_snd_entries (h : c.InStep) : c.entries.map Prod.snd = c.violations :=
  List.map_snd_zip (le_of_eq h)

theorem violations_eq_nil (h : c.InStep) : c.violations = [] ↔ c.dateTimes = [] := by
  rw [← List.length_eq_zero_iff, h, List.length_eq_zero_iff]

theorem violations_isEmpty (h : c.InStep) : c.violations.isEmpty = c.dateTimes.isEmpty := by
  rw [Bool.eq_iff_iff, List.isEmpty_iff, List.isEmpty_iff, h.violations_eq_nil]

/-- The last flag is there when there is a last time stamp. -/
theorem getLast?_violations (h : c.InStep) {back : ℤ} (hb : c.dateTimes.getLast? = some back) :
    ∃ v, c.violations.getLast? = some v := by
  cases hv : c.violations.getLast? with
  | some v => exact ⟨v, rfl⟩
  | none =>
      rw [List.getLast?_eq_none_iff, h.violations_eq_nil] at hv
      simp [hv] at hb

theorem addRequest (h : c.InStep) : (c.addRequest now).InStep := by
  simpa [InStep, PacingControl.addRequest] using h

theorem removeLastRequest (h : c.InStep) : c.removeLastRequest.InStep := by
  unfold PacingControl.removeLastRequest
  split
  · exact h
  · simpa [InStep] using congrArg (· - 1) h

theorem notifyViolation (h : c.InStep) : (c.notifyViolation now).InStep := by
  unfold PacingControl.notifyViolation InStep
  rw [h.violations_isEmpty]
  cases hd : c.dateTimes with
  | nil => simp [PacingControl.addRequest, hd, h.violations_eq_nil.2 hd]
  | cons t ts =>
      have := h
      rw [InStep, hd, List.length_cons] at this
      simp [hd, this]

end InStep

@[simp] theorem dateTimes_addRequest : (c.addRequest now).dateTimes = c.dateTimes ++ [now] := rfl

@[simp] theorem violations_addRequest :
    (c.addRequest now).violations = c.violations ++ [false] := rfl

/-- Taking the last request off. -/
@[simp] theorem dateTimes_removeLastRequest :
    c.removeLastRequest.dateTimes = c.dateTimes.dropLast := by
  unfold removeLastRequest
  split
  · rename_i h
    rw [Nat.le_zero, List.length_eq_zero_iff] at h
    simp [h]
  · rfl

/-- A violation leaves the time stamps of a history that has some. -/
theorem dateTimes_notifyViolation (h : c.InStep) (hne : c.dateTimes ≠ []) :
    (c.notifyViolation now).dateTimes = c.dateTimes := by
  unfold notifyViolation
  rw [h.violations_isEmpty, if_neg (by simpa using hne)]

theorem violations_notifyViolation (h : c.InStep) (hne : c.dateTimes ≠ []) :
    (c.notifyViolation now).violations = c.violations.dropLast ++ [true] := by
  unfold notifyViolation
  rw [h.violations_isEmpty, if_neg (by simpa using hne)]

/-- Afterwards the last entry is marked. -/
theorem InStep.entries_notifyViolation (now : ℤ) (h : c.InStep) {ts : List ℤ} {t : ℤ}
    (hd : c.dateTimes = ts ++ [t]) :
    ∃ es, (c.notifyViolation now).entries = es ++ [(t, true)] := by
  have hne : c.dateTimes ≠ [] := by simp [hd]
  have hlen : ts.length = c.violations.dropLast.length := by
    have := h
    rw [InStep, hd, List.length_append] at this
    simp [this]
  refine ⟨ts.zip c.violations.dropLast, ?_⟩
  rw [entries, dateTimes_notifyViolation h hne, violations_notifyViolation h hne, hd,
    List.zip_append hlen]
  rfl

theorem sameParams_addRequest : SameParams c (c.addRequest now) := .refl c

theorem sameParams_removeLastRequest : SameParams c c.removeLastRequest := by
  unfold removeLastRequest
  split <;> exact .refl c

theorem sameParams_notifyViolation : SameParams c (c.notifyViolation now) := by
  unfold notifyViolation
  split <;> exact .refl c

/-! ## Merging -/

/-- The loops merge the pairs. -/
theorem mergeLoop_eq (ts os : List (ℤ × Bool)) :
    mergeLoop (ts.map Prod.fst) (ts.map Prod.snd) (os.map Prod.fst) (os.map Prod.snd) =
      .ok ((insertMerge Prod.fst ts os).map Prod.fst,
        (insertMerge Prod.fst ts os).map Prod.snd) := by
  induction ts, os using insertMerge.induct (Prod.fst : ℤ × Bool → ℤ) with
  | case1 t ts o os hlt ih =>
      simp only [List.map_cons] at ih ⊢
      rw [mergeLoop, if_pos (show o.1 < t.1 from hlt), insertMerge, if_pos hlt]
      simpa [deref] using ih
  | case2 t ts o os hge ih =>
      simp only [List.map_cons] at ih ⊢
      rw [mergeLoop, if_neg (show ¬ o.1 < t.1 from hge), insertMerge, if_neg hge]
      simp [ih, deref]
  | case3 os =>
      rw [insertMerge]
      induction os with
      | nil => simp [mergeLoop]
      | cons o os ih =>
          simp only [List.map_cons, List.map_nil] at ih ⊢
          rw [mergeLoop]
          simp [ih, deref]
  | case4 ts h =>
      cases ts with
      | nil => exact absurd rfl h
      | cons t ts => simp [insertMerge, mergeLoop]

/-- **`merge` is the ordered merge of the two histories**, and fails at
none of its reads. -/
theorem merge_eq_ok (h : c.InStep) (ho : other.InStep) :
    ∃ c', c.merge other = .ok c' ∧ c'.InStep ∧ SameParams c c' ∧
      c'.entries = insertMerge Prod.fst c.entries other.entries := by
  have hm := mergeLoop_eq c.entries other.entries
  rw [h.map_fst_entries, h.map_snd_entries, ho.map_fst_entries, ho.map_snd_entries] at hm
  refine ⟨{ c with
    dateTimes := (insertMerge Prod.fst c.entries other.entries).map Prod.fst
    violations := (insertMerge Prod.fst c.entries other.entries).map Prod.snd },
    ?_, ?_, .refl c, ?_⟩
  · simp [merge, hm]
  · simp [InStep]
  · simp [entries, List.zip_map']

/-- The time stamps of a merge are those of both, in order. -/
theorem dateTimes_merge (h : c.InStep) (ho : other.InStep) (hs : c.Ordered) (hso : other.Ordered)
    (hc' : c'.InStep) (he : c'.entries = insertMerge Prod.fst c.entries other.entries) :
    c'.Ordered ∧ c'.dateTimes.Perm (c.dateTimes ++ other.dateTimes) := by
  have hp : c.entries.Pairwise (Prod.fst · ≤ Prod.fst ·) := by
    rw [← List.pairwise_map, h.map_fst_entries]; exact hs
  have hpo : other.entries.Pairwise (Prod.fst · ≤ Prod.fst ·) := by
    rw [← List.pairwise_map, ho.map_fst_entries]; exact hso
  constructor
  · rw [Ordered, ← hc'.map_fst_entries, he, List.pairwise_map]
    exact insertMerge_pairwise hp hpo
  · rw [← hc'.map_fst_entries, he, ← h.map_fst_entries, ← ho.map_fst_entries, ← List.map_append]
    exact (insertMerge_perm hpo).map _

/-! ## When a request is free to go -/

/-- The oldest of the last `maxRequests` time stamps, when there are as
many. -/
def burstTime (c : PacingControl) : Option ℤ :=
  if c.maxRequests ≤ c.dateTimes.length then
    c.dateTimes[(c.dateTimes.length - c.maxRequests).toNat]?
  else none

/-- An entry of an ordered history is not later than the last one. -/
theorem Ordered.le_getLast? (h : c.Ordered) {t : ℤ} (ht : t ∈ c.dateTimes) :
    ∃ back, c.dateTimes.getLast? = some back ∧ t ≤ back := by
  obtain ⟨ts, back, hts⟩ : ∃ ts back, c.dateTimes = ts ++ [back] :=
    ⟨_, _, (List.dropLast_append_getLast (List.ne_nil_of_mem ht)).symm⟩
  refine ⟨back, by simp [hts], ?_⟩
  rw [Ordered, hts, List.pairwise_append] at h
  rw [hts, List.mem_append, List.mem_singleton] at ht
  rcases ht with ht | rfl
  · exact h.2.2 t ht back (by simp)
  · exact le_refl _

/-- The time differences `goodTime` computes in `int`s fit. -/
def TimesFit (c : PacingControl) (now : ℤ) : Prop :=
  (∀ t ∈ c.dateTimes.getLast?, InInt (t + c.minPacingTime - now) ∧
    (c.violations.getLast? = some true → InInt (t + c.violationPause - now))) ∧
  ∀ t ∈ c.burstTime, InInt (t + c.checkInterval - now)

instance (c : PacingControl) (now : ℤ) : Decidable (c.TimesFit now) :=
  inferInstanceAs (Decidable (_ ∧ _))

/-- Nothing in the history holds a request back. -/
structure Free (c : PacingControl) (now : ℤ) : Prop where
  min : ∀ t ∈ c.dateTimes.getLast?, t + c.minPacingTime ≤ now
  viol : c.violations.getLast? = some true →
    ∀ t ∈ c.dateTimes.getLast?, t + c.violationPause ≤ now
  burst : ∀ t ∈ c.burstTime, t + c.checkInterval ≤ now

/-- A history that ends with a marked entry is free after the pause only. -/
theorem Free.pause (hf : c.Free now) (h : c.InStep) {es : List (ℤ × Bool)} {t : ℤ}
    (he : c.entries = es ++ [(t, true)]) : t + c.violationPause ≤ now := by
  refine hf.viol ?_ t ?_
  · rw [← h.map_snd_entries, he]; simp
  · rw [← h.map_fst_entries, he]; simp

/-- **A free history keeps its distance** from every part of it: from each
entry of the part, and from the `maxRequests`-th latest. -/
theorem Free.distance (hf : c.Free now) (ho : c.Ordered) (hm : 1 ≤ c.maxRequests) {w : List ℤ}
    (hw : w.Sublist c.dateTimes) :
    (∀ t ∈ w, t + c.minPacingTime ≤ now) ∧
      ∀ t, c.maxRequests.toNat ≤ w.length → w[w.length - c.maxRequests.toNat]? = some t →
        t + c.checkInterval ≤ now := by
  constructor
  · intro t ht
    obtain ⟨back, hb, hle⟩ := ho.le_getLast? (hw.subset ht)
    have := hf.min back hb
    omega
  · intro t hk ht
    have hlen := hw.length_le
    have hidx : ((c.dateTimes.length : ℤ) - c.maxRequests).toNat =
        c.dateTimes.length - c.maxRequests.toNat := by omega
    have hlt : c.dateTimes.length - c.maxRequests.toNat < c.dateTimes.length := by omega
    have hget := List.getElem?_eq_getElem hlt
    have hbt : c.burstTime = some c.dateTimes[c.dateTimes.length - c.maxRequests.toNat] := by
      rw [burstTime, if_pos (by omega), hidx, hget]
    have hle := latest_le_of_sublist ho hw (by omega) hk ht hget
    have := hf.burst _ hbt
    omega

theorem swapMax_le {a b x : ℤ} : swapMax a b ≤ x ↔ a ≤ x ∧ b ≤ x := by
  unfold swapMax
  split <;> omega

theorem intMin_le_zero : INT_MIN ≤ 0 := by decide

/-- A request may go when none of the three waits is positive. -/
theorem longest_le_zero {a b d : ℤ} :
    swapMax (swapMax (swapMax INT_MIN a) b) d ≤ 0 ↔ a ≤ 0 ∧ b ≤ 0 ∧ d ≤ 0 := by
  rw [swapMax_le, swapMax_le, swapMax_le]
  have := intMin_le_zero
  tauto

/-! ## The waits -/

/-- `waitMin`. -/
def waitMin (c : PacingControl) (now : ℤ) : ℤ :=
  c.dateTimes.getLast?.elim INT_MIN fun back => toInt (back + c.minPacingTime - now)

/-- `waitViol`. -/
def waitViol (c : PacingControl) (now : ℤ) : ℤ :=
  if c.violations.getLast? = some true then
    c.dateTimes.getLast?.elim INT_MIN fun back => toInt (back + c.violationPause - now)
  else INT_MIN

/-- `waitBurst`. -/
def waitBurst (c : PacingControl) (now : ℤ) : Exec Assertion ℤ :=
  let p_index := toInt (c.dateTimes.length - c.maxRequests)
  if 0 ≤ p_index then do
    let p_time ← atIndex c.dateTimes p_index
    pure (toInt (p_time + c.checkInterval - now))
  else pure INT_MIN

theorem goodTime_nil (hd : c.dateTimes = []) : c.goodTime now = .ok INT_MIN := by
  unfold goodTime
  simp [hd]

/-- **`goodTime` is the longest wait** of a history that is not empty. -/
theorem goodTime_eq (h : c.InStep) (hne : c.dateTimes ≠ []) :
    c.goodTime now = (do
      let b ← c.waitBurst now
      pure (swapMax (swapMax (swapMax INT_MIN (c.waitMin now)) (c.waitViol now)) b)) := by
  obtain ⟨back, hb⟩ := Option.ne_none_iff_exists'.1 (mt List.getLast?_eq_none_iff.1 hne)
  obtain ⟨v, hv⟩ := h.getLast?_violations hb
  unfold goodTime waitMin waitViol waitBurst
  simp only [hb, hv, deref, Exec.ok_bind, Option.elim_some, Option.some.injEq]
  cases v <;> split <;> simp

/-- `countLeft` is 0 during the pause for a violation. -/
theorem countLeft_eq (h : c.InStep) : c.countLeft now =
    .ok (if 0 < c.waitViol now then 0
      else c.countLeftLoop now c.dateTimes.reverse c.maxRequests) := by
  have hmin : ¬ 0 < INT_MIN := by decide
  unfold countLeft waitViol
  cases hb : c.dateTimes.getLast? with
  | none => simp [hmin]
  | some back =>
      obtain ⟨v, hv⟩ := h.getLast?_violations hb
      simp only [hv, deref, Exec.ok_bind, Exec.pure_eq_ok, Option.elim_some, Option.some.injEq]
      cases v with
      | false => simp [hmin]
      | true =>
          simp only [Bool.true_and, decide_eq_true_eq, if_true]
          split <;> rfl

/-- The burst looks at the `maxRequests`-th latest time stamp when its
index is an `int`. -/
theorem waitBurst_eq (hm : 1 ≤ c.maxRequests) (hi : InInt (c.dateTimes.length - c.maxRequests)) :
    c.waitBurst now =
      .ok (c.burstTime.elim INT_MIN fun t => toInt (t + c.checkInterval - now)) := by
  unfold waitBurst
  rw [toInt_eq hi]
  by_cases hidx : 0 ≤ (c.dateTimes.length : ℤ) - c.maxRequests
  · obtain ⟨n, hn⟩ := Int.eq_ofNat_of_zero_le hidx
    have hlt : n < c.dateTimes.length := by omega
    have hget : c.dateTimes[n]? = some c.dateTimes[n] := List.getElem?_eq_getElem hlt
    have hbt : c.burstTime = some c.dateTimes[n] := by
      rw [burstTime, if_pos (by omega), hn, Int.toNat_natCast, hget]
    simp only [hn, Exec.atIndex_eq_ok hget, hbt, Exec.ok_bind]
    rfl
  · have hbt : c.burstTime = none := if_neg (by omega)
    simp only [if_neg hidx, hbt]
    rfl

/-- The instants a history waits for. -/
def deadlines (c : PacingControl) : List ℤ :=
  (c.dateTimes.getLast?.map (· + c.minPacingTime)).toList ++
    (if c.violations.getLast? = some true then
      (c.dateTimes.getLast?.map (· + c.violationPause)).toList else []) ++
    (c.burstTime.map (· + c.checkInterval)).toList

theorem forall_deadlines {p : ℤ → Prop} : (∀ D ∈ c.deadlines, p D) ↔
    (∀ t ∈ c.dateTimes.getLast?, p (t + c.minPacingTime)) ∧
      (c.violations.getLast? = some true →
        ∀ t ∈ c.dateTimes.getLast?, p (t + c.violationPause)) ∧
      ∀ t ∈ c.burstTime, p (t + c.checkInterval) := by
  unfold deadlines
  rw [List.forall_mem_append, List.forall_mem_append, and_assoc]
  by_cases hv : c.violations.getLast? = some true <;> simp [hv]

theorem free_iff : c.Free now ↔ ∀ D ∈ c.deadlines, D ≤ now := by
  rw [forall_deadlines]
  exact ⟨fun h => ⟨h.min, h.viol, h.burst⟩, fun h => ⟨h.1, h.2.1, h.2.2⟩⟩

theorem timesFit_iff : c.TimesFit now ↔ ∀ D ∈ c.deadlines, InInt (D - now) := by
  rw [forall_deadlines, TimesFit, forall₂_and, and_assoc]
  refine and_congr_right fun _ => and_congr_left fun _ => ?_
  exact ⟨fun h hv t ht => h t ht hv, fun h t ht hv => h hv t ht⟩

/-- **`goodTime` lets a request go** when no deadline is ahead in `int`s. -/
theorem goodTime_deadlines (h : c.InStep)
    (hburst : c.dateTimes ≠ [] → c.waitBurst now =
      .ok (c.burstTime.elim INT_MIN fun t => toInt (t + c.checkInterval - now))) :
    ∃ w, c.goodTime now = .ok w ∧ (w ≤ 0 ↔ ∀ D ∈ c.deadlines, toInt (D - now) ≤ 0) := by
  by_cases hne : c.dateTimes = []
  · refine ⟨INT_MIN, goodTime_nil hne, iff_of_true intMin_le_zero ?_⟩
    rw [forall_deadlines]
    simp [hne, burstTime]
  · refine ⟨_, by rw [goodTime_eq h hne, hburst hne]; rfl, ?_⟩
    have helim : ∀ (o : Option ℤ) (f : ℤ → ℤ), o.elim INT_MIN f ≤ 0 ↔ ∀ t ∈ o, f t ≤ 0 := by
      intro o f
      cases o <;> simp [intMin_le_zero]
    rw [longest_le_zero, forall_deadlines, waitMin, waitViol, helim, helim]
    refine and_congr_right fun _ => and_congr_left fun _ => ?_
    split
    · rename_i hv
      rw [helim]
      exact ⟨fun hw _ => hw, fun hw => hw hv⟩
    · rename_i hv
      exact iff_of_true intMin_le_zero fun hv' => absurd hv' hv

/-- **`goodTime` lets a request go exactly when the history is free.** -/
theorem goodTime_spec (h : c.InStep) (hm : 1 ≤ c.maxRequests)
    (hi : InInt (c.dateTimes.length - c.maxRequests)) (he : c.TimesFit now) :
    ∃ w, c.goodTime now = .ok w ∧ (w ≤ 0 ↔ c.Free now) := by
  have hburst : c.dateTimes ≠ [] → c.waitBurst now = _ := fun _ => waitBurst_eq hm hi
  obtain ⟨w, hw, hle⟩ := goodTime_deadlines h hburst
  refine ⟨w, hw, hle.trans ?_⟩
  rw [free_iff]
  refine forall₂_congr fun D hD => ?_
  rw [toInt_eq (timesFit_iff.1 he D hD)]
  omega

end PacingControl

end Twstools
