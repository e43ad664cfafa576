import Twstools.Common.Run
import Twstools.Pacing.Learning
/-!
# A known farm stays

Over every sequence of calls in which no assertion fails, a known farm is
only ever lost to the demo hack, which drops all of them. The hack is
looked at by the first `notify` only (`checked_of_run`), so it strikes at
most once.
-/

namespace Twstools

namespace DataFarmStates

/-- The calls that write the states or the map. -/
inductive FarmCall where
  | notify (msgNumber errorCode : ℤ) (msg : String)
  | setAllBroken
  | learnHmds (c : Contract)
  | learnHmdsLastOk (msgNumber : ℤ) (c : Contract)

namespace FarmCall

/-- One call. -/
def apply (d : DataFarmStates) : FarmCall → Exec Assertion DataFarmStates
  | notify msgNumber errorCode msg => d.notify msgNumber errorCode msg
  | setAllBroken => pure d.setAllBroken
  | learnHmds c => pure (d.learnHmds c)
  | learnHmdsLastOk msgNumber c => d.learnHmdsLastOk msgNumber c

/-- The call is a message about a farm. -/
def IsNotify : FarmCall → Prop
  | notify _ _ _ => True
  | _ => False

end FarmCall

/-- A call in which no assertion fails, as a step. -/
def FarmStep (d : DataFarmStates) (e : FarmCall) (d' : DataFarmStates) : Prop :=
  e.apply d = .ok d'

variable {d d' d'' : DataFarmStates} {e : FarmCall} {evs evs' : List FarmCall} {X : String}
variable {c : Contract} {msgNumber errorCode : ℤ} {msg : String}

/-- The call is the demo hack: a message about a demo farm, which leaves no
exchange known. -/
structure DemoHack (e : FarmCall) (d' : DataFarmStates) : Prop where
  isNotify : e.IsNotify
  farm : d'.lastChanged = "ibdemo" ∨ d'.lastChanged = "demohmds"
  dropped : d'.hLearn = ∅

/-! ## What a call does to the map -/

/-- The map is left alone, or the hack drops it. -/
theorem hLearn_notify (h : d.notify msgNumber errorCode msg = .ok d') :
    d'.edemo_checked = true ∧ (d'.hLearn = d.hLearn ∨
      d.edemo_checked = false ∧ DemoHack (.notify msgNumber errorCode msg) d') := by
  obtain ⟨hist, state, farm, rfl⟩ := notify_eq_setFarm h
  cases hc : d.edemo_checked with
  | true => simp [setFarm, checkEdemoHack]
  | false =>
      refine ⟨by simp [setFarm, checkEdemoHack], ?_⟩
      by_cases hdemo : farm = "ibdemo" ∨ farm = "demohmds"
      · exact .inr ⟨rfl, trivial, hdemo, by simp [setFarm, checkEdemoHack, hdemo]⟩
      · exact .inl (by simp [setFarm, checkEdemoHack, hdemo])

/-- **`learnHmds` adds an entry only when one historical farm is up.** -/
theorem hLearn_learnHmds : (d.learnHmds c).edemo_checked = d.edemo_checked ∧
    ((d.learnHmds c).hLearn = d.hLearn ∨
      ∃ farm, d.getActives = [farm] ∧ d.getHmdsFarm c.exchange = "" ∧
        (d.learnHmds c).hLearn = d.hLearn.insert c.exchange farm) := by
  rw [learnHmds_eq]
  split
  · exact ⟨rfl, .inl rfl⟩
  · rw [learnHmdsAnew_eq]
    refine ⟨rfl, ?_⟩
    cases hl : d.learnable c.exchange with
    | none => exact .inl rfl
    | some farm =>
        obtain ⟨hun, hact, -⟩ := learnable_eq_some.1 hl
        exact .inr ⟨farm, hact, hun, rfl⟩

/-- `learnHmdsLastOk` adds an entry only for an exchange that has none. -/
theorem hLearn_learnHmdsLastOk (h : d.learnHmdsLastOk msgNumber c = .ok d') :
    d'.edemo_checked = d.edemo_checked ∧ (d'.hLearn = d.hLearn ∨
      d.getHmdsFarm c.exchange = "" ∧ ∃ farm, d'.hLearn = d.hLearn.insert c.exchange farm) := by
  unfold learnHmdsLastOk at h
  split at h
  · obtain rfl : d = d' := by simpa using h
    exact ⟨rfl, .inl rfl⟩
  split at h
  · dsimp only at h
    split at h
    · obtain ⟨-, rfl⟩ : _ ∧ d = d' := by simpa using h
      exact ⟨rfl, .inl rfl⟩
    · rename_i hnone
      obtain rfl : _ = d' := Except.ok.inj h
      have hX : d.hLearn[c.exchange]? = none := hnone
      exact ⟨rfl, .inr ⟨by rw [getHmdsFarm, hX]; rfl, d.lastChanged, rfl⟩⟩
  · obtain rfl : d = d' := by simpa using h
    exact ⟨rfl, .inl rfl⟩

/-- **One call** leaves the map alone, adds an entry where no farm is
known, or is the demo hack. -/
theorem farmStep_cases (h : FarmStep d e d') :
    d'.hLearn = d.hLearn ∨
      (∃ X farm, d.getHmdsFarm X = "" ∧ d'.hLearn = d.hLearn.insert X farm) ∨
      d.edemo_checked = false ∧ DemoHack e d' := by
  cases e with
  | notify n code msg => exact (hLearn_notify h).2.imp_right .inr
  | setAllBroken =>
      obtain rfl : d.setAllBroken = d' := Except.ok.inj h
      exact .inl rfl
  | learnHmds c =>
      obtain rfl : d.learnHmds c = d' := Except.ok.inj h
      exact hLearn_learnHmds.2.imp_right fun ⟨farm, _, hun, hins⟩ =>
        .inl ⟨c.exchange, farm, hun, hins⟩
  | learnHmdsLastOk n c =>
      exact (hLearn_learnHmdsLastOk h).2.imp_right fun ⟨hun, farm, hins⟩ =>
        .inl ⟨c.exchange, farm, hun, hins⟩

/-- Only a message about a farm checks for the demo. -/
theorem checked_of_step (h : FarmStep d e d') :
    d'.edemo_checked = true ↔ d.edemo_checked = true ∨ e.IsNotify := by
  cases e with
  | notify n code msg => exact iff_of_true (hLearn_notify h).1 (.inr trivial)
  | setAllBroken =>
      obtain rfl : d.setAllBroken = d' := Except.ok.inj h
      exact (or_iff_left id).symm
  | learnHmds c =>
      obtain rfl : d.learnHmds c = d' := Except.ok.inj h
      rw [hLearn_learnHmds.1]
      exact (or_iff_left id).symm
  | learnHmdsLastOk n c =>
      rw [(hLearn_learnHmdsLastOk h).1]
      exact (or_iff_left id).symm

/-! ## Over a run -/

/-- **The demo is checked for** exactly when there was a message about a
farm. -/
theorem checked_of_run (h : Run FarmStep init evs d) :
    d.edemo_checked = true ↔ ∃ e ∈ evs, e.IsNotify := by
  induction h with
  | nil => exact iff_of_false (by simp [init, initHardCodedFarms]) (by simp)
  | snoc _ hs ih => rw [checked_of_step hs, ih]; simp [or_and_right, exists_or]

/-- **What is checked is kept**: after a message about a farm no entry is
removed. -/
theorem mem_of_checked (h : Run FarmStep d evs d') (hc : d.edemo_checked = true) :
    d'.edemo_checked = true ∧ ∀ X ∈ d.hLearn, X ∈ d'.hLearn := by
  induction h with
  | nil => exact ⟨hc, fun _ hX => hX⟩
  | snoc _ hs ih =>
      refine ⟨(checked_of_step hs).2 (.inl ih.1), fun X hX => ?_⟩
      have hmem := ih.2 X hX
      rcases farmStep_cases hs with he | ⟨Y, farm, -, he⟩ | ⟨hno, -⟩
      · rwa [he]
      · rw [he]
        simp [hmem]
      · simp [ih.1] at hno

/-- **A known farm stays.** In every run no call maps an exchange with a
known farm to another one. An entry is removed only by the demo hack in the
first message about a farm, and never after it; and `learnHmds` adds an
entry only when exactly one historical farm is up, and adds that farm. -/
theorem known_farm_stays (h : Run FarmStep init evs d) (hs : FarmStep d e d') :
    (∀ X farm : String, farm ≠ "" → d.hLearn[X]? = some farm →
        d'.hLearn[X]? = some farm ∨ d'.hLearn[X]? = none) ∧
      (∀ X, X ∈ d.hLearn → X ∉ d'.hLearn → DemoHack e d' ∧ ∀ e' ∈ evs, ¬ e'.IsNotify) ∧
      (e.IsNotify → ∀ evs' d'', Run FarmStep d' evs' d'' → ∀ X ∈ d'.hLearn, X ∈ d''.hLearn) ∧
      ∀ c, e = .learnHmds c → ∀ X, X ∉ d.hLearn → X ∈ d'.hLearn →
        ∃ farm, d.getActives = [farm] ∧ d'.hLearn = d.hLearn.insert X farm := by
  refine ⟨fun X farm hne hX => ?_, fun X hX hX' => ?_, fun he evs' d'' h' => ?_, ?_⟩
  · rcases farmStep_cases hs with he | ⟨Y, farm', hun, he⟩ | ⟨-, hhack⟩
    · exact .inl (by rwa [he])
    · -- the exchange learned is another one, its farm being unknown
      have hYX : Y ≠ X := by
        rintro rfl
        rw [getHmdsFarm, hX] at hun
        exact hne hun
      exact .inl (by rw [he, Std.TreeMap.getElem?_insert]; simpa [hYX] using hX)
    · exact .inr (by rw [hhack.dropped]; simp)
  · rcases farmStep_cases hs with he | ⟨Y, farm, -, he⟩ | ⟨hno, hhack⟩
    · exact absurd hX (he ▸ hX')
    · rw [he] at hX'
      exact absurd hX (by simp_all)
    · refine ⟨hhack, fun e' he' hn => ?_⟩
      have := (checked_of_run h).2 ⟨e', he', hn⟩
      simp [hno] at this
  · exact (mem_of_checked h' ((checked_of_step hs).2 (.inr he))).2
  · rintro c rfl X hX hX'
    obtain rfl : d.learnHmds c = d' := Except.ok.inj hs
    rcases (hLearn_learnHmds (d := d) (c := c)).2 with he | ⟨farm, hact, -, he⟩
    · exact absurd hX' (he ▸ hX)
    · refine ⟨farm, hact, ?_⟩
      have hXc : c.exchange = X := by
        rw [he] at hX'
        simpa [hX] using hX'
      rw [he, hXc]

/-- The demo's farm comes up. -/
def demoUp : FarmCall := .notify 1 2106 "HMDS data farm connection is OK:ibdemo"

/-- What is known after it. -/
def afterDemoUp : DataFarmStates :=
  ({ init with lastMsgNumber := 1 } : DataFarmStates).setFarm true .OK "ibdemo"

theorem known_farm_stays_demoUp :
    (∀ X farm : String, farm ≠ "" → init.hLearn[X]? = some farm →
        afterDemoUp.hLearn[X]? = some farm ∨ afterDemoUp.hLearn[X]? = none) ∧
      (∀ X, X ∈ init.hLearn → X ∉ afterDemoUp.hLearn →
        DemoHack demoUp afterDemoUp ∧ ∀ e' ∈ [], ¬ FarmCall.IsNotify e') ∧
      (demoUp.IsNotify →
        ∀ evs' d'', Run FarmStep afterDemoUp evs' d'' → ∀ X ∈ afterDemoUp.hLearn, X ∈ d''.hLearn) ∧
      ∀ c, demoUp = .learnHmds c → ∀ X, X ∉ init.hLearn → X ∈ afterDemoUp.hLearn →
        ∃ farm, init.getActives = [farm] ∧ afterDemoUp.hLearn = init.hLearn.insert X farm := by
  have hfarm : getFarm "HMDS data farm connection is OK:"
      "HMDS data farm connection is OK:ibdemo" = .ok "ibdemo" := by decide +kernel
  have hs : FarmStep init demoUp afterDemoUp := by
    unfold FarmStep FarmCall.apply notify
    simp [demoUp, afterDemoUp, hfarm]
  exact known_farm_stays .nil hs

end DataFarmStates

end Twstools
