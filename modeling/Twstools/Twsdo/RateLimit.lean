import Twstools.Common.Buckets
import Twstools.Common.Run
import Twstools.Twsdo.Model
/-!
# The send limiter

`RateLimit` counts what was sent in the current interval of 500 ms and
starts counting again on the first call in a later one. `Counts` links the
counter to the log of the calls; so the calls let through in one interval
never exceed the rate (`Counts.le`), and those in a window of `k` intervals
never exceed `k + 1` times the rate.
-/

namespace Twstools

deriving instance DecidableEq for RateLimit

namespace RateLimit

/-- A call of `can_send`: when, for how many messages, and the answer. -/
structure Call where
  clock : ℤ
  n : ℤ
  ok : Bool
  deriving DecidableEq

/-- `can_send` as a step, with its call as the event. -/
def Calls (r : RateLimit) (c : Call) (r' : RateLimit) : Prop :=
  r.canSend c.clock c.n = (r', c.ok)

instance (r : RateLimit) (c : Call) (r' : RateLimit) : Decidable (Calls r c r') :=
  inferInstanceAs (Decidable (r.canSend c.clock c.n = (r', c.ok)))

/-- What was let through, and when. -/
def accepted (evs : List Call) : List (ℤ × ℤ) :=
  (evs.filter (·.ok)).map fun c => (c.clock, c.n)

/-- What was let through in the interval number `b`. -/
def inInterval (evs : List Call) (b : ℤ) : ℤ := load (accepted evs) fun t => t / m_interval = b

/-- What was let through in the window of `k` intervals from `a` on. -/
def inWindow (evs : List Call) (a : ℤ) (k : ℕ) : ℤ :=
  load (accepted evs) fun t => a ≤ t ∧ t < a + k * m_interval

/-- A call as the program makes it: at a positive time, for at least one
message and for no more than the rate. -/
structure Call.Valid (c : Call) : Prop where
  clock_pos : 0 < c.clock
  clock_le : c.clock ≤ 9223372036854775807
  n_pos : 1 ≤ c.n
  n_le : c.n ≤ m_rate

variable {r r' : RateLimit} {evs : List Call} {c : Call}

theorem mem_accepted {e : ℤ × ℤ} :
    e ∈ accepted evs ↔ ∃ c ∈ evs, c.ok = true ∧ (c.clock, c.n) = e := by
  simp [accepted, and_assoc]

theorem inInterval_snoc (b : ℤ) : inInterval (evs ++ [c]) b =
    inInterval evs b + if c.ok = true ∧ c.clock / m_interval = b then c.n else 0 := by
  cases hok : c.ok <;> simp [inInterval, accepted, hok, load_append, load_singleton]

/-- The clock is far from the end of the unsigned type. -/
theorem Call.Valid.now_eq (h : c.Valid) :
    c.clock.tdiv m_interval % 18446744073709551616 = c.clock / m_interval := by
  have hpos := h.clock_pos
  have hle := h.clock_le
  unfold m_interval
  rw [Int.tdiv_eq_ediv_of_nonneg hpos.le]
  omega

/-- **The three ways of a call.** A later interval starts the count anew;
in the same one the count goes up, or the call is refused. -/
theorem calls_cases (h : Calls r c r') (hv : c.Valid) :
    (r.m_time < c.clock / m_interval ∧ c.ok = true ∧
        r' = { m_time := c.clock / m_interval, m_count := c.n }) ∨
      (c.clock / m_interval ≤ r.m_time ∧ r.m_count + c.n ≤ m_rate ∧ c.ok = true ∧
        r' = { r with m_count := r.m_count + c.n }) ∨
      (c.clock / m_interval ≤ r.m_time ∧ m_rate < r.m_count + c.n ∧ c.ok = false ∧ r' = r) := by
  simp only [Calls, canSend, hv.now_eq] at h
  split at h
  · rename_i hlt
    obtain ⟨hr, hok⟩ := Prod.mk.inj h
    exact .inl ⟨hlt, hok.symm, hr.symm⟩
  split at h
  · rename_i hle hfull
    obtain ⟨hr, hok⟩ := Prod.mk.inj h
    exact .inr (.inr ⟨not_lt.1 hle, hfull, hok.symm, hr.symm⟩)
  · rename_i hle hroom
    obtain ⟨hr, hok⟩ := Prod.mk.inj h
    exact .inr (.inl ⟨not_lt.1 hle, not_lt.1 hroom, hok.symm, hr.symm⟩)

/-- **The counter and the log.** The count is what was let through in the
interval `m_time`, which is one a call was made in, and nothing was let
through later. -/
structure Counts (evs : List Call) (r : RateLimit) : Prop where
  count : r.m_count = inInterval evs r.m_time
  le : ∀ b, inInterval evs b ≤ m_rate
  past : ∀ c ∈ evs, c.ok = true → c.clock / m_interval ≤ r.m_time
  time : r.m_time = 0 ∨ ∃ c ∈ evs, r.m_time = c.clock / m_interval

theorem counts_init : Counts [] {} where
  count := rfl
  le b := by
    show (0 : ℤ) ≤ m_rate
    decide
  past := by simp
  time := .inl rfl

namespace Counts

/-- The limiter is never ahead of a clock that does not go back. -/
theorem time_le (h : Counts evs r) (hv : c.Valid) (hs : ∀ c' ∈ evs, c'.clock ≤ c.clock) :
    r.m_time ≤ c.clock / m_interval := by
  have hpos := hv.clock_pos
  rcases h.time with h0 | ⟨c', hc', he⟩
  · rw [h0]
    unfold m_interval
    omega
  · rw [he]
    exact Int.ediv_le_ediv (by decide) (hs c' hc')

/-- **One call more.** -/
theorem step (h : Counts evs r) (hv : c.Valid) (hs : ∀ c' ∈ evs, c'.clock ≤ c.clock)
    (hc : Calls r c r') : Counts (evs ++ [c]) r' := by
  have hrate := hv.n_le
  rcases calls_cases hc hv with ⟨hlt, hok, rfl⟩ | ⟨hle, hroom, hok, rfl⟩ | ⟨-, -, hok, rfl⟩
  · -- a new interval, in which nothing was let through yet
    have hnone : inInterval evs (c.clock / m_interval) = 0 := by
      refine load_eq_zero fun e he heq => ?_
      obtain ⟨c', hc', hok', rfl⟩ := mem_accepted.1 he
      have heq' : c'.clock / m_interval = c.clock / m_interval := heq
      have := h.past c' hc' hok'
      omega
    refine ⟨?_, fun b => ?_, ?_, .inr ⟨c, by simp, rfl⟩⟩
    · rw [inInterval_snoc, hnone, if_pos ⟨hok, rfl⟩, zero_add]
    · have := h.le b
      rw [inInterval_snoc]
      split
      · rename_i hb
        rw [← hb.2, hnone, zero_add]
        exact hrate
      · omega
    · intro c' hc' hok'
      rcases List.mem_append.1 hc' with hc' | hc'
      · have := h.past c' hc' hok'
        exact le_trans this hlt.le
      · rw [List.mem_singleton.1 hc']
  · have htime : c.clock / m_interval = r.m_time := le_antisymm hle (h.time_le hv hs)
    have hcount := h.count
    refine ⟨?_, fun b => ?_, ?_, .inr ⟨c, by simp, htime.symm⟩⟩
    · rw [inInterval_snoc, if_pos ⟨hok, htime⟩, hcount]
    · have := h.le b
      rw [inInterval_snoc]
      split
      · rename_i hb
        rw [← hb.2, htime, ← hcount]
        exact hroom
      · omega
    · intro c' hc' hok'
      rcases List.mem_append.1 hc' with hc' | hc'
      · exact h.past c' hc' hok'
      · rw [List.mem_singleton.1 hc']
        exact hle
  · have hsame : ∀ b, inInterval (evs ++ [c]) b = inInterval evs b := fun b => by
      rw [inInterval_snoc, if_neg (by simp [hok]), add_zero]
    refine ⟨by rw [hsame, h.count], fun b => by rw [hsame]; exact h.le b, ?_, ?_⟩
    · intro c' hc' hok'
      rcases List.mem_append.1 hc' with hc' | hc'
      · exact h.past c' hc' hok'
      · rw [List.mem_singleton.1 hc', hok] at hok'
        cases hok'
    · exact h.time.imp_right fun ⟨c', hc', he⟩ => ⟨c', by simp [hc'], he⟩

end Counts

/-- **What a run of calls counts.** -/
theorem counts_of_run (h : Run Calls {} evs r) (hv : ∀ c ∈ evs, c.Valid)
    (hs : evs.Pairwise (·.clock ≤ ·.clock)) : Counts evs r := by
  induction h with
  | nil => exact counts_init
  | snoc _ hc ih =>
      rw [List.pairwise_append] at hs
      have hprev := ih (fun c hc => hv c (by simp [hc])) hs.1
      exact hprev.step (hv _ (by simp)) (fun c' hc' => hs.2.2 c' hc' _ (by simp)) hc

/-- **The limiter bounds every window.** With calls at a clock that does
not go back, an interval lets through at most the rate and a window of `k`
intervals at most `k + 1` times the rate; a refused call changes nothing,
and would have exceeded the rate in its interval. -/
theorem can_send_bounded (h : Run Calls {} evs r) (hv : ∀ c ∈ evs, c.Valid)
    (hs : evs.Pairwise (·.clock ≤ ·.clock)) :
    (∀ b, inInterval evs b ≤ m_rate) ∧
      (∀ (a : ℤ) (k : ℕ), 1 ≤ k → inWindow evs a k ≤ (k + 1) * m_rate) ∧
      ∀ evs₁ c evs₂, evs = evs₁ ++ c :: evs₂ → c.ok = false →
        (∀ r₁ r₂, Run Calls {} evs₁ r₁ → Calls r₁ c r₂ → r₂ = r₁) ∧
          m_rate < inInterval evs₁ (c.clock / m_interval) + c.n := by
  have hcounts := counts_of_run h hv hs
  refine ⟨hcounts.le, fun a k _ => ?_, ?_⟩
  · have h0 : ∀ e ∈ accepted evs, 0 ≤ e.2 := by
      intro e he
      obtain ⟨c, hc, -, rfl⟩ := mem_accepted.1 he
      have := (hv c hc).n_pos
      show 0 ≤ c.n
      omega
    have hwin := load_window_le h0 (show 0 < m_interval by decide) hcounts.le a k
    simpa [inWindow, nsmul_eq_mul] using hwin
  · rintro evs₁ c evs₂ rfl hok
    have hvc : c.Valid := hv c (by simp)
    rw [List.pairwise_append] at hs
    rw [List.append_cons] at h
    obtain ⟨r₂, h₂, -⟩ := h.of_append
    obtain ⟨r₁, h₁, hc⟩ := h₂.of_snoc
    have hbefore := counts_of_run h₁ (fun c' hc' => hv c' (by simp [hc'])) hs.1
    have hearlier : ∀ c' ∈ evs₁, c'.clock ≤ c.clock := fun c' hc' => hs.2.2 c' hc' c (by simp)
    refine ⟨fun r₁' r₂' _ hc' => ?_, ?_⟩
    · rcases calls_cases hc' hvc with ⟨-, ht, -⟩ | ⟨-, -, ht, -⟩ | ⟨-, -, -, he⟩
      · simp [hok] at ht
      · simp [hok] at ht
      · exact he
    · rcases calls_cases hc hvc with ⟨-, ht, -⟩ | ⟨-, -, ht, -⟩ | ⟨hle, hfull, -, -⟩
      · simp [hok] at ht
      · simp [hok] at ht
      · rwa [le_antisymm hle (hbefore.time_le hvc hearlier), ← hbefore.count]

/-- The third call comes in the next interval. -/
def threeCalls : List Call := [⟨100, 25, true⟩, ⟨499, 1, false⟩, ⟨500, 2, true⟩]

theorem can_send_bounded_threeCalls :
    (∀ b, inInterval threeCalls b ≤ m_rate) ∧
      (∀ (a : ℤ) (k : ℕ), 1 ≤ k → inWindow threeCalls a k ≤ (k + 1) * m_rate) ∧
      ∀ evs₁ c evs₂, threeCalls = evs₁ ++ c :: evs₂ → c.ok = false →
        (∀ r₁ r₂, Run Calls {} evs₁ r₁ → Calls r₁ c r₂ → r₂ = r₁) ∧
          m_rate < inInterval evs₁ (c.clock / m_interval) + c.n := by
  have h₁ : Calls {} ⟨100, 25, true⟩ { m_count := 25 } := by decide +kernel
  have h₂ : Calls { m_count := 25 } ⟨499, 1, false⟩ { m_count := 25 } := by decide +kernel
  have h₃ : Calls { m_count := 25 } ⟨500, 2, true⟩ { m_count := 2, m_time := 1 } := by
    decide +kernel
  have hv : ∀ c ∈ threeCalls, c.Valid := by
    intro c hc
    have : 0 < c.clock ∧ c.clock ≤ 9223372036854775807 ∧ 1 ≤ c.n ∧ c.n ≤ m_rate := by
      revert c
      decide +kernel
    exact ⟨this.1, this.2.1, this.2.2.1, this.2.2.2⟩
  exact can_send_bounded (((Run.nil.snoc h₁).snoc h₂).snoc h₃) hv (by decide +kernel)

end RateLimit

end Twstools
