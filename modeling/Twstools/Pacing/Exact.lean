import Twstools.Pacing.Regular
/-!
# How exact `goodTime` and `countLeft` are

`countLeft` looks at the burst and at the violation only. It scans the
history from the newest request on where `goodTime` looks at one entry,
and both come to the same (`countLeft_agrees`).

In unbounded integers `goodTime` lets a request go exactly when the history
is `Free`. It computes an index from `maxRequests` and the waits in `int`s,
though: `Exact` is when nothing is lost by that. Where it is not, an idle
control comes to hold a request back again.
-/

namespace Twstools

namespace PacingControl

variable {c : PacingControl} {now later : ℤ}

theorem swapMax_eq_max (a b : ℤ) : swapMax a b = max a b := (max_def_lt a b).symm

/-! ## The quota and the waits -/

/-- The scan takes off all the requests newer than `now - checkInterval`. -/
theorem countLeftLoop_reverse (ho : c.Ordered)
    (hfit : ∀ t ∈ c.dateTimes, InInt (t + c.checkInterval - now)) :
    c.countLeftLoop now c.dateTimes.reverse c.maxRequests =
      c.maxRequests - c.dateTimes.countP (now - c.checkInterval < ·) := by
  have hmono : ∀ a b : ℤ, a ≤ b → decide (0 < a + c.checkInterval - now) = true →
      decide (0 < b + c.checkInterval - now) = true := by
    intro a b hab ha
    simp only [decide_eq_true_eq] at ha ⊢
    omega
  have hp : (fun t => decide (0 < t + c.checkInterval - now)) =
      fun t => decide (now - c.checkInterval < t) := by
    funext t
    exact decide_eq_decide.2 (by omega)
  rw [countLeftLoop_eq fun t ht => hfit t (List.mem_reverse.1 ht),
    takeWhile_eq_filter (List.pairwise_reverse.2 ho) hmono, ← List.countP_eq_length_filter,
    List.countP_reverse, hp]

/-- **There is a quota left exactly when the burst is over.** The
`maxRequests`-th latest request is old when fewer than `maxRequests` are
not. -/
theorem quota_iff (ho : c.Ordered) (hm : 1 ≤ c.maxRequests) :
    0 < c.maxRequests - c.dateTimes.countP (now - c.checkInterval < ·) ↔
      ∀ t ∈ c.burstTime, t + c.checkInterval ≤ now := by
  have hmono : ∀ a b : ℤ, a ≤ b → decide (now - c.checkInterval < a) = true →
      decide (now - c.checkInterval < b) = true := by
    intro a b hab ha
    simp only [decide_eq_true_eq] at ha ⊢
    omega
  have hfall := List.pairwise_reverse.2 ho
  have hcount : c.dateTimes.countP (now - c.checkInterval < ·) =
      (c.dateTimes.reverse.takeWhile (now - c.checkInterval < ·)).length := by
    rw [takeWhile_eq_filter hfall hmono, ← List.countP_eq_length_filter, List.countP_reverse]
  by_cases hk : c.maxRequests ≤ c.dateTimes.length
  · -- the entry the burst looks at, counted from the newest
    obtain ⟨k, hk'⟩ := Int.eq_ofNat_of_zero_le (show 0 ≤ c.maxRequests - 1 by omega)
    have hlt : c.dateTimes.length - 1 - k < c.dateTimes.length := by omega
    have hget := List.getElem?_eq_getElem hlt
    have hbt : c.burstTime = some c.dateTimes[c.dateTimes.length - 1 - k] := by
      rw [burstTime, if_pos hk, ← hget]
      congr 1
      omega
    have hrev : c.dateTimes.reverse[k]? = some c.dateTimes[c.dateTimes.length - 1 - k] := by
      rw [List.getElem?_reverse (by omega), ← hget]
    have habove := above_iff_lt_takeWhile hfall hmono hrev
    rw [← hcount, decide_eq_true_eq] at habove
    simp only [hbt, Option.mem_some_iff, forall_eq']
    omega
  · have hle := List.countP_le_length (p := (now - c.checkInterval < ·)) (l := c.dateTimes)
    refine iff_of_true (by omega) fun t ht => ?_
    rw [burstTime, if_neg hk] at ht
    cases ht

/-- **`countLeft` and `goodTime` agree.** There is something left exactly
when neither the burst nor a violation makes `goodTime` wait, that is, when
it waits for `minPacingTime` at most. Without a pause for a violation what
is left is `maxRequests` less the recent requests. A history is no longer
than the numbers of its requests, which are `int`s. -/
theorem countLeft_agrees (h : c.InStep) (ho : c.Ordered) (hm : 1 ≤ c.maxRequests)
    (hmax : InInt c.maxRequests) (hlen : c.dateTimes.length ≤ INT_MAX) (hfit : c.TimesFit now)
    (hall : ∀ t ∈ c.dateTimes, InInt (t + c.checkInterval - now)) :
    ∃ n w b, c.countLeft now = .ok n ∧ c.goodTime now = .ok w ∧ c.waitBurst now = .ok b ∧
      w = max (c.waitMin now) (max (c.waitViol now) b) ∧
      (0 < n ↔ b ≤ 0 ∧ c.waitViol now ≤ 0) ∧
      (0 < n ↔ (0 < w → max (c.waitViol now) b ≤ 0)) ∧
      (c.waitViol now ≤ 0 →
        n = c.maxRequests - c.dateTimes.countP (now - c.checkInterval < ·)) := by
  have hidx : InInt (c.dateTimes.length - c.maxRequests) := by
    have := hmax.2
    unfold InInt INT_MIN INT_MAX at *
    omega
  have hb : c.waitBurst now = _ := waitBurst_eq hm hidx
  set b := c.burstTime.elim INT_MIN fun t => toInt (t + c.checkInterval - now)
  -- the wait for the burst
  have hb0 : b ≤ 0 ↔ ∀ t ∈ c.burstTime, t + c.checkInterval ≤ now := by
    cases hbt : c.burstTime with
    | none => simp [b, hbt, intMin_le_zero]
    | some t => simp [b, hbt, toInt_eq (hfit.2 t hbt)]
  have hlow : ∀ x : ℤ, INT_MIN ≤ toInt x := fun x => (inInt_toInt x).1
  have hgood : c.goodTime now = .ok (max (c.waitMin now) (max (c.waitViol now) b)) := by
    by_cases hne : c.dateTimes = []
    · have hv : c.waitViol now = INT_MIN := by simp [waitViol, hne]
      have hb' : b = INT_MIN := by simp [b, burstTime, hne]
      rw [goodTime_nil hne, hv, hb']
      simp [waitMin, hne]
    · rw [goodTime_eq h hne, hb]
      simp only [Exec.ok_bind, swapMax_eq_max, max_assoc]
      have hmin : INT_MIN ≤ c.waitMin now := by
        unfold waitMin
        cases c.dateTimes.getLast? with
        | none => exact le_rfl
        | some back => exact hlow _
      rw [max_eq_right (hmin.trans (le_max_left _ _))]
      rfl
  have hquota := @quota_iff c now ho hm
  rw [← hb0] at hquota
  rw [countLeft_eq h, countLeftLoop_reverse ho hall]
  refine ⟨_, _, b, rfl, hgood, hb, rfl, ?_, ?_, fun hv => if_neg (by omega)⟩
  · split <;> omega
  · split <;> omega

/-- Two of three requests are recent, and the last has just been sent. -/
def justSent : PacingControl where
  dateTimes := [100, 900, 1000]
  violations := [false, false, false]
  maxRequests := 3
  checkInterval := 500
  minPacingTime := 50
  violationPause := 5000

theorem countLeft_agrees_justSent : ∃ n w b, justSent.countLeft 1010 = .ok n ∧
    justSent.goodTime 1010 = .ok w ∧ justSent.waitBurst 1010 = .ok b ∧
    (0 < n ↔ b ≤ 0 ∧ justSent.waitViol 1010 ≤ 0) := by
  obtain ⟨n, w, b, hn, hw, hb, -, hleft, -, -⟩ := @countLeft_agrees justSent 1010 rfl
    (by simp [Ordered, justSent]) (by decide) (by decide) (by decide) (by decide) (by decide)
  exact ⟨n, w, b, hn, hw, hb, hleft⟩

/-! ## When the decision is right -/

/-- The parameters are `int`s, as the command line takes them. -/
def IntParams (c : PacingControl) : Prop :=
  InInt c.maxRequests ∧ InInt c.checkInterval ∧ InInt c.minPacingTime ∧ InInt c.violationPause

instance (c : PacingControl) : Decidable c.IntParams := inferInstanceAs (Decidable (_ ∧ _))

/-- `goodTime` returns, and lets a request go exactly when the history is
free. -/
def Decides (c : PacingControl) (now : ℤ) : Prop :=
  ∃ w, c.goodTime now = .ok w ∧ (w ≤ 0 ↔ c.Free now)

/-- A request that may go now may go at every later instant. -/
def Stays (c : PacingControl) (now : ℤ) : Prop :=
  (∃ w, c.goodTime now = .ok w ∧ w ≤ 0) →
    ∀ later, now ≤ later → ∃ w, c.goodTime later = .ok w ∧ w ≤ 0

/-- Nothing is lost in the `int`s: the index is one of the history or
negative, and a free history is not over its deadlines by a time whose low
32 bits are more than 2 ^ 31. -/
def Exact (c : PacingControl) (now : ℤ) : Prop :=
  c.dateTimes ≠ [] →
    (1 ≤ c.maxRequests ∨ INT_MAX < c.dateTimes.length - c.maxRequests) ∧
      (c.Free now → ∀ D ∈ c.deadlines, (now - D) % 4294967296 ≤ 2147483648)

/-- The entry the burst looks at, with any `maxRequests`: one that is not
positive may lead, wrapped around, to no entry. -/
theorem waitBurst_eq_ok (hp : c.IntParams) (hlen : c.dateTimes.length ≤ INT_MAX)
    (hidx : 1 ≤ c.maxRequests ∨ INT_MAX < c.dateTimes.length - c.maxRequests) :
    c.waitBurst now =
      .ok (c.burstTime.elim INT_MIN fun t => toInt (t + c.checkInterval - now)) := by
  obtain ⟨⟨hlow, hhigh⟩, -⟩ := hp
  unfold INT_MIN at hlow
  by_cases hm : 1 ≤ c.maxRequests
  · refine waitBurst_eq hm ?_
    unfold InInt INT_MIN INT_MAX at *
    omega
  · have hbt : c.burstTime = none := by
      rw [burstTime, if_pos (by omega), List.getElem?_eq_none (by omega)]
    have hwrap : toInt (c.dateTimes.length - c.maxRequests) < 0 := by
      refine toInt_neg (hidx.resolve_left hm) ?_
      unfold INT_MAX at hlen
      omega
    unfold waitBurst
    rw [if_neg (by omega), hbt]
    rfl

/-- Otherwise it leads behind the history. -/
theorem waitBurst_eq_error
    (hidx : ¬ (1 ≤ c.maxRequests ∨ INT_MAX < c.dateTimes.length - c.maxRequests)) :
    c.waitBurst now = .error .outOfRange := by
  obtain ⟨hm, hi⟩ := not_or.1 hidx
  have hfit : InInt (c.dateTimes.length - c.maxRequests) := by
    unfold InInt INT_MIN
    omega
  unfold waitBurst
  rw [toInt_eq hfit, if_pos (by omega), atIndex, if_pos (by omega),
    List.getElem?_eq_none (by omega)]
  rfl

/-- The deadlines of a past history are no further away than an `int`
says. -/
theorem deadlines_le (hp : c.IntParams) (ht : ∀ t ∈ c.dateTimes, t ≤ now) :
    ∀ D ∈ c.deadlines, D - now ≤ INT_MAX := by
  obtain ⟨-, hint, hmin, hviol⟩ := hp
  have hlast : ∀ t ∈ c.dateTimes.getLast?, t ≤ now := fun t h => ht t (List.mem_of_getLast? h)
  rw [forall_deadlines]
  refine ⟨fun t h => ?_, fun _ t h => ?_, fun t h => ?_⟩
  · have := hlast t h
    have := hmin.2
    omega
  · have := hlast t h
    have := hviol.2
    omega
  · have hmem : t ∈ c.dateTimes := by
      unfold burstTime at h
      split at h
      · exact List.mem_of_getElem? h
      · cases h
    have := ht t hmem
    have := hint.2
    omega

/-- With its index in range, `goodTime` lets a request go when the history
is free and no deadline has wrapped around. -/
theorem goodTime_wrapped (h : c.InStep) (hp : c.IntParams) (hlen : c.dateTimes.length ≤ INT_MAX)
    (ht : ∀ t ∈ c.dateTimes, t ≤ now)
    (hidx : c.dateTimes ≠ [] → 1 ≤ c.maxRequests ∨ INT_MAX < c.dateTimes.length - c.maxRequests) :
    ∃ w, c.goodTime now = .ok w ∧ (w ≤ 0 ↔
      c.Free now ∧ ∀ D ∈ c.deadlines, (now - D) % 4294967296 ≤ 2147483648) := by
  have hburst : c.dateTimes ≠ [] → c.waitBurst now = _ := fun hne =>
    waitBurst_eq_ok hp hlen (hidx hne)
  obtain ⟨w, hw, hle⟩ := goodTime_deadlines h hburst
  refine ⟨w, hw, hle.trans ?_⟩
  rw [free_iff, ← forall₂_and]
  refine forall₂_congr fun D hD => ?_
  rw [toInt_le_zero_iff (deadlines_le hp ht D hD), neg_sub]
  exact and_congr_left fun _ => sub_nonpos

/-- **`goodTime` decides rightly exactly when nothing is lost.** -/
theorem decides_iff (h : c.InStep) (hp : c.IntParams) (hlen : c.dateTimes.length ≤ INT_MAX)
    (ht : ∀ t ∈ c.dateTimes, t ≤ now) : c.Decides now ↔ c.Exact now := by
  constructor
  · rintro ⟨w, hw, hfree⟩ hne
    have hidx : 1 ≤ c.maxRequests ∨ INT_MAX < c.dateTimes.length - c.maxRequests := by
      by_contra hidx
      rw [goodTime_eq h hne, waitBurst_eq_error hidx] at hw
      cases hw
    obtain ⟨w', hw', hle⟩ := goodTime_wrapped h hp hlen ht fun _ => hidx
    obtain rfl : w = w' := Except.ok.inj (hw.symm.trans hw')
    exact ⟨hidx, fun hf => (hle.1 (hfree.2 hf)).2⟩
  · intro hex
    obtain ⟨w, hw, hle⟩ := goodTime_wrapped h hp hlen ht fun hne => (hex hne).1
    refine ⟨w, hw, hle.trans (and_iff_left_of_imp fun hf => ?_)⟩
    by_cases hne : c.dateTimes = []
    · rw [forall_deadlines]
      simp [hne, burstTime]
    · exact (hex hne).2 hf

/-- An idle control comes to hold a request back again: 2 ^ 31 + 1 ms after
a deadline, and whenever the low 32 bits say so. -/
theorem not_stays (h : c.InStep) (hp : c.IntParams) (hlen : c.dateTimes.length ≤ INT_MAX)
    (ht : ∀ t ∈ c.dateTimes, t ≤ now) (hex : c.Exact now) (hne : c.dateTimes ≠ [])
    (hf : c.Free now) : ¬ c.Stays now := by
  intro hs
  obtain ⟨w, hw, hdec⟩ := (decides_iff h hp hlen ht).2 hex
  obtain ⟨back, hb⟩ := Option.ne_none_iff_exists'.1 (mt List.getLast?_eq_none_iff.1 hne)
  have hD : back + c.minPacingTime ∈ c.deadlines := by simp [deadlines, hb]
  -- the next instant with these low bits
  obtain ⟨later, hlater, hmod⟩ : ∃ later, now ≤ later ∧
      (later - (back + c.minPacingTime)) % 4294967296 = 2147483649 := by
    refine ⟨now + (2147483649 - (now - (back + c.minPacingTime))) % 4294967296, ?_, ?_⟩ <;> omega
  obtain ⟨w', hw', hle'⟩ := hs ⟨w, hw, hdec.2 hf⟩ later hlater
  obtain ⟨w'', hw'', hle⟩ := goodTime_wrapped h hp hlen (fun t hm => (ht t hm).trans hlater)
    fun _ => (hex hne).1
  obtain rfl : w' = w'' := Except.ok.inj (hw'.symm.trans hw'')
  have := (hle.1 hle').2 _ hD
  omega

/-- **When the decision of `goodTime` is exact, and stays.** It is exact
when nothing is lost in the `int`s. It stays for a history that is empty,
or that is not free yet; one that is free holds a request back again after
a while. -/
theorem goodTime_exact_iff (h : c.InStep) (hp : c.IntParams)
    (hlen : c.dateTimes.length ≤ INT_MAX) (ht : ∀ t ∈ c.dateTimes, t ≤ now) :
    (c.Decides now ↔ c.Exact now) ∧
      (c.Decides now ∧ c.Stays now ↔ c.Exact now ∧ (c.dateTimes ≠ [] → ¬ c.Free now)) := by
  have hdec := decides_iff h hp hlen ht
  refine ⟨hdec, ?_⟩
  rw [hdec]
  refine and_congr_right fun hex => ⟨fun hs hne hf => ?_, fun hfree hgo later hlater => ?_⟩
  · exact not_stays h hp hlen ht hex hne hf hs
  · by_cases hne : c.dateTimes = []
    · exact ⟨INT_MIN, goodTime_nil hne, intMin_le_zero⟩
    · -- nothing was let go
      obtain ⟨w, hw, hle⟩ := hdec.2 hex
      obtain ⟨w', hw', hle'⟩ := hgo
      obtain rfl : w = w' := Except.ok.inj (hw.symm.trans hw')
      exact absurd (hle.1 hle') (hfree hne)

/-- One request, with the default parameters. -/
def oneRequest : PacingControl where
  dateTimes := [0]
  violations := [false]
  maxRequests := 60
  checkInterval := 605000
  minPacingTime := 1505
  violationPause := 60000

theorem goodTime_exact_oneRequest : oneRequest.Decides 2000 ∧ ¬ oneRequest.Stays 2000 := by
  obtain ⟨hdec, hstay⟩ := @goodTime_exact_iff oneRequest 2000 rfl (by decide)
    (by decide) (by decide)
  have hfree : oneRequest.Free 2000 := free_iff.2 (by decide)
  have hex : oneRequest.Exact 2000 := fun _ => ⟨.inl (by decide), fun _ => by decide⟩
  refine ⟨hdec.2 hex, fun hs => ?_⟩
  exact (hstay.1 ⟨hdec.2 hex, hs⟩).2 (by decide) hfree

/-- **Idle for 25 days, the control does not let a free request go**, and
with no requests allowed at all it looks behind the history. -/
theorem goodTime_not_exact :
    (oneRequest.Free 2147485154 ∧ oneRequest.goodTime 2147485154 = .ok 2147483647) ∧
      { oneRequest with maxRequests := 0 }.goodTime 1 = .error .outOfRange := by
  refine ⟨⟨free_iff.2 (by decide), by decide +kernel⟩, by decide +kernel⟩

end PacingControl

end Twstools
