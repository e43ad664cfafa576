import Twstools.Orders.Sent
import Twstools.Twsdo.RateLimit
/-!
# The messages that wait for the limiter

Requests for contract details and for option parameters, and orders, are
sent when the limiter lets them pass. `Throttled` follows its calls through
the functions of the program, so that the bounds for the calls become
bounds for the messages of a whole run (`messages_bounded`). All other
messages are sent without asking, or in spite of the answer.
-/

namespace Twstools

open RateLimit

/-- The messages that wait for the limiter. -/
def Action.limited : Action → Bool
  | .reqContractDetails .. | .reqSecDefOptParams .. | .placeOrder .. | .cancelOrder .. => true
  | _ => false

/-! ## The clock -/

/-- What an event reads off the clock. -/
def Event.reading : Event → Option ℤ
  | .clock now => some now
  | _ => none

/-- The readings of the clock. -/
def readings (evs : List Event) : List ℤ := evs.filterMap Event.reading

/-- **A clock as the system has it**: it is read before the first turn, and
gives positive 64-bit numbers that never go back. -/
structure Clocked (evs : List Event) : Prop where
  first : ∃ t rest, evs = .clock t :: rest
  pos : ∀ t ∈ readings evs, 0 < t
  le : ∀ t ∈ readings evs, t ≤ 9223372036854775807
  mono : (readings evs).Pairwise (· ≤ ·)

section
variable {e : Event} {evs : List Event}

theorem readings_snoc : readings (evs ++ [e]) = readings evs ++ e.reading.toList := by
  rw [readings, List.filterMap_append]
  cases h : e.reading <;> simp [readings, h]

/-- The clock of a run is that of its beginning. -/
theorem Clocked.of_snoc (hc : Clocked (evs ++ [e])) : evs = [] ∨ Clocked evs := by
  refine or_iff_not_imp_left.2 fun hne => ?_
  have hr : readings evs <+: readings (evs ++ [e]) := ⟨_, readings_snoc.symm⟩
  obtain ⟨t, rest, ht⟩ := hc.first
  obtain ⟨e₀, evs₀, rfl⟩ := List.exists_cons_of_ne_nil hne
  obtain ⟨rfl, -⟩ := List.cons.inj ht
  exact ⟨⟨t, evs₀, rfl⟩, fun t ht => hc.pos t (hr.subset ht),
    fun t ht => hc.le t (hr.subset ht), hc.mono.sublist hr.sublist⟩

end

namespace TwsDL

variable {s s' t : TwsDL} {e : Event} {evs : List Event} {cfg : ConfigTwsdo} {async : Bool}
variable {jobs : List Job} {n : ℤ}

/-- **Between two states at the same time** the limiter is asked, and no
more of its messages are sent than it lets pass. -/
def Throttled (s s' : TwsDL) : Prop :=
  s'.now = s.now ∧ ∃ calls l, Run Calls s.rate_limit calls s'.rate_limit ∧
    (∀ c ∈ calls, c.clock = s.now ∧ 1 ≤ c.n ∧ c.n ≤ m_rate) ∧
    s'.out = s.out ++ l ∧ l.countP (·.limited) ≤ calls.countP (·.ok)

theorem throttled_of_adds (hn : s'.now = s.now) (hr : s'.rate_limit = s.rate_limit)
    (ha : Adds (fun a => a.limited = false) s s') : Throttled s s' := by
  obtain ⟨l, hl, hl'⟩ := ha
  refine ⟨hn, [], l, hr ▸ .nil, by simp, hl, ?_⟩
  rw [List.countP_eq_zero.2 fun a ha => by simp [hl' a ha]]
  exact Nat.zero_le _

theorem Throttled.trans (h : Throttled s s') (h' : Throttled s' t) : Throttled s t := by
  obtain ⟨hn, calls, l, hr, hc, ho, hl⟩ := h
  obtain ⟨hn', calls', l', hr', hc', ho', hl'⟩ := h'
  refine ⟨hn'.trans hn, calls ++ calls', l ++ l', hr.trans hr', ?_, ?_, ?_⟩
  · intro c hcm
    rcases List.mem_append.1 hcm with hcm | hcm
    · exact hc c hcm
    · exact hn ▸ hc' c hcm
  · rw [ho', ho, List.append_assoc]
  · rw [List.countP_append, List.countP_append]
    exact Nat.add_le_add hl hl'

/-- **One call of `can_send`**, and what is sent on its answer. -/
theorem throttled_of_call (h1 : 1 ≤ n) (hm : n ≤ m_rate) (hn : s'.now = s.now)
    (hr : s'.rate_limit = (s.canSend n).1.rate_limit) {l : List Action}
    (ho : s'.out = s.out ++ l) (hl : l.countP (·.limited) ≤ (s.canSend n).2.toNat) :
    Throttled s s' := by
  have hcall : Calls s.rate_limit ⟨s.now, n, (s.canSend n).2⟩ s'.rate_limit := by
    rw [hr]
    rfl
  refine ⟨hn, [⟨s.now, n, (s.canSend n).2⟩], l, Run.nil.snoc hcall, ?_, ho, ?_⟩
  · intro c hc
    obtain rfl := List.mem_singleton.1 hc
    exact ⟨rfl, h1, hm⟩
  · cases hok : (s.canSend n).2 <;> simpa [hok] using hl

/-! ## A turn -/

theorem disconnectTWS_throttled (h : s.disconnectTWS = .ok s') : Throttled s s' := by
  have ha := (disconnectTWS_adds h).mono (Q := fun a => a.limited = false) fun a ha => by
    cases a <;> simp_all [Action.topic, Action.limited]
  unfold disconnectTWS at h
  split at h
  · have hf := twsConnectionClosed_fixed h
    exact throttled_of_adds (congrArg Fixed.now hf) (congrArg Fixed.rate_limit hf) ha
  · obtain rfl := Except.ok.inj h
    exact throttled_of_adds rfl rfl ha

theorem askTime_throttled (s : TwsDL) : Throttled s s.askTime := by
  obtain ⟨l, hl, hl'⟩ := askTime_adds s
  have hz : l.countP (·.limited) = 0 := by
    refine List.countP_eq_zero.2 fun a ha => ?_
    have ht := hl' a ha
    cases a <;> simp_all [Action.topic, Action.limited]
  unfold askTime at hl ⊢
  split at hl
  · rename_i hc
    rw [if_pos hc]
    refine throttled_of_call (n := 2) (by decide) (by decide) ?_ ?_ hl (by omega)
    · dsimp only
      split <;> rfl
    · dsimp only
      split <;> rfl
  · rename_i hc
    rw [if_neg hc]
    exact throttled_of_adds rfl rfl (.refl s)

theorem waitTwsCon_throttled (h : s.waitTwsCon = .ok s') : Throttled s s' := by
  simp only [waitTwsCon] at h
  split at h
  · refine (askTime_throttled s).trans ?_
    split at h
    · obtain rfl := eq_of_changeState h
      exact throttled_of_adds rfl rfl (.of_eq rfl)
    · split at h
      · obtain rfl := Except.ok.inj h
        exact throttled_of_adds rfl rfl (.of_eq rfl)
      · exact disconnectTWS_throttled h
  · obtain rfl := eq_of_changeState h
    exact throttled_of_adds rfl rfl (.of_eq rfl)

theorem waitData_throttled {i : ℤ} (h : ({ s with curIdleTime := i } : TwsDL).waitData = .ok s') :
    Throttled s s' := by
  have hr := (waitData_orders h).1.rest
  have hn : s'.now = s.now := congrArg Orders.now hr
  have hl : s'.rate_limit = s.rate_limit := congrArg Orders.rate_limit hr
  refine throttled_of_adds hn hl ((waitData_adds h).mono fun a ha => ?_)
  cases a <;> simp_all [Action.topic, Action.limited]

theorem connectTws_throttled {c : Connect} (h : s.connectTws c = .ok s') : Throttled s s' := by
  have ho := connectTws_orders h
  exact throttled_of_adds (congrArg Orders.now ho) (congrArg Orders.rate_limit ho)
    (.of_eq (connectTws_out h))

theorem startMktData_throttled (h : s.startMktData = .ok s') : Throttled s s' := by
  have ho := startMktData_orders h
  have hn : s'.now = s.now := congrArg Orders.now ho
  have hl : s'.rate_limit = s.rate_limit := congrArg Orders.rate_limit ho
  refine throttled_of_adds hn hl ((startMktData_adds h).mono fun a ha => ?_)
  cases a <;> simp_all [Action.topic, Action.limited]

theorem placeOrders_throttled : ∀ (k : ℕ) {s : TwsDL}, placeOrders k s = .ok s' →
    Throttled s s'
  | 0, s, h => by
      obtain rfl := Except.ok.inj h
      exact throttled_of_adds rfl rfl (.refl s)
  | k + 1, s, h => by
      simp only [placeOrders] at h
      split at h
      · split at h
        · rename_i hok
          simp only [Exec.bind_eq_ok] at h
          obtain ⟨s₁, h₁, h⟩ := h
          obtain ⟨pO, p, -, -, -, ho⟩ := placeOrder_orders h₁
          obtain ⟨pO', -, hout⟩ := placeOrder_out h₁
          have hcall : Throttled s s₁ :=
            throttled_of_call (n := 1) (by decide) (by decide) (congrArg Orders.now ho)
              (congrArg Orders.rate_limit ho) hout (by
                rw [hok]
                exact List.countP_le_length)
          exact hcall.trans (placeOrders_throttled k h)
        · obtain rfl := Except.ok.inj h
          exact throttled_of_call (n := 1) (l := []) (by decide) (by decide) rfl rfl
            (by simp [canSend]) (Nat.zero_le _)
      · obtain rfl := Except.ok.inj h
        exact throttled_of_adds rfl rfl (.refl s)

theorem request_throttled {t : ReqType} (h : s.request t = .ok s') : Throttled s s' := by
  cases t with
  | NONE => exact placeOrders_throttled _ h
  | CONTRACT_DETAILS_REQUEST =>
      simp only [request, reqContractDetails] at h
      split at h
      · rename_i hok
        simp only [Exec.bind_eq_ok] at h
        obtain ⟨todo, -, r, -, s₁, h₁, p, -, h⟩ := h
        obtain rfl := eq_of_nextRequest h₁
        obtain rfl := Except.ok.inj h
        exact throttled_of_call (n := 1) (by decide) (by decide) rfl rfl rfl (by
          rw [hok]
          exact List.countP_le_length)
      · obtain rfl := Except.ok.inj h
        exact throttled_of_call (n := 1) (l := []) (by decide) (by decide) rfl rfl
          (by simp [canSend]) (Nat.zero_le _)
  | OPT_PARAMS_REQUEST =>
      simp only [request, reqOptParams] at h
      split at h
      · rename_i hok
        simp only [Exec.bind_eq_ok] at h
        obtain ⟨todo, -, r, -, s₁, h₁, p, -, h⟩ := h
        obtain rfl := eq_of_nextRequest h₁
        obtain rfl := Except.ok.inj h
        exact throttled_of_call (n := 1) (by decide) (by decide) rfl rfl rfl (by
          rw [hok]
          exact List.countP_le_length)
      · obtain rfl := Except.ok.inj h
        exact throttled_of_call (n := 1) (l := []) (by decide) (by decide) rfl rfl
          (by simp [canSend]) (Nat.zero_le _)
  | HIST_REQUEST =>
      simp only [request, reqHistoricalData, Exec.bind_eq_ok] at h
      obtain ⟨-, -, ⟨hT, pG, wait⟩, -, h⟩ := h
      split at h
      · obtain rfl := Except.ok.inj h
        exact throttled_of_adds rfl rfl (.of_eq rfl)
      · simp only [Exec.bind_eq_ok] at h
        obtain ⟨s₁, h₁, hR, -, pG', -, p, -, h⟩ := h
        obtain rfl := eq_of_nextRequest h₁
        obtain rfl := Except.ok.inj h
        exact throttled_of_adds rfl rfl ⟨[_], rfl, by simp [Action.limited]⟩
  | ACC_STATUS_REQUEST | EXECUTIONS_REQUEST | ORDERS_REQUEST =>
      simp only [request, reqAccStatus, reqExecutions, reqOrders, Exec.bind_eq_ok] at h
      obtain ⟨s₁, h₁, p, -, h⟩ := h
      obtain rfl := eq_of_nextRequest h₁
      obtain rfl := Except.ok.inj h
      exact throttled_of_adds rfl rfl ⟨[_], rfl, by simp [Action.limited]⟩

theorem work_throttled (h : s.work = .ok s') : Throttled s s' := by
  simp only [work, Exec.bind_eq_ok] at h
  obtain ⟨s₁, h₁, s₂, h₂, h⟩ := h
  have hreq := request_throttled h₂
  refine (startMktData_throttled h₁).trans (Throttled.trans hreq ?_)
  rw [← Except.ok.inj h, checkDone]
  split
  · exact throttled_of_adds rfl rfl (.of_eq rfl)
  · exact throttled_of_adds rfl rfl (.refl s₂)

/-- **A turn asks before it sends**, and takes no time. -/
theorem turn_throttled {c : Connect} (h : s.turn c = .ok s') : Throttled s s' := by
  obtain ⟨s₁, i, hpath, rfl⟩ := turn_path h
  suffices Throttled s s₁ from this
  cases hpath with
  | connecting _ hw => exact waitTwsCon_throttled (s := { s with curIdleTime := -1 }) hw
  | waiting _ hw _ => exact waitData_throttled hw
  | reconnecting _ hw _ _ _ hcon => exact (waitData_throttled hw).trans (connectTws_throttled hcon)
  | working _ hw _ _ _ hwork => exact (waitData_throttled hw).trans (work_throttled hwork)

/-- **An event that is no reading of the clock** takes no time either. -/
theorem step_throttled (hn : ∀ t, e ≠ .clock t) (h : s.Step e s') : Throttled s s' := by
  by_cases ht : ∃ c, e = .turn c
  · obtain ⟨c, rfl⟩ := ht
    exact turn_throttled h.2
  by_cases hc : e = .connectAck
  · subst hc
    have h := h.2
    simp only [handle, twsConnectAck] at h
    split at h
    · obtain rfl := Except.ok.inj h
      exact throttled_of_call (n := 2) (l := [.startApi]) (by decide) (by decide) rfl rfl rfl
        (by simp [Action.limited])
    · obtain rfl := Except.ok.inj h
      exact throttled_of_adds rfl rfl (.refl s)
  by_cases hl : e = .connectionClosed
  · subst hl
    have hf := connectionClosed_fixed h.2
    exact throttled_of_adds (congrArg Fixed.now hf) (congrArg Fixed.rate_limit hf)
      (.of_eq (congrArg Fixed.out hf))
  · have hf := callback_fixed (fun c he => ht ⟨c, he⟩) hn hc hl h.2
    exact throttled_of_adds (congrArg Fixed.now hf) (congrArg Fixed.rate_limit hf)
      (.of_eq (congrArg Fixed.out hf))

/-! ## The clock of a run -/

theorem step_now (h : s.Step e s') : s'.now = e.reading.getD s.now := by
  by_cases hn : ∃ t, e = .clock t
  · obtain ⟨t, rfl⟩ := hn
    rw [← Except.ok.inj h.2]
    rfl
  · have hr : e.reading = none := by
      cases e with
      | clock t => exact absurd ⟨t, rfl⟩ hn
      | _ => rfl
    rw [hr]
    exact (step_throttled (fun t he => hn ⟨t, he⟩) h).1

/-- **The time of a state is the last reading.** -/
theorem now_of_run {s₀ : TwsDL} (h : Run Step s₀ evs s) :
    s.now = (readings evs).getLastD s₀.now := by
  induction h with
  | nil => rfl
  | @snoc evs s s' e _ hstep ih =>
      rw [step_now hstep, readings_snoc, ih]
      cases e.reading with
      | none => simp
      | some t => simp

/-- After the first reading there is a last one. -/
theorem now_mem_readings {s₀ : TwsDL} (h : Run Step s₀ evs s) (hc : Clocked evs) :
    s.now ∈ readings evs := by
  obtain ⟨t, rest, rfl⟩ := hc.first
  rw [now_of_run h]
  have hne : readings (.clock t :: rest) ≠ [] := by simp [readings, Event.reading]
  rw [List.getLastD_eq_getLast?, List.getLast?_eq_some_getLast hne]
  exact List.getLast_mem hne

/-- **The clock of a run does not go back.** -/
theorem now_le_of_clocked (h : Run Step (start cfg async jobs) evs s) (hs : s.Step e s')
    (hc : Clocked (evs ++ [e])) : s.now ≤ s'.now := by
  rw [step_now hs]
  cases hr : e.reading with
  | none => exact le_refl _
  | some t =>
      have hsnoc : readings (evs ++ [e]) = readings evs ++ [t] := by rw [readings_snoc, hr]; rfl
      rcases hc.of_snoc with rfl | hc'
      · have h0 : s.now = 0 := now_of_run h
        have := hc.pos t (hsnoc ▸ by simp)
        show s.now ≤ t
        omega
      · have hm := hc.mono
        rw [hsnoc, List.pairwise_append] at hm
        exact hm.2.2 _ (now_mem_readings h hc') t (by simp)

/-! ## The messages of a run -/

/-- How many messages that wait for the limiter were sent at the times of a
kind. -/
def sentAt (l : List (ℤ × Action)) (p : ℤ → Prop) [DecidablePred p] : ℕ :=
  l.countP fun x => x.2.limited ∧ p x.1

/-- **The limiter has counted what was sent**, with calls in the order of
the clock. -/
def Limits (l : List (ℤ × Action)) (s : TwsDL) : Prop :=
  ∃ calls, Counts calls s.rate_limit ∧ (∀ c ∈ calls, c.Valid ∧ c.clock ≤ s.now) ∧
    ∀ (p : ℤ → Prop) [DecidablePred p], (sentAt l p : ℤ) ≤ load (accepted calls) p

end TwsDL

namespace RateLimit

variable {r r' : RateLimit} {calls calls' : List Call} {t : ℤ}

/-- Some calls more, all at one time. -/
theorem Counts.append (h : Counts calls r) (hr : Run Calls r calls' r')
    (hv : ∀ c ∈ calls', c.Valid ∧ c.clock = t) (ht : ∀ c ∈ calls, c.clock ≤ t) :
    Counts (calls ++ calls') r' := by
  induction hr with
  | nil => simpa using h
  | @snoc calls' r₁ r₂ c _ hcall ih =>
      have hc := hv c (by simp)
      rw [← List.append_assoc]
      refine (ih fun c hcm => hv c (by simp [hcm])).step hc.1 (fun c' hcm => ?_) hcall
      rw [hc.2]
      rcases List.mem_append.1 hcm with hcm | hcm
      · exact ht c' hcm
      · exact (hv c' (by simp [hcm])).2.le

/-- Each call that is let through is for one message at least. -/
theorem countP_le_load {p : ℤ → Prop} [DecidablePred p] (hp : p t) :
    ∀ {calls : List Call}, (∀ c ∈ calls, c.clock = t ∧ 1 ≤ c.n) →
      (calls.countP (·.ok) : ℤ) ≤ load (accepted calls) p
  | [], _ => le_refl _
  | c :: calls, h => by
      obtain ⟨hc, hrest⟩ := List.forall_mem_cons.1 h
      have ih := countP_le_load hp hrest
      cases hok : c.ok with
      | true =>
          have ha : accepted (c :: calls) = (c.clock, c.n) :: accepted calls := by
            simp [accepted, hok]
          have hcp : p c.clock := hc.1 ▸ hp
          have hn := hc.2
          rw [ha, load_cons, if_pos hcp, List.countP_cons_of_pos hok, Nat.cast_succ, add_comm]
          exact add_le_add hn ih
      | false =>
          have ha : accepted (c :: calls) = accepted calls := by simp [accepted, hok]
          rw [ha, List.countP_cons_of_neg (by simp [hok])]
          exact ih

end RateLimit

namespace TwsDL

variable {s s' : TwsDL} {e : Event} {evs : List Event} {cfg : ConfigTwsdo} {async : Bool}
variable {jobs : List Job} {l : List (ℤ × Action)}

/-- What was sent at one time counts once for each message. -/
theorem sentAt_append_now {p : ℤ → Prop} [DecidablePred p] (t : ℤ) (as : List Action) :
    sentAt (l ++ as.map fun a => (t, a)) p =
      sentAt l p + if p t then as.countP (·.limited) else 0 := by
  have hnew : (as.map fun a => (t, a)).countP (fun x => x.2.limited ∧ p x.1) =
      if p t then as.countP (·.limited) else 0 := by
    rw [List.countP_map]
    split
    · rename_i hp
      exact List.countP_congr fun a _ => by simp [hp]
    · rename_i hp
      exact List.countP_eq_zero.2 fun a _ => by simp [hp]
  rw [sentAt, List.countP_append, hnew]
  rfl

theorem Limits.throttled (hL : Limits l s) (hpos : 0 < s.now)
    (hle : s.now ≤ 9223372036854775807) (h : Throttled s s') :
    Limits (l ++ (s'.out.drop s.out.length).map fun a => (s'.now, a)) s' := by
  obtain ⟨calls, hcounts, hvalid, hload⟩ := hL
  obtain ⟨hn, calls', as, hr, hc, ho, has⟩ := h
  have hv' : ∀ c ∈ calls', c.Valid ∧ c.clock = s.now := fun c hcm => by
    obtain ⟨ht, h1, hm⟩ := hc c hcm
    exact ⟨⟨ht ▸ hpos, ht ▸ hle, h1, hm⟩, ht⟩
  refine ⟨calls ++ calls', hcounts.append hr hv' fun c hcm => (hvalid c hcm).2, ?_, ?_⟩
  · rw [hn]
    intro c hcm
    rcases List.mem_append.1 hcm with hcm | hcm
    · exact hvalid c hcm
    · exact ⟨(hv' c hcm).1, (hv' c hcm).2.le⟩
  · intro p _
    have hacc : accepted (calls ++ calls') = accepted calls ++ accepted calls' := by
      simp [accepted]
    rw [ho, List.drop_left, hn, sentAt_append_now, hacc, load_append]
    have hl := hload p
    by_cases hp : p s.now
    · have hc' : (calls'.countP (·.ok) : ℤ) ≤ load (accepted calls') p :=
        countP_le_load hp fun c hcm => ⟨(hc c hcm).1, (hc c hcm).2.1⟩
      rw [if_pos hp]
      push_cast
      omega
    · have hz : load (accepted calls') p = 0 := by
        refine load_eq_zero fun x hx => ?_
        obtain ⟨c, hcm, -, rfl⟩ := mem_accepted.1 hx
        rw [(hc c hcm).1]
        exact hp
      rw [if_neg hp, hz]
      simpa using hl

/-- **The limits hold in every state.** -/
theorem run_limits (h : Run Step (start cfg async jobs) evs s) :
    evs = [] ∨ Clocked evs → Limits (timeline (start cfg async jobs) evs) s := by
  refine h.history (I := fun evs s => evs = [] ∨ Clocked evs →
    Limits (timeline (start cfg async jobs) evs) s) ?_ ?_
  · exact fun _ => ⟨[], counts_init, by simp, by simp [sentAt, timeline, accepted]⟩
  · intro evs s e s' hr ih hstep hc
    have hc : Clocked (evs ++ [e]) := hc.resolve_left (by simp)
    have hL := ih hc.of_snoc
    have htl : timeline (start cfg async jobs) (evs ++ [e]) =
        timeline (start cfg async jobs) evs ++
          (s'.out.drop s.out.length).map fun a => (s'.now, a) :=
      hr.entries_snoc (fun _ _ _ => next_eq_of_step) hstep
    rw [htl]
    by_cases hn : ∃ t, e = .clock t
    · have hle := now_le_of_clocked hr hstep hc
      obtain ⟨t, rfl⟩ := hn
      obtain ⟨calls, hcounts, hvalid, hload⟩ := hL
      obtain rfl := Except.ok.inj hstep.2
      refine ⟨calls, hcounts, fun c hcm => ⟨(hvalid c hcm).1, ?_⟩, by simpa using hload⟩
      exact le_trans (hvalid c hcm).2 hle
    · have hc' : Clocked evs := by
        refine hc.of_snoc.resolve_left ?_
        rintro rfl
        obtain ⟨t, rest, ht⟩ := hc.first
        exact hn ⟨t, (List.cons.inj ht).1⟩
      have hmem := now_mem_readings hr hc'
      exact hL.throttled (hc'.pos _ hmem) (hc'.le _ hmem)
        (step_throttled (fun t he => hn ⟨t, he⟩) hstep)

/-- **The messages of a run are bounded.** Requests for contract details and
option parameters and orders together: no more than 25 in an interval of
500 ms, and no more than `(k + 1) * 25` in any `k * 500` ms. -/
theorem messages_bounded (h : Run Step (start cfg async jobs) evs s) (hc : Clocked evs) :
    (∀ b, (sentAt (timeline (start cfg async jobs) evs) fun t => t / m_interval = b) ≤
      m_rate.toNat) ∧
    ∀ (a : ℤ) (k : ℕ),
      (sentAt (timeline (start cfg async jobs) evs) fun t => a ≤ t ∧ t < a + k * m_interval) ≤
        (k + 1) * m_rate.toNat := by
  obtain ⟨calls, hcounts, hvalid, hload⟩ := run_limits h (.inr hc)
  have hrate : (m_rate.toNat : ℤ) = m_rate := rfl
  have h0 : ∀ x ∈ accepted calls, 0 ≤ x.2 := by
    intro x hx
    obtain ⟨c, hcm, -, rfl⟩ := mem_accepted.1 hx
    exact le_trans (by decide) (hvalid c hcm).1.n_pos
  refine ⟨fun b => ?_, fun a k => ?_⟩
  · have hb := le_trans (hload fun t => t / m_interval = b) (hcounts.le b)
    rw [← hrate] at hb
    exact_mod_cast hb
  · have hwin := load_window_le h0 (show 0 < m_interval by decide) hcounts.le a k
    have hb := le_trans (hload fun t => a ≤ t ∧ t < a + k * m_interval) hwin
    rw [nsmul_eq_mul, ← hrate] at hb
    exact_mod_cast hb

/-- Thirty orders, placed in two turns. -/
def thirtyOrders : List Job := List.replicate 30 (.place_order {})

/-- The second turn comes half a second later. -/
def placedTwice : List Event :=
  connects 40000 1 ++ [.turn {}, .clock 40500, .turn {}]

theorem messages_bounded_thirty : ∃ s, Run Step (start {} false thirtyOrders) placedTwice s ∧
    (s.out.countP (·.limited)) = 30 ∧
    (sentAt (timeline (start {} false thirtyOrders) placedTwice) fun t => t / m_interval = 80) ≤
      25 := by
  have hplay : ((placedTwice.foldlM next (start {} false thirtyOrders)).map
      fun s => s.out.countP (·.limited)) = some 30 := by
    decide +kernel
  obtain ⟨s, hs, hout⟩ := Option.map_eq_some_iff.1 hplay
  have hrun := Run.of_foldlM (fun _ _ _ => step_of_next) hs
  have hclock : Clocked placedTwice :=
    ⟨⟨_, _, rfl⟩, by decide +kernel, by decide +kernel, by decide +kernel⟩
  exact ⟨s, hrun, hout, (messages_bounded hrun hclock).1 80⟩

end TwsDL

end Twstools
