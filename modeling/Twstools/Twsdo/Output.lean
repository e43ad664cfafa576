import Twstools.Orders.Turns
import Twstools.Common.Entries
/-!
# What the program adds to its output

`out` only grows, and each function adds actions about its own topic:
callbacks add nothing, but for the answer to an asynchronous connect; a
turn first writes orders that are over, then the answer that is closed,
and then it makes one request, or places orders. `timeline` gives each
action of a run the time at which it was done.
-/

namespace Twstools

/-- What an action is about. -/
inductive Topic where
  | request
  | answer
  | order
  | written
  | ticker
  | connection
  deriving DecidableEq

/-- The topic of an action. -/
def Action.topic : Action → Topic
  | .reqContractDetails .. | .reqHistoricalData .. | .reqSecDefOptParams ..
  | .reqAccountUpdates .. | .reqExecutions .. | .reqAllOpenOrders => .request
  | .dumpXml .. | .delete .. => .answer
  | .placeOrder .. | .cancelOrder .. => .order
  | .dumpOrder .. => .written
  | .reqMktData .. => .ticker
  | .reqMarketDataType .. | .reqCurrentTime | .startApi | .eDisconnect => .connection

/-- The type of the request that an action makes. -/
def Action.reqType : Action → Option ReqType
  | .reqContractDetails .. => some .CONTRACT_DETAILS_REQUEST
  | .reqHistoricalData .. => some .HIST_REQUEST
  | .reqSecDefOptParams .. => some .OPT_PARAMS_REQUEST
  | .reqAccountUpdates .. => some .ACC_STATUS_REQUEST
  | .reqExecutions .. => some .EXECUTIONS_REQUEST
  | .reqAllOpenOrders => some .ORDERS_REQUEST
  | _ => none

theorem Action.reqType_eq_none {a : Action} : a.reqType = none ↔ a.topic ≠ .request := by
  cases a <;> simp [reqType, topic]

theorem Action.topic_of_reqType {a : Action} {t : ReqType} (h : a.reqType = some t) :
    a.topic = .request := by
  by_contra hn
  rw [reqType_eq_none.2 hn] at h
  cases h

namespace TwsDL

/-- From `s` to `s'` the output has grown, by actions with `P`. -/
def Adds (P : Action → Prop) (s s' : TwsDL) : Prop := ∃ l, s'.out = s.out ++ l ∧ ∀ a ∈ l, P a

variable {s s' t : TwsDL} {P Q : Action → Prop} {a : Action} {b : Bool} {n : ℤ} {err : RowError}

theorem Adds.of_eq (h : s'.out = s.out) : Adds P s s' := ⟨[], by simp [h], by simp⟩

theorem Adds.refl (s : TwsDL) : Adds P s s := .of_eq rfl

theorem Adds.trans (h : Adds P s s') (h' : Adds P s' t) : Adds P s t := by
  obtain ⟨l, hl, hP⟩ := h
  obtain ⟨l', hl', hP'⟩ := h'
  refine ⟨l ++ l', by rw [hl', hl, List.append_assoc], fun a ha => ?_⟩
  exact (List.mem_append.1 ha).elim (hP a) (hP' a)

theorem Adds.mono (h : Adds P s s') (hPQ : ∀ a, P a → Q a) : Adds Q s s' := by
  obtain ⟨l, hl, hP⟩ := h
  exact ⟨l, hl, fun a ha => hPQ a (hP a ha)⟩

theorem adds_act (ha : P a) : Adds P s (s.act a) := ⟨[a], rfl, by simpa using ha⟩

/-- **What is about something else does not show** in a part of the output. -/
theorem Adds.filter_eq {q : Action → Bool} (h : Adds P s s') (hq : ∀ a, P a → q a = false) :
    s'.out.filter q = s.out.filter q := by
  obtain ⟨l, hl, hP⟩ := h
  have hnil : l.filter q = [] :=
    List.filter_eq_nil_iff.2 fun a ha => by simp [hq a (hP a ha)]
  rw [hl, List.filter_append, hnil, List.append_nil]

/-! ## Callbacks -/

/-- What callbacks leave alone: the state of the loop, the connection, the
request that is current, the limiter, and the work that is left, but for
historical jobs. -/
structure Fixed where
  cfg : ConfigTwsdo
  state : State
  quit : Bool
  error : ℤ
  currentRequest : GenericRequest
  contractDetailsTodo : ContractDetailsTodo
  optParamsTodo : OptParamsTodo
  placeOrderTodo : PlaceOrderTodo
  mktDataTodo : List MktDataRequest
  simple : Bool × Bool × Bool
  quotes : ℕ
  fuckme : ℤ
  asyncEConnect : Bool
  connected : Bool
  lastConnectionTime : ℤ
  rate_limit : RateLimit
  now : ℤ
  out : List Action

/-- What callbacks leave alone. -/
def fixed (s : TwsDL) : Fixed where
  cfg := s.cfg
  state := s.state
  quit := s.quit
  error := s.error
  currentRequest := s.currentRequest
  contractDetailsTodo := s.workTodo.contractDetailsTodo
  optParamsTodo := s.workTodo.optParamsTodo
  placeOrderTodo := s.workTodo.placeOrderTodo
  mktDataTodo := s.workTodo.mktDataTodo
  simple := (s.workTodo.acc_status_todo, s.workTodo.executions_todo, s.workTodo.orders_todo)
  quotes := s.quotes
  fuckme := s.fuckme
  asyncEConnect := s.asyncEConnect
  connected := s.connected
  lastConnectionTime := s.lastConnectionTime
  rate_limit := s.rate_limit
  now := s.now
  out := s.out

theorem OrderChanged.fixed_eq (h : s.OrderChanged n s') : s'.fixed = s.fixed := by
  cases h <;> rfl

theorem twsError_fixed (h : s.twsError err = .ok s') : s'.fixed = s.fixed := by
  obtain ⟨s₁, ho, H, b, i, d, g, p, rfl⟩ := twsError_effect h
  exact ho.fixed_eq.trans rfl

theorem twsConnectionClosed_fixed (h : s.twsConnectionClosed = .ok s') :
    s'.fixed = { s.fixed with lastConnectionTime := s.now } := by
  obtain ⟨-, p, rfl⟩ := twsConnectionClosed_effect h
  rfl

/-- A callback about anything but the connection. -/
theorem callback_fixed {e : Event} (ht : ∀ c, e ≠ .turn c) (hn : ∀ t, e ≠ .clock t)
    (hc : e ≠ .connectAck) (hl : e ≠ .connectionClosed) (h : s.handle e = .ok s') :
    s'.fixed = s.fixed := by
  cases event_path h with
  | turn => exact absurd rfl (ht _)
  | clock => exact absurd rfl (hn _)
  | connectAck => exact absurd rfl hc
  | connectionClosed => exact absurd rfl hl
  | error h => exact twsError_fixed h
  | orderStatus h | openOrder h => exact h.fixed_eq
  | _ => rfl

theorem twsConnectAck_eq (h : s.twsConnectAck = .ok s') :
    s'.fixed = { s.fixed with rate_limit := s'.rate_limit, out := s'.out } ∧
      Adds (· = .startApi) s s' := by
  unfold twsConnectAck at h
  split at h
  · rw [← Except.ok.inj h]
    exact ⟨rfl, [.startApi], rfl, by simp⟩
  · rw [← Except.ok.inj h]
    exact ⟨rfl, .refl s⟩

/-- A lost connection is noted, with its time. -/
theorem connectionClosed_fixed (h : s.handle .connectionClosed = .ok s') :
    s'.fixed = { s.fixed with connected := false, lastConnectionTime := s.now } :=
  twsConnectionClosed_fixed (s := { s with connected := false }) h

/-- **An event other than a turn leaves all this alone**, but for the clock,
a connection that is lost, and the limiter and the output when one is
complete. -/
theorem handle_fixed {e : Event} (ht : ∀ c, e ≠ .turn c) (h : s.handle e = .ok s') :
    s'.fixed = { s.fixed with
      connected := s'.connected, lastConnectionTime := s'.lastConnectionTime
      rate_limit := s'.rate_limit, now := s'.now, out := s'.out } := by
  -- in each case what else is kept stays
  have keep : ∀ {f : Fixed}, s'.fixed = f → f = { s.fixed with
      connected := f.connected, lastConnectionTime := f.lastConnectionTime
      rate_limit := f.rate_limit, now := f.now, out := f.out } → s'.fixed = { s.fixed with
      connected := s'.fixed.connected, lastConnectionTime := s'.fixed.lastConnectionTime
      rate_limit := s'.fixed.rate_limit, now := s'.fixed.now, out := s'.fixed.out } :=
    fun hf h => hf ▸ h
  by_cases hc : e = .connectAck
  · rw [hc] at h
    exact keep (twsConnectAck_eq h).1 rfl
  by_cases hl : e = .connectionClosed
  · rw [hl] at h
    exact keep (connectionClosed_fixed h) rfl
  by_cases hn : ∃ t, e = .clock t
  · obtain ⟨t, rfl⟩ := hn
    rw [← Except.ok.inj h]
    rfl
  · exact keep (callback_fixed ht (fun t he => hn ⟨t, he⟩) hc hl h) rfl

/-- **What callbacks answer**: an asynchronous connect. -/
theorem handle_adds {e : Event} (ht : ∀ c, e ≠ .turn c) (h : s.handle e = .ok s') :
    Adds (· = .startApi) s s' := by
  by_cases hc : e = .connectAck
  · rw [hc] at h
    exact (twsConnectAck_eq h).2
  by_cases hn : ∃ t, e = .clock t
  · obtain ⟨t, rfl⟩ := hn
    rw [← Except.ok.inj h]
    exact .of_eq rfl
  by_cases hl : e = .connectionClosed
  · rw [hl] at h
    exact .of_eq (congrArg Fixed.out (connectionClosed_fixed h))
  · exact .of_eq (congrArg Fixed.out (callback_fixed ht (fun t he => hn ⟨t, he⟩) hc hl h))

/-! ## A turn -/

theorem dumpPacket_adds (h : s.dumpPacket = .ok s') : Adds (·.topic = .answer) s s' := by
  simp only [dumpPacket, Exec.bind_eq_ok] at h
  obtain ⟨p, -, h⟩ := h
  rw [← Except.ok.inj h]
  exact adds_act rfl

theorem finAnswer_adds {again : Exec Assertion (TwsDL × Bool)}
    (hagain : again = .ok (s', b) → s'.out = s.out) (h : s.finAnswer again = .ok (s', b)) :
    Adds (·.topic = .answer) s s' := by
  obtain ⟨p, -, ⟨-, s₁, h₁, hr⟩ | ⟨-, -, hr⟩ | ⟨-, ha⟩⟩ := finAnswer_cases h
  · rw [(Prod.mk.inj hr).1]
    exact dumpPacket_adds h₁
  · rw [(Prod.mk.inj hr).1]
    exact .refl s
  · exact .of_eq (hagain ha)

theorem finHist_adds (h : s.finHist = .ok (s', b)) : Adds (·.topic = .answer) s s' := by
  simp only [finHist, Exec.bind_eq_ok] at h
  obtain ⟨p, -, h⟩ := h
  split at h
  · simp only [Exec.bind_eq_ok] at h
    obtain ⟨s₁, h₁, hT, -, h⟩ := h
    rw [← (Prod.mk.inj (Except.ok.inj h)).1]
    exact (dumpPacket_adds h₁).trans (.of_eq rfl)
  all_goals
    simp only [Exec.bind_eq_ok] at h
    obtain ⟨hT, -, h⟩ := h
    rw [← (Prod.mk.inj (Except.ok.inj h)).1]
    exact .refl s

theorem finRequest_adds (h : s.finRequest = .ok (s', b)) : Adds (·.topic = .answer) s s' := by
  unfold finRequest at h
  split at h
  · rw [finOptParams_eq] at h
    refine finAnswer_adds (fun ha => ?_) h
    simp only [Exec.bind_eq_ok] at ha
    obtain ⟨todo, -, ha⟩ := ha
    rw [← (Prod.mk.inj (Except.ok.inj ha)).1]
  · rw [finContracts_eq] at h
    refine finAnswer_adds (fun ha => ?_) h
    simp only [Exec.bind_eq_ok] at ha
    obtain ⟨todo, -, ha⟩ := ha
    rw [← (Prod.mk.inj (Except.ok.inj ha)).1]
  · exact finHist_adds h
  case h_7 =>
    simp only [Exec.bind_eq_ok] at h
    obtain ⟨u, -, h⟩ := h
    rw [← (Prod.mk.inj (Except.ok.inj h)).1]
    exact .refl s
  all_goals
    simp only [Exec.bind_eq_ok] at h
    obtain ⟨s₁, h₁, h⟩ := h
    rw [← (Prod.mk.inj (Except.ok.inj h)).1]
    exact dumpPacket_adds h₁

theorem finPacket_adds (h : s.finPacket = .ok s') : Adds (·.topic = .answer) s s' := by
  simp only [finPacket, Exec.bind_eq_ok] at h
  obtain ⟨⟨s₁, b⟩, h₁, p, -, h⟩ := h
  refine (finRequest_adds h₁).trans ?_
  rw [← Except.ok.inj h]
  refine ⟨[.delete p], ?_, by simp [Action.topic]⟩
  cases b <;> rfl

/-- **The answer that is over is written**, or only deleted. -/
theorem waitPacket_adds (h : s.waitPacket = .ok s') : Adds (·.topic = .answer) s s' := by
  simp only [waitPacket] at h
  split at h
  · rw [← Except.ok.inj h]
    exact .refl s
  · split at h
    · rw [← Except.ok.inj h]
      exact .refl s
    · split at h
      · exact finPacket_adds h
      · split at h
        · rw [← Except.ok.inj h]
          exact .refl s
        · simp only [Exec.bind_eq_ok] at h
          obtain ⟨s₁, h₁, h⟩ := h
          obtain ⟨p, p', -, -, rfl⟩ := eq_of_closePacket h₁
          have ha := finPacket_adds h
          exact ha

theorem finOrder_adds {id : ℤ} {p : PacketPlaceOrder} (h : s.finOrder id p = .ok (s', b)) :
    Adds (·.topic = .written) s s' := by
  simp only [finOrder, Exec.bind_eq_ok] at h
  obtain ⟨r, -, -, -, h⟩ := h
  split at h
  · simp only [Exec.bind_eq_ok] at h
    obtain ⟨p', -, h⟩ := h
    split at h
    · simp only [Exec.bind_eq_ok] at h
      obtain ⟨-, -, h⟩ := h
      rw [← (Prod.mk.inj (Except.ok.inj h)).1]
      exact ⟨[.dumpOrder id p'], rfl, by simp [Action.topic]⟩
    · simp only [Exec.bind_eq_ok] at h
      obtain ⟨-, -, h⟩ := h
      rw [← (Prod.mk.inj (Except.ok.inj h)).1]
      exact ⟨[.dumpOrder id p'], rfl, by simp [Action.topic]⟩
    · simp only [Exec.bind_eq_ok] at h
      obtain ⟨-, -, h⟩ := h
      rw [← (Prod.mk.inj (Except.ok.inj h)).1]
      exact ⟨[.dumpOrder id p'], rfl, by simp [Action.topic]⟩
    all_goals
      rw [← (Prod.mk.inj (Except.ok.inj h)).1]
      exact .refl s
  · rw [← (Prod.mk.inj (Except.ok.inj h)).1]
    exact .refl s

theorem finOrders_adds : ∀ (l : List (ℤ × PacketPlaceOrder)) {s : TwsDL} {ok : Bool},
    finOrders l (s, ok) = .ok (s', b) → Adds (·.topic = .written) s s'
  | [], s, _, h => by
      rw [← (Prod.mk.inj (Except.ok.inj h)).1]
      exact .refl s
  | (id, p) :: l, s, ok, h => by
      simp only [finOrders, Exec.bind_eq_ok] at h
      obtain ⟨⟨s₁, ok'⟩, h₁, h⟩ := h
      exact (finOrder_adds h₁).trans (finOrders_adds l h)

theorem finPlaceOrder_adds (h : s.finPlaceOrder = .ok (s', b)) :
    Adds (·.topic = .written) s s' := finOrders_adds _ h

/-- **Orders that are over are written, and then the answer.** -/
theorem waitData_adds (h : s.waitData = .ok s') :
    Adds (fun a => a.topic = .written ∨ a.topic = .answer) s s' := by
  simp only [waitData, Exec.bind_eq_ok] at h
  obtain ⟨⟨s₁, b⟩, h₁, h⟩ := h
  exact ((finPlaceOrder_adds h₁).mono fun _ => .inl).trans
    ((waitPacket_adds h).mono fun _ => .inr)

theorem askTime_adds (s : TwsDL) : Adds (·.topic = .connection) s s.askTime := by
  unfold askTime
  split
  · dsimp only
    split
    · exact ⟨[.reqMarketDataType _, .reqCurrentTime], List.append_assoc _ _ _,
        by simp [Action.topic]⟩
    · exact ⟨[.reqCurrentTime], rfl, by simp [Action.topic]⟩
  · exact .refl s

theorem disconnectTWS_adds (h : s.disconnectTWS = .ok s') :
    Adds (·.topic = .connection) s s' := by
  unfold disconnectTWS at h
  split at h
  · have ho := congrArg Fixed.out (twsConnectionClosed_fixed h)
    exact ⟨[.eDisconnect], ho, by simp [Action.topic]⟩
  · rw [← Except.ok.inj h]
    exact .refl s

theorem waitTwsCon_adds (h : s.waitTwsCon = .ok s') : Adds (·.topic = .connection) s s' := by
  simp only [waitTwsCon] at h
  split at h
  · refine (askTime_adds s).trans ?_
    split at h
    · obtain rfl := eq_of_changeState h
      exact .of_eq rfl
    · split at h
      · rw [← Except.ok.inj h]
        exact .of_eq rfl
      · exact disconnectTWS_adds h
  · obtain rfl := eq_of_changeState h
    exact .of_eq rfl

theorem connectTws_out {c : Connect} (h : s.connectTws c = .ok s') : s'.out = s.out := by
  rcases connectTws_effect h with ⟨i, rfl⟩ | ⟨k, b, st, -, rfl⟩
  · rfl
  · rfl

theorem startMktData_adds (h : s.startMktData = .ok s') : Adds (·.topic = .ticker) s s' := by
  unfold startMktData at h
  split at h
  · simp only [reqMktData, Exec.bind_eq_ok] at h
    obtain ⟨-, -, h⟩ := h
    rw [← Except.ok.inj h]
    refine ⟨_, rfl, fun a ha => ?_⟩
    obtain ⟨i, hi, rfl⟩ := List.mem_mapIdx.1 ha
    rfl
  · rw [← Except.ok.inj h]
    exact .refl s

/-- **A request is one action**, or it is put off, which happens to those
that are limited only. -/
theorem request_adds {t : ReqType} (ht : t ≠ .NONE) (h : s.request t = .ok s') :
    (t = .CONTRACT_DETAILS_REQUEST ∨ t = .OPT_PARAMS_REQUEST ∨ t = .HIST_REQUEST) ∧
        s'.out = s.out ∨
      ∃ a : Action, a.reqType = some t ∧ s'.out = s.out ++ [a] := by
  cases t with
  | NONE => exact absurd rfl ht
  | CONTRACT_DETAILS_REQUEST =>
      simp only [request, reqContractDetails] at h
      split at h
      · simp only [Exec.bind_eq_ok] at h
        obtain ⟨todo, -, r, -, s₁, h₁, p, -, h⟩ := h
        obtain rfl := eq_of_nextRequest h₁
        exact .inr ⟨_, rfl, by rw [← Except.ok.inj h]; rfl⟩
      · exact .inl ⟨.inl rfl, by rw [← Except.ok.inj h]; rfl⟩
  | OPT_PARAMS_REQUEST =>
      simp only [request, reqOptParams] at h
      split at h
      · simp only [Exec.bind_eq_ok] at h
        obtain ⟨todo, -, r, -, s₁, h₁, p, -, h⟩ := h
        obtain rfl := eq_of_nextRequest h₁
        exact .inr ⟨_, rfl, by rw [← Except.ok.inj h]; rfl⟩
      · exact .inl ⟨.inr (.inl rfl), by rw [← Except.ok.inj h]; rfl⟩
  | HIST_REQUEST =>
      simp only [request, reqHistoricalData, Exec.bind_eq_ok] at h
      obtain ⟨-, -, ⟨hT, pG, wait⟩, -, h⟩ := h
      split at h
      · exact .inl ⟨.inr (.inr rfl), by rw [← Except.ok.inj h]; rfl⟩
      · simp only [Exec.bind_eq_ok] at h
        obtain ⟨s₁, h₁, hR, -, pG', -, p, -, h⟩ := h
        obtain rfl := eq_of_nextRequest h₁
        exact .inr ⟨_, rfl, by rw [← Except.ok.inj h]; rfl⟩
  | ACC_STATUS_REQUEST | EXECUTIONS_REQUEST | ORDERS_REQUEST =>
      simp only [request, reqAccStatus, reqExecutions, reqOrders, Exec.bind_eq_ok] at h
      obtain ⟨s₁, h₁, p, -, h⟩ := h
      obtain rfl := eq_of_nextRequest h₁
      exact .inr ⟨_, rfl, by rw [← Except.ok.inj h]; rfl⟩

theorem request_grows {t : ReqType} (ht : t ≠ .NONE) (h : s.request t = .ok s') :
    Adds (·.topic = .request) s s' := by
  rcases request_adds ht h with ⟨-, ho⟩ | ⟨a, ha, ho⟩
  · exact .of_eq ho
  · exact ⟨[a], ho, by simpa using Action.topic_of_reqType ha⟩

theorem checkDone_out (s : TwsDL) (t : ReqType) : (s.checkDone t).out = s.out := by
  unfold checkDone
  split <;> rfl

theorem placeOrder_adds (h : s.placeOrder = .ok s') : Adds (·.topic = .order) s s' := by
  simp only [placeOrder, Exec.bind_eq_ok] at h
  obtain ⟨todo, -, pO, -, ⟨s₁, id⟩, h₁, s₂, h₂, h⟩ := h
  have ho₁ : s₁.out = s.out := by
    simp only [orderIdOf, fetchIncOrderId] at h₁
    split at h₁
    · split at h₁
      · rw [← (Prod.mk.inj (Except.ok.inj h₁)).1]
      · cases h₁
    · rw [← (Prod.mk.inj (Except.ok.inj h₁)).1]
  have ho₂ : s₂.out = s₁.out := by
    simp only [recordOrder, Exec.bind_eq_ok] at h₂
    obtain ⟨p, -, h₂⟩ := h₂
    rw [← Except.ok.inj h₂]
  refine (Adds.of_eq (ho₂.trans ho₁)).trans ?_
  rw [← Except.ok.inj h]
  unfold sendOrder
  split
  · exact adds_act rfl
  · exact adds_act rfl

theorem placeOrders_adds : ∀ (k : ℕ) {s : TwsDL}, placeOrders k s = .ok s' →
    Adds (·.topic = .order) s s'
  | 0, s, h => by
      rw [← Except.ok.inj h]
      exact .refl s
  | k + 1, s, h => by
      simp only [placeOrders] at h
      split at h
      · split at h
        · simp only [Exec.bind_eq_ok] at h
          obtain ⟨s₁, h₁, h⟩ := h
          have hp := placeOrder_adds h₁
          exact Adds.trans hp (placeOrders_adds k h)
        · rw [← Except.ok.inj h]
          exact .of_eq rfl
      · rw [← Except.ok.inj h]
        exact .refl s

/-! ## When it is done -/

/-- **The output grows.** -/
theorem turn_adds {c : Connect} (h : s.turn c = .ok s') : Adds (fun _ => True) s s' := by
  obtain ⟨s₁, i, hpath, rfl⟩ := turn_path h
  suffices Adds (fun _ => True) ({ s with curIdleTime := -1 } : TwsDL) s₁ from this
  have any : ∀ {P : Action → Prop} {s s' : TwsDL}, Adds P s s' → Adds (fun _ => True) s s' :=
    fun h => h.mono fun _ _ => trivial
  cases hpath with
  | connecting _ hw => exact any (waitTwsCon_adds hw)
  | waiting _ hw _ => exact any (waitData_adds hw)
  | reconnecting _ hw _ _ _ hcon =>
      exact (any (waitData_adds hw)).trans (.of_eq (connectTws_out hcon))
  | working _ hw _ _ _ hwork =>
      simp only [work, Exec.bind_eq_ok] at hwork
      obtain ⟨s₃, h₃, s₄, h₄, hwork⟩ := hwork
      rw [← Except.ok.inj hwork]
      refine (any (waitData_adds hw)).trans ((any (startMktData_adds h₃)).trans ?_)
      refine Adds.trans ?_ (.of_eq (checkDone_out s₄ _))
      by_cases ht : s₃.workTodo.nextReqType.2 = .NONE
      · rw [ht] at h₄
        have hp := placeOrders_adds _ h₄
        exact any hp
      · have hr := request_grows ht h₄
        exact any hr

theorem next_eq_of_step {e : Event} (h : s.Step e s') : s.next e = some s' := by
  rw [next, h.1, h.2]
  rfl

/-- The actions of the events from `s` on, each with its time. -/
def timeline (s : TwsDL) (evs : List Event) : List (ℤ × Action) :=
  entries next (fun s _ s' => (s'.out.drop s.out.length).map fun a => (s'.now, a)) s evs

theorem step_adds {e : Event} (h : s.Step e s') : Adds (fun _ => True) s s' := by
  by_cases ht : ∃ c, e = .turn c
  · obtain ⟨c, rfl⟩ := ht
    exact turn_adds h.2
  · exact (handle_adds (fun c hc => ht ⟨c, hc⟩) h.2).mono fun _ _ => trivial

end TwsDL

end Twstools
