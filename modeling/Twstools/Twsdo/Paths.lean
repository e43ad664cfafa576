import Twstools.Twsdo.Effects
/-!
# The ways through an event and through a turn

`event_path` says what each event can do, and `turn_path` what a turn can:
an invariant of runs is a case split over the two. What an event does is
told by the members of the program it writes.
-/

namespace Twstools

/-- The request whose answer an event is part of. -/
def Event.answerTo : Event → Option ReqType
  | .contractDetails _ _ | .bondContractDetails _ _ | .contractDetailsEnd _ =>
      some .CONTRACT_DETAILS_REQUEST
  | .historicalData _ _ => some .HIST_REQUEST
  | .optParams _ _ | .optParamsEnd _ => some .OPT_PARAMS_REQUEST
  | .updateAccountValue _ | .updatePortfolio _ | .updateAccountTime _ | .accountDownloadEnd _ =>
      some .ACC_STATUS_REQUEST
  | .execDetails _ _ | .execDetailsEnd _ => some .EXECUTIONS_REQUEST
  | .orderStatus _ | .openOrder _ | .openOrderEnd => some .ORDERS_REQUEST
  | _ => none

namespace TwsDL

variable {s s' : TwsDL} {n : ℤ} {err : RowError}

/-! ## An event -/

/-- **The ways an event is taken.** Turns, errors and the loss of the
connection are left to their own lemmas. -/
inductive EventPath (s : TwsDL) : Event → TwsDL → Prop
  | turn {c : Connect} {s' : TwsDL} : s.turn c = .ok s' → EventPath s (.turn c) s'
  | error {err : RowError} {s' : TwsDL} : s.twsError err = .ok s' → EventPath s (.error err) s'
  | connectionClosed {s' : TwsDL} :
      ({ s with connected := false } : TwsDL).twsConnectionClosed = .ok s' →
      EventPath s .connectionClosed s'
  | clock {now : ℤ} : EventPath s (.clock now) { s with now := now }
  | connectAck {r : RateLimit} : EventPath s .connectAck { s with
      connectivity_IB_TWS := true, rate_limit := r, out := s.out ++ [.startApi] }
  | currentTime {time : ℤ} : EventPath s (.currentTime time) { s with
      tws_hb := {
        s.tws_hb with cnt_recv := s.tws_hb.cnt_recv + 1, time_recv := s.now, tws_time := time } }
  | nextValidId {n : ℤ} : s.state = .WAIT_TWS_CON →
      EventPath s (.nextValidId n) { s with tws_valid_orderId := n }
  /-- The packet of the request takes it, and a bar shows a farm. -/
  | answer {e : Event} {p : Option Packet} {d : DataFarmStates} :
      e.answerTo = some s.currentRequest.reqType →
      EventPath s e { s with dataFarms := d, packet := p }
  | orderStatus {row : RowOrderStatus} {s' : TwsDL} : s.OrderChanged row.id s' →
      EventPath s (.orderStatus row) s'
  | openOrder {row : RowOpenOrder} {s' : TwsDL} : s.OrderChanged row.orderId s' →
      EventPath s (.openOrder row) s'
  /-- It is not about what the program does now. -/
  | ignored {e : Event} : EventPath s e s

theorem expect_path {e : Event} {t : ReqType} {f : Exec Assertion TwsDL}
    (ha : e.answerTo = some t)
    (hf : f = .ok s' → ∃ p d, s' = { s with dataFarms := d, packet := p })
    (h : s.expect t n f = .ok s') : EventPath s e s' := by
  unfold expect at h
  split at h
  · rw [← Except.ok.inj h]
    exact .ignored
  split at h
  · rw [← Except.ok.inj h]
    exact .ignored
  · rename_i ht _
    obtain ⟨p, d, rfl⟩ := hf h
    exact .answer (ha.trans (congrArg some (not_not.1 ht).symm))

/-- A row or an end mark that fills the packet. -/
theorem packet_effect {α : Type} {x : Exec Assertion α} {f : α → Exec Assertion α} {g : α → Packet}
    (h : (do let p ← x; let p ← f p; pure { s with packet := some (g p) }) =
      (.ok s' : Exec Assertion TwsDL)) : ∃ p d, s' = { s with dataFarms := d, packet := p } := by
  simp only [Exec.bind_eq_ok] at h
  obtain ⟨p, -, p', -, h⟩ := h
  exact ⟨_, _, (Except.ok.inj h).symm⟩

theorem onAccStatus_path {e : Event} {f : PacketAccStatus → PacketAccStatus}
    (ha : e.answerTo = some .ACC_STATUS_REQUEST) (h : s.onAccStatus f = .ok s') :
    EventPath s e s' := by
  unfold onAccStatus at h
  split at h
  · rw [← Except.ok.inj h]
    exact .ignored
  · rename_i ht
    simp only [Exec.bind_eq_ok] at h
    obtain ⟨p, -, h⟩ := h
    rw [← Except.ok.inj h]
    exact .answer (ha.trans (congrArg some (not_not.1 ht).symm))

theorem onExecutions_path {e : Event} {f : PacketExecutions → PacketExecutions}
    (ha : e.answerTo = some .EXECUTIONS_REQUEST) (h : s.onExecutions f = .ok s') :
    EventPath s e s' := by
  unfold onExecutions at h
  split at h
  · rw [← Except.ok.inj h]
    exact .ignored
  · rename_i ht
    simp only [Exec.bind_eq_ok] at h
    obtain ⟨p, -, h⟩ := h
    rw [← Except.ok.inj h]
    exact .answer (ha.trans (congrArg some (not_not.1 ht).symm))

theorem onOrders_path {e : Event} {row : TwsRow} {f : Exec Assertion TwsDL}
    (ha : e.answerTo = some .ORDERS_REQUEST) (hf : f = .ok s' → EventPath s e s')
    (h : s.onOrders row f = .ok s') : EventPath s e s' := by
  unfold onOrders at h
  split at h
  · rename_i ht
    simp only [Exec.bind_eq_ok] at h
    obtain ⟨p, -, h⟩ := h
    rw [← Except.ok.inj h]
    exact .answer (ha.trans (congrArg some ht.symm))
  · exact hf h

theorem event_path {e : Event} (h : s.handle e = .ok s') : EventPath s e s' := by
  have only_looks : ∀ {n : ℤ}, s.twsTickPrice n = .ok s' → s' = s := fun h => by
    simp only [twsTickPrice, Exec.bind_eq_ok] at h
    obtain ⟨-, -, -, -, h⟩ := h
    exact (Except.ok.inj h).symm
  cases e with
  | turn c => exact .turn h
  | error err => exact .error h
  | connectionClosed => exact .connectionClosed h
  | clock now =>
      rw [← Except.ok.inj h]
      exact .clock
  | connectAck =>
      simp only [handle, twsConnectAck] at h
      split at h
      · rw [← Except.ok.inj h]
        exact .connectAck
      · rw [← Except.ok.inj h]
        exact .ignored
  | contractDetails n cd | bondContractDetails n cd | contractDetailsEnd n =>
      exact expect_path rfl packet_effect h
  | historicalData n row =>
      refine expect_path rfl (fun h => ?_) h
      simp only [Exec.bind_eq_ok] at h
      obtain ⟨r, -, p, -, -, -, p', -, h⟩ := h
      exact ⟨_, _, (Except.ok.inj h).symm⟩
  | optParams n r | optParamsEnd n => exact expect_path rfl packet_effect h
  | updateAccountValue row | updateAccountTime t | accountDownloadEnd n =>
      exact onAccStatus_path rfl h
  | updatePortfolio row => exact onAccStatus_path rfl (twsUpdatePortfolio_eq_ok.1 h).2
  | execDetails n row | execDetailsEnd n => exact onExecutions_path rfl h
  | orderStatus row =>
      exact onOrders_path rfl (fun h => .orderStatus (onOrderStatus_changed h))
        (twsOrderStatus_eq_ok.1 h).2
  | openOrder row =>
      exact onOrders_path rfl (fun h => .openOrder (onOpenOrder_changed h))
        (twsOpenOrder_eq_ok.1 h).2
  | openOrderEnd =>
      simp only [handle, twsOpenOrderEnd] at h
      split at h
      · rw [← Except.ok.inj h]
        exact .ignored
      · rename_i ht
        simp only [Exec.bind_eq_ok] at h
        obtain ⟨p, -, h⟩ := h
        rw [← Except.ok.inj h]
        exact .answer (congrArg some (not_not.1 ht).symm)
  | currentTime time =>
      rw [← Except.ok.inj h]
      exact .currentTime
  | nextValidId n =>
      simp only [handle, nextValidId] at h
      split at h
      · rename_i hw
        rw [← Except.ok.inj h]
        exact .nextValidId hw
      · rw [← Except.ok.inj h]
        exact .ignored
  | tickPrice n | tickSize n =>
      rw [only_looks h]
      exact .ignored
  | tick n =>
      simp only [handle, twsTick, Exec.bind_eq_ok] at h
      obtain ⟨-, -, h⟩ := h
      rw [← Except.ok.inj h]
      exact .ignored

/-- The answers that are told by their kind: account, executions, orders. -/
def Unnumbered (s : TwsDL) : Prop :=
  s.currentRequest.reqType ∈
    ([.ACC_STATUS_REQUEST, .EXECUTIONS_REQUEST, .ORDERS_REQUEST] : List ReqType)

/-- An error is not about such an answer, or it ends the program. -/
theorem twsError_packet (hq : s.Unnumbered) (h : s.twsError err = .ok s') :
    s'.packet = s.packet := by
  simp only [Unnumbered, List.mem_cons, List.not_mem_nil, or_false] at hq
  simp only [twsError] at h
  split at h
  · simp only [Exec.bind_eq_ok] at h
    obtain ⟨-, -, h⟩ := h
    rw [← Except.ok.inj h]
  split at h
  · rcases hq with hq | hq | hq <;> simp [errorRequest, hq] at h
  · simp only [Exec.bind_eq_ok] at h
    obtain ⟨s₁, h₁, h⟩ := h
    obtain ⟨hp, hr⟩ : s₁.packet = s.packet ∧ s₁.currentRequest = s.currentRequest := by
      cases errorPlaceOrder_changed h₁ <;> exact ⟨rfl, rfl⟩
    split at h
    · rw [← Except.ok.inj h, hp]
    · rcases errorGeneric_effect h with ⟨b, i, d, g, rfl⟩ | ⟨hh, -⟩
      · exact hp
      · rw [hr] at hh
        rcases hq with hq | hq | hq <;> rw [hq] at hh <;> cases hh

/-- A lost connection finds such an answer complete. -/
theorem twsConnectionClosed_packet (hq : s.Unnumbered) (h : s.twsConnectionClosed = .ok s') :
    s'.packet = s.packet := by
  simp only [Unnumbered, List.mem_cons, List.not_mem_nil, or_false] at hq
  rcases hq with hq | hq | hq
  all_goals
    simp only [twsConnectionClosed, closeRequest, hq, Exec.bind_eq_ok] at h
    obtain ⟨s₁, ⟨p, -, -, -, h₁⟩, -, -, h⟩ := h
    rw [← Except.ok.inj h, ← Except.ok.inj h₁]

/-- **What is not part of such an answer leaves its packet alone.** -/
theorem handle_packet {e : Event} (hq : s.Unnumbered) (ht : ∀ c, e ≠ .turn c)
    (ha : e.answerTo ≠ some s.currentRequest.reqType) (h : s.handle e = .ok s') :
    s'.packet = s.packet := by
  cases event_path h with
  | turn => exact absurd rfl (ht _)
  | error h => exact twsError_packet hq h
  | connectionClosed h => exact (twsConnectionClosed_packet (by exact hq) h).trans rfl
  | answer hto => exact absurd hto ha
  | orderStatus h | openOrder h => cases h <;> rfl
  | _ => rfl

/-! ## A turn -/

/-- **The ways through a turn.** -/
inductive TurnPath (c : Connect) (s s' : TwsDL) : Prop
  /-- The connection is not complete. -/
  | connecting : s.state = .WAIT_TWS_CON → s.waitTwsCon = .ok s' → TurnPath c s s'
  /-- A request is open still, or the program is to quit. -/
  | waiting : s.state = .IDLE → s.waitData = .ok s' →
      (s'.quit = true ∨ s'.currentRequest.reqType ≠ .NONE) → TurnPath c s s'
  /-- The connection is lost. -/
  | reconnecting {s₁ : TwsDL} : s.state = .IDLE → s.waitData = .ok s₁ → s₁.quit = false →
      s₁.currentRequest.reqType = .NONE → s₁.connected = false → s₁.connectTws c = .ok s' →
      TurnPath c s s'
  /-- The next request is made. -/
  | working {s₁ : TwsDL} : s.state = .IDLE → s.waitData = .ok s₁ → s₁.quit = false →
      s₁.currentRequest.reqType = .NONE → s₁.connected = true → s₁.work = .ok s' →
      TurnPath c s s'

theorem turn_path {c : Connect} (h : s.turn c = .ok s') : ∃ s₁ i,
    TurnPath c { s with curIdleTime := -1 } s₁ ∧ s' = { s₁ with curIdleTime := i } := by
  simp only [turn, Exec.bind_eq_ok] at h
  obtain ⟨s₁, h₁, h⟩ := h
  have hpath : TurnPath c { s with curIdleTime := -1 } s₁ := by
    split at h₁
    · rename_i hst
      exact .connecting hst h₁
    · rename_i hst
      simp only [idle, Exec.bind_eq_ok] at h₁
      obtain ⟨s₂, h₂, h₁⟩ := h₁
      split at h₁
      · rename_i hq
        obtain rfl := Except.ok.inj h₁
        exact .waiting hst h₂ hq
      · rename_i hq
        obtain ⟨hquit, hn⟩ := not_or.1 hq
        split at h₁
        · rename_i hc
          exact .reconnecting hst h₂ (by simpa using hquit) (not_not.1 hn) hc h₁
        · rename_i hc
          exact .working hst h₂ (by simpa using hquit) (not_not.1 hn) (by simpa using hc) h₁
  rw [← Except.ok.inj h]
  split
  · exact ⟨s₁, 50, hpath, rfl⟩
  · exact ⟨s₁, s₁.curIdleTime, hpath, rfl⟩

end TwsDL

end Twstools
