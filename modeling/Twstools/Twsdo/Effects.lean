import Twstools.Twsdo.Loop
/-!
# What the functions of the program change

Most functions change a few members of the program and leave all others.
Each lemma gives the program after its function, so that what it does to a
request, to an order or to the connection is read off one equation.
-/

namespace Twstools

namespace TwsDL

variable {s s' : TwsDL} {id n : ℤ} {err : RowError}

/-! ## The request and its packet -/

theorem eq_of_changeState {t : State} (h : s.changeState t = .ok s') :
    s' = { s with state := t } := by
  simp only [changeState, Exec.bind_eq_ok] at h
  obtain ⟨-, -, h⟩ := h
  exact (Except.ok.inj h).symm

theorem eq_of_nextRequest {t : ReqType} (h : s.nextRequest t = .ok s') :
    s' = { s with currentRequest := ⟨t, s.currentRequest.reqId + 1, s.now⟩ } := by
  simp only [nextRequest, Exec.bind_eq_ok, GenericRequest.nextRequest_eq_ok] at h
  obtain ⟨q, ⟨-, rfl⟩, h⟩ := h
  exact (Except.ok.inj h).symm

theorem eq_of_closePacket {e : ReqErr} (h : s.closePacket e = .ok s') :
    ∃ p p', s.packet = some p ∧ p.closeError e = .ok p' ∧ s' = { s with packet := some p' } := by
  simp only [closePacket, Exec.bind_eq_ok, Exec.deref_eq_ok] at h
  obtain ⟨p, hp, p', hp', h⟩ := h
  exact ⟨p, p', hp, hp', (Except.ok.inj h).symm⟩

/-- **A request is put off, or takes the next number**, if the rate limit
lets it pass. It leaves the orders and the tickers that wait. -/
theorem request_effect {t : ReqType} (ht : t ≠ .NONE) (h : s.request t = .ok s') :
    ∃ r i c o H g, s' = { s with
        rate_limit := r, curIdleTime := i, pacingControl := g
        workTodo := { s.workTodo with
          contractDetailsTodo := c, optParamsTodo := o, histTodo := H } } ∨
      (t = .CONTRACT_DETAILS_REQUEST ∨ t = .OPT_PARAMS_REQUEST → (s.canSend 1).2 = true) ∧
        ∃ p out, s' = { s with
          rate_limit := r, curIdleTime := i, pacingControl := g
          workTodo := { s.workTodo with
            contractDetailsTodo := c, optParamsTodo := o, histTodo := H }
          currentRequest := ⟨t, s.currentRequest.reqId + 1, s.now⟩, packet := p, out := out } := by
  cases t with
  | NONE => exact absurd rfl ht
  | CONTRACT_DETAILS_REQUEST =>
      simp only [request, reqContractDetails] at h
      split at h
      · rename_i hok
        simp only [Exec.bind_eq_ok] at h
        obtain ⟨todo, -, r, -, s₁, h₁, p, -, h⟩ := h
        obtain rfl := eq_of_nextRequest h₁
        exact ⟨_, _, _, _, _, _, .inr ⟨fun _ => hok, _, _, (Except.ok.inj h).symm⟩⟩
      · exact ⟨_, _, _, _, _, _, .inl (Except.ok.inj h).symm⟩
  | OPT_PARAMS_REQUEST =>
      simp only [request, reqOptParams] at h
      split at h
      · rename_i hok
        simp only [Exec.bind_eq_ok] at h
        obtain ⟨todo, -, r, -, s₁, h₁, p, -, h⟩ := h
        obtain rfl := eq_of_nextRequest h₁
        exact ⟨_, _, _, _, _, _, .inr ⟨fun _ => hok, _, _, (Except.ok.inj h).symm⟩⟩
      · exact ⟨_, _, _, _, _, _, .inl (Except.ok.inj h).symm⟩
  | HIST_REQUEST =>
      simp only [request, reqHistoricalData, Exec.bind_eq_ok] at h
      obtain ⟨-, -, ⟨hT, pG, wait⟩, -, h⟩ := h
      split at h
      · exact ⟨_, _, _, _, _, _, .inl (Except.ok.inj h).symm⟩
      · simp only [Exec.bind_eq_ok] at h
        obtain ⟨s₁, h₁, hR, -, pG', -, p, -, h⟩ := h
        obtain rfl := eq_of_nextRequest h₁
        exact ⟨_, _, _, _, _, _, .inr ⟨by simp, _, _, (Except.ok.inj h).symm⟩⟩
  | ACC_STATUS_REQUEST | EXECUTIONS_REQUEST | ORDERS_REQUEST =>
      simp only [request, reqAccStatus, reqExecutions, reqOrders, Exec.bind_eq_ok] at h
      obtain ⟨s₁, h₁, p, -, h⟩ := h
      obtain rfl := eq_of_nextRequest h₁
      exact ⟨_, _, _, _, _, _, .inr ⟨by simp, _, _, (Except.ok.inj h).symm⟩⟩

/-! ## Orders -/

/-- At most the packet of one order is changed. One that has been recording
has been so afterwards. -/
inductive OrderChanged (s : TwsDL) (id : ℤ) : TwsDL → Prop
  | none : OrderChanged s id s
  | live {p p' : PacketPlaceOrder} : s.p_orders[id]? = some p →
      (p.mode ≠ .CLEAN → p'.mode ≠ .CLEAN) →
      OrderChanged s id { s with p_orders := s.p_orders.insert id p' }
  | old {p p' : PacketPlaceOrder} : s.p_orders_old[id]? = some p →
      OrderChanged s id { s with p_orders_old := s.p_orders_old.insert id p' }

theorem errorPlaceOrder_changed (h : s.errorPlaceOrder err = .ok s') :
    s.OrderChanged err.id s' := by
  unfold errorPlaceOrder at h
  split at h
  · rename_i p hp
    simp only [Exec.bind_eq_ok] at h
    obtain ⟨-, -, p', hp', h⟩ := h
    rw [← Except.ok.inj h]
    refine .live hp fun hm => ?_
    split at hp'
    · rw [← Except.ok.inj hp']
      exact hm
    · rcases PacketPlaceOrder.closeError_eq_ok hp' with ⟨-, rfl⟩ | ⟨-, rfl⟩
      · exact Mode.noConfusion
      · exact hm
  · rename_i p hp
    simp only [Exec.bind_eq_ok] at h
    obtain ⟨-, -, h⟩ := h
    rw [← Except.ok.inj h]
    exact .old hp
  · rw [← Except.ok.inj h]
    exact .none

theorem onOrder_changed {x y : Assertion} {f : PacketPlaceOrder → Exec Assertion PacketPlaceOrder}
    (hf : ∀ p p', f p = .ok p' → p.mode ≠ .CLEAN → p'.mode ≠ .CLEAN)
    (h : s.onOrder x y n f = .ok s') : s.OrderChanged n s' := by
  unfold onOrder at h
  split at h
  · rename_i p hp
    simp only [Exec.bind_eq_ok] at h
    obtain ⟨-, -, p', hp', h⟩ := h
    rw [← Except.ok.inj h]
    exact .live hp (hf p p' hp')
  · rename_i p hp
    simp only [Exec.bind_eq_ok] at h
    obtain ⟨-, -, p', -, h⟩ := h
    rw [← Except.ok.inj h]
    exact .old hp
  · rw [← Except.ok.inj h]
    exact .none

theorem onOrderStatus_changed {x y : Assertion} {row : RowOrderStatus}
    (h : s.onOrder x y n (fun p => pure (p.appendOrderStatus row)) = .ok s') :
    s.OrderChanged n s' :=
  onOrder_changed (fun p p' hp hm => by
    rw [← Except.ok.inj hp]
    exact PacketPlaceOrder.appendOrderStatus_recorded hm) h

theorem onOpenOrder_changed {x y : Assertion} {row : RowOpenOrder}
    (h : s.onOrder x y n (fun p => p.appendOpenOrder row) = .ok s') : s.OrderChanged n s' :=
  onOrder_changed (fun _ _ hp hm => PacketPlaceOrder.appendOpenOrder_recorded hp hm) h

/-- An iteration of `finPlaceOrder` changes the orders, and what is written. -/
theorem finOrder_frame {p : PacketPlaceOrder} {b : Bool} (h : s.finOrder id p = .ok (s', b)) :
    s' = { s with p_orders := s'.p_orders, p_orders_old := s'.p_orders_old, out := s'.out } := by
  simp only [finOrder, Exec.bind_eq_ok] at h
  obtain ⟨r, -, -, -, h⟩ := h
  split at h
  · simp only [Exec.bind_eq_ok] at h
    obtain ⟨p', -, h⟩ := h
    split at h
    iterate 3
      · simp only [Exec.bind_eq_ok] at h
        obtain ⟨-, -, h⟩ := h
        rw [← (Prod.mk.inj (Except.ok.inj h)).1]
        rfl
    all_goals rw [← (Prod.mk.inj (Except.ok.inj h)).1]
  · rw [← (Prod.mk.inj (Except.ok.inj h)).1]

/-- Finishing orders moves orders, and writes them. -/
theorem finOrders_frame : ∀ (l : List (ℤ × PacketPlaceOrder)) {s : TwsDL} {ok b : Bool},
    finOrders l (s, ok) = .ok (s', b) → s' = { s with
      p_orders := s'.p_orders
      p_orders_old := s'.p_orders_old
      out := s'.out }
  | [], _, _, _, h => by rw [← (Prod.mk.inj (Except.ok.inj h)).1]
  | (id, p) :: l, s, ok, _, h => by
      simp only [finOrders, Exec.bind_eq_ok] at h
      obtain ⟨⟨s₁, ok'⟩, h₁, h⟩ := h
      have hl := finOrders_frame l h
      rw [finOrder_frame h₁] at hl
      exact hl

theorem placeOrder_effect (h : s.placeOrder = .ok s') : ∃ todo live id out, s' = { s with
    workTodo := { s.workTodo with placeOrderTodo := todo }
    p_orders := live, tws_valid_orderId := id, out := out } := by
  simp only [placeOrder, Exec.bind_eq_ok] at h
  obtain ⟨todo, -, pO, -, ⟨s₁, id⟩, h₁, s₂, h₂, h⟩ := h
  have hid : ∃ n, s₁ = { s with
      workTodo := { s.workTodo with placeOrderTodo := todo }, tws_valid_orderId := n } := by
    simp only [orderIdOf, fetchIncOrderId] at h₁
    split at h₁
    · split at h₁
      · exact ⟨_, (Prod.mk.inj (Except.ok.inj h₁)).1.symm⟩
      · cases h₁
    · exact ⟨_, (Prod.mk.inj (Except.ok.inj h₁)).1.symm⟩
  obtain ⟨n, rfl⟩ := hid
  simp only [recordOrder, Exec.bind_eq_ok] at h₂
  obtain ⟨p, -, h₂⟩ := h₂
  rw [← Except.ok.inj h, ← Except.ok.inj h₂]
  unfold sendOrder
  split
  · exact ⟨_, _, _, _, rfl⟩
  · exact ⟨_, _, _, _, rfl⟩

/-- **`placeAllOrders`** changes the orders and the limiter. -/
theorem placeOrders_effect : ∀ (k : ℕ) {s : TwsDL}, placeOrders k s = .ok s' →
    ∃ r todo live id out, s' = { s with
      rate_limit := r, workTodo := { s.workTodo with placeOrderTodo := todo }
      p_orders := live, tws_valid_orderId := id, out := out }
  | 0, s, h => ⟨_, _, _, _, _, (Except.ok.inj h).symm⟩
  | k + 1, s, h => by
      simp only [placeOrders] at h
      split at h
      · split at h
        · simp only [Exec.bind_eq_ok] at h
          obtain ⟨s₁, h₁, h⟩ := h
          obtain ⟨todo, live, id, out, rfl⟩ := placeOrder_effect h₁
          obtain ⟨r, todo, live, id, out, rfl⟩ := placeOrders_effect k h
          exact ⟨_, _, _, _, _, rfl⟩
        · exact ⟨_, _, _, _, _, (Except.ok.inj h).symm⟩
      · exact ⟨_, _, _, _, _, (Except.ok.inj h).symm⟩

/-! ## Errors about the request -/

/-- **What an error leaves behind**, besides orders: the packet of the
request, the historical jobs left, and what is known of the farms. -/
def Learns (s s' : TwsDL) : Prop :=
  ∃ H b i d g p, s' = { s with
    workTodo := { s.workTodo with histTodo := H }
    connectivity_IB_TWS := b, curIdleTime := i, dataFarms := d, pacingControl := g, packet := p }

theorem Learns.refl (s : TwsDL) : s.Learns s := ⟨_, _, _, _, _, _, rfl⟩

theorem learns_of_closePacket {e : ReqErr} (h : s.closePacket e = .ok s') : s.Learns s' := by
  obtain ⟨p, p', -, -, rfl⟩ := eq_of_closePacket h
  exact ⟨_, _, _, _, _, _, rfl⟩

/-- The request is skipped with others, and not counted. -/
theorem learns_of_skip {e : ReqErr} {s₁ : TwsDL} {H : HistTodo} {c : Contract}
    (h₁ : s.closePacket e = .ok s₁) (h : (s₁.setHist H).removeLastRequest c = .ok s') :
    s.Learns s' := by
  obtain ⟨p, p', -, -, rfl⟩ := eq_of_closePacket h₁
  simp only [removeLastRequest, Exec.bind_eq_ok] at h
  obtain ⟨g, -, h⟩ := h
  exact ⟨_, _, _, _, _, _, (Except.ok.inj h).symm⟩

theorem errorHistService_effect {r : HistRequest} (h : s.errorHistService err r = .ok s') :
    s.Learns s' := by
  simp only [errorHistService] at h
  split at h
  · simp only [Exec.bind_eq_ok] at h
    obtain ⟨s₁, h₁, g, -, h⟩ := h
    obtain ⟨p, p', -, -, rfl⟩ := eq_of_closePacket h₁
    exact ⟨_, _, _, _, _, _, (Except.ok.inj h).symm⟩
  split at h
  · exact learns_of_closePacket (s := s.learnHmds _) h
  split at h
  · exact learns_of_closePacket (s := s.learnHmds _) h
  split at h
  · simp only [Exec.bind_eq_ok] at h
    obtain ⟨s₁, h₁, h⟩ := h
    exact learns_of_skip h₁ h
  split at h
  · simp only [Exec.bind_eq_ok] at h
    obtain ⟨s₁, h₁, h⟩ := h
    exact learns_of_skip (s := s.learnHmds _) h₁ h
  split at h
  · exact learns_of_closePacket (s := s.learnHmds _) h
  · exact Except.ok.inj h ▸ .refl s

theorem errorHistServer_effect {c : Contract} (h : s.errorHistServer err c = .ok s') :
    s.Learns s' := by
  unfold errorHistServer at h
  split at h
  · exact ⟨_, _, _, _, _, _, (Except.ok.inj h).symm⟩
  split at h
  · simp only [Exec.bind_eq_ok] at h
    obtain ⟨d, -, h⟩ := h
    exact ⟨_, _, _, _, _, _, (Except.ok.inj h).symm⟩
  · exact Except.ok.inj h ▸ .refl s

theorem errorHistData_effect (h : s.errorHistData err = .ok s') : s.Learns s' := by
  simp only [errorHistData, Exec.bind_eq_ok] at h
  obtain ⟨r, -, p, -, h⟩ := h
  split at h
  · exact errorHistService_effect h
  split at h
  · exact errorHistServer_effect h
  split at h
  · exact learns_of_closePacket h
  split at h
  · exact learns_of_closePacket h
  · exact Except.ok.inj h ▸ .refl s

theorem errorContracts_effect (h : s.errorContracts err = .ok s') : s.Learns s' := by
  unfold errorContracts at h
  split at h
  · exact learns_of_closePacket h
  split at h
  · exact learns_of_closePacket h
  · exact Except.ok.inj h ▸ .refl s

theorem errorRequest_effect (h : s.errorRequest err = .ok s') : s.Learns s' := by
  unfold errorRequest at h
  split at h
  · exact errorContracts_effect h
  · exact errorContracts_effect h
  · exact errorHistData_effect h
  case h_7 => exact Except.ok.inj h ▸ .refl s
  all_goals
    simp only [Exec.bind_eq_ok] at h
    obtain ⟨-, -, h⟩ := h
    exact Except.ok.inj h ▸ .refl s

/-- **A message about no request** may close a historical packet, and else
is about the connection and the farms only. -/
theorem errorGeneric_effect (h : s.errorGeneric err = .ok s') :
    (∃ b i d g, s' = { s with
        connectivity_IB_TWS := b, curIdleTime := i, dataFarms := d, pacingControl := g }) ∨
      s.currentRequest.reqType = .HIST_REQUEST ∧
        ({ s with connectivity_IB_TWS := true } : TwsDL).closePacket .TWSCON = .ok s' := by
  simp only [errorGeneric] at h
  split at h
  · simp only [Exec.bind_eq_ok] at h
    obtain ⟨-, -, -, -, h⟩ := h
    exact .inl ⟨_, _, _, _, (Except.ok.inj h).symm⟩
  split at h
  · simp only [Exec.bind_eq_ok] at h
    obtain ⟨-, -, -, -, h⟩ := h
    split at h
    · rename_i hq
      exact .inr ⟨hq, h⟩
    · exact .inl ⟨_, _, _, _, (Except.ok.inj h).symm⟩
  split at h
  · simp only [Exec.bind_eq_ok] at h
    obtain ⟨-, -, h⟩ := h
    exact .inl ⟨_, _, _, _, (Except.ok.inj h).symm⟩
  split at h
  · simp only [Exec.bind_eq_ok] at h
    obtain ⟨d, -, h⟩ := h
    exact .inl ⟨_, _, _, _, (Except.ok.inj h).symm⟩
  split at h
  · simp only [Exec.bind_eq_ok] at h
    obtain ⟨-, -, -, -, h⟩ := h
    exact .inl ⟨_, _, _, _, (Except.ok.inj h).symm⟩
  · exact .inl ⟨_, _, _, _, (Except.ok.inj h).symm⟩

theorem learns_of_errorGeneric (h : s.errorGeneric err = .ok s') : s.Learns s' := by
  rcases errorGeneric_effect h with ⟨b, i, d, g, rfl⟩ | ⟨-, h⟩
  · exact ⟨_, _, _, _, _, _, rfl⟩
  · exact learns_of_closePacket (s := { s with connectivity_IB_TWS := true }) h

/-- **An error** changes the packet of an order at most, and tells about the
request or about TWS. -/
theorem twsError_effect (h : s.twsError err = .ok s') : ∃ s₁,
    ({ s with msgCounter := s.msgCounter + 1 } : TwsDL).OrderChanged err.id s₁ ∧
      s₁.Learns s' := by
  simp only [twsError] at h
  split at h
  · simp only [Exec.bind_eq_ok] at h
    obtain ⟨-, -, h⟩ := h
    exact ⟨_, .none, Except.ok.inj h ▸ .refl _⟩
  split at h
  · exact ⟨_, .none, errorRequest_effect h⟩
  · simp only [Exec.bind_eq_ok] at h
    obtain ⟨s₁, h₁, h⟩ := h
    refine ⟨s₁, errorPlaceOrder_changed h₁, ?_⟩
    split at h
    · exact Except.ok.inj h ▸ .refl s₁
    · exact learns_of_errorGeneric h

/-! ## The connection -/

theorem closeRequest_effect (h : s.closeRequest = .ok s') : ∃ p, s' = { s with packet := p } := by
  unfold closeRequest at h
  split at h
  · exact ⟨_, (Except.ok.inj h).symm⟩
  all_goals
    simp only [Exec.bind_eq_ok] at h
    obtain ⟨p, -, h⟩ := h
    first
    | split at h
      · exact ⟨_, (Except.ok.inj h).symm⟩
      · obtain ⟨p, p', -, -, rfl⟩ := eq_of_closePacket h
        exact ⟨_, rfl⟩
    | obtain ⟨-, -, h⟩ := h
      exact ⟨_, (Except.ok.inj h).symm⟩

/-- What is left of a connection: nothing is known of the farms. -/
def afterLoss (s : TwsDL) (p : Option Packet) : TwsDL :=
  { s with
    connectivity_IB_TWS := false, dataFarms := s.dataFarms.setAllBroken
    pacingControl := s.pacingControl.clear s.dataFarms.setAllBroken s.now
    lastConnectionTime := s.now, packet := p }

/-- **A lost connection** is noted when no order is live. -/
theorem twsConnectionClosed_effect (h : s.twsConnectionClosed = .ok s') :
    s.p_orders.isEmpty = true ∧ ∃ p, s' = s.afterLoss p := by
  simp only [twsConnectionClosed, Exec.bind_eq_ok] at h
  obtain ⟨s₁, h₁, u, he, h⟩ := h
  obtain ⟨p, rfl⟩ := closeRequest_effect h₁
  exact ⟨Exec.ensure_eq_ok.1 he, p, (Except.ok.inj h).symm⟩

/-- `disconnectTWS` does nothing where there is no connection. -/
theorem disconnectTWS_effect (h : s.disconnectTWS = .ok s') : s' = s ∨
    s.p_orders.isEmpty = true ∧ ∃ p,
      s' = ({ s with connected := false, out := s.out ++ [.eDisconnect] } : TwsDL).afterLoss p := by
  unfold disconnectTWS at h
  split at h
  · exact .inr (twsConnectionClosed_effect h)
  · exact .inl (Except.ok.inj h).symm

theorem askTime_effect (s : TwsDL) :
    ∃ hb r out, s.askTime = { s with tws_hb := hb, rate_limit := r, out := out } := by
  unfold askTime
  split
  · dsimp only
    split
    · exact ⟨_, _, _, rfl⟩
    · exact ⟨_, _, _, rfl⟩
  · exact ⟨_, _, _, rfl⟩

/-- **`waitTwsCon`** asks for the time, and the connection becomes complete
or is given up. -/
theorem waitTwsCon_effect (h : s.waitTwsCon = .ok s') : ∃ hb r out,
    (∃ st i, s' = { s with
      state := st, curIdleTime := i, tws_hb := hb, rate_limit := r, out := out }) ∨
    s.p_orders.isEmpty = true ∧ ∃ p, s' = ({ s with
      connected := false, tws_hb := hb, rate_limit := r, out := out } : TwsDL).afterLoss p := by
  obtain ⟨hb, r, out, ha⟩ := askTime_effect s
  simp only [waitTwsCon, ha] at h
  split at h
  · split at h
    · obtain rfl := eq_of_changeState h
      exact ⟨_, _, _, .inl ⟨_, _, rfl⟩⟩
    split at h
    · exact ⟨_, _, _, .inl ⟨_, _, (Except.ok.inj h).symm⟩⟩
    · rcases disconnectTWS_effect h with rfl | ⟨he, p, rfl⟩
      · exact ⟨_, _, _, .inl ⟨_, _, rfl⟩⟩
      · exact ⟨_, _, _, .inr ⟨he, p, rfl⟩⟩
  · obtain rfl := eq_of_changeState h
    exact ⟨_, _, _, .inl ⟨_, _, rfl⟩⟩

/-- Errors while there is no connection are not about a request. -/
theorem twsError_of_not_connected (hc : s.connected = false) (h : s.twsError err = .ok s') :
    s' = { s with msgCounter := s.msgCounter + 1 } := by
  unfold twsError at h
  rw [if_pos hc] at h
  simp only [Exec.bind_eq_ok] at h
  obtain ⟨-, -, h⟩ := h
  exact (Except.ok.inj h).symm

theorem foldlM_twsError (errs : List RowError) :
    ∀ {s : TwsDL}, s.connected = false → errs.foldlM twsError s = .ok s' →
      ∃ n, s' = { s with msgCounter := n } := by
  induction errs with
  | nil => exact fun {s} _ h => ⟨s.msgCounter, (Except.ok.inj h).symm⟩
  | cons err errs ih =>
      intro s hc h
      simp only [List.foldlM_cons, Exec.bind_eq_ok] at h
      obtain ⟨s₁, h₁, h⟩ := h
      obtain rfl := twsError_of_not_connected hc h₁
      exact ih (s := { s with msgCounter := s.msgCounter + 1 }) hc h

/-- **Connecting** is put off, or it fails, or the program waits for TWS
from now on. -/
theorem connectTws_effect {c : Connect} (h : s.connectTws c = .ok s') :
    (∃ i, s' = { s with curIdleTime := i }) ∨
      ∃ n b st, (st = .IDLE ∨ st = .WAIT_TWS_CON ∧ c.connected = true) ∧ s' = { s with
        lastConnectionTime := s.now, state := st, tws_hb := {}, msgCounter := n
        connected := c.connected, connectivity_IB_TWS := b } := by
  simp only [connectTws, Exec.bind_eq_ok] at h
  obtain ⟨u, hu, h⟩ := h
  have hc : s.connected = false := (Exec.ensure_eq_ok.1 hu).1
  split at h
  · exact .inl ⟨_, (Except.ok.inj h).symm⟩
  · simp only [Exec.bind_eq_ok] at h
    obtain ⟨s₁, h₁, s₂, h₂, u, hu, h⟩ := h
    obtain rfl := eq_of_changeState h₁
    obtain ⟨k, rfl⟩ := foldlM_twsError c.errors (by exact hc) h₂
    have hcon : c.con = c.connected := Exec.ensure_eq_ok.1 hu
    refine .inr ?_
    split at h
    · exact ⟨_, _, _, .inl rfl, eq_of_changeState h⟩
    · rename_i hcf
      have hct : c.connected = true := by
        rw [← hcon]
        simpa using hcf
      split at h
      · exact ⟨_, _, _, .inr ⟨rfl, hct⟩, (Except.ok.inj h).symm⟩
      · exact ⟨_, _, _, .inr ⟨rfl, hct⟩, (Except.ok.inj h).symm⟩

/-! ## Finishing a request -/

/-- `finContracts` and `finOptParams`: they differ in how the job is put
back. -/
def finAnswer (s : TwsDL) (again : Exec Assertion (TwsDL × Bool)) :
    Exec Assertion (TwsDL × Bool) := do
  let p ← deref s.packet
  match p.getError with
  | .NONE => do
      let s ← s.dumpPacket
      pure (s, true)
  | .NODATA | .NAV | .REQUEST | .TIMEOUT => pure (s, true)
  | .TWSCON => again

theorem finContracts_eq : s.finContracts = s.finAnswer (do
    let conTodo ← s.workTodo.contractDetailsTodo.repeat
    pure ({ s with
      workTodo := { s.workTodo with contractDetailsTodo := conTodo } }, true)) := rfl

theorem finOptParams_eq : s.finOptParams = s.finAnswer (do
    let opTodo ← s.workTodo.optParamsTodo.repeat
    pure ({ s with workTodo := { s.workTodo with optParamsTodo := opTodo } }, true)) := rfl

/-- **An answer is written, or given up, or its job is put back.** -/
theorem finAnswer_cases {again : Exec Assertion (TwsDL × Bool)} {r : TwsDL × Bool}
    (h : s.finAnswer again = .ok r) : ∃ p, s.packet = some p ∧
      (p.getError = .NONE ∧ (∃ s₁, s.dumpPacket = .ok s₁ ∧ r = (s₁, true)) ∨
        p.getError ≠ .NONE ∧ p.getError ≠ .TWSCON ∧ r = (s, true) ∨
        p.getError = .TWSCON ∧ again = .ok r) := by
  simp only [finAnswer, Exec.bind_eq_ok, Exec.deref_eq_ok] at h
  obtain ⟨p, hp, h⟩ := h
  refine ⟨p, hp, ?_⟩
  cases he : p.getError with
  | NONE =>
      simp only [he, Exec.bind_eq_ok] at h
      obtain ⟨s₁, h₁, h⟩ := h
      exact .inl ⟨rfl, s₁, h₁, (Except.ok.inj h).symm⟩
  | TWSCON =>
      simp only [he] at h
      exact .inr (.inr ⟨rfl, h⟩)
  | _ =>
      simp only [he] at h
      exact .inr (.inl ⟨by decide, by decide, (Except.ok.inj h).symm⟩)

/-- **What finishing a request changes**: the todo lists, and what is
written. -/
def Finishes (s s' : TwsDL) : Prop :=
  ∃ c o H out, s' = { s with
    workTodo := { s.workTodo with contractDetailsTodo := c, optParamsTodo := o, histTodo := H }
    out := out }

theorem dumpPacket_effect (h : s.dumpPacket = .ok s') : ∃ out, s' = { s with out := out } := by
  simp only [dumpPacket, Exec.bind_eq_ok] at h
  obtain ⟨p, -, h⟩ := h
  exact ⟨_, (Except.ok.inj h).symm⟩

theorem finishes_of_dumpPacket (h : s.dumpPacket = .ok s') : s.Finishes s' := by
  obtain ⟨out, ho⟩ := dumpPacket_effect h
  exact ⟨_, _, _, out, ho⟩

theorem finAnswer_effect {again : Exec Assertion (TwsDL × Bool)} {b : Bool}
    (hagain : again = .ok (s', b) → s.Finishes s') (h : s.finAnswer again = .ok (s', b)) :
    s.Finishes s' := by
  obtain ⟨p, -, ⟨-, s₁, h₁, hr⟩ | ⟨-, -, hr⟩ | ⟨-, ha⟩⟩ := finAnswer_cases h
  · rw [(Prod.mk.inj hr).1]
    exact finishes_of_dumpPacket h₁
  · exact ⟨_, _, _, _, (Prod.mk.inj hr).1⟩
  · exact hagain ha

theorem finHist_effect {b : Bool} (h : s.finHist = .ok (s', b)) : s.Finishes s' := by
  simp only [finHist, Exec.bind_eq_ok] at h
  obtain ⟨p, -, h⟩ := h
  split at h
  · simp only [Exec.bind_eq_ok] at h
    obtain ⟨s₁, h₁, hT, -, h⟩ := h
    obtain ⟨out, rfl⟩ := dumpPacket_effect h₁
    exact ⟨_, _, hT, out, (Prod.mk.inj (Except.ok.inj h)).1.symm⟩
  all_goals
    simp only [Exec.bind_eq_ok] at h
    obtain ⟨hT, -, h⟩ := h
    exact ⟨_, _, hT, _, (Prod.mk.inj (Except.ok.inj h)).1.symm⟩

theorem finRequest_effect {b : Bool} (h : s.finRequest = .ok (s', b)) : s.Finishes s' := by
  unfold finRequest at h
  split at h
  · rw [finOptParams_eq] at h
    refine finAnswer_effect (fun ha => ?_) h
    simp only [Exec.bind_eq_ok] at ha
    obtain ⟨todo, -, ha⟩ := ha
    exact ⟨_, todo, _, _, (Prod.mk.inj (Except.ok.inj ha)).1.symm⟩
  · rw [finContracts_eq] at h
    refine finAnswer_effect (fun ha => ?_) h
    simp only [Exec.bind_eq_ok] at ha
    obtain ⟨todo, -, ha⟩ := ha
    exact ⟨todo, _, _, _, (Prod.mk.inj (Except.ok.inj ha)).1.symm⟩
  · exact finHist_effect h
  case h_7 =>
    simp only [Exec.bind_eq_ok] at h
    obtain ⟨u, -, h⟩ := h
    exact ⟨_, _, _, _, (Prod.mk.inj (Except.ok.inj h)).1.symm⟩
  all_goals
    simp only [Exec.bind_eq_ok] at h
    obtain ⟨s₁, h₁, h⟩ := h
    rw [← (Prod.mk.inj (Except.ok.inj h)).1]
    exact finishes_of_dumpPacket h₁

/-- The packet is gone, and the request closed. -/
theorem finPacket_effect (h : s.finPacket = .ok s') :
    ∃ c o H out error lastError quit, s' = { s with
      workTodo := { s.workTodo with contractDetailsTodo := c, optParamsTodo := o, histTodo := H }
      out := out, error := error, lastError := lastError, quit := quit
      packet := none, currentRequest := s.currentRequest.close } := by
  simp only [finPacket, Exec.bind_eq_ok] at h
  obtain ⟨⟨s₁, ok⟩, h₁, p, -, h⟩ := h
  obtain ⟨c, o, H, out, rfl⟩ := finRequest_effect h₁
  rw [← Except.ok.inj h]
  cases ok with
  | true => exact ⟨c, o, H, _, _, _, _, rfl⟩
  | false => exact ⟨c, o, H, _, _, _, _, rfl⟩

/-- The request is over, or it is not. -/
theorem waitPacket_effect (h : s.waitPacket = .ok s') :
    s' = s ∨ ∃ c o H out error lastError quit, s' = { s with
      workTodo := { s.workTodo with contractDetailsTodo := c, optParamsTodo := o, histTodo := H }
      out := out, error := error, lastError := lastError, quit := quit
      packet := none, currentRequest := s.currentRequest.close } := by
  simp only [waitPacket] at h
  split at h
  · exact .inl (Except.ok.inj h).symm
  split at h
  · exact .inl (Except.ok.inj h).symm
  split at h
  · exact .inr (finPacket_effect h)
  split at h
  · exact .inl (Except.ok.inj h).symm
  · simp only [Exec.bind_eq_ok] at h
    obtain ⟨s₁, h₁, h⟩ := h
    obtain ⟨p, p', -, -, rfl⟩ := eq_of_closePacket h₁
    obtain ⟨c, o, H, out, error, lastError, quit, rfl⟩ := finPacket_effect h
    exact .inr ⟨_, _, _, _, _, _, _, rfl⟩

/-- **`waitData`** finishes orders and the request. -/
theorem waitData_effect (h : s.waitData = .ok s') :
    ∃ live old c o H out error lastError quit packet request, s' = { s with
      p_orders := live, p_orders_old := old
      workTodo := { s.workTodo with contractDetailsTodo := c, optParamsTodo := o, histTodo := H }
      out := out, error := error, lastError := lastError, quit := quit
      packet := packet, currentRequest := request } := by
  simp only [waitData, Exec.bind_eq_ok] at h
  obtain ⟨⟨s₁, b⟩, h₁, h⟩ := h
  have hf := finOrders_frame _ h₁
  generalize s₁.p_orders = live, s₁.p_orders_old = old, s₁.out = out at hf
  subst hf
  rcases waitPacket_effect h with rfl | ⟨c, o, H, out, error, lastError, quit, rfl⟩
  · exact ⟨_, _, _, _, _, _, _, _, _, _, _, rfl⟩
  · exact ⟨_, _, _, _, _, _, _, _, _, _, _, rfl⟩

/-! ## Working -/

theorem startMktData_effect (h : s.startMktData = .ok s') :
    ∃ quotes fuckme out, s' = { s with quotes := quotes, fuckme := fuckme, out := out } := by
  unfold startMktData at h
  split at h
  · simp only [reqMktData, Exec.bind_eq_ok] at h
    obtain ⟨-, -, h⟩ := h
    exact ⟨_, _, _, (Except.ok.inj h).symm⟩
  · exact ⟨_, _, _, (Except.ok.inj h).symm⟩

theorem checkDone_effect (s : TwsDL) (t : ReqType) :
    ∃ lastError quit, s.checkDone t = { s with lastError := lastError, quit := quit } := by
  unfold checkDone
  split
  · exact ⟨_, _, rfl⟩
  · exact ⟨_, _, rfl⟩

/-- **The rest of a turn**: the tickers, and a request or orders. -/
theorem work_effect (h : s.work = .ok s') :
    ∃ quotes fuckme todo r i g request packet live id out lastError quit, s' = { s with
      quotes := quotes, fuckme := fuckme, workTodo := todo, rate_limit := r, curIdleTime := i
      pacingControl := g, currentRequest := request, packet := packet, p_orders := live
      tws_valid_orderId := id, out := out, lastError := lastError, quit := quit } := by
  simp only [work, Exec.bind_eq_ok] at h
  obtain ⟨s₁, h₁, s₂, h₂, h⟩ := h
  obtain ⟨quotes, fuckme, out, rfl⟩ := startMktData_effect h₁
  obtain ⟨lastError, quit, hd⟩ := checkDone_effect s₂ _
  rw [← Except.ok.inj h, hd]
  generalize WorkTodo.nextReqType _ = next at h₂
  obtain ⟨todo, t⟩ := next
  by_cases ht : t = .NONE
  · subst ht
    obtain ⟨r, todo, live, id, out, rfl⟩ := placeOrders_effect _ h₂
    exact ⟨_, _, _, _, _, _, _, _, _, _, _, _, _, rfl⟩
  · obtain ⟨r, i, c, o, H, g, rfl | ⟨-, p, out, rfl⟩⟩ := request_effect ht h₂
    · exact ⟨_, _, _, _, _, _, _, _, _, _, _, _, _, rfl⟩
    · exact ⟨_, _, _, _, _, _, _, _, _, _, _, _, _, rfl⟩

end TwsDL

end Twstools
