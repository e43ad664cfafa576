import Twstools.Jobs.Turns
/-!
# What a call of TWS does to a request

A callback changes the packet of the request it belongs to, an error or a
lost connection may close it, and all others leave it alone.
-/

namespace Twstools

open Std

theorem HistTodo.skipped_nodata (h : HistTodo) (hr : HistRequest) :
    h.Skipped (h.skipByNodata hr) := by
  unfold skipByNodata
  exact .skip _ _

theorem HistTodo.skipped_perm (h : HistTodo) (con : Contract) : h.Skipped (h.skipByPerm con) := by
  unfold skipByPerm
  exact .skip _ _

namespace TwsDL

variable {s s' : TwsDL} {e : Event}

/-! ## Calls that are about something else -/

/-- An event that is about no row and no end mark of the request. -/
theorem called_of_eq (hr : ∀ r, e.row ≠ some (s.jobs.request.reqType, s.jobs.request.reqId, r))
    (hm : e.mark ≠ some (s.jobs.request.reqType, s.jobs.request.reqId))
    (h : s'.jobs = s.jobs) : s.jobs.Called e s'.jobs := by
  rw [h]
  cases hp : s.jobs.packet with
  | none => exact .none hp
  | some p =>
      have hc := Jobs.Called.some (e := e) hp (.stay hr hm) .stay
      rwa [← hp] at hc

theorem called_of_silent (hr : e.row = none) (hm : e.mark = none) (h : s'.jobs = s.jobs) :
    s.jobs.Called e s'.jobs :=
  called_of_eq (by simp [hr]) (by simp [hm]) h

/-! ## Errors -/

/-- An error closes the packet, and some historical jobs may be given up. -/
theorem called_of_close {p p' : Packet} {err : ReqErr} {h : HistTodo} (hcl : e.closes = true)
    (hne : err ≠ .NONE)
    (hT : err = .TWSCON → s.jobs.request.reqType ≠ .HIST_REQUEST → e = .connectionClosed)
    (hp : s.packet = some p) (hc : p.closeError err = .ok p')
    (hh : s.jobs.histTodo.Skipped h)
    (hs : s'.jobs = { s.jobs with packet := some p', histTodo := h }) :
    s.jobs.Called e s'.jobs := by
  rw [hs]
  exact .some hp (.closed hcl hne hT hc) hh

theorem closePacket_called {err : ReqErr} (hcl : e.closes = true) (hne : err ≠ .NONE)
    (hT : err = .TWSCON → s.jobs.request.reqType ≠ .HIST_REQUEST → e = .connectionClosed)
    (h : s.closePacket err = .ok s') : s.jobs.Called e s'.jobs := by
  obtain ⟨p, p', hp, hc, rfl⟩ := eq_of_closePacket h
  exact called_of_close hcl hne hT hp hc .stay rfl

theorem errorContracts_called {err : RowError} (h : s.errorContracts err = .ok s') :
    s.jobs.Called (.error err) s'.jobs := by
  have close : ∀ {err' : ReqErr}, err' ≠ .NONE → err' ≠ .TWSCON → s.closePacket err' = .ok s' →
      s.jobs.Called (.error err) s'.jobs :=
    fun hne hT h => closePacket_called rfl hne (fun ht _ => absurd ht hT) h
  unfold errorContracts at h
  split at h
  · split at h
    · exact close (by decide) (by decide) h
    · exact close (by decide) (by decide) h
  · split at h
    · exact close (by decide) (by decide) h
    · rw [← Except.ok.inj h]
      exact called_of_silent rfl rfl rfl

theorem errorHistService_called {err : RowError} {cur_hR : HistRequest}
    (hq : s.jobs.request.reqType = .HIST_REQUEST) (h : s.errorHistService err cur_hR = .ok s') :
    s.jobs.Called (.error err) s'.jobs := by
  have hT : ∀ {err' : ReqErr} {t : TwsDL}, t.jobs = s.jobs → err' = .TWSCON →
      t.jobs.request.reqType ≠ .HIST_REQUEST → Event.error err = .connectionClosed :=
    fun ht _ hn => absurd (ht ▸ hq) hn
  -- a job is given up before its request is taken back from the pacing
  have skipped : ∀ {t t₁ : TwsDL} {err' : ReqErr} {f : HistTodo → HistTodo},
      t.jobs = s.jobs → err' ≠ .NONE → (∀ hT : HistTodo, hT.Skipped (f hT)) →
      t.closePacket err' = .ok t₁ →
      (t₁.setHist (f t₁.workTodo.histTodo)).removeLastRequest cur_hR.ibContract = .ok s' →
      s.jobs.Called (.error err) s'.jobs := by
    intro t t₁ err' f ht hne hf h₁ h
    obtain ⟨p, p', hp, hc, rfl⟩ := eq_of_closePacket h₁
    simp only [removeLastRequest, Exec.bind_eq_ok] at h
    obtain ⟨pG, -, h⟩ := h
    rw [← ht]
    refine called_of_close (h := f t.workTodo.histTodo) rfl hne (hT ht) hp hc (hf _) ?_
    rw [← Except.ok.inj h]
    rfl
  simp only [errorHistService] at h
  split at h
  · simp only [Exec.bind_eq_ok] at h
    obtain ⟨s₁, h₁, pG, -, h⟩ := h
    have hj : s'.jobs = s₁.jobs := by
      rw [← Except.ok.inj h]
      rfl
    rw [hj]
    exact closePacket_called rfl (by decide) (hT rfl) h₁
  split at h
  · exact closePacket_called (s := s.learnHmds _) rfl (by decide) (hT rfl) h
  split at h
  · exact closePacket_called (s := s.learnHmds _) rfl (by decide) (hT rfl) h
  split at h
  · obtain ⟨s₁, h₁, h⟩ := Exec.bind_eq_ok.1 h
    exact skipped (f := (·.skipByNodata cur_hR)) rfl (by decide) (·.skipped_nodata _) h₁ h
  split at h
  · obtain ⟨s₁, h₁, h⟩ := Exec.bind_eq_ok.1 h
    exact skipped (t := s.learnHmds _) (f := (·.skipByPerm cur_hR.ibContract)) rfl (by decide)
      (·.skipped_perm _) h₁ h
  split at h
  · exact closePacket_called (s := s.learnHmds _) rfl (by decide) (hT rfl) h
  · rw [← Except.ok.inj h]
    exact called_of_silent rfl rfl rfl

theorem errorHistData_called {err : RowError} (hq : s.jobs.request.reqType = .HIST_REQUEST)
    (h : s.errorHistData err = .ok s') : s.jobs.Called (.error err) s'.jobs := by
  simp only [errorHistData, Exec.bind_eq_ok] at h
  obtain ⟨hR, -, p, -, h⟩ := h
  split at h
  · exact errorHistService_called hq h
  split at h
  · refine called_of_silent rfl rfl ?_
    simp only [errorHistServer] at h
    split at h
    · rw [← Except.ok.inj h]
      rfl
    split at h
    · simp only [Exec.bind_eq_ok] at h
      obtain ⟨d, -, h⟩ := h
      rw [← Except.ok.inj h]
      rfl
    · rw [← Except.ok.inj h]
  split at h
  · refine closePacket_called rfl ?_ (fun _ hn => absurd hq hn) h
    split <;> decide
  split at h
  · exact closePacket_called rfl (by decide) (fun _ hn => absurd hq hn) h
  · rw [← Except.ok.inj h]
    exact called_of_silent rfl rfl rfl

theorem errorGeneric_called {err : RowError} (h : s.errorGeneric err = .ok s') :
    s.jobs.Called (.error err) s'.jobs := by
  rcases errorGeneric_effect h with ⟨b, i, d, g, rfl⟩ | ⟨hq, h⟩
  · exact called_of_silent rfl rfl rfl
  · exact closePacket_called (s := { s with connectivity_IB_TWS := true }) rfl (by decide)
      (fun _ hn => absurd hq hn) h

theorem twsError_called {err : RowError} (h : s.twsError err = .ok s') :
    s.jobs.Called (.error err) s'.jobs := by
  have silent : s'.jobs = s.jobs → s.jobs.Called (.error err) s'.jobs :=
    called_of_silent rfl rfl
  simp only [twsError] at h
  split at h
  · simp only [Exec.bind_eq_ok] at h
    obtain ⟨-, -, h⟩ := h
    exact silent (by rw [← Except.ok.inj h]; rfl)
  split at h
  · unfold errorRequest at h
    split at h
    · exact errorContracts_called (s := { s with msgCounter := s.msgCounter + 1 }) h
    · exact errorContracts_called (s := { s with msgCounter := s.msgCounter + 1 }) h
    · rename_i hq
      exact errorHistData_called (s := { s with msgCounter := s.msgCounter + 1 }) hq h
    · simp at h
    · simp at h
    · simp at h
    · exact silent (by rw [← Except.ok.inj h]; rfl)
  · simp only [Exec.bind_eq_ok] at h
    obtain ⟨s₁, h₁, h⟩ := h
    have hj : s₁.jobs = s.jobs := (errorPlaceOrder_changed h₁).jobs
    rw [← hj] at silent ⊢
    split at h
    · exact silent (by rw [← Except.ok.inj h])
    · exact errorGeneric_called h

theorem twsConnectionClosed_called (h : s.twsConnectionClosed = .ok s') :
    s.jobs.Called .connectionClosed s'.jobs := by
  simp only [twsConnectionClosed, Exec.bind_eq_ok] at h
  obtain ⟨s₁, h₁, -, -, h⟩ := h
  have hj : s'.jobs = s₁.jobs := by
    rw [← Except.ok.inj h]
    rfl
  have silent : s₁.jobs = s.jobs → s.jobs.Called .connectionClosed s₁.jobs :=
    called_of_silent rfl rfl
  rw [hj]
  unfold closeRequest at h₁
  split at h₁
  · exact silent (by rw [← Except.ok.inj h₁])
  all_goals
    simp only [Exec.bind_eq_ok] at h₁
    obtain ⟨p, -, h₁⟩ := h₁
  case h_5 | h_6 | h_7 =>
    obtain ⟨-, -, h₁⟩ := h₁
    exact silent (by rw [← Except.ok.inj h₁])
  all_goals
    split at h₁
    · exact silent (by rw [← Except.ok.inj h₁])
    · exact closePacket_called rfl (by decide) (fun _ _ => rfl) h₁

/-! ## Rows and end marks -/

/-- A callback whose type or number is wrong does nothing. -/
theorem called_of_expect {t : ReqType} {n : ℤ} {f : Exec Assertion TwsDL}
    (hr : ∀ q r, e.row = some (q, r) → q = t ∧ r.1 = n)
    (hm : ∀ q r, e.mark = some (q, r) → q = t ∧ r = n)
    (hf : s.jobs.request.reqType = t → s.jobs.request.reqId = n → f = .ok s' →
      s.jobs.Called e s'.jobs)
    (h : s.expect t n f = .ok s') : s.jobs.Called e s'.jobs := by
  unfold expect at h
  split at h
  · rename_i hq
    rw [← Except.ok.inj h]
    exact called_of_eq (fun r he => hq (hr _ _ he).1) (fun he => hq (hm _ _ he).1) rfl
  · rename_i hq
    split at h
    · rename_i hn
      rw [← Except.ok.inj h]
      exact called_of_eq (fun r he => hn (hr _ _ he).2) (fun he => hn (hm _ _ he).2) rfl
    · rename_i hn
      exact hf (not_not.1 hq) (not_not.1 hn) h

theorem asContractDetails_eq_ok {o : Option Packet} {p : PacketContractDetails}
    (h : Packet.asContractDetails o = .ok p) : o = some (.contractDetails p) := by
  unfold Packet.asContractDetails at h
  split at h
  · rw [Except.ok.inj h]
  · cases h

theorem asHistData_eq_ok {o : Option Packet} {p : PacketHistData}
    (h : Packet.asHistData o = .ok p) : o = some (.histData p) := by
  unfold Packet.asHistData at h
  split at h
  · rw [Except.ok.inj h]
  · cases h

theorem asOptParams_eq_ok {o : Option Packet} {p : PacketOptParams}
    (h : Packet.asOptParams o = .ok p) : o = some (.optParams p) := by
  unfold Packet.asOptParams at h
  split at h
  · rw [Except.ok.inj h]
  · cases h

theorem contractRow_called {n : ℤ} {cd : ContractDetails}
    (he : e.row = some (.CONTRACT_DETAILS_REQUEST, n, .contractDetails cd)) (hm : e.mark = none)
    (h : s.twsContractDetails n cd = .ok s') : s.jobs.Called e s'.jobs := by
  refine called_of_expect (by simp [he, eq_comm]) (by simp [hm]) (fun ht hn h => ?_) h
  simp only [Exec.bind_eq_ok] at h
  obtain ⟨p, hp, p', hp', h⟩ := h
  obtain ⟨hrec, hid, rfl⟩ := PacketContractDetails.append_eq_ok hp'
  rw [← Except.ok.inj h]
  exact .some (asContractDetails_eq_ok hp)
    (.contractRow (by rw [ht, hn]; exact he) hrec hn.symm hid) .stay

theorem optRow_called {n : ℤ} {r : RowOptParams} (h : s.twsOptParams n r = .ok s') :
    s.jobs.Called (.optParams n r) s'.jobs := by
  refine called_of_expect (by simp [Event.row, eq_comm]) (by simp [Event.mark])
    (fun ht hn h => ?_) h
  simp only [Exec.bind_eq_ok] at h
  obtain ⟨p, hp, p', hp', h⟩ := h
  obtain ⟨hrec, hid, rfl⟩ := PacketOptParams.append_eq_ok hp'
  rw [← Except.ok.inj h]
  exact .some (asOptParams_eq_ok hp) (.optRow (by rw [ht, hn]; rfl) hrec hn.symm hid) .stay

theorem histRow_called {n : ℤ} {row : RowHist} (h : s.twsHistoricalData n row = .ok s') :
    s.jobs.Called (.historicalData n row) s'.jobs := by
  refine called_of_expect ?_ ?_ (fun ht hn h => ?_) h
  · intro q r he
    simp only [Event.row] at he
    split at he
    · cases he
    · obtain ⟨rfl, rfl⟩ := Prod.mk.inj (Option.some.inj he)
      exact ⟨rfl, rfl⟩
  · intro q r he
    simp only [Event.mark] at he
    split at he
    · obtain ⟨rfl, rfl⟩ := Prod.mk.inj (Option.some.inj he)
      exact ⟨rfl, rfl⟩
    · cases he
  simp only [Exec.bind_eq_ok] at h
  obtain ⟨hR, -, p, hp, -, -, p', hp', h⟩ := h
  obtain ⟨hrec, herr, -, rfl⟩ := PacketHistData.append_eq_ok hp'
  rw [← Except.ok.inj h]
  by_cases hf : row.isFinished = true
  · rw [if_pos hf]
    exact .some (asHistData_eq_ok hp)
      (.histEnd (by rw [hn]) (by rw [ht, hn]; simp [Event.mark, hf]) hrec herr) .stay
  · rw [if_neg hf]
    exact .some (asHistData_eq_ok hp)
      (.histRow (by rw [ht, hn]; simp [Event.row, hf]) hrec herr) .stay

theorem contractEnd_called {n : ℤ} (h : s.twsContractDetailsEnd n = .ok s') :
    s.jobs.Called (.contractDetailsEnd n) s'.jobs := by
  refine called_of_expect (by simp [Event.row]) (by simp [Event.mark, eq_comm])
    (fun ht hn h => ?_) h
  simp only [PacketContractDetails.setFinished, Exec.bind_eq_ok, Exec.ensure_eq_ok] at h
  obtain ⟨p, hp, p', ⟨-, hrec, hp'⟩, h⟩ := h
  rw [← Except.ok.inj h, ← Except.ok.inj hp']
  exact .some (asContractDetails_eq_ok hp) (.contractEnd (by rw [ht, hn]; rfl) hrec) .stay

theorem optEnd_called {n : ℤ} (h : s.twsOptParamsEnd n = .ok s') :
    s.jobs.Called (.optParamsEnd n) s'.jobs := by
  refine called_of_expect (by simp [Event.row]) (by simp [Event.mark, eq_comm])
    (fun ht hn h => ?_) h
  simp only [PacketOptParams.setFinished, Exec.bind_eq_ok, Exec.ensure_eq_ok] at h
  obtain ⟨p, hp, p', ⟨-, hrec, hp'⟩, h⟩ := h
  rw [← Except.ok.inj h, ← Except.ok.inj hp']
  exact .some (asOptParams_eq_ok hp) (.optEnd (by rw [ht, hn]; rfl) hrec) .stay

/-! ## Account, executions and orders -/

/-- A callback for the packet `p`, whose class has no number to check. -/
theorem called_of_other {p p' : Packet} (hok : s.jobs.Ok) (hp : s.packet = some p)
    (h : s' = { s with packet := some p' }) (hn : ¬ p.Numbered) (ht : p'.reqType = p.reqType)
    (he : p'.base.error = p.base.error) (hm : p.base.mode ≠ .CLEAN → p'.base.mode ≠ .CLEAN) :
    s.jobs.Called e s'.jobs := by
  rw [h]
  exact .some hp (.other hn ht he (hm (hok.not_clean p hp))) .stay

theorem onAccStatus_called {f : PacketAccStatus → PacketAccStatus} (hok : s.jobs.Ok)
    (hr : e.row = none) (hm : e.mark = none) (h : s.onAccStatus f = .ok s')
    (hf : ∀ p, (f p).error = p.error ∧ (p.mode ≠ .CLEAN → (f p).mode ≠ .CLEAN)) :
    s.jobs.Called e s'.jobs := by
  unfold onAccStatus at h
  split at h
  · rw [← Except.ok.inj h]
    exact called_of_silent hr hm rfl
  · simp only [Exec.bind_eq_ok] at h
    obtain ⟨p, hp, h⟩ := h
    have hp' : s.packet = some (.accStatus p) := by
      unfold Packet.asAccStatus at hp
      split at hp
      · rename_i hs
        rw [hs, Except.ok.inj hp]
      · cases hp
    exact called_of_other hok hp' (Except.ok.inj h).symm
      (by simp [Packet.Numbered, Packet.reqType]) rfl (hf p).1 (hf p).2

theorem onExecutions_called {f : PacketExecutions → PacketExecutions} (hok : s.jobs.Ok)
    (hr : e.row = none) (hm : e.mark = none) (h : s.onExecutions f = .ok s')
    (hf : ∀ p, (f p).error = p.error ∧ (p.mode ≠ .CLEAN → (f p).mode ≠ .CLEAN)) :
    s.jobs.Called e s'.jobs := by
  unfold onExecutions at h
  split at h
  · rw [← Except.ok.inj h]
    exact called_of_silent hr hm rfl
  · simp only [Exec.bind_eq_ok] at h
    obtain ⟨p, hp, h⟩ := h
    have hp' : s.packet = some (.executions p) := by
      unfold Packet.asExecutions at hp
      split at hp
      · rename_i hs
        rw [hs, Except.ok.inj hp]
      · cases hp
    exact called_of_other hok hp' (Except.ok.inj h).symm
      (by simp [Packet.Numbered, Packet.reqType]) rfl (hf p).1 (hf p).2

theorem asOrders_eq_ok {o : Option Packet} {p : PacketOrders}
    (h : Packet.asOrders o = .ok p) : o = some (.orders p) := by
  unfold Packet.asOrders at h
  split at h
  · rw [Except.ok.inj h]
  · cases h

theorem onOrders_called {row : TwsRow} {f : Exec Assertion TwsDL} (hok : s.jobs.Ok)
    (hr : e.row = none) (hm : e.mark = none) (hf : f = .ok s' → s'.jobs = s.jobs)
    (h : s.onOrders row f = .ok s') : s.jobs.Called e s'.jobs := by
  unfold onOrders at h
  split at h
  · simp only [Exec.bind_eq_ok] at h
    obtain ⟨p, hp, h⟩ := h
    exact called_of_other hok (asOrders_eq_ok hp) (Except.ok.inj h).symm
      (by simp [Packet.Numbered, Packet.reqType]) rfl rfl id
  · exact called_of_silent hr hm (hf h)

theorem openOrderEnd_called (hok : s.jobs.Ok) (h : s.twsOpenOrderEnd = .ok s') :
    s.jobs.Called .openOrderEnd s'.jobs := by
  unfold twsOpenOrderEnd at h
  split at h
  · rw [← Except.ok.inj h]
    exact called_of_silent rfl rfl rfl
  · simp only [Exec.bind_eq_ok] at h
    obtain ⟨p, hp, h⟩ := h
    exact called_of_other hok (asOrders_eq_ok hp) (Except.ok.inj h).symm
      (by simp [Packet.Numbered, Packet.reqType]) rfl rfl fun _ => Mode.noConfusion

/-! ## Every event -/

/-- **What an event other than a turn does to a request.** -/
theorem handle_called (hok : s.jobs.Ok) (ht : ∀ c, e ≠ .turn c) (h : s.handle e = .ok s') :
    s.jobs.Called e s'.jobs := by
  have tick : ∀ {n : ℤ}, s.twsTickPrice n = .ok s' → s'.jobs = s.jobs := fun h => by
    simp only [twsTickPrice, Exec.bind_eq_ok] at h
    obtain ⟨-, -, -, -, h⟩ := h
    rw [← Except.ok.inj h]
  cases e with
  | turn c => exact absurd rfl (ht c)
  | clock now =>
      rw [← Except.ok.inj h]
      exact called_of_silent rfl rfl rfl
  | connectAck =>
      simp only [handle, twsConnectAck] at h
      split at h
      · refine called_of_silent rfl rfl ?_
        rw [← Except.ok.inj h, act_jobs rfl]
        rfl
      · rw [← Except.ok.inj h]
        exact called_of_silent rfl rfl rfl
  | connectionClosed => exact twsConnectionClosed_called (s := { s with connected := false }) h
  | error err => exact twsError_called h
  | contractDetails n cd => exact contractRow_called rfl rfl h
  | bondContractDetails n cd => exact contractRow_called rfl rfl h
  | contractDetailsEnd n => exact contractEnd_called h
  | historicalData n row => exact histRow_called h
  | optParams n r => exact optRow_called h
  | optParamsEnd n => exact optEnd_called h
  | updateAccountValue row => exact onAccStatus_called hok rfl rfl h fun _ => ⟨rfl, id⟩
  | updatePortfolio row =>
      exact onAccStatus_called hok rfl rfl (twsUpdatePortfolio_eq_ok.1 h).2 fun _ => ⟨rfl, id⟩
  | updateAccountTime t => exact onAccStatus_called hok rfl rfl h fun _ => ⟨rfl, id⟩
  | accountDownloadEnd n =>
      exact onAccStatus_called hok rfl rfl h fun _ => ⟨rfl, fun _ => Mode.noConfusion⟩
  | execDetails n row => exact onExecutions_called hok rfl rfl h fun _ => ⟨rfl, id⟩
  | execDetailsEnd n =>
      exact onExecutions_called hok rfl rfl h fun _ => ⟨rfl, fun _ => Mode.noConfusion⟩
  | orderStatus row =>
      exact onOrders_called hok rfl rfl (fun h => (onOrderStatus_changed h).jobs)
        (twsOrderStatus_eq_ok.1 h).2
  | openOrder row =>
      exact onOrders_called hok rfl rfl (fun h => (onOpenOrder_changed h).jobs)
        (twsOpenOrder_eq_ok.1 h).2
  | openOrderEnd => exact openOrderEnd_called hok h
  | currentTime time =>
      rw [← Except.ok.inj h]
      exact called_of_silent rfl rfl rfl
  | nextValidId n =>
      simp only [handle, nextValidId] at h
      split at h
      · rw [← Except.ok.inj h]
        exact called_of_silent rfl rfl rfl
      · rw [← Except.ok.inj h]
        exact called_of_silent rfl rfl rfl
  | tickPrice n => exact called_of_silent rfl rfl (tick h)
  | tickSize n => exact called_of_silent rfl rfl (tick h)
  | tick n =>
      simp only [handle, twsTick, Exec.bind_eq_ok] at h
      obtain ⟨-, -, h⟩ := h
      rw [← Except.ok.inj h]
      exact called_of_silent rfl rfl rfl

end TwsDL

end Twstools
