import Twstools.Jobs.Frame
import Twstools.Orders.Turns
/-!
# What a turn does to a request

A turn of the event loop first finishes the request whose packet is
closed, and makes the next one if none is open then.
-/

namespace Twstools

open Std

/-- **The request and its packet fit together.** There is a packet while a
request is open, of its class, and it has been recording. Nothing is asked
for before the connection is complete. -/
structure Jobs.Ok (j : Jobs) : Prop where
  packet_none : j.packet = none → j.request.reqType = .NONE
  packet_some : ∀ p, j.packet = some p → p.reqType = j.request.reqType
  not_clean : ∀ p, j.packet = some p → p.base.mode ≠ .CLEAN
  waiting : j.state = .WAIT_TWS_CON → j.request.reqType = .NONE

namespace Jobs

variable {j j' : Jobs} {p : Packet}

/-- There is no packet exactly when there is no request. -/
theorem Ok.packet_eq_none (h : j.Ok) : j.packet = none ↔ j.request.reqType = .NONE := by
  refine ⟨h.packet_none, fun hn => ?_⟩
  cases hp : j.packet with
  | none => rfl
  | some p => exact absurd ((h.packet_some p hp).trans hn) p.reqType_ne_none

/-- It is the packet given that counts. -/
theorem Finished.of_packet {o : Option Packet} (h : Finished p { j with packet := o } j') :
    Finished p j { j' with packet := j.packet } := by
  cases h with
  | contractDetailsAgain ht he h => exact .contractDetailsAgain ht he h
  | optParamsAgain ht he h => exact .optParamsAgain ht he h
  | histDumped ht he h => exact .histDumped ht he h
  | histDone ht he h => exact .histDone ht he h
  | histAgain ht he h => exact .histAgain ht he h
  | dumped ht he => exact .dumped ht he
  | dropped hn ht h1 h2 => exact .dropped hn ht h1 h2

/-- Finishing changes the todo lists and writes. -/
theorem Finished.frame (h : Finished p j j') : j'.packet = j.packet ∧ j'.request = j.request ∧
    j'.state = j.state ∧ j'.quit = j.quit ∧ j'.error = j.error := by
  cases h <;> exact ⟨rfl, rfl, rfl, rfl, rfl⟩

theorem Waited.frame (h : j.Waited j') : j'.state = j.state ∧ j'.quit = j.quit ∧
    j'.error = j.error := by
  cases h with
  | stay => exact ⟨rfl, rfl, rfl⟩
  | fin hp hc hf => exact ⟨hf.frame.2.2.1, hf.frame.2.2.2.1, hf.frame.2.2.2.2⟩

end Jobs

namespace TwsDL

variable {s s' : TwsDL} {p p' : Packet} {b : Bool}

/-! ## Finishing -/

theorem dumpPacket_jobs (hp : s.packet = some p) (h : s.dumpPacket = .ok s') :
    s'.jobs = { s.jobs with
      log := s.jobs.log ++ [.dumpXml p s.jobs.histTodo.checkedOutRequest] } := by
  simp only [dumpPacket, Exec.bind_eq_ok, Exec.deref_eq_ok] at h
  obtain ⟨p', hp', h⟩ := h
  obtain rfl := Option.some.inj (hp.symm.trans hp')
  rw [← Except.ok.inj h, act_jobs_ofRequest rfl]
  rfl

theorem finAnswer_finished {again : Exec Assertion (TwsDL × Bool)} (hp : s.packet = some p)
    (ht : p.reqType = .CONTRACT_DETAILS_REQUEST ∨ p.reqType = .OPT_PARAMS_REQUEST)
    (hagain : p.getError = .TWSCON → again = .ok (s', b) → b = true ∧ s.jobs.Finished p s'.jobs)
    (h : s.finAnswer again = .ok (s', b)) : b = true ∧ s.jobs.Finished p s'.jobs := by
  have hh : p.reqType ≠ .HIST_REQUEST := by
    rcases ht with ht | ht <;> rw [ht] <;> decide
  have hN : p.Numbered := ht.imp_right .inr
  obtain ⟨p', hp', hcases⟩ := finAnswer_cases h
  obtain rfl := Option.some.inj (hp.symm.trans hp')
  rcases hcases with ⟨he, s₁, h₁, hr⟩ | ⟨he, hT, hr⟩ | ⟨he, ha⟩
  · obtain ⟨rfl, rfl⟩ := Prod.mk.inj hr
    rw [dumpPacket_jobs hp h₁]
    exact ⟨rfl, .dumped hh fun _ => he⟩
  · obtain ⟨rfl, rfl⟩ := Prod.mk.inj hr
    exact ⟨rfl, .dropped hN hh he hT⟩
  · exact hagain he ha

theorem finContracts_cases (hp : s.packet = some p) (ht : p.reqType = .CONTRACT_DETAILS_REQUEST)
    (h : s.finContracts = .ok (s', b)) : b = true ∧ s.jobs.Finished p s'.jobs := by
  rw [finContracts_eq] at h
  refine finAnswer_finished hp (.inl ht) (fun he ha => ?_) h
  simp only [Exec.bind_eq_ok] at ha
  obtain ⟨todo, htodo, ha⟩ := ha
  obtain ⟨rfl, rfl⟩ := Prod.mk.inj (Except.ok.inj ha)
  exact ⟨rfl, .contractDetailsAgain ht he htodo⟩

theorem finOptParams_cases (hp : s.packet = some p) (ht : p.reqType = .OPT_PARAMS_REQUEST)
    (h : s.finOptParams = .ok (s', b)) : b = true ∧ s.jobs.Finished p s'.jobs := by
  rw [finOptParams_eq] at h
  refine finAnswer_finished hp (.inr ht) (fun he ha => ?_) h
  simp only [Exec.bind_eq_ok] at ha
  obtain ⟨todo, htodo, ha⟩ := ha
  obtain ⟨rfl, rfl⟩ := Prod.mk.inj (Except.ok.inj ha)
  exact ⟨rfl, .optParamsAgain ht he htodo⟩

theorem finHist_cases (hp : s.packet = some p) (ht : p.reqType = .HIST_REQUEST)
    (h : s.finHist = .ok (s', b)) : b = true ∧ s.jobs.Finished p s'.jobs := by
  simp only [finHist, Exec.bind_eq_ok, Exec.deref_eq_ok] at h
  obtain ⟨p', hp', h⟩ := h
  obtain rfl := Option.some.inj (hp.symm.trans hp')
  split at h
  case h_1 he =>
    simp only [Exec.bind_eq_ok] at h
    obtain ⟨s₁, h₁, hT, hdone, h⟩ := h
    obtain ⟨rfl, rfl⟩ := Prod.mk.inj (Except.ok.inj h)
    have hj := dumpPacket_jobs hp h₁
    have hh : s₁.workTodo.histTodo = s.jobs.histTodo := congrArg Jobs.histTodo hj
    rw [hh] at hdone
    have hs : (s₁.setHist hT).jobs = { s.jobs with
        histTodo := hT
        log := s.jobs.log ++ [.dumpXml p s.jobs.histTodo.checkedOutRequest] } :=
      congrArg (fun j : Jobs => { j with histTodo := hT }) hj
    rw [hs]
    exact ⟨rfl, .histDumped ht he hdone⟩
  all_goals
    rename_i he
    simp only [Exec.bind_eq_ok] at h
    obtain ⟨hT, hdone, h⟩ := h
    obtain ⟨rfl, rfl⟩ := Prod.mk.inj (Except.ok.inj h)
    refine ⟨rfl, ?_⟩
  · exact .histDone ht (by rw [he]; decide) hdone
  · exact .histDone ht (by rw [he]; decide) hdone
  · exact .histAgain ht (by rw [he]; decide) hdone
  · exact .histAgain ht (by rw [he]; decide) hdone
  · exact .histAgain ht (by rw [he]; decide) hdone

theorem finRequest_cases (hp : s.packet = some p) (ht : p.reqType = s.currentRequest.reqType)
    (h : s.finRequest = .ok (s', b)) : b = true ∧ s.jobs.Finished p s'.jobs := by
  have other : ¬ p.Numbered → p.reqType ≠ .HIST_REQUEST →
      (∃ s₁, s.dumpPacket = .ok s₁ ∧ (.ok (s₁, true) : Exec Assertion _) = .ok (s', b)) →
      b = true ∧ s.jobs.Finished p s'.jobs := by
    rintro hn hh ⟨s₁, h₁, h⟩
    obtain ⟨rfl, rfl⟩ := Prod.mk.inj (Except.ok.inj h)
    rw [dumpPacket_jobs hp h₁]
    exact ⟨rfl, .dumped hh fun hN => absurd hN hn⟩
  unfold finRequest at h
  split at h
  · rename_i hq
    exact finOptParams_cases hp (ht.trans hq) h
  · rename_i hq
    exact finContracts_cases hp (ht.trans hq) h
  · rename_i hq
    exact finHist_cases hp (ht.trans hq) h
  case h_7 hq => exact absurd (ht.trans hq) p.reqType_ne_none
  all_goals
    rename_i hq
    simp only [Exec.bind_eq_ok] at h
    exact other (by rw [Packet.Numbered, ht, hq]; decide) (by rw [ht, hq]; decide) h

theorem finPacket_cases (hp : s.packet = some p) (ht : p.reqType = s.currentRequest.reqType)
    (h : s.finPacket = .ok s') : ∃ j', s.jobs.Finished p j' ∧
      s'.jobs = { j' with
        packet := none
        request := s.jobs.request.close
        log := j'.log ++ [.delete p] } := by
  simp only [finPacket, Exec.bind_eq_ok, Exec.deref_eq_ok] at h
  obtain ⟨⟨s₁, b⟩, h₁, p', hp', h⟩ := h
  obtain ⟨rfl, hfin⟩ := finRequest_cases hp ht h₁
  obtain ⟨hpk, hrq, -⟩ := hfin.frame
  refine ⟨s₁.jobs, hfin, ?_⟩
  have hpp : p' = p := by
    have h₂ : s₁.packet = some p := hpk.trans hp
    exact Option.some.inj (hp'.symm.trans h₂)
  rw [hpp] at h
  rw [← Except.ok.inj h]
  have ha := act_jobs_ofRequest (s := s₁) (a := .delete p) rfl
  have hclose : s₁.currentRequest.close = s.jobs.request.close :=
    congrArg GenericRequest.close hrq
  exact hclose ▸ congrArg (fun j : Jobs => { j with
    packet := none, request := s₁.currentRequest.close }) ha

/-- The packet that `waitData` finishes: it is closed already, or by a
timeout now. -/
def closing (s : TwsDL) : Option Packet :=
  match s.packet with
  | none => none
  | some p =>
      if p.finished then some p
      else if s.currentRequest.age s.now ≤ s.cfg.tws_reqTimeout then none
      else (p.closeError .TIMEOUT).toOption

theorem closing_eq_some {p' : Packet} : s.closing = some p' ↔ ∃ p, s.packet = some p ∧
    (p' = p ∧ p.finished = true ∨ p.finished = false ∧
      ¬ s.currentRequest.age s.now ≤ s.cfg.tws_reqTimeout ∧ p.closeError .TIMEOUT = .ok p') := by
  unfold closing
  cases s.packet with
  | none => simp
  | some p =>
      cases hf : p.finished with
      | true =>
          simp only [hf, if_true, Option.some.injEq, exists_eq_left', and_true, Bool.true_eq_false,
            false_and, or_false]
          exact eq_comm
      | false =>
          by_cases hage : s.currentRequest.age s.now ≤ s.cfg.tws_reqTimeout
          · simp [hf, hage]
          · simp [hf, hage, Exec.toOption_eq_some]

/-- **What `waitData` does to a request**, told by the packet that is
closing. -/
theorem waitData_closing (hok : s.jobs.Ok) (h : s.waitData = .ok s') :
    s.closing = none ∧ s'.jobs = s.jobs ∨
      ∃ p j', s.closing = some p ∧ p.reqType = s.currentRequest.reqType ∧
        s.jobs.Finished p j' ∧ s'.jobs = { j' with
          packet := none
          request := s.jobs.request.close
          log := j'.log ++ [.delete p] } := by
  simp only [waitData, Exec.bind_eq_ok] at h
  obtain ⟨⟨s₁, b⟩, h₁, h⟩ := h
  have hj := finPlaceOrder_jobs h₁
  have hclosing : s.closing = s₁.closing := by
    rw [finOrders_frame _ h₁]
    rfl
  have hreq : s.currentRequest = s₁.currentRequest := (congrArg Jobs.request hj).symm
  rw [hclosing, hreq, ← hj]
  rw [← hj] at hok
  simp only [waitPacket] at h
  split at h
  · rename_i hp
    rw [← Except.ok.inj h]
    exact .inl ⟨by rw [closing, hp], rfl⟩
  · rename_i p hp
    have ht := hok.packet_some p hp
    split at h
    · rename_i hn
      exact absurd (ht.trans hn) p.reqType_ne_none
    · split at h
      · rename_i hfin
        obtain ⟨j', hF, hs'⟩ := finPacket_cases hp ht h
        exact .inr ⟨p, j', by simp [closing, hp, hfin], ht, hF, hs'⟩
      · rename_i hfin
        split at h
        · rename_i hage
          rw [← Except.ok.inj h]
          exact .inl ⟨by simp [closing, hp, hfin, hage], rfl⟩
        · rename_i hage
          simp only [Exec.bind_eq_ok] at h
          obtain ⟨s₂, h₂, h⟩ := h
          obtain ⟨q, p', hq, hcl, rfl⟩ := eq_of_closePacket h₂
          obtain rfl := Option.some.inj (hp.symm.trans hq)
          have ht' := (Packet.reqType_closeError hcl).trans ht
          obtain ⟨j', hF, hs'⟩ :=
            finPacket_cases (s := { s₁ with packet := some p' }) rfl ht' h
          have hc : s₁.closing = some p' := by
            simp [closing, hp, hfin, hage, hcl, Except.toOption]
          exact .inr ⟨p', _, hc, ht', hF.of_packet, hs'⟩

/-- **What `waitData` does to a request.** -/
theorem waitData_cases (hok : s.jobs.Ok) (h : s.waitData = .ok s') : s.jobs.Waited s'.jobs := by
  rcases waitData_closing hok h with ⟨-, hj⟩ | ⟨p, j', hc, -, hfin, hj⟩
  · rw [hj]
    exact .stay
  · obtain ⟨q, hq, hclose⟩ := closing_eq_some.1 hc
    rw [hj]
    exact .fin hq (hclose.imp_right fun h => ⟨h.1, h.2.2⟩) hfin

/-- A closed packet is finished by `waitData`. -/
theorem waitData_closed (hok : s.jobs.Ok) (hp : s.packet = some p) (hf : p.finished = true)
    (h : s.waitData = .ok s') : ∃ j', s.jobs.Finished p j' ∧ s'.jobs = { j' with
      packet := none
      request := s.jobs.request.close
      log := j'.log ++ [.delete p] } := by
  have hclosing : s.closing = some p := closing_eq_some.2 ⟨p, hp, .inl ⟨rfl, hf⟩⟩
  rcases waitData_closing hok h with ⟨hc, -⟩ | ⟨q, j', hc, -, hfin, hj⟩
  · rw [hclosing] at hc
    cases hc
  · obtain rfl := Option.some.inj (hclosing.symm.trans hc)
    exact ⟨j', hfin, hj⟩

/-! ## Making the next request -/

/-- The next type of request is told by the todo lists, which stay. -/
theorem nextReqType_jobs (s : TwsDL) :
    ({ s with workTodo := s.workTodo.nextReqType.1 } : TwsDL).jobs = s.jobs := by
  simp only [jobs, WorkTodo.nextReqType]
  split_ifs <;> rfl

/-- There is nothing to ask for only if nothing is left. -/
theorem WorkTodo.nextReqType_eq_none {w : WorkTodo} (h : w.nextReqType.2 = .NONE) :
    w.contractDetailsTodo.countLeft ≤ 0 ∧ w.optParamsTodo.countLeft ≤ 0 ∧
      w.histTodo.leftRequests = [] := by
  simp only [WorkTodo.nextReqType] at h
  split_ifs at h with h1 h2 h3 h4 h5 h6
  refine ⟨by omega, by omega, ?_⟩
  simpa [HistTodo.countLeft] using h6

theorem reqContractDetails_cases (h : s.reqContractDetails = .ok s') :
    s.jobs.Worked s'.jobs := by
  simp only [reqContractDetails] at h
  split at h
  · simp only [Exec.bind_eq_ok] at h
    obtain ⟨todo, htodo, r, hr, s₁, h₁, p, hp, h⟩ := h
    obtain rfl := eq_of_nextRequest h₁
    simp only [PacketContractDetails.record, Exec.bind_eq_ok] at hp
    obtain ⟨-, -, hp⟩ := hp
    rw [← Except.ok.inj h, ← Except.ok.inj hp, act_jobs_ofRequest rfl]
    exact .contractDetails htodo hr
  · rw [← Except.ok.inj h]
    exact .stay s.state

theorem reqOptParams_cases (h : s.reqOptParams = .ok s') : s.jobs.Worked s'.jobs := by
  simp only [reqOptParams] at h
  split at h
  · simp only [Exec.bind_eq_ok] at h
    obtain ⟨todo, htodo, r, hr, s₁, h₁, p, hp, h⟩ := h
    obtain rfl := eq_of_nextRequest h₁
    simp only [PacketOptParams.record, Exec.bind_eq_ok] at hp
    obtain ⟨-, -, hp⟩ := hp
    rw [← Except.ok.inj h, ← Except.ok.inj hp, act_jobs_ofRequest rfl]
    exact .optParams htodo hr
  · rw [← Except.ok.inj h]
    exact .stay s.state

theorem reqHistoricalData_cases (h : s.reqHistoricalData = .ok s') :
    s.jobs.Worked s'.jobs := by
  simp only [reqHistoricalData, Exec.bind_eq_ok] at h
  obtain ⟨-, -, ⟨hT, pG, wait⟩, hc, h⟩ := h
  rcases HistTodo.checkoutOpt_cases hc with ⟨hw, rfl⟩ | ⟨hw, hnone, job, hjob, rfl⟩
  · rw [if_pos hw] at h
    rw [← Except.ok.inj h]
    exact .stay s.state
  · rw [if_neg (show ¬ wait > 0 by omega)] at h
    simp only [Exec.bind_eq_ok] at h
    obtain ⟨s₁, h₁, hR, hcur, pG', -, p, hp, h⟩ := h
    obtain rfl := eq_of_nextRequest h₁
    obtain ⟨job', hjob', rfl⟩ := HistTodo.current_eq_ok.1 hcur
    obtain rfl : job = job' := Option.some.inj hjob'
    simp only [PacketHistData.record, Exec.bind_eq_ok] at hp
    obtain ⟨-, -, hp⟩ := hp
    rw [← Except.ok.inj h, ← Except.ok.inj hp, act_jobs_ofRequest rfl]
    exact .hist hnone hjob

theorem request_cases {t : ReqType} (h : s.request t = .ok s') :
    s.jobs.Worked s'.jobs ∧ (t = .NONE → s'.jobs = s.jobs) := by
  have other : ∀ {p : Packet} {a : Action}, ¬ p.Numbered → p.base = { mode := .RECORD } →
      a.unnumbered = true → (∀ q, a.asks = some q → q.2 = s.currentRequest.reqId + 1) →
      s.jobs.Worked (({ s with
        currentRequest := ⟨p.reqType, s.currentRequest.reqId + 1, s.now⟩
        packet := some p } : TwsDL).act a).jobs := by
    intro p a hp hb ha hq
    have ho : a.ofRequest = true := by cases a <;> simp_all [Action.unnumbered, Action.ofRequest]
    rw [act_jobs_ofRequest ho]
    exact .other hp hb ha hq
  cases t with
  | NONE =>
      have hj : s'.jobs = s.jobs := placeOrders_jobs _ h
      rw [hj]
      exact ⟨.stay s.state, fun _ => rfl⟩
  | CONTRACT_DETAILS_REQUEST => exact ⟨reqContractDetails_cases h, ReqType.noConfusion⟩
  | HIST_REQUEST => exact ⟨reqHistoricalData_cases h, ReqType.noConfusion⟩
  | OPT_PARAMS_REQUEST => exact ⟨reqOptParams_cases h, ReqType.noConfusion⟩
  | ACC_STATUS_REQUEST =>
      simp only [request, reqAccStatus, PacketAccStatus.record, Exec.bind_eq_ok] at h
      obtain ⟨s₁, h₁, p, ⟨-, -, hp⟩, h⟩ := h
      obtain rfl := eq_of_nextRequest h₁
      rw [← Except.ok.inj h, ← Except.ok.inj hp]
      exact ⟨other (p := .accStatus _) (by simp [Packet.Numbered, Packet.reqType]) rfl rfl
        (by rintro q ⟨⟩), ReqType.noConfusion⟩
  | EXECUTIONS_REQUEST =>
      simp only [request, reqExecutions, PacketExecutions.record, Exec.bind_eq_ok] at h
      obtain ⟨s₁, h₁, p, ⟨-, -, hp⟩, h⟩ := h
      obtain rfl := eq_of_nextRequest h₁
      rw [← Except.ok.inj h, ← Except.ok.inj hp]
      exact ⟨other (p := .executions _) (by simp [Packet.Numbered, Packet.reqType]) rfl rfl
        (by rintro q ⟨⟩; rfl), ReqType.noConfusion⟩
  | ORDERS_REQUEST =>
      simp only [request, reqOrders, PacketOrders.record, Exec.bind_eq_ok] at h
      obtain ⟨s₁, h₁, p, ⟨-, -, hp⟩, h⟩ := h
      obtain rfl := eq_of_nextRequest h₁
      rw [← Except.ok.inj h, ← Except.ok.inj hp]
      exact ⟨other (p := .orders _) (by simp [Packet.Numbered, Packet.reqType]) rfl rfl
        (by rintro q ⟨⟩), ReqType.noConfusion⟩

theorem work_cases (h : s.work = .ok s') : s.jobs.Worked s'.jobs := by
  simp only [work, Exec.bind_eq_ok] at h
  obtain ⟨s₁, h₁, s₂, h₂, h⟩ := h
  have hj := startMktData_jobs h₁
  obtain ⟨hw, hnone⟩ := request_cases h₂
  rw [nextReqType_jobs, hj] at hw hnone
  rw [← Except.ok.inj h, checkDone]
  split
  · rename_i hd
    obtain ⟨hcd, hop, hl⟩ := WorkTodo.nextReqType_eq_none hd.1
    have hdone : s₁.jobs.Worked { s₁.jobs with quit := true } := .done hcd hop hl
    have hs' : ({ s₂ with lastError := "No more work to do.", quit := true } : TwsDL).jobs =
        { s.jobs with quit := true } :=
      congrArg (fun j : Jobs => { j with quit := true }) (hnone hd.1)
    rw [hs']
    rwa [hj] at hdone
  · exact hw

theorem disconnectTWS_jobs (hn : s.jobs.request.reqType = .NONE) (h : s.disconnectTWS = .ok s') :
    s'.jobs = s.jobs := by
  unfold disconnectTWS at h
  split at h
  · simp only [twsConnectionClosed, Exec.bind_eq_ok] at h
    obtain ⟨s₁, h₁, -, -, h⟩ := h
    have hq : (({ s with connected := false } : TwsDL).act .eDisconnect).currentRequest.reqType
        = .NONE := hn
    rw [closeRequest, hq] at h₁
    rw [← Except.ok.inj h, ← Except.ok.inj h₁]
    exact act_jobs (s := { s with connected := false }) rfl
  · rw [← Except.ok.inj h]

theorem waitTwsCon_jobs (hn : s.jobs.request.reqType = .NONE) (h : s.waitTwsCon = .ok s') :
    ∃ st, s'.jobs = { s.jobs with state := st } := by
  simp only [waitTwsCon] at h
  split at h
  · split at h
    · obtain rfl := eq_of_changeState h
      exact ⟨_, congrArg (fun j : Jobs => { j with state := .IDLE }) askTime_jobs⟩
    · split at h
      · rw [← Except.ok.inj h]
        exact ⟨s.state, askTime_jobs⟩
      · refine ⟨s.state, (disconnectTWS_jobs ?_ h).trans askTime_jobs⟩
        rw [askTime_jobs]
        exact hn
  · obtain rfl := eq_of_changeState h
    exact ⟨_, rfl⟩

/-- **What a turn does to a request.** -/
theorem turn_cases {c : Connect} (hok : s.jobs.Ok) (h : s.turn c = .ok s') :
    s.jobs.Turned s'.jobs := by
  obtain ⟨s₁, i, hpath, rfl⟩ := turn_path h
  have hwait : ∀ s₂, ({ s with curIdleTime := -1 } : TwsDL).waitData = .ok s₂ →
      s.jobs.Waited s₂.jobs := fun s₂ hw =>
    waitData_cases (s := { s with curIdleTime := -1 }) hok hw
  suffices s.jobs.Turned s₁.jobs from this
  cases hpath with
  | connecting hst hw =>
      have hn := hok.waiting hst
      obtain ⟨st, hj⟩ := waitTwsCon_jobs (s := { s with curIdleTime := -1 }) hn hw
      rw [hj]
      exact .connect st hn
  | waiting _ hw _ => exact .wait (hwait _ hw)
  | reconnecting hst hw _ hn _ hcon =>
      have hw₂ := hwait _ hw
      obtain ⟨st, hj⟩ := connectTws_jobs hcon
      refine .work hw₂ (hw₂.frame.1.trans hst) hn ?_
      rw [hj]
      exact .stay st
  | working hst hw _ hn _ hwork =>
      have hw₂ := hwait _ hw
      exact .work hw₂ (hw₂.frame.1.trans hst) hn (work_cases hwork)

/-- **A closed packet is finished in the next turn**, and its request is
over. -/
theorem turn_closed {c : Connect} (hok : s.jobs.Ok) (hp : s.packet = some p)
    (hf : p.finished = true) (h : s.turn c = .ok s') : ∃ j', s.jobs.Finished p j' ∧
      Jobs.Worked { j' with
        packet := none
        request := s.jobs.request.close
        log := j'.log ++ [.delete p] } s'.jobs := by
  obtain ⟨s₁, i, hpath, rfl⟩ := turn_path h
  have hstep : ∃ s₂, ({ s with curIdleTime := -1 } : TwsDL).waitData = .ok s₂ ∧
      s₂.jobs.Worked s₁.jobs := by
    cases hpath with
    | connecting hst _ =>
        -- a program that waits for the connection has no request
        have ht : p.reqType = s.currentRequest.reqType := hok.packet_some p hp
        exact absurd (ht.trans (hok.waiting hst)) p.reqType_ne_none
    | waiting _ hw _ => exact ⟨s₁, hw, .stay s₁.state⟩
    | @reconnecting s₂ _ hw _ _ _ hcon =>
        obtain ⟨st, hst⟩ := connectTws_jobs hcon
        exact ⟨s₂, hw, hst ▸ .stay st⟩
    | @working s₂ _ hw _ _ _ hwork => exact ⟨s₂, hw, work_cases hwork⟩
  obtain ⟨s₂, hw, hk⟩ := hstep
  obtain ⟨j', hF, hj⟩ := waitData_closed (s := { s with curIdleTime := -1 }) hok hp hf hw
  rw [hj] at hk
  exact ⟨j', hF, hk⟩

end TwsDL

end Twstools
