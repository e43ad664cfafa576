import Twstools.Twsdo.Strategy
import Twstools.Jobs.Runs
import Twstools.Orders.Runs
/-!
# What a strategy module changes

Finishing a request is what it is without a module, and then, if the
request was for contract details, a place in the requests for market data
is filled (`waitData_eq`).
-/

namespace Twstools

open Std

namespace StratDL

/-- What is left to do for the module when the program has finished the
packet `p`. -/
def afterwards (s : StratDL) (p : Packet) (dl : TwsDL) : Exec Assertion StratDL :=
  match p with
  | .contractDetails p =>
      if p.error = .TWSCON then pure { s with dl := dl }
      else do
        let (con_details, v) ← addConId s.con_details dl.workTodo.mktDataTodo p.cdList
        pure { dl := dl.setMktData v, con_details := con_details }
  | _ => pure { s with dl := dl }

/-- The part of the module in `waitData`. -/
def file (s : StratDL) (dl : TwsDL) : Exec Assertion StratDL :=
  match s.dl.closing with
  | none => pure { s with dl := dl }
  | some p => s.afterwards p dl

end StratDL

/-! ## Finishing a request -/

namespace TwsDL

variable {s s' : TwsDL} {ok : Bool} {v : List MktDataRequest}

/-- `finPacket` after the switch over the type. -/
def endPacket (s : TwsDL) (ok : Bool) : Exec Assertion TwsDL := do
  let s := if ok then s else { s with error := 1, lastError := "Fatal error.", quit := true }
  let p ← deref s.packet
  let s := s.act (.delete p)
  pure { s with packet := none, currentRequest := s.currentRequest.close }

theorem finPacket_eq : s.finPacket = s.finRequest >>= fun r => r.1.endPacket r.2 := rfl

/-- There is a packet to delete, and the todo lists stay. -/
theorem endPacket_of_some {p : Packet} (hp : s.packet = some p) (ok : Bool) :
    ∃ t, s.endPacket ok = .ok t ∧ t.workTodo = s.workTodo ∧
      ∀ v, (s.setMktData v).endPacket ok = .ok (t.setMktData v) := by
  cases ok <;> simp [endPacket, setMktData, act, hp, deref]

/-- Contract details that were not asked for again leave the packet. -/
theorem finContracts_packet (hp : s.packet = some p) (he : p.getError ≠ .TWSCON)
    (h : s.finContracts = .ok (s', ok)) : s'.packet = some p := by
  rw [finContracts_eq] at h
  obtain ⟨q, hq, hcases⟩ := finAnswer_cases h
  obtain rfl := Option.some.inj (hp.symm.trans hq)
  rcases hcases with ⟨-, s₁, h₁, hr⟩ | ⟨-, -, hr⟩ | ⟨hT, -⟩
  · obtain ⟨rfl, rfl⟩ := Prod.mk.inj hr
    simp only [dumpPacket, Exec.bind_eq_ok] at h₁
    obtain ⟨q, -, h₁⟩ := h₁
    rw [← Except.ok.inj h₁]
    exact hp
  · obtain ⟨rfl, rfl⟩ := Prod.mk.inj hr
    exact hp
  · exact absurd hT he

theorem waitData_mktDataTodo (h : s.waitData = .ok s') :
    s'.workTodo.mktDataTodo = s.workTodo.mktDataTodo :=
  congrArg Orders.mktDataTodo (waitData_orders (i := s.curIdleTime) h).1.rest

end TwsDL

namespace StratDL

variable {s s' : StratDL} {p : Packet}

theorem finPacket_eq : s.finPacket = s.finRequest >>= fun r => r.1.lift (·.endPacket r.2) := by
  unfold finPacket
  refine bind_congr fun ⟨t, ok⟩ => ?_
  cases ok with
  | true => cases hp : t.dl.packet <;> simp [lift, TwsDL.endPacket, hp, deref]
  | false => cases hp : t.dl.packet <;> simp [lift, TwsDL.endPacket, hp, deref]

/-- **Finishing a request**, with a module: what it is without one, and
what the module does then. -/
theorem finPacket_afterwards (hp : s.dl.packet = some p)
    (ht : p.reqType = s.dl.currentRequest.reqType) :
    s.finPacket = s.dl.finPacket >>= s.afterwards p := by
  rw [finPacket_eq, TwsDL.finPacket_eq]
  cases p with
  | contractDetails q =>
      have hq : s.dl.currentRequest.reqType = .CONTRACT_DETAILS_REQUEST := ht.symm
      have hbase : s.dl.finRequest = s.dl.finContracts := by rw [TwsDL.finRequest, hq]
      have hfin : s.finRequest = s.finContracts := by rw [finRequest, hq]
      have hcast : Packet.asContractDetails s.dl.packet = .ok q := by rw [hp]; rfl
      rw [hbase, hfin, finContracts, hcast]
      rcases hc : s.dl.finContracts with f | ⟨dl, ok⟩
      · rfl
      · by_cases hT : q.error = .TWSCON
        · have ha : s.afterwards (.contractDetails q) = fun dl => .ok { s with dl := dl } := by
            funext dl
            simp [afterwards, hT]
          simp [ha, hT, lift]
        · have hpk := TwsDL.finContracts_packet hp hT hc
          obtain ⟨t, ht, hw, hset⟩ := TwsDL.endPacket_of_some hpk ok
          simp only [Exec.ok_bind, hT, if_false, ht, afterwards, hw]
          rcases addConId s.con_details dl.workTodo.mktDataTodo q.cdList with f | ⟨cds, v⟩
          · rfl
          · simp [lift, hset]
  | histData | accStatus | executions | orders | optParams =>
      have hfin : s.finRequest = s.dl.finRequest >>= fun r => .ok ({ s with dl := r.1 }, r.2) := by
        rw [finRequest, ← ht]
        rfl
      rw [hfin]
      rcases s.dl.finRequest with f | ⟨dl, ok⟩
      · rfl
      · rfl

theorem waitPacket_eq (hok : s.dl.jobs.Ok) : s.waitPacket = s.dl.waitPacket >>= s.file := by
  cases hp : s.dl.packet with
  | none =>
      have hc : s.dl.closing = none := by rw [TwsDL.closing, hp]
      simp [waitPacket, TwsDL.waitPacket, file, hp, hc]
  | some p =>
      have ht : p.reqType = s.dl.currentRequest.reqType := hok.packet_some p hp
      have hn : s.dl.currentRequest.reqType ≠ .NONE := ht ▸ p.reqType_ne_none
      simp only [waitPacket, TwsDL.waitPacket, hp, if_neg hn]
      by_cases hfin : p.finished = true
      · have hc : s.dl.closing = some p := by simp [TwsDL.closing, hp, hfin]
        have hfile : s.file = s.afterwards p := by
          funext dl
          rw [file, hc]
        rw [if_pos hfin, if_pos hfin, hfile, finPacket_afterwards hp ht]
      rw [if_neg hfin, if_neg hfin]
      by_cases hage : s.dl.currentRequest.age s.dl.now ≤ s.dl.cfg.tws_reqTimeout
      · have hc : s.dl.closing = none := by simp [TwsDL.closing, hp, hfin, hage]
        rw [if_pos hage, if_pos hage]
        simp [file, hc]
      -- a timeout closes the packet first
      rw [if_neg hage, if_neg hage]
      cases hcl : p.closeError .TIMEOUT with
      | error f => simp [TwsDL.closePacket, hp, deref, hcl, bind, Except.bind]
      | ok q =>
          have hclose : s.dl.closePacket .TIMEOUT = .ok { s.dl with packet := some q } := by
            simp [TwsDL.closePacket, hp, deref, hcl]
          have hfile : s.file = ({ s with dl := { s.dl with packet := some q } } :
              StratDL).afterwards q := by
            have hc : s.dl.closing = some q := by
              simp [TwsDL.closing, hp, hfin, hage, hcl, Except.toOption]
            funext dl
            rw [file, hc]
            rfl
          rw [hclose, hfile]
          exact finPacket_afterwards rfl ((Packet.reqType_closeError hcl).trans ht)

/-- **`waitData` with a module** is `waitData`, and then a row of contract
details is filed. -/
theorem waitData_eq (hok : s.dl.jobs.Ok) : s.waitData = s.dl.waitData >>= s.file := by
  rw [waitData, TwsDL.waitData]
  rcases hf : s.dl.finPlaceOrder with f | ⟨dl, b⟩
  · rfl
  · have hframe := TwsDL.finOrders_frame _ hf
    have hclosing : dl.closing = s.dl.closing := by
      rw [hframe]
      rfl
    have hfile : ({ s with dl := dl } : StratDL).file = s.file := by
      funext t
      unfold file
      rw [hclosing]
      rfl
    have hok' : dl.jobs.Ok := by rwa [TwsDL.finPlaceOrder_jobs hf]
    have heq := waitPacket_eq (s := { s with dl := dl }) hok'
    rw [hfile] at heq
    exact heq

/-! ## A turn -/

/-- **What the module may be expected to leave alone**: the request that is
open, what is asked for, and what the program found out itself. -/
structure Leaves (s s' : StratDL) : Prop where
  state : s'.dl.state = s.dl.state
  currentRequest : s'.dl.currentRequest = s.dl.currentRequest
  packet : s'.dl.packet = s.dl.packet
  contractDetailsTodo : s'.dl.workTodo.contractDetailsTodo = s.dl.workTodo.contractDetailsTodo
  mktDataTodo : s'.dl.workTodo.mktDataTodo = s.dl.workTodo.mktDataTodo
  con_details : s'.con_details = s.con_details

/-- The requests for market data, and the rows that are kept, stay. -/
def SameFile (s s' : StratDL) : Prop :=
  s'.dl.workTodo.mktDataTodo = s.dl.workTodo.mktDataTodo ∧ s'.con_details = s.con_details

/-- **What the rest of a turn does**, no request being open: what it does
without a module, or the module works. -/
inductive Rest (s s' : StratDL) : Prop
  | jobs : s.dl.jobs.Worked s'.dl.jobs → s.SameFile s' → Rest s s'
  | «module» : s.Leaves s' → Rest s s'

/-- **What a turn does.** -/
inductive Turned (s s' : StratDL) : Prop
  /-- The connection is not complete. -/
  | connect (st : State) : s.dl.currentRequest.reqType = .NONE →
      s'.dl.jobs = { s.dl.jobs with state := st } → s.SameFile s' → Turned s s'
  /-- A request is open still, or the program is to quit. -/
  | wait : s.waitData = .ok s' → Turned s s'
  /-- None is open. -/
  | work {s₁ : StratDL} : s.dl.state = .IDLE → s.waitData = .ok s₁ →
      s₁.dl.currentRequest.reqType = .NONE → s₁.Rest s' → Turned s s'

variable {work_dso : StratDL → Exec Assertion StratDL} {c : Connect}

theorem lift_eq_ok {f : TwsDL → Exec Assertion TwsDL} :
    s.lift f = .ok s' ↔ ∃ dl, f s.dl = .ok dl ∧ s' = { s with dl := dl } := by
  simp only [lift, Exec.bind_eq_ok]
  exact exists_congr fun dl => and_congr_right fun _ =>
    ⟨fun h => (Except.ok.inj h).symm, fun h => congrArg Except.ok h.symm⟩

theorem Leaves.trans {s₁ : StratDL} (h : s.Leaves s₁) (h' : s₁.Leaves s') : s.Leaves s' where
  state := h'.state.trans h.state
  currentRequest := h'.currentRequest.trans h.currentRequest
  packet := h'.packet.trans h.packet
  contractDetailsTodo := h'.contractDetailsTodo.trans h.contractDetailsTodo
  mktDataTodo := h'.mktDataTodo.trans h.mktDataTodo
  con_details := h'.con_details.trans h.con_details

theorem leaves_of_jobs {q : Bool} (hj : s'.dl.jobs = { s.dl.jobs with quit := q })
    (hs : s.SameFile s') : s.Leaves s' where
  state := congrArg Jobs.state hj
  currentRequest := congrArg Jobs.request hj
  packet := congrArg Jobs.packet hj
  contractDetailsTodo := congrArg Jobs.contractDetailsTodo hj
  mktDataTodo := hs.1
  con_details := hs.2

theorem request_of_ne {t : ReqType} (ht : t ≠ .NONE) :
    s.request work_dso t = s.lift (·.request t) := by
  cases t with
  | NONE => exact absurd rfl ht
  | _ => rfl

theorem request_mktDataTodo {t : ReqType} {dl dl' : TwsDL} (ht : t ≠ .NONE)
    (h : dl.request t = .ok dl') : dl'.workTodo.mktDataTodo = dl.workTodo.mktDataTodo := by
  obtain ⟨r, ho | ⟨-, ho⟩⟩ := TwsDL.request_orders ht h
  · exact congrArg Orders.mktDataTodo ho
  · exact congrArg Orders.mktDataTodo ho

/-- **What the rest of a turn does**, while connected. -/
theorem work_rest (hm : ∀ s s', work_dso s = .ok s' → s.Leaves s')
    (h : s.work work_dso = .ok s') : s.Rest s' := by
  simp only [work, Exec.bind_eq_ok] at h
  obtain ⟨dl, h₁, s₂, h₂, h⟩ := h
  have hw := TwsDL.startMktData_workTodo h₁
  have hjobs : ({ dl with workTodo := dl.workTodo.nextReqType.1 } : TwsDL).jobs = s.dl.jobs :=
    (TwsDL.nextReqType_jobs dl).trans (TwsDL.startMktData_jobs h₁)
  have hmkt : dl.workTodo.nextReqType.1.mktDataTodo = s.dl.workTodo.mktDataTodo :=
    (congrArg Orders.mktDataTodo (TwsDL.nextReqType_orders dl)).trans (by rw [← hw]; rfl)
  rw [← Except.ok.inj h]
  by_cases ht : dl.workTodo.nextReqType.2 = .NONE
  · -- the module works, and then the orders are placed
    rw [ht, request] at h₂
    simp only [Exec.bind_eq_ok] at h₂
    obtain ⟨s₁, hwork, h₂⟩ := h₂
    obtain ⟨t, hplace, rfl⟩ := lift_eq_ok.1 h₂
    have hdone : ∃ q, (t.checkDone .NONE).jobs = { t.jobs with quit := q } ∧
        (t.checkDone .NONE).workTodo = t.workTodo := by
      unfold TwsDL.checkDone
      split
      · exact ⟨true, rfl, rfl⟩
      · exact ⟨t.quit, rfl, rfl⟩
    obtain ⟨q, hq, hqw⟩ := hdone
    have hplaced : t.jobs = s₁.dl.jobs := TwsDL.placeOrders_jobs _ hplace
    rw [hplaced] at hq
    have hbegin : s.Leaves { s with dl := { dl with workTodo := dl.workTodo.nextReqType.1 } } :=
      leaves_of_jobs (q := s.dl.quit) hjobs ⟨hmkt, rfl⟩
    have hend : s₁.Leaves { s₁ with dl := t.checkDone dl.workTodo.nextReqType.2 } := by
      rw [ht]
      exact leaves_of_jobs hq ⟨(congrArg WorkTodo.mktDataTodo hqw).trans
        (TwsDL.placeAllOrders_placed hplace).mktDataTodo, rfl⟩
    exact .module (hbegin.trans ((hm _ _ hwork).trans hend))
  · rw [request_of_ne ht] at h₂
    obtain ⟨t, hreq, rfl⟩ := lift_eq_ok.1 h₂
    have hdone : t.checkDone dl.workTodo.nextReqType.2 = t := if_neg fun h => ht h.1
    have hworked := (TwsDL.request_cases hreq).1
    rw [hjobs] at hworked
    refine .jobs ?_ ⟨?_, rfl⟩
    · dsimp only
      rw [hdone]
      exact hworked
    · dsimp only
      rw [hdone]
      exact (request_mktDataTodo ht hreq).trans hmkt

/-- Another idle time. -/
def tick (i : ℤ) (s : StratDL) : StratDL := { s with dl := { s.dl with curIdleTime := i } }

/-- **What a turn does.** -/
theorem turn_turned (hok : s.dl.jobs.Ok) (hm : ∀ s s', work_dso s = .ok s' → s.Leaves s')
    (h : s.turn work_dso c = .ok s') :
    ∃ s₁ i, (s.tick (-1)).Turned s₁ ∧ s' = s₁.tick i := by
  simp only [turn, Exec.bind_eq_ok] at h
  obtain ⟨s₁, h₁, h⟩ := h
  have hturned : (s.tick (-1)).Turned s₁ := by
    split at h₁
    · rename_i hst
      obtain ⟨dl, hwait, rfl⟩ := lift_eq_ok.1 h₁
      have hn := hok.waiting hst
      obtain ⟨st, hj⟩ := TwsDL.waitTwsCon_jobs (s := (s.tick (-1)).dl) hn hwait
      obtain ⟨r, ho⟩ := TwsDL.waitTwsCon_orders hwait
      exact .connect st hn hj ⟨congrArg Orders.mktDataTodo ho, rfl⟩
    · rename_i hst
      simp only [idle, Exec.bind_eq_ok] at h₁
      obtain ⟨s₂, hwait, h₁⟩ := h₁
      split at h₁
      · rw [← Except.ok.inj h₁]
        exact .wait hwait
      · rename_i hq
        have hn : s₂.dl.currentRequest.reqType = .NONE := not_not.1 (not_or.1 hq).2
        split at h₁
        · obtain ⟨dl, hcon, rfl⟩ := lift_eq_ok.1 h₁
          obtain ⟨st, hj⟩ := TwsDL.connectTws_jobs hcon
          have ho := TwsDL.connectTws_orders hcon
          refine .work hst hwait hn (.jobs ?_ ⟨congrArg Orders.mktDataTodo ho, rfl⟩)
          rw [hj]
          exact .stay st
        · exact .work hst hwait hn (work_rest hm h₁)
  split at h
  · exact ⟨s₁, 50, hturned, (Except.ok.inj h).symm⟩
  · exact ⟨s₁, s₁.dl.curIdleTime, hturned, (Except.ok.inj h).symm⟩

end StratDL

end Twstools
