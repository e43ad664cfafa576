import Twstools.Jobs.Runs
import Twstools.Twsdo.Output
/-!
# One request at a time

A request is an exchange: the program asks, writes the packet that was
opened for the answer unless it gives it up, and deletes the packet. The
requests of a run are made one after the other, under the numbers from 1
on. Only the last one may be open still.
-/

namespace Twstools

/-- **The packet for the answer** to what an action asks for under the
number `n`: it is of the same kind and carries the number and what was
asked for. -/
def Action.AskedFor (n : ℤ) : Action → Packet → Prop
  | .reqContractDetails m c, .contractDetails p =>
      m = n ∧ p.reqId = n ∧ p.request.map (·.ibContract) = some c
  | .reqHistoricalData m r, .histData p => m = n ∧ p.reqId = n ∧ p.request = some r
  | .reqSecDefOptParams m c, .optParams p =>
      m = n ∧ p.reqId = n ∧ p.request.map (·.ibContract) = some c
  | .reqAccountUpdates subscribe acctCode, .accStatus p => p.request = some ⟨subscribe, acctCode⟩
  | .reqExecutions m, .executions p => m = n ∧ p.reqId = n
  | .reqAllOpenOrders, .orders _ => True
  | _, _ => False

/-- **The exchanges up to the number `n`.** -/
inductive Exchanges : ℤ → List Action → Prop
  | nil : Exchanges 0 []
  /-- The answer was closed by an error and is not written. -/
  | dropped {n : ℤ} {l : List Action} {a : Action} {p : Packet} : Exchanges n l →
      a.AskedFor (n + 1) p → p.finished = true → p.Numbered → p.getError ≠ .NONE →
      Exchanges (n + 1) (l ++ [a, .delete p])
  /-- It is written. Account, executions and orders are written in any case. -/
  | written {n : ℤ} {l : List Action} {a : Action} {p : Packet} {job : Option HistJob} :
      Exchanges n l → a.AskedFor (n + 1) p → p.finished = true →
      (p.Numbered → p.getError = .NONE) →
      Exchanges (n + 1) (l ++ [a, .dumpXml p job, .delete p])

/-- Packets for one question about the account, or for executions under one
number. -/
def Packet.SameQuestion : Packet → Packet → Prop
  | .accStatus p, .accStatus p' => p'.request = p.request
  | .executions p, .executions p' => p'.reqId = p.reqId
  | _, _ => True

namespace Action

variable {a : Action} {n : ℤ} {p p' : Packet} {e : Event}

/-- An answer without a number is told by its kind, and by the question its
packet keeps. -/
theorem AskedFor.of_reqType (h : a.AskedFor n p) (hN : ¬ p.Numbered)
    (ht : p'.reqType = p.reqType) (hr : p.SameQuestion p') : a.AskedFor n p' := by
  cases p <;> cases p' <;> cases a <;>
    simp_all [AskedFor, Packet.reqType, Packet.Numbered, Packet.SameQuestion]

theorem AskedFor.closeError {err : ReqErr} (h : a.AskedFor n p)
    (hc : p.closeError err = .ok p') : a.AskedFor n p' := by
  rcases Packet.closeError_eq_ok hc with ⟨-, rfl⟩ | ⟨-, rfl⟩
  · cases p <;> cases a <;> exact h
  · exact h

/-- **A callback leaves what a packet is for.** -/
theorem AskedFor.called {q : GenericRequest} (h : a.AskedFor q.reqId p) (hc : p.Called e q p')
    (hr : p.SameQuestion p') : a.AskedFor q.reqId p' := by
  cases hc with
  | stay => exact h
  | contractRow _ _ hn =>
      cases a with
      | reqContractDetails => exact ⟨h.1, hn, h.2.2⟩
      | _ => exact h.elim
  | optRow _ _ hn =>
      cases a with
      | reqSecDefOptParams => exact ⟨h.1, hn, h.2.2⟩
      | _ => exact h.elim
  | histRow | histEnd | contractEnd | optEnd => cases a <;> exact h
  | other hN ht => exact h.of_reqType hN ht hr
  | closed _ _ _ hcl => exact h.closeError hcl

end Action

namespace Jobs

variable {j j' : Jobs} {p : Packet} {e : Event}

/-- **The requests so far**: the exchanges, and the question that is not
answered yet. -/
inductive Serial (j : Jobs) : Prop
  | closed : j.request.reqType = .NONE → Exchanges j.request.reqId j.log → Serial j
  | asked {n : ℤ} {l : List Action} {a : Action} {p : Packet} : j.request.reqType = p.reqType →
      j.request.reqId = n + 1 → Exchanges n l → j.log = l ++ [a] → j.packet = some p →
      a.AskedFor (n + 1) p → Serial j

theorem Serial.of_eq (h : j.Serial) (hr : j'.request = j.request) (hp : j'.packet = j.packet)
    (hl : j'.log = j.log) : j'.Serial := by
  cases h with
  | closed hn hs => exact .closed (hr ▸ hn) (by rw [hr, hl]; exact hs)
  | asked ht hi hs hlog hpk ha =>
      exact .asked (hr ▸ ht) (hr ▸ hi) hs (hl.trans hlog) (hp.trans hpk) ha

/-- With no request open all are answered. -/
theorem Serial.served (h : j.Serial) (hn : j.request.reqType = .NONE) :
    Exchanges j.request.reqId j.log := by
  cases h with
  | closed _ hs => exact hs
  | asked ht hi hs hlog hpk ha => exact absurd (ht.symm.trans hn) (Packet.reqType_ne_none _)

theorem Serial.called (h : j.Serial) (hok : j.Ok) (hc : j.Called e j')
    (hr : ∀ p p', j.packet = some p → j'.packet = some p' → p.SameQuestion p') : j'.Serial := by
  cases hc with
  | none => exact h
  | some hp hcall hh =>
      cases h with
      | closed hn => exact absurd hn (hok.packet_some _ hp ▸ Packet.reqType_ne_none _)
      | asked ht hi hs hlog hpk ha =>
          obtain rfl := Option.some.inj (hp.symm.trans hpk)
          refine .asked (ht.trans hcall.reqType_eq.symm) hi hs hlog rfl ?_
          rw [← hi] at ha ⊢
          exact ha.called hcall (hr _ _ hp rfl)

theorem finished_of_closeError {q : Packet} {err : ReqErr} (h : p.closeError err = .ok q) :
    q.finished = true := by
  rcases Packet.closeError_eq_ok h with ⟨-, rfl⟩ | ⟨hm, rfl⟩
  · simp [Packet.finished, PacketBase.finished]
  · simpa [Packet.finished, PacketBase.finished] using hm

/-- **Finishing a request writes its packet** unless it was closed by an
error. -/
theorem Finished.log_cases (h : j.Finished p j') :
    p.Numbered ∧ p.getError ≠ .NONE ∧ j'.log = j.log ∨
      (p.Numbered → p.getError = .NONE) ∧ ∃ job, j'.log = j.log ++ [.dumpXml p job] := by
  cases h with
  | contractDetailsAgain ht he => exact .inl ⟨.inl ht, by rw [he]; decide, rfl⟩
  | optParamsAgain ht he => exact .inl ⟨.inr (.inr ht), by rw [he]; decide, rfl⟩
  | histDumped ht he => exact .inr ⟨fun _ => he, _, rfl⟩
  | histDone ht he | histAgain ht he => exact .inl ⟨.inr (.inl ht), he, rfl⟩
  | dumped ht he => exact .inr ⟨he, _, rfl⟩
  | dropped hN ht he => exact .inl ⟨hN, he, rfl⟩

theorem Serial.waited (h : j.Serial) (hok : j.Ok) (hw : j.Waited j') : j'.Serial := by
  cases hw with
  | stay => exact h
  | @fin q p' j₁ hp hc hf =>
      cases h with
      | closed hn => exact absurd hn (hok.packet_some _ hp ▸ Packet.reqType_ne_none _)
      | @asked n l a _ ht hi hs hlog hpk ha =>
          obtain rfl := Option.some.inj (hp.symm.trans hpk)
          have hA : a.AskedFor (n + 1) p' ∧ p'.finished = true := by
            rcases hc with ⟨rfl, hfin⟩ | ⟨-, hcl⟩
            · exact ⟨ha, hfin⟩
            · exact ⟨ha.closeError hcl, finished_of_closeError hcl⟩
          refine .closed rfl ?_
          have hid : j.request.close.reqId = n + 1 := hi
          rw [hid]
          rcases hf.log_cases with ⟨hN, he, hl⟩ | ⟨he, job, hl⟩
          · rw [hl, hlog, List.append_assoc]
            exact hs.dropped hA.1 hA.2 hN he
          · rw [hl, hlog, List.append_assoc, List.append_assoc]
            exact hs.written hA.1 hA.2 he

end Jobs

namespace TwsDL

variable {s s' : TwsDL} {e : Event} {evs : List Event} {cfg : ConfigTwsdo} {async : Bool}
variable {jobs : List Job}

/-- **What a request asks for**, if the program does not put it off. -/
inductive Asked (s s' : TwsDL) : Prop
  | later : s'.jobs.request = s.jobs.request → s'.jobs.packet = s.jobs.packet →
      s'.jobs.log = s.jobs.log → Asked s s'
  | now {a : Action} {p : Packet} :
      s'.jobs.request = ⟨p.reqType, s.jobs.request.reqId + 1, s.now⟩ →
      s'.jobs.packet = some p → p.finished = false → s'.jobs.log = s.jobs.log ++ [a] →
      a.AskedFor (s.jobs.request.reqId + 1) p → Asked s s'

/-- The request, its packet and what was sent for it. -/
theorem asked_act {a : Action} {p : Packet} (ha : a.ofRequest = true) (hf : p.finished = false)
    (hA : a.AskedFor (s.currentRequest.reqId + 1) p) : Asked s (({ s with
      currentRequest := ⟨p.reqType, s.currentRequest.reqId + 1, s.now⟩
      packet := some p } : TwsDL).act a) := by
  refine .now (a := a) (p := p) rfl rfl hf ?_ hA
  rw [act_jobs_ofRequest ha]
  rfl

theorem request_asked {t : ReqType} (h : s.request t = .ok s') : Asked s s' := by
  cases t with
  | NONE =>
      have hj : s'.jobs = s.jobs := placeOrders_jobs _ h
      exact .later (by rw [hj]) (by rw [hj]) (by rw [hj])
  | CONTRACT_DETAILS_REQUEST =>
      simp only [request, reqContractDetails] at h
      split at h
      · simp only [Exec.bind_eq_ok, PacketContractDetails.record] at h
        obtain ⟨todo, -, r, -, s₁, h₁, p, ⟨-, -, hp⟩, h⟩ := h
        obtain rfl := eq_of_nextRequest h₁
        rw [← Except.ok.inj h, ← Except.ok.inj hp]
        exact .now (a := .reqContractDetails (s.currentRequest.reqId + 1) r.ibContract)
          (p := .contractDetails _) rfl rfl rfl (by rw [act_jobs_ofRequest rfl]; rfl)
          ⟨rfl, rfl, rfl⟩
      · rw [← Except.ok.inj h]
        exact .later rfl rfl rfl
  | HIST_REQUEST =>
      simp only [request, reqHistoricalData, Exec.bind_eq_ok, PacketHistData.record] at h
      obtain ⟨-, -, ⟨hT, pG, wait⟩, -, h⟩ := h
      split at h
      · rw [← Except.ok.inj h]
        exact .later rfl rfl rfl
      · simp only [Exec.bind_eq_ok] at h
        obtain ⟨s₁, h₁, hR, -, pG', -, p, ⟨-, -, hp⟩, h⟩ := h
        obtain rfl := eq_of_nextRequest h₁
        rw [← Except.ok.inj h, ← Except.ok.inj hp]
        exact .now (a := .reqHistoricalData (s.currentRequest.reqId + 1) hR)
          (p := .histData _) rfl rfl rfl (by rw [act_jobs_ofRequest rfl]; rfl) ⟨rfl, rfl, rfl⟩
  | OPT_PARAMS_REQUEST =>
      simp only [request, reqOptParams] at h
      split at h
      · simp only [Exec.bind_eq_ok, PacketOptParams.record] at h
        obtain ⟨todo, -, r, -, s₁, h₁, p, ⟨-, -, hp⟩, h⟩ := h
        obtain rfl := eq_of_nextRequest h₁
        rw [← Except.ok.inj h, ← Except.ok.inj hp]
        exact .now (a := .reqSecDefOptParams (s.currentRequest.reqId + 1) r.ibContract)
          (p := .optParams _) rfl rfl rfl (by rw [act_jobs_ofRequest rfl]; rfl) ⟨rfl, rfl, rfl⟩
      · rw [← Except.ok.inj h]
        exact .later rfl rfl rfl
  | ACC_STATUS_REQUEST =>
      simp only [request, reqAccStatus, PacketAccStatus.record, Exec.bind_eq_ok] at h
      obtain ⟨s₁, h₁, p, ⟨-, -, hp⟩, h⟩ := h
      obtain rfl := eq_of_nextRequest h₁
      rw [← Except.ok.inj h, ← Except.ok.inj hp]
      exact asked_act (p := .accStatus _) rfl rfl rfl
  | EXECUTIONS_REQUEST =>
      simp only [request, reqExecutions, PacketExecutions.record, Exec.bind_eq_ok] at h
      obtain ⟨s₁, h₁, p, ⟨-, -, hp⟩, h⟩ := h
      obtain rfl := eq_of_nextRequest h₁
      rw [← Except.ok.inj h, ← Except.ok.inj hp]
      exact asked_act (p := .executions _) rfl rfl ⟨rfl, rfl⟩
  | ORDERS_REQUEST =>
      simp only [request, reqOrders, PacketOrders.record, Exec.bind_eq_ok] at h
      obtain ⟨s₁, h₁, p, ⟨-, -, hp⟩, h⟩ := h
      obtain rfl := eq_of_nextRequest h₁
      rw [← Except.ok.inj h, ← Except.ok.inj hp]
      exact asked_act (p := .orders _) rfl rfl trivial

theorem Asked.serial (h : Asked s s') (hn : s.currentRequest.reqType = .NONE)
    (hS : s.jobs.Serial) : s'.jobs.Serial := by
  cases h with
  | later hr hp hl => exact hS.of_eq hr hp hl
  | now hr hp _ hl hA =>
      exact .asked (by rw [hr]) (by rw [hr]) (hS.served hn) hl hp hA

theorem work_serial (hn : s.currentRequest.reqType = .NONE) (hS : s.jobs.Serial)
    (h : s.work = .ok s') : s'.jobs.Serial := by
  simp only [work, Exec.bind_eq_ok] at h
  obtain ⟨s₁, h₁, s₂, h₂, h⟩ := h
  have hj := (nextReqType_jobs s₁).trans (startMktData_jobs h₁)
  have hn₁ : s₁.currentRequest.reqType = .NONE := by
    rw [← hn]
    exact congrArg (fun j : Jobs => j.request.reqType) (startMktData_jobs h₁)
  have hS₂ := (request_asked h₂).serial hn₁ (by rwa [hj])
  rw [← Except.ok.inj h, checkDone]
  split
  · exact hS₂.of_eq rfl rfl rfl
  · exact hS₂

/-- **A turn** finishes the open request before it makes the next one. -/
theorem turn_serial {c : Connect} (hok : s.jobs.Ok) (hS : s.jobs.Serial) (h : s.turn c = .ok s') :
    s'.jobs.Serial := by
  obtain ⟨s₁, i, hpath, rfl⟩ := turn_path h
  have hwait : ∀ s₂, ({ s with curIdleTime := -1 } : TwsDL).waitData = .ok s₂ →
      s₂.jobs.Serial := fun s₂ hw =>
    hS.waited hok (waitData_cases (s := { s with curIdleTime := -1 }) hok hw)
  suffices s₁.jobs.Serial from this
  cases hpath with
  | connecting hst hw =>
      have hn := hok.waiting hst
      obtain ⟨st, hj⟩ := waitTwsCon_jobs (s := { s with curIdleTime := -1 }) hn hw
      rw [hj]
      exact hS.of_eq rfl rfl rfl
  | waiting _ hw _ => exact hwait _ hw
  | reconnecting _ hw _ _ _ hcon =>
      obtain ⟨st, hj⟩ := connectTws_jobs hcon
      rw [hj]
      exact (hwait _ hw).of_eq rfl rfl rfl
  | working _ hw _ hn _ hwork => exact work_serial hn (hwait _ hw) hwork

/-- **A callback leaves the question** for the account and for executions. -/
theorem handle_sameQuestion {p p' : Packet} (hok : s.jobs.Ok) (ht : ∀ c, e ≠ .turn c)
    (h : s.handle e = .ok s') (hp : s.packet = some p) (hp' : s'.packet = some p') :
    p.SameQuestion p' := by
  have hq : s.currentRequest.reqType = p.reqType := (hok.packet_some _ hp).symm
  by_cases ha : e.answerTo = some p.reqType
  · cases p with
    | accStatus q =>
        have row : ∀ {f : PacketAccStatus → PacketAccStatus}, (f q).request = q.request →
            s.onAccStatus f = .ok s' → (Packet.accStatus q).SameQuestion p' := by
          intro f hf h
          have hk : s.currentRequest.reqType = .ACC_STATUS_REQUEST := hq
          rw [onAccStatus, if_neg (not_not.2 hk), hp] at h
          obtain rfl := Except.ok.inj h
          obtain rfl := Option.some.inj hp'
          exact hf
        cases e with
        | updateAccountValue | updateAccountTime | accountDownloadEnd => exact row rfl h
        | updatePortfolio => exact row rfl (twsUpdatePortfolio_eq_ok.1 h).2
        | _ => cases ha
    | executions q =>
        have row : ∀ {f : PacketExecutions → PacketExecutions}, (f q).reqId = q.reqId →
            s.onExecutions f = .ok s' → (Packet.executions q).SameQuestion p' := by
          intro f hf h
          have hk : s.currentRequest.reqType = .EXECUTIONS_REQUEST := hq
          rw [onExecutions, if_neg (not_not.2 hk), hp] at h
          obtain rfl := Except.ok.inj h
          obtain rfl := Option.some.inj hp'
          exact hf
        cases e with
        | execDetails | execDetailsEnd => exact row rfl h
        | _ => cases ha
    | _ => trivial
  · have same : s.Unnumbered → p' = p := fun hun => by
      rw [handle_packet hun ht (hq ▸ ha) h, hp] at hp'
      exact (Option.some.inj hp').symm
    cases p with
    | accStatus q =>
        obtain rfl := same (by simp [Unnumbered, hq, Packet.reqType])
        rfl
    | executions q =>
        obtain rfl := same (by simp [Unnumbered, hq, Packet.reqType])
        rfl
    | _ => trivial

theorem run_serial (h : Run Step (start cfg async jobs) evs s) : s.jobs.Ok ∧ s.jobs.Serial := by
  refine h.invariant (I := fun s => s.jobs.Ok ∧ s.jobs.Serial)
    ⟨.of_none rfl rfl, .closed rfl .nil⟩ ?_
  rintro s e s' ⟨hok, hS⟩ hstep
  refine ⟨step_ok hok hstep, ?_⟩
  by_cases ht : ∃ c, e = .turn c
  · obtain ⟨c, rfl⟩ := ht
    exact turn_serial hok hS hstep.2
  · have ht' : ∀ c, e ≠ .turn c := fun c he => ht ⟨c, he⟩
    exact hS.called hok (handle_called hok ht' hstep.2)
      fun p p' => handle_sameQuestion hok ht' hstep.2

/-- **One request at a time.** In every state of a run what was done for
requests is a sequence of exchanges with the numbers from 1 on: the
question, its answer, unless an error closed it, and the end of the packet.
A request that is open comes after all of them, and its packet is for what
was asked last. -/
theorem requests_serial (h : Run Step (start cfg async jobs) evs s) :
    s.currentRequest.reqType = .NONE ∧
        Exchanges s.currentRequest.reqId (s.out.filter (·.ofRequest)) ∨
      ∃ l a p, s.packet = some p ∧ s.currentRequest.reqType = p.reqType ∧
        Exchanges (s.currentRequest.reqId - 1) l ∧ s.out.filter (·.ofRequest) = l ++ [a] ∧
        a.AskedFor s.currentRequest.reqId p := by
  obtain ⟨hok, hS⟩ := run_serial h
  cases hS with
  | closed hn hs => exact .inl ⟨hn, hs⟩
  | @asked n l a p ht hi hs hlog hpk hA =>
      have hid : s.currentRequest.reqId = n + 1 := hi
      refine .inr ⟨l, a, p, hpk, ht, ?_, hlog, hid ▸ hA⟩
      rw [hid, Int.add_sub_cancel]
      exact hs

/-- TWS does not know the contract, and then is asked for option
parameters. -/
def contractRejected : List Event :=
  connects 40000 1 ++ [.turn {}, .error { id := 1, code := 200, msg := "" }, .turn {}]

theorem requests_serial_rejected : ∃ s,
    Run Step (start {} false [.contract_details {}, .opt_params {}]) contractRejected s ∧
      ∃ l a p, s.packet = some p ∧ Exchanges 1 l ∧ s.out.filter (·.ofRequest) = l ++ [a] ∧
        a.AskedFor 2 p := by
  have hplay : ((contractRejected.foldlM next
      (start {} false [.contract_details {}, .opt_params {}])).map
      (·.currentRequest)) = some ⟨.OPT_PARAMS_REQUEST, 2, 40000⟩ := by
    decide +kernel
  obtain ⟨s, hs, hq⟩ := Option.map_eq_some_iff.1 hplay
  have hrun := Run.of_foldlM (fun _ _ _ => step_of_next) hs
  refine ⟨s, hrun, ?_⟩
  rcases requests_serial hrun with ⟨hn, -⟩ | ⟨l, a, p, hp, -, hserved, hlog, hA⟩
  · rw [hq] at hn
    cases hn
  · rw [hq] at hserved hA
    exact ⟨l, a, p, hp, hserved, hlog, hA⟩

end TwsDL

end Twstools
