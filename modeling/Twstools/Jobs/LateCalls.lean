import Twstools.Jobs.Responses
import Twstools.Jobs.HistJobs
import Twstools.Orders.Runs
import Twstools.Twsdo.Sites
/-!
# Answers to a closed packet

TWS may answer on while the program has closed the packet already: both
messages are handled before the event loop looks at the packet. Errors
leave a closed packet as it is. Rows and end marks do not: they assert
that the packet is open, so the first that comes late ends the program.
-/

namespace Twstools

open Exec

/-- The event is a row or an end mark. -/
def Event.IsAnswer (e : Event) : Prop := e.row ≠ none ∨ e.mark ≠ none

/-- It answers the request `q`. -/
def Event.AnswerTo (e : Event) (q : GenericRequest) : Prop :=
  e.mark = some (q.reqType, q.reqId) ∨ ∃ r, e.row = some (q.reqType, q.reqId, r)

namespace PacketContractDetails

variable {p : PacketContractDetails} {n : ℤ} {c : ContractDetails}

/-- A row under the right number is appended to an open packet. -/
theorem append_eq (hid : p.reqId = n) : p.append n c =
    if p.mode = .RECORD then .ok { p with cdList := p.cdList ++ [c] }
    else .error (.assertion .contractDetailsAppendMode) := by
  subst hid
  simp only [append, ite_self, ensure_of_true, ok_bind, ensure_bind, pure_eq_ok]

end PacketContractDetails

namespace PacketOptParams

variable {p : PacketOptParams} {n : ℤ} {r : RowOptParams}

/-- A row under the right number is appended to an open packet. -/
theorem append_eq (hid : p.reqId = n) : p.append n r =
    if p.mode = .RECORD then .ok { p with opList := p.opList ++ [r] }
    else .error (.assertion .optParamsAppendMode) := by
  subst hid
  simp only [append, ite_self, ensure_of_true, ok_bind, ensure_bind, pure_eq_ok]

end PacketOptParams

namespace TwsDL

variable {s s' s₁ : TwsDL} {e : Event} {evs before : List Event} {cfg : ConfigTwsdo}
variable {async : Bool} {jobs : List Job} {added : List HistJob} {site : Assertion} {p : Packet}

/-- An answer to the current request whose packet is closed already. -/
def LateAnswer (s : TwsDL) (e : Event) : Prop :=
  e.AnswerTo s.currentRequest ∧ ∃ p, s.packet = some p ∧ p.base.mode = .CLOSED

/-! ## Rows and end marks -/

theorem expect_of_eq {t : ReqType} {n : ℤ} {f : Exec Assertion TwsDL}
    (ht : s.currentRequest.reqType = t) (hn : s.currentRequest.reqId = n) :
    s.expect t n f = f := by
  rw [expect, if_neg (not_not.2 ht), if_neg (not_not.2 hn)]

theorem expect_of_ne {t : ReqType} {n : ℤ} {f : Exec Assertion TwsDL}
    (h : s.currentRequest.reqType = t → s.currentRequest.reqId ≠ n) : s.expect t n f = .ok s := by
  unfold expect
  split
  · rfl
  · rename_i ht
    rw [if_pos (h (not_not.1 ht))]
    rfl

/-- **What answers another request is ignored.** -/
theorem handle_of_not_answerTo (ha : e.IsAnswer) (h : ¬ e.AnswerTo s.currentRequest) :
    s.handle e = .ok s := by
  obtain ⟨hm, hr⟩ := not_or.1 h
  rw [not_exists] at hr
  cases e with
  | contractDetails n cd | bondContractDetails n cd =>
      exact expect_of_ne fun ht hn => hr (.contractDetails cd) (by rw [ht, hn]; rfl)
  | contractDetailsEnd n =>
      exact expect_of_ne fun ht hn => hm (by rw [ht, hn]; rfl)
  | historicalData n row =>
      refine expect_of_ne fun ht hn => ?_
      cases hf : row.isFinished with
      | true => exact hm (by rw [ht, hn]; simp [Event.mark, hf])
      | false => exact hr (.hist row) (by rw [ht, hn]; simp [Event.row, hf])
  | optParams n r =>
      exact expect_of_ne fun ht hn => hr (.optParams r) (by rw [ht, hn]; rfl)
  | optParamsEnd n =>
      exact expect_of_ne fun ht hn => hm (by rw [ht, hn]; rfl)
  | _ => exact absurd ha (by simp [Event.IsAnswer, Event.row, Event.mark])

/-- What an answer to the current request comes to: it is taken while the
packet is open, and fails at an assertion of its own otherwise. -/
def TakenIfOpen (s : TwsDL) (e : Event) : Prop :=
  ∃ p site s', s.packet = some p ∧ site.ofAnswer = true ∧ site ≠ .learnHmdsLastOk ∧
    s.handle e = if p.base.mode = .RECORD then .ok s' else .error (.assertion site)

theorem contractRow_taken {n : ℤ} {cd : ContractDetails} (hok : s.jobs.Ok)
    (hno : s.jobs.NumbersOk) (ht : s.currentRequest.reqType = .CONTRACT_DETAILS_REQUEST)
    (hn : s.currentRequest.reqId = n) : s.TakenIfOpen (.contractDetails n cd) := by
  obtain ⟨p, hp⟩ := contractDetails_of_ok hok ht
  have hid : p.reqId = n := (hno.packet _ hp (.inl rfl)).trans hn
  refine ⟨_, .contractDetailsAppendMode, { s with packet := some (.contractDetails
    { p with cdList := p.cdList ++ [cd] }) }, hp, rfl, by decide, ?_⟩
  simp only [handle, twsContractDetails, expect_of_eq ht hn, hp, Packet.asContractDetails,
    ok_bind, PacketContractDetails.append_eq hid, ite_bind]
  rfl

theorem optRow_taken {n : ℤ} {r : RowOptParams} (hok : s.jobs.Ok) (hno : s.jobs.NumbersOk)
    (ht : s.currentRequest.reqType = .OPT_PARAMS_REQUEST) (hn : s.currentRequest.reqId = n) :
    s.TakenIfOpen (.optParams n r) := by
  obtain ⟨p, hp⟩ := optParams_of_ok hok ht
  have hid : p.reqId = n := (hno.packet _ hp (.inr (.inr rfl))).trans hn
  refine ⟨_, .optParamsAppendMode, { s with packet := some (.optParams
    { p with opList := p.opList ++ [r] }) }, hp, rfl, by decide, ?_⟩
  simp only [handle, twsOptParams, expect_of_eq ht hn, hp, Packet.asOptParams,
    ok_bind, PacketOptParams.append_eq hid, ite_bind]
  rfl

theorem contractEnd_taken {n : ℤ} (hok : s.jobs.Ok)
    (ht : s.currentRequest.reqType = .CONTRACT_DETAILS_REQUEST)
    (hn : s.currentRequest.reqId = n) : s.TakenIfOpen (.contractDetailsEnd n) := by
  obtain ⟨p, hp⟩ := contractDetails_of_ok hok ht
  refine ⟨_, .contractDetailsSetFinished, { s with packet := some (.contractDetails
    { p with mode := .CLOSED }) }, hp, rfl, by decide, ?_⟩
  simp only [handle, twsContractDetailsEnd, expect_of_eq ht hn, hp, Packet.asContractDetails,
    ok_bind, PacketContractDetails.setFinished, ensure_bind, pure_eq_ok, ite_bind]
  rfl

theorem optEnd_taken {n : ℤ} (hok : s.jobs.Ok)
    (ht : s.currentRequest.reqType = .OPT_PARAMS_REQUEST) (hn : s.currentRequest.reqId = n) :
    s.TakenIfOpen (.optParamsEnd n) := by
  obtain ⟨p, hp⟩ := optParams_of_ok hok ht
  refine ⟨_, .optParamsSetFinished, { s with packet := some (.optParams
    { p with mode := .CLOSED }) }, hp, rfl, by decide, ?_⟩
  simp only [handle, twsOptParamsEnd, expect_of_eq ht hn, hp, Packet.asOptParams,
    ok_bind, PacketOptParams.setFinished, ensure_bind, pure_eq_ok, ite_bind]
  rfl

theorem hist_taken {n : ℤ} {row : RowHist} (hok : s.jobs.Ok) (hno : s.jobs.NumbersOk)
    (hh : s.jobs.HistOk added) (ht : s.currentRequest.reqType = .HIST_REQUEST)
    (hn : s.currentRequest.reqId = n) : s.TakenIfOpen (.historicalData n row) := by
  obtain ⟨p, hp⟩ := histData_of_ok hok ht
  have hid : p.reqId = n := (hno.packet _ hp (.inr (.inl rfl))).trans hn
  obtain ⟨job, hjob, -⟩ := hh.request p hp
  have hcur : s.workTodo.histTodo.current = .ok job.request :=
    HistTodo.current_eq_ok.2 ⟨job, hjob, rfl⟩
  by_cases hm : p.mode = .RECORD
  · have herr : p.error = .NONE := hno.fresh _ hp (.inr (.inl rfl)) hm
    have hfin : p.finished = false := by simp [PacketBase.finished, hm]
    obtain ⟨p', hp'⟩ : ∃ p', p.append n row = .ok p' := by
      rw [PacketHistData.append, ensure_of_true ⟨hm, herr⟩, ensure_of_true hid]
      cases row.isFinished with
      | true => exact ⟨_, rfl⟩
      | false => exact ⟨_, rfl⟩
    refine ⟨_, .historicalDataFinished, { s with
      dataFarms := s.dataFarms.learnHmds job.request.ibContract
      packet := some (.histData p') }, hp, rfl, by decide, ?_⟩
    rw [if_pos (show (Packet.histData p).base.mode = .RECORD from hm)]
    simp only [handle, twsHistoricalData, expect_of_eq ht hn, hcur, hp, Packet.asHistData,
      ok_bind, ensure_of_true hfin, hp']
    rfl
  · have hfin : p.finished = true := by
      have hmode := hok.not_clean _ hp
      cases h : p.mode with
      | CLEAN => exact absurd h hmode
      | RECORD => exact absurd h hm
      | CLOSED => simp [PacketBase.finished, h]
    refine ⟨_, .historicalDataFinished, s, hp, rfl, by decide, ?_⟩
    rw [if_neg (show (Packet.histData p).base.mode ≠ .RECORD from hm)]
    simp [handle, twsHistoricalData, expect_of_eq ht hn, hcur, hp, Packet.asHistData, ensure,
      hfin, bind, Except.bind]

/-- **An answer to the current request is taken if its packet is open.** -/
theorem handle_of_answerTo (hok : s.jobs.Ok) (hno : s.jobs.NumbersOk) (hh : s.jobs.HistOk added)
    (ha : e.AnswerTo s.currentRequest) : s.TakenIfOpen e := by
  have mark : ∀ {t : ReqType} {n : ℤ}, e.mark = some (t, n) → e.row = none →
      s.currentRequest.reqType = t ∧ s.currentRequest.reqId = n := by
    rintro t n hm hr
    rcases ha with ha | ⟨r, ha⟩
    · obtain ⟨h₁, h₂⟩ := Prod.mk.inj (Option.some.inj (ha.symm.trans hm))
      exact ⟨h₁, h₂⟩
    · cases ha.symm.trans hr
  have row : ∀ {t : ReqType} {n : ℤ} {r : Row}, e.row = some (t, n, r) → e.mark = none →
      s.currentRequest.reqType = t ∧ s.currentRequest.reqId = n := by
    rintro t n r hr hm
    rcases ha with ha | ⟨r', ha⟩
    · cases ha.symm.trans hm
    · obtain ⟨h₁, h₂⟩ := Prod.mk.inj (Option.some.inj (ha.symm.trans hr))
      exact ⟨h₁, (Prod.mk.inj h₂).1⟩
  cases e with
  | contractDetails n cd | bondContractDetails n cd =>
      obtain ⟨ht, hn⟩ := row rfl rfl
      exact contractRow_taken hok hno ht hn
  | contractDetailsEnd n =>
      obtain ⟨ht, hn⟩ := mark rfl rfl
      exact contractEnd_taken hok ht hn
  | historicalData n r =>
      have h : s.currentRequest.reqType = .HIST_REQUEST ∧ s.currentRequest.reqId = n := by
        cases hf : r.isFinished with
        | true => exact mark (by simp [Event.mark, hf]) (by simp [Event.row, hf])
        | false => exact row (r := .hist r) (by simp [Event.row, hf]) (by simp [Event.mark, hf])
      exact hist_taken hok hno hh h.1 h.2
  | optParams n r =>
      obtain ⟨ht, hn⟩ := row rfl rfl
      exact optRow_taken hok hno ht hn
  | optParamsEnd n =>
      obtain ⟨ht, hn⟩ := mark rfl rfl
      exact optEnd_taken hok ht hn
  | _ => exact absurd ha (by simp [Event.AnswerTo, Event.row, Event.mark])

/-! ## Errors -/

/-- A packet that fits its request can be closed. -/
theorem closes_of_ok (hok : s.jobs.Ok) (hR : s.orders.Recorded) : s.Closes site :=
  ⟨fun p hp _ => PacketBase.closeError_spares_of_recorded (hok.not_clean p hp),
    fun id p hp _ => PacketBase.closeError_spares_of_recorded (hR id p hp)⟩

theorem errorHistData_spares {err : RowError} (hs : site.ofAnswer = true)
    (hl : site ≠ .learnHmdsLastOk) (hc : s.Closes site) :
    Spares (.assertion site) (s.errorHistData err) := by
  simp only [errorHistData, spares_bind]
  refine ⟨HistTodo.current_spares hs, fun hR _ => ⟨asHistData_spares, fun p _ => ?_⟩⟩
  split
  · exact errorHistService_spares hs hc
  split
  · exact errorHistServer_spares hl
  split
  · exact closePacket_spares hc
  split
  · exact closePacket_spares hc
  · exact spares_ok

/-- **A message fails at none of the assertions about answers**, but for the
one about a farm that is known wrong. -/
theorem twsError_spares {err : RowError} (hok : s.jobs.Ok) (hR : s.orders.Recorded)
    (hs : site.ofAnswer = true) (hl : site ≠ .learnHmdsLastOk) :
    Spares (.assertion site) (s.twsError err) := by
  cases hcon : s.connected with
  | false => exact twsError_spares_of_not_connected hs hcon
  | true =>
      unfold twsError
      have hc : ({ s with msgCounter := s.msgCounter + 1 } : TwsDL).Closes site :=
        closes_of_ok (s := { s with msgCounter := s.msgCounter + 1 }) hok hR
      rw [if_neg (by simp [hcon])]
      split
      · unfold errorRequest
        split
        · exact errorContracts_spares hc
        · exact errorContracts_spares hc
        · exact errorHistData_spares hs hl hc
        case h_7 => exact spares_ok
        all_goals exact spares_bind.2 ⟨spares_other hs .twsErrorRequestType rfl, fun _ _ =>
          spares_ok⟩
      · refine spares_bind.2 ⟨errorPlaceOrder_spares hs hc, fun s₂ h₂ => ?_⟩
        split
        · exact spares_ok
        · -- what was done to an order leaves the packet alone
          have hok₂ : s₂.jobs.Ok := by
            rw [(errorPlaceOrder_changed h₂).jobs]
            exact hok
          exact errorGeneric_spares hs
            (closes_of_ok hok₂ ((handled_kept (errorPlaceOrder_changed h₂).handled).recorded hR))

/-- **No other event ends the program** at an assertion about an answer. -/
theorem handle_spares_of_not_late (hok : s.jobs.Ok) (hno : s.jobs.NumbersOk)
    (hh : s.jobs.HistOk added) (hR : s.orders.Recorded) (ht : e.isTurn = false)
    (hl : ¬ s.LateAnswer e) (hs : site.ofAnswer = true) (hne : site ≠ .learnHmdsLastOk) :
    Spares (.assertion site) (s.handle e) := by
  by_cases ha : e.IsAnswer
  · by_cases hto : e.AnswerTo s.currentRequest
    · obtain ⟨p, x, s', hp, -, -, hx⟩ := handle_of_answerTo hok hno hh hto
      have hm : p.base.mode = .RECORD := by
        cases h : p.base.mode with
        | RECORD => rfl
        | CLEAN => exact absurd h (hok.not_clean p hp)
        | CLOSED => exact absurd ⟨hto, p, hp, h⟩ hl
      rw [hx, if_pos hm]
      exact spares_ok
    · rw [handle_of_not_answerTo ha hto]
      exact spares_ok
  · cases e with
    | error err => exact twsError_spares hok hR hs hne
    | turn c => cases ht
    | contractDetails | bondContractDetails | contractDetailsEnd | optParams | optParamsEnd =>
        exact absurd (by simp [Event.IsAnswer, Event.row, Event.mark]) ha
    | historicalData n row =>
        refine absurd ?_ ha
        cases hf : row.isFinished with
        | true => exact .inr (by simp [Event.mark, hf])
        | false => exact .inl (by simp [Event.row, hf])
    | _ => exact handle_spares hs rfl (closes_of_ok hok hR) fun _ c => Event.noConfusion

/-! ## Calls between two turns -/

/-- **What callbacks do between two turns is harmless.** They end the
program at no assertion about an answer, every row and end mark returns and
one that is late leaves the packet as it is, and the packet is in the end
what the first event that closed it has made of it, its error included. -/
structure CallsHarmless (s : TwsDL) (evs : List Event) : Prop where
  spares : ∀ site : Assertion, site.ofAnswer = true → site ≠ .learnHmdsLastOk →
    s.play evs ≠ .error (.assertion site)
  answers : ∀ pre e post s₁, evs = pre ++ e :: post → Run Step s pre s₁ → e.IsAnswer →
    ∃ s₂, s₁.handle e = .ok s₂ ∧ (s₁.LateAnswer e → s₂.packet = s₁.packet)
  first : ∀ pre e post s₁ s₂ s' p₁ p₂, evs = pre ++ e :: post → Run Step s pre s₁ →
    s₁.packet = some p₁ → p₁.base.mode = .RECORD → s₁.Step e s₂ → s₂.packet = some p₂ →
    p₂.base.mode = .CLOSED → Run Step s₂ post s' → s'.packet = some p₂

/-- **Callbacks leave a closed packet as it is.** -/
theorem packet_of_closed (hok : s.jobs.Ok) (hp : s.packet = some p) (hn : p.Numbered)
    (hm : p.base.mode = .CLOSED) (hev : ∀ e ∈ evs, e.isTurn = false)
    (h : Run Step s evs s') : s'.packet = some p := by
  suffices s'.jobs.Ok ∧ s'.packet = some p from this.2
  induction h with
  | nil => exact ⟨hok, hp⟩
  | @snoc evs t t' e hrun hstep ih =>
      obtain ⟨hok, hp⟩ := ih fun e he => hev e (List.mem_append_left _ he)
      refine ⟨step_ok hok hstep, ?_⟩
      rcases step_cases hok hstep with ⟨⟨c, rfl⟩, -⟩ | ⟨-, hc⟩
      · exact absurd (hev (.turn c) (by simp)) (by simp [Event.isTurn])
      · have hp' : t.jobs.packet = some p := hp
        generalize hj : t'.jobs = j at hc
        cases hc with
        | none hnone => exact absurd (hnone.symm.trans hp') (by simp)
        | some hp₁ hpc hh =>
            obtain rfl := Option.some.inj (hp'.symm.trans hp₁)
            rw [hpc.eq_of_closed hn hm] at hj
            exact congrArg Jobs.packet hj

/-- They leave the request as it is, so its packet is of the same class. -/
theorem numbered_of_run {q : Packet} (hok : s.jobs.Ok) (hp : s.packet = some p)
    (hn : p.Numbered) (hev : ∀ e ∈ evs, e.isTurn = false) (h : Run Step s evs s')
    (hq : s'.packet = some q) : q.Numbered := by
  suffices s'.jobs.Ok ∧ ∃ q, s'.packet = some q ∧ q.Numbered by
    obtain ⟨-, q', hq', hn'⟩ := this
    rwa [Option.some.inj (hq.symm.trans hq')]
  clear hq
  induction h with
  | nil => exact ⟨hok, p, hp, hn⟩
  | @snoc evs t t' e hrun hstep ih =>
      obtain ⟨hok, p', hp, hn⟩ := ih fun e he => hev e (List.mem_append_left _ he)
      refine ⟨step_ok hok hstep, ?_⟩
      rcases step_cases hok hstep with ⟨⟨c, rfl⟩, -⟩ | ⟨-, hc⟩
      · exact absurd (hev (.turn c) (by simp)) (by simp [Event.isTurn])
      · have hp' : t.jobs.packet = some p' := hp
        generalize hj : t'.jobs = j at hc
        cases hc with
        | none hnone => exact absurd (hnone.symm.trans hp') (by simp)
        | @some p₁ p₂ T hp₁ hpc hh =>
            obtain rfl := Option.some.inj (hp'.symm.trans hp₁)
            exact ⟨p₂, congrArg Jobs.packet hj, hpc.numbered.2 hn⟩

/-- **Callbacks between two turns are harmless exactly when** no row and no
end mark of the current request comes after its packet has been closed. -/
theorem calls_harmless_iff (h : Run Step (start cfg async jobs) before s)
    (hp : s.packet = some p) (hn : p.Numbered) (hev : ∀ e ∈ evs, e.isTurn = false) :
    s.CallsHarmless evs ↔ ∀ pre e post s₁, evs = pre ++ e :: post → Run Step s pre s₁ →
      ¬ s₁.LateAnswer e := by
  have known : ∀ {pre : List Event} {s₁ : TwsDL}, Run Step s pre s₁ → s₁.jobs.Ok ∧
      s₁.jobs.NumbersOk ∧ s₁.jobs.HistOk (addedJobs jobs) ∧ s₁.orders.Recorded := fun hr =>
    ⟨run_ok (h.trans hr), run_numbersOk (h.trans hr), run_histOk (h.trans hr),
      run_recorded (h.trans hr)⟩
  constructor
  · -- a late answer fails, so it does not return
    rintro hharm pre e post s₁ rfl hr hlate
    obtain ⟨hok, hno, hh, -⟩ := known hr
    obtain ⟨p', site, s', hp', -, -, hx⟩ := handle_of_answerTo hok hno hh hlate.1
    obtain ⟨q, hq, hm⟩ := hlate.2
    obtain rfl := Option.some.inj (hp'.symm.trans hq)
    rw [if_neg (by simp [hm])] at hx
    have ha : e.IsAnswer := by
      rcases hlate.1 with ha | ⟨r, ha⟩
      · exact .inr (by simp [ha])
      · exact .inl (by simp [ha])
    obtain ⟨s₂, h₂, -⟩ := hharm.answers pre e post s₁ rfl hr ha
    rw [hx] at h₂
    cases h₂
  · intro hno
    refine ⟨fun site hs hne hf => ?_, ?_, ?_⟩
    · obtain ⟨pre, e, post, s₁, rfl, hr, -, he⟩ := play_eq_error.1 hf
      obtain ⟨hok, hnum, hh, hR⟩ := known hr
      exact handle_spares_of_not_late hok hnum hh hR (hev e (by simp))
        (hno pre e post s₁ rfl hr) hs hne he
    · -- an answer is taken by an open packet, or is for another request
      rintro pre e post s₁ rfl hr ha
      have hnl := hno pre e post s₁ rfl hr
      obtain ⟨hok, hnum, hh, -⟩ := known hr
      by_cases hto : e.AnswerTo s₁.currentRequest
      · obtain ⟨q, site, s₂, hq, -, -, hx⟩ := handle_of_answerTo hok hnum hh hto
        have hm : q.base.mode = .RECORD := by
          cases hm : q.base.mode with
          | RECORD => rfl
          | CLEAN => exact absurd hm (hok.not_clean q hq)
          | CLOSED => exact absurd ⟨hto, q, hq, hm⟩ hnl
        rw [if_pos hm] at hx
        exact ⟨s₂, hx, fun hl => absurd hl hnl⟩
      · exact ⟨s₁, handle_of_not_answerTo ha hto, fun hl => absurd hl hnl⟩
    · -- the packet is still numbered when it closes, so it stays
      rintro pre e post s₁ s₂ s' p₁ p₂ rfl hr hp₁ hm₁ hstep hp₂ hm₂ hpost
      have hev₂ : ∀ x ∈ pre ++ [e], x.isTurn = false := fun x hx => hev x (by
        rcases List.mem_append.1 hx with hx | hx
        · simp [hx]
        · simp [List.mem_singleton.1 hx])
      have hn₂ := numbered_of_run (run_ok h) hp hn hev₂ (hr.snoc hstep) hp₂
      exact packet_of_closed (step_ok (known hr).1 hstep) hp₂ hn₂ hm₂
        (fun x hx => hev x (by simp [hx])) hpost

/-- A historical job is asked for. -/
def oneJob : List Event := connects 40000 1 ++ [.turn {}]

/-- TWS sends the bars, and is cut off only then. -/
def answeredInTime : List Event :=
  [.historicalData 1 { date := "20120601" }, .historicalData 1 { date := "finished-" },
    .error ⟨-1, 1102, "Connectivity between IB and TWS has been restored - data maintained."⟩]

/-- Two of these calls, the other way round. -/
def answeredLate : List Event :=
  [.error ⟨-1, 1102, "Connectivity between IB and TWS has been restored - data maintained."⟩,
    .historicalData 1 { date := "20120601" }]

/-- In time they are harmless if none of them is late. -/
theorem calls_harmless_in_time : ∃ s p,
    Run Step (start {} false [.historical_data {}]) oneJob s ∧ s.packet = some p ∧
      p.Numbered ∧ (s.CallsHarmless answeredInTime ↔
        ∀ pre e post s₁, answeredInTime = pre ++ e :: post → Run Step s pre s₁ →
          ¬ s₁.LateAnswer e) ∧
      (s.play answeredInTime).fault = none := by
  have hout : (oneJob.foldlM next (start {} false [.historical_data {}])).bind (fun s =>
      s.packet.map fun p => (p.reqType, (s.play answeredInTime).fault)) =
        some (.HIST_REQUEST, none) := by
    decide +kernel
  obtain ⟨s, hs, hout⟩ := Option.bind_eq_some_iff.1 hout
  obtain ⟨p, hp, hout⟩ := Option.map_eq_some_iff.1 hout
  obtain ⟨ht, hf⟩ := Prod.mk.inj hout
  have h := Run.of_foldlM (fun _ _ _ => step_of_next) hs
  exact ⟨s, p, h, hp, .inr (.inl ht), calls_harmless_iff h hp (.inr (.inl ht)) (by decide), hf⟩

/-- **A bar that comes late ends the program.** -/
theorem late_bar_aborts : ∃ s p,
    Run Step (start {} false [.historical_data {}]) oneJob s ∧ s.packet = some p ∧
      p.reqType = .HIST_REQUEST ∧ p.base.mode = .RECORD ∧
      s.play answeredLate = .error (.assertion .historicalDataFinished) ∧
      ¬ s.CallsHarmless answeredLate := by
  have hout : (oneJob.foldlM next (start {} false [.historical_data {}])).bind (fun s =>
      s.packet.map fun p => (p.reqType, p.base.mode, (s.play answeredLate).fault)) =
        some (.HIST_REQUEST, .RECORD, some (.assertion .historicalDataFinished)) := by
    decide +kernel
  obtain ⟨s, hs, hout⟩ := Option.bind_eq_some_iff.1 hout
  obtain ⟨p, hp, hout⟩ := Option.map_eq_some_iff.1 hout
  obtain ⟨ht, hout⟩ := Prod.mk.inj hout
  obtain ⟨hm, hf⟩ := Prod.mk.inj hout
  have hplay := Exec.fault_eq_some.1 hf
  exact ⟨s, p, Run.of_foldlM (fun _ _ _ => step_of_next) hs, hp, ht, hm, hplay,
    fun hharm => hharm.spares _ rfl (by decide) hplay⟩

end TwsDL

end Twstools
