import Twstools.Jobs.ConIds
/-!
# Contract numbers over whole runs

The rows that arrive are filed one by one, in the order of the queries: in
every state of a run those of the queries that are answered have been. So
what is in the requests for market data in the end depends on the work
file and on the rows only (`con_ids_right_iff`).
-/

namespace Twstools

open Std

/-- How many of the queries are answered. -/
def Jobs.answered (j : Jobs) : ℕ :=
  (j.contractDetailsTodo.curIndex +
    if j.request.reqType = .CONTRACT_DETAILS_REQUEST then 0 else 1).toNat

/-- **The rows of the queries that are answered** have been filed. -/
structure Filing (r : ℕ → ℤ) (jobs : List Job) (j : Jobs) (v : List MktDataRequest)
    (con_details : TreeMap ℤ ContractDetails) : Prop where
  requests : j.contractDetailsTodo.requests = jobs.filterMap Job.contractJob
  index_ge : -1 ≤ j.contractDetailsTodo.curIndex
  index_lt : j.contractDetailsTodo.curIndex < (jobs.filterMap Job.contractJob).length
  asked : j.request.reqType = .CONTRACT_DETAILS_REQUEST → 0 ≤ j.contractDetailsTodo.curIndex
  rows : FiledRows (ownConIds jobs) (conIds r j.answered) v con_details

namespace StratDL

/-- The state of the filing. -/
def Filed (r : ℕ → ℤ) (jobs : List Job) (s : StratDL) : Prop :=
  Filing r jobs s.dl.jobs s.dl.workTodo.mktDataTodo s.con_details

/-- **One row for the query**: the request that the turn finishes got one,
with the conId that `r` tells, unless it has to be made again. -/
def OneRow (r : ℕ → ℤ) (s : StratDL) : Prop :=
  ∀ p, s.dl.closing = some (.contractDetails p) → p.error ≠ .TWSCON →
    ∃ cd, p.cdList = [cd] ∧
      cd.summary.conId = r s.dl.workTodo.contractDetailsTodo.curIndex.toNat

/-- A step in which every request gets one row. -/
def AnsweredStep (work_dso : StratDL → Exec Assertion StratDL) (r : ℕ → ℤ) (s : StratDL)
    (e : Event) (s' : StratDL) : Prop :=
  s.Step work_dso e s' ∧ (e.isTurn = true → s.OneRow r)

/-- All requests for contract details are finished. -/
def ContractsDone (s : StratDL) : Prop :=
  s.dl.currentRequest.reqType ≠ .CONTRACT_DETAILS_REQUEST ∧
    s.dl.workTodo.contractDetailsTodo.countLeft ≤ 0

/-- **The conIds are right**: filing a row ends the program nowhere, so no
index is out of range, and in the end each request for market data has the
conId in the row for the query of its own job. -/
structure RightConIds (r : ℕ → ℤ) (jobs : List Job) (s : StratDL) : Prop where
  inRange : s.OneRow r → ∀ f, s.waitData = .error f → s.dl.waitData = .error f
  own : s.ContractsDone → ∀ (j : ℕ) (q : MktDataRequest) (cdr : ContractDetailsRequest),
    jobs[j]? = some (.market_data q cdr) →
      ∃ q', s.dl.workTodo.mktDataTodo[tickerOf jobs j]? = some q' ∧
        q'.ibContract.conId = r (queryOf jobs j)

end StratDL

variable {r : ℕ → ℤ} {jobs : List Job} {j j' : Jobs} {v : List MktDataRequest}
variable {cds : TreeMap ℤ ContractDetails}

/-! ## Steps that file nothing -/

/-- Filing is about the queries, and whether one is open. -/
theorem Filing.of_eq (h : Filing r jobs j v cds)
    (ht : j'.contractDetailsTodo = j.contractDetailsTodo)
    (hq : j'.request.reqType = .CONTRACT_DETAILS_REQUEST ↔
      j.request.reqType = .CONTRACT_DETAILS_REQUEST) : Filing r jobs j' v cds where
  requests := by rw [ht, h.requests]
  index_ge := by rw [ht]; exact h.index_ge
  index_lt := by rw [ht]; exact h.index_lt
  asked hcd := by rw [ht]; exact h.asked (hq.1 hcd)
  rows := by
    have ha : j'.answered = j.answered := by simp only [Jobs.answered, ht, hq]
    rw [ha]
    exact h.rows

/-- A query that is asked is not answered yet. -/
theorem Filing.worked (h : Filing r jobs j v cds) (hn : j.request.reqType = .NONE)
    (hw : j.Worked j') : Filing r jobs j' v cds := by
  have hno : j.request.reqType ≠ .CONTRACT_DETAILS_REQUEST := by rw [hn]; decide
  have hge := h.index_ge
  cases hw with
  | stay st => exact h.of_eq rfl Iff.rfl
  | done h₁ h₂ h₃ => exact h.of_eq rfl Iff.rfl
  | contractDetails htodo hr =>
      obtain ⟨hleft, rfl⟩ := IndexTodo.checkout_eq_ok.1 htodo
      have hrows := h.rows
      rw [Jobs.answered, if_neg hno] at hrows
      unfold IndexTodo.countLeft at hleft
      rw [h.requests] at hleft
      refine ⟨h.requests, ?_, ?_, fun _ => ?_, ?_⟩
      · show -1 ≤ j.contractDetailsTodo.curIndex + 1
        omega
      · show j.contractDetailsTodo.curIndex + 1 < _
        omega
      · show 0 ≤ j.contractDetailsTodo.curIndex + 1
        omega
      · simpa [Jobs.answered] using hrows
  | optParams htodo hr => exact h.of_eq rfl (iff_of_false ReqType.noConfusion hno)
  | hist hc hj => exact h.of_eq rfl (iff_of_false ReqType.noConfusion hno)
  | other hN hb ha hq => exact h.of_eq rfl (iff_of_false (fun hq => hN (.inl hq)) hno)

/-! ## Steps that may file a row -/

theorem Jobs.Finished.contractDetails {q : PacketContractDetails}
    (h : j.Finished (.contractDetails q) j') :
    q.error = .TWSCON ∧ j.contractDetailsTodo.repeat = .ok j'.contractDetailsTodo ∨
      q.error ≠ .TWSCON ∧ j'.contractDetailsTodo = j.contractDetailsTodo := by
  cases h with
  | contractDetailsAgain ht he h => exact .inl ⟨he, h⟩
  | dumped hh hN =>
      have he : q.error = .NONE := hN (.inl rfl)
      exact .inr ⟨by rw [he]; decide, rfl⟩
  | dropped hN hh he hT => exact .inr ⟨hT, rfl⟩
  | optParamsAgain ht | histDumped ht | histDone ht | histAgain ht => cases ht

theorem Jobs.Finished.other {p : Packet} (hp : p.reqType ≠ .CONTRACT_DETAILS_REQUEST)
    (h : j.Finished p j') : j'.contractDetailsTodo = j.contractDetailsTodo := by
  cases h with
  | contractDetailsAgain ht => exact absurd ht hp
  | _ => rfl

/-- A query that has to be made again is not answered. -/
theorem Filing.again {todo : ContractDetailsTodo} (h : Filing r jobs j v cds)
    (hq : j.request.reqType = .CONTRACT_DETAILS_REQUEST)
    (hr : j.contractDetailsTodo.repeat = .ok todo) (ht : j'.contractDetailsTodo = todo)
    (hn : j'.request.reqType = .NONE) : Filing r jobs j' v cds := by
  obtain ⟨hpos, rfl⟩ := IndexTodo.repeat_eq_ok.1 hr
  have hlt := h.index_lt
  have hno : j'.request.reqType ≠ .CONTRACT_DETAILS_REQUEST := by rw [hn]; decide
  have hrows := h.rows
  rw [Jobs.answered, if_pos hq] at hrows
  refine ⟨by rw [ht]; exact h.requests, ?_, ?_, fun hcd => absurd hcd hno, ?_⟩
  · rw [ht]
    dsimp only
    omega
  · rw [ht]
    dsimp only
    omega
  · rw [Jobs.answered, if_neg hno, ht]
    simpa using hrows

/-- **A row is filed** for the query that was open. -/
theorem Filing.answer {cd : ContractDetails} {cds' : TreeMap ℤ ContractDetails}
    {v' : List MktDataRequest} (h : Filing r jobs j v cds)
    (hq : j.request.reqType = .CONTRACT_DETAILS_REQUEST)
    (hcd : cd.summary.conId = r j.contractDetailsTodo.curIndex.toNat)
    (hadd : StratDL.addConId cds v [cd] = .ok (cds', v'))
    (ht : j'.contractDetailsTodo = j.contractDetailsTodo) (hn : j'.request.reqType = .NONE) :
    Filing r jobs j' v' cds' := by
  have hno : j'.request.reqType ≠ .CONTRACT_DETAILS_REQUEST := by rw [hn]; decide
  have hge := h.asked hq
  have hrows := h.rows.snoc hadd
  have hold : j.answered = j.contractDetailsTodo.curIndex.toNat := by
    rw [Jobs.answered, if_pos hq, Int.add_zero]
  have hnew : j'.answered = j.contractDetailsTodo.curIndex.toNat + 1 := by
    rw [Jobs.answered, if_neg hno, ht]
    omega
  rw [hold, hcd, ← conIds_succ, ← hnew] at hrows
  exact ⟨by rw [ht]; exact h.requests, by rw [ht]; exact h.index_ge, by rw [ht]; exact h.index_lt,
    fun hcd => absurd hcd hno, hrows⟩

namespace StratDL

variable {s s' : StratDL} {e : Event} {evs : List Event} {cfg : ConfigTwsdo} {async : Bool}
variable {work_dso : StratDL → Exec Assertion StratDL}

/-- **`waitData` keeps the filing**, and leaves the program as it would be
without a module but for what is filed. -/
theorem Filed.waitData (hok : s.dl.jobs.Ok) (hone : s.OneRow r) (hf : s.Filed r jobs)
    (h : s.waitData = .ok s') : s'.Filed r jobs ∧ s.dl.jobs.Waited s'.dl.jobs := by
  rw [waitData_eq hok, Exec.bind_eq_ok] at h
  obtain ⟨dl, hwait, h⟩ := h
  have hmkt := TwsDL.waitData_mktDataTodo hwait
  have hwaited := TwsDL.waitData_cases hok hwait
  have hstay : Filing r jobs dl.jobs s.dl.workTodo.mktDataTodo s.con_details →
      s' = { s with dl := dl } → s'.Filed r jobs ∧ s.dl.jobs.Waited s'.dl.jobs := by
    rintro hfile rfl
    refine ⟨?_, hwaited⟩
    show Filing r jobs dl.jobs dl.workTodo.mktDataTodo s.con_details
    rw [hmkt]
    exact hfile
  rcases TwsDL.waitData_closing hok hwait with ⟨hc, hj⟩ | ⟨p, j', hc, ht, hfin, hj⟩
  · rw [file, hc] at h
    refine hstay ?_ (Except.ok.inj h).symm
    rw [hj]
    exact hf
  · rw [file, hc] at h
    have hnone : dl.jobs.request.reqType = .NONE := by
      rw [hj]
      rfl
    have htodo : dl.jobs.contractDetailsTodo = j'.contractDetailsTodo := by rw [hj]
    cases p with
    | contractDetails q =>
        have hq : s.dl.jobs.request.reqType = .CONTRACT_DETAILS_REQUEST := ht.symm
        simp only [afterwards] at h
        rcases hfin.contractDetails with ⟨hT, hrep⟩ | ⟨hT, hsame⟩
        · rw [if_pos hT] at h
          exact hstay (Filing.again hf hq hrep htodo hnone) (Except.ok.inj h).symm
        · rw [if_neg hT] at h
          simp only [Exec.bind_eq_ok] at h
          obtain ⟨⟨cds, v⟩, hadd, h⟩ := h
          obtain ⟨cd, hrow, hcd⟩ := hone q hc hT
          rw [hrow, hmkt] at hadd
          rw [← Except.ok.inj h]
          exact ⟨Filing.answer hf hq hcd hadd (htodo.trans hsame) hnone, hwaited⟩
    | histData | accStatus | executions | orders | optParams =>
        have hq : s.dl.jobs.request.reqType ≠ .CONTRACT_DETAILS_REQUEST := by
          show s.dl.currentRequest.reqType ≠ _
          rw [← ht]
          exact ReqType.noConfusion
        refine hstay (Filing.of_eq hf (htodo.trans (hfin.other ReqType.noConfusion)) ?_)
          (Except.ok.inj h).symm
        rw [hnone]
        exact iff_of_false ReqType.noConfusion hq

/-- **The rest of a turn files nothing.** -/
theorem Filed.rest (hok : s.dl.jobs.Ok) (hst : s.dl.state = .IDLE)
    (hn : s.dl.currentRequest.reqType = .NONE) (hf : s.Filed r jobs) (h : s.Rest s') :
    s'.dl.jobs.Ok ∧ s'.Filed r jobs := by
  unfold Filed at hf ⊢
  cases h with
  | jobs hw hsame =>
      rw [hsame.1, hsame.2]
      exact ⟨hw.ok hst hn hok, hf.worked hn hw⟩
  | «module» hl =>
      have hp : s'.dl.packet = none := hl.packet.trans (hok.packet_eq_none.2 hn)
      have hn' : s'.dl.currentRequest.reqType = .NONE := by rw [hl.currentRequest, hn]
      rw [hl.mktDataTodo, hl.con_details]
      refine ⟨.of_none hp hn', hf.of_eq hl.contractDetailsTodo ?_⟩
      show s'.dl.currentRequest.reqType = _ ↔ s.dl.currentRequest.reqType = _
      rw [hl.currentRequest]

/-- **A turn files at most one row.** -/
theorem Filed.turn {c : Connect} (hm : ∀ s s', work_dso s = .ok s' → s.Leaves s')
    (hok : s.dl.jobs.Ok) (hone : s.OneRow r) (hf : s.Filed r jobs)
    (h : s.turn work_dso c = .ok s') : s'.dl.jobs.Ok ∧ s'.Filed r jobs := by
  obtain ⟨s₁, i, hturned, rfl⟩ := turn_turned hok hm h
  have hok₀ : (s.tick (-1)).dl.jobs.Ok := hok
  have hone₀ : (s.tick (-1)).OneRow r := hone
  have hf₀ : (s.tick (-1)).Filed r jobs := hf
  suffices hres : s₁.dl.jobs.Ok ∧ s₁.Filed r jobs from hres
  cases hturned with
  | connect st hn hj hsame =>
      unfold Filed
      rw [hj, hsame.1, hsame.2]
      have hp := hok₀.packet_eq_none.2 hn
      exact ⟨.of_none hp hn, hf₀.of_eq rfl Iff.rfl⟩
  | wait hw =>
      obtain ⟨hf₁, hwaited⟩ := hf₀.waitData hok₀ hone₀ hw
      exact ⟨hwaited.ok hok₀, hf₁⟩
  | work hst hw hn hrest =>
      obtain ⟨hf₁, hwaited⟩ := hf₀.waitData hok₀ hone₀ hw
      exact hf₁.rest (hwaited.ok hok₀) (hwaited.frame.1.trans hst) hn hrest

theorem handle_of_ne (ht : ∀ c, e ≠ .turn c) : s.handle work_dso e = s.lift (·.handle e) := by
  cases e with
  | turn c => exact absurd rfl (ht c)
  | _ => rfl

/-- **Every step keeps the filing.** -/
theorem Filed.step (hm : ∀ s s', work_dso s = .ok s' → s.Leaves s') (hok : s.dl.jobs.Ok)
    (hf : s.Filed r jobs) (h : s.AnsweredStep work_dso r e s') :
    s'.dl.jobs.Ok ∧ s'.Filed r jobs := by
  obtain ⟨⟨-, h⟩, hone⟩ := h
  by_cases ht : ∃ c, e = .turn c
  · obtain ⟨c, rfl⟩ := ht
    exact hf.turn hm hok (hone rfl) h
  · have ht' : ∀ c, e ≠ .turn c := fun c he => ht ⟨c, he⟩
    rw [handle_of_ne ht'] at h
    obtain ⟨dl, hdl, rfl⟩ := lift_eq_ok.1 h
    have hcalled := TwsDL.handle_called hok ht' hdl
    obtain ⟨-, -, -, htodo, -, hreq, -⟩ := hcalled.frame
    have hmkt := (TwsDL.handle_kept ht' hdl).mktDataTodo
    refine ⟨hcalled.ok hok, ?_⟩
    show Filing r jobs dl.jobs dl.orders.mktDataTodo s.con_details
    rw [hmkt]
    exact Filing.of_eq hf htodo (by rw [hreq])

theorem start_filed (r : ℕ → ℤ) : (start cfg async jobs).Filed r jobs := by
  obtain ⟨htodo, -⟩ := readFile_todos
    { acc_status_todo := cfg.get_account, executions_todo := cfg.get_exec,
      orders_todo := cfg.get_order } jobs
  have hmkt := readFile_mktDataTodo
    { acc_status_todo := cfg.get_account, executions_todo := cfg.get_exec,
      orders_todo := cfg.get_order } jobs
  have htodo' : (start cfg async jobs).dl.jobs.contractDetailsTodo =
      { curIndex := -1, requests := jobs.filterMap Job.contractJob } := htodo
  have hmkt' : (start cfg async jobs).dl.workTodo.mktDataTodo = jobs.filterMap Job.marketJob :=
    hmkt
  have hanswered : (start cfg async jobs).dl.jobs.answered = 0 := by
    rw [Jobs.answered, htodo']
    rfl
  refine ⟨by rw [htodo'], by rw [htodo'], ?_, ReqType.noConfusion, ?_⟩
  · rw [htodo']
    dsimp only
    omega
  · rw [hanswered, hmkt']
    refine ⟨⟨fun x => ?_, rfl⟩, filed_nil.symm, fits_nil⟩
    exact iff_of_false (TreeMap.not_mem_emptyc) (List.not_mem_nil)

/-- **In every state the rows so far are filed.** -/
theorem run_filed (hm : ∀ s s', work_dso s = .ok s' → s.Leaves s')
    (h : Run (AnsweredStep work_dso r) (start cfg async jobs) evs s) :
    s.dl.jobs.Ok ∧ s.Filed r jobs :=
  h.invariant (I := fun s => s.dl.jobs.Ok ∧ s.Filed r jobs) ⟨.of_none rfl rfl, start_filed r⟩
    fun _ _ _ hI hstep => hI.2.step hm hI.1 hstep

/-- With all requests finished every query is answered. -/
theorem Filed.answered_eq (hf : s.Filed r jobs) (hd : s.ContractsDone) :
    conIds r s.dl.jobs.answered = answers r jobs := by
  obtain ⟨hno, hleft⟩ := hd
  have hlt := hf.index_lt
  have hlen := congrArg List.length hf.requests
  have hno' : s.dl.jobs.request.reqType ≠ .CONTRACT_DETAILS_REQUEST := hno
  have hleft' : (s.dl.jobs.contractDetailsTodo.requests.length : ℤ) -
      s.dl.jobs.contractDetailsTodo.curIndex - 1 ≤ 0 := hleft
  have hn : s.dl.jobs.answered = (jobs.filterMap Job.contractJob).length := by
    rw [Jobs.answered, if_neg hno']
    omega
  rw [hn, answers]

/-- **A row can be filed** that belongs to a list that can be. -/
theorem Filed.file_ok {dl : TwsDL} (hok : s.dl.jobs.Ok) (hone : s.OneRow r)
    (hf : s.Filed r jobs) (hm : ConIdsMatch r jobs) (hwait : s.dl.waitData = .ok dl) :
    ∃ s', s.file dl = .ok s' := by
  have hmkt := TwsDL.waitData_mktDataTodo hwait
  rcases TwsDL.waitData_closing hok hwait with ⟨hc, -⟩ | ⟨p, j', hc, ht, -⟩
  · exact ⟨{ s with dl := dl }, by rw [file, hc]; rfl⟩
  · rw [file, hc]
    cases p with
    | contractDetails q =>
        simp only [afterwards]
        by_cases hT : q.error = .TWSCON
        · exact ⟨{ s with dl := dl }, by rw [if_pos hT]; rfl⟩
        · obtain ⟨cd, hrow, hcd⟩ := hone q hc hT
          have hq : s.dl.jobs.request.reqType = .CONTRACT_DETAILS_REQUEST := ht.symm
          have hge := hf.asked hq
          have hlt := hf.index_lt
          -- the rows so far and this one are the beginning of all rows
          have hold : s.dl.jobs.answered = s.dl.jobs.contractDetailsTodo.curIndex.toNat := by
            rw [Jobs.answered, if_pos hq, Int.add_zero]
          have hle : s.dl.jobs.answered + 1 ≤ (jobs.filterMap Job.contractJob).length := by omega
          obtain ⟨l, hl⟩ := conIds_prefix (r := r) hle
          have hfits := (conIdsMatch_iff.1 hm).1
          rw [answers, hl, conIds_succ] at hfits
          have hnext : Fits 0 (min (ownConIds jobs).length 2147483648) (ownConIds jobs)
              (conIds r s.dl.jobs.answered ++ [cd.summary.conId]) := by
            have hcd' : cd.summary.conId = r s.dl.jobs.answered := by rw [hcd, hold]; rfl
            rw [hcd']
            exact hfits.of_append
          obtain ⟨⟨cds, v⟩, hadd⟩ := hf.rows.of_fits hnext
          rw [if_neg hT, hrow, hmkt, hadd]
          exact ⟨_, rfl⟩
    | _ => exact ⟨{ s with dl := dl }, rfl⟩

/-- **The conIds go to the right requests for market data** in every run if
they fall into the right groups, and in no run that finishes if not. -/
theorem con_ids_right_iff (hm : ∀ s s', work_dso s = .ok s' → s.Leaves s')
    (h : Run (AnsweredStep work_dso r) (start cfg async jobs) evs s) :
    (ConIdsMatch r jobs → s.RightConIds r jobs) ∧
      (s.ContractsDone → s.RightConIds r jobs → ConIdsMatch r jobs) := by
  obtain ⟨hok, hf⟩ := run_filed hm h
  constructor
  · intro hmatch
    refine ⟨fun hone f herr => ?_, fun hd j q cdr hj => ?_⟩
    · rw [waitData_eq hok] at herr
      rcases Exec.bind_eq_error.1 herr with herr | ⟨dl, hwait, herr⟩
      · exact herr
      · obtain ⟨s', hs'⟩ := hf.file_ok hok hone hmatch hwait
        rw [hs'] at herr
        cases herr
    · have hplace := (conIdsMatch_iff.1 hmatch).2 j q cdr hj
      rw [← hf.answered_eq hd, hf.rows.getElem?, Option.map_eq_some_iff] at hplace
      exact hplace
  · intro hd hright
    have hfits := hf.rows.fits
    rw [hf.answered_eq hd] at hfits
    refine conIdsMatch_iff.2 ⟨hfits, fun j q cdr hj => ?_⟩
    obtain ⟨q', hq', hid⟩ := hright.own hd j q cdr hj
    rw [← hf.answered_eq hd, hf.rows.getElem?, hq', Option.map_some, hid]

/-! ## Runs -/

/-- `OneRow`, to be executed. -/
def oneRow (r : ℕ → ℤ) (s : StratDL) : Bool :=
  match s.dl.closing with
  | some (.contractDetails p) =>
      p.error = .TWSCON || (p.cdList.map (·.summary.conId) =
        [r s.dl.workTodo.contractDetailsTodo.curIndex.toNat] : Bool)
  | _ => true

theorem oneRow_iff : s.oneRow r = true ↔ s.OneRow r := by
  unfold oneRow OneRow
  split
  · rename_i p hp
    rw [hp, Bool.or_eq_true, decide_eq_true_eq, decide_eq_true_eq, List.map_eq_singleton_iff,
      or_iff_not_imp_left]
    constructor
    · intro h q hq hT
      obtain rfl : p = q := Packet.contractDetails.inj (Option.some.inj hq)
      exact h hT
    · intro h hT
      exact h p rfl hT
  · rename_i hno
    exact iff_of_true rfl fun p hp => absurd hp (hno p)

instance : Decidable (s.OneRow r) := decidable_of_iff _ oneRow_iff

instance : Decidable s.ContractsDone := inferInstanceAs (Decidable (_ ∧ _))

/-- `AnsweredStep`, to be executed, for a module that does nothing. -/
def answeredNext (r : ℕ → ℤ) (s : StratDL) (e : Event) : Option StratDL :=
  if s.dl.quit = false ∧ (e.isTurn = true → s.OneRow r) then (s.handle .ok e).toOption else none

theorem answeredStep_of_answeredNext (h : s.answeredNext r e = some s') :
    s.AnsweredStep .ok r e s' := by
  unfold answeredNext at h
  split at h
  · rename_i hs
    exact ⟨⟨hs.1, Exec.toOption_eq_some.1 h⟩, hs.2⟩
  · cases h

theorem leaves_refl (s s' : StratDL) (h : (.ok s : Exec Assertion StratDL) = .ok s') :
    s.Leaves s' := by
  obtain rfl := Except.ok.inj h
  exact ⟨rfl, rfl, rfl, rfl, rfl, rfl⟩

/-- A request for market data, for a symbol. -/
def ticker (symbol : String) : Job :=
  .market_data { ibContract := { symbol := symbol } } { ibContract := { symbol := symbol } }

/-- The row of a contract. -/
def rowOf (conId : ℤ) : ContractDetails := { summary := { conId := conId } }

/-- Two queries are answered. -/
def twoAnswers (r : ℕ → ℤ) : List Event :=
  TwsDL.connects 40000 1 ++
    [.turn {}, .contractDetails 1 (rowOf (r 0)), .contractDetailsEnd 1, .turn {},
      .contractDetails 2 (rowOf (r 1)), .contractDetailsEnd 2]

/-- And both are finished. -/
def twoFinished (r : ℕ → ℤ) : List Event := twoAnswers r ++ [.turn {}]

/-- Rows with different conIds. -/
def elevens (k : ℕ) : ℤ := 11 * (k + 1)

/-- Rows with the same. -/
def sevens (_ : ℕ) : ℤ := 7

/-- With two contracts the conIds are right. -/
theorem con_ids_right_iff_two : ∃ s,
    Run (AnsweredStep .ok elevens) (start {} false [ticker "A", ticker "B"])
      (twoFinished elevens) s ∧
      s.ContractsDone ∧ s.RightConIds elevens [ticker "A", ticker "B"] := by
  have hout : ((twoFinished elevens).foldlM (answeredNext elevens)
      (start {} false [ticker "A", ticker "B"])).map (fun s => decide s.ContractsDone) =
        some true := by
    decide +kernel
  obtain ⟨s, hs, hd⟩ := Option.map_eq_some_iff.1 hout
  have hrun := Run.of_foldlM (fun _ _ _ => answeredStep_of_answeredNext) hs
  refine ⟨s, hrun, of_decide_eq_true hd, (con_ids_right_iff leaves_refl hrun).1 ?_⟩
  refine ⟨by decide, by decide, fun j q cdr hj => ?_⟩
  rcases j with _ | _ | j
  · obtain ⟨rfl, rfl⟩ := Job.market_data.inj (Option.some.inj hj)
    exact ⟨1, 0, by decide⟩
  · obtain ⟨rfl, rfl⟩ := Job.market_data.inj (Option.some.inj hj)
    exact ⟨1, 0, by decide⟩
  · cases hj

/-- **Two requests for the same contract**: only the first gets its conId.
And with a contract that no market data is asked for, the second row is
filed behind the end. -/
theorem con_ids_misfiled :
    (∃ s, Run (AnsweredStep .ok sevens) (start {} false [ticker "A", ticker "A"])
        (twoFinished sevens) s ∧ s.ContractsDone ∧
        s.dl.workTodo.mktDataTodo.map (·.ibContract.conId) = [7, 0] ∧
        ¬ s.RightConIds sevens [ticker "A", ticker "A"]) ∧
      ∃ s, Run (AnsweredStep .ok elevens)
          (start {} false [.contract_details { ibContract := { symbol := "A" } }, ticker "B"])
          (twoAnswers elevens) s ∧
        s.OneRow elevens ∧ s.handle .ok (.turn {}) = .error .badAccess := by
  constructor
  · have hout : ((twoFinished sevens).foldlM (answeredNext sevens)
        (start {} false [ticker "A", ticker "A"])).map (fun s => (decide s.ContractsDone,
          s.dl.workTodo.mktDataTodo.map (·.ibContract.conId))) = some (true, [7, 0]) := by
      decide +kernel
    obtain ⟨s, hs, hl⟩ := Option.map_eq_some_iff.1 hout
    obtain ⟨hd, hids⟩ := Prod.mk.inj hl
    have hdone := of_decide_eq_true hd
    refine ⟨s, Run.of_foldlM (fun _ _ _ => answeredStep_of_answeredNext) hs, hdone, hids,
      fun hright => ?_⟩
    obtain ⟨q, hq, hid⟩ := hright.own hdone 1 _ _ rfl
    have hzero := congrArg (·[1]?) hids
    have hplace : tickerOf [ticker "A", ticker "A"] 1 = 1 := by decide
    rw [hplace] at hq
    simp only [List.getElem?_map, hq, Option.map_some, hid] at hzero
    exact absurd hzero (by decide)
  · have hout : ((twoAnswers elevens).foldlM (answeredNext elevens)
        (start {} false [.contract_details { ibContract := { symbol := "A" } }, ticker "B"])).map
          (fun s => (decide (s.OneRow elevens),
            Exec.fault (s.handle .ok (.turn {})))) = some (true, some .badAccess) := by
      decide +kernel
    obtain ⟨s, hs, hl⟩ := Option.map_eq_some_iff.1 hout
    obtain ⟨hone, hfault⟩ := Prod.mk.inj hl
    exact ⟨s, Run.of_foldlM (fun _ _ _ => answeredStep_of_answeredNext) hs,
      of_decide_eq_true hone, Exec.fault_eq_some.1 hfault⟩

end StratDL

end Twstools
