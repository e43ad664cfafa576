import Twstools.Jobs.Repeat
/-!
# Contracts rejected while the connectivity is down

TWS may reject a contract only because it is cut off from the server.
`errorContracts` closes the packet with a timeout then, to have the request
pushed back. The finishing functions of historical data give a timeout
this meaning. Those of contract details and option parameters do not: they
drop the job, and its list is `Past` it from then on.
-/

namespace Twstools

namespace View

variable {α : Type} {v v' : View α} {e : Event} {i : ℤ}

/-- The list has handed out the job at `i`, and the next one if a job is
out. -/
def Past (i : ℤ) (v : View α) : Prop :=
  i ≤ v.todo.curIndex ∧ (v.own.isSome → i < v.todo.curIndex)

/-- **A list does not go back** to a job it is past. -/
theorem Past.step (h : v.Past i) (hs : v.Step e v') : v'.Past i := by
  obtain ⟨hle, hlt⟩ := h
  cases hs with
  | stay => exact ⟨hle, hlt⟩
  | call ho hc => exact ⟨hle, fun _ => hlt (by simp [ho])⟩
  | again ho he hr =>
      obtain ⟨-, rfl⟩ := IndexTodo.repeat_eq_ok.1 hr
      have hi := hlt (by simp [ho])
      refine ⟨?_, fun h => absurd h (by simp)⟩
      dsimp only
      omega
  | finish ho ha => exact ⟨hle, fun h => absurd h (by simp)⟩
  | give ho hc ha =>
      obtain ⟨-, rfl⟩ := IndexTodo.checkout_eq_ok.1 hc
      refine ⟨?_, fun _ => ?_⟩
      · dsimp only
        omega
      · dsimp only
        omega

end View

namespace Kind

variable {α : Type} (k : Kind α) {j j' : Jobs} {e : Event} {i : ℤ}

/-- The packet of the job at `i` is closed, and not by a lost connection. -/
def Doomed (i : ℤ) (j : Jobs) : Prop :=
  (k.todo j).curIndex = i ∧ ∃ p r, j.packet = some p ∧ k.request p = some r ∧ p.Numbered ∧
    p.base.mode = .CLOSED ∧ p.getError ≠ .TWSCON

theorem doomed_called (h : k.Doomed i j) (hc : j.Called e j') : k.Doomed i j' := by
  obtain ⟨hi, p, r, hp, hr, hn, hm, he⟩ := h
  have htodo := k.todo_called hc
  refine ⟨by rw [htodo]; exact hi, p, r, ?_, hr, hn, hm, he⟩
  cases hc with
  | none hnone => exact absurd (hnone.symm.trans hp) (by simp)
  | some hp' hpc hh =>
      obtain rfl := Option.some.inj (hp.symm.trans hp')
      rw [hpc.eq_of_closed hn hm]

/-- **The next turn drops the job.** -/
theorem past_of_doomed {s s' : TwsDL} {c : Connect} (hok : s.jobs.Ok) (h : k.Doomed i s.jobs)
    (ht : s.turn c = .ok s') : (k.view s'.jobs).Past i := by
  obtain ⟨hi, p, r, hp, hr, hn, hm, he⟩ := h
  have hf : p.finished = true := by simp [Packet.finished, PacketBase.finished, hm]
  obtain ⟨j', hF, hW⟩ := TwsDL.turn_closed hok hp hf ht
  have htodo : k.todo j' = k.todo s.jobs := k.todo_stays hF (.inr he)
  refine View.Past.step (e := .turn c) ?_ (k.worked hW rfl)
  refine ⟨?_, fun h => absurd h (by simp [View.of])⟩
  show i ≤ (k.todo _).curIndex
  rw [k.todo_fields j' j'.state none s.jobs.request.close, htodo]
  exact hi.ge

theorem past_step {s s' : TwsDL} (hok : s.jobs.Ok) (h : (k.view s.jobs).Past i)
    (hs : s.Step e s') : (k.view s'.jobs).Past i := by
  rcases TwsDL.view_step k hok hs with ⟨-, v, h₁, h₂⟩ | h₁
  · exact (h.step h₁).step h₂
  · exact h.step h₁

/-- **A doomed job is not handed out again**, from the next turn on. -/
theorem past_of_run {s s' : TwsDL} {evs : List Event} (hok : s.jobs.Ok) (h : k.Doomed i s.jobs)
    (hr : Run TwsDL.Step s evs s') (ht : ∃ c, .turn c ∈ evs) : (k.view s'.jobs).Past i := by
  have hI := hr.history (I := fun evs t => t.jobs.Ok ∧ (k.Doomed i t.jobs ∧ (∀ c, .turn c ∉ evs) ∨
    (k.view t.jobs).Past i)) ⟨hok, .inl ⟨h, by simp⟩⟩ ?_
  · rcases hI.2 with ⟨-, hno⟩ | hp
    · obtain ⟨c, hc⟩ := ht
      exact absurd hc (hno c)
    · exact hp
  · rintro evs t e t' - ⟨hok, hI⟩ hstep
    refine ⟨TwsDL.step_ok hok hstep, ?_⟩
    rcases hI with ⟨hd, hno⟩ | hp
    · rcases TwsDL.step_cases hok hstep with ⟨⟨c, rfl⟩, -⟩ | ⟨hcb, hc⟩
      · exact .inr (k.past_of_doomed hok hd hstep.2)
      · refine .inl ⟨k.doomed_called hd hc, fun c hm => ?_⟩
        rcases List.mem_append.1 hm with hm | hm
        · exact hno c hm
        · exact hcb c (List.mem_singleton.1 hm).symm
    · exact .inr (k.past_step hok hp hstep)

end Kind

namespace TwsDL

variable {s s₁ s₂ : TwsDL} {e : Event} {evs post : List Event} {cfg : ConfigTwsdo} {async : Bool}
variable {jobs : List Job}

/-- TWS rejects the contract of the open request while the connectivity is
down. -/
def RejectedDown (s : TwsDL) (e : Event) : Prop :=
  (∃ err, e = .error err ∧ err.id = s.currentRequest.reqId ∧ err.code = 200) ∧
    s.connected = true ∧ s.connectivity_IB_TWS = false ∧ ∃ p, s.packet = some p ∧
      p.base.mode = .RECORD

/-- A list is served in order in every run. -/
theorem run_viewOk {α : Type} {rs : List α} (k : Kind α)
    (h0 : k.todo (start cfg async jobs).jobs = { requests := rs })
    (h : Run Step (start cfg async jobs) evs s) : (k.view s.jobs).Ok rs := by
  suffices s.jobs.Ok ∧ (k.view s.jobs).Ok rs from this.2
  refine h.invariant (I := fun s => s.jobs.Ok ∧ (k.view s.jobs).Ok rs)
    ⟨.of_none rfl rfl, ⟨?_, 0, .start, ?_, ?_⟩⟩ ?_
  · exact congrArg IndexTodo.requests h0
  · exact (congrArg IndexTodo.curIndex h0).trans rfl
  · intro r b hr
    cases hr
  · rintro s e s' ⟨hok, hv⟩ hstep
    refine ⟨step_ok hok hstep, ?_⟩
    rcases view_step k hok hstep with ⟨-, v, h₁, h₂⟩ | h₁
    · exact (hv.step h₁).step h₂
    · exact hv.step h₁

/-- **The rejection is taken for a timeout.** -/
theorem closed_of_rejectedDown (hrej : s.RejectedDown e) (hstep : s.Step e s₁)
    (ht : s.currentRequest.reqType = .CONTRACT_DETAILS_REQUEST ∨
      s.currentRequest.reqType = .OPT_PARAMS_REQUEST) :
    ∃ p, s.packet = some p ∧ s₁.jobs = { s.jobs with
      packet := some (p.withBase { mode := .CLOSED, error := .TIMEOUT }) } := by
  obtain ⟨⟨err, rfl, hid, hcode⟩, hcon, hdown, p, hp, hm⟩ := hrej
  have h := hstep.2
  have hclose : ({ s with msgCounter := s.msgCounter + 1 } : TwsDL).closePacket .TIMEOUT =
      .ok s₁ := by
    rcases ht with ht | ht <;>
      simpa [handle, twsError, errorRequest, errorContracts, hcon, hid, hcode, hdown, ht] using h
  obtain ⟨p', q, hp', hq, rfl⟩ := eq_of_closePacket hclose
  obtain rfl : p = p' := Option.some.inj (hp.symm.trans hp')
  rcases Packet.closeError_eq_ok hq with ⟨-, rfl⟩ | ⟨hm', -⟩
  · exact ⟨p, hp, rfl⟩
  · exact absurd (hm.symm.trans hm') (by decide)

/-- What a rejection does to a list of either kind. -/
theorem rejected_past {α : Type} {rs : List α} (k : Kind α)
    (h0 : k.todo (start cfg async jobs).jobs = { requests := rs })
    (hk : ∀ p, p.reqType = s.currentRequest.reqType → ∃ r, k.request p = some r)
    (ht : s.currentRequest.reqType = .CONTRACT_DETAILS_REQUEST ∨
      s.currentRequest.reqType = .OPT_PARAMS_REQUEST)
    (h : Run Step (start cfg async jobs) evs s) (hrej : s.RejectedDown e) (hstep : s.Step e s₁)
    (hrun : Run Step s₁ post s₂) (hturn : ∃ c, .turn c ∈ post) :
    ∃ (i : ℕ) (p : Packet), s.packet = some p ∧ k.request p = some rs[i]? ∧
      i ≤ (k.todo s₂.jobs).curIndex ∧
      ∀ p, s₂.packet = some p → ∀ r, k.request p = some r → ∃ j > i, r = rs[j]? := by
  have hok := run_ok h
  obtain ⟨p, hp, hs₁⟩ := closed_of_rejectedDown hrej hstep ht
  obtain ⟨r, hr⟩ := hk p (hok.packet_some p hp)
  have hown : (k.view s.jobs).own = some (r, p.base) := by
    have hp' : s.jobs.packet = some p := hp
    simp [Kind.view, View.of, hp', hr]
  obtain ⟨-, i, -, hcur, hi⟩ := run_viewOk k h0 h
  obtain ⟨a, rfl, ha⟩ := hi _ _ hown
  rw [hown] at hcur
  have hcur' : (k.view s.jobs).todo.curIndex = i := by simpa using hcur
  have hdoomed : k.Doomed i s₁.jobs := by
    refine ⟨?_, p.withBase { mode := .CLOSED, error := .TIMEOUT }, some a, ?_, ?_, ?_, ?_, ?_⟩
    · rw [hs₁]
      have hf := k.todo_fields s.jobs s.jobs.state
        (some (p.withBase { mode := .CLOSED, error := .TIMEOUT })) s.jobs.request s.jobs.log
      exact (congrArg IndexTodo.curIndex hf).trans hcur'
    · rw [hs₁]
    · rw [k.request_withBase, hr]
    · rw [Packet.Numbered, Packet.reqType_withBase, hok.packet_some p hp]
      exact ht.elim .inl fun h => .inr (.inr h)
    · rw [Packet.base_withBase]
    · simp [Packet.getError, PacketBase.getError]
  obtain ⟨hle, hlt⟩ := k.past_of_run (step_ok hok hstep) hdoomed hrun hturn
  refine ⟨i, p, hp, by rw [hr, ha], hle, fun p₂ hp₂ r₂ hr₂ => ?_⟩
  have hown₂ : (k.view s₂.jobs).own = some (r₂, p₂.base) := by
    have hp' : s₂.jobs.packet = some p₂ := hp₂
    simp [Kind.view, View.of, hp', hr₂]
  obtain ⟨-, j, -, hcur₂, hj⟩ := run_viewOk k h0 ((h.snoc hstep).trans hrun)
  obtain ⟨b, rfl, hb⟩ := hj _ _ hown₂
  have hlt' := hlt (by simp [hown₂])
  rw [hown₂] at hcur₂
  simp only [Option.isSome_some, if_true] at hcur₂
  exact ⟨j, by omega, hb.symm⟩

/-- **A job that is rejected while the connectivity is down is never sent
again.** The rejected request is that of some job of the work file. From the
next turn on its list is past this job, and every request is that of a job
behind it. -/
theorem rejected_job_dropped (h : Run Step (start cfg async jobs) evs s)
    (hrej : s.RejectedDown e) (hstep : s.Step e s₁) (hrun : Run Step s₁ post s₂)
    (hturn : ∃ c, .turn c ∈ post) :
    (s.currentRequest.reqType = .CONTRACT_DETAILS_REQUEST → ∃ (i : ℕ) (q : PacketContractDetails),
      s.packet = some (.contractDetails q) ∧ q.request = (jobs.filterMap Job.contractJob)[i]? ∧
      i ≤ s₂.workTodo.contractDetailsTodo.curIndex ∧
      ∀ p, s₂.packet = some (.contractDetails p) →
        ∃ j > i, p.request = (jobs.filterMap Job.contractJob)[j]?) ∧
    (s.currentRequest.reqType = .OPT_PARAMS_REQUEST → ∃ (i : ℕ) (q : PacketOptParams),
      s.packet = some (.optParams q) ∧ q.request = (jobs.filterMap Job.optJob)[i]? ∧
      i ≤ s₂.workTodo.optParamsTodo.curIndex ∧
      ∀ p, s₂.packet = some (.optParams p) →
        ∃ j > i, p.request = (jobs.filterMap Job.optJob)[j]?) := by
  obtain ⟨hcd, hop⟩ := readFile_todos
    { acc_status_todo := cfg.get_account, executions_todo := cfg.get_exec,
      orders_todo := cfg.get_order } jobs
  constructor
  · intro ht
    obtain ⟨i, p, hp, hr, hle, hall⟩ := rejected_past contractKind hcd (fun p hpt => by
      cases p with
      | contractDetails p => exact ⟨_, rfl⟩
      | _ => exact absurd (hpt.trans ht) ReqType.noConfusion) (.inl ht) h hrej hstep hrun hturn
    obtain ⟨q, rfl, hq⟩ := Packet.contractRequest_eq_some.1 hr
    exact ⟨i, q, hp, hq, hle, fun p hp => hall _ hp _ rfl⟩
  · intro ht
    obtain ⟨i, p, hp, hr, hle, hall⟩ := rejected_past optKind hop (fun p hpt => by
      cases p with
      | optParams p => exact ⟨_, rfl⟩
      | _ => exact absurd (hpt.trans ht) ReqType.noConfusion) (.inr ht) h hrej hstep hrun hturn
    obtain ⟨q, rfl, hq⟩ := Packet.optRequest_eq_some.1 hr
    exact ⟨i, q, hp, hq, hle, fun p hp => hall _ hp _ rfl⟩

/-- The first contract is asked for when TWS is cut off from the server. -/
def cutOffAtFirst : List Event :=
  connects 40000 1 ++
    [.turn {}, .error ⟨-1, 1100, "Connectivity between IB and TWS has been lost."⟩]

/-- TWS does not know the first contract. -/
def notFound : Event := .error ⟨1, 200, "No security definition has been found for the request"⟩

/-- The first contract is skipped and the second one asked for. -/
theorem rejected_job_dropped_first : ∃ s s₁ s₂,
    Run Step (start {} false [.contract_details { ibContract := { symbol := "A" } },
      .contract_details { ibContract := { symbol := "B" } }]) cutOffAtFirst s ∧
      s.RejectedDown notFound ∧ s.Step notFound s₁ ∧ Run Step s₁ [.turn {}] s₂ ∧
      s.currentRequest.reqType = .CONTRACT_DETAILS_REQUEST ∧
      ∃ (i : ℕ) (q : PacketContractDetails), s.packet = some (.contractDetails q) ∧
        q.request = ([{ ibContract := { symbol := "A" } }, { ibContract := { symbol := "B" } }] :
          List ContractDetailsRequest)[i]? ∧
        i ≤ s₂.workTodo.contractDetailsTodo.curIndex := by
  have hout : (cutOffAtFirst.foldlM next
      (start {} false [.contract_details { ibContract := { symbol := "A" } },
        .contract_details { ibContract := { symbol := "B" } }])).bind (fun s =>
      (s.next notFound).bind fun s₁ => (s₁.next (.turn {})).map fun _ =>
        decide ((s.currentRequest.reqId = 1 ∧ s.connected = true ∧
          s.connectivity_IB_TWS = false ∧ s.packet.map (fun p => p.base.mode) = some .RECORD) ∧
          s.currentRequest.reqType = .CONTRACT_DETAILS_REQUEST)) = some true := by
    decide +kernel
  obtain ⟨s, hs, hout⟩ := Option.bind_eq_some_iff.1 hout
  obtain ⟨s₁, hs₁, hout⟩ := Option.bind_eq_some_iff.1 hout
  obtain ⟨s₂, hs₂, hout⟩ := Option.map_eq_some_iff.1 hout
  obtain ⟨⟨hid, hc, hd, hp⟩, ht⟩ := of_decide_eq_true hout
  have h := Run.of_foldlM (fun _ _ _ => step_of_next) hs
  have hrej : s.RejectedDown notFound :=
    ⟨⟨_, rfl, hid.symm, rfl⟩, hc, hd, Option.map_eq_some_iff.1 hp⟩
  have hturn := step_of_next hs₂
  obtain ⟨i, q, hp, hq, hi, -⟩ :=
    (rejected_job_dropped h hrej (step_of_next hs₁) (.snoc .nil hturn)
      ⟨{}, List.mem_singleton.2 rfl⟩).1 ht
  exact ⟨s, s₁, s₂, h, hrej, step_of_next hs₁, .snoc .nil hturn, ht, i, q, hp, hq, hi⟩

/-- TWS is back before the program looks at the rejection. -/
def backAfterRejected : List Event :=
  [.error ⟨-1, 1102, "Connectivity between IB and TWS has been restored - data maintained."⟩,
    .turn {}]

/-- **The only contract is given up**: the program ends, and has asked for it
once. -/
theorem rejected_job_not_retried : ∃ s s₁ s₂,
    Run Step (start {} false [.contract_details {}]) cutOffAtFirst s ∧
      s.RejectedDown notFound ∧ s.currentRequest.reqType = .CONTRACT_DETAILS_REQUEST ∧
      s.Step notFound s₁ ∧ Run Step s₁ backAfterRejected s₂ ∧ s₂.quit = true ∧
      (s₂.out.filter fun a => a matches .reqContractDetails _ _).length = 1 := by
  have hout : (cutOffAtFirst.foldlM next (start {} false [.contract_details {}])).bind (fun s =>
      (s.next notFound).bind fun s₁ => (backAfterRejected.foldlM next s₁).map fun s₂ =>
        decide ((s.currentRequest.reqId = 1 ∧ s.connected = true ∧
          s.connectivity_IB_TWS = false ∧ s.packet.map (fun p => p.base.mode) = some .RECORD) ∧
          s.currentRequest.reqType = .CONTRACT_DETAILS_REQUEST ∧ s₂.quit = true ∧
          (s₂.out.filter fun a => a matches .reqContractDetails _ _).length = 1)) =
        some true := by
    decide +kernel
  obtain ⟨s, hs, hout⟩ := Option.bind_eq_some_iff.1 hout
  obtain ⟨s₁, hs₁, hout⟩ := Option.bind_eq_some_iff.1 hout
  obtain ⟨s₂, hs₂, hout⟩ := Option.map_eq_some_iff.1 hout
  obtain ⟨⟨hid, hc, hd, hp⟩, ht, hq, hl⟩ := of_decide_eq_true hout
  exact ⟨s, s₁, s₂, Run.of_foldlM (fun _ _ _ => step_of_next) hs,
    ⟨⟨_, rfl, hid.symm, rfl⟩, hc, hd, Option.map_eq_some_iff.1 hp⟩, ht, step_of_next hs₁,
    Run.of_foldlM (fun _ _ _ => step_of_next) hs₂, hq, hl⟩

end TwsDL

end Twstools
