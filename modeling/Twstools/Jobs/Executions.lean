import Twstools.Jobs.Responses
import Twstools.Orders.Turns
/-!
# Executions and their request

The callbacks for executions look at the type of the request, but not at the
number. While executions are asked for, the packet takes every row that is
delivered, and any end mark closes it. So the rows belong to the request as
long as TWS delivers none under another number in that time.
-/

namespace Twstools

/-- The execution an event delivers under a number. -/
def Event.execution (n : ℤ) : Event → Option RowExecution
  | .execDetails m row => if m = n then some row else none
  | _ => none

/-- The executions delivered under a number. -/
def executed (n : ℤ) (evs : List Event) : List RowExecution := evs.filterMap (Event.execution n)

/-- The number an execution comes under. -/
def Event.executionId : Event → Option ℤ
  | .execDetails n _ => some n
  | _ => none

/-- The number an end mark of the executions comes under. -/
def Event.executionsEndId : Event → Option ℤ
  | .execDetailsEnd n => some n
  | _ => none

/-- What an event does to the packet, whatever its number. -/
def PacketExecutions.take (p : PacketExecutions) : Event → PacketExecutions
  | .execDetails n row => p.append n row
  | .execDetailsEnd n => p.appendExecutionsEnd n
  | _ => p

@[simp] theorem PacketExecutions.take_reqId (p : PacketExecutions) (e : Event) :
    (p.take e).reqId = p.reqId := by
  cases e <;> rfl

@[simp] theorem PacketExecutions.take_error (p : PacketExecutions) (e : Event) :
    (p.take e).error = p.error := by
  cases e <;> rfl

namespace TwsDL

variable {s s' s₀ s₁ : TwsDL} {e : Event} {evs : List Event} {p p' : PacketExecutions}
variable {cfg : ConfigTwsdo} {async : Bool} {jobs : List Job} {c : Connect} {job : Option HistJob}

/-! ## Calls -/

/-- **While executions are asked for, the packet takes every row** and every
end mark, and nothing else. -/
theorem handle_executions (ht : s.currentRequest.reqType = .EXECUTIONS_REQUEST)
    (hp : s.packet = some (.executions p)) (hturn : ∀ c, e ≠ .turn c)
    (h : s.handle e = .ok s') : s'.packet = some (.executions (p.take e)) := by
  have take : ∀ {f : PacketExecutions → PacketExecutions}, s.onExecutions f = .ok s' →
      s'.packet = some (.executions (f p)) := fun h => by
    rw [onExecutions, if_neg (not_not.2 ht), hp] at h
    rw [← Except.ok.inj h]
  by_cases ha : e.answerTo = some .EXECUTIONS_REQUEST
  · cases e with
    | execDetails n row => exact take h
    | execDetailsEnd n => exact take h
    | _ => cases ha
  · have hstay : p.take e = p := by
      cases e with
      | execDetails | execDetailsEnd => exact absurd rfl ha
      | _ => rfl
    rw [hstay, handle_packet (by simp [Unnumbered, ht]) hturn (ht ▸ ha) h, hp]

/-! ## Turns -/

/-- A request that has not timed out is waited for. -/
theorem waitData_waits {q : Packet} (hp : s.packet = some q) (hf : q.finished = false)
    (hage : s.currentRequest.age s.now ≤ s.cfg.tws_reqTimeout) (h : s.waitData = .ok s') :
    s'.jobs = s.jobs := by
  simp only [waitData, Exec.bind_eq_ok] at h
  obtain ⟨⟨s₀, b⟩, hfin, h⟩ := h
  have hframe := finOrders_frame _ hfin
  have hp₀ : s₀.packet = some q := by rw [hframe]; exact hp
  have hage₀ : s₀.currentRequest.age s₀.now ≤ s₀.cfg.tws_reqTimeout := by rw [hframe]; exact hage
  have hs : s' = s₀ := by
    simp only [waitPacket, hp₀, hf, if_neg (Bool.false_ne_true), if_pos hage₀, ite_self] at h
    exact (Except.ok.inj h).symm
  rw [hs]
  exact finPlaceOrder_jobs hfin

theorem turn_jobs_of_open {q : Packet} (hok : s.jobs.Ok) (hp : s.packet = some q)
    (hf : q.finished = false) (hage : s.currentRequest.age s.now ≤ s.cfg.tws_reqTimeout)
    (h : s.turn c = .ok s') : s'.jobs = s.jobs := by
  have hopen : s.currentRequest.reqType ≠ .NONE := fun hn => by
    have hnone : s.packet = none := hok.packet_eq_none.2 hn
    rw [hp] at hnone
    cases hnone
  obtain ⟨s₁, i, hpath, rfl⟩ := turn_path h
  have hwait : ∀ s₂, ({ s with curIdleTime := -1 } : TwsDL).waitData = .ok s₂ →
      s₂.jobs = s.jobs := fun s₂ hw =>
    waitData_waits (s := { s with curIdleTime := -1 }) hp hf hage hw
  have hnone : ∀ s₂, ({ s with curIdleTime := -1 } : TwsDL).waitData = .ok s₂ →
      s₂.currentRequest.reqType ≠ .NONE := fun s₂ hw => by
    have hq : s₂.currentRequest = s.currentRequest := congrArg Jobs.request (hwait s₂ hw)
    rw [hq]
    exact hopen
  cases hpath with
  | connecting hst _ => exact absurd (hok.waiting hst) hopen
  | waiting _ hw _ => exact hwait s₁ hw
  | reconnecting _ hw _ hn _ _ => exact absurd hn (hnone _ hw)
  | working _ hw _ hn _ _ => exact absurd hn (hnone _ hw)

/-- **A packet of executions is empty when it is opened**, under the number
it is asked for. -/
theorem request_executions {t : ReqType} (hok : s.jobs.Ok) (hs : s.state = .IDLE)
    (hn : s.currentRequest.reqType = .NONE) (h : s.request t = .ok s')
    (hp : s'.packet = some (.executions p)) :
    p = { mode := .RECORD, reqId := s.currentRequest.reqId + 1 } ∧
      s'.currentRequest.reqId = s.currentRequest.reqId + 1 ∧ .reqExecutions p.reqId ∈ s'.out := by
  have hnone : s.packet = none := hok.packet_eq_none.2 hn
  have hok' : s'.jobs.Ok := (request_cases h).1.ok hs hn hok
  have ht' : ReqType.EXECUTIONS_REQUEST = s'.currentRequest.reqType := hok'.packet_some _ hp
  -- the packet tells which type of request it was
  have ht : t = .EXECUTIONS_REQUEST := by
    by_cases hN : t = .NONE
    · have hj : s'.jobs = s.jobs := (request_cases h).2 hN
      have hp' : s'.packet = none := (congrArg Jobs.packet hj).trans hnone
      rw [hp] at hp'
      cases hp'
    · obtain ⟨r, i, c, o, H, g, rfl | ⟨-, q, out, rfl⟩⟩ := request_effect hN h
      · have hp' : s.packet = some (.executions p) := hp
        rw [hnone] at hp'
        cases hp'
      · exact ht'.symm
  subst ht
  simp only [request, reqExecutions, PacketExecutions.record, Exec.bind_eq_ok] at h
  obtain ⟨s₁, h₁, q, ⟨-, -, hq⟩, h⟩ := h
  obtain rfl := eq_of_nextRequest h₁
  rw [← Except.ok.inj h, ← Except.ok.inj hq] at hp ⊢
  have hpq : _ = p := Packet.executions.inj (Option.some.inj hp)
  rw [← hpq]
  exact ⟨rfl, rfl, List.mem_append_right _ (List.mem_singleton.2 rfl)⟩

theorem work_opens (hok : s.jobs.Ok) (hs : s.state = .IDLE)
    (hn : s.currentRequest.reqType = .NONE) (h : s.work = .ok s')
    (hp : s'.packet = some (.executions p)) :
    p = { mode := .RECORD, reqId := s.currentRequest.reqId + 1 } ∧
      s'.currentRequest.reqId = s.currentRequest.reqId + 1 ∧ .reqExecutions p.reqId ∈ s'.out := by
  simp only [work, Exec.bind_eq_ok] at h
  obtain ⟨s₁, h₁, s₂, h₂, hdone⟩ := h
  have hj := (nextReqType_jobs s₁).trans (startMktData_jobs h₁)
  generalize ({ s₁ with workTodo := s₁.workTodo.nextReqType.1 } : TwsDL) = s₃ at h₂ hj
  have hq : s₃.currentRequest = s.currentRequest := congrArg Jobs.request hj
  have hst : s₃.state = s.state := congrArg Jobs.state hj
  have hd : s'.packet = s₂.packet ∧ s'.currentRequest = s₂.currentRequest ∧ s'.out = s₂.out := by
    rw [← Except.ok.inj hdone, checkDone]
    split
    · exact ⟨rfl, rfl, rfl⟩
    · exact ⟨rfl, rfl, rfl⟩
  rw [hd.1] at hp
  rw [hd.2.1, hd.2.2, ← hq]
  rw [← hj] at hok
  rw [← hq] at hn
  exact request_executions hok (hst.trans hs) hn h₂ hp

/-- **After a turn the packet of executions is the same**, or it has just
been opened. -/
theorem turn_opens (hok : s.jobs.Ok) (h : s.turn c = .ok s')
    (hp : s'.packet = some (.executions p)) :
    s.packet = some (.executions p) ∧ s'.currentRequest = s.currentRequest ∨
      p = { mode := .RECORD, reqId := s.currentRequest.reqId + 1 } ∧
        s'.currentRequest.reqId = s.currentRequest.reqId + 1 ∧ .reqExecutions p.reqId ∈ s'.out := by
  obtain ⟨s₁, i, hpath, rfl⟩ := turn_path h
  have hp₁ : s₁.packet = some (.executions p) := hp
  have hwait : ∀ s₂, ({ s with curIdleTime := -1 } : TwsDL).waitData = .ok s₂ →
      s.jobs.Waited s₂.jobs := fun s₂ hw =>
    waitData_cases (s := { s with curIdleTime := -1 }) hok hw
  cases hpath with
  | connecting hst hw =>
      have hn : s.packet = none := hok.packet_eq_none.2 (hok.waiting hst)
      obtain ⟨st, hj⟩ := waitTwsCon_jobs (s := { s with curIdleTime := -1 }) (hok.waiting hst) hw
      have hp' : s₁.packet = none := (congrArg Jobs.packet hj).trans hn
      rw [hp₁] at hp'
      cases hp'
  | waiting _ hw _ => exact .inl ((hwait _ hw).packet hp₁)
  | @reconnecting s₂ _ hw _ hn _ hcon =>
      obtain ⟨st, hj⟩ := connectTws_jobs hcon
      have hn₂ : s₂.packet = none := ((hwait _ hw).ok hok).packet_eq_none.2 hn
      have hp' : s₁.packet = none := (congrArg Jobs.packet hj).trans hn₂
      rw [hp₁] at hp'
      cases hp'
  | @working s₂ hst hw _ hn _ hwork =>
      have hw₂ := hwait _ hw
      have hid : s₂.currentRequest.reqId = s.currentRequest.reqId := hw₂.reqId_eq
      obtain ⟨hp', hid', hout⟩ :=
        work_opens (hw₂.ok hok) (hw₂.frame.1.trans hst) hn hwork hp₁
      rw [hid] at hp' hid'
      exact .inr ⟨hp', hid', hout⟩

/-- **A packet of executions is written closed**: it was, or it has timed
out just now. -/
theorem turn_writes (hok : s.jobs.Ok) (h : s.turn c = .ok s')
    (hd : .dumpXml (.executions p) job ∈ s'.out) : .dumpXml (.executions p) job ∈ s.out ∨
      ∃ p₁, s.packet = some (.executions p₁) ∧ (p₁.mode = .CLOSED ∧ p = p₁ ∨
        p₁.mode = .RECORD ∧ s.cfg.tws_reqTimeout < s.currentRequest.age s.now ∧
          p = { p₁ with mode := .CLOSED, error := .TIMEOUT }) := by
  have hd' : .dumpXml (.executions p) job ∈ s'.jobs.log := dumpXml_mem_log.2 hd
  rcases (turn_cases hok h).dump hd' with hold | ⟨q₁, hp, -, ⟨rfl, hfin⟩ | ⟨hfin, hcl⟩⟩
  · exact .inl (dumpXml_mem_log.1 hold)
  · exact .inr ⟨p, hp, .inl ⟨of_decide_eq_true hfin, rfl⟩⟩
  · -- an open packet is written only if the request has timed out
    by_cases hage : s.currentRequest.age s.now ≤ s.cfg.tws_reqTimeout
    · rw [turn_jobs_of_open hok hp hfin hage h] at hd'
      exact .inl (dumpXml_mem_log.1 hd')
    · refine .inr ?_
      rcases Packet.closeError_eq_ok hcl with ⟨hm, hq⟩ | ⟨hm, -⟩
      · cases q₁ with
        | executions p₁ =>
            exact ⟨p₁, hp, .inr ⟨hm, not_le.1 hage, Packet.executions.inj hq⟩⟩
        | contractDetails | histData | accStatus | orders | optParams => cases hq
      · simp [Packet.finished, PacketBase.finished, hm] at hfin

/-! ## Runs -/

/-- While executions are asked for, what TWS delivers comes under the number
of the request; an end mark matters as long as the packet is open. -/
def OwnExecutions (s : TwsDL) (e : Event) : Prop :=
  ∀ p ∈ s.packet, p.reqType = .EXECUTIONS_REQUEST →
    (∀ n ∈ e.executionId, n = s.currentRequest.reqId) ∧
    (p.finished = false → ∀ n ∈ e.executionsEndId, n = s.currentRequest.reqId)

instance (s : TwsDL) (e : Event) : Decidable (s.OwnExecutions e) :=
  inferInstanceAs (Decidable (∀ p ∈ s.packet, _ → _))

/-- A step that meets the condition. -/
def OwnExecutionsStep (s : TwsDL) (e : Event) (s' : TwsDL) : Prop :=
  s.Step e s' ∧ s.OwnExecutions e

/-- `p` holds what was delivered under its number since the turn that asked
for it, and it is closed once its end mark has come. -/
def ExecutionsOf (start : TwsDL) (evs : List Event) (s : TwsDL) (p : PacketExecutions) : Prop :=
  ∃ pre c mid s₀ s₁, evs = pre ++ .turn c :: mid ∧ Run Step start pre s₀ ∧
    s₀.Step (.turn c) s₁ ∧ Run Step s₁ mid s ∧ Sends s₀ s₁ .EXECUTIONS_REQUEST p.reqId ∧
    p.list = executed p.reqId mid ∧ p.error = .NONE ∧
    (p.mode = .CLOSED ↔ .execDetailsEnd p.reqId ∈ mid)

/-- `p` was written in a turn: closed by its end mark, or by the timeout. -/
def ExecutionsWritten (start : TwsDL) (evs : List Event) (p : PacketExecutions) : Prop :=
  ∃ evs₁ c post s₁ p₁, evs = evs₁ ++ .turn c :: post ∧ s₁.packet = some (.executions p₁) ∧
    ExecutionsOf start evs₁ s₁ p₁ ∧ (p₁.mode = .CLOSED ∧ p = p₁ ∨
      p₁.mode = .RECORD ∧ s₁.cfg.tws_reqTimeout < s₁.currentRequest.age s₁.now ∧
        p = { p₁ with mode := .CLOSED, error := .TIMEOUT })

/-- The history of every state. -/
structure ExecutionsHistory (start : TwsDL) (evs : List Event) (s : TwsDL) : Prop where
  reqId : ∀ p, s.packet = some (.executions p) → p.reqId = s.currentRequest.reqId
  opened : ∀ p, s.packet = some (.executions p) → ExecutionsOf start evs s p
  written : ∀ p job, .dumpXml (.executions p) job ∈ s.out → ExecutionsWritten start evs p

theorem executed_concat (n : ℤ) (evs : List Event) :
    executed n (evs ++ [e]) = executed n evs ++ (e.execution n).toList := by
  cases h : e.execution n <;> simp [executed, h]

theorem ExecutionsWritten.concat {start : TwsDL} (h : ExecutionsWritten start evs p) :
    ExecutionsWritten start (evs ++ [e]) p := by
  obtain ⟨evs₁, c, post, s₁, p₁, rfl, h⟩ := h
  exact ⟨evs₁, c, post ++ [e], s₁, p₁, by simp, h⟩

/-- **What a packet takes under its own number belongs to it.** -/
theorem ExecutionsOf.take {start : TwsDL} (h : ExecutionsOf start evs s p) (hstep : s.Step e s')
    (hclean : p.mode ≠ .CLEAN) (hrow : ∀ n ∈ e.executionId, n = p.reqId)
    (hend : p.mode = .RECORD → ∀ n ∈ e.executionsEndId, n = p.reqId) :
    ExecutionsOf start (evs ++ [e]) s' (p.take e) := by
  obtain ⟨pre, c, mid, s₀, s₁, rfl, h₀, h₁, h₂, hs, hlist, herr, hmode⟩ := h
  have hlist' : (p.take e).list = executed p.reqId (mid ++ [e]) := by
    rw [executed_concat, ← hlist]
    cases e with
    | execDetails n row =>
        have hn : n = p.reqId := hrow n rfl
        simp [PacketExecutions.take, PacketExecutions.append, Event.execution, hn]
    | _ => simp [PacketExecutions.take, PacketExecutions.appendExecutionsEnd, Event.execution]
  have hmode' : (p.take e).mode = .CLOSED ↔ .execDetailsEnd p.reqId ∈ mid ++ [e] := by
    cases e with
    | execDetailsEnd n =>
        refine ⟨fun _ => ?_, fun _ => rfl⟩
        -- a closed packet has had its end mark, an open one gets it now
        by_cases hcl : p.mode = .CLOSED
        · exact List.mem_append_left _ (hmode.1 hcl)
        · have hrec : p.mode = .RECORD := by
            cases hm : p.mode with
            | CLEAN => exact absurd hm hclean
            | CLOSED => exact absurd hm hcl
            | RECORD => rfl
          rw [hend hrec n rfl]
          exact List.mem_append_right _ (List.mem_singleton.2 rfl)
    | _ => simpa [PacketExecutions.take, PacketExecutions.append] using hmode
  refine ⟨pre, c, mid ++ [e], s₀, s₁, by simp, h₀, h₁, h₂.snoc hstep, ?_⟩
  rw [PacketExecutions.take_reqId, PacketExecutions.take_error]
  exact ⟨hs, hlist', herr, hmode'⟩

/-- A packet of executions that is there after a call has taken the event. -/
theorem step_take (hok : s.jobs.Ok) (hstep : s.Step e s') (hturn : ∀ c, e ≠ .turn c)
    (hc : s.jobs.Called e s'.jobs) (hp' : s'.packet = some (.executions p')) :
    ∃ p, s.packet = some (.executions p) ∧ p' = p.take e := by
  have hq : s'.currentRequest = s.currentRequest := hc.frame.2.2.2.2.2.1
  have ht : s.currentRequest.reqType = .EXECUTIONS_REQUEST := by
    rw [← hq]
    exact ((hc.ok hok).packet_some _ hp').symm
  obtain ⟨q, hp, hqt⟩ := packet_of_ok hok (ht ▸ by decide)
  rw [ht] at hqt
  cases q with
  | executions p =>
      have htake := handle_executions ht hp hturn hstep.2
      rw [hp'] at htake
      exact ⟨p, hp, Packet.executions.inj (Option.some.inj htake)⟩
  | contractDetails | histData | accStatus | orders | optParams => cases hqt

theorem ExecutionsHistory.called {start : TwsDL} (hok : s.jobs.Ok)
    (h : ExecutionsHistory start evs s) (hstep : s.Step e s') (hown : s.OwnExecutions e)
    (hturn : ∀ c, e ≠ .turn c) (hc : s.jobs.Called e s'.jobs) :
    ExecutionsHistory start (evs ++ [e]) s' := by
  have hlog : s'.jobs.log = s.jobs.log := hc.frame.2.2.2.2.2.2
  have hq : s'.currentRequest = s.currentRequest := hc.frame.2.2.2.2.2.1
  refine ⟨fun p' hp' => ?_, fun p' hp' => ?_, fun p job hd => ?_⟩
  · obtain ⟨p, hp, rfl⟩ := step_take hok hstep hturn hc hp'
    rw [PacketExecutions.take_reqId, hq]
    exact h.reqId p hp
  · obtain ⟨p, hp, rfl⟩ := step_take hok hstep hturn hc hp'
    have hclean : p.mode ≠ .CLEAN := hok.not_clean _ hp
    have hid := h.reqId p hp
    obtain ⟨hrow, hend⟩ := hown _ hp rfl
    refine (h.opened p hp).take hstep hclean (fun n hn => ?_) (fun hm n hn => ?_)
    · rw [hid]
      exact hrow n hn
    · rw [hid]
      refine hend ?_ n hn
      simp [Packet.finished, PacketBase.finished, Packet.base, hm]
  · rw [← dumpXml_mem_log, hlog, dumpXml_mem_log] at hd
    exact (h.written p job hd).concat

theorem ExecutionsHistory.turned {start : TwsDL} (hr : Run Step start evs s) (hok : s.jobs.Ok)
    (hno : s.jobs.NumbersOk) (h : ExecutionsHistory start evs s) (hstep : s.Step (.turn c) s') :
    ExecutionsHistory start (evs ++ [.turn c]) s' := by
  -- all numbers asked under are below the next one
  have hfresh : s.currentRequest.reqId + 1 ∉ asked s.out := by
    intro hm
    rw [← asked_log] at hm
    have hle : s.currentRequest.reqId + 1 ≤ s.currentRequest.reqId := hno.le _ hm
    omega
  have hopens : ∀ p, s'.packet = some (.executions p) → _ := fun p hp => turn_opens hok hstep.2 hp
  refine ⟨fun p hp => ?_, fun p hp => ?_, fun p job hd => ?_⟩
  · rcases hopens p hp with ⟨hp', hq⟩ | ⟨rfl, hid, -⟩
    · rw [hq]
      exact h.reqId p hp'
    · exact hid.symm
  · rcases hopens p hp with ⟨hp', hq⟩ | ⟨rfl, hid, hask⟩
    · exact (h.opened p hp').take hstep (hok.not_clean _ hp') (fun n hn => by cases hn)
        (fun _ n hn => by cases hn)
    · refine ⟨evs, c, [], s, s', rfl, hr, hstep, .nil, ⟨⟨_, hask, rfl⟩, hfresh⟩, rfl, rfl, ?_⟩
      simp
  · rcases turn_writes hok hstep.2 hd with hd | ⟨p₁, hp₁, hcl⟩
    · exact (h.written p job hd).concat
    · exact ⟨evs, c, [], s, p₁, rfl, hp₁, h.opened p₁ hp₁, hcl⟩

theorem run_of_own (h : Run OwnExecutionsStep s₀ evs s) : Run Step s₀ evs s :=
  h.mono fun _ _ _ hs => hs.1

theorem run_executions (h : Run OwnExecutionsStep (start cfg async jobs) evs s) :
    ExecutionsHistory (start cfg async jobs) evs s := by
  refine h.history ⟨(by intro p hp; cases hp), (by intro p hp; cases hp),
    (by intro p job hd; cases hd)⟩ ?_
  intro evs s e s' hr hI hstep
  have hr := run_of_own hr
  rcases step_cases (run_ok hr) hstep.1 with ⟨⟨c, rfl⟩, -⟩ | ⟨hturn, hc⟩
  · exact hI.turned hr (run_ok hr) (run_numbersOk hr) hstep.1
  · exact hI.called (run_ok hr) hstep.1 hstep.2 hturn hc

/-- **Executions belong to their request**, in a run where none come under
another number while it is open. A packet holds exactly the rows that were
delivered under its number since the turn that asked for it, in order, and
it is closed once the end mark with its number has come. A packet that is
written was closed by this end mark, or its request had timed out. -/
theorem executions_belong (h : Run OwnExecutionsStep (start cfg async jobs) evs s) :
    (∀ p, s.packet = some (.executions p) → ExecutionsOf (start cfg async jobs) evs s p) ∧
    ∀ p job, .dumpXml (.executions p) job ∈ s.out →
      ∃ pre c mid c' post s₀ s₁ s₂, evs = pre ++ .turn c :: (mid ++ .turn c' :: post) ∧
        Run Step (start cfg async jobs) pre s₀ ∧ s₀.Step (.turn c) s₁ ∧ Run Step s₁ mid s₂ ∧
        Sends s₀ s₁ .EXECUTIONS_REQUEST p.reqId ∧ p.list = executed p.reqId mid ∧
        p.mode = .CLOSED ∧ (p.error = .NONE ∧ .execDetailsEnd p.reqId ∈ mid ∨
          p.error = .TIMEOUT ∧ .execDetailsEnd p.reqId ∉ mid ∧
            s₂.cfg.tws_reqTimeout < s₂.currentRequest.age s₂.now) := by
  refine ⟨(run_executions h).opened, fun p job hd => ?_⟩
  obtain ⟨evs₁, c', post, s₂, p₁, rfl, -, hof, hcl⟩ := (run_executions h).written p job hd
  obtain ⟨pre, c, mid, s₀, s₁, rfl, h₀, h₁, h₂, hs, hlist, herr, hmode⟩ := hof
  have hevs : pre ++ .turn c :: mid ++ .turn c' :: post =
      pre ++ .turn c :: (mid ++ .turn c' :: post) := by simp
  rcases hcl with ⟨hm, rfl⟩ | ⟨hm, hage, rfl⟩
  · exact ⟨pre, c, mid, c', post, s₀, s₁, s₂, hevs, h₀, h₁, h₂, hs, hlist, hm,
      .inl ⟨herr, hmode.1 hm⟩⟩
  · have hnot : .execDetailsEnd p₁.reqId ∉ mid := fun hmem => by
      rw [hmode.2 hmem] at hm
      cases hm
    exact ⟨pre, c, mid, c', post, s₀, s₁, s₂, hevs, h₀, h₁, h₂, hs, hlist, rfl,
      .inr ⟨rfl, hnot, hage⟩⟩

/-- `OwnExecutionsStep`, to be executed. -/
def ownExecutionsNext (s : TwsDL) (e : Event) : Option TwsDL :=
  if s.OwnExecutions e then s.next e else none

theorem ownExecutionsStep_of_next (h : s.ownExecutionsNext e = some s') :
    s.OwnExecutionsStep e s' := by
  unfold ownExecutionsNext at h
  split at h
  · rename_i hs
    exact ⟨step_of_next h, hs⟩
  · cases h

/-- An execution with the identifier `execId`. -/
def execution (execId : String) : RowExecution :=
  { contract := {}
    execution :=
      { execId, time := "20180102  15:30:00", acctNumber := "DU1", exchange := "SMART",
        side := "BOT", shares := 1, price := 1, permId := 1, clientId := 0, orderId := 1,
        liquidation := 0, cumQty := 1, avgPrice := 1, orderRef := "", evRule := "",
        evMultiplier := 0, modelCode := "", lastLiquidity := 0 } }

/-- An execution that was not asked for, and then the one that was, and its
end mark. -/
def ownExecution : List Event :=
  connects 40000 1 ++ [.execDetails (-1) (execution "live"), .turn {},
    .execDetails 1 (execution "own"), .execDetailsEnd 1, .turn {}]

/-- What is written is the one that belongs to it. -/
theorem executions_belong_own : ∃ s p,
    Run OwnExecutionsStep (start { get_exec := true } false []) ownExecution s ∧
      .dumpXml (.executions p) none ∈ s.out ∧ p.reqId = 1 ∧ p.list = [execution "own"] ∧
      ∃ mid, p.list = executed 1 mid := by
  have hout : (ownExecution.foldlM ownExecutionsNext (start { get_exec := true } false [])).map
      (fun s => decide (.dumpXml (.executions
        { mode := .CLOSED, reqId := 1, list := [execution "own"] }) none ∈ s.out)) =
        some true := by
    decide +kernel
  obtain ⟨s, hs, hl⟩ := Option.map_eq_some_iff.1 hout
  have hd := of_decide_eq_true hl
  have hrun := Run.of_foldlM (fun _ _ _ => ownExecutionsStep_of_next) hs
  obtain ⟨-, hwritten⟩ := executions_belong hrun
  obtain ⟨pre, c, mid, c', post, s₀, s₁, s₂, -, -, -, -, -, hlist, -⟩ := hwritten _ _ hd
  exact ⟨s, _, hrun, hd, rfl, rfl, mid, hlist⟩

/-- An execution that was not asked for comes while the request is open, and
an end mark that belongs to another request. -/
def liveExecution : List Event :=
  connects 40000 1 ++ [.turn {}, .execDetails (-1) (execution "live"), .execDetailsEnd 7, .turn {}]

/-- **They are written and close the packet.** -/
theorem live_execution_written : ∃ s p,
    Run Step (start { get_exec := true } false []) liveExecution s ∧
      .dumpXml (.executions p) none ∈ s.out ∧ execution "live" ∈ p.list ∧
      execution "live" ∉ executed p.reqId liveExecution ∧ p.mode = .CLOSED ∧ p.error = .NONE ∧
      .execDetailsEnd p.reqId ∉ liveExecution := by
  have hout : (liveExecution.foldlM next (start { get_exec := true } false [])).map
      (fun s => decide (.dumpXml (.executions
        { mode := .CLOSED, reqId := 1, list := [execution "live"] }) none ∈ s.out)) =
        some true := by
    decide +kernel
  obtain ⟨s, hs, hl⟩ := Option.map_eq_some_iff.1 hout
  have hd := of_decide_eq_true hl
  have hrun := Run.of_foldlM (fun _ _ _ => step_of_next) hs
  exact ⟨s, _, hrun, hd, by decide, by decide, rfl, rfl, by decide⟩

end TwsDL

end Twstools
