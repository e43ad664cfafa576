import Twstools.Jobs.Done
/-!
# The order of the requests

`nextReqType` prefers the account to executions, these to open orders, then
come contracts, option parameters and historical data, and orders are placed
when nothing else is left. A lost connection brings jobs back, but only of
the kind that was being asked for. So in a run the kinds follow each other
in that order.
-/

namespace Twstools

/-- Where a request stands in the order of `nextReqType`. The tickers come
before all of them, and orders, which are placed when there is none, behind
them. -/
def ReqType.phase : ReqType → ℕ
  | .ACC_STATUS_REQUEST => 1
  | .EXECUTIONS_REQUEST => 2
  | .ORDERS_REQUEST => 3
  | .CONTRACT_DETAILS_REQUEST => 4
  | .OPT_PARAMS_REQUEST => 5
  | .HIST_REQUEST => 6
  | .NONE => 7

/-- Where an action stands, if it asks TWS for something. -/
def Action.phase (a : Action) : Option ℕ :=
  match a.topic with
  | .ticker => some 0
  | .request => a.reqType.map ReqType.phase
  | .order => some 7
  | .answer | .written | .connection => none

/-- Requests of the type are left. -/
def WorkTodo.Left (w : WorkTodo) : ReqType → Prop
  | .CONTRACT_DETAILS_REQUEST => w.contractDetailsTodo.countLeft > 0
  | .OPT_PARAMS_REQUEST => w.optParamsTodo.countLeft > 0
  | .HIST_REQUEST => w.histTodo.leftRequests ≠ []
  | t => w.wants t = true

theorem Action.phase_of_reqType {a : Action} {t : ReqType} (h : a.reqType = some t) :
    a.phase = some t.phase := by
  rw [phase, topic_of_reqType h, h]
  rfl

namespace WorkTodo

variable {w w' : WorkTodo} {t : ReqType}

/-- **The next request is of the first type** of which any is left. -/
theorem nextReqType_first (h : w.Left t) : w.nextReqType.2.phase ≤ t.phase := by
  have hhist : w.histTodo.leftRequests ≠ [] → w.histTodo.countLeft > 0 := fun h => by
    have := List.length_pos_iff.2 h
    unfold HistTodo.countLeft
    omega
  unfold nextReqType
  cases t <;> simp only [Left, wants, reduceCtorEq] at h <;>
    split_ifs <;> simp_all [ReqType.phase]

/-- If there is a next request, it is left. -/
theorem left_nextReqType (h : w.nextReqType.2 ≠ .NONE) : w.Left w.nextReqType.2 := by
  unfold nextReqType at h ⊢
  split_ifs at h ⊢ with h1 h2 h3 h4 h5 h6
  · exact h1
  · exact h2
  · exact h3
  · exact h4
  · exact h5
  · intro hnil
    simp [HistTodo.countLeft, hnil] at h6
  · exact absurd rfl h

/-- It may be taken off, and the others stay. -/
theorem left_of_nextReqType (h : w.nextReqType.1.Left t) : w.Left t := by
  unfold nextReqType at h
  split_ifs at h <;> first | exact h | (cases t <;> simp_all [Left, wants])

/-- What is left was left before, or its type has `P`. -/
theorem Left.imp {P : ReqType → Prop} (h : w'.Left t)
    (hcd : w'.contractDetailsTodo.countLeft > 0 →
      w.contractDetailsTodo.countLeft > 0 ∨ P .CONTRACT_DETAILS_REQUEST)
    (hop : w'.optParamsTodo.countLeft > 0 →
      w.optParamsTodo.countLeft > 0 ∨ P .OPT_PARAMS_REQUEST)
    (hh : w'.histTodo.leftRequests ≠ [] → w.histTodo.leftRequests ≠ [] ∨ P .HIST_REQUEST)
    (hw : w'.wants = w.wants) : w.Left t ∨ P t := by
  cases t with
  | CONTRACT_DETAILS_REQUEST => exact hcd h
  | OPT_PARAMS_REQUEST => exact hop h
  | HIST_REQUEST => exact hh h
  | NONE | ACC_STATUS_REQUEST | EXECUTIONS_REQUEST | ORDERS_REQUEST =>
      exact .inl (by simpa only [Left, hw] using h)

end WorkTodo

/-! ## What comes back -/

namespace Jobs

variable {j j' : Jobs}

/-- Jobs come back of the type of the open request only. -/
theorem Waited.left (h : j.Waited j') (hok : j.Ok) :
    (j'.request.reqType = j.request.reqType ∨ j'.request.reqType = .NONE) ∧
    (j'.contractDetailsTodo = j.contractDetailsTodo ∨
      j.request.reqType = .CONTRACT_DETAILS_REQUEST) ∧
    (j'.optParamsTodo = j.optParamsTodo ∨ j.request.reqType = .OPT_PARAMS_REQUEST) ∧
    (j'.histTodo = j.histTodo ∨ j.request.reqType = .HIST_REQUEST) := by
  cases h with
  | stay => exact ⟨.inl rfl, .inl rfl, .inl rfl, .inl rfl⟩
  | @fin p p' j₁ hp hc hf =>
      have ht : j.request.reqType = p'.reqType := by
        rw [← hok.packet_some p hp]
        rcases hc with ⟨rfl, -⟩ | ⟨-, hcl⟩
        · rfl
        · exact (Packet.reqType_closeError hcl).symm
      refine ⟨.inr rfl, ?_⟩
      cases hf with
      | contractDetailsAgain hk => exact ⟨.inr (ht.trans hk), .inl rfl, .inl rfl⟩
      | optParamsAgain hk => exact ⟨.inl rfl, .inr (ht.trans hk), .inl rfl⟩
      | histDumped hk | histDone hk | histAgain hk =>
          exact ⟨.inl rfl, .inl rfl, .inr (ht.trans hk)⟩
      | dumped | dropped => exact ⟨.inl rfl, .inl rfl, .inl rfl⟩

/-- A request takes jobs off. -/
theorem Worked.left (h : j.Worked j') :
    j'.contractDetailsTodo.countLeft ≤ j.contractDetailsTodo.countLeft ∧
    j'.optParamsTodo.countLeft ≤ j.optParamsTodo.countLeft ∧
    (j'.histTodo.leftRequests ≠ [] → j.histTodo.leftRequests ≠ []) := by
  cases h with
  | stay | done | other => exact ⟨Int.le_refl _, Int.le_refl _, id⟩
  | contractDetails hck =>
      obtain ⟨-, rfl⟩ := IndexTodo.checkout_eq_ok.1 hck
      refine ⟨?_, Int.le_refl _, id⟩
      simp only [IndexTodo.countLeft]
      omega
  | optParams hck =>
      obtain ⟨-, rfl⟩ := IndexTodo.checkout_eq_ok.1 hck
      refine ⟨Int.le_refl _, ?_, id⟩
      simp only [IndexTodo.countLeft]
      omega
  | hist _ hmem => exact ⟨Int.le_refl _, Int.le_refl _, fun _ => List.ne_nil_of_mem hmem⟩

end Jobs

namespace TwsDL

variable {s s' : TwsDL} {e : Event} {evs : List Event} {cfg : ConfigTwsdo} {async : Bool}
variable {jobs : List Job} {t : ReqType}

theorem waitData_left (hok : s.jobs.Ok) (h : s.waitData = .ok s') (hl : s'.workTodo.Left t) :
    s.workTodo.Left t ∨ t = s.currentRequest.reqType := by
  obtain ⟨-, hcd, hop, hh⟩ := (waitData_cases hok h).left hok
  refine hl.imp (P := (· = s.currentRequest.reqType)) ?_ ?_ ?_ (waitData_wants h)
  · rcases hcd with hcd | hcd
    · rw [show s'.workTodo.contractDetailsTodo = s.workTodo.contractDetailsTodo from hcd]
      exact .inl
    · exact fun _ => .inr hcd.symm
  · rcases hop with hop | hop
    · rw [show s'.workTodo.optParamsTodo = s.workTodo.optParamsTodo from hop]
      exact .inl
    · exact fun _ => .inr hop.symm
  · rcases hh with hh | hh
    · rw [show s'.workTodo.histTodo = s.workTodo.histTodo from hh]
      exact .inl
    · exact fun _ => .inr hh.symm

theorem request_left {u : ReqType} (h : s.request u = .ok s') (hl : s'.workTodo.Left t) :
    s.workTodo.Left t := by
  obtain ⟨hcd, hop, hh⟩ := (request_cases h).1.left
  have hw : s'.workTodo.wants = s.workTodo.wants := by
    by_cases hu : u = .NONE
    · rw [hu] at h
      exact placeOrders_wants h
    · obtain ⟨r, i, c, o, H, g, rfl | ⟨-, p, out, rfl⟩⟩ := request_effect hu h
      · rfl
      · rfl
  have hor := hl.imp (P := fun _ => False) (fun h => .inl (Int.lt_of_lt_of_le h hcd))
    (fun h => .inl (Int.lt_of_lt_of_le h hop)) (fun h => .inl (hh h)) hw
  exact hor.resolve_right id

/-- Callbacks give up historical jobs at most. -/
theorem handle_left (hok : s.jobs.Ok) (ht : ∀ c, e ≠ .turn c) (h : s.handle e = .ok s')
    (hl : s'.workTodo.Left t) : s.workTodo.Left t := by
  have hf := handle_fixed ht h
  have hcd : s'.workTodo.contractDetailsTodo = s.workTodo.contractDetailsTodo :=
    congrArg Fixed.contractDetailsTodo hf
  have hop : s'.workTodo.optParamsTodo = s.workTodo.optParamsTodo :=
    congrArg Fixed.optParamsTodo hf
  have hskip : s.workTodo.histTodo.Skipped s'.workTodo.histTodo := by
    have hcalled := handle_called hok ht h
    generalize hj : s'.jobs = j at hcalled
    have hH : s'.workTodo.histTodo = j.histTodo := congrArg Jobs.histTodo hj
    rw [hH]
    cases hcalled with
    | none => exact .stay
    | some _ _ hs => exact hs
  have hh : s'.workTodo.histTodo.leftRequests ≠ [] → s.workTodo.histTodo.leftRequests ≠ [] := by
    generalize s'.workTodo.histTodo = H at hskip
    cases hskip with
    | stay => exact id
    | skip con f =>
        refine mt fun hnil => ?_
        unfold HistTodo.skip
        split
        · exact hnil
        · simp [hnil]
  have hor := hl.imp (P := fun _ => False) (fun h => .inl (hcd ▸ h)) (fun h => .inl (hop ▸ h))
    (fun h => .inl (hh h)) (wants_of_fixed (by rw [hf]))
  exact hor.resolve_right id

/-! ## The phases of a run -/

/-- The phases of what was asked for. -/
def phases (s : TwsDL) : List ℕ := s.out.filterMap Action.phase

/-- **What was asked for came in order**, and none of it belongs behind
what is left, behind the open request, or before the tickers. -/
structure InPhase (s : TwsDL) : Prop where
  ordered : s.phases.Pairwise (· ≤ ·)
  left : ∀ n ∈ s.phases, ∀ t, s.workTodo.Left t → n ≤ t.phase
  current : ∀ n ∈ s.phases, n ≤ s.currentRequest.reqType.phase
  tickers : s.fuckme ≤ 0 → s.phases = []

/-- What is about neither requests nor orders is in no phase. -/
theorem Adds.phases_eq {P : Action → Prop} (h : Adds P s s')
    (hP : ∀ a, P a → a.topic = .answer ∨ a.topic = .written ∨ a.topic = .connection) :
    s'.phases = s.phases := by
  obtain ⟨l, hl, hl'⟩ := h
  have hnil : l.filterMap Action.phase = [] := by
    refine List.filterMap_eq_nil_iff.2 fun a ha => ?_
    rcases hP a (hl' a ha) with ht | ht | ht <;> rw [Action.phase, ht]
  rw [phases, hl, List.filterMap_append, hnil, List.append_nil, phases]

theorem ReqType.phase_le (t : ReqType) : t.phase ≤ ReqType.NONE.phase := by
  cases t <;> decide

theorem InPhase.of_eq (h : InPhase s) (ho : s'.phases = s.phases)
    (hl : ∀ t, s'.workTodo.Left t → s.workTodo.Left t ∨ t = s.currentRequest.reqType)
    (hc : s'.currentRequest.reqType = s.currentRequest.reqType ∨
      s'.currentRequest.reqType = .NONE)
    (hf : s'.fuckme = s.fuckme) : InPhase s' where
  ordered := ho ▸ h.ordered
  left n hn t ht := by
    rw [ho] at hn
    rcases hl t ht with ht | rfl
    · exact h.left n hn t ht
    · exact h.current n hn
  current n hn := by
    rw [ho] at hn
    have hle := h.current n hn
    rcases hc with hc | hc
    · rwa [hc]
    · rw [hc]
      exact Nat.le_trans hle (ReqType.phase_le _)
  tickers h0 := by
    rw [ho]
    exact h.tickers (hf ▸ h0)

/-- **The tickers are first.** -/
theorem InPhase.started (h : InPhase s) (hs : s.startMktData = .ok s') :
    InPhase s' ∧ 0 < s'.fuckme := by
  have hadds := startMktData_adds hs
  unfold startMktData at hs
  split at hs
  · rename_i h0
    obtain ⟨l, hl, hl'⟩ := hadds
    simp only [reqMktData, Exec.bind_eq_ok] at hs
    obtain ⟨-, -, hs⟩ := hs
    have hzero : ∀ n ∈ s'.phases, n = 0 := by
      intro n hn
      rw [phases, hl, List.filterMap_append, ← phases, h.tickers h0, List.nil_append] at hn
      obtain ⟨a, ha, hn⟩ := List.mem_filterMap.1 hn
      rw [Action.phase, hl' a ha] at hn
      exact (Option.some.inj hn).symm
    have hf : 0 < s'.fuckme := by
      rw [← Except.ok.inj hs]
      dsimp only
      omega
    refine ⟨⟨List.pairwise_of_forall_mem_list fun a ha b hb => ?_, fun n hn t _ => ?_,
      fun n hn => ?_, fun hle => ?_⟩, hf⟩
    · rw [hzero a ha, hzero b hb]
    · rw [hzero n hn]
      exact Nat.zero_le _
    · rw [hzero n hn]
      exact Nat.zero_le _
    · omega
  · rename_i h0
    rw [← Except.ok.inj hs]
    exact ⟨h, by omega⟩

/-- **The next request** is in the phase of what is left. -/
theorem InPhase.requested (h : InPhase s) (h0 : 0 < s.fuckme)
    (hn : s.currentRequest.reqType = .NONE)
    (hr : ({ s with workTodo := s.workTodo.nextReqType.1 } : TwsDL).request
      s.workTodo.nextReqType.2 = .ok s') : InPhase s' := by
  have hleft : ∀ t, s'.workTodo.Left t → s.workTodo.Left t := fun t ht =>
    WorkTodo.left_of_nextReqType (request_left hr ht)
  -- whatever is added is in the phase of the next type
  obtain ⟨l, hl, hphase⟩ : ∃ l, s'.out = s.out ++ l ∧
      ∀ a ∈ l, a.phase = some s.workTodo.nextReqType.2.phase := by
    by_cases ht : s.workTodo.nextReqType.2 = .NONE
    · rw [ht] at hr ⊢
      have hA := placeOrders_adds _ hr
      obtain ⟨l, hl, hl'⟩ := hA
      exact ⟨l, hl, fun a ha => by rw [Action.phase, hl' a ha]; rfl⟩
    · rcases request_adds ht hr with ⟨-, ho⟩ | ⟨a, ha, ho⟩
      · exact ⟨[], by rw [ho, List.append_nil], by simp⟩
      · exact ⟨[a], ho, by simpa using Action.phase_of_reqType ha⟩
  have hold : ∀ n ∈ s.phases, n ≤ s.workTodo.nextReqType.2.phase := fun n hmem => by
    by_cases ht : s.workTodo.nextReqType.2 = .NONE
    · rw [ht, ← hn]
      exact h.current n hmem
    · exact h.left n hmem _ (WorkTodo.left_nextReqType ht)
  have hphases : s'.phases = s.phases ++ l.filterMap Action.phase := by
    rw [phases, hl, List.filterMap_append, phases]
  have hnew : ∀ n ∈ l.filterMap Action.phase, n = s.workTodo.nextReqType.2.phase := by
    intro n hmem
    obtain ⟨a, ha, hn⟩ := List.mem_filterMap.1 hmem
    exact Option.some.inj (hn.symm.trans (hphase a ha))
  have hle : ∀ n ∈ s'.phases, n ≤ s.workTodo.nextReqType.2.phase := by
    intro n hmem
    rw [hphases] at hmem
    rcases List.mem_append.1 hmem with hmem | hmem
    · exact hold n hmem
    · exact Nat.le_of_eq (hnew n hmem)
  have hrest : s'.fuckme = s.fuckme ∧ (s'.currentRequest.reqType = .NONE ∨
      s'.currentRequest.reqType = s.workTodo.nextReqType.2) := by
    by_cases ht : s.workTodo.nextReqType.2 = .NONE
    · rw [ht] at hr
      obtain ⟨r, todo, live, id, out, rfl⟩ := placeOrders_effect _ hr
      exact ⟨rfl, .inl hn⟩
    · obtain ⟨r, i, c, o, H, g, rfl | ⟨-, p, out, rfl⟩⟩ := request_effect ht hr
      · exact ⟨rfl, .inl hn⟩
      · exact ⟨rfl, .inr rfl⟩
  refine ⟨?_, fun n hmem t ht => ?_, fun n hmem => ?_, fun h0' => ?_⟩
  · rw [hphases]
    refine List.pairwise_append.2 ⟨h.ordered,
      List.pairwise_of_forall_mem_list fun a ha b hb => ?_, fun a ha b hb => ?_⟩
    · rw [hnew a ha, hnew b hb]
    · rw [hnew b hb]
      exact hold a ha
  · exact Nat.le_trans (hle n hmem) (WorkTodo.nextReqType_first (hleft t ht))
  · rcases hrest.2 with hc | hc
    · rw [hc]
      exact Nat.le_trans (hle n hmem) (ReqType.phase_le _)
    · rw [hc]
      exact hle n hmem
  · omega

/-- Finishing a request asks for nothing. -/
theorem InPhase.waited {i : ℤ} (hP : InPhase s) (hok : s.jobs.Ok)
    (h : ({ s with curIdleTime := i } : TwsDL).waitData = .ok s') : InPhase s' := by
  have hadd := waitData_adds h
  have hleft := fun t => waitData_left (s := { s with curIdleTime := i }) (t := t) hok h
  have hcur := ((waitData_cases (s := { s with curIdleTime := i }) hok h).left hok).1
  have hF := (waitData_orders h).1
  exact hP.of_eq (hadd.phases_eq fun a ha => ha.elim (fun h => .inr (.inl h)) .inl) hleft hcur
    (congrArg Orders.fuckme hF.rest)

/-- **A turn stays in order.** -/
theorem InPhase.turn {c : Connect} (hP : InPhase s) (hok : s.jobs.Ok) (h : s.turn c = .ok s') :
    InPhase s' := by
  obtain ⟨s₁, i, hpath, rfl⟩ := turn_path h
  suffices InPhase s₁ from ⟨this.ordered, this.left, this.current, this.tickers⟩
  cases hpath with
  | connecting hst hw =>
      have hadd := waitTwsCon_adds hw
      have hwants := waitTwsCon_wants hw
      obtain ⟨st, hj⟩ := waitTwsCon_jobs (s := { s with curIdleTime := -1 }) (hok.waiting hst) hw
      obtain ⟨r, hr⟩ := waitTwsCon_orders hw
      have hcd : s₁.workTodo.contractDetailsTodo = s.workTodo.contractDetailsTodo :=
        congrArg (·.contractDetailsTodo) hj
      have hop : s₁.workTodo.optParamsTodo = s.workTodo.optParamsTodo :=
        congrArg (·.optParamsTodo) hj
      have hh : s₁.workTodo.histTodo = s.workTodo.histTodo := congrArg (·.histTodo) hj
      refine hP.of_eq (hadd.phases_eq fun a => .inr ∘ .inr) (fun t ht => ?_)
        (.inl (congrArg (·.request.reqType) hj)) (congrArg Orders.fuckme hr)
      exact ht.imp (P := (· = s.currentRequest.reqType)) (fun h => .inl (hcd ▸ h))
        (fun h => .inl (hop ▸ h)) (fun h => .inl (hh ▸ h)) hwants
  | waiting _ hw _ => exact hP.waited hok hw
  | reconnecting _ hw _ _ _ hcon =>
      have hW := hP.waited hok hw
      rcases connectTws_effect hcon with ⟨k, rfl⟩ | ⟨k, b, st, -, rfl⟩
      · exact ⟨hW.ordered, hW.left, hW.current, hW.tickers⟩
      · exact ⟨hW.ordered, hW.left, hW.current, hW.tickers⟩
  | working _ hw _ hn _ hwork =>
      simp only [work, Exec.bind_eq_ok] at hwork
      obtain ⟨s₃, h₃, s₄, h₄, hwork⟩ := hwork
      obtain ⟨hS, h0⟩ := (hP.waited hok hw).started h₃
      have hn₃ : s₃.currentRequest.reqType = .NONE := by
        rw [← hn]
        exact congrArg (fun j : Jobs => j.request.reqType) (startMktData_jobs h₃)
      have hR := hS.requested h0 hn₃ h₄
      rw [← Except.ok.inj hwork]
      obtain ⟨lastError, quit, hd⟩ := checkDone_effect s₄ s₃.workTodo.nextReqType.2
      rw [hd]
      exact ⟨hR.ordered, hR.left, hR.current, hR.tickers⟩

theorem InPhase.step (hP : InPhase s) (hok : s.jobs.Ok) (h : s.Step e s') : InPhase s' := by
  by_cases ht : ∃ c, e = .turn c
  · obtain ⟨c, rfl⟩ := ht
    exact hP.turn hok h.2
  · have ht' : ∀ c, e ≠ .turn c := fun c hc => ht ⟨c, hc⟩
    have hf := handle_fixed ht' h.2
    have hadd := handle_adds ht' h.2
    refine hP.of_eq (hadd.phases_eq fun a ha => .inr (.inr (by rw [ha]; rfl)))
      (fun t hl => .inl (handle_left hok ht' h.2 hl)) (.inl ?_) (congrArg Fixed.fuckme hf)
    exact congrArg (fun f : Fixed => f.currentRequest.reqType) hf

theorem run_inPhase (h : Run Step (start cfg async jobs) evs s) : InPhase s := by
  have hnil : (start cfg async jobs).phases = [] := rfl
  refine (h.invariant (I := fun s => InPhase s ∧ s.jobs.Ok)
    ⟨⟨?_, ?_, ?_, fun _ => hnil⟩, run_ok .nil⟩
    fun _ _ _ hI hs => ⟨hI.1.step hI.2 hs, step_ok hI.2 hs⟩).1
  · rw [hnil]
    exact .nil
  · rw [hnil]
    exact fun n hn => absurd hn List.not_mem_nil
  · rw [hnil]
    exact fun n hn => absurd hn List.not_mem_nil

/-- Once an order is sent, nothing else is open or left. -/
theorem InPhase.nothing_left (hP : InPhase s) (h : ∃ a ∈ s.out, a.topic = .order) :
    s.currentRequest.reqType = .NONE ∧ s.workTodo.nextReqType.2 = .NONE := by
  obtain ⟨a, ha, ht⟩ := h
  have hmem : 7 ∈ s.phases := List.mem_filterMap.2 ⟨a, ha, by rw [Action.phase, ht]⟩
  have hlast : ∀ t : ReqType, 7 ≤ t.phase → t = .NONE := fun t => by
    cases t <;> simp [ReqType.phase]
  refine ⟨hlast _ (hP.current 7 hmem), ?_⟩
  by_contra hne
  exact hne (hlast _ (hP.left 7 hmem _ (WorkTodo.left_nextReqType hne)))

/-- **Requests are made in the order of their types**, whatever callbacks,
errors and lost connections come between: the tickers, the account,
executions, open orders, contracts, option parameters, historical data, and
at last orders are placed. Once an order is placed, no request is open and
none is left. -/
theorem requests_in_order (h : Run Step (start cfg async jobs) evs s) :
    (s.out.filterMap Action.phase).Pairwise (· ≤ ·) ∧
      ((∃ a ∈ s.out, a.topic = .order) →
        s.currentRequest.reqType = .NONE ∧ s.workTodo.nextReqType.2 = .NONE) := by
  have hP := run_inPhase h
  exact ⟨hP.ordered, hP.nothing_left⟩

/-- The order waits for the account, although it is first in the file. -/
def accountThenOrder : List Event :=
  connects 40000 1 ++ [.turn {}, .accountDownloadEnd "", .turn {}]

theorem requests_in_order_account : ∃ s,
    Run Step (start {} false [.place_order {}, .account]) accountThenOrder s ∧
      s.out.filterMap Action.phase = [1, 7] ∧ s.workTodo.nextReqType.2 = .NONE := by
  have hplay : ((accountThenOrder.foldlM next (start {} false [.place_order {}, .account])).map
      fun s => (s.phases, s.out.any fun a => a.topic = .order)) = some ([1, 7], true) := by
    decide +kernel
  obtain ⟨s, hs, hasked⟩ := Option.map_eq_some_iff.1 hplay
  obtain ⟨hphases, hplaced⟩ := Prod.mk.inj hasked
  have hrun := Run.of_foldlM (fun _ _ _ => step_of_next) hs
  obtain ⟨a, ha, ht⟩ := List.any_eq_true.1 hplaced
  exact ⟨s, hrun, hphases, ((requests_in_order hrun).2 ⟨a, ha, of_decide_eq_true ht⟩).2⟩

end TwsDL

end Twstools
