import Twstools.Jobs.HistJobs
import Twstools.Orders.Runs
import Twstools.Twsdo.Output
/-!
# What is done when the program quits

The account, the executions and the open orders are asked for at most
once, and so are the tickers, however often the connection is lost. The
program quits by itself only when nothing is left: each list of jobs is
through, no request is open, no order is live, and there was no ticker to
wait for.
-/

namespace Twstools

/-- The requests that are made once. -/
def ReqType.Once (t : ReqType) : Prop :=
  t = .ACC_STATUS_REQUEST ∨ t = .EXECUTIONS_REQUEST ∨ t = .ORDERS_REQUEST

instance (t : ReqType) : Decidable t.Once := inferInstanceAs (Decidable (_ ∨ _ ∨ _))

/-- Whether a request that is made once is still to be made. -/
def WorkTodo.wants (w : WorkTodo) : ReqType → Bool
  | .ACC_STATUS_REQUEST => w.acc_status_todo
  | .EXECUTIONS_REQUEST => w.executions_todo
  | .ORDERS_REQUEST => w.orders_todo
  | _ => false

/-- The type of an action that is such a request. -/
def Action.once (a : Action) : Option ReqType := a.reqType.filter fun t => t.Once

/-- What is asked for tickers. -/
def Action.isTicker (a : Action) : Bool := a.topic = .ticker

/-- The actions that ask for the tickers of a list of jobs. -/
def tickerActions (v : List MktDataRequest) : List Action :=
  v.mapIdx fun i r => .reqMktData (i + 1) r

/-- The request that an element of a work file asks for once. -/
def Job.once : Job → Option ReqType
  | .account => some .ACC_STATUS_REQUEST
  | .executions => some .EXECUTIONS_REQUEST
  | .open_orders => some .ORDERS_REQUEST
  | _ => none

/-- The ticker that an element of a work file asks for. -/
def Job.ticker : Job → Option MktDataRequest
  | .market_data r _ => some r
  | _ => none

/-- What the command line asks for once. -/
def ConfigTwsdo.once (cfg : ConfigTwsdo) : ReqType → Bool
  | .ACC_STATUS_REQUEST => cfg.get_account
  | .EXECUTIONS_REQUEST => cfg.get_exec
  | .ORDERS_REQUEST => cfg.get_order
  | _ => false

/-- Whether a request is wanted, on the command line or in the work file. -/
def wanted (cfg : ConfigTwsdo) (jobs : List Job) (t : ReqType) : Bool :=
  cfg.once t || jobs.any fun job => job.once = some t

/-- **The next request** is taken off if it is made once. -/
theorem WorkTodo.nextReqType_cases (w : WorkTodo) :
    w.acc_status_todo = true ∧
        w.nextReqType = ({ w with acc_status_todo := false }, .ACC_STATUS_REQUEST) ∨
      w.executions_todo = true ∧
        w.nextReqType = ({ w with executions_todo := false }, .EXECUTIONS_REQUEST) ∨
      w.orders_todo = true ∧
        w.nextReqType = ({ w with orders_todo := false }, .ORDERS_REQUEST) ∨
      w.nextReqType.1 = w ∧ ¬ w.nextReqType.2.Once := by
  unfold nextReqType
  split
  · rename_i h
    exact .inl ⟨h, rfl⟩
  split
  · rename_i h
    exact .inr (.inl ⟨h, rfl⟩)
  split
  · rename_i h
    exact .inr (.inr (.inl ⟨h, rfl⟩))
  refine .inr (.inr (.inr ?_))
  split
  · exact ⟨rfl, by simp [ReqType.Once]⟩
  split
  · exact ⟨rfl, by simp [ReqType.Once]⟩
  split
  · exact ⟨rfl, by simp [ReqType.Once]⟩
  · exact ⟨rfl, by simp [ReqType.Once]⟩

/-- One that is made once was to be made, and it is not any more then. -/
theorem WorkTodo.nextReqType_wants (w : WorkTodo) (t : ReqType) :
    (w.nextReqType.1.wants t).toNat + (if t.Once ∧ w.nextReqType.2 = t then 1 else 0) =
      (w.wants t).toNat := by
  rcases w.nextReqType_cases with ⟨h, hn⟩ | ⟨h, hn⟩ | ⟨h, hn⟩ | ⟨h, hn⟩
  · rw [hn]
    cases t <;> simp [wants, ReqType.Once, h]
  · rw [hn]
    cases t <;> simp [wants, ReqType.Once, h]
  · rw [hn]
    cases t <;> simp [wants, ReqType.Once, h]
  · rw [h, if_neg, Nat.add_zero]
    rintro ⟨ht, rfl⟩
    exact hn ht

namespace TwsDL

variable {s s' t : TwsDL} {e : Event} {evs : List Event} {cfg : ConfigTwsdo} {async : Bool}
variable {jobs : List Job} {w : WorkTodo} {b : Bool}

/-! ## What is asked once -/

theorem Adds.once_eq {P : Action → Prop} (h : Adds P s s')
    (hP : ∀ a, P a → a.topic ≠ .request) :
    s'.out.filterMap Action.once = s.out.filterMap Action.once := by
  obtain ⟨l, hl, hl'⟩ := h
  have hnil : l.filterMap Action.once = [] := by
    refine List.filterMap_eq_nil_iff.2 fun a ha => ?_
    rw [Action.once, Action.reqType_eq_none.2 (hP a (hl' a ha)), Option.filter_none]
  rw [hl, List.filterMap_append, hnil, List.append_nil]

theorem Adds.ticker_eq {P : Action → Prop} (h : Adds P s s')
    (hP : ∀ a, P a → a.topic ≠ .ticker) :
    s'.out.filter Action.isTicker = s.out.filter Action.isTicker :=
  h.filter_eq fun a ha => by simpa [Action.isTicker] using hP a ha

/-- A request that is made once is never put off. -/
theorem request_once {t : ReqType} (ht : t ≠ .NONE) (h : s.request t = .ok s') :
    s'.out.filterMap Action.once =
      s.out.filterMap Action.once ++ if t.Once then [t] else [] := by
  rcases request_adds ht h with ⟨hlater, ho⟩ | ⟨a, ha, ho⟩
  · have hno : ¬ t.Once := by rcases hlater with rfl | rfl | rfl <;> decide
    rw [ho, if_neg hno, List.append_nil]
  · have honce : a.once = if t.Once then some t else none := by
      rw [Action.once, ha]
      by_cases hO : t.Once
      · simp [hO]
      · simp [hO]
    rw [ho, List.filterMap_append, List.filterMap_cons, honce]
    by_cases hO : t.Once
    · rw [if_pos hO, if_pos hO]
      rfl
    · rw [if_neg hO, if_neg hO]
      rfl

/-! What is left to be asked once changes with `nextReqType` only. -/

theorem waitData_wants (h : s.waitData = .ok s') : s'.workTodo.wants = s.workTodo.wants := by
  obtain ⟨live, old, c, o, H, out, error, lastError, quit, p, r, rfl⟩ := waitData_effect h
  rfl

theorem placeOrders_wants {k : ℕ} (h : placeOrders k s = .ok s') :
    s'.workTodo.wants = s.workTodo.wants := by
  obtain ⟨r, todo, live, id, out, rfl⟩ := placeOrders_effect k h
  rfl

theorem connect_wants {c : Connect} (h : s.connectTws c = .ok s') :
    s'.workTodo.wants = s.workTodo.wants := by
  rcases connectTws_effect h with ⟨i, rfl⟩ | ⟨k, b, st, -, rfl⟩
  · rfl
  · rfl

theorem wants_of_fixed (h : s'.fixed.simple = s.fixed.simple) :
    s'.workTodo.wants = s.workTodo.wants := by
  have h1 : s'.workTodo.acc_status_todo = s.workTodo.acc_status_todo := congrArg (·.1) h
  have h2 : s'.workTodo.executions_todo = s.workTodo.executions_todo := congrArg (·.2.1) h
  have h3 : s'.workTodo.orders_todo = s.workTodo.orders_todo := congrArg (·.2.2) h
  funext t
  cases t <;> simp [WorkTodo.wants, h1, h2, h3]

theorem waitTwsCon_wants (h : s.waitTwsCon = .ok s') :
    s'.workTodo.wants = s.workTodo.wants := by
  obtain ⟨hb, r, out, ⟨st, i, rfl⟩ | ⟨-, p, rfl⟩⟩ := waitTwsCon_effect h
  · rfl
  · rfl

/-- **What has been asked for, of the work `w` there was at the start.**
Each request that is made once was made, or is still wanted; the tickers
were asked for together, or not yet. -/
structure AskedOnce (w : WorkTodo) (s : TwsDL) : Prop where
  once : ∀ t, (s.out.filterMap Action.once).count t + (s.workTodo.wants t).toNat =
    (w.wants t).toNat
  mktData : s.workTodo.mktDataTodo = w.mktDataTodo
  tickers : s.fuckme ≤ 0 ∧ s.out.filter Action.isTicker = [] ∨
    s.fuckme = w.mktDataTodo.length + 1 ∧
      s.out.filter Action.isTicker = tickerActions w.mktDataTodo

/-- What is about something else keeps this. -/
theorem AskedOnce.of_eq (h : AskedOnce w s)
    (ho : s'.out.filterMap Action.once = s.out.filterMap Action.once)
    (hw : s'.workTodo.wants = s.workTodo.wants)
    (ht : s'.out.filter Action.isTicker = s.out.filter Action.isTicker)
    (hm : s'.workTodo.mktDataTodo = s.workTodo.mktDataTodo) (hf : s'.fuckme = s.fuckme) :
    AskedOnce w s' where
  once t := by rw [ho, hw, h.once]
  mktData := hm.trans h.mktData
  tickers := by rw [hf, ht]; exact h.tickers

/-- The tickers are asked for in the first turn that does anything. -/
theorem AskedOnce.started (h : AskedOnce w s) (hs : s.startMktData = .ok s') :
    AskedOnce w s' ∧ s'.fuckme = w.mktDataTodo.length + 1 := by
  have ho := (startMktData_adds hs).once_eq fun a ha => by rw [ha]; decide
  have hw := startMktData_workTodo hs
  unfold startMktData at hs
  split at hs
  · rename_i hf
    simp only [reqMktData, Exec.bind_eq_ok] at hs
    obtain ⟨-, -, hs⟩ := hs
    have hm : s.workTodo.mktDataTodo.length = w.mktDataTodo.length := by rw [h.mktData]
    have hf' : s'.fuckme = w.mktDataTodo.length + 1 := by
      rw [← Except.ok.inj hs, ← hm]
    refine ⟨⟨fun t => by rw [ho, hw, h.once], by rw [hw, h.mktData], .inr ⟨hf', ?_⟩⟩, hf'⟩
    rcases h.tickers with ⟨-, hnil⟩ | ⟨hpos, -⟩
    · have hout : s'.out = s.out ++ tickerActions w.mktDataTodo := by
        rw [← Except.ok.inj hs, ← h.mktData]
        rfl
      rw [hout, List.filter_append, hnil, List.nil_append, List.filter_eq_self]
      intro a ha
      obtain ⟨i, hi, rfl⟩ := List.mem_mapIdx.1 ha
      rfl
    · omega
  · rename_i hf
    rw [← Except.ok.inj hs]
    rcases h.tickers with ⟨hle, -⟩ | ⟨hpos, -⟩
    · exact absurd hle hf
    · exact ⟨h, hpos⟩

/-- The next request is made. -/
theorem AskedOnce.requested (h : AskedOnce w s)
    (hr : ({ s with workTodo := s.workTodo.nextReqType.1 } : TwsDL).request
      s.workTodo.nextReqType.2 = .ok s') : AskedOnce w s' := by
  have hwants : ({ s with workTodo := s.workTodo.nextReqType.1 } : TwsDL).workTodo.wants =
      s.workTodo.nextReqType.1.wants := rfl
  have ho := nextReqType_orders s
  have hm₁ := congrArg Orders.mktDataTodo ho
  have hf₁ := congrArg Orders.fuckme ho
  have hnext := WorkTodo.nextReqType_wants s.workTodo
  by_cases ht : s.workTodo.nextReqType.2 = .NONE
  · rw [ht] at hr
    have hA := placeOrders_adds _ hr
    have hP := placeAllOrders_placed hr
    have hw := (placeOrders_wants hr).trans hwants
    have hsame : s.workTodo.nextReqType.1.wants = s.workTodo.wants := by
      funext t
      have := hnext t
      rw [ht, if_neg (by rintro ⟨hO, rfl⟩; revert hO; decide), Nat.add_zero] at this
      revert this
      cases s.workTodo.nextReqType.1.wants t <;> cases s.workTodo.wants t <;> simp
    exact h.of_eq (hA.once_eq fun a ha => by rw [ha]; decide) (hw.trans hsame)
      (hA.ticker_eq fun a ha => by rw [ha]; decide) (hP.mktDataTodo.trans hm₁)
      (hP.fuckme.trans hf₁)
  · have honce := request_once ht hr
    obtain ⟨hw, hm, hf⟩ : s'.workTodo.wants = s.workTodo.nextReqType.1.wants ∧
        s'.workTodo.mktDataTodo = s.workTodo.nextReqType.1.mktDataTodo ∧
        s'.fuckme = s.fuckme := by
      obtain ⟨r, i, c, o, H, g, rfl | ⟨-, p, out, rfl⟩⟩ := request_effect ht hr
      · exact ⟨rfl, rfl, rfl⟩
      · exact ⟨rfl, rfl, rfl⟩
    have htick : s'.out.filter Action.isTicker = s.out.filter Action.isTicker := by
      have hadd := request_grows ht hr
      exact hadd.ticker_eq fun a ha => by rw [ha]; decide
    refine ⟨fun t => ?_, (hm.trans hm₁).trans h.mktData, ?_⟩
    · have hn := hnext t
      have hI := h.once t
      rw [honce, hw, List.count_append, ← hI, ← hn]
      by_cases htt : s.workTodo.nextReqType.2 = t
      · rw [htt]
        by_cases hO : t.Once
        · simp [hO]
          omega
        · simp [hO]
      · have hz : (if s.workTodo.nextReqType.2.Once then [s.workTodo.nextReqType.2] else []).count
            t = 0 := by
          split
          · simp [htt]
          · rfl
        have h0 : (if t.Once ∧ s.workTodo.nextReqType.2 = t then 1 else 0) = 0 :=
          if_neg fun hc => htt hc.2
        rw [h0]
        dsimp only at hz ⊢
        omega
    · rw [hf, htick]
      exact h.tickers

/-- Finishing asks for nothing. -/
theorem AskedOnce.waited {i : ℤ} (hA : AskedOnce w s)
    (h : ({ s with curIdleTime := i } : TwsDL).waitData = .ok s') : AskedOnce w s' := by
  have hadd := waitData_adds h
  have hF := (waitData_orders h).1
  have hw := waitData_wants h
  have hno : ∀ a : Action, a.topic = .written ∨ a.topic = .answer →
      a.topic ≠ .request ∧ a.topic ≠ .ticker := by
    rintro a (ha | ha) <;> rw [ha] <;> decide
  exact hA.of_eq (hadd.once_eq fun a ha => (hno a ha).1) hw
    (hadd.ticker_eq fun a ha => (hno a ha).2) (congrArg Orders.mktDataTodo hF.rest)
    (congrArg Orders.fuckme hF.rest)

/-- **A turn asks for what is wanted.** -/
theorem AskedOnce.turn {c : Connect} (hA : AskedOnce w s) (h : s.turn c = .ok s') :
    AskedOnce w s' := by
  obtain ⟨s₁, i, hpath, rfl⟩ := turn_path h
  suffices AskedOnce w s₁ from ⟨this.once, this.mktData, this.tickers⟩
  cases hpath with
  | connecting _ hw =>
      have hadd := waitTwsCon_adds hw
      have hwants := waitTwsCon_wants hw
      obtain ⟨r, hr⟩ := waitTwsCon_orders hw
      exact hA.of_eq (hadd.once_eq fun a ha => by rw [ha]; decide) hwants
        (hadd.ticker_eq fun a ha => by rw [ha]; decide) (congrArg Orders.mktDataTodo hr)
        (congrArg Orders.fuckme hr)
  | waiting _ hw _ => exact hA.waited hw
  | reconnecting _ hw _ _ _ hcon =>
      have ho := connectTws_orders hcon
      exact (hA.waited hw).of_eq (by rw [connectTws_out hcon]) (connect_wants hcon)
        (by rw [connectTws_out hcon]) (congrArg Orders.mktDataTodo ho)
        (congrArg Orders.fuckme ho)
  | working _ hw _ _ _ hwork =>
      simp only [work, Exec.bind_eq_ok] at hwork
      obtain ⟨s₃, h₃, s₄, h₄, hwork⟩ := hwork
      have h₅ := (((hA.waited hw).started h₃).1).requested h₄
      rw [← Except.ok.inj hwork]
      have ho := checkDone_orders s₄ s₃.workTodo.nextReqType.2
      refine h₅.of_eq (by rw [checkDone_out]) ?_ (by rw [checkDone_out])
        (congrArg Orders.mktDataTodo ho) (congrArg Orders.fuckme ho)
      unfold checkDone
      split <;> rfl

theorem AskedOnce.step (hA : AskedOnce w s) (h : s.Step e s') : AskedOnce w s' := by
  by_cases ht : ∃ c, e = .turn c
  · obtain ⟨c, rfl⟩ := ht
    exact hA.turn h.2
  · have ht' : ∀ c, e ≠ .turn c := fun c hc => ht ⟨c, hc⟩
    have hf := handle_fixed ht' h.2
    have hadd := handle_adds ht' h.2
    have hsimple : s'.fixed.simple = s.fixed.simple := by rw [hf]
    exact hA.of_eq (hadd.once_eq fun a ha => by rw [ha]; decide) (wants_of_fixed hsimple)
      (hadd.ticker_eq fun a ha => by rw [ha]; decide) (congrArg Fixed.mktDataTodo hf)
      (congrArg Fixed.fuckme hf)

theorem run_askedOnce (h : Run Step (start cfg async jobs) evs s) :
    AskedOnce (start cfg async jobs).workTodo s := by
  refine h.invariant (I := AskedOnce (start cfg async jobs).workTodo) ⟨?_, rfl, ?_⟩
    fun _ _ _ hA hs => hA.step hs
  · intro t
    simp [start]
  · exact .inl ⟨le_refl _, rfl⟩

/-- Reading a work file adds the requests of its elements. -/
theorem readFile_wants (jobs : List Job) (t : ReqType) : ∀ w : WorkTodo,
    (w.readFile jobs).wants t = (w.wants t || jobs.any fun job => job.once = some t) := by
  induction jobs with
  | nil => exact fun w => by simp [WorkTodo.readFile]
  | cons job jobs ih =>
      intro w
      have hstep : w.readFile (job :: jobs) = (w.readReq job).readFile jobs := rfl
      rw [hstep, ih, List.any_cons, ← Bool.or_assoc]
      congr 1
      cases job <;> cases t <;> simp [WorkTodo.readReq, WorkTodo.wants, Job.once]

theorem readFile_mktDataTodo (jobs : List Job) : ∀ w : WorkTodo,
    (w.readFile jobs).mktDataTodo = w.mktDataTodo ++ jobs.filterMap Job.ticker := by
  induction jobs with
  | nil => exact fun w => by simp [WorkTodo.readFile]
  | cons job jobs ih =>
      intro w
      have hstep : w.readFile (job :: jobs) = (w.readReq job).readFile jobs := rfl
      rw [hstep, ih]
      cases job <;> simp [WorkTodo.readReq, Job.ticker, List.filterMap_cons]

theorem start_wants (t : ReqType) :
    (start cfg async jobs).workTodo.wants t = wanted cfg jobs t := by
  have h := readFile_wants jobs t
    { acc_status_todo := cfg.get_account
      executions_todo := cfg.get_exec
      orders_todo := cfg.get_order }
  refine Eq.trans h ?_
  cases t <;> rfl

theorem start_mktDataTodo :
    (start cfg async jobs).workTodo.mktDataTodo = jobs.filterMap Job.ticker :=
  readFile_mktDataTodo jobs
    { acc_status_todo := cfg.get_account
      executions_todo := cfg.get_exec
      orders_todo := cfg.get_order }

/-! ## Quitting -/

/-- **Nothing is left to do.** -/
structure AllDone (s : TwsDL) : Prop where
  error : s.error = 0
  request : s.currentRequest.reqType = .NONE ∧ s.packet = none
  once : ∀ t, s.workTodo.wants t = false
  contractDetails : s.workTodo.contractDetailsTodo.countLeft ≤ 0
  optParams : s.workTodo.optParamsTodo.countLeft ≤ 0
  hist : s.workTodo.histTodo.leftRequests = [] ∧ s.workTodo.histTodo.checkedOutRequest = none
  orders : s.workTodo.placeOrderTodo.countLeft ≤ 0 ∧ ∀ id, id ∉ s.p_orders
  tickers : s.workTodo.mktDataTodo = []

/-- There is nothing to ask for only if nothing is wanted. -/
theorem WorkTodo.wants_of_none {w : WorkTodo} (h : w.nextReqType.2 = .NONE) (t : ReqType) :
    w.nextReqType.1 = w ∧ w.wants t = false := by
  have hw := w.nextReqType_wants t
  simp only [WorkTodo.nextReqType] at h ⊢
  split_ifs at h ⊢ with h1 h2 h3
  refine ⟨rfl, ?_⟩
  cases t <;> simp_all [WorkTodo.wants]

/-- **Only a turn that finds nothing left sets `quit`.** -/
theorem turn_quit {c : Connect} (hok : s.jobs.Ok) (hA : AskedOnce w s) (hq : s.quit = false)
    (h : s.turn c = .ok s') (hq' : s'.quit = true) :
    s'.currentRequest.reqType = .NONE ∧ (∀ t, s'.workTodo.wants t = false) ∧
      s'.workTodo.contractDetailsTodo.countLeft ≤ 0 ∧ s'.workTodo.optParamsTodo.countLeft ≤ 0 ∧
      s'.workTodo.placeOrderTodo.countLeft ≤ 0 ∧ (∀ id, id ∉ s'.p_orders) ∧
      w.mktDataTodo = [] := by
  have hfalse : ∀ {s₁ : TwsDL}, s₁.quit = true → s₁.quit = false → False := fun h h' =>
    Bool.noConfusion (h.symm.trans h')
  obtain ⟨s₁, i, hpath, rfl⟩ := turn_path h
  have waited : ∀ {s₂ : TwsDL}, ({ s with curIdleTime := -1 } : TwsDL).waitData = .ok s₂ →
      s₂.quit = false := fun hw =>
    (waitData_cases (s := { s with curIdleTime := -1 }) hok hw).frame.2.1.trans hq
  cases hpath with
  | connecting hst hw =>
      have hj := waitTwsCon_jobs (s := { s with curIdleTime := -1 }) (hok.waiting hst) hw
      obtain ⟨st, hj⟩ := hj
      exact (hfalse hq' ((congrArg Jobs.quit hj).trans hq)).elim
  | waiting _ hw _ =>
      have hq₁ := waited hw
      exact (hfalse hq' hq₁).elim
  | reconnecting _ hw _ _ _ hcon =>
      obtain ⟨st, hj⟩ := connectTws_jobs hcon
      exact (hfalse hq' ((congrArg Jobs.quit hj).trans (waited hw))).elim
  | @working s₂ _ hw hquit hn _ hwork =>
      simp only [work, Exec.bind_eq_ok] at hwork
      obtain ⟨s₃, h₃, s₄, h₄, hwork⟩ := hwork
      have hj₃ := startMktData_jobs h₃
      have hq₄ : s₄.quit = false := by
        have hq₃ : s₃.quit = false := (congrArg Jobs.quit hj₃).trans hquit
        by_cases ht : s₃.workTodo.nextReqType.2 = .NONE
        · have hj := (request_cases h₄).2 ht
          rw [nextReqType_jobs] at hj
          exact (congrArg Jobs.quit hj).trans hq₃
        · obtain ⟨r, i, c, o, H, g, rfl | ⟨-, p, out, rfl⟩⟩ := request_effect ht h₄
          · exact hq₃
          · exact hq₃
      have hdone := Except.ok.inj hwork
      unfold checkDone at hdone
      split at hdone
      · rename_i hd
        obtain ⟨ht, hf, hleft, hempty⟩ := hd
        rw [ht] at h₄
        have hj := (request_cases h₄).2 rfl
        rw [nextReqType_jobs] at hj
        obtain ⟨hcd, hop, -⟩ := WorkTodo.nextReqType_eq_none ht
        have hP := placeAllOrders_placed h₄
        have hf₄ : s₄.fuckme = s₃.fuckme :=
          hP.fuckme.trans (congrArg Orders.fuckme (nextReqType_orders s₃))
        have hstart : s₃.fuckme = w.mktDataTodo.length + 1 := ((hA.waited hw).started h₃).2
        rw [← hdone]
        have hwants : ∀ t, s₄.workTodo.wants t = false := fun t => by
          have hw₄ := congrFun (placeOrders_wants h₄) t
          obtain ⟨hsame, hfalse⟩ := WorkTodo.wants_of_none ht t
          rw [hw₄]
          dsimp only
          rw [hsame, hfalse]
        refine ⟨(congrArg (fun j => j.request.reqType) (hj.trans hj₃)).trans hn, hwants, ?_, ?_,
          hleft, fun id hid => ?_, ?_⟩
        · have hc : s₄.workTodo.contractDetailsTodo = s₃.workTodo.contractDetailsTodo :=
            congrArg Jobs.contractDetailsTodo hj
          rw [hc]
          exact hcd
        · have hc : s₄.workTodo.optParamsTodo = s₃.workTodo.optParamsTodo :=
            congrArg Jobs.optParamsTodo hj
          rw [hc]
          exact hop
        · have hno : s₄.p_orders.isEmpty = false := Std.TreeMap.isEmpty_eq_false_of_contains hid
          rw [hempty] at hno
          cases hno
        · refine List.eq_nil_of_length_eq_zero ?_
          omega
      · rw [← hdone] at hq'
        exact (hfalse hq' hq₄).elim

/-- **When the program quits, everything is done.** -/
theorem allDone_of_quit (h : Run Step (start cfg async jobs) evs s) (hq : s.quit = true) :
    AllDone s := by
  have hok := run_ok h
  have hI := run_histOk h
  have hA := run_askedOnce h
  have hlast : s.currentRequest.reqType = .NONE ∧ (∀ t, s.workTodo.wants t = false) ∧
      s.workTodo.contractDetailsTodo.countLeft ≤ 0 ∧ s.workTodo.optParamsTodo.countLeft ≤ 0 ∧
      s.workTodo.placeOrderTodo.countLeft ≤ 0 ∧ (∀ id, id ∉ s.p_orders) ∧
      (start cfg async jobs).workTodo.mktDataTodo = [] := by
    cases h with
    | nil => cases hq
    | @snoc _ s₁ _ e hr hs =>
        by_cases ht : ∃ c, e = .turn c
        · obtain ⟨c, rfl⟩ := ht
          exact turn_quit (run_ok hr) (run_askedOnce hr) hs.1 hs.2 hq
        · have hf := handle_fixed (fun c hc => ht ⟨c, hc⟩) hs.2
          have hq₁ : s.quit = s₁.quit := congrArg Fixed.quit hf
          rw [hs.1, hq] at hq₁
          cases hq₁
  obtain ⟨hn, hwants, hcd, hop, hleft, hlive, hm⟩ := hlast
  have hhist := hI.quit hq
  refine ⟨hI.error, ⟨hn, hok.packet_eq_none.2 hn⟩, hwants, hcd, hop, ⟨hhist.1, ?_⟩,
    ⟨hleft, hlive⟩, hA.mktData.trans hm⟩
  have hchecked : s.workTodo.histTodo.checkedOutRequest = none ↔
      s.currentRequest.reqType ≠ .HIST_REQUEST := hI.checkedOut
  rw [hchecked, hn]
  decide

/-- **What is wanted once is asked for once.** Account, executions and open
orders are asked for at most once, and not unless they are wanted; the
tickers are asked for all together, in the order of the work file, or not
at all. By the time the program quits all that is wanted was asked for. -/
theorem asked_once (h : Run Step (start cfg async jobs) evs s) :
    (∀ t, (s.out.filterMap Action.once).count t ≤ (wanted cfg jobs t).toNat) ∧
    (s.out.filter Action.isTicker = [] ∨
      s.out.filter Action.isTicker = tickerActions (jobs.filterMap Job.ticker)) ∧
    (s.quit = true → (∀ t, (s.out.filterMap Action.once).count t = (wanted cfg jobs t).toNat) ∧
      jobs.filterMap Job.ticker = []) := by
  have hA := run_askedOnce h
  have honce : ∀ t, (s.out.filterMap Action.once).count t + (s.workTodo.wants t).toNat =
      (wanted cfg jobs t).toNat := fun t => start_wants t ▸ hA.once t
  have hm : s.workTodo.mktDataTodo = jobs.filterMap Job.ticker :=
    start_mktDataTodo ▸ hA.mktData
  refine ⟨fun t => ?_, ?_, fun hq => ?_⟩
  · have := honce t
    omega
  · rw [← (start_mktDataTodo : (start cfg async jobs).workTodo.mktDataTodo = _)]
    exact hA.tickers.imp And.right And.right
  · have hdone := allDone_of_quit h hq
    refine ⟨fun t => ?_, hm ▸ hdone.tickers⟩
    rw [← honce t, hdone.once t]
    rfl

/-- The account is asked for, TWS answers, and the program quits. -/
def accountAnswered : List Event :=
  connects 40000 1 ++ [.turn {}, .accountDownloadEnd "", .turn {}]

theorem asked_once_account : ∃ s,
    Run Step (start { get_account := true } false []) accountAnswered s ∧ s.quit = true ∧
      (s.out.filterMap Action.once).count .ACC_STATUS_REQUEST = 1 := by
  have hplay : ((accountAnswered.foldlM next (start { get_account := true } false [])).map
      TwsDL.quit) = some true := by
    decide +kernel
  obtain ⟨s, hs, hq⟩ := Option.map_eq_some_iff.1 hplay
  have hrun := Run.of_foldlM (fun _ _ _ => step_of_next) hs
  exact ⟨s, hrun, hq, ((asked_once hrun).2.2 hq).1 _⟩

end TwsDL

end Twstools
