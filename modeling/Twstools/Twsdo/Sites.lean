import Twstools.Twsdo.Paths
/-!
# Where a turn can fail

Some assertions are about the answers of TWS. But for the one of
`closeError` they stand in the callbacks only: a turn of the event loop ends
at none of them, so where they fail is decided by what TWS sends.
-/

namespace Twstools

/-- The assertions about an answer of TWS: those that only its callbacks
make, and the one of `closeError`. -/
def Assertion.ofAnswer : Assertion → Bool
  | .learnHmdsLastOk | .historicalDataFinished | .closeErrorClosed
  | .contractDetailsSetFinished | .contractDetailsAppendReqId | .contractDetailsAppendMode
  | .histDataAppendMode | .histDataAppendReqId
  | .optParamsSetFinished | .optParamsAppendReqId | .optParamsAppendMode => true
  | _ => false

variable {site : Assertion}

open Exec Std

/-- Any other assertion is none of them. -/
theorem spares_other {p : Prop} {_ : Decidable p} (hs : site.ofAnswer = true)
    (x : Assertion) (hx : x.ofAnswer = false) : Spares (.assertion site) (ensure p x) := by
  refine spares_ensure ?_
  rintro rfl
  rw [hs] at hx
  exact absurd hx (by simp)

/-! ## Pacing -/

namespace PacingControl

variable {c other : PacingControl} {now : ℤ}

theorem goodTime_spares : Spares (.assertion site) (c.goodTime now) := by
  simp only [goodTime]
  split
  · exact spares_ok
  · split <;> simp

theorem countLeft_spares : Spares (.assertion site) (c.countLeft now) := by
  simp only [countLeft]
  split
  · simp
  · rw [spares_bind]
    refine ⟨spares_deref, fun violated _ => ?_⟩
    rw [Exec.pure_eq_ok, Exec.ok_bind]
    split <;> exact spares_ok

theorem mergeLoop_spares {td od : List ℤ} {tv ov : List Bool} :
    Spares (.assertion site) (mergeLoop td tv od ov) := by
  fun_induction mergeLoop td tv od ov with
  | case1 t td tv o od ov hlt ih => exact spares_bind.2 ⟨spares_deref, fun v _ => ih v⟩
  | case2 t td tv o od ov hle ih => simp [-Bool.forall_bool, ih]
  | case3 tv o od ov ih => simp [-Bool.forall_bool, ih]
  | case4 td tv ov => exact spares_ok

theorem merge_spares : Spares (.assertion site) (c.merge other) := by
  simpa [merge] using mergeLoop_spares

end PacingControl

namespace PacingGod

variable {g : PacingGod} {d : DataFarmStates} {c : Contract} {now : ℤ}

theorem checkAddOne_spares {lazyC : String} (hs : site.ofAnswer = true) :
    Spares (.assertion site) (checkAddOne d g lazyC) := by
  have filed : ∀ {p q : Prop} {_ : Decidable p} {_ : Decidable q} {x y : Assertion}
      {g' : PacingGod}, x.ofAnswer = false → y.ofAnswer = false →
      Spares (.assertion site) (do ensure p x; ensure q y; pure g') := fun hx hy =>
    spares_bind.2 ⟨spares_other hs _ hx, fun _ _ => spares_bind.2 ⟨spares_other hs _ hy,
      fun _ _ => spares_ok⟩⟩
  simp only [checkAddOne, Exec.pure_eq_ok, Exec.ok_bind]
  split
  · split
    · exact filed rfl rfl
    · exact filed rfl rfl
    · exact filed rfl rfl
    · exact spares_bind.2 ⟨PacingControl.merge_spares, fun hC _ => filed rfl rfl⟩
  · split
    · exact filed rfl rfl
    · exact spares_ok

theorem checkAdd_spares (hs : site.ofAnswer = true) :
    Spares (.assertion site) (g.checkAdd d c) := by
  simpa [checkAdd] using spares_foldlM (fun _ _ => checkAddOne_spares hs) _ _

theorem update_spares {x y : Assertion} {f : PacingControl → PacingControl}
    (hs : site.ofAnswer = true) (hx : x.ofAnswer = false) (hy : y.ofAnswer = false) :
    Spares (.assertion site) (update x y f g d c) := by
  simp only [update, spares_bind]
  refine ⟨checkAdd_spares hs, fun a _ => ?_⟩
  split
  · simp [spares_other hs _ hx]
  · simp [spares_other hs _ hy]

theorem consult_spares {x y : Assertion} {f : PacingControl → Exec Assertion ℤ}
    (hs : site.ofAnswer = true) (hx : x.ofAnswer = false) (hy : y.ofAnswer = false)
    (hf : ∀ pC, Spares (.assertion site) (f pC)) :
    Spares (.assertion site) (consult x y f g d c) := by
  simp only [consult, spares_bind]
  refine ⟨checkAdd_spares hs, fun a _ => ?_⟩
  split
  · simp [spares_other hs _ hx, hf]
  · simp [spares_other hs _ hy, hf]

end PacingGod

/-! ## The todo lists -/

namespace HistTodo

variable {h : HistTodo} {pG : PacingGod} {dfs : DataFarmStates} {now : ℤ}

theorem selectFarm_spares {cnt : TreeMap String ℤ} (hs : site.ofAnswer = true) :
    ∀ (l : List (String × HistJob)) {pG : PacingGod} {job : HistJob} {n : ℤ},
      Spares (.assertion site) (selectFarm dfs now cnt l pG job n)
  | [], _, _, _ => spares_ok
  | (farm, it) :: l, pG, job, n => by
      simp only [selectFarm, spares_bind]
      refine ⟨PacingGod.consult_spares hs rfl rfl fun _ => PacingControl.countLeft_spares,
        fun a _ => ?_⟩
      split
      · split
        · exact spares_ok
        · split <;> exact selectFarm_spares hs l
      · exact selectFarm_spares hs l

theorem current_spares (hs : site.ofAnswer = true) :
    Spares (.assertion site) h.current := by
  simp [current, spares_other hs .histCurrent rfl]

theorem checkoutOpt_spares (hs : site.ofAnswer = true) :
    Spares (.assertion site) (h.checkoutOpt pG dfs now) := by
  simp only [checkoutOpt, spares_bind]
  refine ⟨spares_other hs _ rfl, fun _ _ => ⟨spares_deref, fun first _ =>
    ⟨selectFarm_spares hs _, fun sel _ => ⟨spares_other hs _ rfl, fun _ _ =>
      ⟨PacingGod.consult_spares hs rfl rfl fun _ => PacingControl.goodTime_spares,
        fun a _ => ?_⟩⟩⟩⟩⟩
  split <;> exact spares_ok

end HistTodo

namespace IndexTodo

variable {α : Type} {t : IndexTodo α}

theorem checkout_spares (hs : site.ofAnswer = true) (x : Assertion)
    (hx : x.ofAnswer = false) : Spares (.assertion site) (t.checkout x) := by
  simp [checkout, spares_other hs x hx]

theorem repeat_spares (hs : site.ofAnswer = true) (x : Assertion)
    (hx : x.ofAnswer = false) : Spares (.assertion site) (t.repeat x) := by
  simp [«repeat», spares_other hs x hx]

theorem current_spares (hs : site.ofAnswer = true) (x : Assertion)
    (hx : x.ofAnswer = false) : Spares (.assertion site) (t.current x) := by
  simp [current, spares_other hs x hx]

end IndexTodo

/-! ## Finishing -/

namespace PacketBase

theorem closeError_spares {p : PacketBase} {e : ReqErr} (hc : site ≠ .closeErrorClosed) :
    Spares (.assertion site) (p.closeError e) := by
  unfold closeError
  split
  · simp [spares_ensure hc.symm]
  · exact spares_ok

/-- What records, or is closed already, can be closed. -/
theorem closeError_spares_of_recorded {p : PacketBase} {e : ReqErr} (hm : p.mode ≠ .CLEAN) :
    Spares (.assertion site) (p.closeError e) := by
  unfold closeError
  split
  · rename_i hr
    have hclosed : p.mode = .CLOSED := by
      cases h : p.mode with
      | CLEAN => exact absurd h hm
      | RECORD => exact absurd h hr
      | CLOSED => rfl
    rw [ensure_of_true hclosed]
    exact spares_ok
  · exact spares_ok

end PacketBase

/-- The assertion of `closeError` does not fail for the packets there are. -/
structure TwsDL.Closes (site : Assertion) (s : TwsDL) : Prop where
  packet : ∀ p, s.packet = some p → ∀ e, Spares (.assertion site) (p.base.closeError e)
  orders : ∀ (id : ℤ) p, s.p_orders[id]? = some p →
    ∀ e, Spares (.assertion site) (p.toPacketBase.closeError e)

namespace TwsDL

variable {s : TwsDL}

/-- The other assertions do not fail there at all. -/
theorem closes_of_ne (hc : site ≠ .closeErrorClosed) : s.Closes site :=
  ⟨fun _ _ _ => PacketBase.closeError_spares hc, fun _ _ _ _ => PacketBase.closeError_spares hc⟩

theorem closePacket_spares {e : ReqErr} (hc : s.Closes site) :
    Spares (.assertion site) (s.closePacket e) := by
  simp only [closePacket, Packet.closeError, spares_bind]
  refine ⟨spares_deref, fun p hp => ⟨⟨?_, fun b _ => spares_ok⟩, fun p' _ => spares_ok⟩⟩
  exact hc.packet p (Exec.deref_eq_ok.1 hp) e

theorem dumpPacket_spares : Spares (.assertion site) s.dumpPacket := by simp [dumpPacket]

theorem finAnswer_spares {again : Exec Assertion (TwsDL × Bool)}
    (ha : Spares (.assertion site) again) : Spares (.assertion site) (s.finAnswer again) := by
  rw [finAnswer, spares_bind]
  refine ⟨spares_deref, fun p _ => ?_⟩
  split
  · simp [dumpPacket_spares]
  · exact spares_ok
  · exact spares_ok
  · exact spares_ok
  · exact spares_ok
  · exact ha

theorem finContracts_spares (hs : site.ofAnswer = true) :
    Spares (.assertion site) s.finContracts := by
  rw [finContracts_eq]
  refine finAnswer_spares ?_
  simp [ContractDetailsTodo.repeat, IndexTodo.repeat_spares hs .contractDetailsRepeat rfl]

theorem finOptParams_spares (hs : site.ofAnswer = true) :
    Spares (.assertion site) s.finOptParams := by
  rw [finOptParams_eq]
  refine finAnswer_spares ?_
  simp [OptParamsTodo.repeat, IndexTodo.repeat_spares hs .optParamsRepeat rfl]

theorem finHist_spares (hs : site.ofAnswer = true) : Spares (.assertion site) s.finHist := by
  have done : ∀ h : HistTodo, Spares (.assertion site) h.tellDone := fun h => by
    simp [HistTodo.tellDone, spares_other hs .histTellDone rfl]
  have again : ∀ (h : HistTodo) (n : ℤ), Spares (.assertion site) (h.cancelForRepeat n) := by
    intro h n
    simp only [HistTodo.cancelForRepeat, spares_bind]
    refine ⟨spares_other hs _ rfl, fun _ _ => ⟨spares_deref, fun hR _ => ?_⟩⟩
    split
    · exact spares_ok
    · split <;> exact spares_ok
  rw [finHist, spares_bind]
  refine ⟨spares_deref, fun p _ => ?_⟩
  split
  · simp [dumpPacket_spares, done]
  · simp [done]
  · simp [done]
  all_goals simp [again]

theorem finRequest_spares (hs : site.ofAnswer = true) :
    Spares (.assertion site) s.finRequest := by
  unfold finRequest
  split
  · exact finOptParams_spares hs
  · exact finContracts_spares hs
  · exact finHist_spares hs
  case h_7 => simp [spares_other hs .waitDataNone rfl]
  all_goals simp [dumpPacket_spares]

theorem finPacket_spares (hs : site.ofAnswer = true) :
    Spares (.assertion site) s.finPacket := by
  simp [finPacket, finRequest_spares hs]

theorem waitPacket_spares (hs : site.ofAnswer = true) (hc : site ≠ .closeErrorClosed) :
    Spares (.assertion site) s.waitPacket := by
  unfold waitPacket
  split
  · exact spares_ok
  split
  · exact spares_ok
  split
  · exact finPacket_spares hs
  split
  · exact spares_ok
  · exact spares_bind.2 ⟨closePacket_spares (closes_of_ne hc), fun s' _ => finPacket_spares hs⟩

theorem finOrder_spares {orderId : ℤ} {p : PacketPlaceOrder} (hs : site.ofAnswer = true)
    (hc : site ≠ .closeErrorClosed) :
    Spares (.assertion site) (s.finOrder orderId p) := by
  simp only [finOrder, spares_bind]
  refine ⟨spares_deref, fun r _ => ⟨spares_other hs _ rfl, fun _ _ => ?_⟩⟩
  split
  · rw [spares_bind]
    constructor
    · split
      · exact spares_ok
      · simp [PacketPlaceOrder.closeError, PacketBase.closeError_spares hc]
    · intro p' _
      split
      all_goals simp [spares_other hs .finPlaceOrderOld rfl]
  · exact spares_ok

theorem finOrders_spares (hs : site.ofAnswer = true) (hc : site ≠ .closeErrorClosed) :
    ∀ (l : List (ℤ × PacketPlaceOrder)) {s : TwsDL} {ok : Bool},
      Spares (.assertion site) (finOrders l (s, ok))
  | [], _, _ => spares_ok
  | _ :: l, _, _ =>
      spares_bind.2 ⟨finOrder_spares hs hc, fun _ _ => finOrders_spares hs hc l⟩

theorem waitData_spares (hs : site.ofAnswer = true) (hc : site ≠ .closeErrorClosed) :
    Spares (.assertion site) s.waitData :=
  spares_bind.2 ⟨finOrders_spares hs hc _, fun _ _ => waitPacket_spares hs hc⟩

/-! ## Making requests -/

theorem nextRequest_spares {t : ReqType} : Spares (.assertion site) (s.nextRequest t) := by
  rw [nextRequest, spares_bind]
  refine ⟨?_, fun _ _ => spares_ok⟩
  unfold GenericRequest.nextRequest
  split <;> simp

theorem placeOrder_spares (hs : site.ofAnswer = true) :
    Spares (.assertion site) s.placeOrder := by
  have record : ∀ (p : PacketPlaceOrder) (now id : ℤ) (r : PlaceOrder),
      Spares (.assertion site) (p.record now id r) := fun p now id r => by
    simp [PacketPlaceOrder.record, spares_other hs .placeOrderRecord rfl]
  have modify : ∀ (p : PacketPlaceOrder) (now : ℤ) (r : PlaceOrder),
      Spares (.assertion site) (p.modify now r) := fun p now r => by
    simp [PacketPlaceOrder.modify, spares_other hs .placeOrderModifyMode rfl,
      spares_other hs .placeOrderModifyId rfl]
  simp only [placeOrder, spares_bind]
  refine ⟨IndexTodo.checkout_spares hs _ rfl, fun todo _ => ⟨IndexTodo.current_spares hs _ rfl,
    fun pO _ => ⟨?_, fun sid _ => ⟨?_, fun _ _ => spares_ok⟩⟩⟩⟩
  · unfold orderIdOf fetchIncOrderId
    split
    · split <;> simp
    · exact spares_ok
  · rw [recordOrder, spares_bind]
    refine ⟨?_, fun _ _ => spares_ok⟩
    split
    · exact record _ _ _ _
    · exact modify _ _ _

theorem placeOrders_spares (hs : site.ofAnswer = true) : ∀ (k : ℕ) {s : TwsDL},
    Spares (.assertion site) (placeOrders k s)
  | 0, _ => spares_ok
  | k + 1, s => by
      simp only [placeOrders]
      split
      · split
        · exact spares_bind.2 ⟨placeOrder_spares hs, fun _ _ => placeOrders_spares hs k⟩
        · exact spares_ok
      · exact spares_ok

theorem reqContractDetails_spares (hs : site.ofAnswer = true) :
    Spares (.assertion site) s.reqContractDetails := by
  simp only [reqContractDetails]
  split
  · simp [ContractDetailsTodo.checkout, ContractDetailsTodo.current,
      IndexTodo.checkout_spares hs .contractDetailsCheckout rfl,
      IndexTodo.current_spares hs .contractDetailsCurrent rfl, nextRequest_spares,
      PacketContractDetails.record, spares_other hs .contractDetailsRecord rfl]
  · exact spares_ok

theorem reqOptParams_spares (hs : site.ofAnswer = true) :
    Spares (.assertion site) s.reqOptParams := by
  simp only [reqOptParams]
  split
  · simp [OptParamsTodo.checkout, OptParamsTodo.current,
      IndexTodo.checkout_spares hs .optParamsCheckout rfl,
      IndexTodo.current_spares hs .optParamsCurrent rfl, nextRequest_spares,
      PacketOptParams.record, spares_other hs .optParamsRecord rfl]
  · exact spares_ok

theorem reqHistoricalData_spares (hs : site.ofAnswer = true) :
    Spares (.assertion site) s.reqHistoricalData := by
  simp only [reqHistoricalData, spares_bind]
  refine ⟨spares_other hs _ rfl, fun _ _ => ⟨HistTodo.checkoutOpt_spares hs, fun _ _ => ?_⟩⟩
  split
  · exact spares_ok
  · have add : ∀ (g : PacingGod) (d : DataFarmStates) (now : ℤ) (c : Contract),
        Spares (.assertion site) (g.addRequest d now c) := fun g d now c =>
      PacingGod.update_spares hs rfl rfl
    simp [nextRequest_spares, HistTodo.current_spares hs, add, PacketHistData.record,
      spares_other hs .histDataRecord rfl]

theorem request_spares {t : ReqType} (hs : site.ofAnswer = true) :
    Spares (.assertion site) (s.request t) := by
  cases t with
  | NONE => exact placeOrders_spares hs _
  | CONTRACT_DETAILS_REQUEST => exact reqContractDetails_spares hs
  | HIST_REQUEST => exact reqHistoricalData_spares hs
  | OPT_PARAMS_REQUEST => exact reqOptParams_spares hs
  | ACC_STATUS_REQUEST =>
      simp [request, reqAccStatus, nextRequest_spares, PacketAccStatus.record,
        spares_other hs .accStatusRecord rfl]
  | EXECUTIONS_REQUEST =>
      simp [request, reqExecutions, nextRequest_spares, PacketExecutions.record,
        spares_other hs .executionsRecord rfl]
  | ORDERS_REQUEST =>
      simp [request, reqOrders, nextRequest_spares, PacketOrders.record,
        spares_other hs .ordersRecord rfl]

theorem work_spares (hs : site.ofAnswer = true) : Spares (.assertion site) s.work := by
  simp only [work, spares_bind]
  refine ⟨?_, fun _ _ => ⟨request_spares hs, fun _ _ => spares_ok⟩⟩
  unfold startMktData
  split
  · simp [reqMktData, spares_other hs .reqMktDataQuotes rfl]
  · exact spares_ok

/-! ## The connection -/

theorem changeState_spares {t : State} (hs : site.ofAnswer = true) :
    Spares (.assertion site) (s.changeState t) := by
  simp [changeState, spares_other hs .changeState rfl]

theorem twsConnectionClosed_spares (hs : site.ofAnswer = true) (hc : s.Closes site) :
    Spares (.assertion site) s.twsConnectionClosed := by
  simp only [twsConnectionClosed, spares_bind]
  refine ⟨?_, fun _ _ => ⟨spares_other hs _ rfl, fun _ _ => spares_ok⟩⟩
  unfold closeRequest
  split
  · exact spares_ok
  all_goals
    rw [spares_bind]
    refine ⟨spares_deref, fun p _ => ?_⟩
  case h_5 | h_6 | h_7 => simp [spares_other hs .connectionClosedRequest rfl]
  all_goals
    split
    · exact spares_ok
    · exact closePacket_spares hc

/-- Not connected, TWS reports failures to connect only. -/
theorem twsError_spares_of_not_connected {err : RowError} (hs : site.ofAnswer = true)
    (hc : s.connected = false) : Spares (.assertion site) (s.twsError err) := by
  simp [twsError, hc, spares_other hs .twsErrorNotConnected rfl]

theorem connectTws_spares {c : Connect} (hs : site.ofAnswer = true) :
    Spares (.assertion site) (s.connectTws c) := by
  have errors : ∀ (l : List RowError) {s : TwsDL}, s.connected = false →
      Spares (.assertion site) (l.foldlM twsError s) := by
    intro l
    induction l with
    | nil => exact fun _ => spares_ok
    | cons err l ih =>
        intro s hc
        rw [List.foldlM_cons, spares_bind]
        refine ⟨twsError_spares_of_not_connected hs hc, fun s' h => ih ?_⟩
        obtain rfl := twsError_of_not_connected hc h
        exact hc
  simp only [connectTws]
  rw [spares_bind]
  refine ⟨spares_other hs _ rfl, fun _ hcon => ?_⟩
  have hdis := (Exec.ensure_eq_ok.1 hcon).1
  split
  · exact spares_ok
  · rw [spares_bind]
    refine ⟨changeState_spares hs, fun s₁ h₁ => ?_⟩
    have hc₁ : s₁.connected = false := by
      rw [eq_of_changeState h₁]
      exact hdis
    rw [spares_bind]
    refine ⟨errors _ hc₁, fun s₂ _ => ?_⟩
    rw [spares_bind]
    refine ⟨spares_other hs _ rfl, fun _ _ => ?_⟩
    split
    · exact changeState_spares hs
    · split <;> exact spares_ok

theorem waitTwsCon_spares (hs : site.ofAnswer = true) (hc : site ≠ .closeErrorClosed) :
    Spares (.assertion site) s.waitTwsCon := by
  simp only [waitTwsCon]
  split
  · split
    · exact changeState_spares hs
    split
    · exact spares_ok
    · unfold disconnectTWS
      split
      · exact twsConnectionClosed_spares hs (closes_of_ne hc)
      · exact spares_ok
  · exact changeState_spares hs

/-- **A turn fails at none of the assertions of the callbacks.** -/
theorem turn_spares {c : Connect} (hs : site.ofAnswer = true) (hc : site ≠ .closeErrorClosed) :
    Spares (.assertion site) (s.turn c) := by
  rw [turn, spares_bind]
  refine ⟨?_, fun _ _ => ?_⟩
  · split
    · exact waitTwsCon_spares hs hc
    · rw [idle, spares_bind]
      refine ⟨waitData_spares hs hc, fun s₁ _ => ?_⟩
      split
      · exact spares_ok
      split
      · exact connectTws_spares hs
      · exact work_spares hs
  · exact spares_ok

end TwsDL

/-- The rows, the end marks and the errors. -/
def Event.answers : Event → Bool
  | .error _ | .contractDetails .. | .bondContractDetails .. | .contractDetailsEnd _
  | .historicalData .. | .optParams .. | .optParamsEnd _ => true
  | _ => false

namespace TwsDL

variable {s : TwsDL}

/-! ## The callbacks -/

theorem errorContracts_spares {err : RowError} (hc : s.Closes site) :
    Spares (.assertion site) (s.errorContracts err) := by
  unfold errorContracts
  split
  · exact closePacket_spares hc
  split
  · exact closePacket_spares hc
  · exact spares_ok

theorem removeLastRequest_spares {c : Contract} (hs : site.ofAnswer = true) :
    Spares (.assertion site) (s.removeLastRequest c) :=
  spares_bind.2 ⟨PacingGod.update_spares hs rfl rfl, fun _ _ => spares_ok⟩

theorem errorHistService_spares {err : RowError} {hR : HistRequest}
    (hs : site.ofAnswer = true) (hc : s.Closes site) :
    Spares (.assertion site) (s.errorHistService err hR) := by
  have hl : (s.learnHmds hR.ibContract).Closes site := ⟨hc.packet, hc.orders⟩
  simp only [errorHistService]
  split
  · exact spares_bind.2 ⟨closePacket_spares hc, fun s' _ =>
      spares_bind.2 ⟨PacingGod.update_spares hs rfl rfl, fun _ _ => spares_ok⟩⟩
  split
  · exact closePacket_spares hl
  split
  · exact closePacket_spares hl
  split
  · exact spares_bind.2 ⟨closePacket_spares hc, fun s' _ => removeLastRequest_spares hs⟩
  split
  · exact spares_bind.2 ⟨closePacket_spares hl, fun s' _ => removeLastRequest_spares hs⟩
  split
  · exact closePacket_spares hl
  · exact spares_ok

theorem errorHistServer_spares {err : RowError} {c : Contract} (hl : site ≠ .learnHmdsLastOk) :
    Spares (.assertion site) (s.errorHistServer err c) := by
  have last : Spares (.assertion site) (s.dataFarms.learnHmdsLastOk s.msgCounter c) := by
    simp only [DataFarmStates.learnHmdsLastOk]
    split
    · exact spares_ok
    split
    · split
      · exact spares_bind.2 ⟨spares_ensure hl.symm, fun _ _ => spares_ok⟩
      · exact spares_ok
    · exact spares_ok
  unfold errorHistServer
  split
  · exact spares_ok
  split
  · exact spares_bind.2 ⟨last, fun _ _ => spares_ok⟩
  · exact spares_ok

theorem errorPlaceOrder_spares {err : RowError} (hs : site.ofAnswer = true)
    (hc : s.Closes site) :
    Spares (.assertion site) (s.errorPlaceOrder err) := by
  unfold errorPlaceOrder
  split
  · rename_i _ _ p hp
    rw [spares_bind]
    refine ⟨spares_other hs _ rfl, fun _ _ => ?_⟩
    rw [spares_bind]
    refine ⟨?_, fun _ _ => spares_ok⟩
    split
    · exact spares_ok
    · exact spares_bind.2 ⟨hc.orders _ p hp _, fun _ _ => spares_ok⟩
  · simp [spares_other hs .errorPlaceOrderLive rfl]
  · exact spares_ok

theorem notify_spares {d : DataFarmStates} {n code : ℤ} {msg : String}
    (hs : site.ofAnswer = true) : Spares (.assertion site) (d.notify n code msg) := by
  have farm : ∀ pre : String, Spares (.assertion site) (DataFarmStates.getFarm pre msg) :=
    fun pre => by simp [DataFarmStates.getFarm, spares_other hs .getFarmPrefix rfl]
  simp only [DataFarmStates.notify]
  split_ifs
  all_goals first
    | exact spares_bind.2 ⟨farm _, fun _ _ => spares_ok⟩
    | exact spares_bind.2 ⟨spares_other hs _ rfl, fun _ _ => spares_ok⟩

theorem errorGeneric_spares {err : RowError} (hs : site.ofAnswer = true)
    (hc : s.Closes site) :
    Spares (.assertion site) (s.errorGeneric err) := by
  have msg : ∀ (p : Prop) {_ : Decidable p}, Spares (.assertion site)
      (ensure p .twsErrorMessage) := fun p _ => spares_other hs _ rfl
  unfold errorGeneric
  split
  · simp [msg]
  split
  · rw [spares_bind]
    refine ⟨msg _, fun _ _ => ?_⟩
    rw [spares_bind]
    refine ⟨msg _, fun _ _ => ?_⟩
    dsimp only
    split
    · exact closePacket_spares ⟨hc.packet, hc.orders⟩
    · exact spares_ok
  split
  · simp [msg]
  split
  · exact spares_bind.2 ⟨notify_spares hs, fun _ _ => spares_ok⟩
  split
  · simp [msg]
  · exact spares_ok

theorem asContractDetails_spares {o : Option Packet} :
    Spares (.assertion site) (Packet.asContractDetails o) := by
  unfold Packet.asContractDetails
  split <;> simp

theorem asHistData_spares {o : Option Packet} :
    Spares (.assertion site) (Packet.asHistData o) := by
  unfold Packet.asHistData
  split <;> simp

theorem asOptParams_spares {o : Option Packet} :
    Spares (.assertion site) (Packet.asOptParams o) := by
  unfold Packet.asOptParams
  split <;> simp

theorem asOrders_spares {o : Option Packet} : Spares (.assertion site) (Packet.asOrders o) := by
  unfold Packet.asOrders
  split <;> simp

theorem onOrders_spares {row : TwsRow} {f : Exec Assertion TwsDL}
    (hf : Spares (.assertion site) f) : Spares (.assertion site) (s.onOrders row f) := by
  unfold onOrders
  split
  · exact spares_bind.2 ⟨asOrders_spares, fun _ _ => spares_ok⟩
  · exact hf

theorem onOrder_spares {x y : Assertion} {n : ℤ}
    {f : PacketPlaceOrder → Exec Assertion PacketPlaceOrder} (hs : site.ofAnswer = true)
    (hx : x.ofAnswer = false) (hy : y.ofAnswer = false)
    (hf : ∀ p, Spares (.assertion site) (f p)) :
    Spares (.assertion site) (s.onOrder x y n f) := by
  unfold onOrder
  split
  · exact spares_bind.2 ⟨spares_other hs _ hx, fun _ _ =>
      spares_bind.2 ⟨hf _, fun _ _ => spares_ok⟩⟩
  · exact spares_bind.2 ⟨spares_other hs _ hy, fun _ _ =>
      spares_bind.2 ⟨hf _, fun _ _ => spares_ok⟩⟩
  · exact spares_ok

theorem onAccStatus_spares {f : PacketAccStatus → PacketAccStatus} :
    Spares (.assertion site) (s.onAccStatus f) := by
  unfold onAccStatus
  split
  · exact spares_ok
  · refine spares_bind.2 ⟨?_, fun _ _ => spares_ok⟩
    unfold Packet.asAccStatus
    split <;> simp

theorem onExecutions_spares {f : PacketExecutions → PacketExecutions} :
    Spares (.assertion site) (s.onExecutions f) := by
  unfold onExecutions
  split
  · exact spares_ok
  · refine spares_bind.2 ⟨?_, fun _ _ => spares_ok⟩
    unfold Packet.asExecutions
    split <;> simp

theorem twsOpenOrderEnd_spares : Spares (.assertion site) s.twsOpenOrderEnd := by
  unfold twsOpenOrderEnd
  split
  · exact spares_ok
  · exact spares_bind.2 ⟨asOrders_spares, fun _ _ => spares_ok⟩

theorem twsTickPrice_spares {n : ℤ} (hs : site.ofAnswer = true) :
    Spares (.assertion site) (s.twsTickPrice n) := by
  simp [twsTickPrice, -Bool.forall_bool, spares_other hs .tickReqId rfl]

/-- **Only what answers a request** can fail at an assertion about it, but
for a turn, which may fail in `closeError`. -/
theorem handle_spares {e : Event} (hs : site.ofAnswer = true) (ha : e.answers = false)
    (hc : s.Closes site) (ht : site = .closeErrorClosed → ∀ c, e ≠ .turn c) :
    Spares (.assertion site) (s.handle e) := by
  cases e with
  | clock now => exact spares_ok
  | turn c => exact turn_spares hs fun h => ht h c rfl
  | connectAck =>
      simp only [handle, twsConnectAck]
      split <;> exact spares_ok
  | connectionClosed => exact twsConnectionClosed_spares hs ⟨hc.packet, hc.orders⟩
  | error | contractDetails | bondContractDetails | contractDetailsEnd | historicalData
  | optParams | optParamsEnd => exact absurd ha (by simp [Event.answers])
  | updateAccountValue row => exact onAccStatus_spares
  | updatePortfolio row =>
      exact spares_bind.2 ⟨spares_other hs .updatePortfolioConId rfl, fun _ _ => onAccStatus_spares⟩
  | updateAccountTime timeStamp => exact onAccStatus_spares
  | accountDownloadEnd accountName => exact onAccStatus_spares
  | execDetails n row => exact onExecutions_spares
  | execDetailsEnd n => exact onExecutions_spares
  | orderStatus row =>
      exact spares_bind.2 ⟨spares_other hs .updateOsPermId rfl, fun _ _ =>
        onOrders_spares (onOrder_spares hs rfl rfl fun p => spares_ok)⟩
  | openOrder row =>
      refine spares_bind.2 ⟨spares_other hs .updateOoPermId rfl, fun _ _ =>
        onOrders_spares (onOrder_spares hs rfl rfl fun p => ?_)⟩
      simp [PacketPlaceOrder.appendOpenOrder]
  | openOrderEnd => exact twsOpenOrderEnd_spares
  | currentTime time => exact spares_ok
  | nextValidId orderId =>
      simp only [handle, nextValidId]
      split <;> exact spares_ok
  | tickPrice n => exact twsTickPrice_spares hs
  | tickSize n => exact twsTickPrice_spares hs
  | tick n => simp [handle, twsTick]

theorem expect_spares {t : ReqType} {n : ℤ} {f : Exec Assertion TwsDL}
    (hf : Spares (.assertion site) f) : Spares (.assertion site) (s.expect t n f) := by
  unfold expect
  split
  · exact spares_ok
  split
  · exact spares_ok
  · exact hf

/-! ### Rows and end marks, with the assertions each of them makes -/

theorem twsContractDetails_spares {n : ℤ} {cd : ContractDetails}
    (h₁ : site ≠ .contractDetailsAppendReqId) (h₂ : site ≠ .contractDetailsAppendMode) :
    Spares (.assertion site) (s.twsContractDetails n cd) := by
  refine expect_spares (spares_bind.2 ⟨asContractDetails_spares, fun p _ => ?_⟩)
  simp [PacketContractDetails.append, spares_ensure h₁.symm, spares_ensure h₂.symm]

theorem twsContractDetailsEnd_spares {n : ℤ} (h : site ≠ .contractDetailsSetFinished) :
    Spares (.assertion site) (s.twsContractDetailsEnd n) := by
  refine expect_spares (spares_bind.2 ⟨asContractDetails_spares, fun p _ => ?_⟩)
  simp [PacketContractDetails.setFinished, spares_ensure h.symm]

theorem twsHistoricalData_spares {n : ℤ} {row : RowHist} (hs : site.ofAnswer = true)
    (h₁ : site ≠ .historicalDataFinished) (h₂ : site ≠ .histDataAppendMode)
    (h₃ : site ≠ .histDataAppendReqId) :
    Spares (.assertion site) (s.twsHistoricalData n row) := by
  have append : ∀ p : PacketHistData, Spares (.assertion site) (p.append n row) := fun p => by
    simp only [PacketHistData.append, spares_bind]
    refine ⟨spares_ensure h₂.symm, fun _ _ => ⟨spares_ensure h₃.symm, fun _ _ => ?_⟩⟩
    split <;> exact spares_ok
  refine expect_spares (spares_bind.2 ⟨HistTodo.current_spares hs, fun hR _ => ?_⟩)
  simp [asHistData_spares, spares_ensure h₁.symm, append]

theorem twsOptParams_spares {n : ℤ} {r : RowOptParams}
    (h₁ : site ≠ .optParamsAppendReqId) (h₂ : site ≠ .optParamsAppendMode) :
    Spares (.assertion site) (s.twsOptParams n r) := by
  refine expect_spares (spares_bind.2 ⟨asOptParams_spares, fun p _ => ?_⟩)
  simp [PacketOptParams.append, spares_ensure h₁.symm, spares_ensure h₂.symm]

theorem twsOptParamsEnd_spares {n : ℤ} (h : site ≠ .optParamsSetFinished) :
    Spares (.assertion site) (s.twsOptParamsEnd n) := by
  refine expect_spares (spares_bind.2 ⟨asOptParams_spares, fun p _ => ?_⟩)
  simp [PacketOptParams.setFinished, spares_ensure h.symm]

end TwsDL

end Twstools
