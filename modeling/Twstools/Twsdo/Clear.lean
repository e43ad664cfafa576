import Twstools.Twsdo.Packet
/-!
# Packets that are used again

`clear` makes a packet ready for the next request. Each of the eight
classes has its own, written separately from the others: three of them
reset the error of the base class and five do not. `clear_asGoodAsNew_iff`
says for which packets that shows.
-/

namespace Twstools

/-- A class of packets: a new packet, what a call makes of a packet, and
what is to be seen of it. -/
structure PacketClass where
  {Obj Call Row : Type}
  new : Obj
  call : Obj → Call → Exec Assertion Obj
  clear : Obj → Exec Assertion Obj
  base : Obj → PacketBase
  rows : Obj → List Row

namespace PacketClass

variable {C : PacketClass}

/-- The calls of a history, one after the other. -/
def calls (C : PacketClass) (p : C.Obj) (history : List C.Call) : Exec Assertion C.Obj :=
  history.foldlM C.call p

/-- What is seen of a packet: its mode, `getError` and its rows. -/
def seen (C : PacketClass) (p : C.Obj) : Mode × ReqErr × List C.Row :=
  ((C.base p).mode, (C.base p).getError, C.rows p)

/-- Every history of calls comes to the same as with a new packet, be it
the end of the program. -/
def AsGoodAsNew (C : PacketClass) (p : C.Obj) : Prop :=
  ∀ history : List C.Call, (C.calls p history).map C.seen = (C.calls C.new history).map C.seen

theorem asGoodAsNew_new : C.AsGoodAsNew C.new := fun _ => rfl

/-- A packet as good as new is seen to be. -/
theorem AsGoodAsNew.seen_eq {p : C.Obj} (h : C.AsGoodAsNew p) : C.seen p = C.seen C.new :=
  Except.ok.inj (h [])

/-- Where calls depend on what is seen only, that is enough. -/
theorem asGoodAsNew_of_seen {p : C.Obj}
    (hcall : ∀ (a : C.Call) (p q : C.Obj), C.seen p = C.seen q →
      (C.call p a).map C.seen = (C.call q a).map C.seen)
    (h : C.seen p = C.seen C.new) : C.AsGoodAsNew p :=
  fun history => Exec.foldlM_map_eq hcall history p C.new h

end PacketClass

/-! ## The calls of each class -/

/-- The calls of a `PacketContractDetails`. -/
inductive ContractDetailsCall where
  | record (reqId : ℤ) (cdr : ContractDetailsRequest)
  | append (reqId : ℤ) (c : ContractDetails)
  | setFinished
  | closeError (e : ReqErr)
  | clear

def PacketContractDetails.call (p : PacketContractDetails) :
    ContractDetailsCall → Exec Assertion PacketContractDetails
  | .record reqId cdr => p.record reqId cdr
  | .append reqId c => p.append reqId c
  | .setFinished => p.setFinished
  | .closeError e => do
      let b ← p.toPacketBase.closeError e
      pure { p with toPacketBase := b }
  | .clear => pure p.clear

/-- The calls of a `PacketHistData`. -/
inductive HistDataCall where
  | record (reqId : ℤ) (hR : HistRequest)
  | append (reqId : ℤ) (row : RowHist)
  | closeError (e : ReqErr)
  | clear

def PacketHistData.call (p : PacketHistData) : HistDataCall → Exec Assertion PacketHistData
  | .record reqId hR => p.record reqId hR
  | .append reqId row => p.append reqId row
  | .closeError e => do
      let b ← p.toPacketBase.closeError e
      pure { p with toPacketBase := b }
  | .clear => pure p.clear

/-- The calls of a `PacketPlaceOrder`. -/
inductive PlaceOrderCall where
  | record (now orderId : ℤ) (oP : PlaceOrder)
  | modify (now : ℤ) (oP : PlaceOrder)
  | appendError (err : RowError)
  | appendOrderStatus (row : RowOrderStatus)
  | appendOpenOrder (row : RowOpenOrder)
  | closeError (e : ReqErr)
  | clear

def PacketPlaceOrder.call (p : PacketPlaceOrder) : PlaceOrderCall → Exec Assertion PacketPlaceOrder
  | .record now orderId oP => p.record now orderId oP
  | .modify now oP => p.modify now oP
  | .appendError err => pure (p.appendError err)
  | .appendOrderStatus row => pure (p.appendOrderStatus row)
  | .appendOpenOrder row => p.appendOpenOrder row
  | .closeError e => p.closeError e
  | .clear => pure p.clear

/-- The calls of a `PacketAccStatus`. -/
inductive AccStatusCall where
  | record (aR : AccStatusRequest)
  | append (row : RowAcc)
  | appendAccountDownloadEnd (accountName : String)
  | closeError (e : ReqErr)
  | clear

def PacketAccStatus.call (p : PacketAccStatus) : AccStatusCall → Exec Assertion PacketAccStatus
  | .record aR => p.record aR
  | .append row => pure (p.append row)
  | .appendAccountDownloadEnd accountName => pure (p.appendAccountDownloadEnd accountName)
  | .closeError e => do
      let b ← p.toPacketBase.closeError e
      pure { p with toPacketBase := b }
  | .clear => p.clear

/-- The calls of a `PacketExecutions`. -/
inductive ExecutionsCall where
  | record (reqId : ℤ)
  | append (reqId : ℤ) (row : RowExecution)
  | appendExecutionsEnd (reqId : ℤ)
  | closeError (e : ReqErr)
  | clear

def PacketExecutions.call (p : PacketExecutions) : ExecutionsCall → Exec Assertion PacketExecutions
  | .record reqId => p.record reqId
  | .append reqId row => pure (p.append reqId row)
  | .appendExecutionsEnd reqId => pure (p.appendExecutionsEnd reqId)
  | .closeError e => do
      let b ← p.toPacketBase.closeError e
      pure { p with toPacketBase := b }
  | .clear => p.clear

/-- The calls of a `PacketOrders`. -/
inductive OrdersCall where
  | record
  | append (row : TwsRow)
  | appendOpenOrderEnd
  | closeError (e : ReqErr)
  | clear

def PacketOrders.call (p : PacketOrders) : OrdersCall → Exec Assertion PacketOrders
  | .record => p.record
  | .append row => pure (p.append row)
  | .appendOpenOrderEnd => pure p.appendOpenOrderEnd
  | .closeError e => do
      let b ← p.toPacketBase.closeError e
      pure { p with toPacketBase := b }
  | .clear => p.clear

/-- The calls of a `PacketMktData`. -/
inductive MktDataCall where
  | record (reqId : ℤ) (mR : MktDataRequest)
  | closeError (e : ReqErr)
  | clear

def PacketMktData.call (p : PacketMktData) : MktDataCall → Exec Assertion PacketMktData
  | .record reqId mR => p.record reqId mR
  | .closeError e => do
      let b ← p.toPacketBase.closeError e
      pure { p with toPacketBase := b }
  | .clear => pure p.clear

/-- The calls of a `PacketOptParams`. -/
inductive OptParamsCall where
  | record (reqId : ℤ) (opR : OptParamsRequest)
  | append (reqId : ℤ) (r : RowOptParams)
  | setFinished
  | closeError (e : ReqErr)
  | clear

def PacketOptParams.call (p : PacketOptParams) : OptParamsCall → Exec Assertion PacketOptParams
  | .record reqId opR => p.record reqId opR
  | .append reqId r => p.append reqId r
  | .setFinished => p.setFinished
  | .closeError e => do
      let b ← p.toPacketBase.closeError e
      pure { p with toPacketBase := b }
  | .clear => pure p.clear

/-! ## The eight classes -/

/-- The packet classes of `tws_meta.h`. -/
inductive PacketKind where
  | contractDetails
  | histData
  | placeOrder
  | accStatus
  | executions
  | orders
  | mktData
  | optParams
  deriving DecidableEq, Repr

namespace PacketKind

/-- The class of a kind. -/
def cls : PacketKind → PacketClass
  | contractDetails =>
      { new := ({} : PacketContractDetails), call := PacketContractDetails.call
        clear := fun p => pure p.clear, base := (·.toPacketBase), rows := (·.cdList) }
  | histData =>
      { new := ({} : PacketHistData), call := PacketHistData.call
        clear := fun p => pure p.clear, base := (·.toPacketBase), rows := (·.rows) }
  | placeOrder =>
      { new := ({} : PacketPlaceOrder), call := PacketPlaceOrder.call
        clear := fun p => pure p.clear, base := (·.toPacketBase), rows := (·.list) }
  | accStatus =>
      { new := ({} : PacketAccStatus), call := PacketAccStatus.call
        clear := (·.clear), base := (·.toPacketBase), rows := (·.list) }
  | executions =>
      { new := ({} : PacketExecutions), call := PacketExecutions.call
        clear := (·.clear), base := (·.toPacketBase), rows := (·.list) }
  | orders =>
      { new := ({} : PacketOrders), call := PacketOrders.call
        clear := (·.clear), base := (·.toPacketBase), rows := (·.list) }
  | mktData =>
      { new := ({} : PacketMktData), call := PacketMktData.call
        clear := fun p => pure p.clear, base := (·.toPacketBase)
        rows := fun _ => ([] : List Empty) }
  | optParams =>
      { new := ({} : PacketOptParams), call := PacketOptParams.call
        clear := fun p => pure p.clear, base := (·.toPacketBase), rows := (·.opList) }

/-- The classes whose `clear` resets the error. -/
def resetsError : PacketKind → Bool
  | histData | placeOrder | mktData => true
  | contractDetails | accStatus | executions | orders | optParams => false

/-- A call on a `PacketExecutions` looks at what is seen of it only: its
number is stale after `clear`, and never read. -/
theorem executions_call_seen (a : ExecutionsCall) (p q : PacketExecutions)
    (h : executions.cls.seen p = executions.cls.seen q) :
    (p.call a).map executions.cls.seen = (q.call a).map executions.cls.seen := by
  obtain ⟨⟨mode, error⟩, reqId, list⟩ := p
  obtain ⟨⟨mode', error'⟩, reqId', list'⟩ := q
  obtain ⟨rfl, rfl, rfl⟩ : mode = mode' ∧ error = error' ∧ list = list' := by
    simpa [PacketClass.seen, cls, PacketBase.getError] using h
  cases a with
  | record n => cases mode <;> rfl
  | append n row => rfl
  | appendExecutionsEnd n => rfl
  | closeError e => cases mode <;> rfl
  | clear => cases mode <;> rfl

/-- What is seen of a packet after `clear`: no rows, and in five classes the
error of its last use. -/
theorem seen_clear {k : PacketKind} {p p' : k.cls.Obj} (hc : k.cls.clear p = .ok p') :
    k.cls.seen p' =
      (.CLEAN, if k.resetsError then .NONE else (k.cls.base p).getError, []) := by
  cases k with
  | contractDetails | histData | placeOrder | mktData | optParams =>
      obtain rfl := Except.ok.inj hc
      rfl
  -- the other three assert that the packet is finished
  | accStatus =>
      obtain ⟨-, -, hc⟩ := Exec.bind_eq_ok.1 hc
      obtain rfl := Except.ok.inj hc
      rfl
  | executions =>
      obtain ⟨-, -, hc⟩ := Exec.bind_eq_ok.1 hc
      obtain rfl := Except.ok.inj hc
      rfl
  | orders =>
      obtain ⟨-, -, hc⟩ := Exec.bind_eq_ok.1 hc
      obtain rfl := Except.ok.inj hc
      rfl

/-- Besides the error, and the stale number of executions, `clear` leaves a
new packet. -/
theorem clear_eq_new {k : PacketKind} {p p' : k.cls.Obj} (hk : k ≠ .executions)
    (hc : k.cls.clear p = .ok p') (hs : k.cls.seen p' = k.cls.seen k.cls.new) :
    p' = k.cls.new := by
  cases k with
  | contractDetails | optParams =>
      obtain ⟨⟨mode, error⟩, reqId, request, rows⟩ := p
      obtain rfl := Except.ok.inj hc
      obtain rfl : error = .NONE := congrArg (·.2.1) hs
      rfl
  | histData | placeOrder | mktData =>
      obtain rfl := Except.ok.inj hc
      rfl
  | accStatus =>
      obtain ⟨⟨mode, error⟩, request, list⟩ := p
      obtain ⟨-, -, hc⟩ := Exec.bind_eq_ok.1 hc
      obtain rfl := Except.ok.inj hc
      obtain rfl : error = .NONE := congrArg (·.2.1) hs
      rfl
  | executions => exact absurd rfl hk
  | orders =>
      obtain ⟨⟨mode, error⟩, list⟩ := p
      obtain ⟨-, -, hc⟩ := Exec.bind_eq_ok.1 hc
      obtain rfl := Except.ok.inj hc
      obtain rfl : error = .NONE := congrArg (·.2.1) hs
      rfl

/-- A new packet has no error and no rows. -/
theorem seen_new (k : PacketKind) : k.cls.seen k.cls.new = (.CLEAN, .NONE, []) := by
  cases k <;> rfl

/-- **When a cleared packet is as good as new**: when its class resets the
error, or there was none. -/
theorem clear_asGoodAsNew_iff (k : PacketKind) : ∀ (before : List k.cls.Call) (p p' : k.cls.Obj),
    k.cls.calls k.cls.new before = .ok p → k.cls.clear p = .ok p' →
      (k.cls.AsGoodAsNew p' ↔ k.resetsError = true ∨ (k.cls.base p).getError = .NONE) := by
  intro _ p p' _ hc
  have hseen := seen_clear hc
  constructor
  · intro hgood
    have herror := congrArg (·.2.1) (hseen.symm.trans (hgood.seen_eq.trans (seen_new k)))
    by_cases hr : k.resetsError = true
    · exact .inl hr
    · rw [if_neg hr] at herror
      exact .inr herror
  · intro hcond
    have hsame : k.cls.seen p' = k.cls.seen k.cls.new := by
      rw [hseen, seen_new]
      rcases hcond with hr | he
      · rw [if_pos hr]
      · rw [he, ite_self]
    -- a packet of executions keeps its stale number, any other is a new one
    by_cases hk : k = .executions
    · subst hk
      exact PacketClass.asGoodAsNew_of_seen executions_call_seen hsame
    · rw [clear_eq_new hk hc hsame]
      exact PacketClass.asGoodAsNew_new

/-- A packet of executions that timed out. -/
theorem clear_asGoodAsNew_timeout : ∃ p p' : PacketExecutions,
    executions.cls.calls executions.cls.new [.record 1, .closeError .TIMEOUT] = .ok p ∧
      p.clear = .ok p' ∧ ¬ executions.cls.AsGoodAsNew p' := by
  refine ⟨{ mode := .CLOSED, error := .TIMEOUT, reqId := 1 },
    { mode := .CLEAN, error := .TIMEOUT, reqId := 1 }, rfl, rfl, ?_⟩
  rw [clear_asGoodAsNew_iff .executions [.record 1, .closeError .TIMEOUT]
    { mode := .CLOSED, error := .TIMEOUT, reqId := 1 } _ rfl rfl]
  decide

/-- **A failure outlives `clear`**: contract details that TWS rejected the
first time and answers the second time still say so. -/
theorem clear_keeps_error : ∃ p q : PacketContractDetails,
    contractDetails.cls.calls contractDetails.cls.new
      [.record 1 {}, .closeError .REQUEST, .clear, .record 2 {}, .setFinished] = .ok p ∧
    contractDetails.cls.calls contractDetails.cls.new [.record 2 {}, .setFinished] = .ok q ∧
    p.getError = .REQUEST ∧ q.getError = .NONE :=
  ⟨{ mode := .CLOSED, error := .REQUEST, reqId := 2, request := some {} },
    { mode := .CLOSED, error := .NONE, reqId := 2, request := some {} }, rfl, rfl, rfl, rfl⟩

end PacketKind

end Twstools
