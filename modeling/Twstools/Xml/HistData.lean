import Twstools.Xml.Contract
import Twstools.Twsdo.Packet
/-!
# Historical data in xml

A packet of historical data is dumped as a `request` element: the query,
and the rows with the finishing row once it is closed. Reading the element
gives the same data back, except where a volume does not fit into an `int`:
it is written as a `long long` and read with `atoi`.
-/

namespace Twstools

/-- `dflt_RowHist`. -/
def dfltRowHist : RowHist := {}

variable (skip : Bool) (api : ApiDefaults)

/-! ## Writing -/

/-- `to_xml(parent, name, RowHist)`. -/
def RowHist.toXml (r : RowHist) (name : String) : XmlNode :=
  let dflt := dfltRowHist
  .element name
    (addAttrString skip "date" r.date dflt.date ++
      addAttrDouble skip "open" r.open dflt.open ++
      addAttrDouble skip "high" r.high dflt.high ++
      addAttrDouble skip "low" r.low dflt.low ++
      addAttrDouble skip "close" r.close dflt.close ++
      addAttrLongLong skip "volume" r.volume dflt.volume ++
      addAttrInt skip "count" r.count dflt.count ++
      addAttrDouble skip "WAP" r.WAP dflt.WAP ++
      addAttrBool skip "hasGaps" r.hasGaps dflt.hasGaps)
    []

/-- `HistRequest()`. -/
def HistRequest.init : HistRequest := { ibContract := api.contract }

/-- `to_xml(parent, HistRequest)`. -/
def HistRequest.toXml (hr : HistRequest) : XmlNode :=
  let dflt := HistRequest.init api
  .element "query"
    (addAttrString skip "endDateTime" hr.endDateTime dflt.endDateTime ++
      addAttrString skip "durationStr" hr.durationStr dflt.durationStr ++
      addAttrString skip "barSizeSetting" hr.barSizeSetting dflt.barSizeSetting ++
      addAttrString skip "whatToShow" hr.whatToShow dflt.whatToShow ++
      addAttrInt skip "useRTH" hr.useRTH dflt.useRTH ++
      addAttrInt skip "formatDate" hr.formatDate dflt.formatDate)
    [hr.ibContract.convIb2xml skip "reqContract" api]

/-- `dumpXml`, the `request` element it puts into the document. -/
def PacketHistData.dumpXml (p : PacketHistData) : Exec Assertion XmlNode := do
  let request ← deref p.request
  pure (.element "request" [("type", "historical_data")]
    (request.toXml skip api ::
      if p.mode = .CLOSED then
        [.element "response" []
          (p.rows.map (·.toXml skip "row") ++ [p.finishRow.toXml skip "fin"])]
      else []))

/-! ## Reading -/

/-- `from_xml(RowHist)`. -/
def RowHist.fromXml (node : XmlNode) : RowHist :=
  let row := dfltRowHist
  { date := getAttrString node "date" row.date
    «open» := getAttrDouble node "open" row.open
    high := getAttrDouble node "high" row.high
    low := getAttrDouble node "low" row.low
    close := getAttrDouble node "close" row.close
    volume := getAttrInt node "volume" row.volume
    count := getAttrInt node "count" row.count
    WAP := getAttrDouble node "WAP" row.WAP
    hasGaps := getAttrBool node "hasGaps" row.hasGaps }

/-- `from_xml(HistRequest)`. -/
def HistRequest.fromXml (hR : HistRequest) (node : XmlNode) : HistRequest where
  ibContract := node.children.foldl
    (fun c p => if p.is "reqContract" then c.convXml2ib api p else c) hR.ibContract
  endDateTime := getAttrString node "endDateTime" hR.endDateTime
  durationStr := getAttrString node "durationStr" hR.durationStr
  barSizeSetting := getAttrString node "barSizeSetting" hR.barSizeSetting
  whatToShow := getAttrString node "whatToShow" hR.whatToShow
  useRTH := getAttrInt node "useRTH" hR.useRTH
  formatDate := getAttrInt node "formatDate" hR.formatDate

namespace PacketHistData

/-- A child of the `response`. -/
def readRow (p : PacketHistData) (q : XmlNode) : PacketHistData :=
  if q.is "row" then { p with rows := p.rows ++ [RowHist.fromXml q] }
  else if q.is "fin" then { p with finishRow := RowHist.fromXml q, mode := .CLOSED }
  else p

/-- A child of the `request`. -/
def readChild (phd : PacketHistData) (p : XmlNode) : PacketHistData :=
  let phd := if p.is "query" then
    { phd with request := some ((HistRequest.init api).fromXml api p) } else phd
  if p.is "response" then p.children.foldl readRow phd else phd

/-- `PacketHistData::fromXml`. -/
def fromXml (root : XmlNode) : PacketHistData := root.children.foldl (readChild api) {}

/-- A packet that gets rows and is closed by the last one. -/
def recorded (reqId : ℤ) (hR : HistRequest) (rows : List RowHist) (fin : RowHist) :
    Exec Assertion PacketHistData := do
  let p ← ({} : PacketHistData).record reqId hR
  let p ← rows.foldlM (fun p row => p.append reqId row) p
  p.append reqId fin

end PacketHistData

/-! ## What comes back -/

/-- The numbers are of their types, and the doubles print exactly. -/
structure RowHist.Exact (r : RowHist) : Prop where
  «open» : r.open.PrintsExactly
  high : r.high.PrintsExactly
  low : r.low.PrintsExactly
  close : r.close.PrintsExactly
  volume : InLong r.volume
  count : InInt r.count
  WAP : r.WAP.PrintsExactly

/-- No NUL in the date, and a volume that is an `int`. -/
@[mk_iff] structure RowHist.Clean (r : RowHist) : Prop where
  date : CString r.date
  volume : InInt r.volume

/-- The numbers are of their types, and the doubles print exactly. -/
structure HistRequest.Exact (hr : HistRequest) : Prop where
  ibContract : hr.ibContract.Exact
  useRTH : InInt hr.useRTH
  formatDate : InInt hr.formatDate

/-- The strings have no NUL. -/
@[mk_iff] structure HistRequest.Clean (hr : HistRequest) : Prop where
  ibContract : hr.ibContract.Clean
  endDateTime : CString hr.endDateTime
  durationStr : CString hr.durationStr
  barSizeSetting : CString hr.barSizeSetting
  whatToShow : CString hr.whatToShow

variable {skip api} {name : String}

/-- **A row comes back exactly when its volume is an `int`**, and its date
has no NUL. -/
theorem RowHist.read_write {r : RowHist} (he : r.Exact) :
    RowHist.fromXml (r.toXml skip name) = r ↔ r.Clean := by
  rw [RowHist.ext_iff]
  simp only [toXml, fromXml, getAttrInt, getAttrDouble, getAttrBool, getAttrString, addAttrInt,
    addAttrLongLong, addAttrDouble, addAttrBool, addAttrString, XmlNode.prop, List.lookup_append,
    lookup_newAttr, String.reduceEq, if_true, if_false, Option.or_none, Option.none_or]
  simp only [double_kept he.open, double_kept he.high, double_kept he.low, double_kept he.close,
    double_kept he.WAP, int_kept he.count, bool_kept,
    narrowed_kept (d := dfltRowHist.volume) (by decide),
    string_kept (t := dfltRowHist.date) (by decide), true_and, and_true]
  exact (clean_iff r).symm

theorem Contract.is_convIb2xml {c : Contract} : (c.convIb2xml skip name api).is name = true := by
  simp [Contract.convIb2xml, XmlNode.is]

/-- **A request comes back exactly when its strings have no NUL.** -/
theorem HistRequest.read_write {hr : HistRequest} (he : hr.Exact) (hp : api.Proper) :
    (HistRequest.init api).fromXml api (hr.toXml skip api) = hr ↔ hr.Clean := by
  have hempty : CString "" := by decide
  rw [HistRequest.ext_iff]
  simp only [toXml, fromXml, getAttrInt, getAttrString, addAttrInt, addAttrString, XmlNode.prop,
    XmlNode.children, List.lookup_append, lookup_newAttr, String.reduceEq, if_true, if_false,
    Option.or_none, Option.none_or, List.foldl_cons, List.foldl_nil, HistRequest.init,
    Contract.is_convIb2xml, Contract.read_write he.ibContract hp, string_kept hempty,
    int_kept he.useRTH, int_kept he.formatDate, and_true]
  exact (clean_iff hr).symm

namespace PacketHistData

/-- The rows of a request are recorded, then the last one closes. -/
theorem recorded_eq {reqId : ℤ} {hR : HistRequest} {rows : List RowHist} {fin : RowHist}
    (hrows : ∀ r ∈ rows, r.isFinished = false) (hfin : fin.isFinished = true) :
    recorded reqId hR rows fin = .ok
      { mode := .CLOSED, reqId := reqId, request := some hR, rows := rows, finishRow := fin } := by
  have happ : ∀ (p : PacketHistData) (r : RowHist), p.mode = .RECORD → p.error = .NONE →
      p.reqId = reqId → p.append reqId r =
        if r.isFinished then .ok { p with mode := .CLOSED, finishRow := r }
        else .ok { p with rows := p.rows ++ [r] } := fun p r hm he hid => by
    rw [append, Exec.ensure_of_true ⟨hm, he⟩, Exec.ok_bind, Exec.ensure_of_true hid, Exec.ok_bind]
    split <;> rfl
  have hfold : ∀ (l : List RowHist) (p : PacketHistData), (∀ r ∈ l, r.isFinished = false) →
      p.mode = .RECORD → p.error = .NONE → p.reqId = reqId →
      l.foldlM (fun p row => p.append reqId row) p = .ok { p with rows := p.rows ++ l } := by
    intro l
    induction l with
    | nil => exact fun p _ _ _ _ => by simp
    | cons r l ih =>
        intro p hl hm he hid
        rw [List.foldlM_cons, happ p r hm he hid, if_neg (by simp [hl r List.mem_cons_self]),
          Exec.ok_bind]
        refine (ih { p with rows := p.rows ++ [r] }
          (fun r hr => hl r (List.mem_cons_of_mem _ hr)) hm he hid).trans ?_
        simp
  have hrec : ({} : PacketHistData).record reqId hR =
      .ok { mode := .RECORD, reqId := reqId, request := some hR } := rfl
  rw [recorded, hrec, Exec.ok_bind, hfold rows _ hrows rfl rfl rfl, Exec.ok_bind,
    happ _ fin rfl rfl rfl, if_pos hfin]
  simp

theorem readRow_row {p : PacketHistData} {r : RowHist} :
    p.readRow (r.toXml skip "row") =
      { p with rows := p.rows ++ [RowHist.fromXml (r.toXml skip "row")] } :=
  if_pos (by simp [RowHist.toXml, XmlNode.is])

theorem readRow_fin {p : PacketHistData} {r : RowHist} :
    p.readRow (r.toXml skip "fin") =
      { p with finishRow := RowHist.fromXml (r.toXml skip "fin"), mode := .CLOSED } := by
  rw [readRow, if_neg (by simp [RowHist.toXml, XmlNode.is]),
    if_pos (by simp [RowHist.toXml, XmlNode.is])]

/-- The rows are read one by one, in order. -/
theorem readRows (rows : List RowHist) : ∀ p : PacketHistData,
    (rows.map (·.toXml skip "row")).foldl readRow p =
      { p with rows := p.rows ++ rows.map fun r => RowHist.fromXml (r.toXml skip "row") } := by
  induction rows with
  | nil => simp
  | cons r rows ih => simp [readRow_row, ih]

/-- The query is the request. -/
theorem readChild_query {p : PacketHistData} {hR : HistRequest} :
    p.readChild api (hR.toXml skip api) =
      { p with request := some ((HistRequest.init api).fromXml api (hR.toXml skip api)) } := by
  simp [readChild, HistRequest.toXml, XmlNode.is]

/-- What the element of a closed packet is read as. -/
theorem fromXml_dumpXml {p : PacketHistData} {hR : HistRequest} {node : XmlNode}
    (hm : p.mode = .CLOSED) (hr : p.request = some hR) (h : p.dumpXml skip api = .ok node) :
    fromXml api node =
      { mode := .CLOSED
        request := some ((HistRequest.init api).fromXml api (hR.toXml skip api))
        rows := p.rows.map fun r => RowHist.fromXml (r.toXml skip "row")
        finishRow := RowHist.fromXml (p.finishRow.toXml skip "fin") } := by
  rw [dumpXml, hr, if_pos hm] at h
  obtain rfl := Except.ok.inj h
  have hresp : ∀ (phd : PacketHistData) (cs : List XmlNode),
      phd.readChild api (.element "response" [] cs) = cs.foldl readRow phd :=
    fun phd cs => by simp [readChild, XmlNode.is, XmlNode.children]
  simp only [fromXml, XmlNode.children, List.foldl_cons, List.foldl_nil, readChild_query,
    hresp, List.foldl_append, readRows, readRow_fin, List.nil_append]

/-- **Historical data survives writing and reading exactly when** no volume
is too large for an `int`, the finishing row's included, and no string has
a NUL. -/
theorem hist_data_survives (hp : api.Proper) (reqId : ℤ) {hR : HistRequest}
    {rows : List RowHist} {fin : RowHist} (hrows : ∀ r ∈ rows, r.isFinished = false)
    (hfin : fin.isFinished = true) (heR : hR.Exact) (herows : ∀ r ∈ rows, r.Exact)
    (hefin : fin.Exact) :
    ∃ p node, recorded reqId hR rows fin = .ok p ∧ p.dumpXml skip api = .ok node ∧
      ((fromXml api node).request = some hR ∧ (fromXml api node).rows = rows ∧
        (fromXml api node).finishRow = fin ↔
        hR.Clean ∧ (∀ r ∈ rows, r.Clean) ∧ fin.Clean) := by
  refine ⟨_, _, recorded_eq hrows hfin, rfl, ?_⟩
  rw [fromXml_dumpXml (p := { mode := .CLOSED, reqId := reqId, request := some hR
                              rows := rows, finishRow := fin }) rfl rfl rfl]
  dsimp only
  rw [Option.some.injEq, HistRequest.read_write heR hp, map_eq_self_iff,
    RowHist.read_write hefin]
  exact and_congr_right fun _ => and_congr_left fun _ =>
    forall₂_congr fun r hr => RowHist.read_write (herows r hr)

/-- An API whose constructors make zeros and empty strings. -/
def zeroApi : ApiDefaults where
  comboLeg := ⟨0, 0, "", "", 0, 0, "", 0⟩
  deltaNeutralContract := ⟨0, 0, 0⟩
  contract := {}

theorem zeroApi_proper : zeroApi.Proper :=
  ⟨by constructor <;> decide, by constructor <;> simp +decide [zeroApi], rfl, rfl⟩

/-- One row and the last one. -/
theorem hist_data_survives_row :
    ∃ p node, recorded 1 { ibContract := {} } [{ date := "20150105", volume := 100 }]
        { date := "finished-20150105" } = .ok p ∧ p.dumpXml true zeroApi = .ok node ∧
      ((fromXml zeroApi node).request = some { ibContract := {} } ∧
        (fromXml zeroApi node).rows = [{ date := "20150105", volume := 100 }] ∧
        (fromXml zeroApi node).finishRow = { date := "finished-20150105" } ↔
        HistRequest.Clean { ibContract := {} } ∧
          (∀ r ∈ [({ date := "20150105", volume := 100 } : RowHist)], r.Clean) ∧
          RowHist.Clean { date := "finished-20150105" }) :=
  hist_data_survives zeroApi_proper 1 (by decide) (by decide)
    ⟨⟨by decide, by decide +kernel, by simp, by simp⟩, by decide, by decide⟩
    (by simp only [List.mem_singleton, forall_eq]; constructor <;> decide +kernel)
    (by constructor <;> decide +kernel)

/-- **A volume of three billion shares** comes back negative. -/
theorem large_volume_changes :
    ∃ p node, recorded 1 { ibContract := {} } [{ date := "20150105", volume := 3000000000 }]
        { date := "finished-20150105" } = .ok p ∧ p.dumpXml false zeroApi = .ok node ∧
      (fromXml zeroApi node).rows = [{ date := "20150105", volume := -1294967296 }] ∧
      (fromXml zeroApi node).rows ≠ p.rows := by
  refine ⟨_, _, recorded_eq (by decide) (by decide), rfl, ?_⟩
  decide +kernel

end PacketHistData

end Twstools
