import Twstools.Twsdo.Loop
/-!
# A strategy module

With `--strat` the program loads a module, whose work function it calls
when nothing else is left to do. With one it also keeps the rows of the
contract details it got, and gives their numbers to the requests for
market data: the first to the first of them, and so on.

The functions here are those of the event loop once more, for the program
with a module. What has nothing to do with it is taken from there.
-/

namespace Twstools

open Std

/-- `TwsDL` with a strategy module. `con_details` is used with one only. -/
structure StratDL where
  dl : TwsDL
  con_details : TreeMap ℤ ContractDetails := ∅

/-- The requests for market data are replaced. -/
def TwsDL.setMktData (s : TwsDL) (v : List MktDataRequest) : TwsDL :=
  { s with workTodo := { s.workTodo with mktDataTodo := v } }

/-- The number of a contract is filled in. -/
def MktDataRequest.setConId (r : MktDataRequest) (conId : ℤ) : MktDataRequest :=
  { r with ibContract := { r.ibContract with conId := conId } }

namespace StratDL

/-- The part of `finContracts` for a strategy module: the row is kept, and
the place of its contract in `mktDataRequests` is the number of contracts
so far. The vector is read without a check. -/
def addConId (con_details : TreeMap ℤ ContractDetails) (mktDataRequests : List MktDataRequest)
    (cdList : List ContractDetails) :
    Exec Assertion (TreeMap ℤ ContractDetails × List MktDataRequest) := do
  ensure (cdList.length = 1) .finContractsSize
  let cd ← atIndex cdList 0
  let con_details := con_details.insert cd.summary.conId cd
  let mi := toInt (con_details.size - 1)
  let r ← deref (if 0 ≤ mi then mktDataRequests[mi.toNat]? else none)
  ensure (r.ibContract.conId = 0 ∨ r.ibContract.conId = cd.summary.conId) .finContractsConId
  pure (con_details, mktDataRequests.set mi.toNat (r.setConId cd.summary.conId))

/-- `finContracts`. -/
def finContracts (s : StratDL) : Exec Assertion (StratDL × Bool) := do
  let p ← Packet.asContractDetails s.dl.packet
  let (dl, ok) ← s.dl.finContracts
  if p.error = .TWSCON then pure ({ s with dl := dl }, ok)
  else do
    let (con_details, v) ← addConId s.con_details dl.workTodo.mktDataTodo p.cdList
    pure ({ dl := dl.setMktData v, con_details := con_details }, ok)

/-- The switch of `waitData`. -/
def finRequest (s : StratDL) : Exec Assertion (StratDL × Bool) :=
  match s.dl.currentRequest.reqType with
  | .CONTRACT_DETAILS_REQUEST => s.finContracts
  | _ => do
      let (dl, ok) ← s.dl.finRequest
      pure ({ s with dl := dl }, ok)

/-- The end of `waitData`, when the packet is closed. -/
def finPacket (s : StratDL) : Exec Assertion StratDL := do
  let (s, ok) ← s.finRequest
  let dl := if ok then s.dl else
    { s.dl with error := 1, lastError := "Fatal error.", quit := true }
  let p ← deref dl.packet
  let dl := dl.act (.delete p)
  pure { s with dl := { dl with packet := none, currentRequest := dl.currentRequest.close } }

/-- `waitData` after `finPlaceOrder`. -/
def waitPacket (s : StratDL) : Exec Assertion StratDL :=
  match s.dl.packet with
  | none => pure s
  | some p =>
      if s.dl.currentRequest.reqType = .NONE then pure s
      else if p.finished then s.finPacket
      else if s.dl.currentRequest.age s.dl.now ≤ s.dl.cfg.tws_reqTimeout then pure s
      else do
        let dl ← s.dl.closePacket .TIMEOUT
        { s with dl := dl }.finPacket

/-- `waitData`. -/
def waitData (s : StratDL) : Exec Assertion StratDL := do
  let (dl, _) ← s.dl.finPlaceOrder
  { s with dl := dl }.waitPacket

/-- A function the module has no part in. -/
def lift (s : StratDL) (f : TwsDL → Exec Assertion TwsDL) : Exec Assertion StratDL := do
  let dl ← f s.dl
  pure { s with dl := dl }

/-- `setup` and the beginning of `start`. -/
def start (cfg : ConfigTwsdo) (asyncEConnect : Bool) (jobs : List Job) : StratDL where
  dl := .start cfg asyncEConnect jobs

section Module

-- what the module's work function does
variable (work_dso : StratDL → Exec Assertion StratDL)

/-- The switch of `idle`: the module works before the orders are placed. -/
def request (s : StratDL) : ReqType → Exec Assertion StratDL
  | .NONE => do
      let s ← work_dso s
      s.lift (·.placeAllOrders)
  | t => s.lift (·.request t)

/-- `idle` after `waitData`, while connected. -/
def work (s : StratDL) : Exec Assertion StratDL := do
  let dl ← s.dl.startMktData
  let (workTodo, reqType) := dl.workTodo.nextReqType
  let s ← { s with dl := { dl with workTodo := workTodo } }.request work_dso reqType
  pure { s with dl := s.dl.checkDone reqType }

/-- `idle`. -/
def idle (c : Connect) (s : StratDL) : Exec Assertion StratDL := do
  let s ← s.waitData
  if s.dl.quit = true ∨ s.dl.currentRequest.reqType ≠ .NONE then pure s
  else if s.dl.connected = false then s.lift (·.connectTws c)
  else s.work work_dso

/-- One turn of `eventLoop`. -/
def turn (c : Connect) (s : StratDL) : Exec Assertion StratDL := do
  let s := { s with dl := { s.dl with curIdleTime := -1 } }
  let s ← (match s.dl.state with
    | .WAIT_TWS_CON => s.lift (·.waitTwsCon)
    | .IDLE => s.idle work_dso c)
  pure (if s.dl.curIdleTime = -1 then { s with dl := { s.dl with curIdleTime := 50 } } else s)

/-- What an event does. The module has no part in the callbacks. -/
def handle (s : StratDL) : Event → Exec Assertion StratDL
  | .turn c => s.turn work_dso c
  | e => s.lift (·.handle e)

/-- One step of the program. -/
def Step (s : StratDL) (e : Event) (s' : StratDL) : Prop :=
  s.dl.quit = false ∧ s.handle work_dso e = .ok s'

end Module

end StratDL

end Twstools
