import Twstools.Api.Contract
import Twstools.Assertion
import Std.Data.TreeMap.Lemmas
/-!
# Data farms

TWS serves historical data from several farms and says from time to time
which of them are connected. `DataFarmStates` keeps their states and
learns from them which farm an exchange belongs to: `learnHmds` when data
arrives while exactly one farm is up, `learnHmdsLastOk` when data follows
the message that a farm came up. What is once known stays
(`DataFarmStates.KeepsFarms`), apart from the demo hack.
-/

namespace Twstools

open Std

/-- `DataFarmStates::State`. -/
inductive FarmState where
  | BROKEN
  | INACTIVE
  | OK
  deriving DecidableEq, Repr

/-- `DataFarmStates`. A farm state is known from the messages about the
farm; `hLearn` maps an exchange to its historical data farm. -/
structure DataFarmStates where
  mStates : TreeMap String FarmState := ∅
  hStates : TreeMap String FarmState := ∅
  hLearn : TreeMap String String := ∅
  lastMsgNumber : ℤ := INT_MIN
  lastChanged : String := ""
  last_learned_lazy_contract : String := ""
  edemo_checked : Bool := false
  deriving Inhabited

namespace DataFarmStates

/-- `LAZY_CONTRACT_STR`. -/
def lazyContractStr (c : Contract) : String := c.exchange

/-- `getHmdsFarm(const std::string&)`: empty when the farm is unknown. -/
def getHmdsFarm (d : DataFarmStates) (lazyC : String) : String :=
  (d.hLearn[lazyC]?).getD ""

/-- `getHmdsFarm(const Contract&)`. -/
def getHmdsFarmOf (d : DataFarmStates) (c : Contract) : String :=
  d.getHmdsFarm (lazyContractStr c)

/-- `getInactives`. -/
def getInactives (d : DataFarmStates) : List String :=
  (d.hStates.toList.filter fun e => e.2 = .INACTIVE ∨ e.2 = .BROKEN).map Prod.fst

/-- `getActives`. -/
def getActives (d : DataFarmStates) : List String :=
  (d.hStates.toList.filter fun e => e.2 = .OK).map Prod.fst

/-- The hard-coded farms of `initHardCodedFarms`, farm by farm. -/
def hardCodedFarms : List (String × List String) := [
  ("euhmds", ["AEB", "BATECH", "BATEDE", "BATEEN", "BATEUK", "BELFOX", "BM", "BVL", "BVME",
    "BVME.ETF", "CHIXCH", "CHIXDE", "CHIXEN", "CHIXUK", "CPH", "DTB", "EBS", "EDXNO", "FTA", "FWB",
    "FWB2", "HEX", "IBIS", "IBIS2", "ICEEU", "IDEM", "LSE", "MATIF", "MEFFRV", "MONEP", "OMC",
    "OMH", "OMS", "OMXNO", "OSE", "SBF", "SBVM", "SFB", "SOFFEX", "SWB", "SWB2", "TGATE", "TOM",
    "TRQXCH", "TRQXDE", "TRQXEN", "TRQXUK", "VIRTX", "VSE"]),
  ("ilhmds", ["ECBOT", "GLOBEX", "ICEEUSOFT", "NYMEX"]),
  ("ushmds.us", ["AMEX", "ARCA", "ARCAEDGE", "BATS", "BEX", "BYX", "CBOE", "CBOE2", "CBOT", "CDE",
    "CFE", "CHX", "CME", "DRCTEDGE", "EDGEA", "ELX", "IPE", "ISE", "ISLAND", "LAVA", "MEXDER",
    "MEXI", "NASDAQ", "NYBOT", "NYSE", "NYSELIFFE", "ONE", "PHLX", "PSE", "PSX", "RUSSELL", "TSE",
    "VENTURE"]),
  ("hkhmds", ["ASX", "CHIXJ", "HKFE", "KSE", "NSE", "OSE.JPN", "SEHK", "SEHKNTL", "SGX", "SNFE",
    "TSEJ"]),
  ("cashhmds", ["IDEALPRO"])]

/-- `initHardCodedFarms`. -/
def initHardCodedFarms (d : DataFarmStates) : DataFarmStates :=
  { d with
    hLearn := hardCodedFarms.foldl
      (fun m e => e.2.foldl (fun m lazyC => m.insert lazyC e.1) m) d.hLearn }

/-- `DataFarmStates::DataFarmStates`. -/
def init : DataFarmStates := ({} : DataFarmStates).initHardCodedFarms

/-- `check_edemo_hack`. -/
def checkEdemoHack (d : DataFarmStates) (farm : String) : DataFarmStates :=
  if d.edemo_checked then d
  else
    { d with
      hLearn := if farm = "ibdemo" ∨ farm = "demohmds" then ∅ else d.hLearn
      edemo_checked := true }

/-- `setAllBroken`. -/
def setAllBroken (d : DataFarmStates) : DataFarmStates :=
  { d with
    mStates := d.mStates.map fun _ _ => .BROKEN
    hStates := d.hStates.map fun _ _ => .BROKEN
    last_learned_lazy_contract := "" }

/-- `getFarm`: what follows the prefix. -/
def getFarm (pre msg : String) : Exec Assertion String := do
  ensure (pre.toList.isPrefixOf msg.toList) .getFarmPrefix
  pure (String.ofList (msg.toList.drop pre.length))

/-- The part of `notify` after its switch. `hist` says which of the two
maps the message is about. -/
def setFarm (d : DataFarmStates) (hist : Bool) (state : FarmState) (farm : String) :
    DataFarmStates :=
  let d := d.checkEdemoHack farm
  { d with
    lastChanged := farm
    mStates := if hist then d.mStates else d.mStates.insert farm state
    hStates := if hist then d.hStates.insert farm state else d.hStates
    last_learned_lazy_contract := "" }

/-- `notify`. -/
def notify (d : DataFarmStates) (msgNumber errorCode : ℤ) (msg : String) :
    Exec Assertion DataFarmStates := do
  let d := { d with lastMsgNumber := msgNumber }
  if errorCode = 2103 then
    let farm ← getFarm "Market data farm connection is broken:" msg
    pure (d.setFarm false .BROKEN farm)
  else if errorCode = 2104 then
    let farm ← getFarm "Market data farm connection is OK:" msg
    pure (d.setFarm false .OK farm)
  else if errorCode = 2105 then
    let farm ← getFarm "HMDS data farm connection is broken:" msg
    pure (d.setFarm true .BROKEN farm)
  else if errorCode = 2106 then
    let farm ← getFarm "HMDS data farm connection is OK:" msg
    pure (d.setFarm true .OK farm)
  else if errorCode = 2107 then
    let farm ← getFarm "HMDS data farm connection is inactive but should be available upon demand."
      msg
    pure (d.setFarm true .INACTIVE farm)
  else if errorCode = 2108 then
    let farm ← getFarm
      "Market data farm connection is inactive but should be available upon demand." msg
    pure (d.setFarm false .INACTIVE farm)
  else do
    ensure false .notifyCode
    pure d

/-- `learnHmds`. -/
def learnHmds (d : DataFarmStates) (c : Contract) : DataFarmStates :=
  let lazyC := lazyContractStr c
  if d.last_learned_lazy_contract = lazyC then d
  else
    let d := { d with last_learned_lazy_contract := lazyC }
    let known_farm := d.getHmdsFarm lazyC
    let sl := d.getActives
    if known_farm ∈ sl then d
    else if known_farm ≠ "" then d
    else
      match sl with
      | [farm] => { d with hLearn := d.hLearn.insert lazyC farm }
      | _ => d

/-- `learnHmdsLastOk`. -/
def learnHmdsLastOk (d : DataFarmStates) (msgNumber : ℤ) (c : Contract) :
    Exec Assertion DataFarmStates :=
  if msgNumber ≠ d.lastMsgNumber + 1 then pure d
  else if d.hStates[d.lastChanged]? = some .OK then
    let lazyC := lazyContractStr c
    match d.hLearn[lazyC]? with
    | some farm => do
        ensure (farm = d.lastChanged) .learnHmdsLastOk
        pure d
    | none => pure { d with hLearn := d.hLearn.insert lazyC d.lastChanged }
  else pure d

/-! ## What is known stays known -/

variable {d d' : DataFarmStates} {c : Contract}

/-- Every farm known in `d` is the same in `d'`. -/
def KeepsFarms (d d' : DataFarmStates) : Prop :=
  ∀ lazyC, d.getHmdsFarm lazyC ≠ "" → d'.getHmdsFarm lazyC = d.getHmdsFarm lazyC

instance (d d' : DataFarmStates) : Decidable (KeepsFarms d d') :=
  decidable_of_iff (∀ e ∈ d.hLearn.toList, e.2 ≠ "" → d'.getHmdsFarm e.1 = e.2) <| by
    constructor
    · intro h lazyC hne
      unfold getHmdsFarm at hne ⊢
      cases hg : d.hLearn[lazyC]? with
      | none => simp [hg] at hne
      | some farm =>
          have he := h (lazyC, farm) (TreeMap.mem_toList_iff_getElem?_eq_some.2 hg)
          exact he (by simpa [hg] using hne)
    · rintro h ⟨lazyC, farm⟩ he hne
      have hg : d.getHmdsFarm lazyC = farm := by
        rw [getHmdsFarm, TreeMap.mem_toList_iff_getElem?_eq_some.1 he]
        rfl
      rw [h lazyC (by rwa [hg]), hg]

theorem KeepsFarms.refl (d : DataFarmStates) : KeepsFarms d d := fun _ _ => rfl

/-- An unknown farm may be learned. -/
theorem KeepsFarms.of_insert (lazyC : String) {farm : String} (hu : d.getHmdsFarm lazyC = "")
    (h : d'.hLearn = d.hLearn.insert lazyC farm) : KeepsFarms d d' := by
  intro x hx
  have hne : lazyC ≠ x := by
    rintro rfl
    exact hx hu
  rw [getHmdsFarm, h, TreeMap.getElem?_insert]
  simp [hne, getHmdsFarm]

/-- **`learnHmdsLastOk` only adds**, when its assertion holds. -/
theorem keepsFarms_learnHmdsLastOk {n : ℤ} (h : d.learnHmdsLastOk n c = .ok d') :
    KeepsFarms d d' := by
  unfold learnHmdsLastOk at h
  split at h
  · obtain rfl : d = d' := by simpa using h
    exact .refl d
  split at h
  · dsimp only at h
    split at h
    · obtain ⟨-, rfl⟩ : _ ∧ d = d' := by simpa using h
      exact .refl d
    · rename_i hnone
      have hd : _ = d' := Except.ok.inj h
      exact .of_insert (lazyContractStr c) (by simp [getHmdsFarm, hnone]) (by rw [← hd])
  · obtain rfl : d = d' := by simpa using h
    exact .refl d

end DataFarmStates

end Twstools
