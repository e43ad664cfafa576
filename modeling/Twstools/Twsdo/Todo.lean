import Twstools.Twsdo.Query
import Twstools.Twsdo.GenericRequest
import Twstools.Pacing.God
/-!
# What is left to do

The jobs of the work file. Contract details, option parameters and orders
are taken in order (`IndexTodo`); historical jobs go through four places
of `HistTodo`, from `leftRequests` to `doneRequests` or `errorRequests`,
and `checkoutOpt` chooses the next one by farm and quota.
-/

namespace Twstools

open Std

/-- `strcasecmp(a, b) == 0`, in the C locale. -/
def strcaseEq (a b : String) : Bool := a.toList.map Char.toLower = b.toList.map Char.toLower

/-! ## Jobs taken in order -/

/-- The common shape of `ContractDetailsTodo`, `OptParamsTodo` and
`PlaceOrderTodo`: the jobs, and the index of the current one. -/
structure IndexTodo (α : Type) where
  curIndex : ℤ := -1
  requests : List α := []

namespace IndexTodo

variable {α : Type} {t t' : IndexTodo α} {site : Assertion} {r : α}

/-- `countLeft`. -/
def countLeft (t : IndexTodo α) : ℤ := t.requests.length - t.curIndex - 1

/-- `checkout`. -/
def checkout (site : Assertion) (t : IndexTodo α) : Exec Assertion (IndexTodo α) := do
  ensure (t.countLeft > 0) site
  pure { t with curIndex := t.curIndex + 1 }

/-- `repeat`. -/
def «repeat» (site : Assertion) (t : IndexTodo α) : Exec Assertion (IndexTodo α) := do
  ensure (t.curIndex > 0) site
  pure { t with curIndex := t.curIndex - 1 }

/-- `current`. -/
def current (site : Assertion) (t : IndexTodo α) : Exec Assertion α := do
  ensure (t.curIndex ≥ 0 ∧ t.curIndex < t.requests.length) site
  atIndex t.requests t.curIndex

/-- `add`. -/
def add (t : IndexTodo α) (r : α) : IndexTodo α := { t with requests := t.requests ++ [r] }

theorem checkout_eq_ok : t.checkout site = .ok t' ↔
    0 < t.countLeft ∧ t' = { t with curIndex := t.curIndex + 1 } := by
  rw [eq_comm (a := t')]
  simp [checkout]

theorem repeat_eq_ok : t.repeat site = .ok t' ↔
    0 < t.curIndex ∧ t' = { t with curIndex := t.curIndex - 1 } := by
  rw [eq_comm (a := t')]
  simp [«repeat»]

/-- **`repeat` takes back a `checkout`**, except the first one. -/
theorem repeat_of_checkout {site' : Assertion} (h : t.checkout site = .ok t') :
    t'.repeat site' = .ok t ↔ 0 ≤ t.curIndex := by
  obtain ⟨-, rfl⟩ := checkout_eq_ok.1 h
  rw [repeat_eq_ok]
  constructor
  · rintro ⟨hpos, -⟩
    dsimp only at hpos
    omega
  · intro h0
    refine ⟨by dsimp only; omega, ?_⟩
    simp

theorem current_eq_ok : t.current site = .ok r ↔
    0 ≤ t.curIndex ∧ t.requests[t.curIndex.toNat]? = some r := by
  simp only [current, Exec.bind_eq_ok, Exec.ensure_eq_ok]
  constructor
  · rintro ⟨_, ⟨h0, -⟩, h⟩
    unfold atIndex at h
    rw [if_pos h0] at h
    split at h
    · rename_i hs
      rw [← Except.ok.inj h]
      exact ⟨h0, hs⟩
    · cases h
  · rintro ⟨h0, h⟩
    have hlt := (List.getElem?_eq_some_iff.1 h).1
    obtain ⟨n, hn⟩ := Int.eq_ofNat_of_zero_le h0
    refine ⟨(), ⟨h0, by omega⟩, ?_⟩
    rw [hn] at h ⊢
    exact Exec.atIndex_eq_ok h

end IndexTodo

/-- `ContractDetailsTodo`. -/
abbrev ContractDetailsTodo := IndexTodo ContractDetailsRequest

namespace ContractDetailsTodo

/-- `ContractDetailsTodo::checkout`. -/
def checkout (t : ContractDetailsTodo) : Exec Assertion ContractDetailsTodo :=
  IndexTodo.checkout .contractDetailsCheckout t

/-- `ContractDetailsTodo::repeat`. -/
def «repeat» (t : ContractDetailsTodo) : Exec Assertion ContractDetailsTodo :=
  IndexTodo.repeat .contractDetailsRepeat t

/-- `ContractDetailsTodo::current`. -/
def current (t : ContractDetailsTodo) : Exec Assertion ContractDetailsRequest :=
  IndexTodo.current .contractDetailsCurrent t

end ContractDetailsTodo

/-- `OptParamsTodo`. -/
abbrev OptParamsTodo := IndexTodo OptParamsRequest

namespace OptParamsTodo

/-- `OptParamsTodo::checkout`. -/
def checkout (t : OptParamsTodo) : Exec Assertion OptParamsTodo :=
  IndexTodo.checkout .optParamsCheckout t

/-- `OptParamsTodo::repeat`. -/
def «repeat» (t : OptParamsTodo) : Exec Assertion OptParamsTodo :=
  IndexTodo.repeat .optParamsRepeat t

/-- `OptParamsTodo::current`. -/
def current (t : OptParamsTodo) : Exec Assertion OptParamsRequest :=
  IndexTodo.current .optParamsCurrent t

end OptParamsTodo

/-- `PlaceOrderTodo`, which has no `repeat`. -/
abbrev PlaceOrderTodo := IndexTodo PlaceOrder

namespace PlaceOrderTodo

/-- `PlaceOrderTodo::checkout`. -/
def checkout (t : PlaceOrderTodo) : Exec Assertion PlaceOrderTodo :=
  IndexTodo.checkout .placeOrderCheckout t

/-- `PlaceOrderTodo::current`. -/
def current (t : PlaceOrderTodo) : Exec Assertion PlaceOrder :=
  IndexTodo.current .placeOrderCurrent t

end PlaceOrderTodo

/-! ## Historical jobs -/

/-- A `HistRequest*`: the request, and where it was allocated. -/
structure HistJob where
  ptr : ℕ
  request : HistRequest
  deriving DecidableEq

/-- `HistTodo`. -/
structure HistTodo where
  doneRequests : List HistJob := []
  leftRequests : List HistJob := []
  errorRequests : List HistJob := []
  checkedOutRequest : Option HistJob := none

namespace HistTodo

/-- `countLeft`. -/
def countLeft (h : HistTodo) : ℤ := h.leftRequests.length

/-- `add`. The new object has an address no other one has: requests are
added while all of them are left. -/
def add (h : HistTodo) (hR : HistRequest) : HistTodo :=
  { h with leftRequests := h.leftRequests ++ [{ ptr := h.leftRequests.length, request := hR }] }

/-- The first loop of `checkoutOpt`: the first request left for each farm,
and how many there are. -/
def countFarms (dfs : DataFarmStates) :
    List HistJob → TreeMap String HistJob × TreeMap String ℤ →
      TreeMap String HistJob × TreeMap String ℤ
  | [], maps => maps
  | it :: rest, (hashByFarm, countByFarm) =>
      let farm := dfs.getHmdsFarmOf it.request.ibContract
      countFarms dfs rest <|
        if farm ∉ hashByFarm then (hashByFarm.insert farm it, countByFarm.insert farm 1)
        else (hashByFarm, countByFarm.insert farm ((countByFarm[farm]?).getD 0 + 1))

/-- The second loop: an unknown farm first, else the longest list, among
those with requests left in the interval. -/
def selectFarm (dfs : DataFarmStates) (now : ℤ) (countByFarm : TreeMap String ℤ) :
    List (String × HistJob) → PacingGod → HistJob → ℤ → Exec Assertion (PacingGod × HistJob)
  | [], pG, todo_hR, _ => pure (pG, todo_hR)
  | (farm, tmp_hR) :: rest, pG, todo_hR, countTodo => do
      let (pG, left) ← pG.countLeft dfs now tmp_hR.request.ibContract
      if left > 0 then
        if farm = "" then pure (pG, tmp_hR)
        else
          let count := (countByFarm[farm]?).getD 0
          if countTodo < count then selectFarm dfs now countByFarm rest pG tmp_hR count
          else selectFarm dfs now countByFarm rest pG todo_hR countTodo
      else selectFarm dfs now countByFarm rest pG todo_hR countTodo

/-- `checkoutOpt`. It returns the time to wait; the request is checked out
when that is not positive. -/
def checkoutOpt (h : HistTodo) (pG : PacingGod) (dfs : DataFarmStates) (now : ℤ) :
    Exec Assertion (HistTodo × PacingGod × ℤ) := do
  ensure (h.checkedOutRequest = none) .histCheckoutOptNone
  let (hashByFarm, countByFarm) := countFarms dfs h.leftRequests (∅, ∅)
  let todo_hR ← deref h.leftRequests.head?
  let (pG, todo_hR) ← selectFarm dfs now countByFarm hashByFarm.toList pG todo_hR 0
  ensure (∃ it ∈ h.leftRequests, it.ptr = todo_hR.ptr) .histCheckoutOptFound
  let (pG, wait) ← pG.goodTime dfs now todo_hR.request.ibContract
  if wait ≤ 0 then
    pure ({ h with
      leftRequests := h.leftRequests.eraseP (·.ptr = todo_hR.ptr)
      checkedOutRequest := some todo_hR }, pG, wait)
  else pure (h, pG, wait)

/-- `cancelForRepeat`. -/
def cancelForRepeat (h : HistTodo) (priority : ℤ) : Exec Assertion HistTodo := do
  ensure (h.checkedOutRequest ≠ none) .histCancelForRepeat
  let hR ← deref h.checkedOutRequest
  if priority ≤ 0 then
    pure { h with leftRequests := hR :: h.leftRequests, checkedOutRequest := none }
  else if priority ≤ 1 then
    pure { h with leftRequests := h.leftRequests ++ [hR], checkedOutRequest := none }
  else pure { h with errorRequests := h.errorRequests ++ [hR], checkedOutRequest := none }

/-- `current`. -/
def current (h : HistTodo) : Exec Assertion HistRequest := do
  ensure (h.checkedOutRequest ≠ none) .histCurrent
  let hR ← deref h.checkedOutRequest
  pure hR.request

/-- `tellDone`. -/
def tellDone (h : HistTodo) : Exec Assertion HistTodo := do
  ensure (h.checkedOutRequest ≠ none) .histTellDone
  let hR ← deref h.checkedOutRequest
  pure { h with doneRequests := h.doneRequests ++ [hR], checkedOutRequest := none }

/-- The requests left that the test accepts go to `errorRequests`, in
order: the loop of the two `skip` functions. -/
def skip (h : HistTodo) (con : Contract) (p : HistRequest → Bool) : HistTodo :=
  if con.symbol = "" ∨ con.secType = "" ∨ con.exchange = "" then h
  else
    { h with
      leftRequests := h.leftRequests.filter fun hr => !p hr.request
      errorRequests := h.errorRequests ++ h.leftRequests.filter fun hr => p hr.request }

/-- `skip_by_perm`. -/
def skipByPerm (h : HistTodo) (con : Contract) : HistTodo :=
  h.skip con fun hr =>
    let ci := hr.ibContract
    strcaseEq ci.symbol con.symbol && strcaseEq ci.secType con.secType &&
      strcaseEq ci.exchange con.exchange

/-- `is_quote_req`. -/
def isQuoteReq (hr : HistRequest) : Bool :=
  strcaseEq hr.whatToShow "BID" || strcaseEq hr.whatToShow "ASK"

/-- `skip_by_nodata`. -/
def skipByNodata (h : HistTodo) (hr : HistRequest) : HistTodo :=
  let con := hr.ibContract
  h.skip con fun hi =>
    let ci := hi.ibContract
    strcaseEq ci.symbol con.symbol && strcaseEq ci.secType con.secType &&
      strcaseEq ci.exchange con.exchange && strcaseEq ci.currency con.currency &&
      strcaseEq ci.multiplier con.multiplier && strcaseEq ci.localSymbol con.localSymbol &&
      ((isQuoteReq hr && isQuoteReq hi) || strcaseEq hr.whatToShow hi.whatToShow)

/-! ### What the operations do -/

variable {h h' : HistTodo} {dfs : DataFarmStates} {now wait n : ℤ}

/-- Every farm's first request is one of those that were gone through. -/
theorem countFarms_mem : ∀ (l : List HistJob) (m : TreeMap String HistJob × TreeMap String ℤ)
    {farm : String} {job : HistJob}, (farm, job) ∈ (countFarms dfs l m).1.toList →
      job ∈ l ∨ (farm, job) ∈ m.1.toList
  | [], _, _, _, hm => .inr hm
  | it :: l, (hashByFarm, countByFarm), farm, job, hm => by
      rw [countFarms] at hm
      rcases countFarms_mem l _ hm with hl | hl
      · exact .inl (List.mem_cons_of_mem _ hl)
      · split at hl
        · rw [TreeMap.mem_toList_iff_getElem?_eq_some, TreeMap.getElem?_insert] at hl
          split at hl
          · rw [← Option.some.inj hl]
            exact .inl List.mem_cons_self
          · exact .inr (TreeMap.mem_toList_iff_getElem?_eq_some.2 hl)
        · exact .inr hl

/-- The request selected is one of the farms' or the one given. -/
theorem selectFarm_mem {cnt : TreeMap String ℤ} : ∀ (l : List (String × HistJob))
    {pG pG' : PacingGod} {job job' : HistJob} {n : ℤ},
    selectFarm dfs now cnt l pG job n = .ok (pG', job') → job' = job ∨ ∃ farm, (farm, job') ∈ l
  | [], _, _, _, _, _, hs => by
      obtain ⟨-, rfl⟩ := Prod.mk.inj (Except.ok.inj hs)
      exact .inl rfl
  | (farm, it) :: l, pG, pG', job, job', n, hs => by
      simp only [selectFarm, Exec.bind_eq_ok] at hs
      obtain ⟨⟨pG₁, left⟩, -, hs⟩ := hs
      have stay : ∀ {n : ℤ}, selectFarm dfs now cnt l pG₁ job n = .ok (pG', job') →
          job' = job ∨ ∃ farm', (farm', job') ∈ (farm, it) :: l := fun hs => by
        rcases selectFarm_mem l hs with rfl | ⟨f, hf⟩
        · exact .inl rfl
        · exact .inr ⟨f, List.mem_cons_of_mem _ hf⟩
      split at hs
      · split at hs
        · obtain ⟨-, rfl⟩ := Prod.mk.inj (Except.ok.inj hs)
          exact .inr ⟨farm, List.mem_cons_self⟩
        · split at hs
          · rcases selectFarm_mem l hs with rfl | ⟨f, hf⟩
            · exact .inr ⟨farm, List.mem_cons_self⟩
            · exact .inr ⟨f, List.mem_cons_of_mem _ hf⟩
          · exact stay hs
      · exact stay hs

/-- **`checkoutOpt` takes one of the requests left**, or tells to wait. -/
theorem checkoutOpt_cases {pG pG' : PacingGod}
    (hc : h.checkoutOpt pG dfs now = .ok (h', pG', wait)) :
    0 < wait ∧ h' = h ∨
    wait ≤ 0 ∧ h.checkedOutRequest = none ∧ ∃ job ∈ h.leftRequests, h' = { h with
      leftRequests := h.leftRequests.eraseP (·.ptr = job.ptr)
      checkedOutRequest := some job } := by
  simp only [checkoutOpt, Exec.bind_eq_ok, Exec.ensure_eq_ok, Exec.deref_eq_ok] at hc
  obtain ⟨-, hnone, first, hfirst, ⟨pG₁, job⟩, hsel, -, -, ⟨pG₂, w⟩, -, hc⟩ := hc
  split at hc
  · rename_i hw
    obtain ⟨rfl, h2⟩ := Prod.mk.inj (Except.ok.inj hc)
    obtain ⟨-, rfl⟩ := Prod.mk.inj h2
    refine .inr ⟨hw, hnone, job, ?_, rfl⟩
    rcases selectFarm_mem _ hsel with rfl | ⟨farm, hm⟩
    · exact List.mem_of_mem_head? hfirst
    · rcases countFarms_mem _ _ hm with hl | hl
      · exact hl
      · simp at hl
  · rename_i hw
    obtain ⟨rfl, h2⟩ := Prod.mk.inj (Except.ok.inj hc)
    obtain ⟨-, rfl⟩ := Prod.mk.inj h2
    exact .inl ⟨by omega, rfl⟩

theorem tellDone_eq_ok : h.tellDone = .ok h' ↔ ∃ job, h.checkedOutRequest = some job ∧
    h' = { h with doneRequests := h.doneRequests ++ [job], checkedOutRequest := none } := by
  simp only [tellDone, Exec.bind_eq_ok, Exec.ensure_eq_ok, Exec.deref_eq_ok]
  constructor
  · rintro ⟨-, -, job, hj, hd⟩
    exact ⟨job, hj, (Except.ok.inj hd).symm⟩
  · rintro ⟨job, hj, rfl⟩
    exact ⟨(), by simp [hj], job, hj, rfl⟩

/-- A request that is not done is left again, or it failed. -/
theorem cancelForRepeat_cases (hc : h.cancelForRepeat n = .ok h') :
    ∃ job, h.checkedOutRequest = some job ∧
      (h' = { h with leftRequests := job :: h.leftRequests, checkedOutRequest := none } ∨
       h' = { h with leftRequests := h.leftRequests ++ [job], checkedOutRequest := none } ∨
       h' = { h with errorRequests := h.errorRequests ++ [job], checkedOutRequest := none }) := by
  simp only [cancelForRepeat, Exec.bind_eq_ok, Exec.ensure_eq_ok, Exec.deref_eq_ok] at hc
  obtain ⟨-, -, job, hj, hc⟩ := hc
  refine ⟨job, hj, ?_⟩
  split at hc
  · exact .inl (Except.ok.inj hc).symm
  · split at hc
    · exact .inr (.inl (Except.ok.inj hc).symm)
    · exact .inr (.inr (Except.ok.inj hc).symm)

theorem current_eq_ok {r : HistRequest} :
    h.current = .ok r ↔ ∃ job, h.checkedOutRequest = some job ∧ job.request = r := by
  simp only [current, Exec.bind_eq_ok, Exec.ensure_eq_ok, Exec.deref_eq_ok]
  constructor
  · rintro ⟨-, -, job, hj, hd⟩
    exact ⟨job, hj, Except.ok.inj hd⟩
  · rintro ⟨job, hj, rfl⟩
    exact ⟨(), by simp [hj], job, hj, rfl⟩

end HistTodo

/-! ## All jobs -/

/-- `WorkTodo`. -/
structure WorkTodo where
  acc_status_todo : Bool := false
  executions_todo : Bool := false
  orders_todo : Bool := false
  contractDetailsTodo : ContractDetailsTodo := {}
  histTodo : HistTodo := {}
  placeOrderTodo : PlaceOrderTodo := {}
  mktDataTodo : List MktDataRequest := []
  optParamsTodo : OptParamsTodo := {}

/-- A request element of a work file, as `read_req` tells them apart by
their type. -/
inductive Job where
  | contract_details (r : ContractDetailsRequest)
  | historical_data (r : HistRequest)
  | place_order (r : PlaceOrder)
  | market_data (r : MktDataRequest) (cdr : ContractDetailsRequest)
  | opt_params (r : OptParamsRequest)
  | account
  | executions
  | open_orders
  deriving DecidableEq

namespace WorkTodo

/-- `read_req`. Market data comes with its contract details always. -/
def readReq (w : WorkTodo) : Job → WorkTodo
  | .contract_details r => { w with contractDetailsTodo := w.contractDetailsTodo.add r }
  | .historical_data r => { w with histTodo := w.histTodo.add r }
  | .place_order r => { w with placeOrderTodo := w.placeOrderTodo.add r }
  | .market_data r cdr =>
      { w with
        mktDataTodo := w.mktDataTodo ++ [r]
        contractDetailsTodo := w.contractDetailsTodo.add cdr }
  | .opt_params r => { w with optParamsTodo := w.optParamsTodo.add r }
  | .account => { w with acc_status_todo := true }
  | .executions => { w with executions_todo := true }
  | .open_orders => { w with orders_todo := true }

/-- `read_file`, for the requests of the file. -/
def readFile (w : WorkTodo) (jobs : List Job) : WorkTodo := jobs.foldl readReq w

/-- `nextReqType`. The simple requests are taken off by being returned. -/
def nextReqType (w : WorkTodo) : WorkTodo × ReqType :=
  if w.acc_status_todo then ({ w with acc_status_todo := false }, .ACC_STATUS_REQUEST)
  else if w.executions_todo then ({ w with executions_todo := false }, .EXECUTIONS_REQUEST)
  else if w.orders_todo then ({ w with orders_todo := false }, .ORDERS_REQUEST)
  else if w.contractDetailsTodo.countLeft > 0 then (w, .CONTRACT_DETAILS_REQUEST)
  else if w.optParamsTodo.countLeft > 0 then (w, .OPT_PARAMS_REQUEST)
  else if w.histTodo.countLeft > 0 then (w, .HIST_REQUEST)
  else (w, .NONE)

end WorkTodo

end Twstools
