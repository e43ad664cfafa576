import Twstools.Twsdo.Todo
/-!
# Work that is skipped

When TWS has no data for a request, `skip_by_nodata` gives up all requests
left that are like it: the same symbol, security type, exchange, currency,
multiplier and local symbol up to the case of letters, and the same kind of
data. The expiry, the strike, the right and the contract id are not looked
at, so of the requests of a job file without local symbols other contracts
are given up too.
-/

namespace Twstools

namespace HistTodo

variable {h : HistTodo} {hr hi : HistRequest} {con : Contract} {p : HistRequest → Bool}

/-- A request like a failed one, the letters' case aside. `BID` and `ASK`
are one kind of data. -/
structure Alike (hr hi : HistRequest) : Prop where
  symbol : strcaseEq hi.ibContract.symbol hr.ibContract.symbol = true
  secType : strcaseEq hi.ibContract.secType hr.ibContract.secType = true
  exchange : strcaseEq hi.ibContract.exchange hr.ibContract.exchange = true
  currency : strcaseEq hi.ibContract.currency hr.ibContract.currency = true
  multiplier : strcaseEq hi.ibContract.multiplier hr.ibContract.multiplier = true
  localSymbol : strcaseEq hi.ibContract.localSymbol hr.ibContract.localSymbol = true
  kind : (isQuoteReq hr = true ∧ isQuoteReq hi = true) ∨
    strcaseEq hr.whatToShow hi.whatToShow = true

/-- The comparison of `skip_by_nodata`. -/
def alike (hr hi : HistRequest) : Bool :=
  let con := hr.ibContract
  let ci := hi.ibContract
  strcaseEq ci.symbol con.symbol && strcaseEq ci.secType con.secType &&
    strcaseEq ci.exchange con.exchange && strcaseEq ci.currency con.currency &&
    strcaseEq ci.multiplier con.multiplier && strcaseEq ci.localSymbol con.localSymbol &&
    ((isQuoteReq hr && isQuoteReq hi) || strcaseEq hr.whatToShow hi.whatToShow)

theorem skipByNodata_eq : h.skipByNodata hr = h.skip hr.ibContract (alike hr) := rfl

theorem alike_iff : alike hr hi = true ↔ Alike hr hi := by
  simp only [alike, Bool.and_eq_true, Bool.or_eq_true, and_assoc]
  exact ⟨fun ⟨h1, h2, h3, h4, h5, h6, h7⟩ => ⟨h1, h2, h3, h4, h5, h6, h7⟩,
    fun ⟨h1, h2, h3, h4, h5, h6, h7⟩ => ⟨h1, h2, h3, h4, h5, h6, h7⟩⟩

/-- **What a skip does**: it moves a part of the requests left behind the
failed ones, and both parts stay in order. -/
theorem skip_moves (h : HistTodo) (con : Contract) (p : HistRequest → Bool) :
    ∃ kept moved, h.skip con p =
        { h with leftRequests := kept, errorRequests := h.errorRequests ++ moved } ∧
      kept.Sublist h.leftRequests ∧ moved.Sublist h.leftRequests ∧
      (moved ++ kept).Perm h.leftRequests ∧ ∀ job ∈ moved, p job.request = true := by
  unfold skip
  split
  -- without a symbol, a type or an exchange nothing is skipped
  · exact ⟨h.leftRequests, [], by simp, .refl _, List.nil_sublist _, .refl _, by simp⟩
  · exact ⟨_, _, rfl, List.filter_sublist, List.filter_sublist,
      List.filter_append_perm _ _, fun job hj => (List.mem_filter.1 hj).2⟩

/-- Once is enough. -/
theorem skip_skip : (h.skip con p).skip con p = h.skip con p := by
  unfold skip
  split
  · rfl
  · simp [List.filter_filter]

/-- A contract that names its instrument leaves nothing alike. -/
theorem forall_left_skip (hs : con.symbol ≠ "") (ht : con.secType ≠ "") (he : con.exchange ≠ "") :
    ∀ job ∈ (h.skip con p).leftRequests, p job.request = false := by
  unfold skip
  rw [if_neg (by simp [hs, ht, he])]
  intro job hj
  simpa using (List.mem_filter.1 hj).2

/-- **Skipping gives up what is alike, and no more.** The requests kept
stay in order, and a second call moves nothing. -/
theorem skipByNodata_alike (h : HistTodo) (hr : HistRequest) :
    (∃ kept moved, h.skipByNodata hr =
        { h with leftRequests := kept, errorRequests := h.errorRequests ++ moved } ∧
      kept.Sublist h.leftRequests ∧ moved.Sublist h.leftRequests ∧
      (moved ++ kept).Perm h.leftRequests ∧ ∀ job ∈ moved, Alike hr job.request) ∧
    (h.skipByNodata hr).skipByNodata hr = h.skipByNodata hr ∧
    (hr.ibContract.symbol ≠ "" → hr.ibContract.secType ≠ "" → hr.ibContract.exchange ≠ "" →
      ∀ job ∈ (h.skipByNodata hr).leftRequests, ¬ Alike hr job.request) := by
  rw [skipByNodata_eq]
  refine ⟨?_, skip_skip, fun hs ht he job hj halike => ?_⟩
  · obtain ⟨kept, moved, heq, hkept, hmoved, hperm, hp⟩ := skip_moves h hr.ibContract (alike hr)
    exact ⟨kept, moved, heq, hkept, hmoved, hperm, fun job hj => alike_iff.1 (hp job hj)⟩
  · have hnot := forall_left_skip hs ht he job hj
    rw [alike_iff.2 halike] at hnot
    cases hnot

/-- A request for a future, as a job file without local symbols has it. -/
def futureRequest (expiry : String) : HistRequest where
  ibContract := {
    symbol := "ES", secType := "FUT", exchange := "GLOBEX", currency := "USD"
    lastTradeDateOrContractMonth := expiry }
  whatToShow := "TRADES"

/-- **Another expiry is given up too.** -/
theorem skipByNodata_other_expiry :
    (({ leftRequests := [{ ptr := 0, request := futureRequest "20150619" }] } :
      HistTodo).skipByNodata (futureRequest "20150320")).errorRequests =
        [{ ptr := 0, request := futureRequest "20150619" }] ∧
      strcaseEq "20150619" "20150320" = false := by
  constructor <;> decide +kernel

end HistTodo

end Twstools
