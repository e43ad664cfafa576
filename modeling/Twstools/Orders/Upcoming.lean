import Twstools.Orders.Turns
/-!
# What comes next does not depend on the orders

`waitPacket` runs after `finPlaceOrder`, but it does not look at what that
has done: it commutes with changing the orders and what was written. So
`upcoming` tells, before the turn, what the turn will ask for.
-/

namespace Twstools

open Std

namespace TwsDL

/-- Other orders, another time to wait, and more that was done before. -/
def withOrders (c : ℤ) (a b : TreeMap ℤ PacketPlaceOrder) (l : List Action) (s : TwsDL) : TwsDL :=
  { s with curIdleTime := c, p_orders := a, p_orders_old := b, out := l ++ s.out }

variable {s s₁ s₂ : TwsDL} {c : ℤ} {a b : TreeMap ℤ PacketPlaceOrder} {l : List Action}

theorem act_withOrders {x : Action} :
    (s.withOrders c a b l).act x = (s.act x).withOrders c a b l := by
  simp [withOrders, act, List.append_assoc]

theorem dumpPacket_withOrders :
    (s.withOrders c a b l).dumpPacket = s.dumpPacket.map (withOrders c a b l) := by
  unfold dumpPacket
  rw [Exec.map_bind]
  exact bind_congr fun p => congrArg Except.ok act_withOrders

theorem closePacket_withOrders {e : ReqErr} :
    (s.withOrders c a b l).closePacket e = (s.closePacket e).map (withOrders c a b l) := by
  unfold closePacket
  rw [Exec.map_bind]
  refine bind_congr fun p => ?_
  rw [Exec.map_bind]
  rfl

theorem finAnswer_withOrders {again again' : Exec Assertion (TwsDL × Bool)}
    (ha : again' = again.map (Prod.map (withOrders c a b l) id)) :
    (s.withOrders c a b l).finAnswer again' =
      (s.finAnswer again).map (Prod.map (withOrders c a b l) id) := by
  unfold finAnswer
  rw [Exec.map_bind]
  refine bind_congr fun p => ?_
  cases p.getError with
  | NONE =>
      rw [dumpPacket_withOrders, Exec.bind_map, Exec.map_bind]
      rfl
  | TWSCON => exact ha
  | _ => rfl

theorem finContracts_withOrders : (s.withOrders c a b l).finContracts =
    s.finContracts.map (Prod.map (withOrders c a b l) id) := by
  rw [finContracts_eq, finContracts_eq]
  refine finAnswer_withOrders ?_
  rw [Exec.map_bind]
  rfl

theorem finOptParams_withOrders : (s.withOrders c a b l).finOptParams =
    s.finOptParams.map (Prod.map (withOrders c a b l) id) := by
  rw [finOptParams_eq, finOptParams_eq]
  refine finAnswer_withOrders ?_
  rw [Exec.map_bind]
  rfl

theorem finHist_withOrders : (s.withOrders c a b l).finHist =
    s.finHist.map (Prod.map (withOrders c a b l) id) := by
  unfold finHist
  rw [Exec.map_bind]
  refine bind_congr fun p => ?_
  cases p.getError with
  | NONE =>
      rw [dumpPacket_withOrders, Exec.bind_map, Exec.map_bind]
      refine bind_congr fun s₁ => ?_
      rw [Exec.map_bind]
      exact bind_congr fun _ => rfl
  | _ =>
      rw [Exec.map_bind]
      exact bind_congr fun _ => rfl

theorem finRequest_withOrders : (s.withOrders c a b l).finRequest =
    s.finRequest.map (Prod.map (withOrders c a b l) id) := by
  unfold finRequest
  have ht : (s.withOrders c a b l).currentRequest.reqType = s.currentRequest.reqType := rfl
  rw [ht]
  cases s.currentRequest.reqType with
  | OPT_PARAMS_REQUEST => exact finOptParams_withOrders
  | CONTRACT_DETAILS_REQUEST => exact finContracts_withOrders
  | HIST_REQUEST => exact finHist_withOrders
  | NONE => rfl
  | _ =>
      dsimp only
      rw [dumpPacket_withOrders, Exec.bind_map, Exec.map_bind]
      rfl

theorem finPacket_withOrders :
    (s.withOrders c a b l).finPacket = s.finPacket.map (withOrders c a b l) := by
  unfold finPacket
  rw [finRequest_withOrders, Exec.bind_map, Exec.map_bind]
  refine bind_congr fun r => ?_
  obtain ⟨s₁, ok⟩ := r
  have hp : (if ok = true then s₁.withOrders c a b l else
      { s₁.withOrders c a b l with error := 1, lastError := "Fatal error.", quit := true }) =
      (if ok = true then s₁ else
        { s₁ with error := 1, lastError := "Fatal error.", quit := true }).withOrders c a b l := by
    split <;> rfl
  dsimp only [Prod.map, id]
  rw [hp, Exec.map_bind]
  refine bind_congr fun p => ?_
  rw [act_withOrders]
  rfl

/-- **`waitPacket` commutes with changing the orders.** -/
theorem waitPacket_withOrders :
    (s.withOrders c a b l).waitPacket = s.waitPacket.map (withOrders c a b l) := by
  unfold waitPacket
  have hp : (s.withOrders c a b l).packet = s.packet := rfl
  have hq : (s.withOrders c a b l).currentRequest = s.currentRequest := rfl
  have hn : (s.withOrders c a b l).now = s.now := rfl
  have hc : (s.withOrders c a b l).cfg = s.cfg := rfl
  rw [hp, hq, hn, hc]
  cases s.packet with
  | none => rfl
  | some p =>
      dsimp only
      split_ifs
      · rfl
      · exact finPacket_withOrders
      · rfl
      · rw [closePacket_withOrders, Exec.bind_map, Exec.map_bind]
        exact bind_congr fun _ => finPacket_withOrders

/-- **`upcoming` tells what the turn will ask for.** -/
theorem upcoming_eq {b : Bool}
    (h₁ : ({ s with curIdleTime := c } : TwsDL).finPlaceOrder = .ok (s₁, b))
    (h₂ : s₁.waitPacket = .ok s₂) : s.upcoming =
      if s.state = .IDLE ∧ s₂.connected = true ∧ s₂.quit = false ∧
          s₂.currentRequest.reqType = .NONE then
        some s₂.workTodo.nextReqType.2
      else none := by
  -- both states are one state with other orders
  have hs₁ : s₁ = ({ s with out := [] } : TwsDL).withOrders c s₁.p_orders s₁.p_orders_old
      (s₁.out ++ []) := by
    rw [List.append_nil]
    exact (finOrders_frame _ h₁).trans (by simp [withOrders])
  have hs₀ : s = ({ s with out := [] } : TwsDL).withOrders s.curIdleTime s.p_orders
      s.p_orders_old s.out := by
    simp [withOrders]
  rw [hs₁, waitPacket_withOrders, Exec.map_eq_ok] at h₂
  obtain ⟨t, ht, rfl⟩ := h₂
  have hw : s.waitPacket = .ok (t.withOrders s.curIdleTime s.p_orders s.p_orders_old s.out) := by
    refine (congrArg waitPacket hs₀).trans ?_
    rw [waitPacket_withOrders, ht]
    rfl
  unfold upcoming
  rw [hw]
  rfl

end TwsDL

end Twstools
