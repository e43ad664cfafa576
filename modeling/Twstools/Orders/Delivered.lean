import Twstools.Jobs.Deadlines
import Twstools.Jobs.Phases
import Twstools.Orders.Rows
/-!
# Everything delivered for an order

Orders are sent when nothing else is left, and no request is made after
that; and a connection that is lost while an order is live ends the
program. So of all that comes under the number of a live order only errors
can be taken for something else, and only when the number is that of the
last request: they are thought to be about that, although it is over.
-/

namespace Twstools

open Std

/-- Whether a row of an order is an error. -/
def TwsRow.isError : TwsRow → Bool
  | .t_error _ => true
  | _ => false

namespace TwsDL

variable {s s' : TwsDL} {e : Event} {evs : List Event} {cfg : ConfigTwsdo} {async : Bool}
variable {jobs : List Job} {id : ℤ} {p : PacketPlaceOrder}

/-- What an event brings under the number `id`, if that order is live. -/
def broughtFor (s : TwsDL) (id : ℤ) (e : Event) : List TwsRow :=
  match e.orderRow with
  | some (orderId, row) => if orderId = id ∧ id ∈ s.p_orders then [row] else []
  | none => []

/-- **What was delivered under the number `id`** while that order was
live. -/
def deliveredRows (s : TwsDL) (id : ℤ) (evs : List Event) : List TwsRow :=
  entries next (fun s e _ => s.broughtFor id e) s evs

theorem mem_of_broughtFor {row : TwsRow} (h : row ∈ s.broughtFor id e) : id ∈ s.p_orders := by
  unfold broughtFor at h
  split at h
  · split at h
    · rename_i hc
      exact hc.2
    · cases h
  · cases h

/-! ## A live order needs a connection -/

theorem not_live_of_isEmpty (h : s.p_orders.isEmpty = true) : id ∉ s.p_orders :=
  TreeMap.isEmpty_iff_forall_not_mem.1 h id

/-- A connection is given up when no order is live only. -/
theorem waitTwsCon_live (h : s.waitTwsCon = .ok s') (hc : s.connected = true)
    (hid : id ∈ s'.p_orders) : s'.connected = true := by
  obtain ⟨hb, r, out, ⟨st, i, rfl⟩ | ⟨he, p, rfl⟩⟩ := waitTwsCon_effect h
  · exact hc
  · exact absurd hid (not_live_of_isEmpty he)

/-- **A live order keeps its connection** in a turn, -/
theorem turn_live {c : Connect} (hL : ∀ id ∈ s.p_orders, s.connected = true)
    (h : s.turn c = .ok s') : ∀ id ∈ s'.p_orders, s'.connected = true := by
  obtain ⟨s₁, i, hpath, rfl⟩ := turn_path h
  suffices ∀ id ∈ s₁.p_orders, s₁.connected = true from this
  intro id hid
  have waited : ∀ {s₂ : TwsDL}, ({ s with curIdleTime := -1 } : TwsDL).waitData = .ok s₂ →
      id ∈ s₂.p_orders → s₂.connected = true := fun {s₂} hw hm => by
    have hlive : id ∈ s.p_orders := (((waitData_orders hw).1.live id).1 hm).1
    have hcon : s₂.connected = s.connected := congrArg Prod.fst (waitData_contact hw)
    rw [hcon]
    exact hL id hlive
  cases hpath with
  | connecting _ hw =>
      obtain ⟨r, hr⟩ := waitTwsCon_orders hw
      have hlive : s₁.p_orders = s.p_orders := congrArg Orders.p_orders hr
      exact waitTwsCon_live hw (hL id (hlive ▸ hid)) hid
  | waiting _ hw _ => exact waited hw hid
  | reconnecting _ hw _ _ hc hcon =>
      have hlive := congrArg Orders.p_orders (connectTws_orders hcon)
      have hc' := waited hw (hlive.subst (motive := fun o => id ∈ o) hid)
      exact absurd (hc.symm.trans hc') Bool.noConfusion
  | working _ _ _ _ hc hwork => exact (congrArg Prod.fst (work_contact hwork)).trans hc

/-- and so it does in every state of a run. -/
theorem run_live (h : Run Step (start cfg async jobs) evs s) :
    ∀ id ∈ s.p_orders, s.connected = true := by
  refine h.invariant (I := fun s => ∀ id ∈ s.p_orders, s.connected = true)
    (fun id hid => absurd hid TreeMap.not_mem_emptyc) ?_
  intro s e s' hL hstep
  by_cases ht : ∃ c, e = .turn c
  · obtain ⟨c, rfl⟩ := ht
    exact turn_live hL hstep.2
  intro id hid
  have hlive : id ∈ s.p_orders := ((handle_kept (fun c he => ht ⟨c, he⟩) hstep.2).live id).1 hid
  cases event_path hstep.2 with
  | turn => exact absurd ⟨_, rfl⟩ ht
  | connectionClosed h => exact absurd hlive (not_live_of_isEmpty (twsConnectionClosed_effect h).1)
  | error h => exact (congrArg Fixed.connected (twsError_fixed h)).trans (hL id hlive)
  | orderStatus h | openOrder h =>
      exact (congrArg Fixed.connected h.fixed_eq).trans (hL id hlive)
  | _ => exact hL id hlive

/-! ## The last request -/

/-- An order that is live was sent. -/
theorem sent_of_live (h : Run Step (start cfg async jobs) evs s) (hid : id ∈ s.p_orders) :
    ∃ a ∈ s.out, a.topic = .order := by
  have hS := run_ordersSent h
  have hgiven := (hS.accounted.orders id).1 (.inl hid)
  have hlen : 0 < (sentOrders s.out).length := by
    have := List.length_pos_of_mem hgiven
    rw [hS.sent, List.length_zipWith]
    exact lt_min this (this.trans_le hS.le)
  obtain ⟨a, ha⟩ := List.exists_mem_of_length_pos hlen
  exact ⟨a, (List.mem_filter.1 ha).1, of_decide_eq_true (List.mem_filter.1 ha).2⟩

theorem turned_reqId {j j' : Jobs} (h : j.Turned j') :
    j'.request.reqId = j.request.reqId ∨ j'.request.reqType ≠ .NONE := by
  have waited : ∀ {j₁ : Jobs}, j.Waited j₁ → j₁.request.reqId = j.request.reqId := fun hW => by
    cases hW <;> rfl
  cases h with
  | connect => exact .inl rfl
  | wait hW => exact .inl (waited hW)
  | work hW _ _ hwork =>
      have hid := waited hW
      cases hwork with
      | stay | done => exact .inl hid
      | other => exact .inr (Packet.reqType_ne_none _)
      | _ => exact .inr ReqType.noConfusion

/-- **No request is made once an order is sent.** -/
theorem reqId_of_sent (h : Run Step (start cfg async jobs) evs s) (hs : s.Step e s')
    (hsent : ∃ a ∈ s.out, a.topic = .order) :
    s'.currentRequest.reqId = s.currentRequest.reqId := by
  by_cases ht : ∃ c, e = .turn c
  · obtain ⟨c, rfl⟩ := ht
    obtain ⟨a, ha, hta⟩ := hsent
    obtain ⟨l, hl, -⟩ := step_adds hs
    have hmem : a ∈ s'.out := by
      rw [hl]
      exact List.mem_append_left _ ha
    have hn := ((run_inPhase (h.snoc hs)).nothing_left ⟨a, hmem, hta⟩).1
    rcases turned_reqId (turn_cases (run_ok h) hs.2) with hid | hne
    · exact hid
    · exact absurd hn hne
  · have hf := handle_fixed (fun c he => ht ⟨c, he⟩) hs.2
    exact congrArg (fun f : Fixed => f.currentRequest.reqId) hf

/-- Of what comes for a live order nothing but an error under the number of
the last request is kept from it. -/
theorem rowFor_eq (h : Run Step (start cfg async jobs) evs s) :
    s.rowFor id e = if id = s.currentRequest.reqId then
      (s.broughtFor id e).filter (!·.isError) else s.broughtFor id e := by
  by_cases hid : id ∈ s.p_orders
  · have hn := ((run_inPhase h).nothing_left (sent_of_live h hid)).1
    have hc := run_live h id hid
    cases e with
    | orderStatus row | openOrder row =>
        have hfor : s.currentRequest.reqType ≠ .ORDERS_REQUEST := by
          rw [hn]
          exact ReqType.noConfusion
        simp only [rowFor, broughtFor, Event.orderRow, forRequest, hfor, hid, decide_false,
          and_true]
        split <;> split <;> rfl
    | error err =>
        simp only [rowFor, broughtFor, Event.orderRow, forRequest, hc, hid, true_and]
        by_cases herr : err.id = id
        · subst herr
          by_cases hreq : err.id = s.currentRequest.reqId
          · simp [hreq, TwsRow.isError]
          · simp [hreq]
        · simp [herr]
    | _ => simp [rowFor, broughtFor, Event.orderRow]
  · have hnone : s.broughtFor id e = [] :=
      List.eq_nil_iff_forall_not_mem.2 fun row hrow => hid (mem_of_broughtFor hrow)
    have hrow : s.rowFor id e = [] := by
      unfold rowFor
      split
      · exact if_neg fun hc => hid hc.2.1
      · rfl
    rw [hnone, hrow]
    exact (ite_self []).symm

/-- **What was left to an order** is what was delivered, but for errors
under the number of the last request. -/
theorem orderRows_eq (h : Run Step (start cfg async jobs) evs s) :
    orderRows (start cfg async jobs) id evs = if id = s.currentRequest.reqId then
      (deliveredRows (start cfg async jobs) id evs).filter (!·.isError)
      else deliveredRows (start cfg async jobs) id evs := by
  -- nothing is delivered for an order before it is sent
  suffices (deliveredRows (start cfg async jobs) id evs ≠ [] → ∃ a ∈ s.out, a.topic = .order) ∧
      _ from this.2
  induction h with
  | nil => exact ⟨fun hne => absurd rfl hne, (ite_self []).symm⟩
  | @snoc evs s s' e hr hstep ih =>
      obtain ⟨hsent, ih⟩ := ih
      have hrows : orderRows (start cfg async jobs) id (evs ++ [e]) =
          orderRows (start cfg async jobs) id evs ++ s.rowFor id e :=
        hr.entries_snoc (fun _ _ _ => next_eq_of_step) hstep
      have hdel : deliveredRows (start cfg async jobs) id (evs ++ [e]) =
          deliveredRows (start cfg async jobs) id evs ++ s.broughtFor id e :=
        hr.entries_snoc (fun _ _ _ => next_eq_of_step) hstep
      rw [hrows, hdel, ih, rowFor_eq hr]
      by_cases hs : ∃ a ∈ s.out, a.topic = .order
      · obtain ⟨a, ha, hta⟩ := hs
        obtain ⟨l, hl, -⟩ := step_adds hstep
        refine ⟨fun _ => ⟨a, hl ▸ List.mem_append_left _ ha, hta⟩, ?_⟩
        rw [reqId_of_sent hr hstep ⟨a, ha, hta⟩]
        split
        · rw [List.filter_append]
        · rfl
      · have hd : deliveredRows (start cfg async jobs) id evs = [] :=
          by_contra fun hne => hs (hsent hne)
        have hb : s.broughtFor id e = [] := List.eq_nil_iff_forall_not_mem.2 fun row hrow =>
          hs (sent_of_live hr (mem_of_broughtFor hrow))
        rw [hd, hb]
        exact ⟨fun hne => absurd rfl hne, by simp⟩

/-- **The packet of an order is complete.** In every run, each packet of an
order that was written is closed, and so far each that is live and was
never finished, holds exactly what was delivered under the number of the
order while it was live, in order: every status, every open order and every
error. Only when the number is that of the last request as well, or 0 and
there was no request, the errors are not in it: they are taken for that
request. The packet is for one of the order jobs of the work file. -/
theorem order_rows_complete (h : Run Step (start cfg async jobs) evs s) (id : ℤ)
    (p : PacketPlaceOrder) :
    (.dumpOrder id p ∈ s.out → p.finished = true ∧ p.IsFor (orderJobs jobs) id ∧
      p.list = if id = s.currentRequest.reqId then
        (deliveredRows (start cfg async jobs) id evs).filter (!·.isError)
        else deliveredRows (start cfg async jobs) id evs) ∧
    (s.p_orders[id]? = some p → id ∉ s.p_orders_old → p.IsFor (orderJobs jobs) id ∧
      p.list = if id = s.currentRequest.reqId then
        (deliveredRows (start cfg async jobs) id evs).filter (!·.isError)
        else deliveredRows (start cfg async jobs) id evs) := by
  have hR := run_rowsKept h
  refine ⟨fun hm => ?_, fun hp ho => ?_⟩
  · obtain ⟨hfor, hlist, hmode, -⟩ := hR.written id p hm
    exact ⟨decide_eq_true hmode, hfor, hlist.trans (orderRows_eq h)⟩
  · obtain ⟨hfor, hrows⟩ := hR.live id p hp
    exact ⟨hfor, (hrows ho).trans (orderRows_eq h)⟩

/-- TWS knows an order. -/
def knownOrder (orderId : ℤ) : RowOpenOrder where
  orderId := orderId
  contract := {}
  order := { permId := 70 + orderId }

/-- The status of an order that is filled. -/
def filledStatus (orderId : ℤ) : RowOrderStatus where
  id := orderId
  status := "Filled"
  filled := 5
  remaining := 0
  avgFillPrice := 1
  permId := 70 + orderId
  parentId := 0
  lastFillPrice := 1
  clientId := 0
  whyHeld := ""

/-- A warning that comes under the number of an order. -/
def orderWarning (orderId : ℤ) : RowError := { id := orderId, code := 2102, msg := "" }

/-- A contract is asked for, under number 1, and then the orders 1 and 2 are
placed, warned about and filled. -/
def warnedAndFilled : List Event := connects 40000 1 ++
  [.turn {}, .contractDetailsEnd 1, .turn {}, .openOrder (knownOrder 1), .openOrder (knownOrder 2),
    .error (orderWarning 1), .error (orderWarning 2), .orderStatus (filledStatus 1),
    .orderStatus (filledStatus 2), .turn {}]

/-- A contract and two orders without a number. -/
def contractAndOrders : List Job := [.contract_details {}, .place_order {}, .place_order {}]

/-- The warning about the first order is lost. -/
theorem order_rows_complete_filled : ∃ s p₁ p₂,
    Run Step (start {} false contractAndOrders) warnedAndFilled s ∧
      .dumpOrder 1 p₁ ∈ s.out ∧ .dumpOrder 2 p₂ ∈ s.out ∧
      p₁.list = [.t_openOrder (knownOrder 1), .t_orderStatus (filledStatus 1)] ∧
      p₂.list = [.t_openOrder (knownOrder 2), .t_error (orderWarning 2),
        .t_orderStatus (filledStatus 2)] := by
  have hplay : ((warnedAndFilled.foldlM next (start {} false contractAndOrders)).map
      fun s => (writtenIds s.out, s.currentRequest.reqId)) = some ([1, 2], 1) := by
    decide +kernel
  obtain ⟨s, hs, hout⟩ := Option.map_eq_some_iff.1 hplay
  obtain ⟨hids, hreq⟩ := Prod.mk.inj hout
  have hrun := Run.of_foldlM (fun _ _ _ => step_of_next) hs
  have dumped : ∀ id ∈ writtenIds s.out, ∃ p, .dumpOrder id p ∈ s.out := fun id hid => by
    obtain ⟨a, ha, hid⟩ := List.mem_filterMap.1 hid
    obtain ⟨p, rfl⟩ : ∃ p, a = .dumpOrder id p := by
      cases a <;> simp_all [Action.writtenId]
    exact ⟨p, ha⟩
  obtain ⟨p₁, h₁⟩ := dumped 1 (by simp [hids])
  obtain ⟨p₂, h₂⟩ := dumped 2 (by simp [hids])
  refine ⟨s, p₁, p₂, hrun, h₁, h₂, ?_, ?_⟩
  · rw [((order_rows_complete hrun 1 p₁).1 h₁).2.2, hreq, if_pos rfl]
    decide +kernel
  · rw [((order_rows_complete hrun 2 p₂).1 h₂).2.2, hreq, if_neg (by decide)]
    decide +kernel

end TwsDL

end Twstools
