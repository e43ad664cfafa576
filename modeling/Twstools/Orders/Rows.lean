import Twstools.Orders.Sent
/-!
# The rows of an order

While an order is live every status, every open order and every error with
its number is appended to its packet, unless it is taken for the last
request. So the packet that is written holds what was left to the order, in
order, and the job that was sent last under its number.
-/

namespace Twstools

open Std

/-- The row an event brings for an order, and the number of the order. -/
def Event.orderRow : Event → Option (ℤ × TwsRow)
  | .orderStatus row => some (row.id, .t_orderStatus row)
  | .openOrder row => some (row.orderId, .t_openOrder row)
  | .error err => some (err.id, .t_error err)
  | _ => none

/-- The job of an order's packet: one of those of the work file, under the
number it was sent with. -/
def PacketPlaceOrder.IsFor (all : List PlaceOrder) (id : ℤ) (p : PacketPlaceOrder) : Prop :=
  ∃ pO ∈ all, ∃ t, p.request = some { pO with orderId := id, time_sent := t }

namespace TwsDL

variable {s s' t : TwsDL} {e : Event} {evs : List Event} {cfg : ConfigTwsdo} {async : Bool}
variable {jobs : List Job} {all : List PlaceOrder} {id n : ℤ} {p : PacketPlaceOrder} {b ok : Bool}

/-- Whether such an event is taken for the last request: for the question
for all orders, or for the one with the number of the error, even when that
is over. What comes while there is no connection is about that. -/
def forRequest (s : TwsDL) : Event → Bool
  | .orderStatus _ | .openOrder _ => s.currentRequest.reqType = .ORDERS_REQUEST
  | .error err => s.connected = false ∨ err.id = s.currentRequest.reqId
  | _ => false

/-- What an event leaves to the order `id`, if that is live. -/
def rowFor (s : TwsDL) (id : ℤ) (e : Event) : List TwsRow :=
  match e.orderRow with
  | some (orderId, row) =>
      if orderId = id ∧ id ∈ s.p_orders ∧ s.forRequest e = false then [row] else []
  | none => []

/-- **What was left to the order `id`** while it was live. -/
def orderRows (s : TwsDL) (id : ℤ) (evs : List Event) : List TwsRow :=
  entries next (fun s e _ => s.rowFor id e) s evs

/-! ## Rows are appended -/

/-- **The packet of the order gets the rows**, if there is one. With rows
for it the order is not one of the finished. -/
structure Gets (s s' : TwsDL) (id : ℤ) (rows : List TwsRow) : Prop where
  packet : ∀ p', s'.p_orders[id]? = some p' → ∃ p, s.p_orders[id]? = some p ∧
    p'.request = p.request ∧ p'.list = p.list ++ rows
  old : rows = [] ∨ id ∉ s.p_orders_old

theorem Gets.of_eq (h : s'.p_orders = s.p_orders) : Gets s s' id [] where
  packet p' hp := ⟨p', h ▸ hp, rfl, (List.append_nil _).symm⟩
  old := .inl rfl

/-- A row for one order leaves the others. -/
theorem Gets.insert {a : ℤ} {p p' : PacketPlaceOrder} {row : TwsRow} (hp : s.p_orders[a]? = some p)
    (hold : a ∉ s.p_orders_old) (hr : p'.request = p.request) (hl : p'.list = p.list ++ [row])
    (hs : s'.p_orders = s.p_orders.insert a p') :
    Gets s s' id (if a = id ∧ id ∈ s.p_orders then [row] else []) := by
  by_cases ha : a = id
  · subst ha
    rw [if_pos ⟨rfl, mem_of_getElem? hp⟩]
    refine ⟨fun q hq => ⟨p, hp, ?_⟩, .inr hold⟩
    rw [hs, TreeMap.getElem?_insert_self] at hq
    rw [← Option.some.inj hq]
    exact ⟨hr, hl⟩
  · rw [if_neg fun h => ha h.1]
    refine ⟨fun q hq => ⟨q, ?_, rfl, (List.append_nil _).symm⟩, .inl rfl⟩
    rw [hs] at hq
    exact (getElem?_insert_cases hq).elim (fun h => absurd h.1.symm ha) fun h => h.2

/-- The order has no packet that is live. -/
theorem Gets.of_none {a : ℤ} {row : TwsRow} (hp : s.p_orders[a]? = none)
    (hs : s'.p_orders = s.p_orders) :
    Gets s s' id (if a = id ∧ id ∈ s.p_orders then [row] else []) := by
  rw [if_neg]
  · exact .of_eq hs
  · rintro ⟨rfl, h⟩
    exact notMem_of_getElem? hp h

theorem onOrder_gets {x y : Assertion} {a : ℤ} {row : TwsRow}
    {f : PacketPlaceOrder → Exec Assertion PacketPlaceOrder}
    (hf : ∀ p p', f p = .ok p' → p'.request = p.request ∧ p'.list = p.list ++ [row])
    (h : s.onOrder x y a f = .ok s') :
    Gets s s' id (if a = id ∧ id ∈ s.p_orders then [row] else []) := by
  unfold onOrder at h
  split at h
  · rename_i p hp
    simp only [Exec.bind_eq_ok] at h
    obtain ⟨u, hu, p', hp', h⟩ := h
    obtain ⟨hr, hl⟩ := hf p p' hp'
    exact .insert hp (Exec.ensure_eq_ok.1 hu) hr hl (by rw [← Except.ok.inj h])
  · rename_i hp _
    simp only [Exec.bind_eq_ok] at h
    obtain ⟨-, -, p', -, h⟩ := h
    exact .of_none hp (by rw [← Except.ok.inj h])
  · rename_i hp _
    exact .of_none hp (by rw [← Except.ok.inj h])

theorem errorPlaceOrder_gets {err : RowError} (h : s.errorPlaceOrder err = .ok s') :
    Gets s s' id (if err.id = id ∧ id ∈ s.p_orders then [.t_error err] else []) := by
  unfold errorPlaceOrder at h
  split at h
  · rename_i p hp
    simp only [Exec.bind_eq_ok] at h
    obtain ⟨u, hu, p', hp', h⟩ := h
    have hsame : p'.request = p.request ∧ p'.list = p.list ++ [.t_error err] := by
      split at hp'
      · rw [← Except.ok.inj hp']
        exact ⟨rfl, rfl⟩
      · rcases PacketPlaceOrder.closeError_eq_ok hp' with ⟨-, rfl⟩ | ⟨-, rfl⟩
        · exact ⟨rfl, rfl⟩
        · exact ⟨rfl, rfl⟩
    exact .insert hp (Exec.ensure_eq_ok.1 hu) hsame.1 hsame.2 (by rw [← Except.ok.inj h])
  · rename_i hp _
    simp only [Exec.bind_eq_ok] at h
    obtain ⟨-, -, h⟩ := h
    exact .of_none hp (by rw [← Except.ok.inj h])
  · rename_i hp _
    exact .of_none hp (by rw [← Except.ok.inj h])

theorem onOrders_gets {row : TwsRow} {f : Exec Assertion TwsDL} {rows : List TwsRow}
    (hf : f = .ok s' → Gets s s' id rows) (h : s.onOrders row f = .ok s') :
    Gets s s' id (if s.currentRequest.reqType = .ORDERS_REQUEST then [] else rows) := by
  unfold onOrders at h
  split at h
  · rename_i hq
    simp only [Exec.bind_eq_ok] at h
    obtain ⟨p, -, h⟩ := h
    rw [if_pos hq]
    exact .of_eq (by rw [← Except.ok.inj h])
  · rename_i hq
    rw [if_neg hq]
    exact hf h

theorem twsError_gets {err : RowError} (h : s.twsError err = .ok s') :
    Gets s s' id (if s.connected = false ∨ err.id = s.currentRequest.reqId then []
      else if err.id = id ∧ id ∈ s.p_orders then [.t_error err] else []) := by
  simp only [twsError] at h
  split at h
  · rename_i hc
    simp only [Exec.bind_eq_ok] at h
    obtain ⟨-, -, h⟩ := h
    rw [if_pos (.inl hc)]
    exact .of_eq (by rw [← Except.ok.inj h])
  split at h
  · rename_i hr
    rw [if_pos (.inr hr)]
    exact .of_eq (congrArg Orders.p_orders (errorRequest_effect h).orders_eq)
  · rename_i hc hr
    simp only [Exec.bind_eq_ok] at h
    obtain ⟨s₁, h₁, h⟩ := h
    rw [if_neg (not_or.2 ⟨hc, hr⟩)]
    have hg : Gets { s with msgCounter := s.msgCounter + 1 } s₁ id _ := errorPlaceOrder_gets h₁
    have ho : s'.p_orders = s₁.p_orders := by
      split at h
      · rw [← Except.ok.inj h]
      · exact congrArg Orders.p_orders (learns_of_errorGeneric h).orders_eq
    exact ⟨fun p' hp => hg.packet p' (ho ▸ hp), hg.old⟩

/-- Other events leave the live orders alone. -/
theorem handle_p_orders (ht : ∀ c, e ≠ .turn c) (hrow : e.orderRow = none)
    (h : s.handle e = .ok s') : s'.p_orders = s.p_orders := by
  cases event_path h with
  | turn => exact absurd rfl (ht _)
  | error | orderStatus | openOrder => cases hrow
  | connectionClosed h =>
      have ho := twsConnectionClosed_orders h
      exact congrArg Orders.p_orders ho
  | _ => rfl

/-- **A callback gives the order what it brings** for it. -/
theorem handle_gets (ht : ∀ c, e ≠ .turn c) (h : s.handle e = .ok s') :
    Gets s s' id (s.rowFor id e) := by
  cases hrow : e.orderRow with
  | none =>
      rw [rowFor, hrow]
      exact .of_eq (handle_p_orders ht hrow h)
  | some r =>
      cases e with
      | orderStatus row =>
          have hstatus : ∀ p p' : PacketPlaceOrder,
              (pure (p.appendOrderStatus row) : Exec Assertion _) = .ok p' →
              p'.request = p.request ∧ p'.list = p.list ++ [.t_orderStatus row] := by
            intro p p' hp
            rw [← Except.ok.inj hp]
            exact ⟨rfl, rfl⟩
          have hg : Gets s s' id _ := onOrders_gets (fun h => onOrder_gets hstatus h)
            (twsOrderStatus_eq_ok.1 h).2
          by_cases hq : s.currentRequest.reqType = .ORDERS_REQUEST
          · rw [if_pos hq] at hg
            simpa [rowFor, Event.orderRow, forRequest, hq] using hg
          · rw [if_neg hq] at hg
            simpa [rowFor, Event.orderRow, forRequest, hq] using hg
      | openOrder row =>
          have hopen : ∀ p p' : PacketPlaceOrder, p.appendOpenOrder row = .ok p' →
              p'.request = p.request ∧ p'.list = p.list ++ [.t_openOrder row] := by
            intro p p' hp
            simp only [PacketPlaceOrder.appendOpenOrder, Exec.bind_eq_ok] at hp
            obtain ⟨r, -, hp⟩ := hp
            rw [← Except.ok.inj hp]
            exact ⟨rfl, rfl⟩
          have hg : Gets s s' id _ := onOrders_gets (fun h => onOrder_gets hopen h)
            (twsOpenOrder_eq_ok.1 h).2
          by_cases hq : s.currentRequest.reqType = .ORDERS_REQUEST
          · rw [if_pos hq] at hg
            simpa [rowFor, Event.orderRow, forRequest, hq] using hg
          · rw [if_neg hq] at hg
            simpa [rowFor, Event.orderRow, forRequest, hq] using hg
      | error err =>
          have hg : Gets s s' id _ := twsError_gets h
          by_cases hq : s.connected = false ∨ err.id = s.currentRequest.reqId
          · rw [if_pos hq] at hg
            simpa [rowFor, Event.orderRow, forRequest, hq] using hg
          · rw [if_neg hq] at hg
            simpa [rowFor, Event.orderRow, forRequest, hq] using hg
      | _ => cases hrow

/-! ## Packets and their rows -/

/-- **What is in the packets** of the orders, live or written: the rows
`R` left to them, and a job of the work file. -/
structure RowsKept (all : List PlaceOrder) (R : ℤ → List TwsRow) (s : TwsDL) : Prop where
  live : ∀ id p, s.p_orders[id]? = some p →
    p.IsFor all id ∧ (id ∉ s.p_orders_old → p.list = R id)
  fresh : ∀ id, id ∉ s.p_orders → id ∉ s.p_orders_old → R id = []
  written : ∀ id p, .dumpOrder id p ∈ s.out →
    p.IsFor all id ∧ p.list = R id ∧ p.mode = .CLOSED ∧ id ∈ s.p_orders_old
  left : s.ordersLeft ⊆ all

variable {R : ℤ → List TwsRow}

/-- Nothing is written. -/
theorem Adds.dumpOrder_iff {P : Action → Prop} (h : Adds P s s')
    (hP : ∀ a, P a → a.topic ≠ .written) : .dumpOrder id p ∈ s'.out ↔ .dumpOrder id p ∈ s.out := by
  obtain ⟨l, hl, hl'⟩ := h
  rw [hl, List.mem_append, or_iff_left]
  exact fun hm => hP _ (hl' _ hm) rfl

theorem RowsKept.of_eq (h : RowsKept all R s) (hp : s'.p_orders = s.p_orders)
    (hold : s'.p_orders_old = s.p_orders_old) (hl : s'.ordersLeft ⊆ s.ordersLeft)
    (hw : ∀ id p, .dumpOrder id p ∈ s'.out → .dumpOrder id p ∈ s.out) : RowsKept all R s' where
  live id p hg := by
    rw [hold]
    exact h.live id p (hp ▸ hg)
  fresh id hlive ho := h.fresh id (hp ▸ hlive) (hold ▸ ho)
  written id p hm := by
    rw [hold]
    exact h.written id p (hw id p hm)
  left := fun _ hm => h.left (hl hm)

/-- **A callback** appends what it brings. -/
theorem RowsKept.handle (h : RowsKept all R s) (ht : ∀ c, e ≠ .turn c)
    (hs : s.handle e = .ok s') : RowsKept all (fun id => R id ++ s.rowFor id e) s' := by
  have hk := handle_kept ht hs
  have hlive : ∀ id, id ∈ s'.p_orders ↔ id ∈ s.p_orders := hk.live
  have hold : ∀ id, id ∈ s'.p_orders_old ↔ id ∈ s.p_orders_old := hk.old
  refine ⟨fun id p' hp' => ?_, fun id hl ho => ?_, fun id p hm => ?_, ?_⟩
  · obtain ⟨p, hp, hr, hlist⟩ := (handle_gets ht hs).packet p' hp'
    obtain ⟨⟨pO, hpO, t, hreq⟩, hrows⟩ := h.live id p hp
    refine ⟨⟨pO, hpO, t, hr.trans hreq⟩, fun ho => ?_⟩
    rw [hlist, hrows fun hm => ho ((hold id).2 hm)]
  · have hnone : s.rowFor id e = [] := by
      unfold rowFor
      split
      · exact if_neg fun hc => hl ((hlive id).2 hc.2.1)
      · rfl
    rw [hnone, List.append_nil]
    exact h.fresh id (fun hm => hl ((hlive id).2 hm)) fun hm => ho ((hold id).2 hm)
  · have hm' := ((handle_adds ht hs).dumpOrder_iff fun a ha => by rw [ha]; decide).1 hm
    obtain ⟨hfor, hlist, hmode, ho⟩ := h.written id p hm'
    have hg : Gets s s' id _ := handle_gets ht hs
    have hnil := hg.old.resolve_right fun hn => hn ho
    refine ⟨hfor, ?_, hmode, (hold id).2 ho⟩
    rw [hnil, List.append_nil, hlist]
  · have hleft : s'.ordersLeft = s.ordersLeft :=
      congrArg (fun f => f.placeOrderTodo.left) (handle_fixed ht hs)
    rw [hleft]
    exact h.left

/-- Finishing an order writes its packet, or leaves what is in it. -/
theorem RowsKept.finOrder (h : RowsKept all R s) (hp : s.p_orders[id]? = some p)
    (hs : s.finOrder id p = .ok (s', b)) : RowsKept all R s' := by
  obtain ⟨hfor, hrows⟩ := h.live id p hp
  obtain ⟨p', hlist, hreq, ⟨hm, hold, rfl⟩ | rfl | rfl⟩ := finOrder_effect hs
  · have hfor' : p'.IsFor all id := by
      obtain ⟨pO, hpO, t, hr⟩ := hfor
      exact ⟨pO, hpO, t, hreq.trans hr⟩
    refine ⟨fun a q hq => ?_, fun a hl ho => ?_, fun a q hmem => ?_, h.left⟩
    · dsimp only at hq ⊢
      rw [TreeMap.getElem?_erase] at hq
      split at hq
      · cases hq
      · obtain ⟨hf, hr⟩ := h.live a q hq
        exact ⟨hf, fun ho => hr fun hmem => ho (mem_insert_iff.2 (.inr hmem))⟩
    · have hne : a ≠ id := fun ha => ho (mem_insert_iff.2 (.inl ha))
      exact h.fresh a (fun hmem => hl (mem_erase_iff.2 ⟨hne, hmem⟩))
        fun hmem => ho (mem_insert_iff.2 (.inr hmem))
    · rcases List.mem_append.1 hmem with hmem | hmem
      · obtain ⟨hf, hl, hmode, ho⟩ := h.written a q hmem
        exact ⟨hf, hl, hmode, mem_insert_iff.2 (.inr ho)⟩
      · obtain ⟨rfl, rfl⟩ : a = id ∧ q = p' := by simpa using hmem
        exact ⟨hfor', hlist.trans (hrows hold), hm, mem_insert_iff.2 (.inl rfl)⟩
  · refine ⟨fun a q hq => ?_, fun a hl ho => ?_, h.written, h.left⟩
    · rcases getElem?_insert_cases hq with ⟨rfl, rfl⟩ | ⟨-, hq⟩
      · obtain ⟨pO, hpO, t, hr⟩ := hfor
        exact ⟨⟨pO, hpO, t, hreq.trans hr⟩, fun ho => hlist.trans (hrows ho)⟩
      · exact h.live a q hq
    · exact h.fresh a (fun hmem => hl (mem_insert_iff.2 (.inr hmem))) ho
  · exact h

/-- The loop of `finPlaceOrder`. -/
theorem RowsKept.finOrders : ∀ (l : List (ℤ × PacketPlaceOrder)) {s : TwsDL} {ok : Bool},
    RowsKept all R s → l.Pairwise (fun e e' => e.1 ≠ e'.1) →
    (∀ e ∈ l, s.p_orders[e.1]? = some e.2) → TwsDL.finOrders l (s, ok) = .ok (s', b) →
    RowsKept all R s'
  | [], s, _, h, _, _, hs => by
      rw [← (Prod.mk.inj (Except.ok.inj hs)).1]
      exact h
  | (id, p) :: l, s, ok, h, hd, hmem, hs => by
      simp only [TwsDL.finOrders, Exec.bind_eq_ok] at hs
      obtain ⟨⟨s₁, ok'⟩, h₁, hs⟩ := hs
      obtain ⟨hne, hd⟩ := List.pairwise_cons.1 hd
      refine RowsKept.finOrders l (h.finOrder (hmem _ List.mem_cons_self) h₁) hd ?_ hs
      -- the orders still ahead are as they were
      intro e he
      have hcur := hmem e (List.mem_cons_of_mem _ he)
      have hid : id ≠ e.1 := hne e he
      obtain ⟨p', -, -, ⟨-, -, rfl⟩ | rfl | rfl⟩ := finOrder_effect h₁
      · simpa [TreeMap.getElem?_erase, hid] using hcur
      · simpa [TreeMap.getElem?_insert, hid] using hcur
      · exact hcur

/-- **An order that is sent** gets a new packet, or its job takes the place
of the one before. -/
theorem RowsKept.placeOrder (h : RowsKept all R s) (hs : s.placeOrder = .ok s') :
    RowsKept all R s' := by
  have hw : ∀ id p, .dumpOrder id p ∈ s'.out → .dumpOrder id p ∈ s.out := fun id p =>
    ((placeOrder_adds hs).dumpOrder_iff fun a ha => by rw [ha]; decide).1
  simp only [TwsDL.placeOrder, Exec.bind_eq_ok] at hs
  obtain ⟨todo, htodo, pO, hcur, ⟨s₁, id⟩, h₁, s₂, h₂, hs⟩ := hs
  obtain ⟨hleft, -⟩ := IndexTodo.left_of_checkout htodo hcur
  have hpO : pO ∈ all := h.left (by rw [ordersLeft, hleft]; exact List.mem_cons_self)
  obtain ⟨v, rfl, hid⟩ : ∃ v, s₁ = { s with
      workTodo := { s.workTodo with placeOrderTodo := todo }, tws_valid_orderId := v } ∧
      (pO.orderId ≠ 0 → id = pO.orderId) := by
    simp only [orderIdOf, fetchIncOrderId] at h₁
    split at h₁
    · rename_i hz
      split at h₁
      · obtain ⟨rfl, rfl⟩ := Prod.mk.inj (Except.ok.inj h₁)
        exact ⟨_, rfl, fun hn => absurd hz hn⟩
      · cases h₁
    · obtain ⟨rfl, rfl⟩ := Prod.mk.inj (Except.ok.inj h₁)
      exact ⟨_, rfl, fun _ => rfl⟩
  simp only [recordOrder, Exec.bind_eq_ok] at h₂
  obtain ⟨p, hp, h₂⟩ := h₂
  -- the packet of this order
  have hnew : p.IsFor all id ∧ (id ∉ s.p_orders_old → p.list = R id) := by
    split at hp
    · rename_i hnone
      simp only [PacketPlaceOrder.record, Exec.bind_eq_ok] at hp
      obtain ⟨-, -, hp⟩ := hp
      rw [← Except.ok.inj hp]
      exact ⟨⟨pO, hpO, s.now, rfl⟩, fun ho => (h.fresh id (notMem_of_getElem? hnone) ho).symm⟩
    · rename_i q hq
      obtain ⟨⟨pO', -, t, hreq⟩, hrows⟩ := h.live id q hq
      simp only [PacketPlaceOrder.modify, Exec.bind_eq_ok, Exec.deref_eq_ok] at hp
      obtain ⟨-, -, r, hr, u, hu, hp⟩ := hp
      have hrid : r.orderId = pO.orderId := (Exec.ensure_eq_ok.1 hu)
      have hidr : r.orderId = id := by rw [← Option.some.inj (hreq.symm.trans hr)]
      rw [← Except.ok.inj hp]
      refine ⟨⟨pO, hpO, s.now, ?_⟩, hrows⟩
      rw [← hidr, hrid]
  have hs' : ∃ out, s' = { s with
      workTodo := { s.workTodo with placeOrderTodo := todo }
      tws_valid_orderId := v
      p_orders := s.p_orders.insert id p
      out := out } := by
    rw [← Except.ok.inj hs, ← Except.ok.inj h₂]
    unfold sendOrder
    split
    · exact ⟨_, rfl⟩
    · exact ⟨_, rfl⟩
  obtain ⟨out, rfl⟩ := hs'
  refine ⟨fun a q hq => ?_, fun a hl ho => ?_, fun a q hm => h.written a q (hw a q hm), ?_⟩
  · rcases getElem?_insert_cases hq with ⟨rfl, rfl⟩ | ⟨-, hq⟩
    · exact hnew
    · exact h.live a q hq
  · exact h.fresh a (fun hm => hl (mem_insert_iff.2 (.inr hm))) ho
  · intro a ha
    refine h.left ?_
    rw [ordersLeft, hleft]
    exact List.mem_cons_of_mem _ ha

theorem RowsKept.placeOrders : ∀ (k : ℕ) {s : TwsDL}, RowsKept all R s →
    TwsDL.placeOrders k s = .ok s' → RowsKept all R s'
  | 0, s, h, hs => by
      rw [← Except.ok.inj hs]
      exact h
  | k + 1, s, h, hs => by
      simp only [TwsDL.placeOrders] at hs
      split at hs
      · split at hs
        · simp only [Exec.bind_eq_ok] at hs
          obtain ⟨s₁, h₁, hs⟩ := hs
          have h' : RowsKept all R (s.canSend 1).1 :=
            h.of_eq rfl rfl (List.Subset.refl _) fun _ _ hm => hm
          exact RowsKept.placeOrders k (h'.placeOrder h₁) hs
        · rw [← Except.ok.inj hs]
          exact h.of_eq rfl rfl (List.Subset.refl _) fun _ _ hm => hm
      · rw [← Except.ok.inj hs]
        exact h

theorem RowsKept.waitData {i : ℤ} (h : RowsKept all R s)
    (hs : ({ s with curIdleTime := i } : TwsDL).waitData = .ok s') : RowsKept all R s' := by
  simp only [TwsDL.waitData, Exec.bind_eq_ok] at hs
  obtain ⟨⟨s₁, ok⟩, h₁, hs⟩ := hs
  have hl : ∀ e ∈ s.p_orders.toList, s.p_orders[e.1]? = some e.2 := fun e he =>
    TreeMap.mem_toList_iff_getElem?_eq_some.1 he
  have hd : s.p_orders.toList.Pairwise fun e e' => e.1 ≠ e'.1 :=
    (TreeMap.distinct_keys_toList (t := s.p_orders)).imp fun he h => he (by simp [h])
  have h₂ : RowsKept all R s₁ := RowsKept.finOrders _ (s := { s with curIdleTime := i })
    (h.of_eq rfl rfl (List.Subset.refl _) fun _ _ hm => hm) hd hl h₁
  have ho := waitPacket_orders hs
  have hleft : s'.ordersLeft = s₁.ordersLeft := congrArg (fun o => o.placeOrderTodo.left) ho
  exact h₂.of_eq (congrArg Orders.p_orders ho) (congrArg Orders.p_orders_old ho)
    (by rw [hleft]; exact List.Subset.refl _) fun _ _ =>
      ((waitPacket_adds hs).dumpOrder_iff fun a ha => by rw [ha]; decide).1

/-- What is not about orders. -/
theorem RowsKept.of_adds {P : Action → Prop} (h : RowsKept all R s)
    (hp : s'.orders.p_orders = s.p_orders) (hold : s'.orders.p_orders_old = s.p_orders_old)
    (hl : s'.orders.placeOrderTodo = s.workTodo.placeOrderTodo) (hA : Adds P s s')
    (hP : ∀ a, P a → a.topic ≠ .written) : RowsKept all R s' := by
  have hleft : s'.ordersLeft = s.ordersLeft := congrArg IndexTodo.left hl
  exact h.of_eq hp hold (by rw [hleft]; exact List.Subset.refl _) fun _ _ => (hA.dumpOrder_iff hP).1

/-- **A turn** leaves what is in the packets. -/
theorem RowsKept.turn {c : Connect} (h : RowsKept all R s) (hs : s.turn c = .ok s') :
    RowsKept all R s' := by
  obtain ⟨s₁, i, hpath, rfl⟩ := turn_path hs
  suffices RowsKept all R s₁ from
    this.of_eq rfl rfl (List.Subset.refl _) fun _ _ hm => hm
  cases hpath with
  | connecting _ hw =>
      obtain ⟨r, hr⟩ := waitTwsCon_orders hw
      have hA := waitTwsCon_adds hw
      exact h.of_adds (by rw [hr]; rfl) (by rw [hr]; rfl) (by rw [hr]; rfl) hA
        fun a ha => by rw [ha]; decide
  | waiting _ hw _ => exact h.waitData hw
  | reconnecting _ hw _ _ _ hcon =>
      have ho := connectTws_orders hcon
      exact (h.waitData hw).of_adds (P := fun _ => False) (by rw [ho]; rfl) (by rw [ho]; rfl)
        (by rw [ho]; rfl) (.of_eq (connectTws_out hcon)) fun _ hf => hf.elim
  | @working s₂ _ hw _ _ _ hwork =>
      simp only [work, Exec.bind_eq_ok] at hwork
      obtain ⟨s₃, h₃, s₄, h₄, hwork⟩ := hwork
      have hm := startMktData_orders h₃
      have hn := nextReqType_orders s₃
      have hA₃ := startMktData_adds h₃
      have h' : RowsKept all R { s₃ with workTodo := s₃.workTodo.nextReqType.1 } :=
        (h.waitData hw).of_adds (by rw [hn, hm]; rfl) (by rw [hn, hm]; rfl) (by rw [hn, hm]; rfl)
          hA₃ fun a ha => by rw [ha]; decide
      have h₅ : RowsKept all R s₄ := by
        by_cases ht : s₃.workTodo.nextReqType.2 = .NONE
        · rw [ht] at h₄
          exact h'.placeOrders _ h₄
        · obtain ⟨r, hr⟩ := request_orders ht h₄
          have hA : Adds (·.topic = .request)
              { s₃ with workTodo := s₃.workTodo.nextReqType.1 } s₄ := request_grows ht h₄
          rcases hr with hr | ⟨-, hr⟩
          · exact h'.of_adds (by rw [hr]; rfl) (by rw [hr]; rfl) (by rw [hr]; rfl) hA
              fun a ha => by rw [ha]; decide
          · exact h'.of_adds (by rw [hr]; rfl) (by rw [hr]; rfl) (by rw [hr]; rfl) hA
              fun a ha => by rw [ha]; decide
      obtain ⟨lastError, quit, hdone⟩ := checkDone_effect s₄ s₃.workTodo.nextReqType.2
      rw [← Except.ok.inj hwork, hdone]
      exact h₅.of_eq rfl rfl (List.Subset.refl _) fun _ _ hm => hm

theorem run_rowsKept (h : Run Step (start cfg async jobs) evs s) :
    RowsKept (orderJobs jobs) (fun id => orderRows (start cfg async jobs) id evs) s := by
  refine h.history (I := fun evs s => RowsKept (orderJobs jobs)
    (fun id => orderRows (start cfg async jobs) id evs) s) ?_ ?_
  · have hempty : ∀ id, id ∉ (start cfg async jobs).p_orders := fun _ => TreeMap.not_mem_emptyc
    refine ⟨fun id p hp => absurd (mem_of_getElem? hp) (hempty id), fun _ _ _ => rfl,
      fun id p hm => absurd hm List.not_mem_nil, ?_⟩
    rw [start_ordersLeft]
    exact List.Subset.refl _
  · intro evs s e s' hr hR hstep
    have hlog : (fun id => orderRows (start cfg async jobs) id (evs ++ [e])) =
        fun id => orderRows (start cfg async jobs) id evs ++ s.rowFor id e :=
      funext fun id => hr.entries_snoc (fun _ _ _ => next_eq_of_step) hstep
    rw [hlog]
    by_cases ht : ∃ c, e = .turn c
    · obtain ⟨c, rfl⟩ := ht
      have hnil : ∀ id, s.rowFor id (.turn c) = [] := fun _ => rfl
      simp only [hnil, List.append_nil]
      exact hR.turn hstep.2
    · exact hR.handle (fun c he => ht ⟨c, he⟩) hstep.2

end TwsDL

end Twstools
