import Twstools.Orders.Frame
import Twstools.Common.Maps
/-!
# What a turn does to the orders

`finPlaceOrder` moves the orders that are over from the live ones to the
finished ones. `placeAllOrders` makes orders live under their own numbers
or under the next free ones, as many as the rate limit allows.
-/

namespace Twstools

open Std

/-! ## The orders left -/

theorem RateLimit.canSend_cases (r : RateLimit) (clock : ℤ) :
    (r.canSend clock 1).2 = true ∧
        r.left clock = (r.canSend clock 1).1.left clock + 1 ∨
      (r.canSend clock 1).2 = false ∧ r.left clock = 0 := by
  unfold canSend left
  by_cases ht : r.m_time < clock.tdiv m_interval % 18446744073709551616
  · simp [ht, m_rate]
  · by_cases hc : r.m_count + 1 > m_rate
    · refine .inr ⟨by simp [ht, hc], ?_⟩
      rw [if_neg ht]
      omega
    · refine .inl ⟨by simp [ht, hc], ?_⟩
      simp only [if_neg ht, if_neg hc]
      omega

namespace IndexTodo

variable {α : Type} {t t' : IndexTodo α} {site site' : Assertion} {r : α}

theorem left_of_countLeft (h : ¬ t.countLeft > 0) : t.left = [] := by
  unfold countLeft at h
  exact List.drop_eq_nil_of_le (by omega)

/-- The job checked out is the first one left. -/
theorem left_of_checkout (h : t.checkout site = .ok t') (hr : t'.current site' = .ok r) :
    t.left = r :: t'.left ∧ t'.countLeft = t.countLeft - 1 := by
  obtain ⟨-, rfl⟩ := checkout_eq_ok.1 h
  obtain ⟨h0, hr⟩ := current_eq_ok.1 hr
  dsimp only at h0 hr
  obtain ⟨hlt, rfl⟩ := List.getElem?_eq_some_iff.1 hr
  have hn : (t.curIndex + 1 + 1).toNat = (t.curIndex + 1).toNat + 1 := by omega
  refine ⟨?_, ?_⟩
  · rw [left, left, hn, List.drop_eq_getElem_cons hlt]
  · simp only [countLeft]
    omega

end IndexTodo

namespace PacketPlaceOrder

variable {p p' : PacketPlaceOrder} {e : ReqErr} {now id : ℤ} {r : PlaceOrder}

/-- A packet that was recording can be closed. -/
theorem closeError_of_recorded (hp : p.mode ≠ .CLEAN) (e : ReqErr) :
    ∃ p', p.closeError e = .ok p' ∧ p'.mode = .CLOSED ∧ p'.list = p.list := by
  cases hm : p.mode with
  | CLEAN => exact absurd hm hp
  | RECORD =>
      exact ⟨{ p with mode := .CLOSED, error := e },
        by simp [closeError, PacketBase.closeError, hm], rfl, rfl⟩
  | CLOSED => exact ⟨p, by simp [closeError, PacketBase.closeError, hm, ensure], hm, rfl⟩

theorem record_eq_ok (h : p.record now id r = .ok p') : p'.mode = .RECORD := by
  simp only [record, Exec.bind_eq_ok] at h
  obtain ⟨-, -, h⟩ := h
  rw [← Except.ok.inj h]

theorem modify_eq_ok (h : p.modify now r = .ok p') : p'.mode = .RECORD := by
  simp only [modify, Exec.bind_eq_ok] at h
  obtain ⟨u, hm, -, -, -, -, h⟩ := h
  rw [← Except.ok.inj h]
  exact Exec.ensure_eq_ok.1 hm

end PacketPlaceOrder

namespace TwsDL

variable {s s' : TwsDL} {id : ℤ} {p : PacketPlaceOrder} {b : Bool}

/-! ## Finishing orders -/

/-- An order that is not finished retires when it is outdated. -/
theorem retires_of_not_finished {r : PlaceOrder} {now : ℤ} (hr : p.request = some r)
    (hf : p.finished = false) : p.retires now = outdated now r := by
  rw [PacketPlaceOrder.retires, if_neg (by simp [hf]), hr]
  rfl

/-- **Finished or closed now**, an order retires by its error. -/
theorem retires_of_over {p' : PacketPlaceOrder} {r : PlaceOrder} {now : ℤ}
    (hr : p.request = some r) (hover : p.finished = true ∨ outdated now r = true)
    (hp' : (if p.finished then pure p else p.closeError .NONE) = .ok p') :
    p'.mode ≠ .CLEAN ∧ p.retires now =
      decide (p'.error = .NONE ∨ p'.error = .REQUEST ∨ p'.error = .TIMEOUT) := by
  by_cases hf : p.finished
  · rw [if_pos hf] at hp'
    obtain rfl := Except.ok.inj hp'
    refine ⟨?_, if_pos hf⟩
    have hm : p.mode = .CLOSED := of_decide_eq_true hf
    rw [hm]
    exact Mode.noConfusion
  · rw [if_neg hf] at hp'
    have hm : p.mode ≠ .CLOSED := fun hm => hf (decide_eq_true hm)
    rcases PacketPlaceOrder.closeError_eq_ok hp' with ⟨-, rfl⟩ | ⟨hc, -⟩
    · refine ⟨Mode.noConfusion, ?_⟩
      rw [retires_of_not_finished hr (by simpa using hf), hover.resolve_left hf]
      rfl
    · exact absurd hc hm

/-- An order is moved, or at most closed. -/
theorem finOrder_cases (h : s.finOrder id p = .ok (s', b)) :
    p.retires s.now = true ∧ (∃ p' out, s' = { s with
        out := out
        p_orders_old := s.p_orders_old.insert id p'
        p_orders := s.p_orders.erase id }) ∨
      p.retires s.now = false ∧ (s' = s ∨ ∃ p' : PacketPlaceOrder, p'.mode ≠ .CLEAN ∧
        s' = { s with p_orders := s.p_orders.insert id p' }) := by
  simp only [finOrder, Exec.bind_eq_ok, Exec.deref_eq_ok] at h
  obtain ⟨r, hr, -, -, h⟩ := h
  split at h
  · rename_i hover
    simp only [Exec.bind_eq_ok] at h
    obtain ⟨p', hp', h⟩ := h
    obtain ⟨hm, hp⟩ := retires_of_over hr hover hp'
    have moved : (p'.error = .NONE ∨ p'.error = .REQUEST ∨ p'.error = .TIMEOUT) →
        (∃ u, ensure (id ∉ s.p_orders_old) Assertion.finPlaceOrderOld = .ok u ∧
          (.ok ({ s.act (.dumpOrder id p') with
            p_orders_old := s.p_orders_old.insert id p'
            p_orders := s.p_orders.erase id }, true) : Exec Assertion _) = .ok (s', b)) →
        p.retires s.now = true ∧ (∃ p' out, s' = { s with
          out := out
          p_orders_old := s.p_orders_old.insert id p'
          p_orders := s.p_orders.erase id }) := by
      rintro he ⟨-, -, h⟩
      obtain ⟨rfl, rfl⟩ := Prod.mk.inj (Except.ok.inj h)
      exact ⟨hp.trans (decide_eq_true he), p', _, rfl⟩
    have kept : ¬ (p'.error = .NONE ∨ p'.error = .REQUEST ∨ p'.error = .TIMEOUT) →
        s' = { s with p_orders := s.p_orders.insert id p' } →
        p.retires s.now = false ∧ (s' = s ∨ ∃ p' : PacketPlaceOrder, p'.mode ≠ .CLEAN ∧
          s' = { s with p_orders := s.p_orders.insert id p' }) :=
      fun he hs => ⟨hp.trans (decide_eq_false he), .inr ⟨p', hm, hs⟩⟩
    have he : p'.getError = p'.error := rfl
    rw [he] at h
    cases hpe : p'.error with
    | NONE | REQUEST | TIMEOUT =>
        rw [hpe] at h
        simp only [Exec.bind_eq_ok] at h
        exact .inl (moved (by simp [hpe]) h)
    | NODATA | NAV | TWSCON =>
        rw [hpe] at h
        exact .inr (kept (by simp [hpe]) (Prod.mk.inj (Except.ok.inj h)).1.symm)
  · rename_i hover
    obtain ⟨rfl, rfl⟩ := Prod.mk.inj (Except.ok.inj h)
    have hf : p.finished = false := by simpa using fun hf => hover (.inl hf)
    have hlive : outdated s.now r = false := by simpa using fun ho => hover (.inr ho)
    exact .inr ⟨(retires_of_not_finished hr hf).trans hlive, .inl rfl⟩

/-- What one iteration does to the numbers. -/
theorem finOrder_orders {a : ℤ} (h : s.finOrder a p = .ok (s', b)) (ha : a ∈ s.p_orders) :
    (∀ id, id ∈ s'.p_orders ↔ id ∈ s.p_orders ∧ (id = a → p.retires s.now = false)) ∧
      (∀ id, id ∈ s'.p_orders_old ↔ id ∈ s.p_orders_old ∨ id = a ∧ p.retires s.now = true) ∧
      s'.now = s.now ∧ (s.orders.Recorded → s'.orders.Recorded) := by
  rcases finOrder_cases h with ⟨hr, p', out, rfl⟩ | ⟨hr, rfl | ⟨p', hp', rfl⟩⟩
  · refine ⟨fun id => ?_, fun id => ?_, rfl, forall_erase⟩
    · rw [mem_erase_iff]
      simp [hr, and_comm]
    · rw [mem_insert_iff]
      simp [hr, or_comm]
  · exact ⟨by simp [hr], by simp [hr], rfl, fun hR => hR⟩
  · refine ⟨fun id => ?_, by simp [hr], rfl, forall_insert hp'⟩
    rw [mem_insert_iff]
    have hid : id = a → id ∈ s.p_orders := fun h => h ▸ ha
    simpa [hr] using hid

/-- The loop of `finPlaceOrder`: which orders are live after it and which
are finished. -/
theorem finOrders_orders : ∀ (l : List (ℤ × PacketPlaceOrder)) {s : TwsDL} {ok : Bool},
    l.Pairwise (fun e e' => e.1 ≠ e'.1) → (∀ e ∈ l, e.1 ∈ s.p_orders) →
    finOrders l (s, ok) = .ok (s', b) →
    (∀ id, id ∈ s'.p_orders ↔ id ∈ s.p_orders ∧ ∀ p, (id, p) ∈ l → p.retires s.now = false) ∧
      (∀ id, id ∈ s'.p_orders_old ↔
        id ∈ s.p_orders_old ∨ ∃ p, (id, p) ∈ l ∧ p.retires s.now = true) ∧
      (s.orders.Recorded → s'.orders.Recorded)
  | [], _, _, _, _, h => by
      obtain ⟨rfl, rfl⟩ := Prod.mk.inj (Except.ok.inj h)
      simp
  | (a, p) :: l, s, ok, hd, hmem, h => by
      simp only [finOrders, Exec.bind_eq_ok] at h
      obtain ⟨⟨s₁, ok'⟩, h₁, h⟩ := h
      obtain ⟨hne, hd⟩ := List.pairwise_cons.1 hd
      obtain ⟨hlive₁, hold₁, hnow, hrec₁⟩ := finOrder_orders h₁ (hmem (a, p) List.mem_cons_self)
      -- the orders still ahead have other numbers
      have hmem₁ : ∀ e ∈ l, e.1 ∈ s₁.p_orders := fun e he =>
        (hlive₁ e.1).2 ⟨hmem e (List.mem_cons_of_mem _ he), fun h => absurd h.symm (hne e he)⟩
      obtain ⟨hlive, hold, hrec⟩ := finOrders_orders l hd hmem₁ h
      rw [hnow] at hlive hold
      refine ⟨fun id => ?_, fun id => ?_, fun hR => hrec (hrec₁ hR)⟩
      · rw [hlive, hlive₁]
        simp only [List.mem_cons, Prod.mk.injEq, or_imp, forall_and, and_imp, and_assoc]
        simp
      · rw [hold, hold₁]
        simp only [List.mem_cons, Prod.mk.injEq, or_and_right, exists_or, or_assoc]
        simp

theorem retires_eq_true {o : Orders} :
    o.retires id = true ↔ ∃ p, o.p_orders[id]? = some p ∧ p.retires o.now = true := by
  simp [Orders.retires, Option.any_eq_true]

/-- **What `finPlaceOrder` does.** -/
theorem finPlaceOrder_finished (h : s.finPlaceOrder = .ok (s', b)) :
    s.orders.Finished s'.orders := by
  have hl : ∀ id p, (id, p) ∈ s.p_orders.toList ↔ s.p_orders[id]? = some p := fun id p =>
    TreeMap.mem_toList_iff_getElem?_eq_some
  have hd : s.p_orders.toList.Pairwise fun e e' => e.1 ≠ e'.1 :=
    (TreeMap.distinct_keys_toList (t := s.p_orders)).imp fun he h => he (by simp [h])
  obtain ⟨hlive, hold, hrec⟩ := finOrders_orders _ hd
    (fun e he => mem_of_getElem? ((hl e.1 e.2).1 he)) h
  refine ⟨fun id => (hlive id).trans (and_congr_right fun _ => ?_),
    fun id => (hold id).trans (or_congr_right ?_), hrec, ?_⟩
  · rw [← Bool.not_eq_true, retires_eq_true]
    simp [hl, orders]
  · rw [retires_eq_true]
    simp [hl, orders]
  · rw [finOrders_frame _ h]
    rfl

/-! ## Placing orders -/

theorem orderIds_nil (n : ℕ) (id : ℤ) : orderIds n id [] = [] := by
  cases n <;> rfl

/-- **One order more is live**, under its own number or the next one. -/
theorem placeOrder_orders (h : s.placeOrder = .ok s') : ∃ (pO : PlaceOrder) (p : PacketPlaceOrder),
    p.mode ≠ .CLEAN ∧
    s.workTodo.placeOrderTodo.left = pO :: s'.workTodo.placeOrderTodo.left ∧
    s'.workTodo.placeOrderTodo.countLeft = s.workTodo.placeOrderTodo.countLeft - 1 ∧
    s'.orders = { s.orders with
      p_orders := s.p_orders.insert (if pO.orderId = 0 then s.tws_valid_orderId else pO.orderId) p
      placeOrderTodo := s'.workTodo.placeOrderTodo
      tws_valid_orderId :=
        if pO.orderId = 0 then s.tws_valid_orderId + 1 else s.tws_valid_orderId } := by
  simp only [placeOrder, Exec.bind_eq_ok] at h
  obtain ⟨todo, htodo, pO, hcur, ⟨s₁, id⟩, h₁, s₂, h₂, h⟩ := h
  obtain ⟨hleft, hcount⟩ := IndexTodo.left_of_checkout htodo hcur
  simp only [recordOrder, Exec.bind_eq_ok] at h₂
  obtain ⟨p, hp, h₂⟩ := h₂
  have hmode : p.mode ≠ .CLEAN := by
    split at hp
    · rw [PacketPlaceOrder.record_eq_ok hp]
      exact Mode.noConfusion
    · rw [PacketPlaceOrder.modify_eq_ok hp]
      exact Mode.noConfusion
  obtain ⟨out, hout⟩ : ∃ out, s' = { s₁ with p_orders := s₁.p_orders.insert id p, out := out } := by
    rw [← Except.ok.inj h, ← Except.ok.inj h₂]
    unfold sendOrder
    split
    · exact ⟨_, rfl⟩
    · exact ⟨_, rfl⟩
  refine ⟨pO, p, hmode, ?_⟩
  rw [hout, hleft]
  simp only [orderIdOf, fetchIncOrderId] at h₁
  split at h₁
  · rename_i hz
    rw [if_pos hz, if_pos hz]
    split at h₁
    · obtain ⟨rfl, rfl⟩ := Prod.mk.inj (Except.ok.inj h₁)
      exact ⟨rfl, hcount, rfl⟩
    · cases h₁
  · rename_i hz
    rw [if_neg hz, if_neg hz]
    obtain ⟨rfl, rfl⟩ := Prod.mk.inj (Except.ok.inj h₁)
    exact ⟨rfl, hcount, rfl⟩

theorem placed_of_nil {o : Orders} {r : RateLimit} (h : o.nextIds = []) :
    o.Placed { o with rate_limit := r } :=
  ⟨by simp [h], rfl, fun hR => hR, rfl, rfl, rfl⟩

/-- One order is placed, and then those after it. -/
theorem placed_cons {o o₁ o' : Orders} {a : ℤ} {p : PacketPlaceOrder} (hp : p.mode ≠ .CLEAN)
    (hn : o.nextIds = a :: o₁.nextIds) (hlive : o₁.p_orders = o.p_orders.insert a p)
    (ho : o₁.p_orders_old = o.p_orders_old ∧ o₁.mktDataTodo = o.mktDataTodo ∧
      o₁.fuckme = o.fuckme ∧ o₁.reqId = o.reqId) (h : o₁.Placed o') : o.Placed o' where
  live id := by
    rw [h.live, hlive, mem_insert_iff, hn, List.mem_cons, or_comm (a := id = a), or_assoc]
  old := h.old.trans ho.1
  recorded hR := h.recorded (by unfold Orders.Recorded; rw [hlive]; exact forall_insert hp hR)
  mktDataTodo := h.mktDataTodo.trans ho.2.1
  fuckme := h.fuckme.trans ho.2.2.1
  reqId := h.reqId.trans ho.2.2.2

/-- The loop of `placeAllOrders`. -/
theorem placeOrders_placed : ∀ (k : ℕ) {s : TwsDL}, s.workTodo.placeOrderTodo.countLeft ≤ k →
    placeOrders k s = .ok s' → s.orders.Placed s'.orders := by
  -- without jobs no order is placed
  have none : ∀ s : TwsDL, ¬ s.workTodo.placeOrderTodo.countLeft > 0 → s.orders.Placed s.orders :=
    fun s hc => placed_of_nil (r := s.rate_limit) <| by
      have hl : s.orders.placeOrderTodo.left = [] := IndexTodo.left_of_countLeft hc
      rw [Orders.nextIds, hl, orderIds_nil]
  intro k
  induction k with
  | zero =>
      intro s hk h
      rw [← Except.ok.inj h]
      exact none s (by omega)
  | succ k ih =>
      intro s hk h
      simp only [placeOrders] at h
      split at h
      · rcases RateLimit.canSend_cases s.rate_limit s.now with ⟨hok, hn⟩ | ⟨hok, hn⟩
        · rw [canSend, if_pos hok] at h
          simp only [Exec.bind_eq_ok] at h
          obtain ⟨s₁, h₁, h⟩ := h
          obtain ⟨pO, p, hp, hleft, hcount, ho⟩ := placeOrder_orders h₁
          dsimp only at hleft hcount
          refine placed_cons (a := if pO.orderId = 0 then s.tws_valid_orderId else pO.orderId)
            hp ?_ ?_ ?_ (ih (by omega) h)
          · have hs : s.orders.nextIds = orderIds (s.rate_limit.left s.now) s.tws_valid_orderId
              s.workTodo.placeOrderTodo.left := rfl
            rw [hs, hn, hleft, orderIds, ho, Orders.nextIds]
            split_ifs
            · rfl
            · rfl
          · rw [ho]
            rfl
          · rw [ho]
            exact ⟨rfl, rfl, rfl, rfl⟩
        · rw [canSend, if_neg (by simp [hok])] at h
          rw [← Except.ok.inj h]
          have hs : s.orders.nextIds = orderIds (s.rate_limit.left s.now) s.tws_valid_orderId
            s.workTodo.placeOrderTodo.left := rfl
          refine placed_of_nil ?_
          rw [hs, hn]
          rfl
      · rename_i hc
        rw [← Except.ok.inj h]
        exact none s hc

/-- **What `placeAllOrders` does.** -/
theorem placeAllOrders_placed (h : s.placeAllOrders = .ok s') : s.orders.Placed s'.orders :=
  placeOrders_placed _ (Int.self_le_toNat _) h

end TwsDL

end Twstools
