import Twstools.Orders.Disjoint
/-!
# The numbers of automatic orders

An order without a number gets the one that TWS has handed out, and the next
order the number after it. The numbers that other jobs bring along are not
looked at. So an automatic order gets a number of its own exactly when the
number that comes next has not been given yet.
-/

namespace Twstools

open Std

/-! ## Giving numbers -/

/-- What the numbers of orders depend on: TWS hands out the next one, and an
order is placed under its own number, or under 0 if it has none. -/
inductive NumberInput where
  | handOut (id : ℤ)
  | order (orderId : ℤ)

namespace NumberInput

/-- The number that comes next, and the numbers given before. -/
def give : ℤ × List ℤ → NumberInput → ℤ × List ℤ
  | (_, ids), .handOut id => (id, ids)
  | (next, ids), .order orderId =>
      if orderId = 0 then (next + 1, ids ++ [next]) else (next, ids ++ [orderId])

/-- The number that comes next: the last one handed out, and one more for
each order since that had none. -/
def nextNumber (l : List NumberInput) : ℤ := (l.foldl give (0, [])).1

/-- The numbers given to orders: their own, and those that came next. -/
def given (l : List NumberInput) : List ℤ := (l.foldl give (0, [])).2

/-- The number that comes next has not been given. -/
def Fresh (l : List NumberInput) : Prop := nextNumber l ∉ given l

instance {l : List NumberInput} : Decidable (Fresh l) := inferInstanceAs (Decidable (_ ∉ _))

variable {l : List NumberInput} {id : ℤ}

theorem nextNumber_handOut : nextNumber (l ++ [.handOut id]) = id := by
  rw [nextNumber, List.foldl_concat]
  rfl

theorem given_handOut : given (l ++ [.handOut id]) = given l := by
  rw [given, List.foldl_concat]
  rfl

theorem nextNumber_order :
    nextNumber (l ++ [.order id]) = if id = 0 then nextNumber l + 1 else nextNumber l := by
  rw [nextNumber, List.foldl_concat, give]
  split_ifs
  · rfl
  · rfl

theorem given_order :
    given (l ++ [.order id]) = given l ++ [if id = 0 then nextNumber l else id] := by
  rw [given, List.foldl_concat, give]
  split_ifs
  · rfl
  · rfl

end NumberInput

open NumberInput

/-! ## Orders and the numbers given -/

/-- **The orders, live or finished, are under the numbers given**, and the
counter is at the one that comes next. -/
structure Orders.Accounted (o : Orders) (l : List NumberInput) : Prop where
  orders : ∀ id, id ∈ o.p_orders ∨ id ∈ o.p_orders_old ↔ id ∈ given l
  next : o.tws_valid_orderId = nextNumber l

namespace TwsDL

variable {s s' s₀ t : TwsDL} {e : Event} {evs : List Event} {cfg : ConfigTwsdo} {async : Bool}
variable {jobs : List Job} {l : List NumberInput} {o o' : Orders} {pO : PlaceOrder} {n i : ℕ}

/-- The orders that have not been placed. -/
def ordersLeft (s : TwsDL) : List PlaceOrder := s.workTodo.placeOrderTodo.left

/-- The inputs of one event: TWS hands out a number, or orders are placed. -/
def inputs (s : TwsDL) (e : Event) (s' : TwsDL) : List NumberInput :=
  match e with
  | .nextValidId id => if s.state = .WAIT_TWS_CON then [.handOut id] else []
  | .turn _ => (s.ordersLeft.take (s.ordersLeft.length - s'.ordersLeft.length)).map
      fun pO => .order pO.orderId
  | _ => []

/-- The inputs of the events of a run. -/
def numberInputs (s : TwsDL) : List Event → List NumberInput
  | [] => []
  | e :: evs =>
      match s.next e with
      | none => []
      | some s' => s.inputs e s' ++ s'.numberInputs evs

theorem next_of_step (h : s.Step e s') : s.next e = some s' := by
  rw [next, h.1, h.2]
  rfl

@[simp] theorem numberInputs_nil : s.numberInputs [] = [] := rfl

theorem numberInputs_cons (h : s.Step e s') :
    s.numberInputs (e :: evs) = s.inputs e s' ++ s'.numberInputs evs := by
  rw [numberInputs, next_of_step h]

theorem numberInputs_append (h : Run Step s₀ evs s) (evs' : List Event) :
    s₀.numberInputs (evs ++ evs') = s₀.numberInputs evs ++ s.numberInputs evs' := by
  induction h generalizing evs' with
  | nil => rfl
  | snoc _ hstep ih =>
      rw [List.append_assoc, List.singleton_append, ih, ih, numberInputs_cons hstep,
        numberInputs_cons hstep, numberInputs_nil, List.append_nil, List.append_assoc]

theorem numberInputs_snoc (h : Run Step s₀ evs s) (hs : s.Step e s') :
    s₀.numberInputs (evs ++ [e]) = s₀.numberInputs evs ++ s.inputs e s' := by
  rw [numberInputs_append h, numberInputs_cons hs, numberInputs_nil, List.append_nil]

/-! ## What is accounted for stays so -/

theorem Accounted.of_eq (h : o.Accounted l) (hlive : o'.p_orders = o.p_orders)
    (hold : o'.p_orders_old = o.p_orders_old)
    (hn : o'.tws_valid_orderId = o.tws_valid_orderId) : o'.Accounted l where
  orders id := by
    rw [hlive, hold]
    exact h.orders id
  next := hn.trans h.next

/-- Finishing an order moves it. -/
theorem finished_accounted (h : o.Finished o') (ha : o.Accounted l) : o'.Accounted l where
  orders id := by
    rw [← ha.orders id, h.live, h.old]
    cases hr : o.retires id with
    | false => simp
    | true =>
        obtain ⟨p, hp, -⟩ := retires_eq_true.1 hr
        have hid : id ∈ o.p_orders := mem_of_getElem? hp
        simp [hid]
  next := by
    rw [h.rest]
    exact ha.next

theorem handled_accounted (h : o.Handled o') (ha : o.Accounted l) : o'.Accounted l where
  orders id := by
    have hk := handled_kept h
    rw [hk.live, hk.old]
    exact ha.orders id
  next := by
    rw [← ha.next]
    cases h with
    | none | clock | limit | live | old => rfl

theorem handOut_accounted (id : ℤ) (ha : o.Accounted l) :
    Orders.Accounted { o with tws_valid_orderId := id } (l ++ [.handOut id]) where
  orders a := by
    rw [given_handOut]
    exact ha.orders a
  next := nextNumber_handOut.symm

/-- **An order placed is accounted for** under the number it was given. -/
theorem placeOrder_accounted (h : s.placeOrder = .ok s') (ha : s.orders.Accounted l) :
    ∃ pO, s.ordersLeft = pO :: s'.ordersLeft ∧
      s'.orders.Accounted (l ++ [.order pO.orderId]) := by
  obtain ⟨pO, p, -, hleft, -, ho⟩ := placeOrder_orders h
  -- a number given again to a live order leaves the keys as they are
  refine ⟨pO, hleft, fun id => ?_, ?_⟩
  · have hold : s'.orders.p_orders_old = s.p_orders_old := by rw [ho]; rfl
    have hlive : s'.orders.p_orders = s.p_orders.insert
        (if pO.orderId = 0 then s.tws_valid_orderId else pO.orderId) p := by rw [ho]
    have hn : s.tws_valid_orderId = nextNumber l := ha.next
    have hid : id ∈ s.p_orders ∨ id ∈ s.p_orders_old ↔ id ∈ given l := ha.orders id
    rw [hold, hlive, given_order, List.mem_append, List.mem_singleton, mem_insert_iff, ← hid, hn]
    tauto
  · rw [ho, nextNumber_order, ← ha.next]
    rfl

/-! ## Placing orders -/

/-- The states in which the loop of `placeAllOrders` calls `placeOrder`. -/
def placeCalls : ℕ → TwsDL → List TwsDL
  | 0, _ => []
  | n + 1, s =>
      if s.workTodo.placeOrderTodo.countLeft > 0 then
        let (s, ok) := s.canSend 1
        if ok then
          s :: match s.placeOrder with
            | .ok s => placeCalls n s
            | .error _ => []
        else []
      else []

/-- The state in which the next turn calls `placeAllOrders`, if it does. -/
def ordersState (s : TwsDL) : Option TwsDL := do
  guard (s.state = .IDLE)
  let s ← ({ s with curIdleTime := -1 } : TwsDL).waitData.toOption
  guard (s.quit = false ∧ s.currentRequest.reqType = .NONE ∧ s.connected = true)
  let s ← s.startMktData.toOption
  guard (s.workTodo.nextReqType.2 = .NONE)
  pure { s with workTodo := s.workTodo.nextReqType.1 }

/-- The states in which the next turn calls `placeOrder`. -/
def orderCalls (s : TwsDL) : List TwsDL :=
  match s.ordersState with
  | none => []
  | some s => placeCalls s.workTodo.placeOrderTodo.countLeft.toNat s

/-- Each call accounts for the orders placed before it. -/
theorem placeCalls_accounted : ∀ (n : ℕ) {s : TwsDL} {l : List NumberInput} {i : ℕ},
    s.orders.Accounted l → (placeCalls n s)[i]? = some t →
    t.orders.Accounted (l ++ (s.ordersLeft.take i).map fun pO => .order pO.orderId) := by
  intro n
  induction n with
  | zero =>
      intro s l i _ h
      cases h
  | succ n ih =>
      intro s l i ha h
      have ha' : (s.canSend 1).1.orders.Accounted l := Accounted.of_eq ha rfl rfl rfl
      simp only [placeCalls] at h
      split at h
      · split at h
        · cases i with
          | zero =>
              obtain rfl := Option.some.inj h
              simpa using ha'
          | succ i =>
              rw [List.getElem?_cons_succ] at h
              split at h
              · rename_i s₁ h₁
                obtain ⟨pO, hleft, ha₁⟩ := placeOrder_accounted h₁ ha'
                have hs : s.ordersLeft = pO :: s₁.ordersLeft := hleft
                have hi := ih ha₁ h
                rw [List.append_assoc] at hi
                rw [hs]
                exact hi
              · cases h
        · cases h
      · cases h

/-- The loop accounts for the orders it has placed. -/
theorem placeOrders_accounted : ∀ (n : ℕ) {s : TwsDL} {l : List NumberInput},
    s.orders.Accounted l → placeOrders n s = .ok s' →
    ∃ placed, s.ordersLeft = placed ++ s'.ordersLeft ∧
      s'.orders.Accounted (l ++ placed.map fun pO => .order pO.orderId) := by
  intro n
  induction n with
  | zero =>
      intro s l ha h
      obtain rfl := Except.ok.inj h
      exact ⟨[], rfl, by simpa using ha⟩
  | succ n ih =>
      intro s l ha h
      have ha' : (s.canSend 1).1.orders.Accounted l := Accounted.of_eq ha rfl rfl rfl
      simp only [placeOrders] at h
      split at h
      · split at h
        · simp only [Exec.bind_eq_ok] at h
          obtain ⟨s₁, h₁, h⟩ := h
          obtain ⟨pO, hleft, ha₁⟩ := placeOrder_accounted h₁ ha'
          have hs : s.ordersLeft = pO :: s₁.ordersLeft := hleft
          obtain ⟨placed, hl, ha₂⟩ := ih ha₁ h
          refine ⟨pO :: placed, by rw [hs, hl, List.cons_append], ?_⟩
          rw [List.append_assoc] at ha₂
          exact ha₂
        · obtain rfl := Except.ok.inj h
          exact ⟨[], rfl, by simpa using ha'⟩
      · obtain rfl := Except.ok.inj h
        exact ⟨[], rfl, by simpa using ha⟩

theorem ordersState_eq_some : s.ordersState = some t ↔ s.state = .IDLE ∧
    ∃ s₁, ({ s with curIdleTime := -1 } : TwsDL).waitData = .ok s₁ ∧
      (s₁.quit = false ∧ s₁.currentRequest.reqType = .NONE ∧ s₁.connected = true) ∧
      ∃ s₂, s₁.startMktData = .ok s₂ ∧ s₂.workTodo.nextReqType.2 = .NONE ∧
        { s₂ with workTodo := s₂.workTodo.nextReqType.1 } = t := by
  simp [ordersState, Option.bind_eq_some_iff, Option.guard_eq_some', Exec.toOption_eq_some]

/-- Before orders are placed, others are finished. -/
theorem ordersState_orders (h : s.ordersState = some t) :
    ∃ o, s.orders.Finished o ∧ t.orders = o.started := by
  obtain ⟨-, s₂, hw, -, s₃, h₃, -, rfl⟩ := ordersState_eq_some.1 h
  refine ⟨s₂.orders, (waitData_orders hw).1, ?_⟩
  rw [nextReqType_orders, startMktData_orders h₃]

/-- In that state the same orders are left, and accounted for. -/
theorem ordersState_accounted (h : s.ordersState = some t) (ha : s.orders.Accounted l) :
    t.ordersLeft = s.ordersLeft ∧ t.orders.Accounted l := by
  obtain ⟨o, hF, ho⟩ := ordersState_orders h
  constructor
  · have htodo : t.orders.placeOrderTodo = s.orders.placeOrderTodo := by
      rw [ho, hF.rest]
      rfl
    exact congrArg IndexTodo.left htodo
  · rw [ho]
    exact Accounted.of_eq (finished_accounted hF ha) rfl rfl rfl

/-- **Orders are placed from that state.** -/
theorem turn_places {c : Connect} (h : s.turn c = .ok s') (hup : s.upcoming = some .NONE) :
    ∃ t t', s.ordersState = some t ∧ t.placeAllOrders = .ok t' ∧ s'.orders = t'.orders := by
  obtain ⟨s₁, i, hpath, rfl⟩ := turn_path h
  cases hpath with
  | connecting hst hw =>
      have hnone : s.upcoming = none := upcoming_of_waiting hst
      rw [hnone] at hup
      cases hup
  | waiting _ hw hq =>
      rw [upcoming_of_waited hw (.inr hq)] at hup
      cases hup
  | reconnecting _ hw _ _ hcon _ =>
      rw [upcoming_of_waited hw (.inl hcon)] at hup
      cases hup
  | @working s₂ hst hw hquit hn hcon hwork =>
      rw [(waitData_orders hw).2, if_pos ⟨hst, hcon, hquit, hn⟩] at hup
      simp only [work, Exec.bind_eq_ok] at hwork
      obtain ⟨s₃, h₃, s₄, h₄, hwork⟩ := hwork
      have ht : s₃.workTodo.nextReqType.2 = .NONE := by
        rw [startMktData_workTodo h₃]
        exact Option.some.inj hup
      rw [ht] at h₄
      have hst' := ordersState_eq_some.2 ⟨hst, s₂, hw, ⟨hquit, hn, hcon⟩, s₃, h₃, ht, rfl⟩
      have ho : s₁.orders = s₄.orders := by
        rw [← Except.ok.inj hwork, checkDone_orders]
      exact ⟨_, s₄, hst', h₄, ho⟩

/-- **A turn accounts for the orders it places.** -/
theorem turn_accounted {c : Connect} (ha : s.orders.Accounted l) (h : s.turn c = .ok s') :
    s'.orders.Accounted (l ++ s.inputs (.turn c) s') := by
  -- the todo list is the same, so nothing was placed
  have idle : s'.orders.placeOrderTodo = s.orders.placeOrderTodo → s'.orders.Accounted l →
      s'.orders.Accounted (l ++ s.inputs (.turn c) s') := fun htodo ha' => by
    have hl : s'.ordersLeft = s.ordersLeft := congrArg IndexTodo.left htodo
    simpa [inputs, hl] using ha'
  have ht := turn_orders h
  generalize ho' : s'.orders = o' at ht idle
  cases ht with
  | connect r _ => exact idle rfl (Accounted.of_eq ha rfl rfl rfl)
  | wait hF _ =>
      refine idle ?_ (finished_accounted hF ha)
      rw [hF.rest]
  | putOff hF _ _ | ask hF _ _ _ =>
      refine idle ?_ (Accounted.of_eq (finished_accounted hF ha) rfl rfl rfl)
      rw [hF.rest]
      rfl
  | place hF hup hP =>
      obtain ⟨t, t', hst, hpl, ho⟩ := turn_places h hup
      obtain ⟨hl, hat⟩ := ordersState_accounted hst ha
      obtain ⟨placed, hleft, ha'⟩ := placeOrders_accounted _ hat hpl
      have hl' : s'.ordersLeft = t'.ordersLeft := congrArg (fun o => o.placeOrderTodo.left) ho
      -- what is not left any more was placed
      have hi : s.inputs (.turn c) s' = placed.map fun pO => .order pO.orderId := by
        simp [inputs, ← hl, hl', hleft]
      rw [hi, ← ho', ho]
      exact ha'

/-- **Every step accounts for the numbers it gives.** -/
theorem step_accounted (ha : s.orders.Accounted l) (h : s.Step e s') :
    s'.orders.Accounted (l ++ s.inputs e s') := by
  by_cases ht : ∃ c, e = .turn c
  · obtain ⟨c, rfl⟩ := ht
    exact turn_accounted ha h.2
  by_cases hn : ∃ id, e = .nextValidId id
  · obtain ⟨id, rfl⟩ := hn
    have ho := nextValidId_orders h.2
    rw [ho, inputs]
    split_ifs
    · exact handOut_accounted id ha
    · rw [List.append_nil]
      exact Accounted.of_eq ha rfl rfl rfl
  · have hi : s.inputs e s' = [] := by
      unfold inputs
      split
      · exact absurd ⟨_, rfl⟩ hn
      · exact absurd ⟨_, rfl⟩ ht
      · rfl
    rw [hi, List.append_nil]
    exact handled_accounted (handle_handled (fun c hc => ht ⟨c, hc⟩) (fun id hid => hn ⟨id, hid⟩)
      h.2) ha

theorem start_accounted : (start cfg async jobs).orders.Accounted [] where
  orders id := by
    have hlive : id ∉ (start cfg async jobs).orders.p_orders := TreeMap.not_mem_emptyc
    have hold : id ∉ (start cfg async jobs).orders.p_orders_old := TreeMap.not_mem_emptyc
    simp [hlive, hold, given]
  next := rfl

theorem run_accounted (h : Run Step (start cfg async jobs) evs s) :
    s.orders.Accounted ((start cfg async jobs).numberInputs evs) := by
  refine h.history (I := fun evs s => s.orders.Accounted
    ((start cfg async jobs).numberInputs evs)) start_accounted fun evs s e s' hr ha hs => ?_
  rw [numberInputs_snoc hr hs]
  exact step_accounted ha hs

/-! ## Automatic orders -/

/-- The job `placeOrder` takes. -/
def orderJob (s : TwsDL) : Exec Assertion PlaceOrder := do
  let todo ← s.workTodo.placeOrderTodo.checkout
  todo.current

/-- **An automatic order gets a number and a packet of its own**: no order,
live or finished, is under the number that comes next, and `placeOrder`
opens a new packet under it. The number must not overflow. -/
structure OwnPacket (s : TwsDL) (pO : PlaceOrder) : Prop where
  live : s.tws_valid_orderId ∉ s.p_orders
  old : s.tws_valid_orderId ∉ s.p_orders_old
  opened : s.tws_valid_orderId < 9223372036854775807 → ∃ s', s.placeOrder = .ok s' ∧
    s'.p_orders = s.p_orders.insert s.tws_valid_orderId
      { mode := .RECORD
        request := some { pO with orderId := s.tws_valid_orderId, time_sent := s.now } }

/-- The inputs before the `i`-th order of the next turn is placed. -/
def inputsBefore (s₀ : TwsDL) (evs : List Event) (s : TwsDL) (i : ℕ) : List NumberInput :=
  s₀.numberInputs evs ++ (s.ordersLeft.take i).map fun pO => .order pO.orderId

theorem placeOrder_automatic (hj : s.orderJob = .ok pO) (h0 : pO.orderId = 0)
    (hlive : s.tws_valid_orderId ∉ s.p_orders)
    (hv : s.tws_valid_orderId < 9223372036854775807) : ∃ s', s.placeOrder = .ok s' ∧
      s'.p_orders = s.p_orders.insert s.tws_valid_orderId
        { mode := .RECORD
          request := some { pO with orderId := s.tws_valid_orderId, time_sent := s.now } } := by
  simp only [orderJob, Exec.bind_eq_ok] at hj
  obtain ⟨todo, htodo, hcur⟩ := hj
  have hnone : s.p_orders[s.tws_valid_orderId]? = none := getElem?_of_notMem hlive
  simp only [placeOrder, htodo, hcur, orderIdOf, h0, fetchIncOrderId, hv, recordOrder, hnone,
    PacketPlaceOrder.record, if_true, Exec.ok_bind, Exec.pure_eq_ok]
  refine ⟨_, rfl, ?_⟩
  unfold sendOrder
  split
  · rfl
  · rfl

/-- **Automatic numbers are fresh exactly when the next number has not been
given.** In every run, each time the next turn places an automatic order,
the order gets a number and a packet of its own if and only if the number
that comes next, the last one TWS has handed out and one more for each
automatic order since, was neither brought along by a job placed before
nor given to an automatic order before. -/
theorem automatic_fresh_iff (h : Run Step (start cfg async jobs) evs s)
    (ht : s.orderCalls[i]? = some t) (hj : t.orderJob = .ok pO) (h0 : pO.orderId = 0) :
    t.OwnPacket pO ↔ Fresh ((start cfg async jobs).inputsBefore evs s i) := by
  have ha : t.orders.Accounted ((start cfg async jobs).inputsBefore evs s i) := by
    unfold orderCalls at ht
    split at ht
    · cases ht
    · rename_i s₁ hs₁
      obtain ⟨hl, ha₁⟩ := ordersState_accounted hs₁ (run_accounted h)
      rw [inputsBefore, ← hl]
      exact placeCalls_accounted _ ha₁ ht
  have hkeys := ha.orders t.tws_valid_orderId
  have hn : t.tws_valid_orderId = nextNumber _ := ha.next
  constructor
  · intro ⟨hlive, hold, _⟩ hgiven
    rw [← hn, ← hkeys] at hgiven
    exact hgiven.elim hlive hold
  · intro hfresh
    rw [Fresh, ← hn, ← hkeys, not_or] at hfresh
    exact ⟨hfresh.1, hfresh.2, placeOrder_automatic hj h0 hfresh.1⟩

/-- An order of one share under its own number, and one without a number. -/
def ownThenAutomatic (id : ℤ) : List Job :=
  [.place_order { orderId := id, order := { action := "BUY", totalQuantity := 1 } },
    .place_order { order := { action := "BUY", totalQuantity := 2 } }]

/-- The second order gets the number that TWS has handed out. -/
theorem automatic_fresh_second : ∃ s t pO,
    Run Step (start {} false (ownThenAutomatic 5)) (connects 40000 100) s ∧
      s.orderCalls[1]? = some t ∧ t.orderJob = .ok pO ∧ t.tws_valid_orderId = 100 ∧
      t.OwnPacket pO := by
  have hout : ((connects 40000 100).foldlM next (start {} false (ownThenAutomatic 5))).bind
      (fun s => s.orderCalls[1]?.bind fun t => t.orderJob.toOption.map fun pO =>
        (pO.orderId, t.tws_valid_orderId,
          decide (Fresh ((start {} false (ownThenAutomatic 5)).inputsBefore
            (connects 40000 100) s 1)))) = some (0, 100, true) := by
    decide +kernel
  obtain ⟨s, hs, hl⟩ := Option.bind_eq_some_iff.1 hout
  obtain ⟨t, ht, hl⟩ := Option.bind_eq_some_iff.1 hl
  obtain ⟨pO, hj, hl⟩ := Option.map_eq_some_iff.1 hl
  obtain ⟨h0, hl⟩ := Prod.mk.inj hl
  obtain ⟨hv, hl⟩ := Prod.mk.inj hl
  have hrun := Run.of_foldlM (fun _ _ _ => step_of_next) hs
  have hj' : t.orderJob = .ok pO := Exec.toOption_eq_some.1 hj
  exact ⟨s, t, pO, hrun, ht, hj', hv,
    (automatic_fresh_iff hrun ht hj' h0).2 (of_decide_eq_true hl)⟩

/-- **An automatic order runs into a number that a job brought along**, and
the turn ends at the assertion on equal numbers. -/
theorem automatic_order_modifies : ∃ s t pO,
    Run Step (start {} false (ownThenAutomatic 5)) (connects 40000 5) s ∧
      s.orderCalls[1]? = some t ∧ t.orderJob = .ok pO ∧ pO.orderId = 0 ∧ ¬ t.OwnPacket pO ∧
      t.placeOrder = .error (.assertion .placeOrderModifyId) ∧
      s.handle (.turn {}) = .error (.assertion .placeOrderModifyId) := by
  have hout : ((connects 40000 5).foldlM next (start {} false (ownThenAutomatic 5))).bind
      (fun s => s.orderCalls[1]?.bind fun t => t.orderJob.toOption.map fun pO =>
        (pO.orderId, decide (t.tws_valid_orderId ∈ t.p_orders), Exec.fault t.placeOrder,
          Exec.fault (s.handle (.turn {})))) =
        some (0, true, some (.assertion .placeOrderModifyId),
          some (.assertion .placeOrderModifyId)) := by
    decide +kernel
  obtain ⟨s, hs, hl⟩ := Option.bind_eq_some_iff.1 hout
  obtain ⟨t, ht, hl⟩ := Option.bind_eq_some_iff.1 hl
  obtain ⟨pO, hj, hl⟩ := Option.map_eq_some_iff.1 hl
  obtain ⟨h0, hl⟩ := Prod.mk.inj hl
  obtain ⟨hlive, hl⟩ := Prod.mk.inj hl
  obtain ⟨hp, hh⟩ := Prod.mk.inj hl
  have hrun := Run.of_foldlM (fun _ _ _ => step_of_next) hs
  exact ⟨s, t, pO, hrun, ht, Exec.toOption_eq_some.1 hj, h0,
    fun hown => hown.live (of_decide_eq_true hlive), Exec.fault_eq_some.1 hp,
    Exec.fault_eq_some.1 hh⟩

end TwsDL

end Twstools
