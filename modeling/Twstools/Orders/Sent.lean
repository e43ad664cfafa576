import Twstools.Jobs.Done
import Twstools.Orders.Fresh
/-!
# Orders are sent once, in order, and written once

An order job is never repeated. What the program has sent to TWS about
orders is the beginning of the work file, job by job, each under the
number it was given; an order leaves the live ones when it is written. So
when the program quits every job was sent once and every number was
written once.
-/

namespace Twstools

open Std NumberInput

/-- The order of a work file's element. -/
def Job.order : Job → Option PlaceOrder
  | .place_order r => some r
  | _ => none

/-- The orders of a work file. -/
def orderJobs (jobs : List Job) : List PlaceOrder := jobs.filterMap Job.order

/-- What is sent for an order job under a number. -/
def PlaceOrder.action (orderId : ℤ) (pO : PlaceOrder) : Action :=
  if pO.order.totalQuantity ≠ 0 ∨ strcaseEq pO.order.action "CANCEL" = false then
    .placeOrder (toInt orderId) pO.contract pO.order
  else .cancelOrder (toInt orderId)

/-- The part of an output that was sent about orders. -/
def sentOrders (out : List Action) : List Action := out.filter (·.topic = .order)

/-- The number of an order that is written. -/
def Action.writtenId : Action → Option ℤ
  | .dumpOrder orderId _ => some orderId
  | _ => none

/-- The numbers of the orders that were written. -/
def writtenIds (out : List Action) : List ℤ := out.filterMap Action.writtenId

theorem writtenIds_append (l l' : List Action) :
    writtenIds (l ++ l') = writtenIds l ++ writtenIds l' := List.filterMap_append

/-- One pair more, when the second list goes on. -/
theorem zipWith_concat {α β γ : Type*} {f : α → β → γ} {b : β} {l' : List β} {a : α} :
    ∀ {l : List α} {all : List β}, all.drop l.length = b :: l' →
      List.zipWith f (l ++ [a]) all = List.zipWith f l all ++ [f a b] ∧
        all.drop (l ++ [a]).length = l' ∧ (l ++ [a]).length ≤ all.length
  | [], all, h => by
      obtain rfl : all = b :: l' := h
      exact ⟨rfl, rfl, by simp⟩
  | x :: l, [], h => by cases h
  | x :: l, y :: all, h => by
      have hall : all.drop l.length = b :: l' := h
      obtain ⟨hz, hd, hle⟩ := zipWith_concat (f := f) (a := a) hall
      exact ⟨by simp [hz], hd, Nat.succ_le_succ hle⟩

namespace TwsDL

variable {s s' t : TwsDL} {e : Event} {evs : List Event} {cfg : ConfigTwsdo} {async : Bool}
variable {jobs : List Job} {l : List NumberInput} {pO : PlaceOrder} {all : List PlaceOrder}
variable {b : Bool} {id : ℤ} {p : PacketPlaceOrder}

/-! ## Sending -/

/-- What is sent for one job. -/
theorem placeOrder_out (h : s.placeOrder = .ok s') : ∃ pO, s.ordersLeft = pO :: s'.ordersLeft ∧
    s'.out = s.out ++
      [pO.action (if pO.orderId = 0 then s.tws_valid_orderId else pO.orderId)] := by
  simp only [placeOrder, Exec.bind_eq_ok] at h
  obtain ⟨todo, htodo, pO, hcur, ⟨s₁, id⟩, h₁, s₂, h₂, h⟩ := h
  obtain ⟨hleft, -⟩ := IndexTodo.left_of_checkout htodo hcur
  have hid : s₁.out = s.out ∧ s₁.workTodo.placeOrderTodo = todo ∧
      id = if pO.orderId = 0 then s.tws_valid_orderId else pO.orderId := by
    simp only [orderIdOf, fetchIncOrderId] at h₁
    split at h₁
    · rename_i hz
      rw [if_pos hz]
      split at h₁
      · obtain ⟨rfl, rfl⟩ := Prod.mk.inj (Except.ok.inj h₁)
        exact ⟨rfl, rfl, rfl⟩
      · cases h₁
    · rename_i hz
      rw [if_neg hz]
      obtain ⟨rfl, rfl⟩ := Prod.mk.inj (Except.ok.inj h₁)
      exact ⟨rfl, rfl, rfl⟩
  obtain ⟨hout, htodo', rfl⟩ := hid
  simp only [recordOrder, Exec.bind_eq_ok] at h₂
  obtain ⟨p, -, h₂⟩ := h₂
  obtain rfl := Except.ok.inj h₂
  refine ⟨pO, ?_, ?_⟩
  · rw [ordersLeft, hleft, ← Except.ok.inj h, ordersLeft, ← htodo']
    unfold sendOrder
    split <;> rfl
  · rw [← Except.ok.inj h, ← hout]
    unfold sendOrder PlaceOrder.action
    split <;> rfl

/-- **The jobs that were sent.** They are the beginning of the list, under
the numbers given, and the others are left. -/
structure OrdersSent (all : List PlaceOrder) (l : List NumberInput) (s : TwsDL) : Prop where
  accounted : s.orders.Accounted l
  sent : sentOrders s.out = List.zipWith PlaceOrder.action (given l) all
  left : s.ordersLeft = all.drop (given l).length
  le : (given l).length ≤ all.length

/-- Only the orders, the todo list and what was sent count. -/
theorem OrdersSent.of_eq (h : OrdersSent all l s) (hlive : s'.p_orders = s.p_orders)
    (hold : s'.p_orders_old = s.p_orders_old)
    (hn : s'.tws_valid_orderId = s.tws_valid_orderId)
    (hout : sentOrders s'.out = sentOrders s.out) (hl : s'.ordersLeft = s.ordersLeft) :
    OrdersSent all l s' where
  accounted := Accounted.of_eq h.accounted hlive hold hn
  sent := hout.trans h.sent
  left := hl.trans h.left
  le := h.le

/-- **One job more is sent.** -/
theorem OrdersSent.placeOrder (hS : OrdersSent all l s) (h : s.placeOrder = .ok s') :
    ∃ pO, s.ordersLeft = pO :: s'.ordersLeft ∧
      OrdersSent all (l ++ [.order pO.orderId]) s' := by
  obtain ⟨pO, hleft, ha⟩ := placeOrder_accounted h hS.accounted
  obtain ⟨pO', hleft', hout⟩ := placeOrder_out h
  obtain ⟨rfl, -⟩ := List.cons.inj (hleft.symm.trans hleft')
  obtain ⟨hz, hd, hle⟩ := zipWith_concat (f := PlaceOrder.action)
    (a := if pO.orderId = 0 then nextNumber l else pO.orderId) (hS.left.symm.trans hleft)
  have hn : s.tws_valid_orderId = nextNumber l := hS.accounted.next
  refine ⟨pO, hleft, ha, ?_, ?_, ?_⟩
  · have htopic : ∀ id, (pO.action id).topic = .order := fun id => by
      unfold PlaceOrder.action
      split <;> rfl
    have hold : s.out.filter (·.topic = .order) = _ := hS.sent
    rw [sentOrders, hout, List.filter_append, hold, given_order, hz, hn]
    simp [htopic]
  · rw [given_order, hd]
  · rw [given_order]
    exact hle

/-- The loop of `placeAllOrders`. -/
theorem OrdersSent.placeOrders : ∀ (k : ℕ) {s : TwsDL} {l : List NumberInput},
    OrdersSent all l s → TwsDL.placeOrders k s = .ok s' →
    ∃ placed, s.ordersLeft = placed ++ s'.ordersLeft ∧
      OrdersSent all (l ++ placed.map fun pO => .order pO.orderId) s'
  | 0, s, l, hS, h => by
      obtain rfl := Except.ok.inj h
      exact ⟨[], rfl, by simpa using hS⟩
  | k + 1, s, l, hS, h => by
      have hS' : OrdersSent all l (s.canSend 1).1 := hS.of_eq rfl rfl rfl rfl rfl
      simp only [TwsDL.placeOrders] at h
      split at h
      · split at h
        · simp only [Exec.bind_eq_ok] at h
          obtain ⟨s₁, h₁, h⟩ := h
          obtain ⟨pO, hleft, hS₁⟩ := hS'.placeOrder h₁
          have hs : s.ordersLeft = pO :: s₁.ordersLeft := hleft
          obtain ⟨placed, hl, hS₂⟩ := hS₁.placeOrders k h
          refine ⟨pO :: placed, by rw [hs, hl, List.cons_append], ?_⟩
          rw [List.append_assoc] at hS₂
          exact hS₂
        · obtain rfl := Except.ok.inj h
          exact ⟨[], rfl, by simpa using hS'⟩
      · obtain rfl := Except.ok.inj h
        exact ⟨[], rfl, by simpa using hS⟩

/-- What was sent about orders stays when something else is done. -/
theorem Adds.sentOrders_eq {P : Action → Prop} (h : Adds P s s')
    (hP : ∀ a, P a → a.topic ≠ .order) : sentOrders s'.out = sentOrders s.out :=
  h.filter_eq fun a ha => by simpa using hP a ha

/-- **A turn sends the next jobs**, or none. -/
theorem OrdersSent.turn {c : Connect} (hS : OrdersSent all l s) (h : s.turn c = .ok s') :
    OrdersSent all (l ++ s.inputs (.turn c) s') s' := by
  have ha := turn_accounted hS.accounted h
  -- the same jobs are left, so nothing was sent
  have idle : s'.ordersLeft = s.ordersLeft → sentOrders s'.out = sentOrders s.out →
      OrdersSent all (l ++ s.inputs (.turn c) s') s' := fun hl ho => by
    have hi : s.inputs (.turn c) s' = [] := by simp [inputs, hl]
    rw [hi, List.append_nil] at ha ⊢
    exact ⟨ha, ho.trans hS.sent, hl.trans hS.left, hS.le⟩
  have waited : ∀ {s₂ : TwsDL}, ({ s with curIdleTime := -1 } : TwsDL).waitData = .ok s₂ →
      s₂.ordersLeft = s.ordersLeft ∧ sentOrders s₂.out = sentOrders s.out := fun hw => by
    have hF := (waitData_orders hw).1
    refine ⟨congrArg IndexTodo.left (congrArg Orders.placeOrderTodo hF.rest), ?_⟩
    exact (waitData_adds hw).sentOrders_eq fun a ha => by
      rcases ha with ha | ha <;> rw [ha] <;> decide
  obtain ⟨s₁, i, hpath, rfl⟩ := turn_path h
  cases hpath with
  | connecting _ hw =>
      obtain ⟨r, hr⟩ := waitTwsCon_orders hw
      refine idle (congrArg (fun o => o.placeOrderTodo.left) hr) ?_
      exact (waitTwsCon_adds hw).sentOrders_eq fun a ha => by rw [ha]; decide
  | waiting _ hw _ => exact idle (waited hw).1 (waited hw).2
  | @reconnecting s₂ _ hw _ _ _ hcon =>
      have hl : s₁.ordersLeft = s₂.ordersLeft :=
        congrArg (fun o => o.placeOrderTodo.left) (connectTws_orders hcon)
      refine idle (hl.trans (waited hw).1) ?_
      have ho : s₁.out = s₂.out := connectTws_out hcon
      exact (congrArg sentOrders ho).trans (waited hw).2
  | @working s₂ _ hw _ _ _ hwork =>
      obtain ⟨hl₂, ho₂⟩ := waited hw
      simp only [work, Exec.bind_eq_ok] at hwork
      obtain ⟨s₃, h₃, s₄, h₄, hwork⟩ := hwork
      have hl₃ : s₃.ordersLeft = s₂.ordersLeft :=
        congrArg (fun w => w.placeOrderTodo.left) (startMktData_workTodo h₃)
      have ho₃ : sentOrders s₃.out = sentOrders s₂.out :=
        (startMktData_adds h₃).sentOrders_eq fun a ha => by rw [ha]; decide
      have hl₁ : s₁.ordersLeft = s₄.ordersLeft := by
        rw [← Except.ok.inj hwork]
        exact congrArg (fun o => o.placeOrderTodo.left) (checkDone_orders s₄ _)
      have ho₁ : s₁.out = s₄.out := by
        rw [← Except.ok.inj hwork, checkDone_out]
      by_cases ht : s₃.workTodo.nextReqType.2 = .NONE
      · rw [ht] at h₄
        have hS₃ : OrdersSent all l { s₃ with workTodo := s₃.workTodo.nextReqType.1 } := by
          refine ⟨?_, ?_, ?_, hS.le⟩
          · rw [nextReqType_orders, startMktData_orders h₃]
            exact Accounted.of_eq (finished_accounted (waitData_orders hw).1 hS.accounted)
              rfl rfl rfl
          · exact (ho₃.trans ho₂).trans hS.sent
          · have hn := congrArg (fun o => o.placeOrderTodo.left) (nextReqType_orders s₃)
            exact ((Eq.trans hn hl₃).trans hl₂).trans hS.left
        obtain ⟨placed, hleft, hS₄⟩ := hS₃.placeOrders _ h₄
        have hn : ({ s₃ with workTodo := s₃.workTodo.nextReqType.1 } : TwsDL).ordersLeft =
            s.ordersLeft :=
          (congrArg (fun o => o.placeOrderTodo.left) (nextReqType_orders s₃)).trans
            (hl₃.trans hl₂)
        have hi : s.inputs (.turn c) { s₁ with curIdleTime := i } =
            placed.map fun pO => .order pO.orderId := by
          have hl : ({ s₁ with curIdleTime := i } : TwsDL).ordersLeft = s₄.ordersLeft := hl₁
          simp [inputs, ← hn, hl, hleft]
        rw [hi] at ha ⊢
        exact ⟨ha, (congrArg sentOrders ho₁).trans hS₄.sent, hl₁.trans hS₄.left, hS₄.le⟩
      · obtain ⟨r, hr⟩ := request_orders ht h₄
        have hl₄ : s₄.ordersLeft = s₃.ordersLeft := by
          have hn := congrArg (fun o => o.placeOrderTodo.left) (nextReqType_orders s₃)
          rcases hr with hr | ⟨-, hr⟩
          · exact (congrArg (fun o => o.placeOrderTodo.left) hr).trans hn
          · exact (congrArg (fun o => o.placeOrderTodo.left) hr).trans hn
        have ho₄ : sentOrders s₄.out = sentOrders s₃.out := by
          have hA := request_grows ht h₄
          exact hA.sentOrders_eq fun a ha => by rw [ha]; decide
        refine idle (hl₁.trans (hl₄.trans (hl₃.trans hl₂))) ?_
        exact (congrArg sentOrders ho₁).trans (ho₄.trans (ho₃.trans ho₂))

/-- **Every step sends the next jobs**, or none. -/
theorem OrdersSent.step (hS : OrdersSent all l s) (h : s.Step e s') :
    OrdersSent all (l ++ s.inputs e s') s' := by
  by_cases ht : ∃ c, e = .turn c
  · obtain ⟨c, rfl⟩ := ht
    exact hS.turn h.2
  · have ht' : ∀ c, e ≠ .turn c := fun c hc => ht ⟨c, hc⟩
    have ha := step_accounted hS.accounted h
    have hout : sentOrders s'.out = sentOrders s.out :=
      (handle_adds ht' h.2).sentOrders_eq fun a ha => by rw [ha]; decide
    have hg : given (l ++ s.inputs e s') = given l := by
      unfold inputs
      split
      · split_ifs
        · exact given_handOut
        · rw [List.append_nil]
      · exact absurd rfl (ht' _)
      · rw [List.append_nil]
    refine ⟨ha, by rw [hg]; exact hout.trans hS.sent, ?_, by rw [hg]; exact hS.le⟩
    rw [hg, ← hS.left]
    exact congrArg (fun f => f.placeOrderTodo.left) (handle_fixed ht' h.2)

/-- Reading a work file leaves all its orders to be sent. -/
theorem readFile_placeOrderTodo (jobs : List Job) : ∀ w : WorkTodo,
    (w.readFile jobs).placeOrderTodo = { w.placeOrderTodo with
      requests := w.placeOrderTodo.requests ++ orderJobs jobs } := by
  induction jobs with
  | nil => exact fun w => by simp [WorkTodo.readFile, orderJobs]
  | cons job jobs ih =>
      intro w
      have hstep : w.readFile (job :: jobs) = (w.readReq job).readFile jobs := rfl
      rw [hstep, ih]
      cases job <;>
        simp [WorkTodo.readReq, IndexTodo.add, orderJobs, Job.order, List.filterMap_cons]

theorem start_ordersLeft : (start cfg async jobs).ordersLeft = orderJobs jobs := by
  have h := readFile_placeOrderTodo jobs
    { acc_status_todo := cfg.get_account
      executions_todo := cfg.get_exec
      orders_todo := cfg.get_order }
  have hs : (start cfg async jobs).workTodo.placeOrderTodo = { requests := orderJobs jobs } := h
  rw [ordersLeft, hs]
  rfl

theorem run_ordersSent (h : Run Step (start cfg async jobs) evs s) :
    OrdersSent (orderJobs jobs) ((start cfg async jobs).numberInputs evs) s := by
  refine h.history (I := fun evs s => OrdersSent (orderJobs jobs)
    ((start cfg async jobs).numberInputs evs) s)
    ⟨start_accounted, rfl, start_ordersLeft, Nat.zero_le _⟩ ?_
  intro evs s e s' hr hS hs
  rw [numberInputs_snoc hr hs]
  exact hS.step hs

/-- **No order is lost, sent twice or out of turn.** In every run, across
all lost connections, what was sent to TWS about orders are the first
place-order jobs of the work file, in order, each sent once, under its own
number or the one it was given. When the program quits, all were sent. -/
theorem orders_sent_once (h : Run Step (start cfg async jobs) evs s) :
    sentOrders s.out = List.zipWith PlaceOrder.action
        (given ((start cfg async jobs).numberInputs evs)) (orderJobs jobs) ∧
      (given ((start cfg async jobs).numberInputs evs)).length ≤ (orderJobs jobs).length ∧
      (s.quit = true →
        (given ((start cfg async jobs).numberInputs evs)).length = (orderJobs jobs).length) := by
  have hS := run_ordersSent h
  refine ⟨hS.sent, hS.le, fun hq => Nat.le_antisymm hS.le ?_⟩
  have hnil : s.ordersLeft = [] :=
    IndexTodo.left_of_countLeft (Int.not_lt.2 (allDone_of_quit h hq).orders.1)
  exact List.drop_eq_nil_iff.1 (hS.left.symm.trans hnil)

/-- An automatic order, and the cancellation of another. -/
def orderAndCancel : List Job :=
  [.place_order { orderId := 0, order := { totalQuantity := 5 } },
    .place_order { orderId := 7, order := { action := "CANCEL" } }]

/-- Both are placed, TWS refuses them, and the program quits. -/
def bothRefused : List Event := connects 40000 1 ++
  [.turn {}, .error { id := 1, code := 201, msg := "" }, .error { id := 7, code := 202, msg := "" },
    .turn {}]

theorem orders_sent_once_refused : ∃ s, Run Step (start {} false orderAndCancel) bothRefused s ∧
    sentOrders s.out = [.placeOrder 1 {} { totalQuantity := 5 }, .cancelOrder 7] := by
  have hplay : ((bothRefused.foldlM next (start {} false orderAndCancel)).map fun _ => ()) =
      some () := by
    decide +kernel
  obtain ⟨s, hs, -⟩ := Option.map_eq_some_iff.1 hplay
  have hrun := Run.of_foldlM (fun _ _ _ => step_of_next) hs
  refine ⟨s, hrun, (orders_sent_once hrun).1.trans ?_⟩
  decide +kernel

/-! ## Writing -/

/-- **The orders that were written** are the finished ones, and each was
written once. -/
structure OrdersWritten (s : TwsDL) : Prop where
  nodup : (writtenIds s.out).Nodup
  old : ∀ id, id ∈ writtenIds s.out ↔ id ∈ s.p_orders_old

theorem Adds.writtenIds_eq {P : Action → Prop} (h : Adds P s s')
    (hP : ∀ a, P a → a.topic ≠ .written) : writtenIds s'.out = writtenIds s.out := by
  obtain ⟨l, hl, hl'⟩ := h
  have hnil : writtenIds l = [] := by
    refine List.filterMap_eq_nil_iff.2 fun a ha => ?_
    have := hP a (hl' a ha)
    cases a <;> simp_all [Action.topic, Action.writtenId]
  rw [hl, writtenIds_append, hnil, List.append_nil]

theorem OrdersWritten.of_eq (h : OrdersWritten s) (hout : writtenIds s'.out = writtenIds s.out)
    (hold : ∀ id, id ∈ s'.p_orders_old ↔ id ∈ s.p_orders_old) : OrdersWritten s' where
  nodup := hout ▸ h.nodup
  old id := by rw [hout, hold, h.old]

/-- **An order that is moved is written**, and it was not before. Its rows
and its job stay in any case. -/
theorem finOrder_effect (h : s.finOrder id p = .ok (s', b)) :
    ∃ p' : PacketPlaceOrder, p'.list = p.list ∧ p'.request = p.request ∧
      (p'.mode = .CLOSED ∧ id ∉ s.p_orders_old ∧ s' = { s with
          out := s.out ++ [.dumpOrder id p']
          p_orders_old := s.p_orders_old.insert id p'
          p_orders := s.p_orders.erase id } ∨
        s' = { s with p_orders := s.p_orders.insert id p' } ∨ s' = s) := by
  simp only [finOrder, Exec.bind_eq_ok] at h
  obtain ⟨r, -, -, -, h⟩ := h
  split at h
  · simp only [Exec.bind_eq_ok] at h
    obtain ⟨p', hp', h⟩ := h
    have hsame : p'.list = p.list ∧ p'.request = p.request ∧ p'.mode = .CLOSED := by
      split at hp'
      · rename_i hf
        rw [← Except.ok.inj hp']
        exact ⟨rfl, rfl, of_decide_eq_true hf⟩
      · rcases PacketPlaceOrder.closeError_eq_ok hp' with ⟨-, rfl⟩ | ⟨hm, rfl⟩
        · exact ⟨rfl, rfl, rfl⟩
        · exact ⟨rfl, rfl, hm⟩
    refine ⟨p', hsame.1, hsame.2.1, ?_⟩
    have moved : (∃ u, ensure (id ∉ s.p_orders_old) Assertion.finPlaceOrderOld = .ok u ∧
        (.ok ({ s.act (.dumpOrder id p') with
          p_orders_old := s.p_orders_old.insert id p'
          p_orders := s.p_orders.erase id }, true) : Exec Assertion _) = .ok (s', b)) →
        id ∉ s.p_orders_old ∧ s' = { s with
          out := s.out ++ [.dumpOrder id p']
          p_orders_old := s.p_orders_old.insert id p'
          p_orders := s.p_orders.erase id } := by
      rintro ⟨u, hu, h⟩
      exact ⟨Exec.ensure_eq_ok.1 hu, (Prod.mk.inj (Except.ok.inj h)).1.symm⟩
    cases he : p'.getError with
    | NONE | REQUEST | TIMEOUT =>
        simp only [he, Exec.bind_eq_ok] at h
        exact .inl ⟨hsame.2.2, moved h⟩
    | NODATA | NAV | TWSCON =>
        simp only [he] at h
        exact .inr (.inl (Prod.mk.inj (Except.ok.inj h)).1.symm)
  · exact ⟨p, rfl, rfl, .inr (.inr (Prod.mk.inj (Except.ok.inj h)).1.symm)⟩

theorem OrdersWritten.finOrders : ∀ (l : List (ℤ × PacketPlaceOrder)) {s : TwsDL} {ok : Bool},
    OrdersWritten s → TwsDL.finOrders l (s, ok) = .ok (s', b) → OrdersWritten s'
  | [], s, _, hW, h => by
      rw [← (Prod.mk.inj (Except.ok.inj h)).1]
      exact hW
  | (id, p) :: l, s, ok, hW, h => by
      simp only [TwsDL.finOrders, Exec.bind_eq_ok] at h
      obtain ⟨⟨s₁, ok'⟩, h₁, h⟩ := h
      refine OrdersWritten.finOrders l ?_ h
      obtain ⟨p', -, -, ⟨-, hid, rfl⟩ | rfl | rfl⟩ := finOrder_effect h₁
      · have hw : writtenIds (s.out ++ [.dumpOrder id p']) = writtenIds s.out ++ [id] :=
          writtenIds_append _ _
        refine ⟨?_, fun a => ?_⟩
        · rw [hw]
          refine List.nodup_append.2 ⟨hW.nodup, List.nodup_singleton id, ?_⟩
          rintro a ha b hb rfl
          rw [List.mem_singleton.1 hb] at ha
          exact hid ((hW.old id).1 ha)
        · rw [hw, List.mem_append, List.mem_singleton, hW.old, mem_insert_iff, or_comm]
      · exact hW.of_eq rfl fun _ => Iff.rfl
      · exact hW

/-- **A turn writes the orders it finishes.** -/
theorem OrdersWritten.turn {c : Connect} (hW : OrdersWritten s) (h : s.turn c = .ok s') :
    OrdersWritten s' := by
  have waited : ∀ {s₂ : TwsDL}, ({ s with curIdleTime := -1 } : TwsDL).waitData = .ok s₂ →
      OrdersWritten s₂ := fun {s₂} hw => by
    simp only [waitData, Exec.bind_eq_ok] at hw
    obtain ⟨⟨s₁, ok⟩, h₁, hw⟩ := hw
    have hW₁ : OrdersWritten s₁ :=
      OrdersWritten.finOrders _ (s := { s with curIdleTime := -1 }) ⟨hW.nodup, hW.old⟩ h₁
    refine hW₁.of_eq ((waitPacket_adds hw).writtenIds_eq fun a ha => by rw [ha]; decide) ?_
    have hold : s₂.p_orders_old = s₁.p_orders_old :=
      congrArg Orders.p_orders_old (waitPacket_orders hw)
    exact fun id => by rw [hold]
  obtain ⟨s₁, i, hpath, rfl⟩ := turn_path h
  cases hpath with
  | connecting _ hw =>
      obtain ⟨r, hr⟩ := waitTwsCon_orders hw
      have hold : s₁.p_orders_old = s.p_orders_old := congrArg Orders.p_orders_old hr
      exact hW.of_eq ((waitTwsCon_adds hw).writtenIds_eq fun a ha => by rw [ha]; decide)
        fun id => by rw [← hold]
  | waiting _ hw _ => exact ⟨(waited hw).nodup, (waited hw).old⟩
  | @reconnecting s₂ _ hw _ _ _ hcon =>
      have hold : s₁.p_orders_old = s₂.p_orders_old :=
        congrArg Orders.p_orders_old (connectTws_orders hcon)
      have ho : s₁.out = s₂.out := connectTws_out hcon
      exact (waited hw).of_eq (congrArg writtenIds ho) fun id => by rw [← hold]
  | @working s₂ _ hw _ _ _ hwork =>
      simp only [work, Exec.bind_eq_ok] at hwork
      obtain ⟨s₃, h₃, s₄, h₄, hwork⟩ := hwork
      have ho₃ : writtenIds s₃.out = writtenIds s₂.out :=
        (startMktData_adds h₃).writtenIds_eq fun a ha => by rw [ha]; decide
      have hold₃ : s₃.p_orders_old = s₂.p_orders_old :=
        congrArg Orders.p_orders_old (startMktData_orders h₃)
      have ho₁ : s₁.out = s₄.out := by rw [← Except.ok.inj hwork, checkDone_out]
      have hold₁ : s₁.p_orders_old = s₄.p_orders_old := by
        rw [← Except.ok.inj hwork]
        exact congrArg Orders.p_orders_old (checkDone_orders s₄ _)
      have hn := congrArg Orders.p_orders_old (nextReqType_orders s₃)
      have h₄' : writtenIds s₄.out = writtenIds s₃.out ∧ s₄.p_orders_old = s₃.p_orders_old := by
        by_cases ht : s₃.workTodo.nextReqType.2 = .NONE
        · rw [ht] at h₄
          have hA := placeOrders_adds _ h₄
          exact ⟨hA.writtenIds_eq fun a ha => by rw [ha]; decide,
            (placeAllOrders_placed h₄).old.trans hn⟩
        · obtain ⟨r, hr⟩ := request_orders ht h₄
          refine ⟨?_, ?_⟩
          · have hA := request_grows ht h₄
            exact hA.writtenIds_eq fun a ha => by rw [ha]; decide
          · rcases hr with hr | ⟨-, hr⟩
            · exact (congrArg Orders.p_orders_old hr).trans hn
            · exact (congrArg Orders.p_orders_old hr).trans hn
      refine (waited hw).of_eq ?_ fun id => ?_
      · exact (congrArg writtenIds ho₁).trans (h₄'.1.trans ho₃)
      · have hold : s₁.p_orders_old = s₂.p_orders_old := hold₁.trans (h₄'.2.trans hold₃)
        rw [← hold]

theorem OrdersWritten.step (hW : OrdersWritten s) (h : s.Step e s') : OrdersWritten s' := by
  by_cases ht : ∃ c, e = .turn c
  · obtain ⟨c, rfl⟩ := ht
    exact hW.turn h.2
  · have ht' : ∀ c, e ≠ .turn c := fun c hc => ht ⟨c, hc⟩
    exact hW.of_eq ((handle_adds ht' h.2).writtenIds_eq fun a ha => by rw [ha]; decide)
      (handle_kept ht' h.2).old

end TwsDL

end Twstools
