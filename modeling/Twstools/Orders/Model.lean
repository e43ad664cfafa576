import Twstools.Twsdo.Loop
/-!
# Orders and the numbers in use

Of the state of the program only `Orders` matters here: the live orders,
the finished ones, what decides which orders a turn places, and the number
of the last request. A turn finishes orders first (`Finished`). Then, if
nothing is open, it makes a request, or it places orders when there is
nothing else to ask for (`Placed`).
-/

namespace Twstools

open Std

/-- Whether `finPlaceOrder` takes the order off the live ones. -/
def PacketPlaceOrder.retires (p : PacketPlaceOrder) (now : ℤ) : Bool :=
  if p.finished then p.getError = .NONE ∨ p.getError = .REQUEST ∨ p.getError = .TIMEOUT
  else p.request.any (TwsDL.outdated now)

/-- How many messages may be sent before the next interval. -/
def RateLimit.left (r : RateLimit) (clock : ℤ) : ℕ :=
  if r.m_time < clock.tdiv m_interval % 18446744073709551616 then m_rate.toNat
  else (m_rate - r.m_count).toNat

/-- The jobs that have not been checked out. -/
def IndexTodo.left {α : Type} (t : IndexTodo α) : List α := t.requests.drop (t.curIndex + 1).toNat

/-- The numbers `n` orders get at most: their own, or those from `id` on. -/
def orderIds : ℕ → ℤ → List PlaceOrder → List ℤ
  | 0, _, _ => []
  | _ + 1, _, [] => []
  | n + 1, id, pO :: rest =>
      if pO.orderId = 0 then id :: orderIds n (id + 1) rest
      else pO.orderId :: orderIds n id rest

/-- What orders and numbers are about. -/
structure Orders where
  p_orders : TreeMap ℤ PacketPlaceOrder
  p_orders_old : TreeMap ℤ PacketPlaceOrder
  placeOrderTodo : PlaceOrderTodo
  mktDataTodo : List MktDataRequest
  tws_valid_orderId : ℤ
  rate_limit : RateLimit
  now : ℤ
  fuckme : ℤ
  reqId : ℤ

namespace Orders

/-- Whether the order is live still, but not after the next `finPlaceOrder`. -/
def retires (o : Orders) (id : ℤ) : Bool := o.p_orders[id]?.any (·.retires o.now)

/-- The numbers of the orders that can be placed now. -/
def nextIds (o : Orders) : List ℤ :=
  orderIds (o.rate_limit.left o.now) o.tws_valid_orderId o.placeOrderTodo.left

/-- No order is live and finished. -/
def Disjoint (o : Orders) : Prop := ∀ id ∈ o.p_orders, id ∉ o.p_orders_old

/-- Every live order has been recording. -/
def Recorded (o : Orders) : Prop :=
  ∀ (id : ℤ) (p : PacketPlaceOrder), o.p_orders[id]? = some p → p.mode ≠ .CLEAN

/-- The tickers that have been asked for. -/
def IsTicker (o : Orders) (id : ℤ) : Prop := 1 ≤ id ∧ id < o.fuckme

/-- A request of this type is not put off by the rate limit. -/
def Sends (o : Orders) (t : ReqType) : Prop :=
  t = .CONTRACT_DETAILS_REQUEST ∨ t = .OPT_PARAMS_REQUEST → 0 < o.rate_limit.left o.now

/-- After `startMktData`. -/
def started (o : Orders) : Orders :=
  { o with fuckme := if o.fuckme ≤ 0 then o.mktDataTodo.length + 1 else o.fuckme }

/-- **What an event other than a turn does**, unless TWS hands out a number:
at most the packet of one order changes. -/
inductive Handled (o : Orders) : Orders → Prop
  | none : Handled o o
  | clock (now : ℤ) : Handled o { o with now := now }
  | limit (r : RateLimit) : Handled o { o with rate_limit := r }
  | live {id : ℤ} {p p' : PacketPlaceOrder} : o.p_orders[id]? = some p →
      (p.mode ≠ .CLEAN → p'.mode ≠ .CLEAN) →
      Handled o { o with p_orders := o.p_orders.insert id p' }
  | old {id : ℤ} {p p' : PacketPlaceOrder} : o.p_orders_old[id]? = some p →
      Handled o { o with p_orders_old := o.p_orders_old.insert id p' }

/-- What such an event keeps: rows are appended and orders are closed, but
they stay where they are, under their numbers. -/
structure Kept (o o' : Orders) : Prop where
  live : ∀ id, id ∈ o'.p_orders ↔ id ∈ o.p_orders
  old : ∀ id, id ∈ o'.p_orders_old ↔ id ∈ o.p_orders_old
  recorded : o.Recorded → o'.Recorded
  mktDataTodo : o'.mktDataTodo = o.mktDataTodo
  fuckme : o'.fuckme = o.fuckme
  reqId : o'.reqId = o.reqId

/-- **What `finPlaceOrder` does.** -/
structure Finished (o o' : Orders) : Prop where
  live : ∀ id, id ∈ o'.p_orders ↔ id ∈ o.p_orders ∧ o.retires id = false
  old : ∀ id, id ∈ o'.p_orders_old ↔ id ∈ o.p_orders_old ∨ o.retires id = true
  recorded : o.Recorded → o'.Recorded
  rest : o' = { o with p_orders := o'.p_orders, p_orders_old := o'.p_orders_old }

/-- **What `placeAllOrders` does.** -/
structure Placed (o o' : Orders) : Prop where
  live : ∀ id, id ∈ o'.p_orders ↔ id ∈ o.p_orders ∨ id ∈ o.nextIds
  old : o'.p_orders_old = o.p_orders_old
  recorded : o.Recorded → o'.Recorded
  mktDataTodo : o'.mktDataTodo = o.mktDataTodo
  fuckme : o'.fuckme = o.fuckme
  reqId : o'.reqId = o.reqId

end Orders

namespace TwsDL

/-- The part of the program that is about orders and numbers. -/
def orders (s : TwsDL) : Orders where
  p_orders := s.p_orders
  p_orders_old := s.p_orders_old
  placeOrderTodo := s.workTodo.placeOrderTodo
  mktDataTodo := s.workTodo.mktDataTodo
  tws_valid_orderId := s.tws_valid_orderId
  rate_limit := s.rate_limit
  now := s.now
  fuckme := s.fuckme
  reqId := s.currentRequest.reqId

/-- What the next turn will ask for: the connection is complete, and the
current request, if there is one, is over after `waitPacket`. -/
def upcoming (s : TwsDL) : Option ReqType :=
  match s.waitPacket with
  | .ok s₁ =>
      if s.state = .IDLE ∧ s₁.connected = true ∧ s₁.quit = false ∧
          s₁.currentRequest.reqType = .NONE then
        some s₁.workTodo.nextReqType.2
      else none
  | .error _ => none

/-- **What a turn does to the orders.** -/
inductive OrdersTurned (s : TwsDL) : Orders → Prop
  /-- The connection is not complete. -/
  | connect (r : RateLimit) : s.upcoming = none →
      OrdersTurned s { s.orders with rate_limit := r }
  /-- A request is open still, or there is no connection. -/
  | wait {o : Orders} : s.orders.Finished o → s.upcoming = none → OrdersTurned s o
  /-- It has to wait before it makes a request. -/
  | putOff {o : Orders} {r : RateLimit} {t : ReqType} : s.orders.Finished o →
      s.upcoming = some t → t ≠ .NONE → OrdersTurned s { o.started with rate_limit := r }
  /-- It makes a request. -/
  | ask {o : Orders} {r : RateLimit} {t : ReqType} : s.orders.Finished o →
      s.upcoming = some t → t ≠ .NONE → s.orders.Sends t →
      OrdersTurned s { o.started with rate_limit := r, reqId := o.reqId + 1 }
  /-- It places orders. -/
  | place {o o' : Orders} : s.orders.Finished o → s.upcoming = some .NONE →
      o.started.Placed o' → OrdersTurned s o'

end TwsDL

end Twstools
