import Twstools.Orders.Disjoint
/-!
# Whom an error is about

Tickers, requests and orders take their numbers from three counters, and
`twsError` gets one number. It looks at the last request first, then at the
live orders. An error reaches the thing it is about as long as these
numbers differ, which `OwnNumbers` asks of every turn.
-/

namespace Twstools

open Std

namespace Orders

/-- **The numbers in use differ**: those of the tickers, of the last
request and of the live orders. -/
structure Apart (o : Orders) : Prop where
  ticker_reqId : ¬ o.IsTicker o.reqId
  ticker_live : ∀ id ∈ o.p_orders, ¬ o.IsTicker id
  live_reqId : o.reqId ∉ o.p_orders

/-- What keeps the numbers apart in every state. Before the tickers are
asked for there is nothing else. -/
structure Numbered (o : Orders) : Prop extends o.Apart where
  disjoint : o.Disjoint
  recorded : o.Recorded
  /-- Messages about nothing come with the number -1. -/
  notGeneric : (-1 : ℤ) ∉ o.p_orders
  begun : o.fuckme = o.mktDataTodo.length + 1 ∨
    o.fuckme ≤ 0 ∧ o.reqId = 0 ∧ ∀ id, id ∉ o.p_orders

variable {o o' : Orders} {id : ℤ}

theorem Kept.isTicker (h : o.Kept o') : o'.IsTicker id ↔ o.IsTicker id := by
  rw [IsTicker, IsTicker, h.fuckme]

theorem Kept.numbered (h : o.Kept o') (hn : o.Numbered) : o'.Numbered where
  ticker_reqId := by
    rw [h.isTicker, h.reqId]
    exact hn.ticker_reqId
  ticker_live id hid := by
    rw [h.isTicker]
    exact hn.ticker_live id ((h.live id).1 hid)
  live_reqId := by
    rw [h.live, h.reqId]
    exact hn.live_reqId
  disjoint := TwsDL.kept_disjoint h hn.disjoint
  recorded := h.recorded hn.recorded
  notGeneric := by
    rw [h.live]
    exact hn.notGeneric
  begun := by
    rw [h.fuckme, h.mktDataTodo, h.reqId]
    simpa only [h.live] using hn.begun

theorem Numbered.limited {r : RateLimit} (hn : o.Numbered) :
    Numbered { o with rate_limit := r } :=
  Kept.numbered (o := o) (TwsDL.kept_of_eq rfl rfl rfl rfl rfl) hn

/-- With orders finished and the tickers asked for, the numbers are apart
still. -/
theorem Finished.numbered (h : o.Finished o') (hn : o.Numbered) : o'.Numbered := by
  have hsub : ∀ id ∈ o'.p_orders, id ∈ o.p_orders := fun id hid => ((h.live id).1 hid).1
  have hf : o'.fuckme = o.fuckme := by rw [h.rest]
  have hr : o'.reqId = o.reqId := by rw [h.rest]
  have hm : o'.mktDataTodo = o.mktDataTodo := by rw [h.rest]
  have ht : ∀ id, o'.IsTicker id ↔ o.IsTicker id := fun id => by rw [IsTicker, IsTicker, hf]
  refine ⟨⟨?_, fun id hid => ?_, fun hid => ?_⟩, TwsDL.finished_disjoint h hn.disjoint,
    h.recorded hn.recorded, fun hid => hn.notGeneric (hsub _ hid), ?_⟩
  · rw [ht, hr]
    exact hn.ticker_reqId
  · rw [ht]
    exact hn.ticker_live id (hsub id hid)
  · rw [hr] at hid
    exact hn.live_reqId (hsub _ hid)
  · rw [hf, hm, hr]
    exact hn.begun.imp_right fun ⟨h1, h2, h3⟩ => ⟨h1, h2, fun id hid => h3 id (hsub id hid)⟩

theorem Numbered.started (hn : o.Numbered) :
    o.started.Numbered ∧ o.started.fuckme = o.mktDataTodo.length + 1 := by
  rcases hn.begun with hb | ⟨hb, h0, hnone⟩
  · have hs : o.started = o := by
      rw [Orders.started, if_neg (by omega)]
    rw [hs]
    exact ⟨hn, hb⟩
  · have hf : o.started.fuckme = o.mktDataTodo.length + 1 := if_pos hb
    refine ⟨⟨⟨fun ht => ?_, fun id hid => absurd hid (hnone id), hnone _⟩, hn.disjoint,
      hn.recorded, hn.notGeneric, .inl hf⟩, hf⟩
    have h1 : 1 ≤ o.reqId := ht.1
    omega

/-- The next request takes a number of its own. -/
theorem Numbered.ask {r : RateLimit} (hn : o.Numbered)
    (hb : o.fuckme = o.mktDataTodo.length + 1)
    (ht : ¬ (1 ≤ o.reqId + 1 ∧ o.reqId + 1 ≤ o.mktDataTodo.length))
    (hl : o.reqId + 1 ∉ o.p_orders) :
    Numbered { o with rate_limit := r, reqId := o.reqId + 1 } where
  ticker_reqId h := ht ⟨h.1, by have h2 : o.reqId + 1 < o.fuckme := h.2; omega⟩
  ticker_live := hn.ticker_live
  live_reqId := hl
  disjoint := hn.disjoint
  recorded := hn.recorded
  notGeneric := hn.notGeneric
  begun := .inl hb

/-- The orders placed take numbers of their own. -/
theorem Placed.numbered (h : o.Placed o') (hn : o.Numbered)
    (hb : o.fuckme = o.mktDataTodo.length + 1)
    (hids : ∀ id ∈ o.nextIds, id ≠ -1 ∧ id ≠ o.reqId ∧ ¬ (1 ≤ id ∧ id ≤ o.mktDataTodo.length) ∧
      id ∉ o.p_orders_old) : o'.Numbered := by
  have ht : ∀ id, o'.IsTicker id ↔ o.IsTicker id := fun id => by rw [IsTicker, IsTicker, h.fuckme]
  refine ⟨⟨?_, fun id hid => ?_, fun hid => ?_⟩, fun id hid => ?_, h.recorded hn.recorded,
    fun hid => ?_, .inl ?_⟩
  · rw [ht, h.reqId]
    exact hn.ticker_reqId
  · rw [ht]
    rcases (h.live id).1 hid with hid | hid
    · exact hn.ticker_live id hid
    · exact fun hk => (hids id hid).2.2.1 ⟨hk.1, by have h2 := hk.2; omega⟩
  · rw [h.reqId] at hid
    rcases (h.live _).1 hid with hid | hid
    · exact hn.live_reqId hid
    · exact (hids _ hid).2.1 rfl
  · rw [h.old]
    rcases (h.live id).1 hid with hid | hid
    · exact hn.disjoint id hid
    · exact (hids id hid).2.2.2
  · rcases (h.live _).1 hid with hid | hid
    · exact hn.notGeneric hid
    · exact (hids _ hid).1 rfl
  · rw [h.fuckme, h.mktDataTodo]
    exact hb

end Orders

namespace TwsDL

variable {s s' : TwsDL} {e : Event} {evs : List Event} {cfg : ConfigTwsdo} {async : Bool}
variable {jobs : List Job} {id : ℤ}

/-- Whether a ticker has this number, asked for or not. -/
def tickerNumber (s : TwsDL) (id : ℤ) : Prop := 1 ≤ id ∧ id ≤ s.workTodo.mktDataTodo.length

/-- **The next turn gives no number that is in use**: the request it makes,
if any, gets neither a ticker's number nor that of an order that stays
live, and the orders it places get neither of these, nor the last
request's, nor that of a finished order, nor -1. -/
def OwnNumbers (s : TwsDL) : Prop :=
  (∀ t ∈ s.upcoming, t ≠ .NONE → s.orders.Sends t →
    ¬ s.tickerNumber (s.currentRequest.reqId + 1) ∧
      (s.currentRequest.reqId + 1 ∈ s.p_orders →
        s.orders.retires (s.currentRequest.reqId + 1) = true)) ∧
  (s.upcoming = some .NONE → ∀ id ∈ s.orders.nextIds,
    id ≠ -1 ∧ id ≠ s.currentRequest.reqId ∧ ¬ s.tickerNumber id ∧
      id ∉ s.p_orders_old ∧ s.orders.retires id = false)

/-- A step that gives no number in use. -/
def OwnStep (s : TwsDL) (e : Event) (s' : TwsDL) : Prop :=
  s.Step e s' ∧ (e.isTurn = true → s.OwnNumbers)

theorem turn_numbered {c : Connect} (hn : s.orders.Numbered) (ho : s.OwnNumbers)
    (h : s.turn c = .ok s') : s'.orders.Numbered := by
  have ht := turn_orders h
  generalize s'.orders = o' at ht ⊢
  -- only the orders have changed before the turn gives numbers
  have rest : ∀ {o : Orders}, s.orders.Finished o →
      o.started.reqId = s.currentRequest.reqId ∧
        o.started.mktDataTodo = s.workTodo.mktDataTodo := fun hF => by
    rw [hF.rest]
    exact ⟨rfl, rfl⟩
  cases ht with
  | connect r _ => exact hn.limited
  | wait hF _ => exact hF.numbered hn
  | putOff hF _ _ => exact (hF.numbered hn).started.1.limited
  | ask hF hup ht hs =>
      obtain ⟨hS, hb⟩ := (hF.numbered hn).started
      obtain ⟨hr, hm⟩ := rest hF
      obtain ⟨hticker, hlive⟩ := ho.1 _ hup ht hs
      refine hS.ask hb ?_ fun hid => ?_
      · rw [hr, hm]
        exact hticker
      · rw [hr] at hid
        obtain ⟨hid, hret⟩ := (hF.live _).1 hid
        rw [hlive hid] at hret
        cases hret
  | place hF hup hP =>
      obtain ⟨hS, hb⟩ := (hF.numbered hn).started
      obtain ⟨hr, hm⟩ := rest hF
      refine hP.numbered hS hb fun id hid => ?_
      rw [nextIds_of_finished hF] at hid
      rw [hr, hm]
      obtain ⟨h1, h2, h3, h4, h5⟩ := ho.2 hup id hid
      refine ⟨h1, h2, h3, fun hold => ?_⟩
      rcases (hF.old id).1 hold with hold | hret
      · exact h4 hold
      · rw [h5] at hret
        cases hret

theorem step_numbered (hn : s.orders.Numbered) (h : s.OwnStep e s') : s'.orders.Numbered := by
  obtain ⟨hstep, hown⟩ := h
  by_cases ht : ∃ c, e = .turn c
  · obtain ⟨c, rfl⟩ := ht
    exact turn_numbered hn (hown rfl) hstep.2
  · exact (handle_kept (fun c he => ht ⟨c, he⟩) hstep.2).numbered hn

theorem start_numbered : (start cfg async jobs).orders.Numbered := by
  have hnone : ∀ id, id ∉ (start cfg async jobs).orders.p_orders :=
    fun _ => TreeMap.not_mem_emptyc
  have hticker : ∀ id, ¬ (start cfg async jobs).orders.IsTicker id := fun id h => by
    have h1 := h.1
    have h2 : id < 0 := h.2
    omega
  exact ⟨⟨hticker _, fun id _ => hticker id, hnone _⟩, fun id hid => absurd hid (hnone id),
    fun id p hp => absurd (mem_of_getElem? hp) (hnone id), hnone _, .inr ⟨le_rfl, rfl, hnone⟩⟩

theorem run_numbered (h : Run OwnStep (start cfg async jobs) evs s) : s.orders.Numbered :=
  h.invariant (I := fun s => s.orders.Numbered) start_numbered
    fun _ _ _ hn hstep => step_numbered hn hstep

/-! ## Errors -/

/-- While connected, an error with another number is looked up among the
orders. -/
theorem twsError_order {err : RowError} (hc : s.connected = true)
    (hr : err.id ≠ s.currentRequest.reqId) (hg : err.id ≠ -1) :
    s.twsError err = ({ s with msgCounter := s.msgCounter + 1 } : TwsDL).errorPlaceOrder err := by
  simp only [twsError]
  rw [if_neg (by simp [hc]), if_neg hr]
  simp only [if_pos hg]
  exact bind_pure _

/-- **An error about a live order** goes to its packet, and nowhere else. -/
theorem twsError_live {err : RowError} {p : PacketPlaceOrder} (hn : s.orders.Numbered)
    (hc : s.connected = true) (hp : s.p_orders[err.id]? = some p) :
    ∃ p' : PacketPlaceOrder, p'.list = p.list ++ [.t_error err] ∧
      (if err.code = 2102 then p'.mode = p.mode else p'.finished = true) ∧
      s.twsError err = .ok { s with
        msgCounter := s.msgCounter + 1
        p_orders := s.p_orders.insert err.id p' } := by
  have hid : err.id ∈ s.p_orders := mem_of_getElem? hp
  have hreq : err.id ≠ s.currentRequest.reqId := fun h =>
    hn.live_reqId (by rw [h] at hid; exact hid)
  have hgen : err.id ≠ -1 := fun h => hn.notGeneric (h ▸ hid)
  have hold : err.id ∉ s.p_orders_old := hn.disjoint _ hid
  obtain ⟨p', hcl, hlist, hmode⟩ : ∃ p' : PacketPlaceOrder,
      (if err.code = 2102 then pure (p.appendError err)
        else (p.appendError err).closeError .REQUEST) = (.ok p' : Exec Assertion _) ∧
      p'.list = p.list ++ [.t_error err] ∧
      (if err.code = 2102 then p'.mode = p.mode else p'.finished = true) := by
    by_cases h2102 : err.code = 2102
    · exact ⟨p.appendError err, if_pos h2102, rfl, by rw [if_pos h2102]; rfl⟩
    · obtain ⟨p', hcl, hm, hl⟩ := PacketPlaceOrder.closeError_of_recorded
        (p := p.appendError err) (hn.recorded err.id p hp) .REQUEST
      exact ⟨p', (if_neg h2102).trans hcl, hl, by rw [if_neg h2102]; exact decide_eq_true hm⟩
  refine ⟨p', hlist, hmode, ?_⟩
  rw [twsError_order hc hreq hgen]
  simp only [errorPlaceOrder, hp]
  rw [Exec.ensure_of_true hold, Exec.ok_bind, hcl]
  rfl

/-- **An error about a ticker** closes nothing. -/
theorem twsError_ticker {err : RowError} (hn : s.orders.Numbered) (hc : s.connected = true)
    (ht : s.orders.IsTicker err.id) : ∃ s', s.twsError err = .ok s' ∧ s'.packet = s.packet ∧
      s'.currentRequest = s.currentRequest ∧ s'.p_orders = s.p_orders := by
  have hreq : err.id ≠ s.currentRequest.reqId := fun h =>
    hn.ticker_reqId (by rw [h] at ht; exact ht)
  have hgen : err.id ≠ -1 := fun h => by
    have h1 := ht.1
    omega
  have hnone : s.p_orders[err.id]? = none :=
    getElem?_of_notMem fun hid => hn.ticker_live _ hid ht
  rw [twsError_order hc hreq hgen]
  simp only [errorPlaceOrder, hnone]
  cases s.p_orders_old[err.id]? with
  | none => exact ⟨_, rfl, rfl, rfl, rfl⟩
  | some p =>
      dsimp only
      rw [Exec.ensure_of_true (notMem_of_getElem? hnone)]
      exact ⟨_, rfl, rfl, rfl, rfl⟩

/-- **Errors reach the thing they are about.** In every run that gives no
number in use, the numbers of tickers, of the last request and of live
orders differ. An error about a live order is appended to its packet and,
but for code 2102, closes it; one about a ticker closes nothing. -/
theorem errors_arrive (h : Run OwnStep (start cfg async jobs) evs s) :
    s.orders.Apart ∧
    (s.connected = true → ∀ err p, s.p_orders[err.id]? = some p →
      ∃ p' : PacketPlaceOrder, p'.list = p.list ++ [.t_error err] ∧
        (if err.code = 2102 then p'.mode = p.mode else p'.finished = true) ∧
        s.twsError err = .ok { s with
          msgCounter := s.msgCounter + 1
          p_orders := s.p_orders.insert err.id p' }) ∧
    (s.connected = true → ∀ err, s.orders.IsTicker err.id →
      ∃ s', s.twsError err = .ok s' ∧ s'.packet = s.packet ∧
        s'.currentRequest = s.currentRequest ∧ s'.p_orders = s.p_orders) :=
  have hn := run_numbered h
  ⟨hn.toApart, fun hc _ _ hp => twsError_live hn hc hp, fun hc _ ht => twsError_ticker hn hc ht⟩

instance {id : ℤ} : Decidable (s.tickerNumber id) := inferInstanceAs (Decidable (_ ∧ _))

instance {o : Orders} {t : ReqType} : Decidable (o.Sends t) := inferInstanceAs (Decidable (_ → _))

instance : Decidable s.OwnNumbers := inferInstanceAs (Decidable (_ ∧ (_ → _)))

/-- `OwnStep`, to be executed. -/
def ownNext (s : TwsDL) (e : Event) : Option TwsDL :=
  if e.isTurn = true → s.OwnNumbers then s.next e else none

theorem ownStep_of_ownNext (h : s.ownNext e = some s') : s.OwnStep e s' := by
  unfold ownNext at h
  split at h
  · rename_i hs
    exact ⟨step_of_next h, hs⟩
  · cases h

/-- A contract is asked for, then order 100 is placed. -/
def contractThenOrder : List Event :=
  connects 40000 100 ++ [.turn {}, .contractDetailsEnd 1, .turn {}]

/-- An error about order 100 reaches it. -/
theorem errors_arrive_order : ∃ s,
    Run OwnStep (start {} false [.contract_details {}, .place_order {}]) contractThenOrder s ∧
      s.currentRequest.reqId = 1 ∧ ∃ p s', s.p_orders[(100 : ℤ)]? = some p ∧
        s.twsError { id := 100, code := 201, msg := "Order rejected" } = .ok s' ∧
        ∃ p', s'.p_orders[(100 : ℤ)]? = some p' ∧ p'.finished = true := by
  have hout : (contractThenOrder.foldlM ownNext (start {} false
      [.contract_details {}, .place_order {}])).map (fun s =>
        (s.currentRequest.reqId, s.connected, s.p_orders[(100 : ℤ)]?.isSome)) =
          some (1, true, true) := by
    decide +kernel
  obtain ⟨s, hs, hl⟩ := Option.map_eq_some_iff.1 hout
  obtain ⟨hr, hl⟩ := Prod.mk.inj hl
  obtain ⟨hc, hp⟩ := Prod.mk.inj hl
  obtain ⟨p, hp⟩ := Option.isSome_iff_exists.1 hp
  have hrun := Run.of_foldlM (fun _ _ _ => ownStep_of_ownNext) hs
  obtain ⟨p', -, hfin, he⟩ := (errors_arrive hrun).2.1 hc
    { id := 100, code := 201, msg := "Order rejected" } p hp
  rw [if_neg (by decide)] at hfin
  exact ⟨s, hrun, hr, p, _, hp, he, p', TreeMap.getElem?_insert_self, hfin⟩

/-- Market data is asked for, and the contract with it. -/
def mktDataAsked : List Event := connects 40000 1 ++ [.turn {}]

/-- **Market data gets in the way of its own contract details**: both have
number 1, and an error about the ticker closes the request. -/
theorem ticker_error_closes_request : ∃ s,
    Run Step (start {} false [.market_data {} {}]) mktDataAsked s ∧
      s.connected = true ∧ s.orders.IsTicker 1 ∧ s.currentRequest.reqId = 1 ∧
      s.packet.map Packet.base = some { mode := .RECORD } ∧
      ∃ s', s.twsError { id := 1, code := 200, msg := "No security definition" } = .ok s' ∧
        s'.packet.map Packet.base = some { mode := .CLOSED, error := .REQUEST } := by
  have hout : (mktDataAsked.foldlM next (start {} false [.market_data {} {}])).map (fun s =>
      (s.connected, s.fuckme, s.currentRequest.reqId, s.packet.map Packet.base,
        (s.twsError { id := 1, code := 200, msg := "No security definition" }).toOption.bind
          fun s' => s'.packet.map Packet.base)) =
      some (true, 2, 1, some { mode := .RECORD }, some { mode := .CLOSED, error := .REQUEST }) := by
    decide +kernel
  obtain ⟨s, hs, hl⟩ := Option.map_eq_some_iff.1 hout
  obtain ⟨hc, hl⟩ := Prod.mk.inj hl
  obtain ⟨hf, hl⟩ := Prod.mk.inj hl
  obtain ⟨hr, hl⟩ := Prod.mk.inj hl
  obtain ⟨hp, hl⟩ := Prod.mk.inj hl
  have hf' : s.orders.fuckme = 2 := hf
  refine ⟨s, Run.of_foldlM (fun _ _ _ => step_of_next) hs, hc, ⟨le_rfl, by omega⟩, hr, hp, ?_⟩
  obtain ⟨s', he, hl⟩ := Option.bind_eq_some_iff.1 hl
  exact ⟨s', Exec.toOption_eq_some.1 he, hl⟩

end TwsDL

end Twstools
