import Twstools.Orders.Upcoming
/-!
# Orders over whole runs

What every event does to the orders: a turn does one of the things listed
in `OrdersTurned`, and all other events leave every order where it is.
-/

namespace Twstools

open Std

namespace TwsDL

variable {s s' : TwsDL} {b : Bool} {id n : ℤ}

/-! ## A turn -/

theorem startMktData_orders (h : s.startMktData = .ok s') : s'.orders = s.orders.started := by
  unfold startMktData at h
  split at h
  · rename_i hf
    simp only [reqMktData, Exec.bind_eq_ok] at h
    obtain ⟨-, -, h⟩ := h
    have hf' : s.orders.fuckme ≤ 0 := hf
    rw [← Except.ok.inj h, Orders.started, if_pos hf']
    rfl
  · rename_i hf
    have hf' : ¬ s.orders.fuckme ≤ 0 := hf
    rw [← Except.ok.inj h, Orders.started, if_neg hf']

/-- **A request takes the next number**, if it is not put off. -/
theorem request_orders {t : ReqType} (ht : t ≠ .NONE) (h : s.request t = .ok s') :
    ∃ r, s'.orders = { s.orders with rate_limit := r } ∨
      s.orders.Sends t ∧
        s'.orders = { s.orders with rate_limit := r, reqId := s.orders.reqId + 1 } := by
  obtain ⟨r, i, c, o, H, g, rfl | ⟨hok, p, out, rfl⟩⟩ := request_effect ht h
  · exact ⟨r, .inl rfl⟩
  · refine ⟨r, .inr ⟨fun hl => ?_, rfl⟩⟩
    -- what passed the rate limit had room left
    rcases RateLimit.canSend_cases s.rate_limit s.now with ⟨-, hn⟩ | ⟨hno, -⟩
    · have hpos : 0 < s.rate_limit.left s.now := by omega
      exact hpos
    · exact absurd (hok hl) (by simp [canSend, hno])

theorem checkDone_orders (s : TwsDL) (t : ReqType) : (s.checkDone t).orders = s.orders := by
  unfold checkDone
  split <;> rfl

theorem nextReqType_orders (s : TwsDL) :
    ({ s with workTodo := s.workTodo.nextReqType.1 } : TwsDL).orders = s.orders := by
  simp only [orders, WorkTodo.nextReqType]
  split_ifs <;> rfl

theorem startMktData_workTodo (h : s.startMktData = .ok s') : s'.workTodo = s.workTodo := by
  unfold startMktData at h
  split at h
  · simp only [reqMktData, Exec.bind_eq_ok] at h
    obtain ⟨-, -, h⟩ := h
    rw [← Except.ok.inj h]
  · rw [← Except.ok.inj h]

/-- Nothing is upcoming before the connection is complete. -/
theorem upcoming_of_waiting (h : s.state = .WAIT_TWS_CON) : s.upcoming = none := by
  unfold upcoming
  split
  · refine if_neg fun hc => ?_
    rw [h] at hc
    exact State.noConfusion hc.1
  · rfl

/-- What `waitData` does to the orders, and what is upcoming then. -/
theorem waitData_orders {i : ℤ} (h : ({ s with curIdleTime := i } : TwsDL).waitData = .ok s') :
    s.orders.Finished s'.orders ∧ s.upcoming =
      if s.state = .IDLE ∧ s'.connected = true ∧ s'.quit = false ∧
          s'.currentRequest.reqType = .NONE then
        some s'.workTodo.nextReqType.2
      else none := by
  simp only [waitData, Exec.bind_eq_ok] at h
  obtain ⟨⟨s₀, b⟩, hfin, hwait⟩ := h
  have hF := finPlaceOrder_finished hfin
  refine ⟨?_, upcoming_eq hfin hwait⟩
  rw [waitPacket_orders hwait]
  exact hF

/-- Nothing is upcoming in a turn that makes no request. -/
theorem upcoming_of_waited {i : ℤ}
    (h : ({ s with curIdleTime := i } : TwsDL).waitData = .ok s')
    (hno : s'.connected = false ∨ s'.quit = true ∨ s'.currentRequest.reqType ≠ .NONE) :
    s.upcoming = none := by
  rw [(waitData_orders h).2]
  refine if_neg fun hc => ?_
  rcases hno with hcon | hquit | hn
  · rw [hc.2.1] at hcon
    cases hcon
  · rw [hc.2.2.1] at hquit
    cases hquit
  · exact hn hc.2.2.2

/-- **What a turn does to the orders.** -/
theorem turn_orders {c : Connect} (h : s.turn c = .ok s') : s.OrdersTurned s'.orders := by
  obtain ⟨s₁, i, hpath, rfl⟩ := turn_path h
  suffices s.OrdersTurned s₁.orders from this
  cases hpath with
  | connecting hst hw =>
      obtain ⟨r, hr⟩ := waitTwsCon_orders hw
      rw [hr]
      exact .connect r (upcoming_of_waiting hst)
  | waiting _ hw hq => exact .wait (waitData_orders hw).1 (upcoming_of_waited hw (.inr hq))
  | reconnecting _ hw _ _ hc hcon =>
      rw [connectTws_orders hcon]
      exact .wait (waitData_orders hw).1 (upcoming_of_waited hw (.inl hc))
  | @working s₂ hst hw hquit hn hc hwork =>
      obtain ⟨hF, hup⟩ := waitData_orders hw
      rw [if_pos ⟨hst, hc, hquit, hn⟩] at hup
      simp only [work, Exec.bind_eq_ok] at hwork
      obtain ⟨s₃, h₃, s₄, h₄, hwork⟩ := hwork
      rw [← Except.ok.inj hwork, checkDone_orders]
      rw [← startMktData_workTodo h₃] at hup
      have ho : ({ s₃ with workTodo := s₃.workTodo.nextReqType.1 } : TwsDL).orders =
          s₂.orders.started := (nextReqType_orders s₃).trans (startMktData_orders h₃)
      by_cases ht : s₃.workTodo.nextReqType.2 = .NONE
      · -- orders are placed when no other request is left
        rw [ht] at h₄ hup
        have hP := placeAllOrders_placed h₄
        rw [ho] at hP
        exact .place hF hup hP
      · obtain ⟨r, hr⟩ := request_orders ht h₄
        rw [ho] at hr
        have hsend : s₂.orders.started.Sends s₃.workTodo.nextReqType.2 ↔
            s.orders.Sends s₃.workTodo.nextReqType.2 := by
          rw [hF.rest]
          rfl
        rcases hr with hr | ⟨hs, hr⟩
        · rw [hr]
          exact .putOff hF hup ht
        · rw [hr]
          exact .ask hF hup ht (hsend.1 hs)

/-! ## All other events -/

/-- An event that is about no order. -/
theorem kept_of_eq {o o' : Orders} (hlive : o'.p_orders = o.p_orders)
    (hold : o'.p_orders_old = o.p_orders_old) (hm : o'.mktDataTodo = o.mktDataTodo)
    (hf : o'.fuckme = o.fuckme) (hr : o'.reqId = o.reqId) : o.Kept o' where
  live id := by rw [hlive]
  old id := by rw [hold]
  recorded hR := by
    unfold Orders.Recorded
    rw [hlive]
    exact hR
  mktDataTodo := hm
  fuckme := hf
  reqId := hr

theorem handled_kept {o o' : Orders} (h : o.Handled o') : o.Kept o' := by
  cases h with
  | none | clock | limit => exact kept_of_eq rfl rfl rfl rfl rfl
  | live hp hm =>
      refine ⟨fun a => ?_, fun _ => .rfl, fun hR => ?_, rfl, rfl, rfl⟩
      · rw [mem_insert_iff]
        exact ⟨fun ha => ha.elim (fun ha => ha ▸ mem_of_getElem? hp) (fun ha => ha), .inr⟩
      · exact forall_insert (hm (hR _ _ hp)) hR
  | old hp =>
      refine ⟨fun _ => .rfl, fun a => ?_, fun hR => hR, rfl, rfl, rfl⟩
      rw [mem_insert_iff]
      exact ⟨fun ha => ha.elim (fun ha => ha ▸ mem_of_getElem? hp) (fun ha => ha), .inr⟩

theorem handled_of_orders (h : s'.orders = s.orders) : s.orders.Handled s'.orders := by
  rw [h]
  exact .none

theorem OrderChanged.handled (h : s.OrderChanged id s') : s.orders.Handled s'.orders := by
  cases h with
  | none => exact .none
  | live hp hm => exact Orders.Handled.live (o := s.orders) hp hm
  | old hp => exact Orders.Handled.old (o := s.orders) hp

theorem twsError_handled {err : RowError} (h : s.twsError err = .ok s') :
    s.orders.Handled s'.orders := by
  obtain ⟨s₁, ho, hl⟩ := twsError_effect h
  have hh := ho.handled
  rw [hl.orders_eq]
  exact hh

/-- **What an event other than a turn does to the orders**, unless TWS hands
out a number. -/
theorem handle_handled {e : Event} (ht : ∀ c, e ≠ .turn c) (hn : ∀ n, e ≠ .nextValidId n)
    (h : s.handle e = .ok s') : s.orders.Handled s'.orders := by
  cases event_path h with
  | turn => exact absurd rfl (ht _)
  | nextValidId => exact absurd rfl (hn _)
  | error h => exact twsError_handled h
  | connectionClosed h =>
      have ho := twsConnectionClosed_orders h
      exact handled_of_orders ho
  | clock => exact Orders.Handled.clock (o := s.orders) _
  | connectAck => exact Orders.Handled.limit (o := s.orders) _
  | orderStatus h | openOrder h => exact h.handled
  | _ => exact handled_of_orders rfl

/-- TWS hands out the next number while it is connected to. -/
theorem nextValidId_orders (h : s.handle (.nextValidId n) = .ok s') :
    s'.orders = { s.orders with
      tws_valid_orderId := if s.state = .WAIT_TWS_CON then n else s.tws_valid_orderId } := by
  simp only [handle, nextValidId] at h
  split at h
  · rename_i hc
    rw [← Except.ok.inj h, if_pos hc]
    rfl
  · rename_i hc
    rw [← Except.ok.inj h, if_neg hc]
    rfl

/-- Every event other than a turn leaves every order where it is. -/
theorem handle_kept {e : Event} (ht : ∀ c, e ≠ .turn c) (h : s.handle e = .ok s') :
    s.orders.Kept s'.orders := by
  by_cases hn : ∃ n, e = .nextValidId n
  · obtain ⟨n, rfl⟩ := hn
    rw [nextValidId_orders h]
    exact kept_of_eq rfl rfl rfl rfl rfl
  · exact handled_kept (handle_handled ht (fun n he => hn ⟨n, he⟩) h)

/-- **Every live order has been recording**, in every state of every run. -/
theorem run_recorded {cfg : ConfigTwsdo} {async : Bool} {jobs : List Job} {evs : List Event}
    (h : Run Step (start cfg async jobs) evs s) : s.orders.Recorded := by
  refine h.invariant (I := fun s => s.orders.Recorded) ?_ ?_
  · intro id p hp
    exact absurd (mem_of_getElem? hp) TreeMap.not_mem_emptyc
  · intro s e s' hR hstep
    by_cases ht : ∃ c, e = .turn c
    · obtain ⟨c, rfl⟩ := ht
      have hturn := turn_orders hstep.2
      generalize s'.orders = o at hturn
      cases hturn with
      | connect => exact hR
      | wait hF | putOff hF | ask hF => exact hF.recorded hR
      | place hF _ hP => exact hP.recorded (hF.recorded hR)
    · exact (handle_kept (fun c he => ht ⟨c, he⟩) hstep.2).recorded hR

end TwsDL

end Twstools
