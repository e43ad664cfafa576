import Twstools.Orders.Runs
/-!
# Live and finished orders

The callbacks assert that no order is live and finished. Only `placeOrder`
can break it: it looks for the number among the live orders, not among the
finished ones. So the two stay apart exactly as long as no turn places an
order under the number of a finished one.
-/

namespace Twstools

open Std

/-- The assertions that an order is not live and finished. -/
def Assertion.ofOrders : Assertion → Bool
  | .finPlaceOrderOld | .errorPlaceOrderOld | .errorPlaceOrderLive
  | .orderStatusOld | .orderStatusLive | .openOrderOld | .openOrderLive => true
  | _ => false

namespace TwsDL

variable {s s' : TwsDL} {e : Event} {evs : List Event} {cfg : ConfigTwsdo} {async : Bool}
variable {jobs : List Job} {site : Assertion} {id : ℤ}

/-- The orders the next turn places are under numbers that no order has
finished with, and none finishes with in this turn. -/
def FreshOrders (s : TwsDL) : Prop :=
  s.upcoming = some .NONE →
    ∀ id ∈ s.orders.nextIds, id ∉ s.p_orders_old ∧ s.orders.retires id = false

/-- A step that uses no finished order's number again. -/
def FreshStep (s : TwsDL) (e : Event) (s' : TwsDL) : Prop :=
  s.Step e s' ∧ (e.isTurn = true → s.FreshOrders)

/-! ## What keeps them apart -/

theorem finished_disjoint {o o' : Orders} (h : o.Finished o') (hd : o.Disjoint) :
    o'.Disjoint := by
  intro id hid hold
  obtain ⟨hlive, hret⟩ := (h.live id).1 hid
  rcases (h.old id).1 hold with ho | ho
  · exact hd id hlive ho
  · rw [hret] at ho
    cases ho

theorem kept_disjoint {o o' : Orders} (h : o.Kept o') (hd : o.Disjoint) : o'.Disjoint :=
  fun id hid hold => hd id ((h.live id).1 hid) ((h.old id).1 hold)

theorem nextIds_of_finished {o o' : Orders} (h : o.Finished o') :
    o'.started.nextIds = o.nextIds := by
  rw [h.rest]
  rfl

/-- **A turn keeps live and finished orders apart exactly when** it places
none under a finished order's number. -/
theorem turn_disjoint {c : Connect} (hd : s.orders.Disjoint) (h : s.turn c = .ok s') :
    s'.orders.Disjoint ↔ s.FreshOrders := by
  have quiet : s.upcoming ≠ some .NONE → s'.orders.Disjoint →
      (s'.orders.Disjoint ↔ s.FreshOrders) :=
    fun hup hd' => ⟨fun _ hn => absurd hn hup, fun _ => hd'⟩
  have ht := turn_orders h
  generalize s'.orders = o' at ht quiet ⊢
  cases ht with
  | connect r hup => exact quiet (by simp [hup]) hd
  | wait hF hup => exact quiet (by simp [hup]) (finished_disjoint hF hd)
  | putOff hF hup ht =>
      have hd' := finished_disjoint hF hd
      exact quiet (by simp [hup, ht]) hd'
  | ask hF hup ht hs =>
      have hd' := finished_disjoint hF hd
      exact quiet (by simp [hup, ht]) hd'
  | place hF hup hP =>
      have hids := nextIds_of_finished hF
      constructor
      · intro hd' _ id hid
        have hnot := hd' id ((hP.live id).2 (.inr (hids ▸ hid)))
        rw [hP.old] at hnot
        have hfin := fun ho => hnot ((hF.old id).2 ho)
        exact ⟨fun ho => hfin (.inl ho), by simpa using fun hr => hfin (.inr hr)⟩
      · intro hfresh id hid hold
        rw [hP.old] at hold
        rcases (hP.live id).1 hid with hlive | hnext
        · exact finished_disjoint hF hd id hlive hold
        · obtain ⟨hno, hret⟩ := hfresh hup id (hids ▸ hnext)
          rcases (hF.old id).1 hold with ho | ho
          · exact hno ho
          · rw [hret] at ho
            cases ho

theorem step_disjoint (hd : s.orders.Disjoint) (h : s.FreshStep e s') : s'.orders.Disjoint := by
  obtain ⟨hstep, hfresh⟩ := h
  by_cases ht : ∃ c, e = .turn c
  · obtain ⟨c, rfl⟩ := ht
    exact (turn_disjoint hd hstep.2).2 (hfresh rfl)
  · exact kept_disjoint (handle_kept (fun c he => ht ⟨c, he⟩) hstep.2) hd

theorem run_disjoint (h : Run FreshStep (start cfg async jobs) evs s) : s.orders.Disjoint :=
  h.invariant (I := fun s => s.orders.Disjoint) (fun _ _ => TreeMap.not_mem_emptyc)
    fun _ _ _ hd hstep => step_disjoint hd hstep

/-! ## The assertions -/

theorem PacketPlaceOrder.closeError_ne {p : PacketPlaceOrder} {err : ReqErr}
    (hs : site.ofOrders = true) : p.closeError err ≠ .error (.assertion site) := by
  intro h
  simp only [PacketPlaceOrder.closeError, Exec.bind_eq_error] at h
  rcases h with h | ⟨b, -, h⟩
  · unfold PacketBase.closeError at h
    split at h
    · rcases Exec.bind_eq_error.1 h with h | ⟨u, -, h⟩
      · obtain ⟨-, h⟩ := Exec.ensure_eq_error.1 h
        rw [Fault.assertion.inj h] at hs
        cases hs
      · cases h
    · cases h
  · cases h

theorem finOrder_ne {p : PacketPlaceOrder} (hs : site.ofOrders = true)
    (hid : id ∉ s.p_orders_old) : s.finOrder id p ≠ .error (.assertion site) := by
  intro h
  simp only [finOrder, Exec.bind_eq_error] at h
  rcases h with h | ⟨r, -, h | ⟨u, -, h⟩⟩
  · exact absurd (Exec.deref_eq_error.1 h).2 (by simp)
  · obtain ⟨-, h⟩ := Exec.ensure_eq_error.1 h
    rw [Fault.assertion.inj h] at hs
    cases hs
  · split at h
    · rcases Exec.bind_eq_error.1 h with h | ⟨p', -, h⟩
      · split at h
        · cases h
        · exact PacketPlaceOrder.closeError_ne hs h
      · split at h
        case h_4 | h_5 | h_6 => cases h
        all_goals
          rcases Exec.bind_eq_error.1 h with h | ⟨u, -, h⟩
          · exact (Exec.ensure_eq_error.1 h).1 hid
          · cases h
    · cases h

theorem finOrders_ne (hs : site.ofOrders = true) : ∀ (l : List (ℤ × PacketPlaceOrder))
    {s : TwsDL} {ok : Bool}, l.Pairwise (fun e e' => e.1 ≠ e'.1) →
    (∀ e ∈ l, e.1 ∈ s.p_orders) → (∀ e ∈ l, e.1 ∉ s.p_orders_old) →
    finOrders l (s, ok) ≠ .error (.assertion site)
  | [], _, _, _, _, _, h => by cases h
  | (a, p) :: l, s, ok, hd, hlive, hold, h => by
      obtain ⟨hne, hd⟩ := List.pairwise_cons.1 hd
      simp only [finOrders, Exec.bind_eq_error] at h
      rcases h with h | ⟨⟨s₁, ok'⟩, h₁, h⟩
      · exact finOrder_ne hs (hold (a, p) List.mem_cons_self) h
      · obtain ⟨hlive₁, hold₁, -, -⟩ := finOrder_orders h₁ (hlive (a, p) List.mem_cons_self)
        refine finOrders_ne hs l hd (fun e he => ?_) (fun e he ho => ?_) h
        · exact (hlive₁ e.1).2
            ⟨hlive e (List.mem_cons_of_mem _ he), fun h => absurd h.symm (hne e he)⟩
        · rcases (hold₁ e.1).1 ho with ho | ⟨ha, -⟩
          · exact hold e (List.mem_cons_of_mem _ he) ho
          · exact hne e he ha.symm

theorem finPlaceOrder_ne (hs : site.ofOrders = true) (hd : s.orders.Disjoint) :
    s.finPlaceOrder ≠ .error (.assertion site) := by
  have hl : ∀ e ∈ s.p_orders.toList, e.1 ∈ s.p_orders := fun e he =>
    mem_of_getElem? (TreeMap.mem_toList_iff_getElem?_eq_some.1 he)
  exact finOrders_ne hs _
    ((TreeMap.distinct_keys_toList (t := s.p_orders)).imp fun he h => he (by simp [h]))
    hl fun e he => hd e.1 (hl e he)

theorem errorPlaceOrder_ne {err : RowError} (hs : site.ofOrders = true) (hd : s.orders.Disjoint) :
    s.errorPlaceOrder err ≠ .error (.assertion site) := by
  intro h
  unfold errorPlaceOrder at h
  split at h
  · rename_i p hp
    simp only [Exec.bind_eq_error] at h
    rcases h with h | ⟨-, -, h | ⟨p', -, h⟩⟩
    · exact (Exec.ensure_eq_error.1 h).1 (hd _ (mem_of_getElem? hp))
    · split at h
      · cases h
      · exact PacketPlaceOrder.closeError_ne hs h
    · cases h
  · rename_i hn hp
    simp only [Exec.bind_eq_error] at h
    rcases h with h | ⟨-, -, h⟩
    · exact (Exec.ensure_eq_error.1 h).1 (notMem_of_getElem? hn)
    · cases h
  · cases h

theorem onOrder_ne {x y : Assertion} {f : PacketPlaceOrder → Exec Assertion PacketPlaceOrder}
    (hf : ∀ p, f p ≠ .error (.assertion site)) (hd : s.orders.Disjoint) :
    s.onOrder x y id f ≠ .error (.assertion site) := by
  intro h
  unfold onOrder at h
  split at h
  · rename_i p hp
    simp only [Exec.bind_eq_error] at h
    rcases h with h | ⟨-, -, h | ⟨p', -, h⟩⟩
    · exact (Exec.ensure_eq_error.1 h).1 (hd _ (mem_of_getElem? hp))
    · exact hf p h
    · cases h
  · rename_i hn hp
    simp only [Exec.bind_eq_error] at h
    rcases h with h | ⟨-, -, h | ⟨p', -, h⟩⟩
    · exact (Exec.ensure_eq_error.1 h).1 (notMem_of_getElem? hn)
    · exact hf _ h
    · cases h
  · cases h

theorem onOrders_ne {row : TwsRow} {f : Exec Assertion TwsDL}
    (hf : f ≠ .error (.assertion site)) : s.onOrders row f ≠ .error (.assertion site) := by
  intro h
  unfold onOrders at h
  split at h
  · rcases Exec.bind_eq_error.1 h with h | ⟨p, -, h⟩
    · unfold Packet.asOrders at h
      split at h
      · cases h
      · cases h
    · cases h
  · exact hf h

/-- The account's own assertion in front of a callback is another one. -/
theorem filed_ne {p : Prop} [Decidable p] {x : Assertion} {f : Exec Assertion TwsDL}
    (hs : site.ofOrders = true) (hx : x.ofOrders = false) (hf : f ≠ .error (.assertion site)) :
    (do ensure p x; f) ≠ .error (.assertion site) := by
  intro h
  rcases Exec.bind_eq_error.1 h with h | ⟨-, -, h⟩
  · obtain ⟨-, hsite⟩ := Exec.ensure_eq_error.1 h
    rw [Fault.assertion.inj hsite, hx] at hs
    cases hs
  · exact hf h

/-- **Live and finished orders stay disjoint.** In every run that places no
order under the number of a finished one, no order is live and finished,
and none of the assertions about it fails. -/
theorem orders_disjoint (h : Run FreshStep (start cfg async jobs) evs s) :
    (∀ id ∈ s.p_orders, id ∉ s.p_orders_old) ∧ ∀ site, site.ofOrders = true →
      ({ s with curIdleTime := -1 } : TwsDL).finPlaceOrder ≠ .error (.assertion site) ∧
      (∀ err, ({ s with msgCounter := s.msgCounter + 1 } : TwsDL).errorPlaceOrder err ≠
        .error (.assertion site)) ∧
      (∀ row, s.twsOrderStatus row ≠ .error (.assertion site)) ∧
      (∀ row, s.twsOpenOrder row ≠ .error (.assertion site)) := by
  have hd := run_disjoint h
  refine ⟨hd, fun site hs => ⟨finPlaceOrder_ne hs hd, fun err => errorPlaceOrder_ne hs hd,
    fun row => filed_ne hs rfl (onOrders_ne (onOrder_ne (fun p => ?_) hd)),
    fun row => filed_ne hs rfl (onOrders_ne (onOrder_ne (fun p => ?_) hd))⟩⟩
  · exact nofun
  · intro h
    rcases Exec.bind_eq_error.1 h with h | ⟨r, -, h⟩
    · exact absurd (Exec.deref_eq_error.1 h).2 (by simp)
    · cases h

instance : Decidable s.FreshOrders := inferInstanceAs (Decidable (_ → _))

/-- `FreshStep`, to be executed. -/
def freshNext (s : TwsDL) (e : Event) : Option TwsDL :=
  if e.isTurn = true → s.FreshOrders then s.next e else none

theorem freshStep_of_freshNext (h : s.freshNext e = some s') : s.FreshStep e s' := by
  unfold freshNext at h
  split at h
  · rename_i hs
    exact ⟨step_of_next h, hs⟩
  · cases h

/-- Order 5 is bought first; after it come `n` others, and the last job is
about order `id`. The rate limit leaves the last one for the next turn. -/
def twentyFour (id : ℤ) : List Job :=
  .place_order { orderId := 5, order := { action := "BUY", totalQuantity := 100 } } ::
    List.replicate 22 (.place_order { order := { action := "BUY", totalQuantity := 1 } }) ++
    [.place_order { orderId := id, order := { action := "CANCEL" } }]

/-- Order 5 is filled before the last job is placed. -/
def filledBetween : List Event :=
  connects 40000 100 ++
    [.turn {},
      .orderStatus
        { id := 5, status := "Filled", filled := 100, remaining := 0, avgFillPrice := 1
          permId := 1, parentId := 0, lastFillPrice := 1, clientId := 1, whyHeld := "" },
      .clock 40500, .turn {}]

/-- With the last job about another order all goes well. -/
theorem orders_disjoint_filled : ∃ s,
    Run FreshStep (start {} false (twentyFour 200)) filledBetween s ∧
      s.p_orders_old.toList.map Prod.fst = [5] ∧ s.p_orders.size = 23 ∧
      ∀ id ∈ s.p_orders, id ∉ s.p_orders_old := by
  have hout : (filledBetween.foldlM freshNext (start {} false (twentyFour 200))).map
      (fun s => (s.p_orders_old.toList.map Prod.fst, s.p_orders.size)) = some ([5], 23) := by
    decide +kernel
  obtain ⟨s, hs, hl⟩ := Option.map_eq_some_iff.1 hout
  obtain ⟨hold, hlive⟩ := Prod.mk.inj hl
  have hrun := Run.of_foldlM (fun _ _ _ => freshStep_of_freshNext) hs
  exact ⟨s, hrun, hold, hlive, (orders_disjoint hrun).1⟩

/-- **An order that is filled becomes live again** when a job left over
cancels it, and the next message about it ends the program. -/
theorem filled_order_live_again : ∃ s,
    Run Step (start {} false (twentyFour 5)) filledBetween s ∧
      5 ∈ s.p_orders ∧ 5 ∈ s.p_orders_old ∧
      s.handle (.error { id := 5, code := 201, msg := "Order rejected" }) =
        .error (.assertion .errorPlaceOrderOld) := by
  have hout : (filledBetween.foldlM next (start {} false (twentyFour 5))).map
      (fun s => (decide (5 ∈ s.p_orders), decide (5 ∈ s.p_orders_old),
        Exec.fault (s.handle (.error { id := 5, code := 201, msg := "Order rejected" })))) =
        some (true, true, some (.assertion .errorPlaceOrderOld)) := by
    decide +kernel
  obtain ⟨s, hs, hl⟩ := Option.map_eq_some_iff.1 hout
  obtain ⟨hlive, hl⟩ := Prod.mk.inj hl
  obtain ⟨hold, hl⟩ := Prod.mk.inj hl
  refine ⟨s, Run.of_foldlM (fun _ _ _ => step_of_next) hs, of_decide_eq_true hlive,
    of_decide_eq_true hold, Exec.fault_eq_some.1 hl⟩

end TwsDL

end Twstools
