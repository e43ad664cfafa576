import Twstools.Jobs.Runs
/-!
# The connect handshake

After connecting the program waits for the next order number and for the
time before it goes on. The time is reset by `connectTws`, so it is one
that came on this connection. The order number is not: on a later
connection the one of an earlier connection is still there, and the time
alone completes the handshake.
-/

namespace Twstools

namespace TwsDL

variable {s s' s₀ begun : TwsDL} {e : Event} {evs since : List Event}
variable {cfg : ConfigTwsdo} {async : Bool} {jobs : List Job}

/-! ## What the handshake looks at -/

/-- The state, the connection, and what is known of it. -/
structure Link where
  state : State
  connected : Bool
  tws_valid_orderId : ℤ
  tws_time : ℤ

/-- The part of the program that is about the handshake. -/
def link (s : TwsDL) : Link where
  state := s.state
  connected := s.connected
  tws_valid_orderId := s.tws_valid_orderId
  tws_time := s.tws_hb.tws_time

theorem OrderChanged.link {id : ℤ} (h : s.OrderChanged id s') : s'.link = s.link := by
  cases h <;> rfl

/-! ## While the program waits -/

/-- A message of TWS tells nothing about the handshake. -/
theorem twsError_link {err : RowError} (h : s.twsError err = .ok s') : s'.link = s.link := by
  obtain ⟨s₁, ho, H, b, i, d, g, p, rfl⟩ := twsError_effect h
  exact ho.link.trans rfl

/-- **What a callback tells about the handshake.** -/
theorem handle_link (ht : ∀ c, e ≠ .turn c) (h : s.handle e = .ok s') :
    s'.state = s.state ∧ (s'.connected = true → s.connected = true) ∧
      (s'.tws_valid_orderId = s.tws_valid_orderId ∨ ∃ n, e = .nextValidId n) ∧
      (s'.tws_hb.tws_time = s.tws_hb.tws_time ∨ ∃ t, e = .currentTime t) := by
  -- most callbacks touch none of the four
  have same : s'.link = s.link → s'.state = s.state ∧ (s'.connected = true → s.connected = true) ∧
      (s'.tws_valid_orderId = s.tws_valid_orderId ∨ ∃ n, e = .nextValidId n) ∧
      (s'.tws_hb.tws_time = s.tws_hb.tws_time ∨ ∃ t, e = .currentTime t) := fun hl => by
    obtain ⟨h1, h2, h3, h4⟩ := Link.mk.inj hl
    exact ⟨h1, fun hc => h2 ▸ hc, .inl h3, .inl h4⟩
  cases event_path h with
  | turn => exact absurd rfl (ht _)
  | error h => exact same (twsError_link h)
  | connectionClosed h =>
      obtain ⟨-, p, rfl⟩ := twsConnectionClosed_effect h
      exact ⟨rfl, fun hc => Bool.noConfusion hc, .inl rfl, .inl rfl⟩
  | currentTime => exact ⟨rfl, id, .inl rfl, .inr ⟨_, rfl⟩⟩
  | nextValidId => exact ⟨rfl, id, .inr ⟨_, rfl⟩, .inl rfl⟩
  | orderStatus h | openOrder h => exact same h.link
  | _ => exact same rfl

theorem askTime_link (s : TwsDL) :
    s.askTime.state = s.state ∧ s.askTime.connected = s.connected ∧
      s.askTime.tws_valid_orderId = s.tws_valid_orderId ∧
      s.askTime.tws_hb.tws_time = s.tws_hb.tws_time := by
  unfold askTime
  split
  · dsimp only
    split <;> exact ⟨rfl, rfl, rfl, rfl⟩
  · exact ⟨rfl, rfl, rfl, rfl⟩

/-- **What a turn does while the program waits**: it goes on when both
numbers are known, or when there is no connection, and else keeps them. -/
theorem waitTwsCon_link (hw : s.state = .WAIT_TWS_CON) (h : s.waitTwsCon = .ok s') :
    (s'.connected = true → s.connected = true) ∧ s'.tws_valid_orderId = s.tws_valid_orderId ∧
      s'.tws_hb.tws_time = s.tws_hb.tws_time ∧
      (s'.state = .IDLE ↔ s.connected = false ∨
        s.tws_hb.tws_time ≠ 0 ∧ s.tws_valid_orderId ≠ 0) := by
  obtain ⟨hst, hcon, hid, htime⟩ := askTime_link s
  simp only [waitTwsCon] at h
  split at h
  · rename_i hc
    split at h
    · rename_i hboth
      obtain rfl := eq_of_changeState h
      rw [htime, hid] at hboth
      exact ⟨fun _ => hc, hid, htime, by simp [hboth]⟩
    · rename_i hboth
      rw [htime, hid] at hboth
      have hidle : ¬ (s.connected = false ∨ s.tws_hb.tws_time ≠ 0 ∧ s.tws_valid_orderId ≠ 0) := by
        rintro (hf | hb)
        · exact absurd (hc.symm.trans hf) (by decide)
        · exact hboth hb
      have stay : s'.state = s.state → (s'.state = .IDLE ↔ s.connected = false ∨
          s.tws_hb.tws_time ≠ 0 ∧ s.tws_valid_orderId ≠ 0) := fun hs => by
        rw [hs, hw]
        exact ⟨fun h => State.noConfusion h, fun h => absurd h hidle⟩
      split at h
      · rw [← Except.ok.inj h] at stay ⊢
        exact ⟨fun _ => hc, hid, htime, stay hst⟩
      · rcases disconnectTWS_effect h with rfl | ⟨-, p, rfl⟩
        · exact ⟨fun _ => hc, hid, htime, stay hst⟩
        · exact ⟨fun _ => hc, hid, htime, stay hst⟩
  · rename_i hc
    have hcf : s.connected = false := by simpa using hc
    obtain rfl := eq_of_changeState h
    exact ⟨fun hc' => hc', rfl, rfl, by simp [hcf]⟩

theorem turn_waits {c : Connect} (hw : s.state = .WAIT_TWS_CON) (h : s.turn c = .ok s') :
    (s'.connected = true → s.connected = true) ∧ s'.tws_valid_orderId = s.tws_valid_orderId ∧
      s'.tws_hb.tws_time = s.tws_hb.tws_time ∧
      (s'.state = .IDLE ↔ s.connected = false ∨
        s.tws_hb.tws_time ≠ 0 ∧ s.tws_valid_orderId ≠ 0) := by
  obtain ⟨s₁, i, hpath, rfl⟩ := turn_path h
  cases hpath with
  | connecting _ hwait =>
      have hlink := waitTwsCon_link (s := { s with curIdleTime := -1 }) hw hwait
      exact hlink
  | waiting hi | reconnecting hi | working hi => exact absurd (hw.symm.trans hi) State.noConfusion

/-! ## Connecting -/

theorem request_state {t : ReqType} (h : s.request t = .ok s') : s'.state = s.state := by
  by_cases ht : t = .NONE
  · subst ht
    have hj : s'.jobs = s.jobs := placeOrders_jobs _ h
    exact congrArg Jobs.state hj
  · obtain ⟨r, i, c, o, H, g, rfl | ⟨-, p, out, rfl⟩⟩ := request_effect ht h
    · rfl
    · rfl

theorem work_state (h : s.work = .ok s') : s'.state = s.state := by
  simp only [work, Exec.bind_eq_ok] at h
  obtain ⟨s₁, h₁, s₂, h₂, h⟩ := h
  have hs₁ : s₁.state = s.state := congrArg Jobs.state (startMktData_jobs h₁)
  have hs₂ := request_state h₂
  rw [← Except.ok.inj h, ← hs₁]
  refine Eq.trans ?_ hs₂
  unfold checkDone
  split <;> rfl

/-- **`connectTws` waits with the time unknown.** -/
theorem connectTws_link {c : Connect} (h : s.connectTws c = .ok s')
    (hw : s'.state = .WAIT_TWS_CON) (hs : s.state = .IDLE) :
    s'.connected = true ∧ s'.tws_hb.tws_time = 0 ∧
      s'.tws_valid_orderId = s.tws_valid_orderId := by
  rcases connectTws_effect h with ⟨i, rfl⟩ | ⟨k, b, st, hst, rfl⟩
  · exact absurd (hs.symm.trans hw) State.noConfusion
  · rcases hst with rfl | ⟨-, hc⟩
    · cases hw
    · exact ⟨hc, rfl, rfl⟩

/-- **The program begins to wait** in a turn that connects. -/
theorem turn_connects {c : Connect} (hok : s.jobs.Ok) (hs : s.state = .IDLE)
    (h : s.turn c = .ok s') (hw : s'.state = .WAIT_TWS_CON) :
    s'.connected = true ∧ s'.tws_hb.tws_time = 0 := by
  obtain ⟨s₁, i, hpath, rfl⟩ := turn_path h
  have hwait : ∀ s₂, ({ s with curIdleTime := -1 } : TwsDL).waitData = .ok s₂ →
      s₂.state = .IDLE := fun s₂ h₂ =>
    (waitData_cases (s := { s with curIdleTime := -1 }) hok h₂).frame.1.trans hs
  have hw₁ : s₁.state = .WAIT_TWS_CON := hw
  cases hpath with
  | connecting hi _ => exact absurd (hs.symm.trans hi) State.noConfusion
  | waiting _ h₂ _ =>
      rw [hwait _ h₂] at hw₁
      cases hw₁
  | reconnecting _ h₂ _ _ _ hcon =>
      obtain ⟨hc, ht, -⟩ := connectTws_link hcon hw₁ (hwait _ h₂)
      exact ⟨hc, ht⟩
  | working _ h₂ _ _ _ hwork =>
      rw [work_state hwork, hwait _ h₂] at hw₁
      cases hw₁

/-! ## One connection -/

/-- The run `evs` has led to `s`, where the program waits: it began to wait
in `begun`, after `connectTws`, and has taken the events `since` there. -/
inductive Waiting (s₀ : TwsDL) : List Event → TwsDL → List Event → TwsDL → Prop
  /-- It has connected. -/
  | connect {evs : List Event} {s s' : TwsDL} {c : Connect} : Run Step s₀ evs s →
      s.state = .IDLE → s.Step (.turn c) s' → s'.state = .WAIT_TWS_CON →
      Waiting s₀ (evs ++ [.turn c]) s' [] s'
  /-- It waits on. -/
  | wait {evs since : List Event} {begun s s' : TwsDL} {e : Event} :
      Waiting s₀ evs begun since s → s.Step e s' → s'.state = .WAIT_TWS_CON →
      Waiting s₀ (evs ++ [e]) begun (since ++ [e]) s'

theorem Waiting.state (h : Waiting s₀ evs begun since s) : s.state = .WAIT_TWS_CON := by
  cases h with
  | connect hr hs hstep hw => exact hw
  | wait h hstep hw => exact hw

/-- **Whenever the program waits, it has connected before.** -/
theorem exists_waiting (h : Run Step (start cfg async jobs) evs s)
    (hw : s.state = .WAIT_TWS_CON) :
    ∃ begun since, Waiting (start cfg async jobs) evs begun since s := by
  induction h with
  | nil => cases hw
  | snoc hr hstep ih =>
      rename_i evs s s' e
      cases hs : s.state with
      | WAIT_TWS_CON =>
          obtain ⟨begun, since, hwait⟩ := ih hs
          exact ⟨begun, _, hwait.wait hstep hw⟩
      | IDLE =>
          -- Only a turn changes the state.
          rcases step_cases (run_ok hr) hstep with ⟨⟨c, rfl⟩, -⟩ | ⟨-, hc⟩
          · exact ⟨s', [], .connect hr hs hstep hw⟩
          · have hst : s'.state = s.state := hc.frame.1
            exact absurd (hw.symm.trans (hst.trans hs)) State.noConfusion

/-- **What is known while the program waits.** While the connection is up,
the order number is the one it began with or has come since, and the time
is unknown or has come since. -/
theorem Waiting.known (h : Waiting (start cfg async jobs) evs begun since s)
    (hc : s.connected = true) :
    (s.tws_valid_orderId = begun.tws_valid_orderId ∨ ∃ n, .nextValidId n ∈ since) ∧
      (s.tws_hb.tws_time = 0 ∨ ∃ t, .currentTime t ∈ since) := by
  induction h with
  | connect hr hs hstep hw => exact ⟨.inl rfl, .inl (turn_connects (run_ok hr) hs hstep.2 hw).2⟩
  | wait h hstep hw ih =>
      rename_i evs since begun s s' e
      have mono : ∀ {x : Event}, x ∈ since → x ∈ since ++ [e] := fun hx =>
        List.mem_append_left _ hx
      -- What one event does, be it a turn or a callback.
      have hev : (s'.connected = true → s.connected = true) ∧
          (s'.tws_valid_orderId = s.tws_valid_orderId ∨ ∃ n, e = .nextValidId n) ∧
          (s'.tws_hb.tws_time = s.tws_hb.tws_time ∨ ∃ t, e = .currentTime t) := by
        by_cases ht : ∃ c, e = .turn c
        · obtain ⟨c, rfl⟩ := ht
          obtain ⟨hcon, hid, htime, -⟩ := turn_waits h.state hstep.2
          exact ⟨hcon, .inl hid, .inl htime⟩
        · exact (handle_link (fun c hx => ht ⟨c, hx⟩) hstep.2).2
      obtain ⟨hcon, hid, htime⟩ := hev
      obtain ⟨ihid, ihtime⟩ := ih (hcon hc)
      constructor
      · rcases hid with hid | ⟨n, rfl⟩
        · rcases ihid with hi | ⟨n, hn⟩
          · exact .inl (hid.trans hi)
          · exact .inr ⟨n, mono hn⟩
        · exact .inr ⟨n, by simp⟩
      · rcases htime with htime | ⟨t, rfl⟩
        · rcases ihtime with hi | ⟨t, ht⟩
          · exact .inl (htime.trans hi)
          · exact .inr ⟨t, mono ht⟩
        · exact .inr ⟨t, by simp⟩

/-- The connection began with an order number of an earlier one, and TWS has
sent none since. -/
def LeftOver (begun : TwsDL) (since : List Event) : Prop :=
  begun.tws_valid_orderId ≠ 0 ∧ ∀ n, .nextValidId n ∉ since

/-- **The handshake is complete** unless an order number is left over.
Whenever the program waits it has connected before. When it goes on, still
connected, then TWS has sent the order number and the time since it
connected, exactly if this is not the order number of an earlier
connection. -/
theorem handshake_complete_iff (h : Run Step (start cfg async jobs) evs s)
    (hw : s.state = .WAIT_TWS_CON) (hc : s.connected = true) (hstep : s.Step e s')
    (hs : s'.state = .IDLE) :
    (∃ begun since, Waiting (start cfg async jobs) evs begun since s) ∧
      ∀ begun since, Waiting (start cfg async jobs) evs begun since s →
        ((∃ n, .nextValidId n ∈ since) ∧ (∃ t, .currentTime t ∈ since) ↔
          ¬ LeftOver begun since) := by
  refine ⟨exists_waiting h hw, fun begun since hwait => ?_⟩
  have hboth : s.tws_hb.tws_time ≠ 0 ∧ s.tws_valid_orderId ≠ 0 := by
    rcases step_cases (run_ok h) hstep with ⟨⟨c, rfl⟩, -⟩ | ⟨-, hcall⟩
    · have hgo := (turn_waits hw hstep.2).2.2.2.1 hs
      exact hgo.resolve_left (by simp [hc])
    · have hst : s'.state = s.state := hcall.frame.1
      exact absurd (hs.symm.trans (hst.trans hw)) State.noConfusion
  obtain ⟨hid, htime⟩ := hwait.known hc
  have ht : ∃ t, .currentTime t ∈ since := htime.resolve_left hboth.1
  constructor
  · rintro ⟨⟨n, hn⟩, -⟩ ⟨-, hno⟩
    exact hno n hn
  · intro hl
    refine ⟨?_, ht⟩
    rcases hid with hid | hn
    · by_contra hno
      exact hl ⟨hid ▸ hboth.2, not_exists.1 hno⟩
    · exact hn

/-- On the first connection it is complete. -/
theorem handshake_complete_first :
    ∃ s s', Run Step (start {} false []) ((connects 40000 1).take 5) s ∧ s.Step (.turn {}) s' ∧
      s'.state = .IDLE ∧ ∃ begun since,
        Waiting (start {} false []) ((connects 40000 1).take 5) begun since s ∧
        ((∃ n, .nextValidId n ∈ since) ∧ (∃ t, .currentTime t ∈ since) ↔
          ¬ LeftOver begun since) := by
  have hout : (((connects 40000 1).take 5).foldlM next (start {} false [])).bind (fun s =>
      (s.next (.turn {})).map fun s' => (s.state, s.connected, s'.state)) =
        some (.WAIT_TWS_CON, true, .IDLE) := by
    decide +kernel
  obtain ⟨s, hrun, hout⟩ := Option.bind_eq_some_iff.1 hout
  obtain ⟨s', hstep, hout⟩ := Option.map_eq_some_iff.1 hout
  obtain ⟨hw, hout⟩ := Prod.mk.inj hout
  obtain ⟨hc, hs⟩ := Prod.mk.inj hout
  have h := Run.of_foldlM (fun _ _ _ => step_of_next) hrun
  have hstep := step_of_next hstep
  obtain ⟨⟨begun, since, hwait⟩, hiff⟩ := handshake_complete_iff h hw hc hstep hs
  exact ⟨s, s', h, hstep, hs, begun, since, hwait, hiff begun since hwait⟩

/-- The connection is lost after the handshake. -/
def lostAfterHandshake : List Event :=
  connects 40000 1 ++ [.connectionClosed, .clock 80000]

/-- **On the second connection the time is enough**: no order number has
come when the program goes on. -/
theorem old_order_number_counts :
    ∃ begun s s', Waiting (start {} false [])
        (lostAfterHandshake ++ [.turn {}] ++ [.currentTime 80000]) begun [.currentTime 80000] s ∧
      s.connected = true ∧ s.Step (.turn {}) s' ∧ s'.state = .IDLE := by
  have hout : (lostAfterHandshake.foldlM next (start {} false [])).bind (fun a =>
      (a.next (.turn {})).bind fun b => (b.next (.currentTime 80000)).bind fun s =>
        (s.next (.turn {})).map fun s' => (a.state, b.state, s.state, s.connected, s'.state)) =
      some (.IDLE, .WAIT_TWS_CON, .WAIT_TWS_CON, true, .IDLE) := by
    decide +kernel
  obtain ⟨a, ha, hout⟩ := Option.bind_eq_some_iff.1 hout
  obtain ⟨b, hb, hout⟩ := Option.bind_eq_some_iff.1 hout
  obtain ⟨s, hs, hout⟩ := Option.bind_eq_some_iff.1 hout
  obtain ⟨s', hs', hout⟩ := Option.map_eq_some_iff.1 hout
  obtain ⟨h1, hout⟩ := Prod.mk.inj hout
  obtain ⟨h2, hout⟩ := Prod.mk.inj hout
  obtain ⟨h3, hout⟩ := Prod.mk.inj hout
  obtain ⟨h4, h5⟩ := Prod.mk.inj hout
  have hrun := Run.of_foldlM (fun _ _ _ => step_of_next) ha
  exact ⟨b, s, s', .wait (.connect hrun h1 (step_of_next hb) h2) (step_of_next hs) h3, h4,
    step_of_next hs', h5⟩

end TwsDL

end Twstools
