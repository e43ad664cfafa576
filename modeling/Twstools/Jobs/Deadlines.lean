import Twstools.Jobs.Handshake
import Twstools.Jobs.Serial
import Twstools.Twsdo.Config
import Twstools.Twsdo.Throttle
/-!
# Nothing is waited for longer than allowed

A request is given up when it is older than `tws_reqTimeout`, a connection
that TWS does not complete when it is older than `tws_conTimeout`, and a
new one is not tried before that time has passed since the last one was
tried or lost.
-/

namespace Twstools

namespace TwsDL

variable {s s' : TwsDL} {e : Event} {evs : List Event} {cfg : ConfigTwsdo} {async : Bool}
variable {jobs : List Job} {b : Bool}

/-! ## What leaves the connection alone -/

/-- Whether there is a connection, and when it was tried or lost. -/
def contact (s : TwsDL) : Bool × ℤ := (s.connected, s.lastConnectionTime)

theorem waitData_contact {i : ℤ} (h : ({ s with curIdleTime := i } : TwsDL).waitData = .ok s') :
    s'.contact = s.contact := by
  obtain ⟨live, old, c, o, H, out, error, lastError, quit, packet, request, rfl⟩ :=
    waitData_effect h
  rfl

theorem work_contact (h : s.work = .ok s') : s'.contact = s.contact := by
  obtain ⟨quotes, fuckme, todo, r, i, g, request, packet, live, id, out, lastError, quit, rfl⟩ :=
    work_effect h
  rfl

/-! ## After a turn -/

/-- **Nothing is late.** The answer to an open request still comes in, for
no longer than the timeout allows, and so does what completes a
connection. -/
structure OnTime (s : TwsDL) : Prop where
  request : s.currentRequest.reqType ≠ .NONE →
    s.currentRequest.age s.now ≤ max s.cfg.tws_reqTimeout 0
  recording : ∀ p, s.packet = some p → p.finished = false
  handshake : s.state = .WAIT_TWS_CON → s.connected = true →
    s.now - s.lastConnectionTime ≤ max s.cfg.tws_conTimeout 0

/-- What `waitData` does not finish is still recording and not too old. -/
theorem recording_of_closing (hok : s.jobs.Ok) (h : s.closing = none) {p : Packet}
    (hp : s.packet = some p) :
    p.finished = false ∧ s.currentRequest.age s.now ≤ s.cfg.tws_reqTimeout := by
  rw [closing, hp] at h
  dsimp only at h
  split at h
  · cases h
  rename_i hf
  split at h
  · rename_i hage
    exact ⟨by simpa using hf, hage⟩
  · -- a packet that records can be closed
    exfalso
    cases hc : p.closeError .TIMEOUT with
    | ok p' =>
        rw [hc] at h
        cases h
    | error f =>
        have hm : p.base.mode = .RECORD := by
          cases hm : p.base.mode with
          | RECORD => rfl
          | CLEAN => exact absurd hm (hok.not_clean p hp)
          | CLOSED => exact absurd (by simp [Packet.finished, PacketBase.finished, hm]) hf
        simp [Packet.closeError, PacketBase.closeError, hm] at hc

theorem waitData_onTime {i : ℤ} (hok : s.jobs.Ok)
    (h : ({ s with curIdleTime := i } : TwsDL).waitData = .ok s') :
    (∀ p, s'.packet = some p → p.finished = false) ∧
      (s'.currentRequest.reqType ≠ .NONE →
        s'.currentRequest.age s'.now ≤ s'.cfg.tws_reqTimeout) := by
  have hnow : s'.now = s.now := (waitData_throttled h).1
  have hw := waitData_cfg h
  have hcfg : s'.cfg = s.cfg := hw
  have hcl := waitData_closing (s := { s with curIdleTime := i }) hok h
  rcases hcl with ⟨hnone, hj⟩ | ⟨p, j', -, -, -, hj⟩
  · have hj : s'.jobs = s.jobs := hj
    have hpk : s'.packet = s.packet := congrArg Jobs.packet hj
    have hrq : s'.currentRequest = s.currentRequest := congrArg Jobs.request hj
    rw [hpk, hrq, hnow, hcfg]
    refine ⟨fun p hp => (recording_of_closing hok hnone hp).1, fun hn => ?_⟩
    obtain ⟨p, hp, -⟩ := packet_of_ok hok hn
    exact (recording_of_closing hok hnone hp).2
  · have hpk : s'.packet = none := congrArg Jobs.packet hj
    have hrq : s'.currentRequest.reqType = .NONE := congrArg (fun j : Jobs => j.request.reqType) hj
    refine ⟨fun p hp => ?_, fun hn => absurd hrq hn⟩
    rw [hpk] at hp
    cases hp

theorem work_onTime (hok : s.jobs.Ok) (hn : s.currentRequest.reqType = .NONE)
    (h : s.work = .ok s') :
    (∀ p, s'.packet = some p → p.finished = false) ∧
      (s'.currentRequest.reqType ≠ .NONE → s'.currentRequest.age s'.now = 0) := by
  have hnow : s'.now = s.now := (work_throttled h).1
  simp only [work, Exec.bind_eq_ok] at h
  obtain ⟨s₁, h₁, s₂, h₂, h⟩ := h
  have hj := startMktData_jobs h₁
  have hpk : s₁.packet = none := (congrArg Jobs.packet hj).trans (hok.packet_eq_none.2 hn)
  have hrq : s₁.currentRequest = s.currentRequest := congrArg Jobs.request hj
  have hnow₁ : s₁.now = s.now := (startMktData_throttled h₁).1
  have hs' : s'.packet = s₂.packet ∧ s'.currentRequest = s₂.currentRequest := by
    rw [← Except.ok.inj h, checkDone]
    split <;> exact ⟨rfl, rfl⟩
  rw [hs'.1, hs'.2, hnow]
  have hA := request_asked h₂
  cases hA with
  | later hr hp _ =>
      have hr : s₂.currentRequest = s₁.currentRequest := hr
      have hp : s₂.packet = s₁.packet := hp
      rw [hr, hp, hpk, hrq, hn]
      exact ⟨by simp, by simp⟩
  | now hr hp hf _ _ =>
      have hr : s₂.currentRequest = ⟨_, _, s₁.now⟩ := hr
      have hp : s₂.packet = some _ := hp
      rw [hr, hp]
      refine ⟨fun p h => Option.some.inj h ▸ hf, fun _ => ?_⟩
      rw [GenericRequest.age, hnow₁, Int.sub_self]
      rfl

theorem waitTwsCon_handshake (h : s.waitTwsCon = .ok s') (hst : s'.state = .WAIT_TWS_CON)
    (hc : s'.connected = true) : s'.contact = s.contact ∧
      s.now - s.lastConnectionTime < s.cfg.tws_conTimeout := by
  have hask : s.askTime.contact = s.contact := by
    unfold askTime
    split
    · dsimp only
      split <;> rfl
    · rfl
  simp only [waitTwsCon] at h
  split at h
  · split at h
    · rw [eq_of_changeState h] at hst
      cases hst
    · split at h
      · rename_i hw
        rw [← Except.ok.inj h]
        exact ⟨hask, by omega⟩
      · unfold disconnectTWS at h
        split at h
        · have hf := twsConnectionClosed_fixed h
          have hf : s'.connected = false := congrArg Fixed.connected hf
          rw [hf] at hc
          cases hc
        · rename_i hcon
          rw [← Except.ok.inj h] at hc
          exact absurd hc hcon
  · rw [eq_of_changeState h] at hst
    cases hst

/-- **Nothing is late after a turn.** -/
theorem turn_onTime {c : Connect} (hok : s.jobs.Ok) (h : s.turn c = .ok s') : s'.OnTime := by
  have hnow : s'.now = s.now := (turn_throttled h).1
  have hcfg : s'.cfg = s.cfg := turn_cfg h
  obtain ⟨s₁, i, hpath, rfl⟩ := turn_path h
  have waited : ∀ {s₂ : TwsDL}, ({ s with curIdleTime := -1 } : TwsDL).waitData = .ok s₂ →
      s₂.jobs.Ok ∧ s₂.state = s.state := fun {s₂} hw => by
    have hW := waitData_cases (s := { s with curIdleTime := -1 }) hok hw
    exact ⟨hW.ok hok, hW.frame.1⟩
  suffices s₁.OnTime from ⟨this.request, this.recording, this.handshake⟩
  cases hpath with
  | connecting hst hw =>
      have hn := hok.waiting hst
      have hw' := waitTwsCon_jobs (s := { s with curIdleTime := -1 }) hn hw
      obtain ⟨st, hj⟩ := hw'
      have hrq : s₁.currentRequest.reqType = .NONE :=
        (congrArg (fun j : Jobs => j.request.reqType) hj).trans hn
      have hpk : s₁.packet = none := (congrArg Jobs.packet hj).trans (hok.packet_eq_none.2 hn)
      refine ⟨fun h => absurd hrq h, fun p hp => ?_, fun hst' hcon => ?_⟩
      · rw [hpk] at hp
        cases hp
      · obtain ⟨hc, hlt⟩ := waitTwsCon_handshake hw hst' hcon
        have hl : s₁.lastConnectionTime = s.lastConnectionTime := congrArg Prod.snd hc
        have hnow' : s₁.now = s.now := hnow
        have hcfg' : s₁.cfg = s.cfg := hcfg
        rw [hl, hnow', hcfg']
        exact le_trans hlt.le (le_max_left _ _)
  | waiting hst hw _ =>
      obtain ⟨hpk, hage⟩ := waitData_onTime hok hw
      refine ⟨fun hn => le_trans (hage hn) (le_max_left _ _), hpk, fun hst' => ?_⟩
      rw [(waited hw).2] at hst'
      exact absurd (hst.symm.trans hst') State.noConfusion
  | @reconnecting s₂ hst hw _ hn _ hcon =>
      obtain ⟨hok₂, hst₂⟩ := waited hw
      have hpk₂ : s₂.packet = none := hok₂.packet_eq_none.2 hn
      have hstay := connectTws_jobs hcon
      obtain ⟨st, hj⟩ := hstay
      have hrq : s₁.currentRequest.reqType = .NONE :=
        (congrArg (fun j : Jobs => j.request.reqType) hj).trans hn
      have hpk : s₁.packet = none := (congrArg Jobs.packet hj).trans hpk₂
      refine ⟨fun h => absurd hrq h, fun p hp => ?_, fun hst' _ => ?_⟩
      · rw [hpk] at hp
        cases hp
      · rcases connectTws_effect hcon with ⟨j, rfl⟩ | ⟨n, b, st, -, rfl⟩
        · have hidle : s₂.state = .IDLE := hst₂.trans hst
          exact absurd (hidle.symm.trans hst') State.noConfusion
        · exact le_trans (Int.sub_self _).le (le_max_right _ _)
  | @working s₂ hst hw _ hn _ hwork =>
      obtain ⟨hok₂, hst₂⟩ := waited hw
      obtain ⟨hpk, hage⟩ := work_onTime hok₂ hn hwork
      refine ⟨fun hn => (hage hn).le.trans (le_max_right _ _), hpk, fun hst' => ?_⟩
      rw [work_state hwork, hst₂] at hst'
      exact absurd (hst.symm.trans hst') State.noConfusion

/-! ## Trying to connect -/

/-- Whether a turn tries to connect: it gets as far as `connectTws`, which
does not put it off. -/
def tries (s : TwsDL) : Bool :=
  match ({ s with curIdleTime := -1 } : TwsDL).waitData with
  | .ok s₁ => s.state = .IDLE ∧ s₁.quit = false ∧ s₁.currentRequest.reqType = .NONE ∧
      s₁.connected = false ∧ s₁.cfg.tws_conTimeout ≤ s₁.now - s₁.lastConnectionTime
  | .error _ => false

/-- **When a connection was tried** (`true`) **or lost**. -/
def contacts (s : TwsDL) (evs : List Event) : List (ℤ × Bool) :=
  entries next (fun s e s' =>
    if e.isTurn ∧ s.tries then [(s'.now, true)]
    else if s.connected = true ∧ s'.connected = false then [(s'.now, false)]
    else []) s evs

/-- Connecting, when it is not put off. -/
theorem connectTws_tried {c : Connect} (h : s.connectTws c = .ok s')
    (hle : s.cfg.tws_conTimeout ≤ s.now - s.lastConnectionTime) :
    s'.lastConnectionTime = s.now := by
  simp only [connectTws, Exec.bind_eq_ok] at h
  obtain ⟨u, hu, h⟩ := h
  have hc : s.connected = false := (Exec.ensure_eq_ok.1 hu).1
  rw [if_neg (by omega)] at h
  simp only [Exec.bind_eq_ok] at h
  obtain ⟨s₁, h₁, s₂, h₂, -, -, h⟩ := h
  obtain rfl := eq_of_changeState h₁
  obtain ⟨k, rfl⟩ := foldlM_twsError c.errors (by exact hc) h₂
  split at h
  · rw [eq_of_changeState h]
  · split at h
    · rw [← Except.ok.inj h]
    · rw [← Except.ok.inj h]

theorem connectTws_contact {c : Connect} (h : s.connectTws c = .ok s') :
    s'.contact = s.contact ∨ s'.lastConnectionTime = s.now := by
  rcases connectTws_effect h with ⟨i, rfl⟩ | ⟨n, b, st, -, rfl⟩
  · exact .inl rfl
  · exact .inr rfl

theorem waitTwsCon_contact (h : s.waitTwsCon = .ok s') :
    s'.contact = s.contact ∨ s'.lastConnectionTime = s.now := by
  obtain ⟨hb, r, out, ⟨st, i, rfl⟩ | ⟨-, p, rfl⟩⟩ := waitTwsCon_effect h
  · exact .inl rfl
  · exact .inr rfl

/-- **A turn that tries to connect** notes the time. -/
theorem turn_contact {c : Connect} (h : s.turn c = .ok s') :
    (s'.contact = s.contact ∨ s'.lastConnectionTime = s.now) ∧
      (s.tries = true → s'.lastConnectionTime = s.now) := by
  obtain ⟨s₁, i, hpath, rfl⟩ := turn_path h
  suffices (s₁.contact = s.contact ∨ s₁.lastConnectionTime = s.now) ∧
    (s.tries = true → s₁.lastConnectionTime = s.now) from this
  -- what `tries` says of the state after `waitData`
  have tried : ∀ {s₂ : TwsDL}, ({ s with curIdleTime := -1 } : TwsDL).waitData = .ok s₂ →
      s.tries = true → s₂.quit = false ∧ s₂.currentRequest.reqType = .NONE ∧
        s₂.connected = false ∧ s₂.cfg.tws_conTimeout ≤ s₂.now - s₂.lastConnectionTime :=
    fun {s₂} hw ht => by
      rw [tries, hw] at ht
      exact (of_decide_eq_true ht).2
  cases hpath with
  | connecting hst hw =>
      refine ⟨waitTwsCon_contact (s := { s with curIdleTime := -1 }) hw, fun ht => ?_⟩
      have hidle : s.state = .IDLE := by
        unfold tries at ht
        split at ht
        · exact (of_decide_eq_true ht).1
        · cases ht
      exact absurd (hst.symm.trans hidle) State.noConfusion
  | waiting _ hw hq =>
      refine ⟨.inl (waitData_contact hw), fun ht => ?_⟩
      obtain ⟨h1, h2, -⟩ := tried hw ht
      rcases hq with hq | hq
      · exact absurd (hq.symm.trans h1) Bool.noConfusion
      · exact absurd h2 hq
  | @reconnecting s₂ _ hw _ _ _ hcon =>
      have hn : s₂.now = s.now := (waitData_throttled hw).1
      rw [← waitData_contact hw, ← hn]
      exact ⟨connectTws_contact hcon, fun ht => connectTws_tried hcon (tried hw ht).2.2.2⟩
  | working _ hw _ _ hcon hwork =>
      refine ⟨.inl ((work_contact hwork).trans (waitData_contact hw)), fun ht => ?_⟩
      exact absurd ((tried hw ht).2.2.1.symm.trans hcon) Bool.noConfusion

/-- **A connection that is tried or lost** is noted with the time. -/
theorem step_contact (h : s.Step e s') :
    (s'.contact = s.contact ∨ s'.lastConnectionTime = s'.now) ∧
      (e.isTurn = true → s.tries = true → s'.lastConnectionTime = s'.now) := by
  by_cases ht : ∃ c, e = .turn c
  · obtain ⟨c, rfl⟩ := ht
    rw [(turn_throttled h.2).1]
    obtain ⟨hc, htr⟩ := turn_contact h.2
    exact ⟨hc, fun _ => htr⟩
  have hturn : e.isTurn = false := by
    cases e with
    | turn c => exact absurd ⟨c, rfl⟩ ht
    | _ => rfl
  refine ⟨?_, fun h => by rw [hturn] at h; cases h⟩
  by_cases hl : e = .connectionClosed
  · subst hl
    have hf := connectionClosed_fixed h.2
    have hn : s'.now = s.now := congrArg Fixed.now hf
    rw [hn]
    exact .inr (congrArg Fixed.lastConnectionTime hf)
  by_cases hn : ∃ t, e = .clock t
  · obtain ⟨t, rfl⟩ := hn
    rw [← Except.ok.inj h.2]
    exact .inl rfl
  by_cases hc : e = .connectAck
  · subst hc
    have hf := (twsConnectAck_eq h.2).1
    exact .inl (congrArg (fun f => (f.connected, f.lastConnectionTime)) hf)
  · have hf := callback_fixed (fun c hc => ht ⟨c, hc⟩) (fun t he => hn ⟨t, he⟩) hc hl h.2
    exact .inl (congrArg (fun f => (f.connected, f.lastConnectionTime)) hf)

/-- `tries` in terms of the state before the turn. -/
theorem conTimeout_of_tries (h : s.tries = true) :
    s.cfg.tws_conTimeout ≤ s.now - s.lastConnectionTime := by
  unfold tries at h
  split at h
  · rename_i s₁ hw
    have hle := (of_decide_eq_true h).2.2.2.2
    have hl : s₁.lastConnectionTime = s.lastConnectionTime :=
      congrArg Prod.snd (waitData_contact hw)
    have hn : s₁.now = s.now := (waitData_throttled hw).1
    have hc := waitData_cfg hw
    have hc : s₁.cfg = s.cfg := hc
    rwa [hl, hn, hc] at hle
  · cases h

/-- **What was tried or lost is over**, and the last of it is noted. -/
structure Spaced (timeout : ℤ) (l : List (ℤ × Bool)) (s : TwsDL) : Prop where
  pairwise : l.Pairwise fun x y => y.2 = true → x.1 + timeout ≤ y.1
  last : ∀ x ∈ l, x.1 ≤ s.lastConnectionTime
  now : s.lastConnectionTime ≤ s.now

/-- One contact more, at the time that is noted now. -/
theorem Spaced.snoc {timeout : ℤ} {l : List (ℤ × Bool)} (hS : Spaced timeout l s)
    (hle : s.now ≤ s'.now) (hlast : s'.lastConnectionTime = s'.now) {tried : Bool}
    (ht : tried = true → timeout ≤ s'.now - s.lastConnectionTime) :
    Spaced timeout (l ++ [(s'.now, tried)]) s' := by
  have hbefore := hS.now
  refine ⟨?_, fun x hx => ?_, hlast.le⟩
  · refine List.pairwise_append.2 ⟨hS.pairwise, List.pairwise_singleton _ _, ?_⟩
    intro x hx y hy htrue
    obtain rfl := List.mem_singleton.1 hy
    have := hS.last x hx
    have := ht htrue
    dsimp only
    omega
  · rw [hlast]
    rcases List.mem_append.1 hx with hx | hx
    · have := hS.last x hx
      omega
    · rw [List.mem_singleton.1 hx]

theorem Spaced.step {timeout : ℤ} {l : List (ℤ × Bool)} (hS : Spaced timeout l s)
    (hcfg : s.cfg.tws_conTimeout = timeout) (hle : s.now ≤ s'.now) (h : s.Step e s') :
    Spaced timeout (l ++ if e.isTurn ∧ s.tries then [(s'.now, true)]
      else if s.connected = true ∧ s'.connected = false then [(s'.now, false)] else []) s' := by
  obtain ⟨hc, ht⟩ := step_contact h
  split
  · rename_i htry
    refine hS.snoc hle (ht htry.1 htry.2) fun _ => ?_
    have := conTimeout_of_tries htry.2
    omega
  split
  · rename_i hlost
    refine hS.snoc hle (hc.resolve_left fun heq => ?_) (by simp)
    have hcon : s'.connected = s.connected := congrArg Prod.fst heq
    rw [hcon, hlost.1] at hlost
    exact absurd hlost.2 Bool.noConfusion
  · rw [List.append_nil]
    have hbefore := hS.now
    rcases hc with heq | hlast
    · have hl : s'.lastConnectionTime = s.lastConnectionTime := congrArg Prod.snd heq
      exact ⟨hS.pairwise, fun x hx => hl ▸ hS.last x hx, by omega⟩
    · refine ⟨hS.pairwise, fun x hx => ?_, hlast.le⟩
      have := hS.last x hx
      omega

theorem run_spaced (h : Run Step (start cfg async jobs) evs s) : evs = [] ∨ Clocked evs →
    Spaced cfg.tws_conTimeout (contacts (start cfg async jobs) evs) s := by
  refine h.history (I := fun evs s => evs = [] ∨ Clocked evs →
    Spaced cfg.tws_conTimeout (contacts (start cfg async jobs) evs) s)
    (fun _ => ⟨.nil, by simp [contacts], le_refl _⟩) ?_
  intro evs s e s' hr ih hstep hc
  have hc : Clocked (evs ++ [e]) := hc.resolve_left (by simp)
  have hlog : contacts (start cfg async jobs) (evs ++ [e]) =
      contacts (start cfg async jobs) evs ++ if e.isTurn ∧ s.tries then [(s'.now, true)]
        else if s.connected = true ∧ s'.connected = false then [(s'.now, false)] else [] :=
    hr.entries_snoc (fun _ _ _ => next_eq_of_step) hstep
  rw [hlog]
  exact (ih hc.of_snoc).step (by rw [cfg_of_run hr]; rfl) (now_le_of_clocked hr hstep hc) hstep

/-- **Nothing is late after a turn** of a run: an open request is not older
than `tws_reqTimeout` and its packet still records, and a connection that is
not complete is not older than `tws_conTimeout`. A negative timeout counts
as 0. -/
theorem on_time (h : Run Step (start cfg async jobs) evs s) {c : Connect}
    (hs : s.Step (.turn c) s') :
    (s'.currentRequest.reqType ≠ .NONE →
      s'.currentRequest.age s'.now ≤ max cfg.tws_reqTimeout 0 ∧
        ∃ p, s'.packet = some p ∧ p.finished = false) ∧
    (s'.state = .WAIT_TWS_CON → s'.connected = true →
      s'.now - s'.lastConnectionTime ≤ max cfg.tws_conTimeout 0) := by
  have hT := turn_onTime (run_ok h) hs.2
  have hok := run_ok (h.snoc hs)
  have hcfg : s'.cfg = cfg := cfg_of_run (h.snoc hs)
  refine ⟨fun hn => ⟨hcfg ▸ hT.request hn, ?_⟩, hcfg ▸ hT.handshake⟩
  obtain ⟨p, hp, -⟩ := packet_of_ok hok hn
  exact ⟨p, hp, hT.recording p hp⟩

/-- Twenty minutes without an answer. -/
def unanswered : List Event := connects 40000 1 ++ [.turn {}, .clock 1300000]

theorem on_time_expired : ∃ s s',
    Run Step (start {} false [.contract_details {}, .opt_params {}]) unanswered s ∧
    s.Step (.turn {}) s' ∧ s'.currentRequest.reqType = .OPT_PARAMS_REQUEST ∧
      s'.currentRequest.age s'.now ≤ 1200000 := by
  have hplay : ((unanswered.foldlM next
      (start {} false [.contract_details {}, .opt_params {}])).bind fun s =>
      (s.next (.turn {})).map fun s' => s'.currentRequest.reqType) =
        some .OPT_PARAMS_REQUEST := by
    decide +kernel
  obtain ⟨s, hs, hplay⟩ := Option.bind_eq_some_iff.1 hplay
  obtain ⟨s', hs', ht⟩ := Option.map_eq_some_iff.1 hplay
  have hrun := Run.of_foldlM (fun _ _ _ => step_of_next) hs
  have hage := ((on_time hrun (step_of_next hs')).1 (by rw [ht]; decide)).1
  exact ⟨s, s', hrun, step_of_next hs', ht, hage⟩

/-- **Connections are not tried too often.** No connection is tried before
`tws_conTimeout` has passed since the last one was tried or lost. -/
theorem connects_spaced (h : Run Step (start cfg async jobs) evs s) (hc : Clocked evs) :
    (contacts (start cfg async jobs) evs).Pairwise
      fun x y => y.2 = true → x.1 + cfg.tws_conTimeout ≤ y.1 :=
  (run_spaced h (.inr hc)).pairwise

/-- A connection is lost, and a new one is tried, but not at once. -/
def lostOnce : List Event :=
  connects 40000 1 ++ [.connectionClosed, .clock 50000, .turn {}, .clock 70000, .turn {}]

theorem connects_spaced_lost : ∃ s,
    Run Step (start {} false [.contract_details {}]) lostOnce s ∧
    contacts (start {} false [.contract_details {}]) lostOnce =
      [(40000, true), (40000, false), (70000, true)] ∧
    (contacts (start {} false [.contract_details {}]) lostOnce).Pairwise
      fun x y => y.2 = true → x.1 + 30000 ≤ y.1 := by
  have hplay : ((lostOnce.foldlM next (start {} false [.contract_details {}])).map fun _ => ()) =
      some () := by
    decide +kernel
  obtain ⟨s, hs, -⟩ := Option.map_eq_some_iff.1 hplay
  have hrun := Run.of_foldlM (fun _ _ _ => step_of_next) hs
  have hclock : Clocked lostOnce :=
    ⟨⟨_, _, rfl⟩, by decide +kernel, by decide +kernel, by decide +kernel⟩
  exact ⟨s, hrun, by decide +kernel, connects_spaced hrun hclock⟩

end TwsDL

end Twstools
