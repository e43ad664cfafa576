import Twstools.Jobs.HistJobs
import Twstools.Pacing.Remembered
import Twstools.Twsdo.Config
import Twstools.Twsdo.Throttle
/-!
# The pace of the program

The historical requests of the whole program keep the limits of each farm,
as long as only true farms are learned and nothing that was requested is
forgotten. `Tied` ties the program to the world in which the pacing
controls were looked at alone: every callback and every turn is some events
of that world, and a request goes out where `checkoutOpt` has found that
`goodTime` lets it.
-/

namespace Twstools

open Std

/-- The historical requests of a timeline: for which exchange, and when. -/
def histRequests (l : List (ℤ × Action)) : List (String × ℤ) :=
  l.filterMap fun x =>
    match x.2 with
    | .reqHistoricalData _ hR => some (hR.ibContract.exchange, x.1)
    | _ => none

/-- The times of those that truly go to the farm `F`. -/
def farmTimes (truth : String → String) (l : List (String × ℤ)) (F : String) : List ℤ :=
  (l.filter fun p => truth p.1 = F).map Prod.snd

namespace TwsDL

variable {s s' t : TwsDL} {e : Event} {evs : List Event} {cfg : ConfigTwsdo} {async : Bool}
variable {jobs : List Job} {err : RowError} {n : ℤ} {b : Bool}

/-! ## What callbacks do to the controls -/

/-- **A callback** notifies a violation of the current request, takes the
current request back, clears the controls, or leaves them alone. -/
inductive PaceCalled (s s' : TwsDL) : Prop
  | same : s'.pacingControl = s.pacingControl → PaceCalled s s'
  | violation {hR : HistRequest} : s.currentRequest.reqType = .HIST_REQUEST →
      s.workTodo.histTodo.current = .ok hR → s'.dataFarms = s.dataFarms →
      s.pacingControl.notifyViolation s.dataFarms s.now hR.ibContract = .ok s'.pacingControl →
      PaceCalled s s'
  | removed {hR : HistRequest} : s.currentRequest.reqType = .HIST_REQUEST →
      s.workTodo.histTodo.current = .ok hR →
      s.pacingControl.removeLastRequest s'.dataFarms hR.ibContract = .ok s'.pacingControl →
      PaceCalled s s'
  | cleared : s'.pacingControl = s.pacingControl.clear s'.dataFarms s.now → PaceCalled s s'

/-- The control and the farms stay. -/
theorem closePacket_pace {r : ReqErr} (h : s.closePacket r = .ok s') :
    s'.pacingControl = s.pacingControl ∧ s'.dataFarms = s.dataFarms := by
  obtain ⟨p, p', -, -, rfl⟩ := eq_of_closePacket h
  exact ⟨rfl, rfl⟩

theorem errorHistService_pace {hR : HistRequest} (hq : s.currentRequest.reqType = .HIST_REQUEST)
    (hcur : s.workTodo.histTodo.current = .ok hR) (h : s.errorHistService err hR = .ok s') :
    PaceCalled s s' := by
  simp only [errorHistService] at h
  split at h
  · simp only [Exec.bind_eq_ok] at h
    obtain ⟨s₁, h₁, g, hg, h⟩ := h
    obtain ⟨p, p', -, -, rfl⟩ := eq_of_closePacket h₁
    rw [← Except.ok.inj h]
    exact .violation hq hcur rfl hg
  split at h
  · exact .same (closePacket_pace h).1
  split at h
  · exact .same (closePacket_pace h).1
  split at h
  · simp only [Exec.bind_eq_ok] at h
    obtain ⟨s₁, h₁, h⟩ := h
    obtain ⟨p, p', -, -, rfl⟩ := eq_of_closePacket h₁
    simp only [removeLastRequest, Exec.bind_eq_ok] at h
    obtain ⟨g, hg, h⟩ := h
    rw [← Except.ok.inj h]
    exact .removed hq hcur hg
  split at h
  · simp only [Exec.bind_eq_ok] at h
    obtain ⟨s₁, h₁, h⟩ := h
    obtain ⟨p, p', -, -, rfl⟩ := eq_of_closePacket h₁
    simp only [removeLastRequest, Exec.bind_eq_ok] at h
    obtain ⟨g, hg, h⟩ := h
    rw [← Except.ok.inj h]
    exact .removed hq hcur hg
  split at h
  · exact .same (closePacket_pace h).1
  · rw [← Except.ok.inj h]
    exact .same rfl

theorem errorHistServer_pace {c : Contract} (h : s.errorHistServer err c = .ok s') :
    s'.pacingControl = s.pacingControl := by
  simp only [errorHistServer] at h
  split at h
  · rw [← Except.ok.inj h]
  split at h
  · simp only [Exec.bind_eq_ok] at h
    obtain ⟨d, -, h⟩ := h
    rw [← Except.ok.inj h]
  · rw [← Except.ok.inj h]

theorem errorHistData_pace (hq : s.currentRequest.reqType = .HIST_REQUEST)
    (h : s.errorHistData err = .ok s') : PaceCalled s s' := by
  simp only [errorHistData, Exec.bind_eq_ok] at h
  obtain ⟨hR, hcur, p, -, h⟩ := h
  split at h
  · exact errorHistService_pace hq hcur h
  split at h
  · exact .same (errorHistServer_pace h)
  split at h
  · exact .same (closePacket_pace h).1
  split at h
  · exact .same (closePacket_pace h).1
  · rw [← Except.ok.inj h]
    exact .same rfl

theorem errorContracts_pace (h : s.errorContracts err = .ok s') :
    s'.pacingControl = s.pacingControl := by
  unfold errorContracts at h
  split at h
  · exact (closePacket_pace h).1
  split at h
  · exact (closePacket_pace h).1
  · rw [← Except.ok.inj h]

theorem errorRequest_pace (h : s.errorRequest err = .ok s') : PaceCalled s s' := by
  unfold errorRequest at h
  split at h
  · exact .same (errorContracts_pace h)
  · exact .same (errorContracts_pace h)
  · rename_i hq
    exact errorHistData_pace hq h
  case h_7 =>
    rw [← Except.ok.inj h]
    exact .same rfl
  all_goals
    simp only [Exec.bind_eq_ok] at h
    obtain ⟨-, -, h⟩ := h
    rw [← Except.ok.inj h]
    exact .same rfl

theorem errorGeneric_pace (h : s.errorGeneric err = .ok s') : PaceCalled s s' := by
  simp only [errorGeneric] at h
  split at h
  · simp only [Exec.bind_eq_ok] at h
    obtain ⟨-, -, -, -, h⟩ := h
    rw [← Except.ok.inj h]
    exact .same rfl
  split at h
  · simp only [Exec.bind_eq_ok] at h
    obtain ⟨-, -, -, -, h⟩ := h
    split at h
    · exact .same (closePacket_pace (s := { s with connectivity_IB_TWS := true }) h).1
    · rw [← Except.ok.inj h]
      exact .same rfl
  split at h
  · simp only [Exec.bind_eq_ok] at h
    obtain ⟨-, -, h⟩ := h
    rw [← Except.ok.inj h]
    exact .same rfl
  split at h
  · simp only [Exec.bind_eq_ok] at h
    obtain ⟨d, -, h⟩ := h
    rw [← Except.ok.inj h]
    exact .cleared rfl
  split at h
  · simp only [Exec.bind_eq_ok] at h
    obtain ⟨-, -, -, -, h⟩ := h
    rw [← Except.ok.inj h]
    exact .same rfl
  · rw [← Except.ok.inj h]
    exact .same rfl

/-- What counts of the state before. -/
theorem PaceCalled.of_eq (h : PaceCalled t s') (hg : t.pacingControl = s.pacingControl)
    (hd : t.dataFarms = s.dataFarms) (hn : t.now = s.now) (hr : t.currentRequest = s.currentRequest)
    (hh : t.workTodo.histTodo = s.workTodo.histTodo) : PaceCalled s s' := by
  cases h with
  | same h => exact .same (h.trans hg)
  | violation hq hcur hd' h =>
      rw [hg, hd, hn] at h
      exact .violation (hr ▸ hq) (hh ▸ hcur) (hd'.trans hd) h
  | removed hq hcur h => exact .removed (hr ▸ hq) (hh ▸ hcur) (hg ▸ h)
  | cleared h => exact .cleared (by rw [h, hg, hn])

theorem OrderChanged.pace (h : s.OrderChanged n s') : s'.pacingControl = s.pacingControl ∧
    s'.dataFarms = s.dataFarms ∧ s'.now = s.now ∧ s'.currentRequest = s.currentRequest ∧
    s'.workTodo.histTodo = s.workTodo.histTodo := by
  cases h <;> exact ⟨rfl, rfl, rfl, rfl, rfl⟩

theorem twsError_pace (h : s.twsError err = .ok s') : PaceCalled s s' := by
  simp only [twsError] at h
  split at h
  · simp only [Exec.bind_eq_ok] at h
    obtain ⟨-, -, h⟩ := h
    rw [← Except.ok.inj h]
    exact .same rfl
  split at h
  · exact (errorRequest_pace h).of_eq rfl rfl rfl rfl rfl
  · simp only [Exec.bind_eq_ok] at h
    obtain ⟨s₁, h₁, h⟩ := h
    obtain ⟨hg, hd, hn, hr, hh⟩ := (errorPlaceOrder_changed h₁).pace
    split at h
    · rw [← Except.ok.inj h]
      exact .same hg
    · exact (errorGeneric_pace h).of_eq hg hd hn hr hh

theorem twsConnectionClosed_pace (h : s.twsConnectionClosed = .ok s') :
    s'.pacingControl = s.pacingControl.clear s'.dataFarms s.now ∧
      s'.dataFarms = s.dataFarms.setAllBroken := by
  obtain ⟨-, p, rfl⟩ := twsConnectionClosed_effect h
  exact ⟨rfl, rfl⟩

/-- **What an event other than a turn does** to the controls. -/
theorem handle_pace (ht : ∀ c, e ≠ .turn c) (h : s.handle e = .ok s') : PaceCalled s s' := by
  cases event_path h with
  | turn => exact absurd rfl (ht _)
  | error h => exact twsError_pace h
  | connectionClosed h => exact .cleared (twsConnectionClosed_pace h).1
  | orderStatus h | openOrder h => exact .same h.pace.1
  | _ => exact .same rfl

/-! ## The world of the controls -/

/-- **A step on steady ground**: only true farms are known, those that were
known stay, and no control gets shorter. -/
structure Steady (truth : String → String) (s s' : TwsDL) : Prop where
  correct : s'.dataFarms.Correct truth
  keeps : s.dataFarms.KeepsFarms s'.dataFarms
  remembers : s.pacingControl.Remembers s'.pacingControl

instance (truth : String → String) (s s' : TwsDL) : Decidable (Steady truth s s') :=
  decidable_of_iff (s'.dataFarms.Correct truth ∧ s.dataFarms.KeepsFarms s'.dataFarms ∧
      s.pacingControl.Remembers s'.pacingControl)
    ⟨fun h => ⟨h.1, h.2.1, h.2.2⟩, fun h => ⟨h.correct, h.keeps, h.remembers⟩⟩

/-- **The program and a world of the controls** that keeps their limits: the
same controls, farms and time, and the requests `l` that were made. -/
structure Tied (truth : String → String) (cfg : ConfigTwsdo) (l : List (String × ℤ))
    (w : PacedWorld) (s : TwsDL) : Prop where
  limited : PacedWorld.Limited truth cfg.tws_maxRequests cfg.tws_pacingInterval
    cfg.tws_minPacingTime cfg.tws_violationPause w
  god : w.god = s.pacingControl
  farms : w.farms = s.dataFarms
  now : w.now = s.now
  log : w.log.map (fun q => (q.exchange, q.time)) = l
  reqId : w.currentRequest.reqId ≤ s.currentRequest.reqId
  last : s.currentRequest.reqType = .HIST_REQUEST → ∃ job,
    s.workTodo.histTodo.checkedOutRequest = some job ∧ w.last = some job.request.ibContract

variable {truth : String → String} {l : List (String × ℤ)} {w w' : PacedWorld}

/-- The same world does for a state that is the same to it. -/
theorem Tied.of_eq (h : Tied truth cfg l w s) (hg : s'.pacingControl = s.pacingControl)
    (hd : s'.dataFarms = s.dataFarms) (hn : s'.now = s.now)
    (hr : s.currentRequest.reqId ≤ s'.currentRequest.reqId)
    (hl : s'.currentRequest.reqType = .HIST_REQUEST → s.currentRequest.reqType = .HIST_REQUEST ∧
      s'.workTodo.histTodo.checkedOutRequest = s.workTodo.histTodo.checkedOutRequest) :
    Tied truth cfg l w s' where
  limited := h.limited
  god := h.god.trans hg.symm
  farms := h.farms.trans hd.symm
  now := h.now.trans hn.symm
  log := h.log
  reqId := h.reqId.trans hr
  last hq := by
    obtain ⟨hq, hc⟩ := hl hq
    rw [hc]
    exact h.last hq

/-- The same where no request is open. -/
theorem Tied.of_none (h : Tied truth cfg l w s) (hg : s'.pacingControl = s.pacingControl)
    (hd : s'.dataFarms = s.dataFarms) (hn : s'.now = s.now)
    (hr : s.currentRequest.reqId ≤ s'.currentRequest.reqId)
    (hq : s'.currentRequest.reqType = .NONE) : Tied truth cfg l w s' :=
  h.of_eq hg hd hn hr fun hh => by rw [hq] at hh; cases hh

end TwsDL

/-- A mark for a violation keeps what was requested. -/
theorem map_markViolated {β : Type*} {f : Request → β}
    (hf : ∀ r v, f { r with violated := v } = f r) (log : List Request) :
    (markViolated log).map f = log.map f := by
  induction log using List.reverseRecOn with
  | nil => rfl
  | append_singleton l r _ => simp [hf]

namespace TwsDL

variable {s s' t : TwsDL} {e : Event} {evs : List Event} {cfg : ConfigTwsdo} {async : Bool}
variable {jobs : List Job} {truth : String → String} {l : List (String × ℤ)} {w : PacedWorld}

/-- **A world for the state after a callback**, at the time before it. -/
structure Answering (truth : String → String) (cfg : ConfigTwsdo) (s s' : TwsDL)
    (w w' : PacedWorld) : Prop where
  limited : PacedWorld.Limited truth cfg.tws_maxRequests cfg.tws_pacingInterval
    cfg.tws_minPacingTime cfg.tws_violationPause w'
  god : w'.god = s'.pacingControl
  farms : w'.farms = s'.dataFarms
  now : w'.now = s.now
  log : w'.log.map (fun q => (q.exchange, q.time)) = w.log.map fun q => (q.exchange, q.time)
  request : w'.currentRequest = w.currentRequest
  last : w'.last = w.last

/-- In the end it is the time of the callback. -/
theorem Answering.tied {w' : PacedWorld} (hA : Answering truth cfg s s' w w')
    (h : Tied truth cfg l w s) (hr : 1 ≤ cfg.tws_maxRequests) (hr' : InInt cfg.tws_maxRequests)
    (hreq : s'.currentRequest = s.currentRequest)
    (hco : s'.workTodo.histTodo.checkedOutRequest = s.workTodo.histTodo.checkedOutRequest)
    (hle : s.now ≤ s'.now) : ∃ w', Tied truth cfg l w' s' := by
  have hclock := hA.limited.step hr hr' (.other (e := .clock s'.now) trivial
    (.clock (hA.now ▸ hle)))
  refine ⟨_, hclock, hA.god, hA.farms, rfl, hA.log.trans h.log, ?_, fun hh => ?_⟩
  · dsimp only
    rw [hA.request, hreq]
    exact h.reqId
  · rw [hreq] at hh
    obtain ⟨job, hjob, hlast⟩ := h.last hh
    exact ⟨job, hco.trans hjob, hA.last.trans hlast⟩

/-- The world after the farms are learned. -/
def learned (w : PacedWorld) (d : DataFarmStates) : PacedWorld :=
  { w with toPacingWorld := { w.toPacingWorld with farms := d } }

theorem Tied.learned (h : Tied truth cfg l w s) (hr : 1 ≤ cfg.tws_maxRequests)
    (hr' : InInt cfg.tws_maxRequests) (hS : Steady truth s s') :
    PacedWorld.Limited truth cfg.tws_maxRequests cfg.tws_pacingInterval cfg.tws_minPacingTime
      cfg.tws_violationPause (learned w s'.dataFarms) := by
  have hkeep : w.farms.KeepsFarms s'.dataFarms := h.farms ▸ hS.keeps
  exact h.limited.step hr hr' (.other (e := .learn s'.dataFarms) hS.correct (.learn hkeep))

/-- A violation marks the last request. -/
theorem Tied.violated {hR : HistRequest} (h : Tied truth cfg l w s)
    (hr : 1 ≤ cfg.tws_maxRequests) (hr' : InInt cfg.tws_maxRequests) (hS : Steady truth s s')
    (hq : s.currentRequest.reqType = .HIST_REQUEST)
    (hcur : s.workTodo.histTodo.current = .ok hR) (hd : s'.dataFarms = s.dataFarms)
    (hn : s.pacingControl.notifyViolation s.dataFarms s.now hR.ibContract =
      .ok s'.pacingControl) : ∃ w', Answering truth cfg s s' w w' := by
  obtain ⟨job, hjob, hlast⟩ := h.last hq
  obtain ⟨job', hjob', rfl⟩ := HistTodo.current_eq_ok.1 hcur
  obtain rfl : job = job' := Option.some.inj (hjob.symm.trans hjob')
  have hex : PacingWorld.exec { w.toPacingWorld with farms := s'.dataFarms }
      (.notifyViolation job.request.ibContract) = .ok { w.toPacingWorld with
        farms := s'.dataFarms, god := s'.pacingControl, log := markViolated w.log } := by
    simp only [PacingWorld.exec]
    rw [h.god, h.now, hd, hn]
    rfl
  have hstep := (h.learned hr hr' hS).step hr hr' (.other (e := .op (.notifyViolation _)) trivial
    (.op hlast hex))
  exact ⟨_, hstep, rfl, rfl, h.now, map_markViolated (fun _ _ => rfl) w.log, rfl, rfl⟩

/-- A request that is taken back would be missed. -/
theorem Tied.not_removed {hR : HistRequest} (h : Tied truth cfg l w s)
    (hr : 1 ≤ cfg.tws_maxRequests) (hr' : InInt cfg.tws_maxRequests) (hS : Steady truth s s')
    (hq : s.currentRequest.reqType = .HIST_REQUEST) :
    s.pacingControl.removeLastRequest s'.dataFarms hR.ibContract ≠ .ok s'.pacingControl := by
  intro hrem
  obtain ⟨job, -, hlast⟩ := h.last hq
  obtain ⟨log, r, hlog, -⟩ := h.limited.kept.last _ hlast
  have hb : PacingGod.Books s'.dataFarms w.log w.god := (h.learned hr hr' hS).kept.books
  obtain ⟨g₁, g', hok', hfil, -, hu⟩ := PacingGod.update_ok .removeLastRequestLazy
    .removeLastRequestFarm (·.removeLastRequest) hb hR.ibContract
  rw [PacingGod.removeLastRequest, ← h.god, hok'] at hrem
  have hg' : g' = s'.pacingControl := Except.ok.inj hrem
  have hglobal : s'.pacingControl.controlGlobal = w.god.controlGlobal.removeLastRequest := by
    rw [← hg', ← hfil.global_eq.1]
    cases hu <;> rfl
  have hlen := hS.remembers.1
  rw [hglobal, ← h.god] at hlen
  have hdt : w.god.controlGlobal.dateTimes.length = log.length + 1 := by
    rw [hb.global.times, hlog]
    simp
  unfold PacingControl.removeLastRequest at hlen
  rw [if_neg (by omega)] at hlen
  simp only [List.length_dropLast] at hlen
  omega

/-- Controls that are cleared and forget nothing give the same answers. -/
theorem Tied.cleared (h : Tied truth cfg l w s) (hr : 1 ≤ cfg.tws_maxRequests)
    (hr' : InInt cfg.tws_maxRequests) (hS : Steady truth s s')
    (hg : s'.pacingControl = s.pacingControl.clear s'.dataFarms s.now) :
    ∃ w', Answering truth cfg s s' w w' := by
  have hlearn := h.learned hr hr' hS
  have hb : PacingGod.Books s'.dataFarms w.log w.god := hlearn.kept.books
  have hrem : w.god.Remembers (w.god.clear s'.dataFarms s.now) := by
    rw [h.god, ← hg]
    exact hS.remembers
  refine ⟨_, hlearn.alike (PacingGod.alike_clear hb hrem), ?_, rfl, h.now, rfl, rfl, rfl⟩
  change w.god.clear s'.dataFarms s.now = _
  rw [hg, ← h.god]

/-- **The world after a callback.** -/
theorem Tied.called (h : Tied truth cfg l w s) (hr : 1 ≤ cfg.tws_maxRequests)
    (hr' : InInt cfg.tws_maxRequests) (hok : s.jobs.Ok) (ht : ∀ c, e ≠ .turn c)
    (hs : s.handle e = .ok s') (hS : Steady truth s s') (hle : s.now ≤ s'.now) :
    ∃ w', Tied truth cfg l w' s' := by
  have hreq : s'.currentRequest = s.currentRequest :=
    congrArg Fixed.currentRequest (handle_fixed ht hs)
  have hco : s'.workTodo.histTodo.checkedOutRequest =
      s.workTodo.histTodo.checkedOutRequest := by
    have hcall := handle_called hok ht hs
    generalize hj : s'.jobs = j' at hcall
    have hh : s'.workTodo.histTodo = j'.histTodo := congrArg Jobs.histTodo hj
    rw [hh]
    cases hcall with
    | none => rfl
    | some hp hc hsk => exact hsk.checkedOut.1
  obtain ⟨w', hA⟩ : ∃ w', Answering truth cfg s s' w w' := by
    cases handle_pace ht hs with
    | same hg =>
        exact ⟨_, h.learned hr hr' hS, h.god.trans hg.symm, rfl, h.now, rfl, rfl, rfl⟩
    | violation hq hcur hd hn => exact h.violated hr hr' hS hq hcur hd hn
    | removed hq hcur hrem => exact absurd hrem (h.not_removed hr hr' hS hq)
    | cleared hg => exact h.cleared hr hr' hS hg
  exact hA.tied h hr hr' hreq hco hle

/-! ## What a turn does to the controls -/

/-- Whether an action is a historical request. -/
def isHist : Action → Bool
  | .reqHistoricalData .. => true
  | _ => false

/-- **Nothing that concerns the pace**: the controls, the farms and the
time stay, and no historical request is made. -/
structure Still (s s' : TwsDL) : Prop where
  god : s'.pacingControl = s.pacingControl
  farms : s'.dataFarms = s.dataFarms
  now : s'.now = s.now
  adds : Adds (fun a => isHist a = false) s s'

theorem Still.trans (h : Still s s') (h' : Still s' t) : Still s t where
  god := h'.god.trans h.god
  farms := h'.farms.trans h.farms
  now := h'.now.trans h.now
  adds := h.adds.trans h'.adds

theorem waitData_still {i : ℤ} (h : ({ s with curIdleTime := i } : TwsDL).waitData = .ok s') :
    Still s s' := by
  have ha := waitData_adds h
  have ha := ha.mono (Q := fun a => isHist a = false) fun a ha => by
    cases a <;> simp_all [Action.topic, isHist]
  obtain ⟨live, old, c, o, H, out, error, lastError, quit, packet, request, rfl⟩ :=
    waitData_effect h
  exact ⟨rfl, rfl, rfl, ha⟩

theorem startMktData_still (h : s.startMktData = .ok s') : Still s s' := by
  have ha := (startMktData_adds h).mono (Q := fun a => isHist a = false) fun a ha => by
    cases a <;> simp_all [Action.topic, isHist]
  obtain ⟨quotes, fuckme, out, rfl⟩ := startMktData_effect h
  exact ⟨rfl, rfl, rfl, ha⟩

theorem connectTws_still {c : Connect} (h : s.connectTws c = .ok s') : Still s s' := by
  have ho := connectTws_out h
  rcases connectTws_effect h with ⟨i, rfl⟩ | ⟨n, b, st, -, rfl⟩
  · exact ⟨rfl, rfl, rfl, .of_eq ho⟩
  · exact ⟨rfl, rfl, rfl, .of_eq ho⟩

/-- Requests of another type. -/
theorem request_still {t : ReqType} (ht : t ≠ .HIST_REQUEST) (h : s.request t = .ok s') :
    Still s s' := by
  cases t with
  | HIST_REQUEST => exact absurd rfl ht
  | NONE =>
      have ha := placeOrders_adds _ h
      have ha := ha.mono (Q := fun a => isHist a = false) fun a ha => by
        cases a <;> simp_all [Action.topic, isHist]
      obtain ⟨r, todo, live, id, out, rfl⟩ := placeOrders_effect _ h
      exact ⟨rfl, rfl, rfl, ha⟩
  | CONTRACT_DETAILS_REQUEST =>
      simp only [request, reqContractDetails] at h
      split at h
      · simp only [Exec.bind_eq_ok] at h
        obtain ⟨todo, -, r, -, s₁, h₁, p, -, h⟩ := h
        obtain rfl := eq_of_nextRequest h₁
        rw [← Except.ok.inj h]
        exact ⟨rfl, rfl, rfl, [_], rfl, by simp [isHist]⟩
      · rw [← Except.ok.inj h]
        exact ⟨rfl, rfl, rfl, .of_eq rfl⟩
  | OPT_PARAMS_REQUEST =>
      simp only [request, reqOptParams] at h
      split at h
      · simp only [Exec.bind_eq_ok] at h
        obtain ⟨todo, -, r, -, s₁, h₁, p, -, h⟩ := h
        obtain rfl := eq_of_nextRequest h₁
        rw [← Except.ok.inj h]
        exact ⟨rfl, rfl, rfl, [_], rfl, by simp [isHist]⟩
      · rw [← Except.ok.inj h]
        exact ⟨rfl, rfl, rfl, .of_eq rfl⟩
  | ACC_STATUS_REQUEST | EXECUTIONS_REQUEST | ORDERS_REQUEST =>
      simp only [request, reqAccStatus, reqExecutions, reqOrders, Exec.bind_eq_ok] at h
      obtain ⟨s₁, h₁, p, -, h⟩ := h
      obtain rfl := eq_of_nextRequest h₁
      rw [← Except.ok.inj h]
      exact ⟨rfl, rfl, rfl, [_], rfl, by simp [isHist]⟩

/-- Waiting for a connection to be complete: in the end it is given up. -/
theorem waitTwsCon_pace (h : s.waitTwsCon = .ok s') : Still s s' ∨
    s'.pacingControl = s.pacingControl.clear s'.dataFarms s.now ∧ s'.now = s.now ∧
      Adds (fun a => isHist a = false) s s' := by
  have ha := (waitTwsCon_adds h).mono (Q := fun a => isHist a = false) fun a ha => by
    cases a <;> simp_all [Action.topic, isHist]
  obtain ⟨hb, r, out, ⟨st, i, rfl⟩ | ⟨-, p, rfl⟩⟩ := waitTwsCon_effect h
  · exact .inl ⟨rfl, rfl, rfl, ha⟩
  · exact .inr ⟨rfl, rfl, ha⟩

/-! ## Choosing a job -/

/-- **The loop of `checkoutOpt` only asks** what is left. -/
theorem selectFarm_limited {r i m v : ℤ} (hr : 1 ≤ r) (hr' : InInt r)
    {countByFarm : TreeMap String ℤ} {job : HistJob} {g' : PacingGod} :
    ∀ (l : List (String × HistJob)) {w : PacedWorld} {todo_hR : HistJob} {n : ℤ},
      PacedWorld.Limited truth r i m v w →
      HistTodo.selectFarm w.farms w.now countByFarm l w.god todo_hR n = .ok (g', job) →
      PacedWorld.Limited truth r i m v
        { w with toPacingWorld := { w.toPacingWorld with god := g' } }
  | [], w, _, _, hL, h => by
      rw [← (Prod.mk.inj (Except.ok.inj h)).1]
      exact hL
  | (farm, it) :: l, w, _, _, hL, h => by
      simp only [HistTodo.selectFarm, Exec.bind_eq_ok] at h
      obtain ⟨⟨g₁, left⟩, h₁, h⟩ := h
      have hex : w.toPacingWorld.exec (.countLeft it.request.ibContract) =
          .ok { w.toPacingWorld with god := g₁ } := by
        simp only [PacingWorld.exec, h₁]
        rfl
      have hL₁ := hL.step hr hr' (.other (e := .op (.countLeft _)) trivial (.op trivial hex))
      split at h
      · split at h
        · rw [← (Prod.mk.inj (Except.ok.inj h)).1]
          exact hL₁
        · split at h
          · have hrest := selectFarm_limited hr hr' l hL₁ h
            exact hrest
          · have hrest := selectFarm_limited hr hr' l hL₁ h
            exact hrest
      · have hrest := selectFarm_limited hr hr' l hL₁ h
        exact hrest

/-- The parameters of the pacing are `int`s, as they are declared. -/
def IntPacing (cfg : ConfigTwsdo) : Prop :=
  InInt cfg.tws_maxRequests ∧ InInt cfg.tws_pacingInterval ∧ InInt cfg.tws_minPacingTime ∧
    InInt cfg.tws_violationPause

instance (cfg : ConfigTwsdo) : Decidable (IntPacing cfg) := inferInstanceAs (Decidable (_ ∧ _))

section Asked

variable {r i m v wait : ℤ} {g₁ g₂ g' : PacingGod} {c : Contract}

/-- The world in which `g'` knows of a request more. -/
def withRequest (w : PacedWorld) (c : Contract) (g' : PacingGod) : PacedWorld :=
  { w with
    god := g'
    log := w.log ++ [{ exchange := c.exchange, time := w.now }]
    last := some c
    currentRequest := ⟨.HIST_REQUEST, w.currentRequest.reqId + 1, w.now⟩ }

/-- A request that `goodTime` lets go goes out in the world too, -/
theorem sent_limited (hr : 1 ≤ r) (hp : (PacingGod.newControl (.new r i m v)).IntParams)
    (hL : PacedWorld.Limited truth r i m v
      { w with toPacingWorld := { w.toPacingWorld with god := g₁ } })
    (hgood : g₁.goodTime w.farms w.now c = .ok (g₂, wait)) (hw : wait ≤ 0)
    (hnum : w.currentRequest.reqId < INT_MAX)
    (hadd : g₂.addRequest w.farms w.now c = .ok g') :
    PacedWorld.Limited truth r i m v (withRequest w c g') := by
  refine hL.issued hr (fun _ hfil hs hcon hq hw =>
    hL.free_of_intParams hr hp hfil hs hcon hq hw) le_rfl (c := c) ?_
  simp only [PacedWorld.issue, hgood, Exec.ok_bind, if_pos hw, GenericRequest.nextRequest,
    if_pos hnum, hadd]
  rfl

/-- and one that is put off is only asked for. -/
theorem putOff_limited (hr : 1 ≤ r) (hr' : InInt r)
    (hL : PacedWorld.Limited truth r i m v
      { w with toPacingWorld := { w.toPacingWorld with god := g₁ } })
    (hgood : g₁.goodTime w.farms w.now c = .ok (g₂, wait)) :
    PacedWorld.Limited truth r i m v
      { w with toPacingWorld := { w.toPacingWorld with god := g₂ } } := by
  have hex : PacingWorld.exec { w.toPacingWorld with god := g₁ } (.goodTime c) =
      .ok { w.toPacingWorld with god := g₂ } := by
    simp only [PacingWorld.exec, hgood]
    rfl
  exact hL.step hr hr' (.other (e := .op (.goodTime _)) trivial (.op trivial hex))

end Asked

/-- **A historical request is made when `goodTime` lets it**, or put off. -/
theorem reqHistoricalData_tied (h : Tied truth cfg l w s) (hr : 1 ≤ cfg.tws_maxRequests)
    (hp : IntPacing cfg) (hn : s.currentRequest.reqType = .NONE)
    (hreq : s.reqHistoricalData = .ok s') :
    ∃ w' as, s'.out = s.out ++ as ∧ s'.now = s.now ∧
      Tied truth cfg (l ++ histRequests (as.map fun a => (s.now, a))) w' s' := by
  simp only [reqHistoricalData, Exec.bind_eq_ok] at hreq
  obtain ⟨-, -, ⟨hT, pG, wait⟩, hc, hreq⟩ := hreq
  -- the job is chosen
  simp only [HistTodo.checkoutOpt, Exec.bind_eq_ok, Exec.deref_eq_ok] at hc
  obtain ⟨-, -, first, -, ⟨g₁, job⟩, hsel, -, -, ⟨g₂, wait'⟩, hgood, hc⟩ := hc
  rw [← h.god, ← h.farms, ← h.now] at hsel
  have hL := selectFarm_limited hr hp.1 _ h.limited hsel
  rw [← h.farms, ← h.now] at hgood
  dsimp only at hgood hc
  by_cases hw : wait' ≤ 0
  · -- it goes out
    rw [if_pos hw] at hc
    obtain ⟨hhT, hc⟩ := Prod.mk.inj (Except.ok.inj hc)
    obtain ⟨hpG, hwt⟩ := Prod.mk.inj hc
    subst hhT hpG hwt
    dsimp only at hreq
    rw [if_neg (by omega)] at hreq
    simp only [Exec.bind_eq_ok] at hreq
    obtain ⟨s₁, h₁, hR, hcur, pG', hadd, p, -, hreq⟩ := hreq
    have hnum : s.currentRequest.reqId < INT_MAX := by
      simp only [nextRequest, Exec.bind_eq_ok, GenericRequest.nextRequest_eq_ok] at h₁
      obtain ⟨q, ⟨hlt, -⟩, -⟩ := h₁
      exact hlt
    obtain rfl := eq_of_nextRequest h₁
    obtain ⟨job', hjob', rfl⟩ := HistTodo.current_eq_ok.1 hcur
    obtain rfl : job = job' := Option.some.inj hjob'
    have hadd : g₂.addRequest w.farms w.now job.request.ibContract = .ok pG' := by
      rw [h.farms, h.now]
      exact hadd
    have hL' := sent_limited hr hp hL hgood hw (Int.lt_of_le_of_lt h.reqId hnum) hadd
    rw [← Except.ok.inj hreq]
    refine ⟨_, [.reqHistoricalData (s.currentRequest.reqId + 1) job.request], rfl, rfl,
      hL', rfl, h.farms, h.now, ?_, ?_, fun _ => ⟨job, rfl, rfl⟩⟩
    · rw [withRequest, List.map_append, h.log, h.now]
      rfl
    · exact Int.add_le_add_right h.reqId 1
  · -- it is put off
    rw [if_neg hw] at hc
    obtain ⟨hhT, hc⟩ := Prod.mk.inj (Except.ok.inj hc)
    obtain ⟨hpG, hwt⟩ := Prod.mk.inj hc
    subst hhT hpG hwt
    dsimp only at hreq
    rw [if_pos (by omega)] at hreq
    have hL' := putOff_limited hr hp.1 hL hgood
    rw [← Except.ok.inj hreq]
    refine ⟨_, [], (List.append_nil _).symm, rfl, hL', rfl, h.farms, h.now, ?_, h.reqId,
      fun hq => ?_⟩
    · exact h.log.trans (List.append_nil _).symm
    · rw [show s.currentRequest.reqType = .HIST_REQUEST from hq] at hn
      cases hn

/-! ## Turns -/

/-- What was done for other requests. -/
theorem histRequests_eq_nil {as : List Action} (h : ∀ a ∈ as, isHist a = false) (t : ℤ) :
    histRequests (as.map fun a => (t, a)) = [] := by
  refine List.filterMap_eq_nil_iff.2 fun x hx => ?_
  obtain ⟨a, ha, rfl⟩ := List.mem_map.1 hx
  have hh := h a ha
  cases a <;> simp_all [isHist]

theorem histRequests_append (l l' : List (ℤ × Action)) :
    histRequests (l ++ l') = histRequests l ++ histRequests l' := List.filterMap_append

/-- **Some actions, all at the time of the turn**, and a world after them. -/
def TiedTo (truth : String → String) (cfg : ConfigTwsdo) (l : List (String × ℤ))
    (s s' : TwsDL) : Prop :=
  ∃ w as, s'.out = s.out ++ as ∧ s'.now = s.now ∧
    Tied truth cfg (l ++ histRequests (as.map fun a => (s.now, a))) w s'

theorem TiedTo.of_tied (h : Tied truth cfg l w s') (hn : s'.now = s.now)
    (ha : Adds (fun a => isHist a = false) s s') : TiedTo truth cfg l s s' := by
  obtain ⟨as, ho, has⟩ := ha
  refine ⟨w, as, ho, hn, ?_⟩
  rw [histRequests_eq_nil has, List.append_nil]
  exact h

/-- What comes before does not concern the pace. -/
theorem TiedTo.of_still (hst : Still s t) (h : TiedTo truth cfg l t s') :
    TiedTo truth cfg l s s' := by
  obtain ⟨w, as, ho, hn, hT⟩ := h
  obtain ⟨as₁, ho₁, has₁⟩ := hst.adds
  refine ⟨w, as₁ ++ as, by rw [ho, ho₁, List.append_assoc], hn.trans hst.now, ?_⟩
  rw [List.map_append, histRequests_append, histRequests_eq_nil has₁, List.nil_append, ← hst.now]
  exact hT

/-- `waitData` may end the request. -/
theorem Tied.waited (h : Tied truth cfg l w s) (hok : s.jobs.Ok)
    (hw : ({ s with curIdleTime := -1 } : TwsDL).waitData = .ok s') : Tied truth cfg l w s' := by
  have hst := waitData_still hw
  have hcases := waitData_cases (s := { s with curIdleTime := -1 }) hok hw
  have hkeeps : s'.currentRequest.reqId = s.currentRequest.reqId ∧
      (s'.currentRequest.reqType = .HIST_REQUEST → s.currentRequest.reqType = .HIST_REQUEST ∧
        s'.workTodo.histTodo.checkedOutRequest = s.workTodo.histTodo.checkedOutRequest) := by
    generalize hj : s'.jobs = j' at hcases
    have hr : s'.currentRequest = j'.request := congrArg Jobs.request hj
    have hh : s'.workTodo.histTodo = j'.histTodo := congrArg Jobs.histTodo hj
    rw [hr, hh]
    cases hcases with
    | stay => exact ⟨rfl, fun hq => ⟨hq, rfl⟩⟩
    | fin => exact ⟨rfl, fun hq => absurd hq ReqType.noConfusion⟩
  exact h.of_eq hst.god hst.farms hst.now hkeeps.1.ge hkeeps.2

/-- The next request, of whatever type. -/
theorem request_tied {t : ReqType} (h : Tied truth cfg l w s) (hr : 1 ≤ cfg.tws_maxRequests)
    (hp : IntPacing cfg) (hn : s.currentRequest.reqType = .NONE) (hreq : s.request t = .ok s') :
    TiedTo truth cfg l s s' := by
  by_cases ht : t = .HIST_REQUEST
  · subst ht
    exact reqHistoricalData_tied h hr hp hn hreq
  · have hst := request_still ht hreq
    have hkeeps : s.currentRequest.reqId ≤ s'.currentRequest.reqId ∧
        s'.currentRequest.reqType ≠ .HIST_REQUEST := by
      by_cases hnone : t = .NONE
      · subst hnone
        obtain ⟨r, todo, live, id, out, rfl⟩ := placeOrders_effect _ hreq
        exact ⟨le_rfl, by rw [hn]; exact ReqType.noConfusion⟩
      · obtain ⟨r, i, c, o, H, g, rfl | ⟨-, p, out, rfl⟩⟩ := request_effect hnone hreq
        · exact ⟨le_rfl, by rw [hn]; exact ReqType.noConfusion⟩
        · exact ⟨(Int.lt_succ _).le, ht⟩
    exact .of_tied (h.of_eq hst.god hst.farms hst.now hkeeps.1 fun hq => absurd hq hkeeps.2)
      hst.now hst.adds

theorem work_tied (h : Tied truth cfg l w s) (hr : 1 ≤ cfg.tws_maxRequests)
    (hp : IntPacing cfg) (hn : s.currentRequest.reqType = .NONE) (hwork : s.work = .ok s') :
    TiedTo truth cfg l s s' := by
  simp only [work, Exec.bind_eq_ok] at hwork
  obtain ⟨s₁, h₁, s₂, h₂, hwork⟩ := hwork
  have hst := startMktData_still h₁
  have hj := (nextReqType_jobs s₁).trans (startMktData_jobs h₁)
  have hq : s₁.currentRequest = s.currentRequest := congrArg Jobs.request hj
  have hT : Tied truth cfg l w { s₁ with workTodo := s₁.workTodo.nextReqType.1 } :=
    h.of_none hst.god hst.farms hst.now (congrArg GenericRequest.reqId hq).ge
      ((congrArg GenericRequest.reqType hq).trans hn)
  have hreq := request_tied hT hr hp (by rw [show _ = s.currentRequest from hq]; exact hn) h₂
  obtain ⟨lastError, quit, hdone⟩ := checkDone_effect s₂ s₁.workTodo.nextReqType.2
  rw [← Except.ok.inj hwork, hdone]
  obtain ⟨w', as, ho, hnow, hT'⟩ := TiedTo.of_still hst hreq
  exact ⟨w', as, ho, hnow, hT'.of_eq rfl rfl rfl le_rfl fun hq => ⟨hq, rfl⟩⟩

/-- **The world after a turn.** -/
theorem turn_tied {c : Connect} (h : Tied truth cfg l w s) (hr : 1 ≤ cfg.tws_maxRequests)
    (hp : IntPacing cfg) (hok : s.jobs.Ok) (hS : Steady truth s s') (hs : s.turn c = .ok s') :
    TiedTo truth cfg l s s' := by
  obtain ⟨s₁, i, hpath, rfl⟩ := turn_path hs
  suffices TiedTo truth cfg l s s₁ by
    obtain ⟨w', as, ho, hn, hT⟩ := this
    exact ⟨w', as, ho, hn, hT.of_eq rfl rfl rfl le_rfl fun hq => ⟨hq, rfl⟩⟩
  cases hpath with
  | connecting hst hw =>
      have hn := hok.waiting hst
      obtain ⟨st, hj⟩ := waitTwsCon_jobs (s := { s with curIdleTime := -1 }) hn hw
      have hq : s₁.currentRequest = s.currentRequest := congrArg Jobs.request hj
      have hid := congrArg GenericRequest.reqId hq
      have hnone := (congrArg GenericRequest.reqType hq).trans hn
      rcases waitTwsCon_pace hw with hst | ⟨hg, hnow, ha⟩
      · exact .of_tied (h.of_none hst.god hst.farms hst.now hid.ge hnone) hst.now hst.adds
      · -- the connection was given up
        have hL := h.limited.step hr hp.1 (.other (e := .learn s₁.dataFarms) hS.correct
          (.learn (h.farms ▸ hS.keeps)))
        have hrem : w.god.Remembers (w.god.clear s₁.dataFarms s.now) := by
          rw [h.god, ← show s₁.pacingControl = s.pacingControl.clear _ s.now from hg]
          exact hS.remembers
        refine .of_tied (w := { w with
            farms := s₁.dataFarms, god := w.god.clear s₁.dataFarms s.now })
          ⟨hL.alike (PacingGod.alike_clear hL.kept.books hrem), ?_, rfl, h.now.trans hnow.symm,
            h.log, h.reqId.trans hid.ge, fun hh => ?_⟩ hnow ha
        · dsimp only
          rw [h.god]
          exact hg.symm
        · rw [hnone] at hh
          cases hh
  | waiting _ hw _ =>
      have hst := waitData_still hw
      exact .of_tied (h.waited hok hw) hst.now hst.adds
  | reconnecting _ hw _ hn _ hcon =>
      have hst := (waitData_still hw).trans (connectTws_still hcon)
      obtain ⟨st, hj⟩ := connectTws_jobs hcon
      have hq := congrArg Jobs.request hj
      exact .of_tied ((h.waited hok hw).of_none (connectTws_still hcon).god
        (connectTws_still hcon).farms (connectTws_still hcon).now
        (congrArg GenericRequest.reqId hq).ge ((congrArg GenericRequest.reqType hq).trans hn))
        hst.now hst.adds
  | working _ hw _ hn _ hwork =>
      have hst := waitData_still hw
      exact .of_still hst (work_tied (h.waited hok hw) hr hp hn hwork)

/-! ## Runs -/

/-- Steps with all farms as they are. -/
def SteadyStep (truth : String → String) (s : TwsDL) (e : Event) (s' : TwsDL) : Prop :=
  s.Step e s' ∧ Steady truth s s'

/-- `next`, as long as the ground is steady. -/
def steadyNext (truth : String → String) (s : TwsDL) (e : Event) : Option TwsDL :=
  (s.next e).filter fun s' => Steady truth s s'

theorem steadyStep_of_next (h : s.steadyNext truth e = some s') : SteadyStep truth s e s' := by
  obtain ⟨hn, hS⟩ := Option.filter_eq_some_iff.1 h
  exact ⟨step_of_next hn, by simpa using hS⟩

theorem tied_start (hc : DataFarmStates.init.Correct truth) :
    Tied truth cfg [] (PacedWorld.start 0 .init cfg.tws_maxRequests cfg.tws_pacingInterval
      cfg.tws_minPacingTime cfg.tws_violationPause) (start cfg async jobs) where
  limited := PacedWorld.limited_start hc
  god := rfl
  farms := rfl
  now := rfl
  log := rfl
  reqId := le_rfl
  last hq := by cases hq

/-- **What a run keeps**: a world that made the same requests. -/
theorem run_tied (hr : 1 ≤ cfg.tws_maxRequests) (hp : IntPacing cfg)
    (hc : DataFarmStates.init.Correct truth)
    (h : Run (SteadyStep truth) (start cfg async jobs) evs s) : (evs = [] ∨ Clocked evs) →
      ∃ w, Tied truth cfg (histRequests (timeline (start cfg async jobs) evs)) w s := by
  refine h.history (I := fun evs s => (evs = [] ∨ Clocked evs) →
    ∃ w, Tied truth cfg (histRequests (timeline (start cfg async jobs) evs)) w s) ?_ ?_
  · exact fun _ => ⟨_, tied_start hc⟩
  · rintro evs s e s' hr₀ ih ⟨hstep, hS⟩ hclk
    have hclk : Clocked (evs ++ [e]) := hclk.resolve_left (by simp)
    have hrun : Run Step (start cfg async jobs) evs s := hr₀.mono fun _ _ _ h => h.1
    have hok : s.jobs.Ok := run_ok hrun
    obtain ⟨w, hT⟩ := ih hclk.of_snoc
    have htl : timeline (start cfg async jobs) (evs ++ [e]) =
        timeline (start cfg async jobs) evs ++
          (s'.out.drop s.out.length).map fun a => (s'.now, a) :=
      hrun.entries_snoc (fun _ _ _ => next_eq_of_step) hstep
    rw [htl, histRequests_append]
    by_cases ht : ∃ c, e = .turn c
    · -- only a turn makes requests
      obtain ⟨c, rfl⟩ := ht
      obtain ⟨w', as, ho, hn, hT'⟩ := turn_tied hT hr hp hok hS hstep.2
      rw [ho, List.drop_left, hn]
      exact ⟨w', hT'⟩
    · have ht : ∀ c, e ≠ .turn c := fun c he => ht ⟨c, he⟩
      obtain ⟨as, ho, has⟩ := handle_adds ht hstep.2
      have hnil : ∀ a ∈ as, isHist a = false := fun a ha => by rw [has a ha]; rfl
      rw [ho, List.drop_left, histRequests_eq_nil hnil, List.append_nil]
      exact hT.called hr hp.1 hok ht hstep.2 hS (now_le_of_clocked hrun hstep hclk)

/-- **The program keeps the limits of each farm.** While only true farms
are learned and no control forgets, no window of `tws_pacingInterval` holds
more than `tws_maxRequests` of the historical requests of a run that truly
go to one farm, and two of them are `tws_minPacingTime` apart: for one
request at least, parameters that are `int`s, and a clock that does not go
back. However long the program waits, a wrapped difference lets nothing go
early. -/
theorem program_paced (hr : 1 ≤ cfg.tws_maxRequests) (hp : IntPacing cfg)
    (hc : DataFarmStates.init.Correct truth)
    (h : Run (SteadyStep truth) (start cfg async jobs) evs s) (hclk : Clocked evs) (F : String) :
    let times := farmTimes truth (histRequests (timeline (start cfg async jobs) evs)) F
    (∀ a, ((times.filter fun t => a ≤ t ∧ t < a + cfg.tws_pacingInterval).length : ℤ) ≤
      cfg.tws_maxRequests) ∧
    times.Pairwise fun s t => s + cfg.tws_minPacingTime ≤ t := by
  obtain ⟨w, hT⟩ := run_tied hr hp hc h (.inr hclk)
  have hlim := hT.limited
  have htimes : farmTimes truth (histRequests (timeline (start cfg async jobs) evs)) F =
      timesOf truth w.log F := by
    rw [farmTimes, ← hT.log, List.filter_map, List.map_map]
    rfl
  intro times
  rw [show times = _ from htimes]
  refine ⟨fun a => ?_, hlim.apart F⟩
  have hord : (timesOf truth w.log F).Pairwise (· ≤ ·) :=
    hlim.kept.books.ordered.sublist (List.filter_sublist.map _)
  have := (hlim.spaced F).length_window_le hord a
  omega

/-- All farms are as they are known at the start, and one more. -/
def newFarm (X : String) : String :=
  if DataFarmStates.init.getHmdsFarm X = "" then "newhmds" else DataFarmStates.init.getHmdsFarm X

/-- Two jobs for an exchange whose farm is not known. -/
def newFarmJobs : List Job :=
  List.replicate 2 (.historical_data { ibContract := { exchange := "NEW" } })

/-- The farm is learned with the first answer. -/
def farmLearned : List Event :=
  connects 40000 1 ++ [.error { id := -1, code := 2106, msg :=
      "HMDS data farm connection is OK:newhmds" }, .turn {},
    .historicalData 1 { date := "20180102" }, .historicalData 1 { date := "finished" }, .turn {},
    .clock 41600, .turn {}]

theorem program_paced_learned : ∃ s,
    Run (SteadyStep newFarm) (start {} false newFarmJobs) farmLearned s ∧
      s.dataFarms.getHmdsFarm "NEW" = "newhmds" ∧
      farmTimes newFarm (histRequests (timeline (start {} false newFarmJobs) farmLearned))
        "newhmds" = [40000, 41600] ∧
      [40000, 41600].Pairwise fun (s t : ℤ) => s + 1000 ≤ t := by
  have hplay : ((farmLearned.foldlM (steadyNext newFarm) (start {} false newFarmJobs)).map
      fun s => s.dataFarms.getHmdsFarm "NEW") = some "newhmds" := by
    decide +kernel
  obtain ⟨s, hs, hfarm⟩ := Option.map_eq_some_iff.1 hplay
  have hrun := Run.of_foldlM (fun _ _ _ => steadyStep_of_next) hs
  have htimes : farmTimes newFarm (histRequests (timeline (start {} false newFarmJobs)
      farmLearned)) "newhmds" = [40000, 41600] := by
    decide +kernel
  have hclock : Clocked farmLearned :=
    ⟨⟨_, _, rfl⟩, by decide +kernel, by decide +kernel, by decide +kernel⟩
  have hpaced :=
    (program_paced (by decide) (by decide) (by decide +kernel) hrun hclock "newhmds").2
  refine ⟨s, hrun, hfarm, htimes, ?_⟩
  rwa [htimes] at hpaced

end TwsDL

end Twstools
