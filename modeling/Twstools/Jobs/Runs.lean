import Twstools.Jobs.Calls
/-!
# Requests over whole runs

The request and its packet fit together in every state of a run, so that
what a call or a turn can do is known throughout. `run_jobs` is the
induction every invariant of the requests uses.
-/

namespace Twstools

namespace Packet

variable {p p' : Packet} {e : Event} {q : GenericRequest}

theorem Called.reqType_eq (h : p.Called e q p') : p'.reqType = p.reqType := by
  cases h with
  | other hn ht he hm => exact ht
  | closed hcl hne hT hc => exact reqType_closeError hc
  | _ => rfl

theorem Called.not_clean (h : p.Called e q p') (hp : p.base.mode ≠ .CLEAN) :
    p'.base.mode ≠ .CLEAN := by
  cases h with
  | other hn ht he hm => exact hm
  | closed hcl hne hT hc =>
      rcases closeError_eq_ok hc with ⟨-, rfl⟩ | ⟨-, rfl⟩
      · simp
      · exact hp
  | contractEnd | histEnd | optEnd => exact Mode.noConfusion
  | _ => exact hp

/-- **Nothing changes a closed packet** of a request whose callbacks look at
the number. -/
theorem Called.eq_of_closed (h : p.Called e q p') (hn : p.Numbered)
    (hc : p.base.mode = .CLOSED) : p' = p := by
  have closed : ∀ {m : Mode}, m = .CLOSED → m ≠ .RECORD := fun h => h ▸ by decide
  cases h with
  | stay => rfl
  | other ho => exact absurd hn ho
  | closed hcl hne hT hce =>
      rcases closeError_eq_ok hce with ⟨hm, -⟩ | ⟨-, rfl⟩
      · exact absurd hm (closed hc)
      · rfl
  | contractRow he hm | optRow he hm => exact absurd hm (closed hc)
  | histRow he hm => exact absurd hm (closed hc)
  | contractEnd he hm | optEnd he hm => exact absurd hm (closed hc)
  | histEnd he hk hm => exact absurd hm (closed hc)

end Packet

namespace Jobs

variable {j j' : Jobs} {e : Event}

theorem Called.frame (h : j.Called e j') : j'.state = j.state ∧ j'.quit = j.quit ∧
    j'.error = j.error ∧ j'.contractDetailsTodo = j.contractDetailsTodo ∧
    j'.optParamsTodo = j.optParamsTodo ∧ j'.request = j.request ∧ j'.log = j.log := by
  cases h <;> exact ⟨rfl, rfl, rfl, rfl, rfl, rfl, rfl⟩

theorem Called.ok (h : j.Called e j') (hok : j.Ok) : j'.Ok := by
  cases h with
  | none hp => exact hok
  | some hp hc hh =>
      refine ⟨(by intro hn; cases hn), fun p hp' => ?_, fun p hp' => ?_, hok.waiting⟩
      · obtain rfl := Option.some.inj hp'
        exact hc.reqType_eq.trans (hok.packet_some _ hp)
      · obtain rfl := Option.some.inj hp'
        exact hc.not_clean (hok.not_clean _ hp)

/-- With a request over there is no packet. -/
theorem Ok.of_none (hp : j.packet = none) (hn : j.request.reqType = .NONE) : j.Ok where
  packet_none _ := hn
  packet_some p h := by rw [hp] at h; cases h
  not_clean p h := by rw [hp] at h; cases h
  waiting _ := hn

/-- A new packet records, once the connection is complete. -/
theorem Ok.of_some {p : Packet} (hp : j.packet = some p) (ht : p.reqType = j.request.reqType)
    (hm : p.base.mode ≠ .CLEAN) (hs : j.state = .IDLE) : j.Ok where
  packet_none h := by rw [hp] at h; cases h
  packet_some p' h := by rw [hp] at h; rw [← Option.some.inj h, ht]
  not_clean p' h := by rw [hp] at h; rwa [← Option.some.inj h]
  waiting h := by rw [hs] at h; cases h

theorem Waited.ok (h : j.Waited j') (hok : j.Ok) : j'.Ok := by
  cases h with
  | stay => exact hok
  | fin hp hc hf => exact .of_none rfl rfl

theorem Worked.ok (h : j.Worked j') (hs : j.state = .IDLE) (hn : j.request.reqType = .NONE)
    (hok : j.Ok) : j'.Ok := by
  have hp := hok.packet_eq_none.2 hn
  cases h with
  | stay st => exact .of_none hp hn
  | done hcd hop hl => exact .of_none hp hn
  | contractDetails htodo hr => exact .of_some rfl rfl (by simp [Packet.base]) hs
  | optParams htodo hr => exact .of_some rfl rfl (by simp [Packet.base]) hs
  | hist hc hj => exact .of_some rfl rfl (by simp [Packet.base]) hs
  | other hN hb ha hq => exact .of_some rfl rfl (by simp [hb]) hs

theorem Turned.ok (h : j.Turned j') (hok : j.Ok) : j'.Ok := by
  cases h with
  | connect st hn => exact .of_none (hok.packet_eq_none.2 hn) hn
  | wait hw => exact hw.ok hok
  | work hw hs hn hk => exact hk.ok hs hn (hw.ok hok)

end Jobs

namespace TwsDL

variable {s s' : TwsDL} {e : Event} {evs : List Event} {cfg : ConfigTwsdo} {async : Bool}
variable {jobs : List Job}

/-- **What an event does to a request.** -/
theorem step_cases (hok : s.jobs.Ok) (h : s.Step e s') :
    (∃ c, e = .turn c) ∧ s.jobs.Turned s'.jobs ∨
      (∀ c, e ≠ .turn c) ∧ s.jobs.Called e s'.jobs := by
  by_cases ht : ∃ c, e = .turn c
  · obtain ⟨c, rfl⟩ := ht
    exact .inl ⟨⟨c, rfl⟩, turn_cases hok h.2⟩
  · have ht' : ∀ c, e ≠ .turn c := fun c he => ht ⟨c, he⟩
    exact .inr ⟨ht', handle_called hok ht' h.2⟩

theorem step_ok (hok : s.jobs.Ok) (h : s.Step e s') : s'.jobs.Ok := by
  rcases step_cases hok h with ⟨-, ht⟩ | ⟨-, hc⟩
  · exact ht.ok hok
  · exact hc.ok hok

/-- **The request and its packet fit together in every state.** -/
theorem run_ok (h : Run Step (start cfg async jobs) evs s) : s.jobs.Ok :=
  h.invariant (I := fun s => s.jobs.Ok) (.of_none rfl rfl) fun _ _ _ hok hstep => step_ok hok hstep

/-- A request that is under way has a packet, of its own kind. -/
theorem packet_of_ok (hok : s.jobs.Ok) (hn : s.currentRequest.reqType ≠ .NONE) :
    ∃ p, s.packet = some p ∧ p.reqType = s.currentRequest.reqType := by
  cases hp : s.packet with
  | none => exact absurd (hok.packet_none hp) hn
  | some p => exact ⟨p, rfl, hok.packet_some p hp⟩

/-- The packet of a request for contract details is one. -/
theorem contractDetails_of_ok (hok : s.jobs.Ok)
    (ht : s.currentRequest.reqType = .CONTRACT_DETAILS_REQUEST) :
    ∃ p, s.packet = some (.contractDetails p) := by
  obtain ⟨p, hp, hr⟩ := packet_of_ok hok (ht ▸ by decide)
  rw [ht] at hr
  cases p with
  | contractDetails p => exact ⟨p, hp⟩
  | histData | accStatus | executions | orders | optParams => cases hr

/-- The packet of a request for option parameters is one. -/
theorem optParams_of_ok (hok : s.jobs.Ok)
    (ht : s.currentRequest.reqType = .OPT_PARAMS_REQUEST) :
    ∃ p, s.packet = some (.optParams p) := by
  obtain ⟨p, hp, hr⟩ := packet_of_ok hok (ht ▸ by decide)
  rw [ht] at hr
  cases p with
  | optParams p => exact ⟨p, hp⟩
  | histData | accStatus | executions | orders | contractDetails => cases hr

/-- The packet of a historical request is one. -/
theorem histData_of_ok (hok : s.jobs.Ok) (ht : s.currentRequest.reqType = .HIST_REQUEST) :
    ∃ p, s.packet = some (.histData p) := by
  obtain ⟨p, hp, hr⟩ := packet_of_ok hok (ht ▸ by decide)
  rw [ht] at hr
  cases p with
  | histData p => exact ⟨p, hp⟩
  | contractDetails | accStatus | executions | orders | optParams => cases hr

/-- **An invariant of the requests**: kept by every call and every turn. -/
theorem run_jobs {I : Jobs → Prop} (h0 : I (start cfg async jobs).jobs)
    (hc : ∀ j e j', j.Ok → I j → j.quit = false → j.Called e j' → I j')
    (hw : ∀ j j', j.Ok → I j → j.quit = false → j.Waited j' → I j')
    (hk : ∀ j j', j.Ok → I j → j.quit = false → j.request.reqType = .NONE → j.Worked j' → I j')
    (hs : ∀ j st, j.Ok → I j → j.request.reqType = .NONE → I { j with state := st })
    (h : Run Step (start cfg async jobs) evs s) : I s.jobs := by
  suffices s.jobs.Ok ∧ I s.jobs from this.2
  refine h.invariant (I := fun s => s.jobs.Ok ∧ I s.jobs) ⟨.of_none rfl rfl, h0⟩ ?_
  rintro s e s' ⟨hok, hI⟩ hstep
  refine ⟨step_ok hok hstep, ?_⟩
  have hq : s.jobs.quit = false := hstep.1
  rcases step_cases hok hstep with ⟨-, ht⟩ | ⟨-, hcall⟩
  · generalize s'.jobs = j' at ht ⊢
    cases ht with
    | connect st hn => exact hs _ st hok hI hn
    | wait hwait => exact hw _ _ hok hI hq hwait
    | work hwait _ hn hwork =>
        exact hk _ _ (hwait.ok hok) (hw _ _ hok hI hq hwait) (hwait.frame.2.1.trans hq) hn hwork
  · exact hc _ _ _ hok hI hq hcall

end TwsDL

end Twstools
