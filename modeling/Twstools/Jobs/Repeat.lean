import Twstools.Jobs.Runs
import Twstools.Common.Serve
/-!
# Contract details and option parameters after a lost connection

Both lists are served in order: `checkout` hands out the next job, an
answer, an error or a timeout finishes it, and after a lost connection
`repeat` puts it back. `View` is what a list sees of the program. `repeat`
asserts that its index is positive, so the first job cannot be put back.
-/

namespace Twstools

/-- One list of jobs: its index, the request and the members of its
packet while one is open, and what happened to its jobs. -/
structure View (α : Type) where
  todo : IndexTodo α
  own : Option (Option α × PacketBase)
  log : List (Service α)

namespace View

variable {α : Type}

/-- **What happens to a list.** -/
inductive Step (e : Event) (v : View α) : View α → Prop
  | stay : Step e v v
  /-- The packet changes; a lost connection may close it. -/
  | call {r : Option α} {b b' : PacketBase} : v.own = some (r, b) →
      (b'.error = .TWSCON → b.error = .TWSCON ∨ e = .connectionClosed ∧ b.mode = .RECORD) →
      Step e v { v with own := some (r, b') }
  /-- The job is put back. -/
  | again {r : Option α} {b : PacketBase} {todo : IndexTodo α} {site : Assertion} :
      v.own = some (r, b) → b.error = .TWSCON → v.todo.repeat site = .ok todo →
      Step e v { todo := todo, own := none, log := v.log ++ [.back] }
  /-- The job is finished. -/
  | finish {r : Option α} {b : PacketBase} {a : α} : v.own = some (r, b) →
      (∀ a', r = some a' → a' = a) →
      Step e v { v with own := none, log := v.log ++ [.finish a] }
  /-- The next job is handed out. -/
  | give {a : α} {todo : IndexTodo α} {site site' : Assertion} : v.own = none →
      v.todo.checkout site = .ok todo → todo.current site' = .ok a →
      Step e v
        { todo := todo, own := some (some a, { mode := .RECORD }), log := v.log ++ [.give a] }

variable {rs : List α} {v v' : View α} {e : Event}

/-- The list is served, and the index is that of the job that is out, or
of the last one that is finished. -/
structure Ok (rs : List α) (v : View α) : Prop where
  requests : v.todo.requests = rs
  served : ∃ i : ℕ, Served rs v.log i v.own.isSome ∧
    v.todo.curIndex = (if v.own.isSome then (i : ℤ) else i - 1) ∧
    ∀ r b, v.own = some (r, b) → ∃ a, r = some a ∧ rs[i]? = some a

theorem Ok.step (h : v.Ok rs) (hs : v.Step e v') : v'.Ok rs := by
  obtain ⟨hreq, i, hserved, hcur, hown⟩ := h
  cases hs with
  | stay => exact ⟨hreq, i, hserved, hcur, hown⟩
  | call ho hl =>
      rw [ho] at hserved hcur
      refine ⟨hreq, i, hserved, hcur, fun r b hr => ?_⟩
      obtain ⟨rfl, -⟩ := Prod.mk.inj (Option.some.inj hr)
      exact hown _ _ ho
  | again ho he hr =>
      obtain ⟨-, rfl⟩ := IndexTodo.repeat_eq_ok.1 hr
      rw [ho] at hserved hcur
      refine ⟨hreq, i, hserved.back, ?_, by simp⟩
      simp only [Option.isSome_some, if_true] at hcur
      simp [hcur]
  | finish ho hr =>
      obtain ⟨a, rfl, ha⟩ := hown _ _ ho
      obtain rfl := hr a rfl
      rw [ho] at hserved hcur
      refine ⟨hreq, i + 1, hserved.finish ha, ?_, by simp⟩
      simp only [Option.isSome_some, if_true] at hcur
      simp [hcur]
  | @give a todo site site' ho hc ha =>
      obtain ⟨-, rfl⟩ := IndexTodo.checkout_eq_ok.1 hc
      obtain ⟨h0, ha⟩ := IndexTodo.current_eq_ok.1 ha
      rw [ho] at hserved hcur
      simp only [Option.isSome_none] at hcur
      have hi : v.todo.curIndex + 1 = i := by
        simp only [Bool.false_eq_true, if_false] at hcur
        omega
      have ha' : rs[i]? = some a := by
        rw [← hreq]
        simpa [hi] using ha
      refine ⟨hreq, i, hserved.give ha', by simpa using hi, fun r b hr => ?_⟩
      obtain ⟨rfl, -⟩ := Prod.mk.inj (Option.some.inj hr)
      exact ⟨_, rfl, ha'⟩

/-- A connection is not lost while the first job is out and its packet is
open. -/
def LossSafe (v : View α) (e : Event) : Prop :=
  e = .connectionClosed → ∀ r b, v.own = some (r, b) → b.mode = .RECORD → v.todo.curIndex ≠ 0

/-- A job whose packet was closed by a lost connection can be put back. -/
def Repeatable (v : View α) : Prop :=
  ∀ r b, v.own = some (r, b) → b.error = .TWSCON → 0 < v.todo.curIndex

theorem Repeatable.step (hok : v.Ok rs) (h : v.Repeatable) (hl : v.LossSafe e)
    (hs : v.Step e v') : v'.Repeatable := by
  cases hs with
  | stay => exact h
  | @call r b b' ho hcon =>
      intro r' b'' hr he
      obtain ⟨rfl, rfl⟩ := Prod.mk.inj (Option.some.inj hr)
      rcases hcon he with hb | ⟨rfl, hb⟩
      · exact h _ _ ho hb
      · have hne := hl rfl _ _ ho hb
        obtain ⟨-, i, -, hcur, -⟩ := hok
        rw [ho] at hcur
        simp only [Option.isSome_some, if_true] at hcur
        dsimp only
        omega
  | again => intro r b hr; cases hr
  | finish => intro r b hr; cases hr
  | give =>
      intro r b hr he
      obtain ⟨-, rfl⟩ := Prod.mk.inj (Option.some.inj hr)
      cases he

/-- **`checkout` after `repeat` hands out the same job.** -/
theorem Repeatable.again {site site' : Assertion} (hok : v.Ok rs) (h : v.Repeatable)
    {r : Option α} {b : PacketBase} (ho : v.own = some (r, b)) (he : b.error = .TWSCON) :
    ∃ todo, v.todo.repeat site = .ok todo ∧ todo.checkout site' = .ok v.todo := by
  have hpos := h r b ho he
  refine ⟨_, IndexTodo.repeat_eq_ok.2 ⟨hpos, rfl⟩, IndexTodo.checkout_eq_ok.2 ⟨?_, ?_⟩⟩
  · obtain ⟨hreq, i, -, hcur, hown⟩ := hok
    obtain ⟨a, -, ha⟩ := hown r b ho
    have hlt := (List.getElem?_eq_some_iff.1 ha).1
    rw [ho] at hcur
    simp only [Option.isSome_some, if_true] at hcur
    simp only [IndexTodo.countLeft, hreq]
    omega
  · simp

/-- When nothing is out and nothing is left, all jobs are finished. -/
theorem Ok.all_finished (h : v.Ok rs) (ho : v.own = none) (hl : v.todo.countLeft ≤ 0) :
    finishedOf v.log = rs := by
  obtain ⟨hreq, i, hserved, hcur, -⟩ := h
  rw [ho] at hcur
  simp only [Option.isSome_none, Bool.false_eq_true, if_false] at hcur
  simp only [IndexTodo.countLeft, hreq] at hl
  rw [hserved.finishedOf_eq, List.take_of_length_le (by omega)]

end View

/-! ## The two kinds of jobs -/

/-- What a list sees of the program. -/
def View.of {α : Type} (todo : Jobs → IndexTodo α) (request : Packet → Option (Option α))
    (service : Action → Option (Service α)) (j : Jobs) : View α where
  todo := todo j
  own := j.packet.bind fun p => (request p).map fun r => (r, p.base)
  log := j.log.filterMap service

/-- A kind of jobs that are served in order: its list, the request of a
packet of its class, and what the actions of the program do to its jobs.
The laws say that a packet keeps its request, and that a deleted packet
tells whether its job is put back or finished. -/
structure Kind (α : Type) where
  todo : Jobs → IndexTodo α
  request : Packet → Option (Option α)
  service : Action → Option (Service α)
  not_hist : ∀ {p r}, request p = some r → p.reqType ≠ .HIST_REQUEST
  request_called : ∀ {e q p p'}, p.Called e q p' → request p' = request p
  request_withBase : ∀ {p b}, request (p.withBase b) = request p
  todo_called : ∀ {e j j'}, j.Called e j' → todo j' = todo j
  todo_again : ∀ {p r j j'}, j.Finished p j' → request p = some r → p.getError = .TWSCON →
    ∃ site, (todo j).repeat site = .ok (todo j')
  todo_stays : ∀ {p j j'}, j.Finished p j' → request p = none ∨ p.getError ≠ .TWSCON →
    todo j' = todo j
  todo_fields : ∀ (j : Jobs) (st : State) (o : Option Packet) (q : GenericRequest)
    (l : List Action), todo { j with state := st, packet := o, request := q, log := l } = todo j
  dump : ∀ {p job}, service (.dumpXml p job) = none
  delete_none : ∀ {p}, request p = none → service (.delete p) = none
  delete_back : ∀ {p r}, request p = some r → p.getError = .TWSCON →
    service (.delete p) = some .back
  delete_finish : ∀ {p r}, request p = some r → p.getError ≠ .TWSCON →
    ∃ a, service (.delete p) = some (.finish a) ∧ ∀ a', r = some a' → a' = a
  worked : ∀ {e j j'}, j.Worked j' → j.packet = none →
    (View.of todo request service j).Step e (View.of todo request service j')

/-- Only a lost connection interrupts a request that is not historical. -/
theorem Packet.Called.twscon {e : Event} {q : GenericRequest} {p p' : Packet}
    (h : p.Called e q p') (hq : q.reqType ≠ .HIST_REQUEST) (he : p'.base.error = .TWSCON) :
    p.base.error = .TWSCON ∨ e = .connectionClosed ∧ p.base.mode = .RECORD := by
  cases h with
  | other hn ht herr hm => exact .inl (herr ▸ he)
  | closed hcl hne hT hc =>
      rcases closeError_eq_ok hc with ⟨hm, rfl⟩ | ⟨-, rfl⟩
      · exact .inr ⟨hT (by simpa using he) hq, hm⟩
      · exact .inl he
  | _ => exact .inl he

namespace Kind

variable {α : Type} (k : Kind α) {j j' : Jobs} {e : Event}

/-- What the list of the kind sees. -/
def view (j : Jobs) : View α := View.of k.todo k.request k.service j

theorem view_called (hok : j.Ok) (h : j.Called e j') : (k.view j).Step e (k.view j') := by
  have htodo := k.todo_called h
  cases h with
  | none hp => exact .stay
  | @some p p' hT hp hc hh =>
      have hreq := k.request_called hc
      cases hr : k.request p with
      | none =>
          have hv : k.view { j with packet := some p', histTodo := hT } = k.view j := by
            simp [view, View.of, hp, hreq, hr, htodo]
          rw [hv]
          exact .stay
      | some r =>
          have hv : k.view { j with packet := some p', histTodo := hT } =
              { k.view j with own := some (r, p'.base) } := by
            simp [view, View.of, hreq, hr, htodo]
          rw [hv]
          refine .call (b := p.base) (by simp [view, View.of, hp, hr]) fun he => ?_
          exact hc.twscon (hok.packet_some p hp ▸ k.not_hist hr) he

/-- What is written is no service. -/
theorem services_finished {p : Packet} (h : j.Finished p j') :
    j'.log.filterMap k.service = j.log.filterMap k.service := by
  cases h with
  | histDumped | dumped => simp [List.filterMap_append, k.dump]
  | _ => rfl

theorem view_waited (h : j.Waited j') : (k.view j).Step e (k.view j') := by
  cases h with
  | stay => exact .stay
  | @fin p p' j₁ hp hcl hf =>
      have hreq : k.request p' = k.request p := by
        rcases hcl with ⟨rfl, -⟩ | ⟨-, hcl⟩
        · rfl
        · rcases Packet.closeError_eq_ok hcl with ⟨-, rfl⟩ | ⟨-, rfl⟩
          · exact k.request_withBase
          · rfl
      have hlog := k.services_finished hf
      cases hr : k.request p with
      | none =>
          have hv : k.view { j₁ with
              packet := none, request := j.request.close, log := j₁.log ++ [.delete p'] } =
              k.view j := by
            simp [view, View.of, k.todo_fields, hp, hr, k.todo_stays hf (.inl (hreq.trans hr)),
              List.filterMap_append, hlog, k.delete_none (hreq.trans hr)]
          rw [hv]
          exact .stay
      | some r =>
          have hr' := hreq.trans hr
          have hown : (k.view j).own = some (r, p.base) := by simp [view, View.of, hp, hr]
          by_cases he : p'.getError = .TWSCON
          · obtain ⟨site, hrep⟩ := k.todo_again hf hr' he
            have hv : k.view { j₁ with
                packet := none, request := j.request.close, log := j₁.log ++ [.delete p'] } =
                { todo := k.todo j₁, own := none, log := (k.view j).log ++ [.back] } := by
              simp [view, View.of, k.todo_fields, List.filterMap_append, hlog,
                k.delete_back hr' he]
            rw [hv]
            refine .again hown ?_ hrep
            rcases hcl with ⟨rfl, -⟩ | ⟨-, hcl⟩
            · exact he
            · rcases Packet.closeError_eq_ok hcl with ⟨-, rfl⟩ | ⟨-, rfl⟩
              · simp [Packet.getError, PacketBase.getError] at he
              · exact he
          · obtain ⟨a, hdel, ha⟩ := k.delete_finish hr' he
            have hv : k.view { j₁ with
                packet := none, request := j.request.close, log := j₁.log ++ [.delete p'] } =
                { k.view j with own := none, log := (k.view j).log ++ [.finish a] } := by
              simp [view, View.of, k.todo_fields, k.todo_stays hf (.inr he),
                List.filterMap_append, hlog, hdel]
            rw [hv]
            exact .finish hown ha

end Kind

/-- A turn that is about something else. -/
theorem View.of_stay {α : Type} {todo : Jobs → IndexTodo α} {request : Packet → Option (Option α)}
    {service : Action → Option (Service α)} {j j' : Jobs} {e : Event} (hp : j.packet = none)
    (htodo : todo j' = todo j) (hown : j'.packet.bind request = none)
    (hlog : j'.log.filterMap service = j.log.filterMap service) :
    (View.of todo request service j).Step e (View.of todo request service j') := by
  have hv : View.of todo request service j' = View.of todo request service j := by
    simp only [View.of, htodo, hlog, hp]
    cases hj : j'.packet with
    | none => rfl
    | some p =>
        rw [hj] at hown
        have hr : request p = none := hown
        simp [hr]
  rw [hv]
  exact .stay

/-- The request of a packet of contract details. -/
def Packet.contractRequest : Packet → Option (Option ContractDetailsRequest)
  | contractDetails p => some p.request
  | _ => none

/-- What an action does to the jobs for contract details. -/
def Action.contractService : Action → Option (Service ContractDetailsRequest)
  | .reqContractDetails _ c => some (.give { ibContract := c })
  | .delete (.contractDetails p) =>
      some (if p.error = .TWSCON then .back else .finish (p.request.getD {}))
  | _ => none

theorem Packet.contractRequest_eq_some {p : Packet} {r : Option ContractDetailsRequest} :
    p.contractRequest = some r ↔ ∃ q, p = .contractDetails q ∧ q.request = r := by
  cases p <;> simp [contractRequest]

theorem Packet.contractRequest_eq_none {p : Packet} (h : p.reqType ≠ .CONTRACT_DETAILS_REQUEST) :
    p.contractRequest = none := by
  cases p with
  | contractDetails => exact absurd rfl h
  | _ => rfl

/-- The jobs for contract details. -/
def contractKind : Kind ContractDetailsRequest where
  todo := Jobs.contractDetailsTodo
  request := Packet.contractRequest
  service := Action.contractService
  not_hist h := by
    obtain ⟨p, rfl, -⟩ := Packet.contractRequest_eq_some.1 h
    exact nofun
  request_called {e q p p'} h := by
    cases h with
    | other hn ht =>
        have hne : p.reqType ≠ .CONTRACT_DETAILS_REQUEST :=
          fun he => hn (by simp [Packet.Numbered, he])
        rw [Packet.contractRequest_eq_none hne, Packet.contractRequest_eq_none (ht ▸ hne)]
    | closed hcl hne hT hc =>
        rcases Packet.closeError_eq_ok hc with ⟨-, rfl⟩ | ⟨-, rfl⟩
        · cases p <;> rfl
        · rfl
    | _ => rfl
  request_withBase {p b} := by cases p <;> rfl
  todo_called h := h.frame.2.2.2.1
  todo_again {p r j j'} h hr he := by
    obtain ⟨p, rfl, -⟩ := Packet.contractRequest_eq_some.1 hr
    cases h with
    | contractDetailsAgain ht he' hrep => exact ⟨_, hrep⟩
    | dropped hN hh he' hT => exact absurd he hT
    | dumped hh hd =>
        have hn := hd (by simp [Packet.Numbered, Packet.reqType])
        exact absurd (he.symm.trans hn) (by decide)
    | _ => simp_all [Packet.reqType]
  todo_stays {p j j'} h hs := by
    cases h with
    | contractDetailsAgain ht he hrep =>
        rcases hs with hs | hs
        · cases p <;> simp_all [Packet.contractRequest, Packet.reqType]
        · exact absurd he hs
    | _ => rfl
  todo_fields _ _ _ _ _ := rfl
  dump := rfl
  delete_none {p} h := by
    cases p with
    | contractDetails => cases h
    | _ => rfl
  delete_back h he := by
    obtain ⟨p, rfl, -⟩ := Packet.contractRequest_eq_some.1 h
    exact congrArg some (if_pos he)
  delete_finish {p r} h he := by
    obtain ⟨p, rfl, rfl⟩ := Packet.contractRequest_eq_some.1 h
    refine ⟨p.request.getD {}, congrArg some (if_neg he), fun a' ha => ?_⟩
    rw [ha]
    rfl
  worked {e j j'} h hp := by
    cases h with
    | stay st => exact View.of_stay hp rfl (by simp [hp]) rfl
    | done => exact View.of_stay hp rfl (by simp [hp]) rfl
    | contractDetails htodo hr =>
        have hg := View.Step.give (e := e) (v := View.of Jobs.contractDetailsTodo
          Packet.contractRequest Action.contractService j) (by simp [View.of, hp]) htodo hr
        simpa [View.of, List.filterMap_append, Action.contractService, Packet.contractRequest,
          Packet.base] using hg
    | optParams | hist =>
        exact View.of_stay hp rfl rfl (by simp [List.filterMap_append, Action.contractService])
    | @other p a now hN hb ha hq =>
        have hne : p.reqType ≠ .CONTRACT_DETAILS_REQUEST :=
          fun he => hN (by simp [Packet.Numbered, he])
        refine View.of_stay hp rfl (Packet.contractRequest_eq_none hne) ?_
        cases a <;> simp_all [List.filterMap_append, Action.contractService, Action.unnumbered]

/-- The request of a packet of option parameters. -/
def Packet.optRequest : Packet → Option (Option OptParamsRequest)
  | optParams p => some p.request
  | _ => none

/-- What an action does to the jobs for option parameters. -/
def Action.optService : Action → Option (Service OptParamsRequest)
  | .reqSecDefOptParams _ c => some (.give { ibContract := c })
  | .delete (.optParams p) =>
      some (if p.error = .TWSCON then .back else .finish (p.request.getD {}))
  | _ => none

theorem Packet.optRequest_eq_some {p : Packet} {r : Option OptParamsRequest} :
    p.optRequest = some r ↔ ∃ q, p = .optParams q ∧ q.request = r := by
  cases p <;> simp [optRequest]

theorem Packet.optRequest_eq_none {p : Packet} (h : p.reqType ≠ .OPT_PARAMS_REQUEST) :
    p.optRequest = none := by
  cases p with
  | optParams => exact absurd rfl h
  | _ => rfl

/-- The jobs for option parameters. -/
def optKind : Kind OptParamsRequest where
  todo := Jobs.optParamsTodo
  request := Packet.optRequest
  service := Action.optService
  not_hist h := by
    obtain ⟨p, rfl, -⟩ := Packet.optRequest_eq_some.1 h
    exact nofun
  request_called {e q p p'} h := by
    cases h with
    | other hn ht =>
        have hne : p.reqType ≠ .OPT_PARAMS_REQUEST := fun he => hn (by simp [Packet.Numbered, he])
        rw [Packet.optRequest_eq_none hne, Packet.optRequest_eq_none (ht ▸ hne)]
    | closed hcl hne hT hc =>
        rcases Packet.closeError_eq_ok hc with ⟨-, rfl⟩ | ⟨-, rfl⟩
        · cases p <;> rfl
        · rfl
    | _ => rfl
  request_withBase {p b} := by cases p <;> rfl
  todo_called h := h.frame.2.2.2.2.1
  todo_again {p r j j'} h hr he := by
    obtain ⟨p, rfl, -⟩ := Packet.optRequest_eq_some.1 hr
    cases h with
    | optParamsAgain ht he' hrep => exact ⟨_, hrep⟩
    | dropped hN hh he' hT => exact absurd he hT
    | dumped hh hd =>
        have hn := hd (by simp [Packet.Numbered, Packet.reqType])
        exact absurd (he.symm.trans hn) (by decide)
    | _ => simp_all [Packet.reqType]
  todo_stays {p j j'} h hs := by
    cases h with
    | optParamsAgain ht he hrep =>
        rcases hs with hs | hs
        · cases p <;> simp_all [Packet.optRequest, Packet.reqType]
        · exact absurd he hs
    | _ => rfl
  todo_fields _ _ _ _ _ := rfl
  dump := rfl
  delete_none {p} h := by
    cases p with
    | optParams => cases h
    | _ => rfl
  delete_back h he := by
    obtain ⟨p, rfl, -⟩ := Packet.optRequest_eq_some.1 h
    exact congrArg some (if_pos he)
  delete_finish {p r} h he := by
    obtain ⟨p, rfl, rfl⟩ := Packet.optRequest_eq_some.1 h
    refine ⟨p.request.getD {}, congrArg some (if_neg he), fun a' ha => ?_⟩
    rw [ha]
    rfl
  worked {e j j'} h hp := by
    cases h with
    | stay st => exact View.of_stay hp rfl (by simp [hp]) rfl
    | done => exact View.of_stay hp rfl (by simp [hp]) rfl
    | optParams htodo hr =>
        have hg := View.Step.give (e := e) (v := View.of Jobs.optParamsTodo
          Packet.optRequest Action.optService j) (by simp [View.of, hp]) htodo hr
        simpa [View.of, List.filterMap_append, Action.optService, Packet.optRequest,
          Packet.base] using hg
    | contractDetails | hist =>
        exact View.of_stay hp rfl rfl (by simp [List.filterMap_append, Action.optService])
    | @other p a now hN hb ha hq =>
        have hne : p.reqType ≠ .OPT_PARAMS_REQUEST := fun he => hN (by simp [Packet.Numbered, he])
        refine View.of_stay hp rfl (Packet.optRequest_eq_none hne) ?_
        cases a <;> simp_all [List.filterMap_append, Action.optService, Action.unnumbered]

/-! ## Runs -/

/-- The jobs for contract details of a work file's element. -/
def Job.contractJob : Job → Option ContractDetailsRequest
  | .contract_details r => some r
  | .market_data _ cdr => some cdr
  | _ => none

/-- The job for option parameters of a work file's element. -/
def Job.optJob : Job → Option OptParamsRequest
  | .opt_params r => some r
  | _ => none

theorem readFile_todos (w : WorkTodo) (jobs : List Job) :
    (w.readFile jobs).contractDetailsTodo = { w.contractDetailsTodo with
      requests := w.contractDetailsTodo.requests ++ jobs.filterMap Job.contractJob } ∧
    (w.readFile jobs).optParamsTodo = { w.optParamsTodo with
      requests := w.optParamsTodo.requests ++ jobs.filterMap Job.optJob } := by
  induction jobs generalizing w with
  | nil => simp [WorkTodo.readFile]
  | cons job jobs ih =>
      rw [WorkTodo.readFile, List.foldl_cons, ← WorkTodo.readFile]
      obtain ⟨h1, h2⟩ := ih (w.readReq job)
      rw [h1, h2]
      cases job <;>
        simp [WorkTodo.readReq, IndexTodo.add, List.filterMap_cons, Job.contractJob, Job.optJob]

namespace TwsDL

variable {s s' : TwsDL} {e : Event} {evs : List Event} {cfg : ConfigTwsdo} {async : Bool}
variable {jobs : List Job}

/-- No connection is lost while the first job of its list is outstanding
and its packet is open. -/
def LossSafe (s : TwsDL) (e : Event) : Prop :=
  e = .connectionClosed → ∀ p ∈ s.packet, p.finished = false →
    (p.reqType = .CONTRACT_DETAILS_REQUEST → s.workTodo.contractDetailsTodo.curIndex ≠ 0) ∧
    (p.reqType = .OPT_PARAMS_REQUEST → s.workTodo.optParamsTodo.curIndex ≠ 0)

instance (s : TwsDL) (e : Event) : Decidable (s.LossSafe e) :=
  inferInstanceAs (Decidable (_ → _))

/-- A step that meets this condition. -/
def SafeStep (s : TwsDL) (e : Event) (s' : TwsDL) : Prop := s.Step e s' ∧ s.LossSafe e

/-- A turn is two steps of a list, any other event one. -/
theorem view_step {α : Type} (k : Kind α) (hok : s.jobs.Ok) (h : s.Step e s') :
    (e ≠ .connectionClosed ∧ ∃ v, (k.view s.jobs).Step e v ∧ v.Step e (k.view s'.jobs)) ∨
      (k.view s.jobs).Step e (k.view s'.jobs) := by
  rcases step_cases hok h with ⟨⟨c, rfl⟩, ht⟩ | ⟨-, hc⟩
  · refine .inl ⟨Event.noConfusion, ?_⟩
    generalize s'.jobs = j' at ht ⊢
    cases ht with
    | connect st hn =>
        have hv : k.view { s.jobs with state := st } = k.view s.jobs := by
          simp only [Kind.view, View.of]
          rw [k.todo_fields s.jobs st s.jobs.packet s.jobs.request s.jobs.log]
        rw [hv]
        exact ⟨_, .stay, .stay⟩
    | wait hw => exact ⟨_, k.view_waited hw, .stay⟩
    | work hw hs hn hk =>
        exact ⟨_, k.view_waited hw, k.worked hk ((hw.ok hok).packet_eq_none.2 hn)⟩
  · exact .inr (k.view_called hok hc)

/-- **A list of either kind is served in order, and can be repeated.** -/
theorem run_view {α : Type} {rs : List α} (k : Kind α)
    (h0 : k.todo (start cfg async jobs).jobs = { requests := rs })
    (hl : ∀ {s : TwsDL} {e : Event}, s.LossSafe e → (k.view s.jobs).LossSafe e)
    (h : Run SafeStep (start cfg async jobs) evs s) :
    (k.view s.jobs).Ok rs ∧ (k.view s.jobs).Repeatable := by
  suffices s.jobs.Ok ∧ (k.view s.jobs).Ok rs ∧ (k.view s.jobs).Repeatable from this.2
  refine h.invariant (I := fun s => s.jobs.Ok ∧ (k.view s.jobs).Ok rs ∧
    (k.view s.jobs).Repeatable) ⟨.of_none rfl rfl, ⟨?_, 0, .start, ?_, ?_⟩, ?_⟩ ?_
  · exact congrArg IndexTodo.requests h0
  · exact (congrArg IndexTodo.curIndex h0).trans rfl
  · intro r b hr
    cases hr
  · intro r b hr
    cases hr
  · rintro s e s' ⟨hok, hv, hr⟩ ⟨hstep, hsafe⟩
    refine ⟨step_ok hok hstep, ?_⟩
    rcases view_step k hok hstep with ⟨he, v, h₁, h₂⟩ | h₁
    · have hno : ∀ v : View α, v.LossSafe e := fun v h => absurd h he
      have hv₁ := hv.step h₁
      exact ⟨hv₁.step h₂, (hr.step hv (hno _) h₁).step hv₁ (hno v) h₂⟩
    · exact ⟨hv.step h₁, hr.step hv (hl hsafe) h₁⟩

theorem contract_lossSafe (h : s.LossSafe e) : (contractKind.view s.jobs).LossSafe e := by
  intro he r b hr hm
  obtain ⟨p, hp, hpr⟩ := Option.bind_eq_some_iff.1 hr
  obtain ⟨r', hr', hrb⟩ := Option.map_eq_some_iff.1 hpr
  obtain ⟨-, rfl⟩ := Prod.mk.inj hrb
  obtain ⟨q, rfl, -⟩ := Packet.contractRequest_eq_some.1 hr'
  have hopen : (Packet.contractDetails q).finished = false := by
    simp [Packet.finished, PacketBase.finished, hm]
  exact (h he _ hp hopen).1 rfl

theorem opt_lossSafe (h : s.LossSafe e) : (optKind.view s.jobs).LossSafe e := by
  intro he r b hr hm
  obtain ⟨p, hp, hpr⟩ := Option.bind_eq_some_iff.1 hr
  obtain ⟨r', hr', hrb⟩ := Option.map_eq_some_iff.1 hpr
  obtain ⟨-, rfl⟩ := Prod.mk.inj hrb
  obtain ⟨q, rfl, -⟩ := Packet.optRequest_eq_some.1 hr'
  have hopen : (Packet.optParams q).finished = false := by
    simp [Packet.finished, PacketBase.finished, hm]
  exact (h he _ hp hopen).2 rfl

/-- The program quits when no request is open and neither list has a job
left. -/
theorem run_quit (h : Run Step (start cfg async jobs) evs s) (hq : s.quit = true) :
    s.jobs.packet = none ∧ s.jobs.contractDetailsTodo.countLeft ≤ 0 ∧
      s.jobs.optParamsTodo.countLeft ≤ 0 := by
  have hI := run_jobs (I := fun j => j.quit = true → j.request.reqType = .NONE ∧
    j.contractDetailsTodo.countLeft ≤ 0 ∧ j.optParamsTodo.countLeft ≤ 0) (by intro hq; cases hq)
    (fun j e j' _ _ hq hc hq' => absurd (hq.symm.trans (hc.frame.2.1.symm.trans hq')) (by decide))
    (fun j j' _ _ hq hw hq' => absurd (hq.symm.trans (hw.frame.2.1.symm.trans hq')) (by decide))
    (fun j j' _ _ hq hn hk hq' => ?_) (fun j st _ hI _ => hI) h
  · obtain ⟨hn, hl⟩ := hI hq
    exact ⟨(run_ok h).packet_eq_none.2 hn, hl⟩
  · cases hk with
    | done hcd hop hl => exact ⟨hn, hcd, hop⟩
    | _ => exact absurd (hq.symm.trans hq') (by decide)

/-- What the actions do to the jobs shows in the log of the requests. -/
theorem services_log {α : Type} (service : Action → Option (Service α))
    (hs : ∀ a, a.ofRequest = false → service a = none) :
    s.jobs.log.filterMap service = s.out.filterMap service := by
  rw [jobs, List.filterMap_filter]
  refine List.filterMap_congr fun a _ => ?_
  cases ha : a.ofRequest with
  | true => rfl
  | false => exact (hs a ha).symm

theorem contract_log : s.jobs.log.filterMap Action.contractService =
    s.out.filterMap Action.contractService :=
  services_log _ fun a ha => by cases a <;> first | rfl | cases ha

theorem opt_log : s.jobs.log.filterMap Action.optService = s.out.filterMap Action.optService :=
  services_log _ fun a ha => by cases a <;> first | rfl | cases ha

/-- **Jobs for contract details and option parameters survive lost
connections**, but for the first of a list. In every run without such a
loss a job whose packet a lost connection closed is put back by `repeat`,
and `checkout` hands it out again. Jobs are handed out in the order of the
work file: the one handed out is the first that is not finished, and those
finished come in this order too, each once. When the program quits all of
them are finished. `repeat` takes back any `checkout` but that of the
first job. -/
theorem jobs_served (h : Run SafeStep (start cfg async jobs) evs s) :
    (∀ t t' : ContractDetailsTodo, t.checkout = .ok t' → (t'.repeat = .ok t ↔ 0 ≤ t.curIndex)) ∧
    (∀ t t' : OptParamsTodo, t.checkout = .ok t' → (t'.repeat = .ok t ↔ 0 ≤ t.curIndex)) ∧
    (∀ p, s.packet = some (.contractDetails p) → p.error = .TWSCON →
      ∃ todo, s.workTodo.contractDetailsTodo.repeat = .ok todo ∧
        todo.checkout = .ok s.workTodo.contractDetailsTodo) ∧
    (∀ p, s.packet = some (.optParams p) → p.error = .TWSCON →
      ∃ todo, s.workTodo.optParamsTodo.repeat = .ok todo ∧
        todo.checkout = .ok s.workTodo.optParamsTodo) ∧
    InOrder (jobs.filterMap Job.contractJob) (s.out.filterMap Action.contractService) ∧
    InOrder (jobs.filterMap Job.optJob) (s.out.filterMap Action.optService) ∧
    (s.quit = true →
      finishedOf (s.out.filterMap Action.contractService) = jobs.filterMap Job.contractJob ∧
      finishedOf (s.out.filterMap Action.optService) = jobs.filterMap Job.optJob) := by
  obtain ⟨hcd, hop⟩ := readFile_todos
    { acc_status_todo := cfg.get_account, executions_todo := cfg.get_exec,
      orders_todo := cfg.get_order } jobs
  obtain ⟨hc, hcr⟩ := run_view contractKind hcd contract_lossSafe h
  obtain ⟨ho, hor⟩ := run_view optKind hop opt_lossSafe h
  rw [← contract_log, ← opt_log]
  refine ⟨fun _ _ hc => IndexTodo.repeat_of_checkout hc,
    fun _ _ hc => IndexTodo.repeat_of_checkout hc, fun p hp he => ?_, fun p hp he => ?_, ?_, ?_,
    fun hq => ?_⟩
  · have hown : (contractKind.view s.jobs).own = some (p.request, p.toPacketBase) := by
      have hp' : s.jobs.packet = some (.contractDetails p) := hp
      simp [Kind.view, View.of, hp', contractKind, Packet.contractRequest, Packet.base]
    exact hcr.again hc hown he
  · have hown : (optKind.view s.jobs).own = some (p.request, p.toPacketBase) := by
      have hp' : s.jobs.packet = some (.optParams p) := hp
      simp [Kind.view, View.of, hp', optKind, Packet.optRequest, Packet.base]
    exact hor.again ho hown he
  · obtain ⟨i, hs, -⟩ := hc.served
    exact hs.inOrder
  · obtain ⟨i, hs, -⟩ := ho.served
    exact hs.inOrder
  · obtain ⟨hp, hlc, hlo⟩ := run_quit (h.mono fun _ _ _ hs => hs.1) hq
    have hown : ∀ {α : Type} (k : Kind α), (k.view s.jobs).own = none :=
      fun k => by simp [Kind.view, View.of, hp]
    exact ⟨hc.all_finished (hown _) hlc, ho.all_finished (hown _) hlo⟩

/-- `SafeStep`, to be executed. -/
def safeNext (s : TwsDL) (e : Event) : Option TwsDL := if s.LossSafe e then s.next e else none

theorem safeStep_of_safeNext (h : s.safeNext e = some s') : s.SafeStep e s' := by
  unfold safeNext at h
  split at h
  · rename_i hs
    exact ⟨step_of_next h, hs⟩
  · cases h

/-- Two contracts; the connection is lost while the second is asked for. -/
def lostAtSecond : List Event :=
  connects 40000 1 ++ [.turn {}, .contractDetailsEnd 1, .turn {}, .connectionClosed, .turn {}] ++
    connects 80000 1 ++ [.turn {}, .contractDetailsEnd 3, .turn {}]

/-- It is asked for again, and both are finished. -/
theorem jobs_served_lost : ∃ s,
    Run SafeStep (start {} false [.contract_details { ibContract := { symbol := "A" } },
      .contract_details { ibContract := { symbol := "B" } }]) lostAtSecond s ∧ s.quit = true ∧
      s.currentRequest.reqId = 3 ∧
      finishedOf (s.out.filterMap Action.contractService) =
        [{ ibContract := { symbol := "A" } }, { ibContract := { symbol := "B" } }] := by
  have hout : (lostAtSecond.foldlM safeNext (start {} false
      [.contract_details { ibContract := { symbol := "A" } },
        .contract_details { ibContract := { symbol := "B" } }])).map
          (fun s => (s.quit, s.currentRequest.reqId)) = some (true, 3) := by
    decide +kernel
  obtain ⟨s, hs, hl⟩ := Option.map_eq_some_iff.1 hout
  obtain ⟨hq, hn⟩ := Prod.mk.inj hl
  have hrun := Run.of_foldlM (fun _ _ _ => safeStep_of_safeNext) hs
  obtain ⟨-, -, -, -, -, -, hfin⟩ := jobs_served hrun
  exact ⟨s, hrun, hq, hn, (hfin hq).1⟩

/-- The only job is asked for when the connection is lost. -/
def lostAtFirst : List Event := connects 40000 1 ++ [.turn {}, .connectionClosed]

/-- **It cannot be put back**: the next turn ends the program in `repeat`. -/
theorem first_job_aborts : ∃ s,
    Run Step (start {} false [.contract_details {}]) lostAtFirst s ∧
      s.handle (.turn {}) = .error (.assertion .contractDetailsRepeat) := by
  have hout : (lostAtFirst.foldlM next (start {} false [.contract_details {}])).map
      (fun s => Exec.fault (s.handle (.turn {}))) =
        some (some (.assertion .contractDetailsRepeat)) := by
    decide +kernel
  obtain ⟨s, hs, hl⟩ := Option.map_eq_some_iff.1 hout
  exact ⟨s, Run.of_foldlM (fun _ _ _ => step_of_next) hs, Exec.fault_eq_some.1 hl⟩

end TwsDL

end Twstools
