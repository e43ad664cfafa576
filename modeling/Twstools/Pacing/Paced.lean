import Twstools.Pacing.Balance
import Twstools.Twsdo.GenericRequest
/-!
# Requests at the pace of `goodTime`

The historical requests of the program: one goes out only when `goodTime`
of its contract is not positive, it takes the next request number, and it
is recorded by `addRequest`. In between the clock moves on, farms are
learned, other contracts are asked about, and a violation may be notified
for the request made last. Every exchange has one true farm, and only true
farms are learned. `issue_cases` says what an attempt to send can do.
-/

namespace Twstools

open Std

/-- Only true farms are known. -/
def DataFarmStates.Correct (truth : String → String) (d : DataFarmStates) : Prop :=
  ∀ X, d.getHmdsFarm X ≠ "" → d.getHmdsFarm X = truth X

instance (truth : String → String) (d : DataFarmStates) : Decidable (d.Correct truth) :=
  decidable_of_iff (∀ e ∈ d.hLearn.toList, e.2 ≠ "" → e.2 = truth e.1) <| by
    constructor
    · intro h X hne
      unfold DataFarmStates.getHmdsFarm at hne ⊢
      cases hg : d.hLearn[X]? with
      | none => simp [hg] at hne
      | some farm =>
          have he := h (X, farm) (TreeMap.mem_toList_iff_getElem?_eq_some.2 hg)
          exact he (by simpa [hg] using hne)
    · rintro h ⟨X, farm⟩ he hne
      have hg : d.getHmdsFarm X = farm := by
        rw [DataFarmStates.getHmdsFarm, TreeMap.mem_toList_iff_getElem?_eq_some.1 he]
        rfl
      rw [← hg]
      exact h X (by rwa [hg])

/-- The world of the god, and the request that is current. -/
structure PacedWorld extends PacingWorld where
  currentRequest : GenericRequest := {}

/-- What happens to it: an event of the god's world, or the attempt to
send a request, recorded at `later`. -/
inductive PacedEvent where
  | other (e : PacingEvent)
  | request (c : Contract) (later : ℤ)

/-- The events of the god's world that may happen: no request is added or
removed other than by sending it, and only true farms are learned. -/
def PacingEvent.Paced (truth : String → String) : PacingEvent → Prop
  | .clock _ => True
  | .learn farms => farms.Correct truth
  | .op (.goodTime _) | .op (.countLeft _) | .op (.notifyViolation _) => True
  | .op (.addRequest _) | .op (.removeLastRequest _) => False

instance (truth : String → String) : (e : PacingEvent) → Decidable (e.Paced truth)
  | .clock _ => inferInstanceAs (Decidable True)
  | .learn farms => inferInstanceAs (Decidable (farms.Correct truth))
  | .op (.goodTime _) | .op (.countLeft _) | .op (.notifyViolation _) =>
      inferInstanceAs (Decidable True)
  | .op (.addRequest _) | .op (.removeLastRequest _) => inferInstanceAs (Decidable False)

namespace PacedWorld

/-- The pacing side of `reqHistoricalData`: nothing more happens while
there is time to wait; else the request is numbered and recorded, at a
time that may be a little later. -/
def issue (w : PacedWorld) (c : Contract) (later : ℤ) : Exec Assertion PacedWorld := do
  let (god, wait) ← w.god.goodTime w.farms w.now c
  if wait ≤ 0 then
    let currentRequest ← w.currentRequest.nextRequest .HIST_REQUEST later
    let god ← god.addRequest w.farms later c
    pure { w with
      now := later
      god := god
      log := w.log ++ [{ exchange := c.exchange, time := later }]
      last := some c
      currentRequest := currentRequest }
  else pure { w with god := god }

/-- The time differences that `goodTime` of this contract computes fit. -/
def TimesFit (w : PacedWorld) (c : Contract) : Prop :=
  match w.god.checkAdd w.farms c with
  | .ok (god, _, farm) => ∀ pC ∈ god.consulted farm, pC.TimesFit w.now
  | .error _ => True

instance (w : PacedWorld) (c : Contract) : Decidable (w.TimesFit c) :=
  match h : w.god.checkAdd w.farms c with
  | .ok (god, _, farm) =>
      decidable_of_iff (∀ pC ∈ god.consulted farm, pC.TimesFit w.now) (by rw [TimesFit, h])
  | .error _ => .isTrue (by rw [TimesFit, h]; trivial)

/-- One event. -/
inductive Step (truth : String → String) : PacedWorld → PacedEvent → PacedWorld → Prop
  | other {w : PacedWorld} {e : PacingEvent} {w' : PacingWorld} : e.Paced truth →
      PacingWorld.Step w.toPacingWorld e w' →
      Step truth w (.other e) { w with toPacingWorld := w' }
  | request {w w' : PacedWorld} {c : Contract} {later : ℤ} : w.TimesFit c → w.now ≤ later →
      w.issue c later = .ok w' → Step truth w (.request c later) w'

/-- `Step`, to be executed. -/
def next (truth : String → String) (w : PacedWorld) : PacedEvent → Option PacedWorld
  | .other e =>
      if e.Paced truth then (w.toPacingWorld.next e).map fun w' => { w with toPacingWorld := w' }
      else none
  | .request c later =>
      if w.TimesFit c ∧ w.now ≤ later then (w.issue c later).toOption else none

theorem step_of_next {truth : String → String} {w w' : PacedWorld} {e : PacedEvent}
    (h : w.next truth e = some w') : Step truth w e w' := by
  cases e with
  | other e =>
      simp only [next] at h
      split at h
      · rename_i he
        obtain ⟨w₁, hw₁, rfl⟩ := Option.map_eq_some_iff.1 h
        exact .other he (PacingWorld.step_of_next hw₁)
      · cases h
  | request c later =>
      simp only [next] at h
      split at h
      · rename_i hp
        cases hok : w.issue c later with
        | error e => simp [hok, Except.toOption] at h
        | ok w₁ =>
            obtain rfl : w₁ = w' := by simpa [hok, Except.toOption] using h
            exact .request hp.1 hp.2 hok
      · cases h

/-- A world without requests. -/
def start (now : ℤ) (farms : DataFarmStates) (maxRequests checkInterval minPacingTime
    violationPause : ℤ) : PacedWorld where
  toPacingWorld := .start now farms maxRequests checkInterval minPacingTime violationPause

/-! ## What the events do -/

variable {w w' : PacedWorld} {c : Contract} {later : ℤ} {truth : String → String}

/-- What sending does when it is let: the filed god `g₁` has answered, the
request has its number and is recorded in `g'`. -/
structure Issued (w : PacedWorld) (c : Contract) (later : ℤ) (g₁ : PacingGod) (w' : PacedWorld) :
    Prop where
  number : w.currentRequest.reqId < INT_MAX
  update : ∃ g₂ g', PacingGod.Filed w.farms w.log g₁ g₂ ∧
    PacingGod.Settled w.farms w.log c.exchange g₂ ∧
    PacingGod.UpdatedBy (·.addRequest later) w.farms c.exchange g₂ g' ∧
    w' = { w with
      now := later
      god := g'
      log := w.log ++ [{ exchange := c.exchange, time := later }]
      last := some c
      currentRequest :=
        { reqType := .HIST_REQUEST, reqId := w.currentRequest.reqId + 1, ctime := later } }

/-- **An attempt to send asks one control, and sends or waits.** -/
theorem issue_cases (hk : w.toPacingWorld.Kept) (h : w.issue c later = .ok w') :
    ∃ g₁ pC wait,
      w.god.checkAdd w.farms c = .ok (g₁, c.exchange, w.farms.getHmdsFarm c.exchange) ∧
      PacingGod.Filed w.farms w.log w.god g₁ ∧
      PacingGod.Settled w.farms w.log c.exchange g₁ ∧
      g₁.consulted (w.farms.getHmdsFarm c.exchange) = some pC ∧
      pC.goodTime w.now = .ok wait ∧
      (wait ≤ 0 ∧ Issued w c later g₁ w' ∨
        0 < wait ∧ w' = { w with toPacingWorld := { w.toPacingWorld with god := g₁ } }) := by
  obtain ⟨g₁, pC, hadd, hfil, hs, hcon, heq⟩ := PacingGod.consult_eq
    .goodTimeGlobal .goodTimeFarm (·.goodTime w.now) hk.books c
  cases hq : pC.goodTime w.now with
  | error e => simp [issue, PacingGod.goodTime, heq, hq, bind, Except.bind] at h
  | ok wait =>
      refine ⟨g₁, pC, wait, hadd, hfil, hs, hcon, hq, ?_⟩
      simp only [issue, PacingGod.goodTime, heq, hq, Exec.ok_bind, Exec.pure_eq_ok] at h
      split at h
      · rename_i hw
        obtain ⟨q, hn, h⟩ := Exec.bind_eq_ok.1 h
        obtain ⟨hnum, rfl⟩ := GenericRequest.nextRequest_eq_ok.1 hn
        obtain ⟨g₂, g', hok, hfil', hs', hu⟩ := PacingGod.update_ok
          .addRequestLazy .addRequestFarm (·.addRequest later) hs.books c
        rw [PacingGod.addRequest, hok, Exec.ok_bind] at h
        exact .inl ⟨hw, hnum, g₂, g', hfil', hs', hu, (Except.ok.inj h).symm⟩
      · rename_i hw
        exact .inr ⟨by omega, (Except.ok.inj h).symm⟩

/-- The god after a request that went out. -/
theorem Issued.settled (hk : w.toPacingWorld.Kept) (hl : w.now ≤ later) {g₁ : PacingGod}
    (h : Issued w c later g₁ w') : PacingGod.Settled w'.farms w'.log c.exchange w'.god := by
  obtain ⟨-, g₂, g', -, hs, hu, rfl⟩ := h
  exact hs.updated hu (PacingGod.acts_addRequest hk.books.ordered
    fun r hr => (hk.past r hr).trans hl)

/-- What the other events do: the god is filed and asked, or filed and
marked. -/
inductive OtherBy (truth : String → String) (w : PacingWorld) : PacingEvent → PacingWorld → Prop
  | clock {now : ℤ} : w.now ≤ now → OtherBy truth w (.clock now) { w with now := now }
  | learn {farms : DataFarmStates} : w.farms.KeepsFarms farms → farms.Correct truth →
      OtherBy truth w (.learn farms) { w with farms := farms }
  | ask {g₁ : PacingGod} {X : String} {o : PacingOp} : PacingGod.Filed w.farms w.log w.god g₁ →
      PacingGod.Settled w.farms w.log X g₁ → OtherBy truth w (.op o) { w with god := g₁ }
  | notify {g₁ g' : PacingGod} {c : Contract} : w.last = some c →
      PacingGod.Filed w.farms w.log w.god g₁ → PacingGod.Settled w.farms w.log c.exchange g₁ →
      PacingGod.UpdatedBy (·.notifyViolation w.now) w.farms c.exchange g₁ g' →
      OtherBy truth w (.op (.notifyViolation c)) { w with god := g', log := markViolated w.log }

/-- **The events that send nothing do one of these.** -/
theorem otherBy_of_step {w w' : PacingWorld} {e : PacingEvent} (hk : w.Kept) (he : e.Paced truth)
    (h : PacingWorld.Step w e w') : OtherBy truth w e w' := by
  cases h with
  | clock hnow => exact .clock hnow
  | learn hkeep => exact .learn hkeep he
  | @op _ o hp hex =>
      cases o with
      | addRequest | removeLastRequest => exact absurd he id
      | goodTime c =>
          obtain ⟨g₁, pC, -, hfil, hs, -, heq⟩ := PacingGod.consult_eq
            .goodTimeGlobal .goodTimeFarm (·.goodTime w.now) hk.books c
          cases hq : pC.goodTime w.now with
          | error e =>
              simp [PacingWorld.exec, PacingGod.goodTime, heq, hq, bind, Except.bind] at hex
          | ok t =>
              simp only [PacingWorld.exec, PacingGod.goodTime, heq, hq] at hex
              exact Except.ok.inj hex ▸ .ask hfil hs
      | countLeft c =>
          obtain ⟨g₁, pC, -, hfil, hs, hcon, heq⟩ := PacingGod.consult_eq
            .countLeftGlobal .countLeftFarm (·.countLeft w.now) hk.books c
          obtain ⟨t, hq⟩ := PacingControl.countLeft_ok w.now (hs.consulted_inStep hcon)
          simp only [PacingWorld.exec, PacingGod.countLeft, heq, hq] at hex
          exact Except.ok.inj hex ▸ .ask hfil hs
      | notifyViolation c =>
          obtain ⟨g₁, g', hok, hfil, hs, hu⟩ := PacingGod.update_ok
            .notifyViolationLazy .notifyViolationFarm (·.notifyViolation w.now) hk.books c
          simp only [PacingWorld.exec, PacingGod.notifyViolation, hok] at hex
          exact Except.ok.inj hex ▸ .notify hp hfil hs hu

/-- An attempt to send keeps the books. -/
theorem kept_issue (hk : w.toPacingWorld.Kept) (hl : w.now ≤ later)
    (h : w.issue c later = .ok w') : w'.toPacingWorld.Kept := by
  obtain ⟨g₁, pC, wait, -, -, hset, -, -, ⟨-, hi⟩ | ⟨-, rfl⟩⟩ := issue_cases hk h
  · have hset' := hi.settled hk hl
    obtain ⟨-, g₂, g', -, -, -, rfl⟩ := hi
    refine ⟨hset'.books, fun r hr => ?_, ?_⟩
    · rcases List.mem_append.1 hr with hr | hr
      · exact (hk.past r hr).trans hl
      · rw [List.mem_singleton.1 hr]
    · rintro c' hc'
      obtain rfl := Option.some.inj hc'
      exact ⟨_, _, rfl, rfl⟩
  · exact ⟨hset.books, hk.past, hk.last⟩

/-- **Every event keeps the books.** -/
theorem kept_step {e : PacedEvent} (hk : w.toPacingWorld.Kept) (hs : Step truth w e w') :
    w'.toPacingWorld.Kept := by
  cases hs with
  | other _ hstep => exact hk.step hstep
  | request _ hl hok => exact kept_issue hk hl hok

end PacedWorld

end Twstools
