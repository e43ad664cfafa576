import Twstools.Pacing.Operations
import Twstools.Common.Partition
import Twstools.Common.Run
/-!
# The books balance

The god in use: the clock moves on, farms are learned, and in any order
requests are added, asked about and counted; a violation is notified for
the request added last, and that request may be removed once. After every
operation all controls but the global one hold together what the global
one holds, each farm's control the requests of the exchanges known to
belong to it and each lazy one those of an exchange of unknown farm. No
assertion fails.
-/

namespace Twstools

open Std

namespace PacingControl

variable {c : PacingControl} {now : ℤ}

/-- Nothing but an index below zero requests ends `goodTime`. -/
theorem goodTime_error (h : c.InStep) {e : Fault Assertion} (he : c.goodTime now = .error e) :
    e = .outOfRange := by
  unfold goodTime at he
  cases hb : c.dateTimes.getLast? with
  | none => simp [hb] at he
  | some back =>
      obtain ⟨v, hv⟩ := h.getLast?_violations hb
      simp only [hb, hv, deref, Exec.ok_bind] at he
      split at he
      · rcases Exec.bind_eq_error.1 he with h1 | ⟨_, -, h2⟩
        · unfold atIndex at h1
          split at h1
          · cases h1
          · exact (Except.error.inj h1).symm
        · cases h2
      · cases he

/-- `countLeft` always answers. -/
theorem countLeft_ok (now : ℤ) (h : c.InStep) : ∃ n, c.countLeft now = .ok n := by
  unfold countLeft
  cases hb : c.dateTimes.getLast? with
  | none => exact ⟨_, rfl⟩
  | some back =>
      obtain ⟨v, hv⟩ := h.getLast?_violations hb
      simp only [hv, deref, Exec.ok_bind, Exec.pure_eq_ok]
      split
      · exact ⟨0, rfl⟩
      · exact ⟨_, rfl⟩

end PacingControl

/-- The operations of `PacingGod`, but `clear`. -/
inductive PacingOp where
  | addRequest (c : Contract)
  | goodTime (c : Contract)
  | countLeft (c : Contract)
  | notifyViolation (c : Contract)
  | removeLastRequest (c : Contract)

/-- The contract an operation is for. -/
def PacingOp.contract : PacingOp → Contract
  | addRequest c | goodTime c | countLeft c | notifyViolation c | removeLastRequest c => c

/-- What happens to the god and around it. -/
inductive PacingEvent where
  | clock (now : ℤ)
  | learn (farms : DataFarmStates)
  | op (o : PacingOp)

/-- The request added last is marked as a violation. -/
def markViolated (log : List Request) : List Request :=
  match log.getLast? with
  | some r => log.dropLast ++ [{ r with violated := true }]
  | none => log

@[simp] theorem markViolated_concat (log : List Request) (r : Request) :
    markViolated (log ++ [r]) = log ++ [{ r with violated := true }] := by
  simp [markViolated]

/-- The god, the clock and the farms, the requests that were added and not
removed, and the contract of the last of them while it may be notified or
removed. -/
structure PacingWorld where
  now : ℤ
  farms : DataFarmStates
  god : PacingGod
  log : List Request := []
  last : Option Contract := none

/-! ## The balance -/

namespace PacingGod

variable {d : DataFarmStates} {log : List Request} {X : String} {g : PacingGod}

/-- The controls of all farms and lazy exchanges balance the global one,
each holding the requests that belong to it, in order. -/
structure Balanced (d : DataFarmStates) (log : List Request) (g : PacingGod) : Prop where
  together : ((g.controlHmds.toList ++ g.controlLazy.toList).flatMap (·.2.dateTimes)).Perm
    g.controlGlobal.dateTimes
  global : g.controlGlobal.dateTimes = log.map Request.time
  hmds : ∀ (F : String) (pC : PacingControl), g.controlHmds[F]? = some pC → F ≠ "" ∧
    pC.dateTimes = (log.filter fun r => d.getHmdsFarm r.exchange = F).map Request.time
  lazy : ∀ (X : String) (pC : PacingControl), g.controlLazy[X]? = some pC →
    d.getHmdsFarm X = "" ∧
      pC.dateTimes = (log.filter fun r => r.exchange = X).map Request.time
  ordered : g.controlGlobal.Ordered ∧
    (∀ (F : String) (pC : PacingControl), g.controlHmds[F]? = some pC → pC.Ordered) ∧
    ∀ (X : String) (pC : PacingControl), g.controlLazy[X]? = some pC → pC.Ordered

/-- Once settled, a farm's control holds all requests for its exchanges. -/
theorem Settled.ofFarm_eq (h : Settled d log X g) {F : String} (hF : F ≠ "") :
    ofFarm d g log F = log.filter fun r => d.getHmdsFarm r.exchange = F := by
  refine List.filter_congr fun r _ => decide_eq_decide.2 ?_
  refine and_iff_left_of_imp ?_
  rintro rfl hl
  exact hF (h.unknown _ hl)

/-- **Settled books balance.** Each request is in the control of its farm
or, the farm being unknown, of its exchange, and in no other. -/
theorem Settled.balanced (h : Settled d log X g) : Balanced d log g := by
  have hb := h.books
  have hh : ∀ (F : String) (pC : PacingControl), g.controlHmds[F]? = some pC → F ≠ "" ∧
      pC.dateTimes = (log.filter fun r => d.getHmdsFarm r.exchange = F).map Request.time := by
    intro F pC hpC
    obtain ⟨hF, hholds⟩ := hb.hmds F pC hpC
    exact ⟨hF, by rw [hholds.times, h.ofFarm_eq hF]⟩
  refine ⟨?_, hb.global.times, hh, fun X pC hpC => ?_, ?_, ?_, ?_⟩
  · let tests : List (Request → Bool) :=
      g.controlHmds.toList.map (fun e r => decide (d.getHmdsFarm r.exchange = e.1)) ++
        g.controlLazy.toList.map (fun e r => decide (r.exchange = e.1))
    have htests : (g.controlHmds.toList ++ g.controlLazy.toList).flatMap (·.2.dateTimes) =
        (tests.flatMap fun p => log.filter p).map Request.time := by
      rw [List.map_flatMap, List.flatMap_append, List.flatMap_append, List.flatMap_map,
        List.flatMap_map]
      congr 1
      · refine List.flatMap_congr fun e he => ?_
        exact (hh e.1 e.2 (TreeMap.mem_toList_iff_getElem?_eq_some.1 he)).2
      · refine List.flatMap_congr fun e he => ?_
        exact (hb.lazy e.1 e.2 (TreeMap.mem_toList_iff_getElem?_eq_some.1 he)).times
    rw [htests, hb.global.times]
    refine (flatMap_filter_perm tests log fun r hr => ?_).map _
    rw [List.countP_append, List.countP_map, List.countP_map]
    have h1 := countP_toList (m := g.controlHmds) (k := d.getHmdsFarm r.exchange)
    have h2 := countP_toList (m := g.controlLazy) (k := r.exchange)
    refine (congrArg₂ (· + ·) h1 h2).trans ?_
    rcases hb.home r hr with hl | hm
    · have hu := h.unknown _ hl
      rw [if_pos hl, if_neg (hu ▸ hb.empty_notMem)]
    · have hl : r.exchange ∉ g.controlLazy := fun hl =>
        hb.empty_notMem (h.unknown _ hl ▸ hm)
      rw [if_pos hm, if_neg hl]
  · exact ⟨h.unknown X (mem_of_getElem? hpC), (hb.lazy X pC hpC).times⟩
  · rw [PacingControl.Ordered, hb.global.times]
    exact hb.ordered
  · intro F pC hpC
    rw [PacingControl.Ordered, (hh F pC hpC).2]
    exact hb.ordered.sublist (List.filter_sublist.map _)
  · intro X pC hpC
    rw [PacingControl.Ordered, (hb.lazy X pC hpC).times]
    exact hb.ofExchange_ordered X

end PacingGod

namespace PacingWorld

/-- An operation, at the present time. -/
def exec (w : PacingWorld) : PacingOp → Exec Assertion PacingWorld
  | .addRequest c => do
      let god ← w.god.addRequest w.farms w.now c
      pure { w with
        god := god
        log := w.log ++ [{ exchange := c.exchange, time := w.now }]
        last := some c }
  | .goodTime c => do
      let (god, _) ← w.god.goodTime w.farms w.now c
      pure { w with god := god }
  | .countLeft c => do
      let (god, _) ← w.god.countLeft w.farms w.now c
      pure { w with god := god }
  | .notifyViolation c => do
      let god ← w.god.notifyViolation w.farms w.now c
      pure { w with god := god, log := markViolated w.log }
  | .removeLastRequest c => do
      let god ← w.god.removeLastRequest w.farms c
      pure { w with god := god, log := w.log.dropLast, last := none }

/-- A violation or a removal concerns the contract of the request added
last, and nothing after a removal. -/
def Permitted (w : PacingWorld) : PacingOp → Prop
  | .addRequest _ | .goodTime _ | .countLeft _ => True
  | .notifyViolation c | .removeLastRequest c => w.last = some c

/-- One event. -/
inductive Step : PacingWorld → PacingEvent → PacingWorld → Prop
  /-- Time does not run backwards. -/
  | clock {w : PacingWorld} {now : ℤ} : w.now ≤ now → Step w (.clock now) { w with now := now }
  /-- Farms that are known stay. -/
  | learn {w : PacingWorld} {farms : DataFarmStates} : w.farms.KeepsFarms farms →
      Step w (.learn farms) { w with farms := farms }
  | op {w w' : PacingWorld} {o : PacingOp} : w.Permitted o → w.exec o = .ok w' → Step w (.op o) w'

/-- A world without requests. -/
def start (now : ℤ) (farms : DataFarmStates) (maxRequests checkInterval minPacingTime
    violationPause : ℤ) : PacingWorld where
  now := now
  farms := farms
  god := .new maxRequests checkInterval minPacingTime violationPause

/-! ## The invariant -/

variable {w w' : PacingWorld} {o : PacingOp} {evs : List PacingEvent}
variable {now₀ r i m v : ℤ} {d₀ : DataFarmStates}

/-- The books are kept, the log lies in the past, and the request that may
be removed is the last of it. -/
structure Kept (w : PacingWorld) : Prop where
  books : PacingGod.Books w.farms w.log w.god
  past : ∀ r ∈ w.log, r.time ≤ w.now
  last : ∀ c, w.last = some c → ∃ log r, w.log = log ++ [r] ∧ r.exchange = c.exchange

/-- **An operation keeps the books and settles them**, if it does not end
in an index below zero requests. -/
theorem Kept.exec (h : w.Kept) (ho : w.Permitted o) :
    w.exec o = .error .outOfRange ∨
      ∃ w', w.exec o = .ok w' ∧ w'.Kept ∧
        PacingGod.Settled w'.farms w'.log o.contract.exchange w'.god := by
  obtain ⟨hb, hpast, hlast⟩ := h
  cases o with
  | addRequest c =>
      obtain ⟨g₁, g', hok, -, hs, hu⟩ := PacingGod.update_ok
        .addRequestLazy .addRequestFarm (·.addRequest w.now) hb c
      have hs' := hs.updated hu (PacingGod.acts_addRequest hb.ordered hpast)
      refine .inr ⟨_, by simp only [PacingWorld.exec, PacingGod.addRequest, hok]; rfl,
        ⟨hs'.books, ?_, ?_⟩, hs'⟩
      · intro r hr
        rcases List.mem_append.1 hr with hr | hr
        · exact hpast r hr
        · rw [List.mem_singleton.1 hr]
      · rintro c' hc'
        obtain rfl := Option.some.inj hc'
        exact ⟨_, _, rfl, rfl⟩
  | goodTime c =>
      obtain ⟨g₁, pC, -, -, hs, hcon, heq⟩ := PacingGod.consult_eq
        .goodTimeGlobal .goodTimeFarm (·.goodTime w.now) hb c
      cases hq : pC.goodTime w.now with
      | error e =>
          -- the controls are in step, so nothing else can fail
          have hstep : pC.InStep := hs.consulted_inStep hcon
          obtain rfl := PacingControl.goodTime_error hstep hq
          exact .inl (by simp only [PacingWorld.exec, PacingGod.goodTime, heq, hq]; rfl)
      | ok t =>
          exact .inr ⟨{ w with god := g₁ },
            by simp only [PacingWorld.exec, PacingGod.goodTime, heq, hq]; rfl,
            ⟨hs.books, hpast, hlast⟩, hs⟩
  | countLeft c =>
      obtain ⟨g₁, pC, -, -, hs, hcon, heq⟩ := PacingGod.consult_eq
        .countLeftGlobal .countLeftFarm (·.countLeft w.now) hb c
      obtain ⟨t, hq⟩ := PacingControl.countLeft_ok w.now (hs.consulted_inStep hcon)
      exact .inr ⟨{ w with god := g₁ },
        by simp only [PacingWorld.exec, PacingGod.countLeft, heq, hq]; rfl,
        ⟨hs.books, hpast, hlast⟩, hs⟩
  | notifyViolation c =>
      obtain ⟨g₁, g', hok, -, hs, hu⟩ := PacingGod.update_ok
        .notifyViolationLazy .notifyViolationFarm (·.notifyViolation w.now) hb c
      obtain ⟨log, r, hlog, hr⟩ := hlast c ho
      -- the request made last is the last one of the log
      have hs' := hs.updated hu (hlog ▸ PacingGod.acts_notifyViolation hr (hlog ▸ hb.ordered))
      refine .inr ⟨_, by simp only [PacingWorld.exec, PacingGod.notifyViolation, hok]; rfl,
        ⟨?_, ?_, ?_⟩, ?_⟩ <;> simp only [hlog, markViolated_concat]
      · exact hs'.books
      · intro s hs
        rcases List.mem_append.1 hs with hs | hs
        · exact hpast s (by simp [hlog, hs])
        · rw [List.mem_singleton.1 hs]
          exact hpast r (by simp [hlog])
      · rintro c' hc'
        obtain rfl := Option.some.inj (ho.symm.trans hc')
        exact ⟨_, _, rfl, hr⟩
      · exact hs'
  | removeLastRequest c =>
      obtain ⟨g₁, g', hok, -, hs, hu⟩ := PacingGod.update_ok
        .removeLastRequestLazy .removeLastRequestFarm (·.removeLastRequest) hb c
      obtain ⟨log, r, hlog, hr⟩ := hlast c ho
      have hs' := hs.updated hu (hlog ▸ PacingGod.acts_removeLastRequest hr (hlog ▸ hb.ordered))
      refine .inr ⟨_, by simp only [PacingWorld.exec, PacingGod.removeLastRequest, hok]; rfl,
        ⟨?_, ?_, ?_⟩, ?_⟩ <;> simp only [hlog, List.dropLast_concat]
      · exact hs'.books
      · exact fun s hs => hpast s (by simp [hlog, hs])
      · simp
      · exact hs'

/-- Every event keeps the books. -/
theorem Kept.step {e : PacingEvent} (h : w.Kept) (hs : Step w e w') : w'.Kept := by
  cases hs with
  | clock hnow => exact ⟨h.books, fun r hr => (h.past r hr).trans hnow, h.last⟩
  | learn hk => exact ⟨h.books.learn hk, h.past, h.last⟩
  | op hp hex =>
      rcases h.exec hp with he | ⟨w₁, hok, hk, -⟩
      · simp [he] at hex
      · obtain rfl : w₁ = w' := by simpa [hok] using hex
        exact hk

/-- **The books are kept in every run.** -/
theorem kept_run (h : Run Step (start now₀ d₀ r i m v) evs w) : w.Kept :=
  h.invariant ⟨PacingGod.books_new _ _ _ _ _, by simp [start], by simp [start]⟩
    fun _ _ _ hk hs => hk.step hs

/-- **The books balance.** After every operation of a run the controls
balance, and no permitted operation fails an assertion. -/
theorem books_balance (h : Run Step (start now₀ d₀ r i m v) evs w) :
    (∀ es o, evs = es ++ [.op o] → PacingGod.Balanced w.farms w.log w.god) ∧
      ∀ o, w.Permitted o → ∀ site, w.exec o ≠ .error (.assertion site) := by
  constructor
  · rintro es o rfl
    obtain ⟨w₀, hrun, hstep⟩ := h.of_snoc
    cases hstep with
    | op hp hex =>
        rcases (kept_run hrun).exec hp with he | ⟨w₁, hok, -, hs⟩
        · simp [he] at hex
        · obtain rfl : w₁ = w := by simpa [hok] using hex
          exact hs.balanced
  · intro o hp site he
    rcases (kept_run h).exec hp with he' | ⟨w₁, hok, -⟩
    · simp [he'] at he
    · simp [hok] at he

instance (w : PacingWorld) : (o : PacingOp) → Decidable (w.Permitted o)
  | .addRequest _ | .goodTime _ | .countLeft _ => inferInstanceAs (Decidable True)
  | .notifyViolation c | .removeLastRequest c => inferInstanceAs (Decidable (w.last = some c))

/-- `Step`, to be executed. -/
def next (w : PacingWorld) : PacingEvent → Option PacingWorld
  | .clock now => if w.now ≤ now then some { w with now := now } else none
  | .learn farms => if w.farms.KeepsFarms farms then some { w with farms := farms } else none
  | .op o => if w.Permitted o then (w.exec o).toOption else none

theorem step_of_next {e : PacingEvent} (h : w.next e = some w') : Step w e w' := by
  cases e with
  | clock now =>
      obtain ⟨hnow, rfl⟩ : w.now ≤ now ∧ _ = w' := by simpa [next] using h
      exact .clock hnow
  | learn farms =>
      obtain ⟨hk, rfl⟩ : w.farms.KeepsFarms farms ∧ _ = w' := by simpa [next] using h
      exact .learn hk
  | op o =>
      simp only [next] at h
      split at h
      · rename_i hp
        cases hex : w.exec o with
        | error e => simp [hex, Except.toOption] at h
        | ok w₁ =>
            obtain rfl : w₁ = w' := by simpa [hex, Except.toOption] using h
            exact .op hp hex
      · cases h

/-- A request for an exchange of unknown farm; then the farm is learned,
so that the lazy control becomes the farm's when the violation is
notified. -/
theorem books_balance_moved : ∃ w,
    Run Step (start 0 {} 60 605000 1000 60000)
      [.op (.addRequest { exchange := "IBIS" }),
        .learn { hLearn := TreeMap.ofList [("IBIS", "euhmds")] },
        .op (.notifyViolation { exchange := "IBIS" })] w ∧
      PacingGod.Balanced w.farms w.log w.god ∧ w.god.controlHmds.keys = ["euhmds"] := by
  have hkeys : ([PacingEvent.op (.addRequest { exchange := "IBIS" }),
      .learn { hLearn := TreeMap.ofList [("IBIS", "euhmds")] },
      .op (.notifyViolation { exchange := "IBIS" })].foldlM next
        (start 0 {} 60 605000 1000 60000)).map (·.god.controlHmds.keys) = some ["euhmds"] := by
    decide +kernel
  obtain ⟨w, hw, hk⟩ := Option.map_eq_some_iff.1 hkeys
  have hrun := Run.of_foldlM (fun _ _ _ => step_of_next) hw
  exact ⟨w, hrun, (books_balance hrun).1 [_, _] _ rfl, hk⟩

end PacingWorld

end Twstools
