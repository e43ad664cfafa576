import Twstools.Pacing.Control
import Twstools.Pacing.Farms
import Twstools.Common.Maps
/-!
# The pacing controls of all farms

TWS limits the historical requests to each farm, but which farm a request
goes to may be unknown. `PacingGod` keeps one control for every known farm
(`controlHmds`), one for every exchange whose farm is unknown yet
(`controlLazy`), and one for all requests (`controlGlobal`). Every
operation begins with `checkAdd`, which files each lazy control under its
farm as soon as the farm is known; `FiledBy` lists what it does for one
exchange. A request may go when the farm's control says so, or the global
one while some request is not filed.
-/

namespace Twstools

open Std

/-- `PacingGod`. The farm states it refers to are an argument of each
operation. -/
structure PacingGod where
  maxRequests : ℤ
  checkInterval : ℤ
  minPacingTime : ℤ
  violationPause : ℤ
  controlGlobal : PacingControl
  controlHmds : TreeMap String PacingControl := ∅
  controlLazy : TreeMap String PacingControl := ∅

namespace PacingGod

/-- `new PacingControl(maxRequests, …)`. -/
def newControl (g : PacingGod) : PacingControl where
  maxRequests := g.maxRequests
  checkInterval := g.checkInterval
  minPacingTime := g.minPacingTime
  violationPause := g.violationPause

/-- A god with the given parameters and no history. -/
def new (maxRequests checkInterval minPacingTime violationPause : ℤ) : PacingGod where
  maxRequests := maxRequests
  checkInterval := checkInterval
  minPacingTime := minPacingTime
  violationPause := violationPause
  controlGlobal := { maxRequests, checkInterval, minPacingTime, violationPause }

/-- `PacingGod::PacingGod`. -/
def init : PacingGod := new 60 601000 1500 60000

/-- `setPacingTime`. -/
def setPacingTime (g : PacingGod) (r i m : ℤ) : PacingGod :=
  { g with
    maxRequests := r
    checkInterval := i
    minPacingTime := m
    controlGlobal := g.controlGlobal.setPacingTime r i m
    controlHmds := g.controlHmds.map fun _ pC => pC.setPacingTime r i m
    controlLazy := g.controlLazy.map fun _ pC => pC.setPacingTime r i m }

/-- `setViolationPause`. -/
def setViolationPause (g : PacingGod) (vP : ℤ) : PacingGod :=
  { g with
    violationPause := vP
    controlGlobal := g.controlGlobal.setViolationPause vP
    controlHmds := g.controlHmds.map fun _ pC => pC.setViolationPause vP
    controlLazy := g.controlLazy.map fun _ pC => pC.setViolationPause vP }

/-- `clear`: all controls while no farm is active, else the inactive
farms' only. -/
def clear (g : PacingGod) (d : DataFarmStates) (now : ℤ) : PacingGod :=
  if d.getActives.isEmpty then
    { g with
      controlGlobal := g.controlGlobal.clear now
      controlHmds := g.controlHmds.map fun _ pC => pC.clear now
      controlLazy := g.controlLazy.map fun _ pC => pC.clear now }
  else
    { g with
      controlHmds := d.getInactives.foldl
        (fun m farm => match m[farm]? with
          | some pC => m.insert farm (pC.clear now)
          | none => m)
        g.controlHmds }

/-- `laziesAreCleared`. -/
def laziesAreCleared (g : PacingGod) : Bool := g.controlLazy.toList.all fun e => e.2.isEmpty

/-- The loop body of `checkAdd`, for one lazy contract. -/
def checkAddOne (d : DataFarmStates) (g : PacingGod) (lazyC : String) :
    Exec Assertion PacingGod := do
  let farm := d.getHmdsFarm lazyC
  if farm ≠ "" then
    let g ←
      match g.controlHmds[farm]?, g.controlLazy[lazyC]? with
      | none, some pC =>
          -- move pacing control lazy to farm
          pure { g with
            controlLazy := g.controlLazy.erase lazyC
            controlHmds := g.controlHmds.insert farm pC }
      | none, none =>
          pure { g with controlHmds := g.controlHmds.insert farm g.newControl }
      | some _, none => pure g
      | some hC, some pC => do
          -- merge pacing control lazy into farm
          let hC ← hC.merge pC
          pure { g with
            controlLazy := g.controlLazy.erase lazyC
            controlHmds := g.controlHmds.insert farm hC }
    ensure (farm ∈ g.controlHmds) .checkAddFarmHmds
    ensure (lazyC ∉ g.controlLazy) .checkAddFarmLazy
    pure g
  else if lazyC ∉ g.controlLazy then
    let g := { g with controlLazy := g.controlLazy.insert lazyC g.newControl }
    ensure (farm ∉ g.controlHmds) .checkAddLazyHmds
    ensure (lazyC ∈ g.controlLazy) .checkAddLazyLazy
    pure g
  else pure g

/-- The lazy contracts `checkAdd` goes through: those it has a control
for, and the one it is called for. -/
def lazies (g : PacingGod) (lazyC : String) : List String :=
  g.controlLazy.keys ++ (if lazyC ∈ g.controlLazy then [] else [lazyC])

/-- `checkAdd`. It also returns the lazy contract and the farm of `c`. -/
def checkAdd (g : PacingGod) (d : DataFarmStates) (c : Contract) :
    Exec Assertion (PacingGod × String × String) := do
  let lazyC := DataFarmStates.lazyContractStr c
  let farm := d.getHmdsFarmOf c
  let g ← (g.lazies lazyC).foldlM (checkAddOne d) g
  pure (g, lazyC, farm)

/-- The common body of `addRequest`, `remove_last_request` and
`notifyViolation`: `f` on the global control, and on the control of the
contract's exchange or farm. -/
def update (lazySite farmSite : Assertion) (f : PacingControl → PacingControl) (g : PacingGod)
    (d : DataFarmStates) (c : Contract) : Exec Assertion PacingGod := do
  let (g, lazyC, farm) ← g.checkAdd d c
  let g := { g with controlGlobal := f g.controlGlobal }
  if farm = "" then
    ensure (lazyC ∈ g.controlLazy ∧ farm ∉ g.controlHmds) lazySite
    let pC ← deref g.controlLazy[lazyC]?
    pure { g with controlLazy := g.controlLazy.insert lazyC (f pC) }
  else
    ensure (farm ∈ g.controlHmds ∧ lazyC ∉ g.controlLazy) farmSite
    let pC ← deref g.controlHmds[farm]?
    pure { g with controlHmds := g.controlHmds.insert farm (f pC) }

/-- `addRequest`. -/
def addRequest (g : PacingGod) (d : DataFarmStates) (now : ℤ) (c : Contract) :
    Exec Assertion PacingGod :=
  g.update .addRequestLazy .addRequestFarm (·.addRequest now) d c

/-- `remove_last_request`. -/
def removeLastRequest (g : PacingGod) (d : DataFarmStates) (c : Contract) :
    Exec Assertion PacingGod :=
  g.update .removeLastRequestLazy .removeLastRequestFarm (·.removeLastRequest) d c

/-- `notifyViolation`. -/
def notifyViolation (g : PacingGod) (d : DataFarmStates) (now : ℤ) (c : Contract) :
    Exec Assertion PacingGod :=
  g.update .notifyViolationLazy .notifyViolationFarm (·.notifyViolation now) d c

/-- The common body of `goodTime` and `countLeft`: ask the control of the
contract's farm, or the global one if any contract's farm is ambiguous. -/
def consult (globalSite farmSite : Assertion) (f : PacingControl → Exec Assertion ℤ)
    (g : PacingGod) (d : DataFarmStates) (c : Contract) : Exec Assertion (PacingGod × ℤ) := do
  let (g, lazyC, farm) ← g.checkAdd d c
  let laziesCleared := g.laziesAreCleared
  if farm = "" ∨ laziesCleared = false then
    ensure ((lazyC ∈ g.controlLazy ∧ farm ∉ g.controlHmds) ∨ laziesCleared = false) globalSite
    let t ← f g.controlGlobal
    pure (g, t)
  else
    ensure ((farm ∈ g.controlHmds ∧ g.controlLazy.isEmpty) ∨ laziesCleared = true) farmSite
    let pC ← deref g.controlHmds[farm]?
    let t ← f pC
    pure (g, t)

/-- `goodTime`. -/
def goodTime (g : PacingGod) (d : DataFarmStates) (now : ℤ) (c : Contract) :
    Exec Assertion (PacingGod × ℤ) :=
  g.consult .goodTimeGlobal .goodTimeFarm (·.goodTime now) d c

/-- `countLeft`. -/
def countLeft (g : PacingGod) (d : DataFarmStates) (now : ℤ) (c : Contract) :
    Exec Assertion (PacingGod × ℤ) :=
  g.consult .countLeftGlobal .countLeftFarm (·.countLeft now) d c

/-! ## Filing one exchange -/

variable {g g' : PacingGod} {d : DataFarmStates} {lazyC : String}

/-- What `checkAddOne` can do to the two maps. -/
inductive FiledBy (d : DataFarmStates) (lazyC : String) (g : PacingGod) : PacingGod → Prop
  /-- The farm is known and has no control: the lazy one becomes it. -/
  | move {pC : PacingControl} : d.getHmdsFarm lazyC ≠ "" →
      g.controlHmds[d.getHmdsFarm lazyC]? = none → g.controlLazy[lazyC]? = some pC →
      FiledBy d lazyC g { g with
        controlLazy := g.controlLazy.erase lazyC
        controlHmds := g.controlHmds.insert (d.getHmdsFarm lazyC) pC }
  /-- There was none at all. -/
  | create : d.getHmdsFarm lazyC ≠ "" →
      g.controlHmds[d.getHmdsFarm lazyC]? = none → g.controlLazy[lazyC]? = none →
      FiledBy d lazyC g { g with
        controlHmds := g.controlHmds.insert (d.getHmdsFarm lazyC) g.newControl }
  /-- The farm's control is there and nothing is to be filed. -/
  | known : d.getHmdsFarm lazyC ≠ "" → d.getHmdsFarm lazyC ∈ g.controlHmds →
      lazyC ∉ g.controlLazy → FiledBy d lazyC g g
  /-- The lazy control goes into the farm's. -/
  | merge {hC pC hC' : PacingControl} : d.getHmdsFarm lazyC ≠ "" →
      g.controlHmds[d.getHmdsFarm lazyC]? = some hC → g.controlLazy[lazyC]? = some pC →
      hC.merge pC = .ok hC' →
      FiledBy d lazyC g { g with
        controlLazy := g.controlLazy.erase lazyC
        controlHmds := g.controlHmds.insert (d.getHmdsFarm lazyC) hC' }
  /-- The farm is unknown and the exchange is new. -/
  | createLazy : d.getHmdsFarm lazyC = "" → lazyC ∉ g.controlLazy →
      FiledBy d lazyC g { g with controlLazy := g.controlLazy.insert lazyC g.newControl }
  /-- The farm is unknown and the exchange has its control. -/
  | stay : d.getHmdsFarm lazyC = "" → lazyC ∈ g.controlLazy → FiledBy d lazyC g g

/-- **`checkAddOne` does one of these and fails nowhere**, the histories
being in step and no control being filed under the empty farm. -/
theorem checkAddOne_ok (d : DataFarmStates) (lazyC : String) (he : "" ∉ g.controlHmds)
    (hh : ∀ (F : String) (c : PacingControl), g.controlHmds[F]? = some c → c.InStep)
    (hl : ∀ (X : String) (c : PacingControl), g.controlLazy[X]? = some c → c.InStep) :
    ∃ g', checkAddOne d g lazyC = .ok g' ∧ FiledBy d lazyC g g' := by
  unfold checkAddOne
  by_cases hf : d.getHmdsFarm lazyC = ""
  · rw [if_neg (by simpa using hf)]
    by_cases hm : lazyC ∈ g.controlLazy
    · exact ⟨g, by simp [hm], .stay hf hm⟩
    · refine ⟨_, ?_, .createLazy hf hm⟩
      simp [hm, hf, he, Exec.ensure_of_true]
  · rw [if_pos hf]
    cases hh' : g.controlHmds[d.getHmdsFarm lazyC]? with
    | none =>
        cases hl' : g.controlLazy[lazyC]? with
        | none =>
            have hm : lazyC ∉ g.controlLazy := notMem_of_getElem? hl'
            refine ⟨_, ?_, .create hf hh' hl'⟩
            simp [hm, Exec.ensure_of_true]
        | some pC =>
            refine ⟨_, ?_, .move hf hh' hl'⟩
            simp [Exec.ensure_of_true]
    | some hC =>
        have hF : d.getHmdsFarm lazyC ∈ g.controlHmds := mem_of_getElem? hh'
        cases hl' : g.controlLazy[lazyC]? with
        | none =>
            have hm : lazyC ∉ g.controlLazy := notMem_of_getElem? hl'
            refine ⟨_, ?_, .known hf hF hm⟩
            simp [hm, hF, Exec.ensure_of_true]
        | some pC =>
            obtain ⟨hC', hmg, -, -, -⟩ := PacingControl.merge_eq_ok (hh _ _ hh') (hl _ _ hl')
            refine ⟨_, ?_, .merge hf hh' hl' hmg⟩
            simp [hmg, Exec.ensure_of_true]

end PacingGod

end Twstools
