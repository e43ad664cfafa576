import Twstools.Pacing.Farms
/-!
# The last learned contract

`learnHmds` remembers the exchange it has tried to learn last and does
nothing when it is called with the same one again. All that changes what
the second call would learn clears the memory, or adds a farm only
(`Reachable.settled`): a remembered exchange has nothing left to be learned.
The empty string stands for no memory, though, and there is a contract
with an empty exchange: its first call is taken for a repeated one
(`learnHmds_eq_iff`).
-/

namespace Twstools

namespace DataFarmStates

variable {d d' : DataFarmStates} {c : Contract} {X : String}

/-- `learnHmds` without the early return. -/
def learnHmdsAnew (d : DataFarmStates) (c : Contract) : DataFarmStates :=
  let lazyC := lazyContractStr c
  let d := { d with last_learned_lazy_contract := lazyC }
  let known_farm := d.getHmdsFarm lazyC
  let sl := d.getActives
  if known_farm ∈ sl then d
  else if known_farm ≠ "" then d
  else
    match sl with
    | [farm] => { d with hLearn := d.hLearn.insert lazyC farm }
    | _ => d

theorem learnHmds_eq : d.learnHmds c =
    if d.last_learned_lazy_contract = lazyContractStr c then d else d.learnHmdsAnew c := rfl

/-- The farm there is to be learned for an exchange. -/
def learnable (d : DataFarmStates) (X : String) : Option String :=
  if d.getHmdsFarm X ∈ d.getActives ∨ d.getHmdsFarm X ≠ "" then none
  else
    match d.getActives with
    | [farm] => some farm
    | _ => none

/-- **One call** remembers the exchange and learns its farm. -/
theorem learnHmdsAnew_eq : d.learnHmdsAnew c =
    { d with
      last_learned_lazy_contract := c.exchange
      hLearn := (d.learnable c.exchange).elim d.hLearn (d.hLearn.insert c.exchange) } := by
  have hknown : ({ d with last_learned_lazy_contract := lazyContractStr c } :
      DataFarmStates).getHmdsFarm (lazyContractStr c) = d.getHmdsFarm c.exchange := rfl
  have hsl : ({ d with last_learned_lazy_contract := lazyContractStr c } :
      DataFarmStates).getActives = d.getActives := rfl
  unfold learnHmdsAnew learnable
  simp only [hknown, hsl]
  by_cases hact : d.getHmdsFarm c.exchange ∈ d.getActives
  · rw [if_pos hact, if_pos (.inl hact)]
    rfl
  rw [if_neg hact]
  by_cases hun : d.getHmdsFarm c.exchange = ""
  · rw [if_neg (not_not_intro hun), if_neg (not_or.2 ⟨hact, not_not_intro hun⟩)]
    split <;> rfl
  · rw [if_pos hun, if_pos (.inr hun)]
    rfl

/-- Only an unknown farm is learned, the one that is active. -/
theorem learnable_eq_some {farm : String} : d.learnable X = some farm ↔
    d.getHmdsFarm X = "" ∧ d.getActives = [farm] ∧ farm ≠ "" := by
  unfold learnable
  constructor
  · intro h
    split at h
    · cases h
    · rename_i hn
      obtain ⟨hact, hun⟩ := not_or.1 hn
      rw [not_not] at hun
      split at h
      · rename_i farm' hsl
        obtain rfl := Option.some.inj h
        refine ⟨hun, hsl, ?_⟩
        rintro rfl
        simp [hun, hsl] at hact
      · cases h
  · rintro ⟨hun, hsl, hne⟩
    rw [if_neg (by simp [hun, hsl, Ne.symm hne]), hsl]

/-- What has been learned is not to be learned again. -/
theorem learnable_insert {farm : String} (h : d'.hLearn = d.hLearn.insert X farm)
    (hfarm : farm ≠ "") : d'.learnable X = none := by
  have hget : d'.getHmdsFarm X = farm := by
    rw [getHmdsFarm, h, Std.TreeMap.getElem?_insert_self]
    rfl
  rw [learnable, hget, if_pos (.inr hfarm)]

/-- A farm more that is known leaves no more to be learned. -/
theorem learnable_eq_none_of_keeps (hk : KeepsFarms d d') (hs : d'.hStates = d.hStates)
    (h : d.learnable X = none) : d'.learnable X = none := by
  by_contra hne
  obtain ⟨farm, hfarm⟩ := Option.ne_none_iff_exists'.1 hne
  obtain ⟨hun, hact, hfne⟩ := learnable_eq_some.1 hfarm
  have hun' : d.getHmdsFarm X = "" := by
    by_contra hk'
    exact hk' ((hk X hk').symm.trans hun)
  have hsome : d.learnable X = some farm := by
    refine learnable_eq_some.2 ⟨hun', ?_, hfne⟩
    rw [← hact, getActives, getActives, hs]
  simp [h] at hsome

/-- The states of the farms: what the operations make of a new one. A call
that ends the program leads nowhere. -/
inductive Reachable : DataFarmStates → Prop
  | init : Reachable .init
  | setAllBroken {d : DataFarmStates} : Reachable d → Reachable d.setAllBroken
  | notify {d d' : DataFarmStates} {msgNumber errorCode : ℤ} {msg : String} :
      Reachable d → d.notify msgNumber errorCode msg = .ok d' → Reachable d'
  | learnHmds {d : DataFarmStates} (c : Contract) : Reachable d → Reachable (d.learnHmds c)
  | learnHmdsLastOk {d d' : DataFarmStates} {msgNumber : ℤ} {c : Contract} :
      Reachable d → d.learnHmdsLastOk msgNumber c = .ok d' → Reachable d'

/-- There is nothing left to be learned of the exchange that is remembered. -/
def Settled (d : DataFarmStates) : Prop :=
  d.last_learned_lazy_contract ≠ "" → d.learnable d.last_learned_lazy_contract = none

theorem settled_of_cleared (h : d.last_learned_lazy_contract = "") : d.Settled :=
  fun hne => absurd h hne

/-- **A message about a farm** sets the state of the farm it names. -/
theorem notify_eq_setFarm {msgNumber errorCode : ℤ} {msg : String}
    (h : d.notify msgNumber errorCode msg = .ok d') :
    ∃ hist state farm,
      d' = ({ d with lastMsgNumber := msgNumber } : DataFarmStates).setFarm hist state farm := by
  unfold notify at h
  dsimp only at h
  repeat' split at h
  all_goals simp only [Exec.bind_eq_ok, Exec.ensure_eq_ok] at h
  all_goals obtain ⟨farm, hfarm, h⟩ := h
  -- the last case is the assertion on the code
  all_goals first
    | exact absurd hfarm Bool.false_ne_true
    | exact ⟨_, _, farm, (Except.ok.inj h).symm⟩

/-- A message about a farm makes `notify` forget. -/
theorem notify_cleared {msgNumber errorCode : ℤ} {msg : String}
    (h : d.notify msgNumber errorCode msg = .ok d') : d'.last_learned_lazy_contract = "" := by
  obtain ⟨hist, state, farm, rfl⟩ := notify_eq_setFarm h
  rfl

theorem Settled.learnHmds (h : d.Settled) (c : Contract) : (d.learnHmds c).Settled := by
  rw [learnHmds_eq]
  split
  · exact h
  · intro _
    rw [learnHmdsAnew_eq]
    cases hl : d.learnable c.exchange with
    | none => exact hl
    | some farm => exact learnable_insert rfl (learnable_eq_some.1 hl).2.2

theorem Settled.learnHmdsLastOk {msgNumber : ℤ} (h : d.Settled)
    (hl : d.learnHmdsLastOk msgNumber c = .ok d') : d'.Settled := by
  have hframe : d'.hStates = d.hStates ∧
      d'.last_learned_lazy_contract = d.last_learned_lazy_contract := by
    have hl' := hl
    unfold DataFarmStates.learnHmdsLastOk at hl'
    split at hl'
    · rw [← Except.ok.inj hl']; exact ⟨rfl, rfl⟩
    split at hl'
    · dsimp only at hl'
      split at hl'
      · simp only [Exec.bind_eq_ok] at hl'
        obtain ⟨-, -, hl'⟩ := hl'
        rw [← Except.ok.inj hl']; exact ⟨rfl, rfl⟩
      · rw [← Except.ok.inj hl']; exact ⟨rfl, rfl⟩
    · rw [← Except.ok.inj hl']; exact ⟨rfl, rfl⟩
  intro hne
  rw [hframe.2] at hne ⊢
  exact learnable_eq_none_of_keeps (keepsFarms_learnHmdsLastOk hl) hframe.1 (h hne)

/-- **The exchange that is remembered is settled** in every state. -/
theorem Reachable.settled (h : d.Reachable) : d.Settled := by
  induction h with
  | init => exact settled_of_cleared rfl
  | setAllBroken _ _ => exact settled_of_cleared rfl
  | notify _ hn _ => exact settled_of_cleared (notify_cleared hn)
  | learnHmds c _ ih => exact ih.learnHmds c
  | learnHmdsLastOk _ hl ih => exact ih.learnHmdsLastOk hl

/-- A new state that was told of the farm `ushmds`. -/
def ushmdsUp : DataFarmStates :=
  ({ init with lastMsgNumber := 1 } : DataFarmStates).setFarm true .OK "ushmds"

theorem notify_ushmds :
    init.notify 1 2106 "HMDS data farm connection is OK:ushmds" = .ok ushmdsUp := by
  have hfarm : getFarm "HMDS data farm connection is OK:"
      "HMDS data farm connection is OK:ushmds" = .ok "ushmds" := by decide +kernel
  unfold notify
  simp [hfarm, ushmdsUp]

/-- The farm is learned for an exchange. -/
def smartLearned : DataFarmStates := ushmdsUp.learnHmds { exchange := "SMART" }

theorem reachable_smartLearned : smartLearned.Reachable :=
  (Reachable.notify .init notify_ushmds).learnHmds { exchange := "SMART" }

/-- **When the memory is not observable.** `learnHmds` learns what it would
without the early return, unless the exchange is empty, nothing is
remembered, and just now the farm of the empty exchange could be learned. -/
theorem learnHmds_eq_iff (h : d.Reachable) (c : Contract) :
    (d.learnHmds c).hLearn = (d.learnHmdsAnew c).hLearn ↔
      ¬ (c.exchange = "" ∧ d.last_learned_lazy_contract = "" ∧ d.getHmdsFarm "" = "" ∧
        ∃ farm, d.getActives = [farm] ∧ farm ≠ "") := by
  rw [learnHmds_eq, learnHmdsAnew_eq]
  split
  · rename_i hlast
    have hX : d.last_learned_lazy_contract = c.exchange := hlast
    cases hl : d.learnable c.exchange with
    | none =>
        refine iff_of_true rfl ?_
        rintro ⟨he, -, hun, farm, hact, hne⟩
        rw [he, learnable_eq_some.2 ⟨hun, hact, hne⟩] at hl
        cases hl
    | some farm =>
        -- a remembered exchange would be settled
        have he : c.exchange = "" := by
          by_contra he
          have := h.settled (by rwa [hX])
          rw [hX, hl] at this
          cases this
        obtain ⟨hun, hact, hne⟩ := learnable_eq_some.1 hl
        refine iff_of_false ?_ (not_not_intro ⟨he, hX.trans he, he ▸ hun, farm, hact, hne⟩)
        intro heq
        have hget := congrArg (fun m => (m[c.exchange]?).getD "") heq
        simp only [Option.elim_some, Std.TreeMap.getElem?_insert_self] at hget
        exact hne (hget.symm.trans hun)
  · rename_i hlast
    refine iff_of_true rfl ?_
    rintro ⟨he, hX, -⟩
    exact hlast (hX.trans he.symm)

/-- The second time the exchange is remembered, and its farm is known. -/
theorem learnHmds_eq_iff_remembered :
    smartLearned.getActives = ["ushmds"] ∧ smartLearned.last_learned_lazy_contract = "SMART" ∧
      smartLearned.getHmdsFarm "SMART" = "ushmds" ∧
      ((smartLearned.learnHmds { exchange := "SMART" }).hLearn =
          (smartLearned.learnHmdsAnew { exchange := "SMART" }).hLearn ↔
        ¬ ("SMART" = "" ∧ smartLearned.last_learned_lazy_contract = "" ∧
          smartLearned.getHmdsFarm "" = "" ∧
          ∃ farm, smartLearned.getActives = [farm] ∧ farm ≠ "")) :=
  ⟨by decide +kernel, by decide +kernel, by decide +kernel,
    learnHmds_eq_iff reachable_smartLearned { exchange := "SMART" }⟩

/-- **The farm that is up is not learned for a contract without an
exchange.** -/
theorem learnHmds_suppressed : ∃ d,
    init.notify 1 2106 "HMDS data farm connection is OK:ushmds" = .ok d ∧
      (d.learnHmds { exchange := "" }).getHmdsFarm "" = "" ∧
      (d.learnHmdsAnew { exchange := "" }).getHmdsFarm "" = "ushmds" :=
  ⟨ushmdsUp, notify_ushmds, by decide +kernel, by decide +kernel⟩

end DataFarmStates

end Twstools
