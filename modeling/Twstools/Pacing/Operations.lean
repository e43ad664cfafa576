import Twstools.Pacing.Books
/-!
# What the operations do

Every operation of the god is `checkAdd` and then either a change of the
global control and of one other (`UpdatedBy`), or a question to one
control (`consulted`). A change that acts on the log (`Acts`) keeps the
books of the new log; adding a request, taking the last one off again and
marking it as a violation do.
-/

namespace Twstools

open Std

namespace PacingGod

variable {g g' g₁ : PacingGod} {d : DataFarmStates} {log log' : List Request} {X : String}
variable {f : PacingControl → PacingControl} {now : ℤ} {r : Request}

/-- What `update` does after `checkAdd`. -/
inductive UpdatedBy (f : PacingControl → PacingControl) (d : DataFarmStates) (X : String)
    (g : PacingGod) : PacingGod → Prop
  /-- The farm of `X` is unknown. -/
  | lazy {pC : PacingControl} : d.getHmdsFarm X = "" → g.controlLazy[X]? = some pC →
      UpdatedBy f d X g { g with
        controlGlobal := f g.controlGlobal
        controlLazy := g.controlLazy.insert X (f pC) }
  /-- It is known. -/
  | farm {pC : PacingControl} : d.getHmdsFarm X ≠ "" → X ∉ g.controlLazy →
      g.controlHmds[d.getHmdsFarm X]? = some pC →
      UpdatedBy f d X g { g with
        controlGlobal := f g.controlGlobal
        controlHmds := g.controlHmds.insert (d.getHmdsFarm X) (f pC) }

/-- **Each changing operation is `checkAdd` and such an update.** Its
assertions hold. -/
theorem update_ok (lazySite farmSite : Assertion) (f : PacingControl → PacingControl)
    (h : Books d log g) (c : Contract) :
    ∃ g₁ g', g.update lazySite farmSite f d c = .ok g' ∧ Filed d log g g₁ ∧
      Settled d log c.exchange g₁ ∧ UpdatedBy f d c.exchange g₁ g' := by
  obtain ⟨g₁, hok, hfil, hs⟩ := checkAdd_ok h c
  have hhere := hs.here
  by_cases hF : d.getHmdsFarm c.exchange = ""
  · rw [if_pos hF] at hhere
    obtain ⟨pC, hpC⟩ := exists_getElem? hhere
    have hsite : c.exchange ∈ g₁.controlLazy ∧ d.getHmdsFarm c.exchange ∉ g₁.controlHmds :=
      ⟨hhere, hF ▸ hs.books.empty_notMem⟩
    refine ⟨g₁, _, ?_, hfil, hs, .lazy hF hpC⟩
    simp only [update, hok, Exec.ok_bind, if_pos hF, Exec.ensure_of_true hsite, hpC, deref,
      Exec.pure_eq_ok]
  · rw [if_neg hF] at hhere
    obtain ⟨pC, hpC⟩ := exists_getElem? hhere
    have hl : c.exchange ∉ g₁.controlLazy := fun hl => hF (hs.unknown _ hl)
    have hsite : d.getHmdsFarm c.exchange ∈ g₁.controlHmds ∧ c.exchange ∉ g₁.controlLazy :=
      ⟨hhere, hl⟩
    refine ⟨g₁, _, ?_, hfil, hs, .farm hF hl hpC⟩
    simp only [update, hok, Exec.ok_bind, if_neg hF, Exec.ensure_of_true hsite, hpC, deref,
      Exec.pure_eq_ok]

/-- `f`, applied to a control that holds requests for `X` among others,
brings it from the log to the new log, which differs for `X` only. -/
structure Acts (f : PacingControl → PacingControl) (X : String) (log log' : List Request) :
    Prop where
  ordered : (log'.map Request.time).Pairwise (· ≤ ·)
  holds : ∀ (new pC : PacingControl) (p : String → Bool), p X = true →
    Holds new pC (log.filter fun r => p r.exchange) →
    Holds new (f pC) (log'.filter fun r => p r.exchange)
  other : ∀ p : String → Bool, p X = false →
    (log'.filter fun r => p r.exchange).map Request.time =
      (log.filter fun r => p r.exchange).map Request.time
  home : ∀ r ∈ log', r.exchange = X ∨ ∃ s ∈ log, s.exchange = r.exchange

namespace Acts

/-- A control that holds nothing for `X` holds of the new log what it held
of the old. -/
theorem holds_other (h : Acts f X log log') {new pC : PacingControl} {p : String → Bool}
    (hp : p X = false) (hh : Holds new pC (log.filter fun r => p r.exchange)) :
    Holds new pC (log'.filter fun r => p r.exchange) :=
  ⟨hh.inStep, hh.params, hh.times.trans (h.other p hp).symm⟩

/-- The global control holds every request. -/
theorem holds_global (h : Acts f X log log') {new pC : PacingControl} (hh : Holds new pC log) :
    Holds new (f pC) log' := by
  have := h.holds new pC (fun _ => true) rfl
  simp only [List.filter_true] at this
  exact this hh

end Acts

/-- **An update keeps the books.** -/
theorem Settled.updated (h : Settled d log X g) (hu : UpdatedBy f d X g g')
    (ha : Acts f X log log') : Settled d log' X g' := by
  obtain ⟨hb, hunk, hhere⟩ := h
  cases hu with
  | @lazy pC hF hpC =>
      -- the farms do not count what is left to the exchange
      have hmem : ∀ Y, Y ∈ g.controlLazy.insert X (f pC) ↔ Y ∈ g.controlLazy := by
        intro Y
        by_cases hY : X = Y
        · subst hY; simp [mem_of_getElem? hpC]
        · simp [hY]
      refine ⟨⟨ha.ordered, ha.holds_global hb.global, fun Y c hc => ?_, fun F c hc => ?_,
        fun s hs => ?_⟩, fun Y hY => hunk Y ((hmem Y).1 hY), ?_⟩
      · rcases getElem?_insert_cases hc with ⟨rfl, rfl⟩ | ⟨hne, hc⟩
        · exact ha.holds _ pC (fun e => decide (e = Y)) (by simp) (hb.lazy Y pC hpC)
        · exact ha.holds_other (p := fun e => decide (e = Y)) (by simpa using Ne.symm hne)
            (hb.lazy Y c hc)
      · obtain ⟨hF', hh⟩ := hb.hmds F c hc
        refine ⟨hF', ?_⟩
        have hof : ofFarm d g log' F = ofFarm d { g with
            controlGlobal := f g.controlGlobal
            controlLazy := g.controlLazy.insert X (f pC) } log' F := by
          refine List.filter_congr fun s _ => ?_
          exact decide_eq_decide.2 (and_congr_right fun _ => not_congr (hmem _).symm)
        rw [← hof]
        exact ha.holds_other
          (p := fun e => decide (d.getHmdsFarm e = F ∧ e ∉ g.controlLazy))
          (by simp [mem_of_getElem? hpC]) hh
      · rcases ha.home s hs with hX | ⟨t, ht, htX⟩
        · exact .inl ((hmem _).2 (hX ▸ mem_of_getElem? hpC))
        · rw [← htX]
          exact (hb.home t ht).imp_left (hmem _).2
      · rw [if_pos hF]; exact (hmem X).2 (mem_of_getElem? hpC)
  | @farm pC hF hl hpC =>
      refine ⟨⟨ha.ordered, ha.holds_global hb.global, fun Y c hc => ?_, fun F c hc => ?_,
        fun s hs => ?_⟩, hunk, ?_⟩
      · have hne : X ≠ Y := fun h => hl (h ▸ mem_of_getElem? hc)
        exact ha.holds_other (p := fun e => decide (e = Y)) (by simpa using hne) (hb.lazy Y c hc)
      · rcases getElem?_insert_cases hc with ⟨rfl, rfl⟩ | ⟨hne, hc⟩
        · exact ⟨hF, ha.holds _ pC
            (fun e => decide (d.getHmdsFarm e = d.getHmdsFarm X ∧ e ∉ g.controlLazy))
            (by simp [hl]) (hb.hmds _ pC hpC).2⟩
        · obtain ⟨hF', hh⟩ := hb.hmds F c hc
          exact ⟨hF', ha.holds_other
            (p := fun e => decide (d.getHmdsFarm e = F ∧ e ∉ g.controlLazy))
            (by simp [Ne.symm hne]) hh⟩
      · rcases ha.home s hs with hX | ⟨t, ht, htX⟩
        · exact .inr (by simp [hX])
        · rw [← htX]
          exact (hb.home t ht).imp_right fun hm => by simp [hm]
      · rw [if_neg hF]; simp

/-! ## The three changes -/

/-- Adding a request at the end of time. -/
theorem acts_addRequest (ho : (log.map Request.time).Pairwise (· ≤ ·))
    (hnow : ∀ r ∈ log, r.time ≤ now) :
    Acts (·.addRequest now) X log (log ++ [{ exchange := X, time := now }]) where
  ordered := by
    rw [List.map_append, List.pairwise_append]
    refine ⟨ho, by simp, ?_⟩
    simpa using hnow
  holds new pC p hp hh := by
    refine ⟨hh.inStep.addRequest, hh.params.trans PacingControl.sameParams_addRequest, ?_⟩
    simp [hh.times, hp]
  other p hp := by simp [hp]
  home r hr := by
    rcases List.mem_append.1 hr with hr | hr
    · exact .inr ⟨r, hr, rfl⟩
    · exact .inl (by simp at hr; simp [hr])

/-- Taking the last request off. -/
theorem acts_removeLastRequest (hX : r.exchange = X)
    (ho : ((log ++ [r]).map Request.time).Pairwise (· ≤ ·)) :
    Acts (·.removeLastRequest) X (log ++ [r]) log where
  ordered := ho.sublist ((List.sublist_append_left _ _).map _)
  holds new pC p hp hh := by
    refine ⟨hh.inStep.removeLastRequest,
      hh.params.trans PacingControl.sameParams_removeLastRequest, ?_⟩
    simp [hh.times, hX, hp]
  other p hp := by simp [hX, hp]
  home s hs := .inr ⟨s, by simp [hs], rfl⟩

/-- Marking it as a violation. -/
theorem acts_notifyViolation (hX : r.exchange = X)
    (ho : ((log ++ [r]).map Request.time).Pairwise (· ≤ ·)) :
    Acts (·.notifyViolation now) X (log ++ [r]) (log ++ [{ r with violated := true }]) where
  ordered := by simpa using ho
  holds new pC p hp hh := by
    have hne : pC.dateTimes ≠ [] := by simp [hh.times, hX, hp]
    refine ⟨hh.inStep.notifyViolation,
      hh.params.trans PacingControl.sameParams_notifyViolation, ?_⟩
    rw [PacingControl.dateTimes_notifyViolation hh.inStep hne]
    simp [hh.times, hX, hp]
  other p hp := by simp [hX, hp]
  home s hs := by
    rcases List.mem_append.1 hs with hs | hs
    · exact .inr ⟨s, by simp [hs], rfl⟩
    · exact .inl (by simp at hs; simp [hs, hX])

/-! ## The questions -/

/-- The control that decides on a request whose farm is `farm`. -/
def consulted (g : PacingGod) (farm : String) : Option PacingControl :=
  if farm = "" ∨ g.laziesAreCleared = false then some g.controlGlobal else g.controlHmds[farm]?

/-- **Each question is `checkAdd` and the answer of the control
consulted.** The assertions hold. -/
theorem consult_eq (globalSite farmSite : Assertion) (q : PacingControl → Exec Assertion ℤ)
    (h : Books d log g) (c : Contract) :
    ∃ g₁ pC, g.checkAdd d c = .ok (g₁, c.exchange, d.getHmdsFarm c.exchange) ∧
      Filed d log g g₁ ∧ Settled d log c.exchange g₁ ∧
      g₁.consulted (d.getHmdsFarm c.exchange) = some pC ∧
      g.consult globalSite farmSite q d c = (do let t ← q pC; pure (g₁, t)) := by
  obtain ⟨g₁, hok, hfil, hs⟩ := checkAdd_ok h c
  have hhere := hs.here
  by_cases hg : d.getHmdsFarm c.exchange = "" ∨ g₁.laziesAreCleared = false
  · refine ⟨g₁, g₁.controlGlobal, hok, hfil, hs, if_pos hg, ?_⟩
    have hsite : (c.exchange ∈ g₁.controlLazy ∧ d.getHmdsFarm c.exchange ∉ g₁.controlHmds) ∨
        g₁.laziesAreCleared = false := by
      refine hg.imp_left fun hF => ?_
      rw [if_pos hF] at hhere
      exact ⟨hhere, hF ▸ hs.books.empty_notMem⟩
    simp only [consult, hok, Exec.ok_bind, if_pos hg, Exec.ensure_of_true hsite]
  · obtain ⟨hF, hcl⟩ := not_or.1 hg
    rw [if_neg hF] at hhere
    obtain ⟨pC, hpC⟩ := exists_getElem? hhere
    refine ⟨g₁, pC, hok, hfil, hs, by rw [consulted, if_neg hg, hpC], ?_⟩
    have hcl' : g₁.laziesAreCleared = true := by simpa using hcl
    simp only [consult, hok, Exec.ok_bind, if_neg hg, hpC, deref,
      Exec.ensure_of_true (Or.inr hcl' : _ ∨ g₁.laziesAreCleared = true)]

/-- The control consulted is one of those the books keep. -/
theorem Settled.consulted_inStep {pC : PacingControl} {farm : String} (h : Settled d log X g)
    (hc : g.consulted farm = some pC) : pC.InStep := by
  unfold consulted at hc
  split at hc
  · obtain rfl := Option.some.inj hc
    exact h.books.global.inStep
  · exact (h.books.hmds _ _ hc).2.inStep

/-- No lazy control has a request. -/
theorem laziesAreCleared_iff : g.laziesAreCleared = true ↔
    ∀ (X : String) (pC : PacingControl), g.controlLazy[X]? = some pC → pC.dateTimes = [] := by
  simp only [laziesAreCleared, List.all_eq_true, Prod.forall,
    TreeMap.mem_toList_iff_getElem?_eq_some, PacingControl.isEmpty, List.isEmpty_iff]

end PacingGod

end Twstools
