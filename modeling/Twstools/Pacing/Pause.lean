import Twstools.Pacing.Limits
/-!
# The pause after a violation

A pacing violation marks the last entry of a history, and `goodTime` looks
at no other. So the pause is kept as long as the marked entry is the last
one of the control that decides, and it is lost where another entry gets
behind it: in the global control any later request does that, and in a
farm's control a lazy one with the same time stamp when it is merged.
Those are the only ways (`violation_pause`). What the proof carries along
is that the control a marked request is filed in ends with it, and that no
lazy control of the same farm reaches up to it (`Marked`).
-/

namespace Twstools

open Std PacingGod

/-- After a request marked as a violation, none to the same farm until the
pause is over. -/
def PauseKept (truth : String → String) (v : ℤ) (log : List Request) : Prop :=
  log.Pairwise fun r s =>
    r.violated = true → truth r.exchange = truth s.exchange → r.time + v ≤ s.time

instance (truth : String → String) (v : ℤ) (log : List Request) :
    Decidable (PauseKept truth v log) :=
  inferInstanceAs (Decidable (List.Pairwise _ _))

namespace PacedWorld

/-- What has to hold when an event happens for the mark not to be hidden.

When a violation is notified, each other exchange of the same true farm
with a request of the same time stamp has a known farm. When a request
goes to a farm that a violation still pauses, and the farm of this or a
recorded request is unknown, so that the global control decides, then the
request recorded last is marked. -/
def Clear (truth : String → String) (v : ℤ) (w : PacedWorld) : PacedEvent → Prop
  | .other (.op (.notifyViolation c)) =>
      ∀ s ∈ w.log, s.exchange ≠ c.exchange → truth s.exchange = truth c.exchange →
        w.log.getLast?.map Request.time = some s.time → w.farms.getHmdsFarm s.exchange ≠ ""
  | .request c _ =>
      (w.farms.getHmdsFarm c.exchange = "" ∨
          ∃ s ∈ w.log, w.farms.getHmdsFarm s.exchange = "") →
        (∃ r ∈ w.log, r.violated = true ∧ truth r.exchange = truth c.exchange ∧
          w.now < r.time + v) →
        w.log.getLast?.map Request.violated = some true
  | .other _ => True

instance (truth : String → String) (v : ℤ) (w : PacedWorld) :
    (e : PacedEvent) → Decidable (w.Clear truth v e)
  | .other (.op (.notifyViolation _)) => inferInstanceAs (Decidable (∀ s ∈ _, _ → _))
  | .request _ _ => inferInstanceAs (Decidable (_ ∨ _ → (∃ q ∈ _, _) → _))
  | .other (.clock _) | .other (.learn _) | .other (.op (.goodTime _))
  | .other (.op (.countLeft _)) | .other (.op (.addRequest _))
  | .other (.op (.removeLastRequest _)) => inferInstanceAs (Decidable True)

end PacedWorld

/-! ## The marked entry stays last -/

namespace PacingGod

variable {truth : String → String} {v now : ℤ} {d : DataFarmStates} {log l : List Request}
variable {r : Request} {X : String} {g g' : PacingGod} {pC : PacingControl}

/-- The control a request is filed in. -/
def homeControl (truth : String → String) (g : PacingGod) (X : String) : Option PacingControl :=
  if X ∈ g.controlLazy then g.controlLazy[X]? else g.controlHmds[truth X]?

/-- The control of the request ends with it, marked, and the lazy controls
of its farm's other exchanges end before it. -/
structure Marked (truth : String → String) (log : List Request) (g : PacingGod) (r : Request) :
    Prop where
  home : ∃ pC es, homeControl truth g r.exchange = some pC ∧ pC.entries = es ++ [(r.time, true)]
  others : ∀ s ∈ log, s.exchange ≠ r.exchange → truth s.exchange = truth r.exchange →
    s.exchange ∈ g.controlLazy → s.time < r.time

/-- A request of the log is filed somewhere. -/
theorem Books.homeControl_some (h : Books d log g) (hc : d.Correct truth) (hr : r ∈ log) :
    r.exchange ∉ g.controlLazy → d.getHmdsFarm r.exchange = truth r.exchange := by
  intro hl
  have hm := (h.home r hr).resolve_left hl
  exact hc _ fun he => h.empty_notMem (he ▸ hm)

/-- What a control holds are times of its requests. -/
theorem Holds.forall_entries {new : PacingControl} {l : List Request} {P : ℤ → Prop}
    (h : Holds new pC l) (hP : ∀ s ∈ l, P s.time) : ∀ p ∈ pC.entries, P p.1 := by
  intro p hp
  have hp' : p.1 ∈ pC.dateTimes := by
    rw [← h.inStep.map_fst_entries]
    exact List.mem_map_of_mem hp
  rw [h.times] at hp'
  obtain ⟨s, hs, hst⟩ := List.mem_map.1 hp'
  exact hst ▸ hP s hs

/-! ### The home of an exchange, when another one is filed -/

section Home

variable {F Y : String} {hC : PacingControl}

/-- The god after the exchange `X` has gone to the farm `F`. -/
private def erased (g : PacingGod) (X F : String) (hC : PacingControl) : PacingGod :=
  { g with controlLazy := g.controlLazy.erase X, controlHmds := g.controlHmds.insert F hC }

private theorem homeControl_erased_self (hF : F = truth X) :
    homeControl truth (g.erased X F hC) X = some hC := by
  simp [homeControl, erased, hF]

private theorem homeControl_erased_lazy (hne : X ≠ Y) (hm : Y ∈ g.controlLazy) :
    homeControl truth (g.erased X F hC) Y = homeControl truth g Y := by
  simp [homeControl, erased, TreeMap.mem_erase, hne, hm]

private theorem homeControl_erased_farm (hm : Y ∉ g.controlLazy) (hF : F = truth Y) :
    homeControl truth (g.erased X F hC) Y = some hC := by
  simp [homeControl, erased, TreeMap.mem_erase, hm, hF]

private theorem homeControl_erased_other (hm : Y ∉ g.controlLazy) (hF : F ≠ truth Y) :
    homeControl truth (g.erased X F hC) Y = homeControl truth g Y := by
  simp [homeControl, erased, TreeMap.mem_erase, TreeMap.getElem?_insert, hm, hF]

end Home

/-- **A lazy control that ends with the mark goes behind what the farm's
holds**, being no later than it. -/
theorem Marked.merged_into (hb : Books d log g) (hc : d.Correct truth)
    (hlate : ∀ s ∈ log, truth s.exchange = truth r.exchange → s.time ≤ r.time)
    {hC hC' : PacingControl} {es : List (ℤ × Bool)} (hF : d.getHmdsFarm r.exchange ≠ "")
    (hh : g.controlHmds[d.getHmdsFarm r.exchange]? = some hC)
    (hent : hC'.entries = hC.entries.merge (es ++ [(r.time, true)]) (keyLe Prod.fst)) :
    ∃ es', hC'.entries = es' ++ [(r.time, true)] := by
  refine ⟨hC.entries.merge es (keyLe Prod.fst), ?_⟩
  rw [hent, merge_concat_right]
  refine (hb.hmds _ _ hh).2.forall_entries (P := (· ≤ r.time)) fun s hs => ?_
  obtain ⟨hs, hsF⟩ := List.mem_filter.1 hs
  obtain ⟨hfarm, hl⟩ : d.getHmdsFarm s.exchange = d.getHmdsFarm r.exchange ∧
      s.exchange ∉ g.controlLazy := by simpa using hsF
  exact hlate s hs (by rw [← hc _ hF, ← hfarm, hb.homeControl_some hc hs hl])

/-- **And one that is merged into the control it ends goes before it**,
being earlier. -/
theorem Marked.merged_from (hb : Books d log g)
    (hearly : ∀ s ∈ log, s.exchange = X → s.time < r.time) {qC hC' : PacingControl}
    {es : List (ℤ × Bool)} (hl : g.controlLazy[X]? = some qC)
    (hent : hC'.entries = (es ++ [(r.time, true)]).merge qC.entries (keyLe Prod.fst)) :
    ∃ es', hC'.entries = es' ++ [(r.time, true)] := by
  refine ⟨es.merge qC.entries (keyLe Prod.fst), ?_⟩
  rw [hent, merge_concat_left]
  refine (hb.lazy _ _ hl).forall_entries (P := (· < r.time)) fun s hs => ?_
  obtain ⟨hs, hsX⟩ := List.mem_filter.1 hs
  exact hearly s hs (by simpa using hsX)

/-- **Where two controls become one**, the mark stays the last entry: of
the lazy one that ended with it, or of the farm's. -/
private theorem Marked.home_merged (hb : Books d log g) (hc : d.Correct truth)
    (hlate : ∀ s ∈ log, truth s.exchange = truth r.exchange → s.time ≤ r.time)
    (hX : d.getHmdsFarm X ≠ "" → d.getHmdsFarm X = truth X) (h : Marked truth log g r)
    {hC qC hC' : PacingControl} (hF : d.getHmdsFarm X ≠ "")
    (hh : g.controlHmds[d.getHmdsFarm X]? = some hC) (hl : g.controlLazy[X]? = some qC)
    (hmg : hC.merge qC = .ok hC') :
    ∃ pC es, homeControl truth (g.erased X (d.getHmdsFarm X) hC') r.exchange = some pC ∧
      pC.entries = es ++ [(r.time, true)] := by
  obtain ⟨⟨pC, es, hhome, hes⟩, hothers⟩ := h
  have hq := hb.lazy _ _ hl
  obtain ⟨-, hhC⟩ := hb.hmds _ _ hh
  obtain ⟨c', hc', hstep, -, hent⟩ := PacingControl.merge_eq_ok hhC.inStep hq.inStep
  obtain rfl : hC' = c' := by simpa [hmg] using hc'
  have hord : qC.entries.Pairwise (Prod.fst · ≤ Prod.fst ·) := by
    rw [← List.pairwise_map, hq.inStep.map_fst_entries, hq.times]
    exact hb.ofExchange_ordered X
  rw [insertMerge_eq_merge _ _ hord] at hent
  by_cases hXr : X = r.exchange
  · -- the marked control goes into the farm's
    subst hXr
    rw [homeControl, if_pos (mem_of_getElem? hl), hl] at hhome
    obtain rfl := Option.some.inj hhome
    obtain ⟨es', hes'⟩ := Marked.merged_into hb hc hlate hF hh (by rw [hent, hes])
    exact ⟨hC', es', homeControl_erased_self (hX hF), hes'⟩
  · by_cases hm : r.exchange ∈ g.controlLazy
    · exact ⟨pC, es, (homeControl_erased_lazy hXr hm).trans hhome, hes⟩
    · by_cases hFr : d.getHmdsFarm X = truth r.exchange
      · -- another one goes into the marked control
        rw [homeControl, if_neg hm, ← hFr, hh] at hhome
        obtain rfl := Option.some.inj hhome
        have hearly : ∀ s ∈ log, s.exchange = X → s.time < r.time := fun s hs hsX =>
          hothers s hs (hsX ▸ hXr) (by rw [hsX, ← hX hF, hFr]) (hsX ▸ mem_of_getElem? hl)
        obtain ⟨es', hes'⟩ := Marked.merged_from hb hearly hl (by rw [hent, hes])
        exact ⟨hC', es', homeControl_erased_farm hm hFr, hes'⟩
      · exact ⟨pC, es, (homeControl_erased_other hm hFr).trans hhome, hes⟩

/-- **Filing keeps a marked entry last.** -/
theorem Marked.filed (hb : Books d log g) (hc : d.Correct truth) (hr : r ∈ log)
    (hlate : ∀ s ∈ log, truth s.exchange = truth r.exchange → s.time ≤ r.time)
    (hf : FiledBy d X g g') (h : Marked truth log g r) : Marked truth log g' r := by
  obtain ⟨⟨pC, es, hhome, hes⟩, hothers⟩ := h
  refine ⟨?_, fun s hs hne ht hl => hothers s hs hne ht ?_⟩
  · have hX : d.getHmdsFarm X ≠ "" → d.getHmdsFarm X = truth X := hc X
    -- a request that is not lazy is at home in its farm's control
    have hfarm : r.exchange ∉ g.controlLazy → g.controlHmds[truth r.exchange]? = some pC :=
      fun hm => by rwa [homeControl, if_neg hm] at hhome
    cases hf with
    | known | stay => exact ⟨pC, es, hhome, hes⟩
    | createLazy hF hl =>
        have hne : X ≠ r.exchange := by
          rintro rfl
          exact hb.empty_notMem (hF ▸ (hb.home r hr).resolve_left hl)
        refine ⟨pC, es, ?_, hes⟩
        unfold homeControl at hhome ⊢
        simpa [hne, TreeMap.getElem?_insert] using hhome
    | create hF hh hl =>
        refine ⟨pC, es, ?_, hes⟩
        by_cases hm : r.exchange ∈ g.controlLazy
        · rw [homeControl, if_pos hm] at hhome ⊢
          exact hhome
        · have hne : d.getHmdsFarm X ≠ truth r.exchange := fun he => by
            rw [he, hfarm hm] at hh
            cases hh
          rw [homeControl, if_neg hm]
          simpa [TreeMap.getElem?_insert, hne] using hfarm hm
    | @move qC hF hh hl =>
        refine ⟨pC, es, ?_, hes⟩
        by_cases hXr : X = r.exchange
        · -- the marked control becomes the farm's
          subst hXr
          rw [homeControl, if_pos (mem_of_getElem? hl), hl] at hhome
          obtain rfl := Option.some.inj hhome
          exact homeControl_erased_self (hX hF)
        · by_cases hm : r.exchange ∈ g.controlLazy
          · exact (homeControl_erased_lazy hXr hm).trans hhome
          · refine (homeControl_erased_other hm fun he => ?_).trans hhome
            rw [he, hfarm hm] at hh
            cases hh
    | merge hF hh hl hmg =>
        exact Marked.home_merged hb hc hlate hX ⟨⟨pC, es, hhome, hes⟩, hothers⟩ hF hh hl hmg
  · rw [hf.mem_lazy] at hl
    split at hl
    · rename_i hsX
      by_contra hn
      exact hb.empty_notMem (hl ▸ hsX ▸ (hb.home s hs).resolve_left hn)
    · exact hl

/-! ## Updates and marked entries -/

namespace UpdatedBy

variable {f : PacingControl → PacingControl}

/-- An update makes and removes no lazy control. -/
theorem mem_lazy (h : UpdatedBy f d X g g') (Y : String) :
    Y ∈ g'.controlLazy ↔ Y ∈ g.controlLazy := by
  cases h with
  | lazy _ hpC =>
      by_cases hY : X = Y
      · subst hY; simp [mem_of_getElem? hpC]
      · simp [hY]
  | farm => rfl

/-- It leaves the exchanges of other farms alone. -/
theorem homeControl_other (h : UpdatedBy f d X g g') (hc : d.Correct truth) {Y : String}
    (hY : truth X ≠ truth Y) : homeControl truth g' Y = homeControl truth g Y := by
  have hne : X ≠ Y := fun he => hY (he ▸ rfl)
  unfold homeControl
  simp only [h.mem_lazy]
  cases h with
  | lazy => simp [TreeMap.getElem?_insert, hne]
  | farm hF =>
      have hF' : d.getHmdsFarm X ≠ truth Y := by rwa [hc X hF]
      simp [TreeMap.getElem?_insert, hF']

/-- And changes the control of its own. -/
theorem homeControl_self (h : UpdatedBy f d X g g') (hc : d.Correct truth) :
    ∃ pC, homeControl truth g X = some pC ∧ homeControl truth g' X = some (f pC) := by
  unfold homeControl
  simp only [h.mem_lazy]
  cases h with
  | @lazy pC _ hpC =>
      exact ⟨pC, by rw [if_pos (mem_of_getElem? hpC), hpC], by simp [mem_of_getElem? hpC]⟩
  | @farm pC hF hl hpC =>
      rw [hc X hF] at hpC
      exact ⟨pC, by simp [hl, hpC, hc X hF]⟩

/-- The global control changes likewise. -/
theorem global (h : UpdatedBy f d X g g') : g'.controlGlobal = f g.controlGlobal := by
  cases h <;> rfl

end UpdatedBy

/-- A mark at another farm is not touched. -/
theorem Marked.updated {f : PacingControl → PacingControl} {log' : List Request}
    (hu : UpdatedBy f d X g g') (hc : d.Correct truth) (hX : truth X ≠ truth r.exchange)
    (hlog : ∀ s ∈ log', s.exchange = X ∨ ∃ t ∈ log, t.exchange = s.exchange ∧ t.time = s.time)
    (h : Marked truth log g r) : Marked truth log' g' r := by
  refine ⟨by rw [hu.homeControl_other hc hX]; exact h.home, fun s hs hne ht hl => ?_⟩
  rcases hlog s hs with rfl | ⟨t, ht', hex, htime⟩
  · exact absurd ht hX
  · rw [← htime]
    exact h.others t ht' (hex ▸ hne) (hex ▸ ht) (hex ▸ (hu.mem_lazy _).1 hl)

/-- The control of the request made last ends with it. -/
theorem Settled.home_last (h : Settled d (l ++ [r]) r.exchange g) (hc : d.Correct truth) :
    ∀ pC, homeControl truth g r.exchange = some pC →
      pC.InStep ∧ ∃ ts, pC.dateTimes = ts ++ [r.time] := by
  intro pC hpC
  unfold homeControl at hpC
  split at hpC
  · have hh := h.books.lazy _ _ hpC
    exact ⟨hh.inStep, (ofExchange l r.exchange).map Request.time, by simp [hh.times, ofExchange]⟩
  · rename_i hl
    have hF := h.books.homeControl_some hc (by simp) hl
    obtain ⟨-, hh⟩ := h.books.hmds _ _ hpC
    exact ⟨hh.inStep, (ofFarm d g l (truth r.exchange)).map Request.time,
      by simp [hh.times, ofFarm, hF, hl]⟩

end PacingGod

namespace PacedWorld

variable {truth : String → String} {w w' : PacedWorld} {e : PacedEvent} {evs : List PacedEvent}
variable {d₀ : DataFarmStates} {now₀ r i m v : ℤ} {log : List Request}

/-- What a clear step keeps: the limits, the flags of the global control,
the pause, and the marks that are still in their pause. -/
structure Paused (truth : String → String) (r i m v : ℤ) (w : PacedWorld) : Prop where
  limited : Limited truth r i m v w
  flags : w.god.controlGlobal.violations = w.log.map Request.violated
  pause : PauseKept truth v w.log
  marked : ∀ q ∈ w.log, q.violated = true → w.now < q.time + v → Marked truth w.log w.god q

/-- A marked request in its pause is the last one to its farm. -/
theorem Paused.late (h : Paused truth r i m v w) {q s : Request} (hq : q ∈ w.log)
    (hv : q.violated = true) (hnow : w.now < q.time + v) (hs : s ∈ w.log)
    (ht : truth s.exchange = truth q.exchange) : s.time ≤ q.time := by
  obtain ⟨a, ha, rfl⟩ := List.getElem_of_mem hq
  obtain ⟨b, hb, rfl⟩ := List.getElem_of_mem hs
  rcases Nat.lt_trichotomy a b with hab | rfl | hba
  · have h1 := List.pairwise_iff_getElem.1 h.pause a b ha hb hab hv ht.symm
    have h2 := h.limited.kept.past _ hs
    omega
  · exact Int.le_refl _
  · have h1 := List.pairwise_iff_getElem.1 h.limited.kept.books.ordered b a
      (by simpa using hb) (by simpa using ha) hba
    simpa using h1

/-- The marks are kept by what `checkAdd` files. -/
theorem Paused.filed (h : Paused truth r i m v w) {g₁ : PacingGod} {q : Request}
    (hfil : Filed w.farms w.log w.god g₁) (hq : q ∈ w.log) (hv : q.violated = true)
    (hnow : w.now < q.time + v) : Marked truth w.log g₁ q := by
  induction hfil with
  | refl => exact h.marked q hq hv hnow
  | tail _ hs ih =>
      obtain ⟨hb, X, hf⟩ := hs
      exact ih.filed hb h.limited.correct hq (fun s hs ht => h.late hq hv hnow hs ht) hf

/-- **A request that goes out is out of every pause of its farm.** The
farm's control ends with the marked request; and when the global one
decides, it ends with a mark that is no older. -/
theorem Paused.out_of_pause (h : Paused truth r i m v w) (hr : 1 ≤ r) (hr' : InInt r)
    {c : Contract} {later : ℤ} (hcl : Clear truth v w (.request c later)) {g₁ : PacingGod}
    {pC : PacingControl} {wait : ℤ} (hfit : w.TimesFit c)
    (hadd : w.god.checkAdd w.farms c = .ok (g₁, c.exchange, w.farms.getHmdsFarm c.exchange))
    (hfil : Filed w.farms w.log w.god g₁) (hs : Settled w.farms w.log c.exchange g₁)
    (hcon : g₁.consulted (w.farms.getHmdsFarm c.exchange) = some pC)
    (hq : pC.goodTime w.now = .ok wait) (hw : wait ≤ 0) :
    ∀ q ∈ w.log, q.violated = true → truth q.exchange = truth c.exchange →
      q.time + v ≤ w.now := by
  intro q hqm hv ht
  by_contra hlt
  have hnow : w.now < q.time + v := by omega
  have hfree := h.limited.free hr hr' hfit hadd hfil hs hcon hq hw
  obtain ⟨⟨-, -, -, hpause⟩, hstep, -⟩ := h.limited.consulted hfil hs hcon
  have hpause' : pC.violationPause = v := hpause
  obtain ⟨⟨hC, es, hhome, hes⟩, -⟩ := h.filed hfil hqm hv hnow
  unfold consulted at hcon
  split at hcon
  · -- the global control decides
    rename_i hg
    obtain rfl := Option.some.inj hcon
    -- for a farm that is unknown, or for lazy requests that are left
    have hunknown : w.farms.getHmdsFarm c.exchange = "" ∨
        ∃ s ∈ w.log, w.farms.getHmdsFarm s.exchange = "" := by
      refine hg.imp_right fun hcl' => ?_
      have hnot : ¬ g₁.laziesAreCleared = true := by simp [hcl']
      rw [laziesAreCleared_iff] at hnot
      push Not at hnot
      obtain ⟨Y, lC, hlC, hne⟩ := hnot
      rw [(hs.books.lazy Y lC hlC).times, ne_eq, List.map_eq_nil_iff, ofExchange,
        List.filter_eq_nil_iff] at hne
      push Not at hne
      obtain ⟨s, hsm, hsY⟩ := hne
      have hsY' : s.exchange = Y := by simpa using hsY
      exact ⟨s, hsm, hs.unknown _ (hsY' ▸ mem_of_getElem? hlC)⟩
    have hlast := hcl hunknown ⟨q, hqm, hv, ht, hnow⟩
    have hviol : g₁.controlGlobal.violations.getLast? = some true := by
      rw [hfil.global_eq.1, h.flags, List.getLast?_map, hlast]
    have hqt : q.time ∈ g₁.controlGlobal.dateTimes := by
      rw [hs.books.global.times]; exact List.mem_map_of_mem hqm
    have hord : g₁.controlGlobal.Ordered := by
      rw [PacingControl.Ordered, hs.books.global.times]; exact hs.books.ordered
    obtain ⟨back, hb, hle⟩ := hord.le_getLast? hqt
    have := hfree.viol hviol back hb
    omega
  · -- the farm's control decides
    rename_i hg
    obtain ⟨hF, hcleared⟩ := not_or.1 hg
    have hempty := laziesAreCleared_iff.1 (by simpa using hcleared)
    have hl : q.exchange ∉ g₁.controlLazy := by
      intro hl
      obtain ⟨lC, hlC⟩ := exists_getElem? hl
      have hnil := (hs.books.lazy _ _ hlC).times
      rw [hempty _ _ hlC, eq_comm, List.map_eq_nil_iff] at hnil
      exact absurd (List.mem_filter.2 ⟨hqm, by simp⟩) (hnil ▸ List.not_mem_nil)
    rw [homeControl, if_neg hl, ht, ← h.limited.correct _ hF, hcon] at hhome
    obtain rfl := Option.some.inj hhome
    have := hfree.pause hstep hes
    omega

/-- **Marking the request made last keeps the pause.** -/
theorem Paused.notify (h : Paused truth r i m v w) {g₁ g' : PacingGod} {c : Contract}
    (hlast : w.last = some c) (hcl : Clear truth v w (.other (.op (.notifyViolation c))))
    (hfil : Filed w.farms w.log w.god g₁) (hs : Settled w.farms w.log c.exchange g₁)
    (hu : UpdatedBy (·.notifyViolation w.now) w.farms c.exchange g₁ g') :
    g'.controlGlobal.violations = (markViolated w.log).map Request.violated ∧
      PauseKept truth v (markViolated w.log) ∧
      ∀ q ∈ markViolated w.log, q.violated = true → w.now < q.time + v →
        Marked truth (markViolated w.log) g' q := by
  obtain ⟨l, q₀, hlog, hex⟩ := h.limited.kept.last c hlast
  have hcorrect := h.limited.correct
  have hpause := h.pause
  have hordered := h.limited.kept.books.ordered
  have hpast : q₀.time ≤ w.now := h.limited.kept.past q₀ (by simp [hlog])
  rw [hlog] at hpause hordered
  rw [hlog, markViolated_concat]
  obtain ⟨hp₁, -, hp₂⟩ := List.pairwise_append.1 hpause
  refine ⟨?_, ?_, fun q hq hv hp => ?_⟩
  · have hne : g₁.controlGlobal.dateTimes ≠ [] := by simp [hs.books.global.times, hlog]
    rw [hu.global, PacingControl.violations_notifyViolation hs.books.global.inStep hne,
      hfil.global_eq.1, h.flags, hlog]
    simp
  · refine List.pairwise_append.2 ⟨hp₁, by simp, fun a ha b hb => ?_⟩
    obtain rfl := List.mem_singleton.1 hb
    exact hp₂ a ha q₀ (by simp)
  · rcases List.mem_append.1 hq with hql | hq₀
    · -- an older mark is one of another farm
      have hne : truth c.exchange ≠ truth q.exchange := fun ht => by
        have := hp₂ q hql q₀ (by simp) hv (by rw [hex, ht])
        omega
      refine (h.filed hfil (by simp [hlog, hql]) hv hp).updated hu hcorrect hne fun s hs => ?_
      rcases List.mem_append.1 hs with hs | hs
      · exact .inr ⟨s, by simp [hlog, hs], rfl, rfl⟩
      · exact .inl (by simp at hs; simp [hs, hex])
    · -- the mark just set
      obtain rfl := List.mem_singleton.1 hq₀
      obtain ⟨pC, hhome, hhome'⟩ := hu.homeControl_self hcorrect
      rw [← hex] at hs hhome hhome'
      obtain ⟨hstep, ts, hts⟩ := (hlog ▸ hs).home_last hcorrect pC hhome
      obtain ⟨es, hes⟩ := hstep.entries_notifyViolation w.now hts
      refine ⟨⟨_, es, hhome', hes⟩, fun s hsm hne ht hl => ?_⟩
      have hsl : s ∈ l := by
        rcases List.mem_append.1 hsm with hsl | hs₀
        · exact hsl
        · exact absurd (by rw [List.mem_singleton.1 hs₀]) hne
      have hle : s.time ≤ q₀.time := by
        rw [List.map_append, List.pairwise_append] at hordered
        exact hordered.2.2 _ (List.mem_map_of_mem hsl) _ (by simp)
      refine hle.lt_of_ne fun heq => ?_
      refine hcl s (by simp [hlog, hsl]) (by rw [← hex]; exact hne) (by rw [← hex]; exact ht)
        (by simp [hlog, heq]) ?_
      exact hs.unknown _ ((hu.mem_lazy _).1 hl)

/-- **A clear step keeps the pause.** -/
theorem Paused.step (h : Paused truth r i m v w) (hr : 1 ≤ r) (hr' : InInt r)
    (hs : Step truth w e w') (hcl : Clear truth v w e) : Paused truth r i m v w' := by
  have hlim := h.limited.step hr hr' hs
  cases hs with
  | other he hstep =>
      cases otherBy_of_step h.limited.kept he hstep with
      | clock hnow =>
          exact ⟨hlim, h.flags, h.pause, fun q hq hv hp => h.marked q hq hv (hnow.trans_lt hp)⟩
      | learn => exact ⟨hlim, h.flags, h.pause, h.marked⟩
      | ask hfil =>
          exact ⟨hlim, by rw [hfil.global_eq.1]; exact h.flags, h.pause,
            fun q hq hv hp => h.filed hfil hq hv hp⟩
      | notify hlast hfil hset hu =>
          obtain ⟨hflags, hpause, hmarked⟩ := h.notify hlast hcl hfil hset hu
          exact ⟨hlim, hflags, hpause, hmarked⟩
  | @request _ c later hfit hl hok =>
      obtain ⟨g₁, pC, wait, hadd, hfil, hset, hcon, hq, ⟨hw, hi⟩ | ⟨-, rfl⟩⟩ :=
        issue_cases h.limited.kept hok
      · have hout := h.out_of_pause hr hr' hcl hfit hadd hfil hset hcon hq hw
        obtain ⟨-, g₂, g', hfil', -, hu, rfl⟩ := hi
        have hfil'' : Filed w.farms w.log w.god g₂ := hfil.trans hfil'
        refine ⟨hlim, ?_, ?_, fun q hqm hv hp => ?_⟩
        · rw [hu.global, PacingControl.violations_addRequest, hfil''.global_eq.1, h.flags]
          simp
        · refine List.pairwise_append.2 ⟨h.pause, by simp, fun q hqm s hs hv ht => ?_⟩
          obtain rfl := List.mem_singleton.1 hs
          exact (hout q hqm hv ht).trans hl
        · rcases List.mem_append.1 hqm with hqm | hqm
          · have hp' : w.now < q.time + v := hl.trans_lt hp
            have hne : truth c.exchange ≠ truth q.exchange := fun ht => by
              have := hout q hqm hv ht.symm
              omega
            refine (h.filed hfil'' hqm hv hp').updated hu h.limited.correct hne fun s hs => ?_
            rcases List.mem_append.1 hs with hs | hs
            · exact .inr ⟨s, hs, rfl, rfl⟩
            · exact .inl (by simp at hs; simp [hs])
          · simp only [List.mem_singleton] at hqm
            simp [hqm] at hv
      · exact ⟨hlim, by rw [hfil.global_eq.1]; exact h.flags, h.pause,
          fun q hq hv hp => h.filed hfil hq hv hp⟩

/-- **The pause after a violation is kept in every clear run.** -/
theorem violation_pause (hr : 1 ≤ r) (hr' : InInt r) (hc : d₀.Correct truth)
    (h : Run (fun w e w' => Step truth w e w' ∧ Clear truth v w e) (start now₀ d₀ r i m v) evs w) :
    PauseKept truth v w.log := by
  have hstart : Paused truth r i m v (start now₀ d₀ r i m v) :=
    ⟨limited_start hc, rfl, .nil, fun q hq => absurd hq List.not_mem_nil⟩
  exact (h.invariant hstart fun _ _ _ hI hs => hI.step hr hr' hs.1 hs.2).pause

/-- A clear step, to be executed. -/
def nextClear (truth : String → String) (v : ℤ) (w : PacedWorld) (e : PacedEvent) :
    Option PacedWorld :=
  if Clear truth v w e then next truth w e else none

theorem step_of_nextClear (w : PacedWorld) (e : PacedEvent) (w' : PacedWorld)
    (h : nextClear truth v w e = some w') : Step truth w e w' ∧ Clear truth v w e := by
  unfold nextClear at h
  split at h
  · rename_i hc; exact ⟨step_of_next h, hc⟩
  · cases h

/-- A violation, and the next request to its farm after the pause. -/
theorem violation_pause_waited : ∃ w,
    Run (fun w e w' => Step (fun _ => "euhmds") w e w' ∧ Clear (fun _ => "euhmds") 60000 w e)
      (start 0 {} 60 605000 1000 60000)
      [.request { exchange := "IBIS" } 0, .other (.op (.notifyViolation { exchange := "IBIS" })),
        .other (.clock 60000), .request { exchange := "LSE" } 60000] w ∧
      w.log.length = 2 ∧ PauseKept (fun _ => "euhmds") 60000 w.log := by
  have hlog : (([.request { exchange := "IBIS" } 0,
      .other (.op (.notifyViolation { exchange := "IBIS" })),
      .other (.clock 60000), .request { exchange := "LSE" } 60000] : List PacedEvent).foldlM
        (nextClear (fun _ => "euhmds") 60000) (start 0 {} 60 605000 1000 60000)).map
          (fun w => w.log.length) = some 2 := by
    decide +kernel
  obtain ⟨w, hw, hl⟩ := Option.map_eq_some_iff.1 hlog
  have hrun := Run.of_foldlM step_of_nextClear hw
  exact ⟨w, hrun, hl, violation_pause (by decide) (by decide) (by decide) hrun⟩

/-- The true farms of the next run: the hard-coded ones, and one that is
not known yet. -/
def trueFarms (X : String) : String :=
  if X = "AQS" then "euhmds" else DataFarmStates.init.getHmdsFarm X

/-- **Another request can hide the mark.** A request to one farm is
answered with a violation; two seconds later one to another farm goes out,
whose farm is known; and after two more seconds one to the first farm,
through an exchange of unknown farm: the global control decides and looks
at its last entry only. -/
theorem violation_pause_hidden : DataFarmStates.init.Correct trueFarms ∧ ∃ w,
    Run (Step trueFarms) (start 0 .init 60 605000 1000 60000)
      [.request { exchange := "IBIS" } 0, .other (.op (.notifyViolation { exchange := "IBIS" })),
        .other (.clock 2000), .request { exchange := "NYSE" } 2000,
        .other (.clock 4000), .request { exchange := "AQS" } 4000] w ∧
      w.log = [⟨"IBIS", 0, true⟩, ⟨"NYSE", 2000, false⟩, ⟨"AQS", 4000, false⟩] ∧
      ¬ PauseKept trueFarms 60000 w.log := by
  have hlog : (([.request { exchange := "IBIS" } 0,
      .other (.op (.notifyViolation { exchange := "IBIS" })),
      .other (.clock 2000), .request { exchange := "NYSE" } 2000,
      .other (.clock 4000), .request { exchange := "AQS" } 4000] : List PacedEvent).foldlM
        (next trueFarms) (start 0 .init 60 605000 1000 60000)).map (fun w => w.log) =
      some [⟨"IBIS", 0, true⟩, ⟨"NYSE", 2000, false⟩, ⟨"AQS", 4000, false⟩] := by
    decide +kernel
  obtain ⟨w, hw, hl⟩ := Option.map_eq_some_iff.1 hlog
  refine ⟨by decide +kernel, w, Run.of_foldlM (fun _ _ _ => step_of_next) hw, hl, ?_⟩
  rw [hl]
  decide +kernel

end PacedWorld

end Twstools
