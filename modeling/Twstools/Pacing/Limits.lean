import Twstools.Pacing.Paced
/-!
# The limits of each farm

However the run switches between the global, the lazy and the farms'
controls, the control that decides on a request holds all requests that
truly went to its farm (`Settled.covered`). So the requests of each farm
keep the distances `goodTime` asks for: no window of `checkInterval` holds
more than `maxRequests` of them, and two of them are `minPacingTime`
apart.
-/

namespace Twstools

open Std PacingGod

/-- The times of the requests whose exchange truly belongs to `F`. -/
def timesOf (truth : String → String) (log : List Request) (F : String) : List ℤ :=
  (log.filter fun r => truth r.exchange = F).map Request.time

variable {truth : String → String} {log : List Request} {F X : String}

@[simp] theorem timesOf_markViolated :
    timesOf truth (markViolated log) F = timesOf truth log F := by
  induction log using List.reverseRecOn with
  | nil => rfl
  | append_singleton l r _ => by_cases h : truth r.exchange = F <;> simp [timesOf, h]

@[simp] theorem length_markViolated : (markViolated log).length = log.length := by
  induction log using List.reverseRecOn with
  | nil => rfl
  | append_singleton l r _ => simp

/-- One request more. -/
theorem timesOf_concat {t : ℤ} : timesOf truth (log ++ [{ exchange := X, time := t }]) F =
    timesOf truth log F ++ if truth X = F then [t] else [] := by
  by_cases h : truth X = F <;> simp [timesOf, h]

namespace PacingGod

variable {d : DataFarmStates} {g : PacingGod} {pC : PacingControl}

/-- **The control that decides on a request covers its farm.** The global
one holds everything; and when the farm's is asked, no lazy control holds
a request that might be for the same farm. -/
theorem Settled.covered (h : Settled d log X g) (hc : d.Correct truth)
    (hcon : g.consulted (d.getHmdsFarm X) = some pC) :
    ∃ l : List Request, Holds g.newControl pC l ∧ l.Sublist log ∧
      (timesOf truth log (truth X)).Sublist (l.map Request.time) := by
  unfold consulted at hcon
  split at hcon
  · obtain rfl := Option.some.inj hcon
    exact ⟨log, h.books.global, .refl _, List.filter_sublist.map _⟩
  · rename_i hg
    obtain ⟨hF, hcl⟩ := not_or.1 hg
    obtain ⟨-, hh⟩ := h.books.hmds _ _ hcon
    refine ⟨_, hh, List.filter_sublist, ?_⟩
    have hempty := laziesAreCleared_iff.1 (by simpa using hcl)
    have heq : (log.filter fun r => truth r.exchange = truth X) =
        ofFarm d g log (d.getHmdsFarm X) := by
      refine List.filter_congr fun r hr => decide_eq_decide.2 ⟨fun ht => ?_, fun hp => ?_⟩
      · have hl : r.exchange ∉ g.controlLazy := by
          intro hl
          obtain ⟨c, hcl'⟩ := exists_getElem? hl
          have hnil := (h.books.lazy _ _ hcl').times
          rw [hempty _ _ hcl', eq_comm, List.map_eq_nil_iff] at hnil
          exact absurd (List.mem_filter.2 ⟨hr, by simp⟩) (hnil ▸ List.not_mem_nil)
        have hm := (h.books.home r hr).resolve_left hl
        have hne : d.getHmdsFarm r.exchange ≠ "" := fun he => h.books.empty_notMem (he ▸ hm)
        exact ⟨by rw [hc _ hne, hc _ hF, ht], hl⟩
      · rw [← hc _ hF, ← hp.1, hc _ (hp.1 ▸ hF)]
    rw [timesOf, heq]

end PacingGod

namespace PacedWorld

variable {w w' : PacedWorld} {e : PacedEvent} {evs : List PacedEvent} {d₀ : DataFarmStates}
variable {now₀ r i m v : ℤ}

/-- The parameters stay when a request is tried, -/
theorem newControl_issue {c : Contract} {later : ℤ} (hk : w.toPacingWorld.Kept)
    (h : w.issue c later = .ok w') : w'.god.newControl = w.god.newControl := by
  obtain ⟨g₁, -, -, -, hfil, -, -, -, ⟨-, -, g₂, g', hfil', -, hu, rfl⟩ | ⟨-, rfl⟩⟩ :=
    issue_cases hk h
  · rw [← hfil.global_eq.2, ← hfil'.global_eq.2]
    cases hu <;> rfl
  · exact hfil.global_eq.2

/-- and so they do in every step. -/
theorem newControl_step (hk : w.toPacingWorld.Kept) (hs : Step truth w e w') :
    w'.god.newControl = w.god.newControl := by
  cases hs with
  | other he hstep =>
      cases otherBy_of_step hk he hstep with
      | clock | learn => rfl
      | ask hfil => exact hfil.global_eq.2
      | notify _ hfil _ hu => rw [← hfil.global_eq.2]; cases hu <;> rfl
  | request _ _ hok => exact newControl_issue hk hok

/-- What a step keeps: the requests to each farm have their distances. The
log is as long as requests are numbered. -/
structure Limited (truth : String → String) (r i m v : ℤ) (w : PacedWorld) : Prop where
  kept : w.toPacingWorld.Kept
  correct : w.farms.Correct truth
  params : w.god.newControl = PacingGod.newControl (.new r i m v)
  count : (w.log.length : ℤ) = w.currentRequest.reqId
  bound : w.currentRequest.reqId ≤ INT_MAX
  apart : ∀ F, (timesOf truth w.log F).Pairwise fun s t => s + m ≤ t
  spaced : ∀ F, Spaced r.toNat i (timesOf truth w.log F)

/-- The control consulted has the parameters of the run. -/
theorem Limited.consulted (h : Limited truth r i m v w) {X : String} {g₁ : PacingGod}
    {pC : PacingControl} (hfil : Filed w.farms w.log w.god g₁) (hs : Settled w.farms w.log X g₁)
    (hcon : g₁.consulted (w.farms.getHmdsFarm X) = some pC) :
    PacingControl.SameParams (PacingGod.newControl (.new r i m v)) pC ∧ pC.InStep ∧ pC.Ordered ∧
      (pC.dateTimes.length : ℤ) ≤ INT_MAX ∧
      (timesOf truth w.log (truth X)).Sublist pC.dateTimes := by
  obtain ⟨l, hh, hl, hsub⟩ := hs.covered h.correct hcon
  have hparams := hh.params
  rw [hfil.global_eq.2, h.params] at hparams
  refine ⟨hparams, hh.inStep, ?_, ?_, hh.times ▸ hsub⟩
  · rw [PacingControl.Ordered, hh.times]
    exact hs.books.ordered.sublist (hl.map _)
  · have hle := hl.length_le
    have hc := h.count
    have hb := h.bound
    rw [hh.times, List.length_map]
    omega

/-- What lets a request go is a free history. -/
theorem Limited.free (h : Limited truth r i m v w) (hr : 1 ≤ r) (hr' : InInt r) {c : Contract}
    {g₁ : PacingGod} {pC : PacingControl} {wait : ℤ} (hfit : w.TimesFit c)
    (hadd : w.god.checkAdd w.farms c = .ok (g₁, c.exchange, w.farms.getHmdsFarm c.exchange))
    (hfil : Filed w.farms w.log w.god g₁) (hs : Settled w.farms w.log c.exchange g₁)
    (hcon : g₁.consulted (w.farms.getHmdsFarm c.exchange) = some pC)
    (hq : pC.goodTime w.now = .ok wait) (hw : wait ≤ 0) : pC.Free w.now := by
  obtain ⟨hparams, hstep, -, hlen, -⟩ := h.consulted hfil hs hcon
  have hmax : pC.maxRequests = r := hparams.1
  have hfit' : pC.TimesFit w.now := by
    rw [TimesFit, hadd] at hfit
    exact hfit pC hcon
  have hi : InInt (pC.dateTimes.length - pC.maxRequests) := by
    unfold InInt INT_MIN INT_MAX at *
    omega
  obtain ⟨wait', hq', hiff⟩ := PacingControl.goodTime_spec hstep (hmax ▸ hr) hi hfit'
  obtain rfl : wait = wait' := by simpa [hq] using hq'
  exact hiff.1 hw

/-- **A request that is tried keeps the limits** when only a free history
lets it go. -/
theorem Limited.issued (h : Limited truth r i m v w) (hr : 1 ≤ r) {c : Contract} {later : ℤ}
    (hfree : ∀ {g₁ : PacingGod} {pC : PacingControl} {wait : ℤ},
      w.god.checkAdd w.farms c = .ok (g₁, c.exchange, w.farms.getHmdsFarm c.exchange) →
      Filed w.farms w.log w.god g₁ → Settled w.farms w.log c.exchange g₁ →
      g₁.consulted (w.farms.getHmdsFarm c.exchange) = some pC →
      pC.goodTime w.now = .ok wait → wait ≤ 0 → pC.Free w.now)
    (hl : w.now ≤ later) (hok : w.issue c later = .ok w') : Limited truth r i m v w' := by
  have hk' := kept_issue h.kept hl hok
  have hp' := (newControl_issue h.kept hok).trans h.params
  obtain ⟨g₁, pC, wait, hadd, hfil, hset, hcon, hq, ⟨hw, hi⟩ | ⟨-, rfl⟩⟩ :=
    issue_cases h.kept hok
  · -- the control that let it go holds all that went to its farm
    obtain ⟨⟨hmax, hint, hmin, -⟩, -, hord, -, hsub⟩ := h.consulted hfil hset hcon
    obtain ⟨hnear, hburst⟩ :=
      (hfree hadd hfil hset hcon hq hw).distance hord (hmax ▸ hr) hsub
    rw [hmin] at hnear
    rw [hmax, hint] at hburst
    obtain ⟨hnum, g₂, g', -, -, -, rfl⟩ := hi
    refine ⟨hk', h.correct, hp', ?_, ?_, fun F => ?_, fun F => ?_⟩
    · simpa using h.count
    · simpa using Int.add_one_le_of_lt hnum
    · rw [timesOf_concat]
      split
      · rename_i hF
        subst hF
        refine List.pairwise_append.2 ⟨h.apart _, by simp, fun s hs t ht => ?_⟩
        obtain rfl := List.mem_singleton.1 ht
        exact (hnear s hs).trans hl
      · simpa using h.apart F
    · rw [timesOf_concat]
      split
      · rename_i hF
        subst hF
        exact (h.spaced _).snoc (by omega) fun a hk ha => (hburst a hk ha).trans hl
      · simpa using h.spaced F
  · exact ⟨hk', h.correct, hp', h.count, h.bound, h.apart, h.spaced⟩

/-- **A step keeps the limits.** -/
theorem Limited.step (h : Limited truth r i m v w) (hr : 1 ≤ r) (hr' : InInt r)
    (hs : Step truth w e w') : Limited truth r i m v w' := by
  cases hs with
  | other he hstep =>
      have hs := Step.other he hstep
      have hk' := kept_step h.kept hs
      have hp' := (newControl_step h.kept hs).trans h.params
      cases otherBy_of_step h.kept he hstep with
      | clock | ask => exact ⟨hk', h.correct, hp', h.count, h.bound, h.apart, h.spaced⟩
      | learn _ hc => exact ⟨hk', hc, hp', h.count, h.bound, h.apart, h.spaced⟩
      | notify =>
          refine ⟨hk', h.correct, hp', ?_, h.bound, ?_, ?_⟩
          · simpa using h.count
          · simpa using h.apart
          · simpa using h.spaced
  | request hfit hl hok => exact h.issued hr (h.free hr hr' hfit) hl hok

/-- Before the first request there is nothing to limit. -/
theorem limited_start (hc : d₀.Correct truth) :
    Limited truth r i m v (start now₀ d₀ r i m v) where
  kept := ⟨books_new _ _ _ _ _, by simp [start, PacingWorld.start],
    by simp [start, PacingWorld.start]⟩
  correct := hc
  params := rfl
  count := rfl
  bound := show (0 : ℤ) ≤ INT_MAX by decide
  apart _ := .nil
  spaced _ := .nil

/-- **The pacing limits of each farm.** In every run, no window of
`checkInterval` holds more than `maxRequests` of the requests that truly
go to one farm, and two of them are at least `minPacingTime` apart. -/
theorem pacing_limits (hr : 1 ≤ r) (hr' : InInt r) (hc : d₀.Correct truth)
    (h : Run (Step truth) (start now₀ d₀ r i m v) evs w) (F : String) :
    (∀ a, (((timesOf truth w.log F).filter fun t => a ≤ t ∧ t < a + i).length : ℤ) ≤ r) ∧
      (timesOf truth w.log F).Pairwise fun s t => s + m ≤ t := by
  have hlim := h.invariant (limited_start hc) fun _ _ _ hI hs => hI.step hr hr' hs
  refine ⟨fun a => ?_, hlim.apart F⟩
  have hord : (timesOf truth w.log F).Pairwise (· ≤ ·) :=
    hlim.kept.books.ordered.sublist (List.filter_sublist.map _)
  have := (hlim.spaced F).length_window_le hord a
  omega

/-- Two requests for an exchange; before the second its farm is learned,
and the lazy control becomes the farm's. -/
theorem pacing_limits_learned : ∃ w,
    Run (Step fun _ => "euhmds") (start 0 {} 60 605000 1000 60000)
      [.request { exchange := "IBIS" } 5,
        .other (.learn { hLearn := TreeMap.ofList [("IBIS", "euhmds")] }),
        .other (.clock 1010), .request { exchange := "IBIS" } 1012] w ∧
      timesOf (fun _ => "euhmds") w.log "euhmds" = [5, 1012] ∧
      [5, 1012].Pairwise fun (s t : ℤ) => s + 1000 ≤ t := by
  have hlog : (([.request { exchange := "IBIS" } 5,
      .other (.learn { hLearn := TreeMap.ofList [("IBIS", "euhmds")] }),
      .other (.clock 1010), .request { exchange := "IBIS" } 1012] : List PacedEvent).foldlM
        (next fun _ => "euhmds") (start 0 {} 60 605000 1000 60000)).map
          (fun w => timesOf (fun _ => "euhmds") w.log "euhmds") = some [5, 1012] := by
    decide +kernel
  obtain ⟨w, hw, hl⟩ := Option.map_eq_some_iff.1 hlog
  have hrun := Run.of_foldlM (fun _ _ _ => step_of_next) hw
  refine ⟨w, hrun, hl, ?_⟩
  have := (pacing_limits (by decide) (by decide) (by decide) hrun "euhmds").2
  rwa [hl] at this

end PacedWorld

end Twstools
