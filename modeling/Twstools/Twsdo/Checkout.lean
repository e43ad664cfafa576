import Twstools.Pacing.Regular
import Twstools.Twsdo.Todo
/-!
# Choosing the next historical job

`checkoutOpt` counts the requests left for each farm, asks the god for the
quota of each, and takes the first request of an unknown farm, or of the
farm with most of them left. With a quota somewhere it never waits longer
than `minPacingTime`: the control that has told of a quota is the one that
is asked for the time.
-/

namespace Twstools

open Std

/-- `countLeft` is positive for the contract. -/
def PacingGod.HasQuota (g : PacingGod) (d : DataFarmStates) (now : ℤ) (c : Contract) : Prop :=
  ∃ g' left, g.countLeft d now c = .ok (g', left) ∧ 0 < left

namespace HistTodo

variable {h h' : HistTodo} {g g' : PacingGod} {dfs : DataFarmStates} {now wait : ℤ}

/-- The farm a request goes to, as far as it is known. -/
def farmOf (dfs : DataFarmStates) (it : HistJob) : String :=
  dfs.getHmdsFarmOf it.request.ibContract

/-- The first request of a farm. -/
def firstOf (dfs : DataFarmStates) (l : List HistJob) (farm : String) : Option HistJob :=
  l.find? fun it => farmOf dfs it = farm

/-- How many requests a farm has. -/
def countOf (dfs : DataFarmStates) (l : List HistJob) (farm : String) : ℕ :=
  l.countP fun it => farmOf dfs it = farm

/-! ## The requests by farm -/

/-- The two maps hold the first request of each farm, and their number. -/
def Counted (dfs : DataFarmStates) (l : List HistJob)
    (m : TreeMap String HistJob × TreeMap String ℤ) : Prop :=
  ∀ farm, m.1[farm]? = firstOf dfs l farm ∧ (m.2[farm]?).getD 0 = countOf dfs l farm

theorem firstOf_concat {l : List HistJob} {it : HistJob} {farm : String} :
    firstOf dfs (l ++ [it]) farm =
      (firstOf dfs l farm).or (if farmOf dfs it = farm then some it else none) := by
  by_cases hf : farmOf dfs it = farm <;> simp [firstOf, hf]

theorem countOf_concat {l : List HistJob} {it : HistJob} {farm : String} :
    countOf dfs (l ++ [it]) farm =
      countOf dfs l farm + if farmOf dfs it = farm then 1 else 0 := by
  by_cases hf : farmOf dfs it = farm <;> simp [countOf, hf]

/-- A farm without a first request has none. -/
theorem countOf_eq_zero {l : List HistJob} {farm : String} (h : firstOf dfs l farm = none) :
    countOf dfs l farm = 0 := by
  rw [firstOf, List.find?_eq_none] at h
  rw [countOf, List.countP_eq_zero]
  exact h

theorem farmOf_of_firstOf {l : List HistJob} {it : HistJob} {farm : String}
    (h : firstOf dfs l farm = some it) : farmOf dfs it = farm := by
  simpa using List.find?_some h

theorem exists_firstOf {l : List HistJob} {it : HistJob} (hm : it ∈ l) :
    ∃ first, firstOf dfs l (farmOf dfs it) = some first := by
  rw [← Option.isSome_iff_exists, firstOf, List.find?_isSome]
  exact ⟨it, hm, by simp⟩

/-- A farm with one has some. -/
theorem countOf_pos {l : List HistJob} {it : HistJob} (hm : it ∈ l) :
    0 < countOf dfs l (farmOf dfs it) := by
  rw [countOf, List.countP_pos_iff]
  exact ⟨it, hm, by simp⟩

/-- **The first loop counts.** -/
theorem counted_countFarms {pre l : List HistJob}
    {m : TreeMap String HistJob × TreeMap String ℤ} (h : Counted dfs pre m) :
    Counted dfs (pre ++ l) (countFarms dfs l m) := by
  induction l generalizing pre m with
  | nil => simpa [countFarms] using h
  | cons it l ih =>
      obtain ⟨hashByFarm, countByFarm⟩ := m
      have hstep : Counted dfs (pre ++ [it])
          (if farmOf dfs it ∉ hashByFarm then
            (hashByFarm.insert (farmOf dfs it) it, countByFarm.insert (farmOf dfs it) 1)
          else (hashByFarm,
            countByFarm.insert (farmOf dfs it) ((countByFarm[farmOf dfs it]?).getD 0 + 1))) := by
        intro farm
        obtain ⟨hhash, hcount⟩ := h farm
        dsimp only at hhash hcount
        rw [firstOf_concat, countOf_concat, ← hhash]
        by_cases hf : farmOf dfs it = farm
        · subst hf
          by_cases hm : farmOf dfs it ∈ hashByFarm
          · -- one more of a farm that has been there
            simp [hm, hcount]
          · have hnone := getElem?_of_notMem hm
            simp [hm, countOf_eq_zero (hhash.symm.trans hnone)]
        · rw [if_neg hf, if_neg hf, Option.or_none, Nat.add_zero, ← hcount]
          split <;> simp [TreeMap.getElem?_insert, hf]
      rw [List.append_cons]
      exact ih hstep

/-- The maps hold the first request of each farm, and how many it has. -/
theorem counted_leftRequests (l : List HistJob) : Counted dfs l (countFarms dfs l (∅, ∅)) := by
  have hnone : Counted dfs [] (∅, ∅) := fun farm => by simp [firstOf, countOf]
  exact counted_countFarms hnone

theorem Counted.mem_toList {l : List HistJob} {m : TreeMap String HistJob × TreeMap String ℤ}
    (h : Counted dfs l m) {farm : String} {it : HistJob} :
    (farm, it) ∈ m.1.toList ↔ firstOf dfs l farm = some it := by
  rw [TreeMap.mem_toList_iff_getElem?_eq_some, (h farm).1]

/-! ## The farm with a quota -/

/-- A request has a quota if its farm's control has something left. -/
theorem hasQuota_iff {P : ℤ → Prop} {D : String → PacingControl} {left : String → ℤ}
    (hans : g.Answers P dfs D) (hleft : ∀ farm, (D farm).countLeft now = .ok (left farm))
    (it : HistJob) : g.HasQuota dfs now it.request.ibContract ↔ 0 < left (farmOf dfs it) := by
  obtain ⟨g₁, -, hq⟩ := hans.consult .countLeftGlobal .countLeftFarm (·.countLeft now)
    it.request.ibContract
  simp only [hleft, Exec.ok_bind, Exec.pure_eq_ok] at hq
  constructor
  · rintro ⟨g', n, hn, hpos⟩
    rw [PacingGod.countLeft, hq] at hn
    rw [← (Prod.mk.inj (Except.ok.inj hn)).2] at hpos
    exact hpos
  · intro hpos
    exact ⟨g₁, _, hq, hpos⟩

/-- The request the second loop selects: one of a farm with a quota, which
is unknown or has more requests left than `n` and than all others with a
quota; or the one given, if there is no such farm. -/
def Picked (left count : String → ℤ) (l : List (String × HistJob)) (todo_hR : HistJob) (n : ℤ)
    (job : HistJob) : Prop :=
  (∃ farm, (farm, job) ∈ l ∧ 0 < left farm ∧
    (farm = "" ∨ n < count farm ∧ ∀ e ∈ l, 0 < left e.1 → e.1 ≠ "" ∧ count e.1 ≤ count farm)) ∨
  job = todo_hR ∧ ∀ e ∈ l, 0 < left e.1 → e.1 ≠ "" ∧ count e.1 ≤ n

/-- A farm that is passed over. -/
theorem Picked.skip {left count : String → ℤ} {l : List (String × HistJob)}
    {todo_hR it job : HistJob} {farm : String} {n : ℤ} (h : Picked left count l todo_hR n job)
    (hs : 0 < left farm → farm ≠ "" ∧ count farm ≤ n) :
    Picked left count ((farm, it) :: l) todo_hR n job := by
  rcases h with ⟨farm', hm, hpos, hc⟩ | ⟨rfl, hall⟩
  · refine .inl ⟨farm', List.mem_cons_of_mem _ hm, hpos, hc.imp_right ?_⟩
    rintro ⟨hlt, hall⟩
    exact ⟨hlt, List.forall_mem_cons.2 ⟨fun hq => ⟨(hs hq).1, (hs hq).2.trans hlt.le⟩, hall⟩⟩
  · exact .inr ⟨rfl, List.forall_mem_cons.2 ⟨hs, hall⟩⟩

/-- A farm that is selected for now. -/
theorem Picked.take {left count : String → ℤ} {l : List (String × HistJob)}
    {todo_hR it job : HistJob} {farm : String} {n : ℤ}
    (h : Picked left count l it (count farm) job) (hq : 0 < left farm) (hne : farm ≠ "")
    (hn : n < count farm) : Picked left count ((farm, it) :: l) todo_hR n job := by
  rcases h with ⟨farm', hm, hpos, hc⟩ | ⟨rfl, hall⟩
  · refine .inl ⟨farm', List.mem_cons_of_mem _ hm, hpos, hc.imp_right ?_⟩
    rintro ⟨hlt, hall⟩
    exact ⟨hn.trans hlt, List.forall_mem_cons.2 ⟨fun _ => ⟨hne, hlt.le⟩, hall⟩⟩
  · exact .inl ⟨farm, List.mem_cons_self, hq, .inr ⟨hn,
      List.forall_mem_cons.2 ⟨fun _ => ⟨hne, le_rfl⟩, hall⟩⟩⟩

/-- **The second loop selects**, and asks each control no more than it is
to be asked. -/
theorem selectFarm_spec {P : ℤ → Prop} {D : String → PacingControl} {left : String → ℤ}
    {countByFarm : TreeMap String ℤ}
    (hleft : ∀ farm, (D farm).countLeft now = .ok (left farm)) (l : List (String × HistJob))
    (todo_hR : HistJob) (n : ℤ) (hans : g.Answers P dfs D)
    (hfarm : ∀ e ∈ l, farmOf dfs e.2 = e.1) :
    ∃ g' job, selectFarm dfs now countByFarm l g todo_hR n = .ok (g', job) ∧
      g'.Answers P dfs D ∧
      Picked left (fun farm => (countByFarm[farm]?).getD 0) l todo_hR n job := by
  induction l generalizing g todo_hR n with
  | nil => exact ⟨g, todo_hR, rfl, hans, .inr ⟨rfl, fun e he => absurd he List.not_mem_nil⟩⟩
  | cons e l ih =>
      obtain ⟨farm, it⟩ := e
      rw [List.forall_mem_cons] at hfarm
      obtain ⟨hit, hrest⟩ := hfarm
      obtain ⟨g₁, hans₁, hq⟩ := hans.consult .countLeftGlobal .countLeftFarm
        (·.countLeft now) it.request.ibContract
      have hit' : dfs.getHmdsFarm it.request.ibContract.exchange = farm := hit
      simp only [hit', hleft, Exec.ok_bind, Exec.pure_eq_ok] at hq
      rw [selectFarm, PacingGod.countLeft, hq, Exec.ok_bind]
      dsimp only
      obtain ⟨g', job, hok, hans', hpick⟩ := ih todo_hR n hans₁ hrest
      by_cases hpos : left farm > 0
      · rw [if_pos hpos]
        by_cases hempty : farm = ""
        · -- an unknown farm ends the loop
          rw [if_pos hempty]
          exact ⟨g₁, it, rfl, hans₁, .inl ⟨farm, List.mem_cons_self, hpos, .inl hempty⟩⟩
        rw [if_neg hempty]
        by_cases hn : n < (countByFarm[farm]?).getD 0
        · rw [if_pos hn]
          obtain ⟨g', job, hok, hans', hpick⟩ := ih it ((countByFarm[farm]?).getD 0) hans₁ hrest
          exact ⟨g', job, hok, hans', hpick.take hpos hempty hn⟩
        · rw [if_neg hn]
          exact ⟨g', job, hok, hans', hpick.skip fun _ => ⟨hempty, by omega⟩⟩
      · rw [if_neg hpos]
        exact ⟨g', job, hok, hans', hpick.skip fun hq => absurd hq hpos⟩

/-! ## The request that is chosen -/

/-- The first request left of a farm with a quota, and no farm with a quota
has more of them left. -/
def FromLongest (h : HistTodo) (g : PacingGod) (dfs : DataFarmStates) (now : ℤ)
    (job : HistJob) : Prop :=
  g.HasQuota dfs now job.request.ibContract ∧
    firstOf dfs h.leftRequests (farmOf dfs job) = some job ∧
    ∀ it ∈ h.leftRequests, g.HasQuota dfs now it.request.ibContract →
      countOf dfs h.leftRequests (farmOf dfs it) ≤ countOf dfs h.leftRequests (farmOf dfs job)

/-- The choice: the first request left of an unknown farm, if that one has
a quota, and otherwise one from the longest list. -/
def Chosen (h : HistTodo) (g : PacingGod) (dfs : DataFarmStates) (now : ℤ) (job : HistJob) :
    Prop :=
  (∀ first, firstOf dfs h.leftRequests "" = some first →
    g.HasQuota dfs now first.request.ibContract → job = first) ∧
  ((∀ first, firstOf dfs h.leftRequests "" = some first →
    ¬ g.HasQuota dfs now first.request.ibContract) → h.FromLongest g dfs now job)

/-- What the second loop picks is chosen, once some request has a quota. -/
theorem chosen_of_picked {left count : String → ℤ} {l : List (String × HistJob)}
    {first job : HistJob}
    (hquota : ∀ it : HistJob, g.HasQuota dfs now it.request.ibContract ↔
      0 < left (farmOf dfs it))
    (hl : ∀ (farm : String) (it : HistJob), (farm, it) ∈ l ↔
      firstOf dfs h.leftRequests farm = some it)
    (hcount : ∀ farm, count farm = countOf dfs h.leftRequests farm)
    (hpick : Picked left count l first 0 job)
    (hex : ∃ it ∈ h.leftRequests, g.HasQuota dfs now it.request.ibContract) :
    h.Chosen g dfs now job ∧ 0 < left (farmOf dfs job) := by
  have hentry : ∀ it ∈ h.leftRequests, ∃ first, (farmOf dfs it, first) ∈ l := by
    intro it hit
    obtain ⟨first, hfirst⟩ : ∃ first, firstOf dfs h.leftRequests (farmOf dfs it) = some first :=
      exists_firstOf hit
    exact ⟨first, (hl _ _).2 hfirst⟩
  rcases hpick with ⟨farm, hm, hpos, hc⟩ | ⟨-, hall⟩
  · have hfirst := (hl _ _).1 hm
    obtain rfl := farmOf_of_firstOf hfirst
    refine ⟨⟨fun u hu hq => ?_, fun hun => ?_⟩, hpos⟩
    · rcases hc with hempty | ⟨-, hall⟩
      · rw [hempty, hu] at hfirst
        exact (Option.some.inj hfirst).symm
      · have := (hquota u).1 hq
        rw [farmOf_of_firstOf hu] at this
        exact absurd rfl (hall _ ((hl _ _).2 hu) this).1
    · refine ⟨(hquota job).2 hpos, hfirst, fun it hit hq => ?_⟩
      rcases hc with hempty | ⟨-, hall⟩
      · rw [hempty] at hfirst
        exact absurd ((hquota job).2 hpos) (hun job hfirst)
      · obtain ⟨first, hm'⟩ := hentry it hit
        have := (hall _ hm' ((hquota it).1 hq)).2
        rw [hcount, hcount] at this
        exact_mod_cast this
  · obtain ⟨it, hit, hq⟩ := hex
    obtain ⟨first, hm⟩ := hentry it hit
    have hle := (hall _ hm ((hquota it).1 hq)).2
    have hpos : 0 < countOf dfs h.leftRequests (farmOf dfs it) := countOf_pos hit
    rw [hcount] at hle
    dsimp only at hle
    omega

/-- **`checkoutOpt` never idles while a farm has a quota.** It chooses a
request with a quota and tells to wait no longer than `minPacingTime`. In
any case the request it chose leaves the list when there is no time to
wait, and nothing changes when there is. -/
theorem checkoutOpt_never_idles (hg : g.Reachable now) (hm : 1 ≤ g.maxRequests)
    (hi : InInt g.maxRequests) (hfit : g.TimesFit now) (hnone : h.checkedOutRequest = none)
    (hne : h.leftRequests ≠ [])
    (hptr : ∀ a ∈ h.leftRequests, ∀ b ∈ h.leftRequests, a.ptr = b.ptr → a = b) :
    ∃ h' g' wait job l₁ l₂, h.checkoutOpt g dfs now = .ok (h', g', wait) ∧
      h.leftRequests = l₁ ++ job :: l₂ ∧
      (wait ≤ 0 →
        h' = { h with leftRequests := l₁ ++ l₂, checkedOutRequest := some job }) ∧
      (0 < wait → h' = h) ∧
      ((∃ it ∈ h.leftRequests, g.HasQuota dfs now it.request.ibContract) →
        h.Chosen g dfs now job ∧ wait ≤ max 0 g.minPacingTime) := by
  obtain ⟨D, hans, hreg⟩ := (hg.regular.fits hfit).answers dfs
  -- the two questions, and their answers for each farm
  choose left wait hleft hwait hbound using fun farm =>
    PacingControl.quota_wait (hreg farm) (show 1 ≤ g.newControl.maxRequests from hm)
      (show InInt g.newControl.maxRequests from hi)
  rcases hmaps : countFarms dfs h.leftRequests (∅, ∅) with ⟨hashByFarm, countByFarm⟩
  have hcounted : Counted dfs h.leftRequests (hashByFarm, countByFarm) :=
    hmaps ▸ counted_leftRequests h.leftRequests
  obtain ⟨first, hfirst⟩ := Option.isSome_iff_exists.1 (List.isSome_head?.2 hne)
  obtain ⟨g₁, job, hsel, hans₁, hpick⟩ := selectFarm_spec hleft hashByFarm.toList first 0 hans
    fun e he => farmOf_of_firstOf (hcounted.mem_toList.1 he)
  have hjob : job ∈ h.leftRequests := by
    rcases hpick with ⟨farm, hm, -⟩ | ⟨rfl, -⟩
    · exact List.mem_of_find?_eq_some (hcounted.mem_toList.1 hm)
    · exact List.mem_of_mem_head? hfirst
  -- the list is searched for a pointer, and no other request has it
  obtain ⟨a, l₁, l₂, -, ha, hsplit, herase⟩ :=
    List.exists_of_eraseP (p := fun it : HistJob => decide (it.ptr = job.ptr)) hjob (by simp)
  obtain rfl : a = job := hptr a (by rw [hsplit]; simp) job hjob (by simpa using ha)
  -- counting has filed requests, which leaves the answers as they are
  obtain ⟨g₂, -, hq⟩ := hans₁.consult .goodTimeGlobal .goodTimeFarm (·.goodTime now)
    a.request.ibContract
  simp only [hwait, Exec.ok_bind, Exec.pure_eq_ok] at hq
  have hchosen : (∃ it ∈ h.leftRequests, g.HasQuota dfs now it.request.ibContract) →
      h.Chosen g dfs now a ∧ 0 < left (farmOf dfs a) :=
    chosen_of_picked (hasQuota_iff hans hleft) (fun _ _ => hcounted.mem_toList)
      (fun farm => (hcounted farm).2) hpick
  have hrun : h.checkoutOpt g dfs now =
      if wait (farmOf dfs a) ≤ 0 then
        .ok ({ h with
          leftRequests := l₁ ++ l₂, checkedOutRequest := some a }, g₂, wait (farmOf dfs a))
      else .ok (h, g₂, wait (farmOf dfs a)) := by
    have hfound : ∃ it ∈ h.leftRequests, it.ptr = a.ptr := ⟨a, hjob, rfl⟩
    simp only [checkoutOpt, Exec.ensure_of_true hnone, Exec.ok_bind, hmaps, hfirst, deref, hsel,
      Exec.ensure_of_true hfound, PacingGod.goodTime, hq, herase]
    rfl
  by_cases hw : wait (farmOf dfs a) ≤ 0
  · rw [if_pos hw] at hrun
    exact ⟨_, _, _, a, l₁, l₂, hrun, hsplit, fun _ => rfl, fun hpos => absurd hpos (by omega),
      fun hex => ⟨(hchosen hex).1, hbound _ (hchosen hex).2⟩⟩
  · rw [if_neg hw] at hrun
    exact ⟨_, _, _, a, l₁, l₂, hrun, hsplit, fun hle => absurd hle hw, fun _ => rfl,
      fun hex => ⟨(hchosen hex).1, hbound _ (hchosen hex).2⟩⟩

/-- A second after a request for IBIS: two requests for GLOBEX are left and
one for IBIS, which would have to wait. -/
theorem checkoutOpt_never_idles_globex :
    let farms : DataFarmStates :=
      { hLearn := TreeMap.ofList [("IBIS", "euhmds"), ("GLOBEX", "ilhmds")] }
    let job (ptr : ℕ) (exchange : String) : HistJob :=
      { ptr := ptr, request := { ibContract := { exchange := exchange } } }
    ∃ g, PacingGod.init.addRequest farms 0 { exchange := "IBIS" } = .ok g ∧
      ∃ h' g' wait, checkoutOpt { leftRequests := [job 0 "IBIS", job 1 "GLOBEX", job 2 "GLOBEX"] }
          g farms 1000 = .ok (h', g', wait) ∧ wait ≤ 1500 := by
  intro farms job
  have hrun : (PacingGod.init.addRequest farms 0 { exchange := "IBIS" }).toOption.map
      (fun g => decide (1 ≤ g.maxRequests ∧ InInt g.maxRequests ∧ g.TimesFit 1000 ∧
        g.minPacingTime = 1500 ∧ (g.countLeft farms 1000 { exchange := "GLOBEX" }).toOption.map
          Prod.snd = some 60)) = some true := by
    decide +kernel
  obtain ⟨g, hg, hfacts⟩ := Option.map_eq_some_iff.1 hrun
  obtain ⟨hm, hi, hfit, hmin, hleft⟩ := of_decide_eq_true hfacts
  obtain ⟨⟨g₁, n⟩, hask, rfl⟩ := Option.map_eq_some_iff.1 hleft
  have hok := Exec.toOption_eq_some.1 hg
  have hreach : g.Reachable 1000 :=
    .clock (by decide) (.addRequest (.new 0 60 601000 1500 60000) hok)
  obtain ⟨h', g', wait, j, l₁, l₂, hout, -, -, -, hquota⟩ :=
    @checkoutOpt_never_idles { leftRequests := [job 0 "IBIS", job 1 "GLOBEX", job 2 "GLOBEX"] }
      g farms 1000 hreach hm hi hfit rfl (by simp) (by simp [job])
  refine ⟨g, hok, h', g', wait, hout, ?_⟩
  have hbound := (hquota ⟨job 1 "GLOBEX", by simp, g₁, 60, Exec.toOption_eq_some.1 hask,
    by decide⟩).2
  rw [hmin] at hbound
  exact hbound

end HistTodo

end Twstools
