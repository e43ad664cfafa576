import Twstools.Pacing.Operations
/-!
# What no operation breaks

Whatever is asked of a god and whatever farms it then finds, known or not,
its controls stay regular: a flag for each time stamp, the time stamps in
order, the parameters those of the god, and no control under the empty
farm. No log is needed for that. Of a regular god every contract can be
asked, and the answers do not depend on what was asked before
(`Answers.consult`): after the first `checkAdd` the later ones only add
controls without a history.
-/

namespace Twstools

open Std

namespace PacingControl

/-- A control with the parameters of a new one, whose time stamps are in
order and all have `P`. -/
structure Regular (P : ℤ → Prop) (new pC : PacingControl) : Prop where
  inStep : pC.InStep
  ordered : pC.Ordered
  params : SameParams new pC
  times : ∀ t ∈ pC.dateTimes, P t

variable {P Q : ℤ → Prop} {new pC other pC' : PacingControl} {now : ℤ}

namespace Regular

theorem mono (h : Regular P new pC) (hQ : ∀ t, P t → Q t) : Regular Q new pC :=
  { h with times := fun t ht => hQ t (h.times t ht) }

/-- Two controls merge into one. -/
theorem merge (h : Regular P new pC) (ho : Regular P new other)
    (hm : pC.merge other = .ok pC') : Regular P new pC' := by
  obtain ⟨c', hc', hstep, hparams, hent⟩ := merge_eq_ok h.inStep ho.inStep
  obtain rfl : pC' = c' := by simpa [hm] using hc'
  obtain ⟨hord, hperm⟩ := dateTimes_merge h.inStep ho.inStep h.ordered ho.ordered hstep hent
  refine ⟨hstep, hord, h.params.trans hparams, fun t ht => ?_⟩
  rcases List.mem_append.1 (hperm.mem_iff.1 ht) with ht | ht
  · exact h.times t ht
  · exact ho.times t ht

/-- A part of the history, in step with its flags. -/
theorem sublist (h : Regular P new pC) (hs : pC'.InStep) (hp : SameParams pC pC')
    (hd : pC'.dateTimes.Sublist pC.dateTimes) : Regular P new pC' :=
  ⟨hs, h.ordered.sublist hd, h.params.trans hp, fun t ht => h.times t (hd.subset ht)⟩

theorem addRequest (h : Regular (· ≤ now) new pC) :
    Regular (· ≤ now) new (pC.addRequest now) where
  inStep := h.inStep.addRequest
  ordered := by
    rw [Ordered, dateTimes_addRequest, List.pairwise_append]
    refine ⟨h.ordered, by simp, ?_⟩
    simpa using h.times
  params := h.params.trans sameParams_addRequest
  times := by
    intro t ht
    rw [dateTimes_addRequest, List.mem_append, List.mem_singleton] at ht
    rcases ht with ht | rfl
    · exact h.times t ht
    · exact le_rfl

theorem removeLastRequest (h : Regular P new pC) : Regular P new pC.removeLastRequest :=
  h.sublist h.inStep.removeLastRequest sameParams_removeLastRequest
    (dateTimes_removeLastRequest ▸ List.dropLast_sublist _)

theorem notifyViolation (h : Regular (· ≤ now) new pC) :
    Regular (· ≤ now) new (pC.notifyViolation now) := by
  by_cases hne : pC.dateTimes = []
  · -- the request TWS complains about comes first
    have hadd : (pC.notifyViolation now).dateTimes = (pC.addRequest now).dateTimes := by
      unfold PacingControl.notifyViolation
      rw [h.inStep.violations_isEmpty, if_pos (by simp [hne])]
    exact ⟨h.inStep.notifyViolation, by rw [Ordered, hadd]; exact h.addRequest.ordered,
      h.params.trans sameParams_notifyViolation, by rw [hadd]; exact h.addRequest.times⟩
  · exact h.sublist h.inStep.notifyViolation sameParams_notifyViolation
      (dateTimes_notifyViolation h.inStep hne ▸ List.Sublist.refl _)

theorem clear (h : Regular P new pC) : Regular P new (pC.clear now) := by
  unfold PacingControl.clear
  split
  · exact h
  · split
    · refine h.sublist ?_ (.refl pC) (List.drop_sublist _ _)
      have hlen : pC.violations.length = pC.dateTimes.length := h.inStep
      simp [InStep, hlen]
    · exact h.sublist rfl (.refl pC) (List.nil_sublist _)

theorem setPacingTime (h : Regular P new pC) (r i m : ℤ) :
    Regular P (new.setPacingTime r i m) (pC.setPacingTime r i m) :=
  ⟨h.inStep, h.ordered, ⟨rfl, rfl, rfl, h.params.2.2.2⟩, h.times⟩

theorem setViolationPause (h : Regular P new pC) (vP : ℤ) :
    Regular P (new.setViolationPause vP) (pC.setViolationPause vP) :=
  ⟨h.inStep, h.ordered, ⟨h.params.1, h.params.2.1, h.params.2.2.1, rfl⟩, h.times⟩

end Regular

/-! ## A quota leaves no pause but the least one -/

/-- The loop of `countLeft` takes one off for each recent request. -/
theorem countLeftLoop_eq {ts : List ℤ} {n : ℤ}
    (hfit : ∀ t ∈ ts, InInt (t + pC.checkInterval - now)) :
    pC.countLeftLoop now ts n =
      n - (ts.takeWhile fun t => 0 < t + pC.checkInterval - now).length := by
  induction ts generalizing n with
  | nil => simp [countLeftLoop]
  | cons t ts ih =>
      rw [List.forall_mem_cons] at hfit
      rw [countLeftLoop, toInt_eq hfit.1]
      split
      · rename_i ht
        rw [ih hfit.2, List.takeWhile_cons_of_pos (by simpa using ht), List.length_cons]
        push_cast
        omega
      · rename_i ht
        rw [List.takeWhile_cons_of_neg (by simpa using ht)]
        simp

/-- The time stamp is past, and the times that are computed from it fit in
an `int`. -/
structure Fits (new : PacingControl) (now t : ℤ) : Prop where
  past : t ≤ now
  burst : InInt (t + new.checkInterval - now)
  min : InInt (t + new.minPacingTime - now)
  viol : InInt (t + new.violationPause - now)

/-- The `maxRequests`-th latest request does not hold back a control with
a quota, whatever becomes of its index as an `int`. -/
theorem Regular.burst_wait (h : Regular (Fits new now) new pC) (hm : 1 ≤ new.maxRequests)
    (hi : InInt new.maxRequests) : ∃ b, pC.waitBurst now = .ok b ∧
      (0 < pC.countLeftLoop now pC.dateTimes.reverse pC.maxRequests → b ≤ 0) := by
  obtain ⟨hmax, hint, -, -⟩ := h.params
  unfold waitBurst
  by_cases hidx : 0 ≤ toInt (pC.dateTimes.length - pC.maxRequests)
  · have hle : toInt (pC.dateTimes.length - pC.maxRequests) ≤
        pC.dateTimes.length - pC.maxRequests := by
      refine toInt_le ?_
      have := hi.2
      unfold INT_MAX at this
      unfold INT_MIN
      omega
    rw [if_pos hidx]
    obtain ⟨n, hn⟩ := Int.eq_ofNat_of_zero_le hidx
    have hlt : n < pC.dateTimes.length := by omega
    have hget : pC.dateTimes[n]? = some pC.dateTimes[n] := List.getElem?_eq_getElem hlt
    have hfits := h.times _ (List.getElem_mem hlt)
    refine ⟨_, by rw [hn, Exec.atIndex_eq_ok hget]; rfl, fun hq => ?_⟩
    rw [countLeftLoop_eq fun t ht => hint ▸ (h.times t (List.mem_reverse.1 ht)).burst] at hq
    rw [toInt_eq (hint ▸ hfits.burst)]
    -- the index lies behind the requests that `countLeft` takes off
    have hrev : pC.dateTimes.reverse[pC.dateTimes.length - 1 - n]? = some pC.dateTimes[n] := by
      rw [List.getElem?_reverse (by omega), ← hget]
      congr 1
      omega
    have := not_above_of_takeWhile (List.pairwise_reverse.2 h.ordered)
      (p := fun t => decide (0 < t + pC.checkInterval - now))
      (fun a b hab ha => by simp only [decide_eq_true_eq] at ha ⊢; omega) (by omega) hrev
    simpa using this
  · rw [if_neg hidx]
    exact ⟨INT_MIN, rfl, fun _ => intMin_le_zero⟩

/-- **A control with a quota lets a request go after `minPacingTime` at the
latest.** Both questions are answered. -/
theorem quota_wait (h : Regular (Fits new now) new pC) (hm : 1 ≤ new.maxRequests)
    (hi : InInt new.maxRequests) :
    ∃ n w, pC.countLeft now = .ok n ∧ pC.goodTime now = .ok w ∧
      (0 < n → w ≤ max 0 new.minPacingTime) := by
  obtain ⟨-, -, hmin, -⟩ := h.params
  obtain ⟨b, hb, hburst⟩ := h.burst_wait hm hi
  have hzero := intMin_le_zero
  by_cases hne : pC.dateTimes = []
  · refine ⟨_, INT_MIN, countLeft_eq h.inStep, goodTime_nil hne, fun _ => ?_⟩
    omega
  · refine ⟨_, _, countLeft_eq h.inStep, by rw [goodTime_eq h.inStep hne, hb]; rfl, fun hn => ?_⟩
    have hwait : pC.waitMin now ≤ max 0 new.minPacingTime := by
      unfold waitMin
      cases hl : pC.dateTimes.getLast? with
      | none => exact hzero.trans (le_max_left _ _)
      | some back =>
          have hback := h.times back (List.mem_of_getLast? hl)
          have := hback.past
          rw [Option.elim_some, hmin, toInt_eq hback.min]
          omega
    split at hn
    · -- a violation that is not over leaves no quota
      exact absurd hn (lt_irrefl 0)
    · have := hburst hn
      simp only [swapMax_le]
      omega

end PacingControl

namespace PacingGod

variable {P Q : ℤ → Prop} {g g' M : PacingGod} {d : DataFarmStates} {X Y F : String} {now : ℤ}
variable {q : PacingControl → Exec Assertion ℤ} {D : String → PacingControl}

/-- All controls are regular, and none is under the empty farm. -/
structure Regular (P : ℤ → Prop) (g : PacingGod) : Prop where
  empty_notMem : "" ∉ g.controlHmds
  global : PacingControl.Regular P g.newControl g.controlGlobal
  hmds : ∀ (F : String) (pC : PacingControl), g.controlHmds[F]? = some pC →
    PacingControl.Regular P g.newControl pC
  lazy : ∀ (X : String) (pC : PacingControl), g.controlLazy[X]? = some pC →
    PacingControl.Regular P g.newControl pC

/-- A control without a history is regular. -/
theorem regular_newControl : PacingControl.Regular P g.newControl g.newControl :=
  ⟨rfl, List.Pairwise.nil, .refl _, fun _ ht => absurd ht List.not_mem_nil⟩

theorem regular_new (r i m v : ℤ) : (new r i m v).Regular P where
  empty_notMem := by simp [new]
  global := regular_newControl (g := new r i m v)
  hmds := by simp [new]
  lazy := by simp [new]

namespace Regular

theorem mono (h : g.Regular P) (hQ : ∀ t, P t → Q t) : g.Regular Q where
  empty_notMem := h.empty_notMem
  global := h.global.mono hQ
  hmds F pC hpC := (h.hmds F pC hpC).mono hQ
  lazy X pC hpC := (h.lazy X pC hpC).mono hQ

/-- **Filing an exchange keeps a god regular.** -/
theorem filed (h : g.Regular P) (hf : FiledBy d X g g') : g'.Regular P := by
  cases hf with
  | known | stay => exact h
  | move hF _ hl =>
      exact ⟨by simpa [mem_insert_iff, hF] using h.empty_notMem, h.global,
        forall_insert (h.lazy _ _ hl) h.hmds, forall_erase h.lazy⟩
  | create hF =>
      exact ⟨by simpa [mem_insert_iff, hF] using h.empty_notMem, h.global,
        forall_insert regular_newControl h.hmds, h.lazy⟩
  | merge hF hh hl hm =>
      exact ⟨by simpa [mem_insert_iff, hF] using h.empty_notMem, h.global,
        forall_insert ((h.hmds _ _ hh).merge (h.lazy _ _ hl) hm) h.hmds, forall_erase h.lazy⟩
  | createLazy =>
      exact ⟨h.empty_notMem, h.global, h.hmds, forall_insert regular_newControl h.lazy⟩

theorem checkAddOne_ok (h : g.Regular P) (d : DataFarmStates) (X : String) :
    ∃ g', checkAddOne d g X = .ok g' ∧ FiledBy d X g g' :=
  PacingGod.checkAddOne_ok d X h.empty_notMem (fun F pC hpC => (h.hmds F pC hpC).inStep)
    fun Y pC hpC => (h.lazy Y pC hpC).inStep

end Regular

/-! ## What is asked does not change the answers -/

/-- The exchange has its control. -/
def Here (d : DataFarmStates) (X : String) (g : PacingGod) : Prop :=
  if d.getHmdsFarm X = "" then X ∈ g.controlLazy else d.getHmdsFarm X ∈ g.controlHmds

/-- No lazy exchange has a known farm. -/
def Unknown (d : DataFarmStates) (g : PacingGod) : Prop :=
  ∀ X ∈ g.controlLazy, d.getHmdsFarm X = ""

/-- The control that answers for a farm, once the contract asked about has
been filed. -/
def answering (g : PacingGod) (farm : String) : PacingControl :=
  (g.consulted farm).getD g.newControl

theorem FiledBy.here (h : FiledBy d X g g') : Here d X g' := by
  unfold Here
  split
  · rename_i hF
    rw [h.mem_lazy, if_pos rfl]
    exact hF
  · rename_i hF
    exact h.mem_hmds.2 hF

theorem FiledBy.here_other (h : FiledBy d X g g') (hY : Here d Y g) : Here d Y g' := by
  unfold Here at hY ⊢
  split
  · rename_i hF
    rw [if_pos hF] at hY
    rw [h.mem_lazy]
    split
    · rename_i hYX
      rw [← hYX]
      exact hF
    · exact hY
  · rename_i hF
    rw [if_neg hF] at hY
    exact h.mem_hmds.1 _ hY

/-- With no known farm among the lazies, filing only adds controls without
a history. The answers stay. -/
theorem FiledBy.answering_eq (h : FiledBy d X g g') (hu : Unknown d g) :
    g'.answering = g.answering ∧ Unknown d g' := by
  cases h with
  | known | stay => exact ⟨rfl, hu⟩
  | move hF _ hl => exact absurd (hu X (mem_of_getElem? hl)) hF
  | merge hF _ hl => exact absurd (hu X (mem_of_getElem? hl)) hF
  | create hF hh hl =>
      refine ⟨funext fun F => ?_, hu⟩
      unfold answering consulted laziesAreCleared
      dsimp only
      split
      · rfl
      · rw [TreeMap.getElem?_insert]
        split
        · rename_i hFe
          obtain rfl := LawfulEqCmp.eq_of_compare hFe
          rw [hh]
          rfl
        · rfl
  | createLazy hF hl =>
      have hcleared : ({ g with controlLazy := g.controlLazy.insert X g.newControl } :
          PacingGod).laziesAreCleared = g.laziesAreCleared := by
        rw [Bool.eq_iff_iff, laziesAreCleared_iff, laziesAreCleared_iff]
        constructor
        · intro h Y pC hpC
          refine h Y pC ?_
          rw [TreeMap.getElem?_insert, if_neg fun hXY => ?_]
          · exact hpC
          · rw [LawfulEqCmp.eq_of_compare hXY] at hl
            exact hl (mem_of_getElem? hpC)
        · intro h
          exact forall_insert (P := fun pC : PacingControl => pC.dateTimes = []) rfl h
      refine ⟨funext fun F => ?_, fun Y hY => ?_⟩
      · unfold answering consulted
        rw [hcleared]
        rfl
      · rcases mem_insert_iff.1 hY with rfl | hY
        · exact hF
        · exact hu Y hY

/-- The exchanges that have lazy controls, filed one after the other. -/
def settle (d : DataFarmStates) (g : PacingGod) : Exec Assertion PacingGod :=
  g.controlLazy.keys.foldlM (checkAddOne d) g

/-- Whatever is asked of the god about a farm, the control `D` says
answers. -/
def Answers (P : ℤ → Prop) (d : DataFarmStates) (D : String → PacingControl) (g : PacingGod) :
    Prop :=
  ∃ M, g.settle d = .ok M ∧ M.Regular P ∧ Unknown d M ∧ (∀ X ∈ g.controlLazy, Here d X M) ∧
    M.answering = D

/-- **A regular god has its answers**, from regular controls. -/
theorem Regular.answers (h : g.Regular P) (d : DataFarmStates) :
    ∃ D, Answers P d D g ∧ ∀ F, PacingControl.Regular P g.newControl (D F) := by
  let I : List String → PacingGod → Prop := fun rest b =>
    b.Regular P ∧ b.newControl = g.newControl ∧
      (∀ X ∈ b.controlLazy, X ∈ rest ∨ d.getHmdsFarm X = "") ∧
      ∀ X ∈ g.controlLazy, X ∈ rest ∨ Here d X b
  have hstep : ∀ X rest b, I (X :: rest) b → ∃ b', checkAddOne d b X = .ok b' ∧ I rest b' := by
    rintro X rest b ⟨hb, hnew, hlazy, hhere⟩
    obtain ⟨b', hok, hf⟩ := hb.checkAddOne_ok d X
    refine ⟨b', hok, hb.filed hf, hf.global_eq.2.trans hnew, fun Y hY => ?_, fun Y hY => ?_⟩
    · rw [hf.mem_lazy] at hY
      split at hY
      · rename_i hYX
        rw [hYX]
        exact .inr hY
      · rename_i hYX
        exact (hlazy Y hY).imp_left fun hr => (List.mem_cons.1 hr).resolve_left hYX
    · rcases hhere Y hY with hr | hh
      · rcases List.mem_cons.1 hr with rfl | hr
        · exact .inr hf.here
        · exact .inl hr
      · exact .inr (hf.here_other hh)
  obtain ⟨M, hM, hreg, hnew, hlazy, hhere⟩ := Exec.foldlM_ok hstep g.controlLazy.keys g
    ⟨h, rfl, fun X hX => .inl (TreeMap.mem_keys.2 hX), fun X hX => .inl (TreeMap.mem_keys.2 hX)⟩
  refine ⟨M.answering, ⟨M, hM, hreg, fun X hX => (hlazy X hX).resolve_left List.not_mem_nil,
    fun X hX => (hhere X hX).resolve_left List.not_mem_nil, rfl⟩, fun F => ?_⟩
  rw [← hnew]
  unfold answering consulted
  split
  · exact hreg.global
  · cases hF : M.controlHmds[F]? with
    | none => exact regular_newControl
    | some pC => exact hreg.hmds F pC hF

/-- A god without a known farm among its lazies is settled. -/
theorem Regular.answers_self (h : g.Regular P) (hu : Unknown d g) : Answers P d g.answering g := by
  have hstay : ∀ l : List String, (∀ X ∈ l, X ∈ g.controlLazy) →
      l.foldlM (checkAddOne d) g = .ok g := by
    intro l hl
    induction l with
    | nil => rfl
    | cons X l ih =>
        rw [List.forall_mem_cons] at hl
        have hone : checkAddOne d g X = .ok g := by
          unfold checkAddOne
          simp [hu X hl.1, hl.1]
        rw [List.foldlM_cons, hone, Exec.ok_bind, ih hl.2]
  refine ⟨g, hstay _ fun X hX => TreeMap.mem_keys.1 hX, h, hu, fun X hX => ?_, rfl⟩
  rw [Here, if_pos (hu X hX)]
  exact hX

/-- `checkAdd` gives a god with the same answers, and the exchange has its
control. -/
theorem Answers.checkAdd (h : Answers P d D g) (c : Contract) :
    ∃ g₁, g.checkAdd d c = .ok (g₁, c.exchange, d.getHmdsFarm c.exchange) ∧ g₁.Regular P ∧
      Unknown d g₁ ∧ Here d c.exchange g₁ ∧ g₁.answering = D := by
  obtain ⟨M, hM, hreg, hu, hhere, rfl⟩ := h
  rw [settle] at hM
  by_cases hm : c.exchange ∈ g.controlLazy
  · have hl : g.lazies (DataFarmStates.lazyContractStr c) = g.controlLazy.keys := by
      rw [lazies, if_pos (by exact hm), List.append_nil]
    refine ⟨M, ?_, hreg, hu, hhere _ hm, rfl⟩
    simp only [PacingGod.checkAdd, hl, hM, Exec.ok_bind]
    rfl
  · have hl : g.lazies (DataFarmStates.lazyContractStr c) =
        g.controlLazy.keys ++ [c.exchange] := by
      rw [lazies, if_neg (by exact hm)]
      rfl
    obtain ⟨g₁, hok, hf⟩ := hreg.checkAddOne_ok d c.exchange
    obtain ⟨heq, hu₁⟩ := hf.answering_eq hu
    refine ⟨g₁, ?_, hreg.filed hf, hu₁, hf.here, heq⟩
    simp only [PacingGod.checkAdd, hl, List.foldlM_append, hM, List.foldlM_cons, List.foldlM_nil,
      hok, Exec.ok_bind]
    rfl

/-- **Each question gets the answer of the farm's control**, and leaves
the other answers as they are. -/
theorem Answers.consult (h : Answers P d D g) (globalSite farmSite : Assertion)
    (q : PacingControl → Exec Assertion ℤ) (c : Contract) :
    ∃ g₁, Answers P d D g₁ ∧ g.consult globalSite farmSite q d c =
      (do let t ← q (D (d.getHmdsFarm c.exchange)); pure (g₁, t)) := by
  obtain ⟨g₁, hok, hreg, hu, hhere, rfl⟩ := h.checkAdd c
  refine ⟨g₁, hreg.answers_self hu, ?_⟩
  unfold Here at hhere
  by_cases hg : d.getHmdsFarm c.exchange = "" ∨ g₁.laziesAreCleared = false
  · have hsite : (c.exchange ∈ g₁.controlLazy ∧ d.getHmdsFarm c.exchange ∉ g₁.controlHmds) ∨
        g₁.laziesAreCleared = false := by
      refine hg.imp_left fun hF => ?_
      rw [if_pos hF] at hhere
      exact ⟨hhere, hF ▸ hreg.empty_notMem⟩
    simp only [PacingGod.consult, hok, Exec.ok_bind, if_pos hg, Exec.ensure_of_true hsite,
      answering, consulted, Option.getD_some]
  · obtain ⟨hF, hcl⟩ := not_or.1 hg
    rw [if_neg hF] at hhere
    obtain ⟨pC, hpC⟩ := exists_getElem? hhere
    have hcl' : g₁.laziesAreCleared = true := by simpa using hcl
    simp only [PacingGod.consult, hok, Exec.ok_bind, if_neg hg, hpC, deref,
      Exec.ensure_of_true (Or.inr hcl' : _ ∨ g₁.laziesAreCleared = true), answering, consulted,
      Option.getD_some]

/-- All controls of the god. -/
def controls (g : PacingGod) : List PacingControl :=
  g.controlGlobal :: (g.controlHmds.toList ++ g.controlLazy.toList).map Prod.snd

/-- The times that are computed from the time stamps fit in an `int`. -/
def TimesFit (g : PacingGod) (now : ℤ) : Prop :=
  ∀ pC ∈ g.controls, ∀ t ∈ pC.dateTimes, InInt (t + g.checkInterval - now) ∧
    InInt (t + g.minPacingTime - now) ∧ InInt (t + g.violationPause - now)

instance (g : PacingGod) (now : ℤ) : Decidable (g.TimesFit now) :=
  inferInstanceAs (Decidable (∀ pC ∈ _, _))

theorem Regular.fits (h : g.Regular (· ≤ now)) (hf : g.TimesFit now) :
    g.Regular (PacingControl.Fits g.newControl now) := by
  have hall : ∀ pC : PacingControl, PacingControl.Regular (· ≤ now) g.newControl pC →
      pC ∈ g.controls →
      PacingControl.Regular (PacingControl.Fits g.newControl now) g.newControl pC := by
    intro pC hpC hin
    refine { hpC with times := fun t ht => ?_ }
    obtain ⟨hburst, hmin, hviol⟩ := hf pC hin t ht
    exact ⟨hpC.times t ht, hburst, hmin, hviol⟩
  have hvalue : ∀ {m : TreeMap String PacingControl} {k : String} {pC : PacingControl},
      m[k]? = some pC → pC ∈ m.toList.map Prod.snd := fun hk =>
    List.mem_map.2 ⟨_, TreeMap.mem_toList_iff_getElem?_eq_some.2 hk, rfl⟩
  refine ⟨h.empty_notMem, hall _ h.global List.mem_cons_self,
    fun F pC hpC => hall pC (h.hmds F pC hpC) ?_, fun X pC hpC => hall pC (h.lazy X pC hpC) ?_⟩
  · rw [controls, List.map_append]
    exact List.mem_cons_of_mem _ (List.mem_append_left _ (hvalue hpC))
  · rw [controls, List.map_append]
    exact List.mem_cons_of_mem _ (List.mem_append_right _ (hvalue hpC))

/-! ## Every state -/

/-- The states of a god: what its operations make of a new one at times
that do not go back, whatever farms they find known. -/
inductive Reachable : ℤ → PacingGod → Prop
  | new (now r i m v : ℤ) : Reachable now (.new r i m v)
  | clock {now now' : ℤ} {g : PacingGod} : now ≤ now' → Reachable now g → Reachable now' g
  | setPacingTime {now : ℤ} {g : PacingGod} (r i m : ℤ) :
      Reachable now g → Reachable now (g.setPacingTime r i m)
  | setViolationPause {now : ℤ} {g : PacingGod} (vP : ℤ) :
      Reachable now g → Reachable now (g.setViolationPause vP)
  | clear {now : ℤ} {g : PacingGod} (d : DataFarmStates) :
      Reachable now g → Reachable now (g.clear d now)
  | addRequest {now : ℤ} {g g' : PacingGod} {d : DataFarmStates} {c : Contract} :
      Reachable now g → g.addRequest d now c = .ok g' → Reachable now g'
  | removeLastRequest {now : ℤ} {g g' : PacingGod} {d : DataFarmStates} {c : Contract} :
      Reachable now g → g.removeLastRequest d c = .ok g' → Reachable now g'
  | notifyViolation {now : ℤ} {g g' : PacingGod} {d : DataFarmStates} {c : Contract} :
      Reachable now g → g.notifyViolation d now c = .ok g' → Reachable now g'
  | goodTime {now wait : ℤ} {g g' : PacingGod} {d : DataFarmStates} {c : Contract} :
      Reachable now g → g.goodTime d now c = .ok (g', wait) → Reachable now g'
  | countLeft {now left : ℤ} {g g' : PacingGod} {d : DataFarmStates} {c : Contract} :
      Reachable now g → g.countLeft d now c = .ok (g', left) → Reachable now g'

namespace Regular

/-- What one control's operation keeps is kept when all controls have it. -/
theorem mapped {f : PacingControl → PacingControl} (h : g.Regular P)
    (hf : ∀ pC, PacingControl.Regular P g.newControl pC →
      PacingControl.Regular P g'.newControl (f pC))
    (hglobal : g'.controlGlobal = f g.controlGlobal)
    (hhmds : g'.controlHmds = g.controlHmds.map fun _ pC => f pC)
    (hlazy : g'.controlLazy = g.controlLazy.map fun _ pC => f pC) : g'.Regular P := by
  refine ⟨by simpa [hhmds] using h.empty_notMem, hglobal ▸ hf _ h.global,
    fun F pC hpC => ?_, fun X pC hpC => ?_⟩
  · rw [hhmds, TreeMap.getElem?_map] at hpC
    obtain ⟨pC₀, hpC₀, rfl⟩ := Option.map_eq_some_iff.1 hpC
    exact hf _ (h.hmds F pC₀ hpC₀)
  · rw [hlazy, TreeMap.getElem?_map] at hpC
    obtain ⟨pC₀, hpC₀, rfl⟩ := Option.map_eq_some_iff.1 hpC
    exact hf _ (h.lazy X pC₀ hpC₀)

theorem clear (h : g.Regular P) (d : DataFarmStates) (now : ℤ) : (g.clear d now).Regular P := by
  unfold PacingGod.clear
  split
  · exact h.mapped (f := (·.clear now)) (fun pC hpC => hpC.clear) rfl rfl rfl
  · -- farm by farm
    let I : TreeMap String PacingControl → Prop := fun m =>
      "" ∉ m ∧ ∀ (F : String) (pC : PacingControl), m[F]? = some pC →
        PacingControl.Regular P g.newControl pC
    have replaced : ∀ m, I m → PacingGod.Regular P { g with controlHmds := m } :=
      fun m hI => ⟨hI.1, h.global, hI.2, h.lazy⟩
    refine replaced _ ?_
    refine List.foldlRecOn (motive := I) _ _ ⟨h.empty_notMem, h.hmds⟩ fun m hm farm _ => ?_
    split
    · rename_i pC hpC
      have hne : farm ≠ "" := by
        rintro rfl
        exact hm.1 (mem_of_getElem? hpC)
      exact ⟨by simpa [mem_insert_iff, hne] using hm.1,
        forall_insert (hm.2 farm pC hpC).clear hm.2⟩
    · exact hm

/-- **A change of the controls of one contract.** -/
theorem updated {f : PacingControl → PacingControl} {lazySite farmSite : Assertion} {c : Contract}
    (h : g.Regular P) (hf : ∀ new pC : PacingControl, PacingControl.Regular P new pC →
      PacingControl.Regular P new (f pC))
    (hu : g.update lazySite farmSite f d c = .ok g') : g'.Regular P := by
  obtain ⟨D, hD, -⟩ := h.answers d
  obtain ⟨g₁, hok, hreg, -, -, -⟩ := hD.checkAdd c
  simp only [update, hok, Exec.ok_bind] at hu
  split at hu
  · simp only [Exec.bind_eq_ok, Exec.deref_eq_ok] at hu
    obtain ⟨-, -, pC, hpC, hu⟩ := hu
    rw [← Except.ok.inj hu]
    exact ⟨hreg.empty_notMem, hf _ _ hreg.global, hreg.hmds,
      forall_insert (hf _ _ (hreg.lazy _ _ hpC)) hreg.lazy⟩
  · rename_i hF
    simp only [Exec.bind_eq_ok, Exec.deref_eq_ok] at hu
    obtain ⟨-, -, pC, hpC, hu⟩ := hu
    rw [← Except.ok.inj hu]
    exact ⟨by simpa [mem_insert_iff, hF] using hreg.empty_notMem, hf _ _ hreg.global,
      forall_insert (hf _ _ (hreg.hmds _ _ hpC)) hreg.hmds, hreg.lazy⟩

end Regular

/-- **Every state of a god is regular**, its time stamps past. -/
theorem Reachable.regular (h : Reachable now g) : g.Regular (· ≤ now) := by
  have asked : ∀ {now t : ℤ} {g g' : PacingGod} {s s' : Assertion} {d : DataFarmStates}
      {q : PacingControl → Exec Assertion ℤ} {c : Contract}, g.Regular (· ≤ now) →
      g.consult s s' q d c = .ok (g', t) → g'.Regular (· ≤ now) := by
    intro now t g g' s s' d q c hreg hq
    obtain ⟨D, hD, -⟩ := hreg.answers d
    obtain ⟨g₁, hok, hreg₁, -, -, -⟩ := hD.checkAdd c
    simp only [consult, hok, Exec.ok_bind] at hq
    split at hq
    · simp only [Exec.bind_eq_ok] at hq
      obtain ⟨-, -, t, -, hq⟩ := hq
      rwa [← (Prod.mk.inj (Except.ok.inj hq)).1]
    · simp only [Exec.bind_eq_ok] at hq
      obtain ⟨-, -, pC, -, t, -, hq⟩ := hq
      rwa [← (Prod.mk.inj (Except.ok.inj hq)).1]
  induction h with
  | new now r i m v => exact regular_new r i m v
  | clock hle _ ih => exact ih.mono fun t ht => ht.trans hle
  | setPacingTime r i m _ ih =>
      exact ih.mapped (f := (·.setPacingTime r i m)) (fun pC hpC => hpC.setPacingTime r i m)
        rfl rfl rfl
  | setViolationPause vP _ ih =>
      exact ih.mapped (f := (·.setViolationPause vP)) (fun pC hpC => hpC.setViolationPause vP)
        rfl rfl rfl
  | clear d _ ih => exact ih.clear d _
  | addRequest _ hu ih => exact ih.updated (fun _ _ hpC => hpC.addRequest) hu
  | removeLastRequest _ hu ih => exact ih.updated (fun _ _ hpC => hpC.removeLastRequest) hu
  | notifyViolation _ hu ih => exact ih.updated (fun _ _ hpC => hpC.notifyViolation) hu
  | goodTime _ hq ih => exact asked ih hq
  | countLeft _ hq ih => exact asked ih hq

end PacingGod

end Twstools
