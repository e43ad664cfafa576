import Twstools.Pacing.God
import Mathlib.Data.List.Sort
import Mathlib.Logic.Relation
/-!
# What the controls hold

Next to a god stands the log of the requests it was told of. `Books` says
how the controls are kept: the global one holds the whole log, a lazy one
the requests for its exchange, and a farm's the requests for the exchanges
that belong to it and are not lazy any more. Filing an exchange keeps the
books (`Books.filed`), so `checkAdd` does, and after it no lazy exchange
has a known farm (`Settled`). Every other operation is `checkAdd` and one
look at the control it then finds.
-/

namespace Twstools

open Std

/-- A recorded request: the exchange it was for, when, and whether a
pacing violation was notified for it. -/
structure Request where
  exchange : String
  time : ℤ
  violated : Bool := false
  deriving DecidableEq

namespace PacingGod

variable {g g' g₁ : PacingGod} {d d' : DataFarmStates} {log log' : List Request} {lazyC : String}
variable {pC : PacingControl} {now : ℤ}

/-- The control holds the time stamps of `log`, and the parameters of a
new one. -/
structure Holds (new pC : PacingControl) (log : List Request) : Prop where
  inStep : pC.InStep
  params : PacingControl.SameParams new pC
  times : pC.dateTimes = log.map Request.time

/-- The requests of `log` for the exchange `X`. -/
def ofExchange (log : List Request) (X : String) : List Request :=
  log.filter fun r => r.exchange = X

/-- The requests of `log` for the exchanges that belong to `F` and have no
lazy control. -/
def ofFarm (d : DataFarmStates) (g : PacingGod) (log : List Request) (F : String) :
    List Request :=
  log.filter fun r => d.getHmdsFarm r.exchange = F ∧ r.exchange ∉ g.controlLazy

/-- How the controls are kept. -/
structure Books (d : DataFarmStates) (log : List Request) (g : PacingGod) : Prop where
  ordered : (log.map Request.time).Pairwise (· ≤ ·)
  global : Holds g.newControl g.controlGlobal log
  lazy : ∀ (X : String) (pC : PacingControl), g.controlLazy[X]? = some pC →
    Holds g.newControl pC (ofExchange log X)
  hmds : ∀ (F : String) (pC : PacingControl), g.controlHmds[F]? = some pC →
    F ≠ "" ∧ Holds g.newControl pC (ofFarm d g log F)
  home : ∀ r ∈ log, r.exchange ∈ g.controlLazy ∨ d.getHmdsFarm r.exchange ∈ g.controlHmds

/-- Nothing recorded, nothing held. -/
theorem books_new (d : DataFarmStates) (r i m v : ℤ) : Books d [] (new r i m v) where
  ordered := .nil
  global := ⟨rfl, ⟨rfl, rfl, rfl, rfl⟩, rfl⟩
  lazy := by simp [new]
  hmds := by simp [new]
  home := by simp

namespace Books

theorem empty_notMem (h : Books d log g) : "" ∉ g.controlHmds := by
  intro he
  obtain ⟨pC, hpC⟩ := exists_getElem? he
  exact (h.hmds _ _ hpC).1 rfl

theorem ofFarm_ordered (h : Books d log g) (F : String) :
    ((ofFarm d g log F).map Request.time).Pairwise (· ≤ ·) :=
  h.ordered.sublist (List.filter_sublist.map _)

theorem ofExchange_ordered (h : Books d log g) (X : String) :
    ((ofExchange log X).map Request.time).Pairwise (· ≤ ·) :=
  h.ordered.sublist (List.filter_sublist.map _)

/-- A known farm's exchange is not lazy only if the farm has its control:
without one there is nothing for it in the log. -/
theorem ofFarm_eq_nil (h : Books d log g) {F : String} (hF : F ∉ g.controlHmds) :
    ofFarm d g log F = [] := by
  rw [ofFarm, List.filter_eq_nil_iff]
  rintro r hr hp
  obtain ⟨rfl, hl⟩ : d.getHmdsFarm r.exchange = F ∧ r.exchange ∉ g.controlLazy := by simpa using hp
  exact hF ((h.home r hr).resolve_left hl)

/-- **Learning a farm leaves the books as they are**: until the next
`checkAdd` its exchange keeps the lazy control. -/
theorem learn (h : Books d log g) (hk : d.KeepsFarms d') : Books d' log g where
  ordered := h.ordered
  global := h.global
  lazy := h.lazy
  hmds F pC hpC := by
    obtain ⟨hF, hh⟩ := h.hmds F pC hpC
    refine ⟨hF, ?_⟩
    have : ofFarm d' g log F = ofFarm d g log F := by
      refine List.filter_congr fun r hr => ?_
      by_cases hl : r.exchange ∈ g.controlLazy
      · simp [hl]
      · have hm := (h.home r hr).resolve_left hl
        have hne : d.getHmdsFarm r.exchange ≠ "" := fun he => h.empty_notMem (he ▸ hm)
        rw [hk _ hne]
    rwa [this]
  home r hr := by
    rcases h.home r hr with hl | hm
    · exact .inl hl
    · have hne : d.getHmdsFarm r.exchange ≠ "" := fun he => h.empty_notMem (he ▸ hm)
      exact .inr (by rwa [hk _ hne])

/-! ## Filing -/

/-- Erasing an exchange from the lazies changes what other farms hold in
nothing. -/
private theorem ofFarm_erase_ne {F : String} (hF : d.getHmdsFarm lazyC ≠ F)
    (hg : g'.controlLazy = g.controlLazy.erase lazyC) : ofFarm d g' log F = ofFarm d g log F := by
  refine List.filter_congr fun r _ => ?_
  rw [hg]
  by_cases hx : r.exchange = lazyC
  · simp [hx, hF]
  · simp [TreeMap.mem_erase, Ne.symm hx]

/-- And its own farm then holds what it held and the exchange's requests. -/
private theorem ofFarm_erase_perm (d : DataFarmStates) (log : List Request)
    (hl : lazyC ∈ g.controlLazy)
    (hg : g'.controlLazy = g.controlLazy.erase lazyC) :
    (ofFarm d g log (d.getHmdsFarm lazyC) ++ ofExchange log lazyC).Perm
      (ofFarm d g' log (d.getHmdsFarm lazyC)) := by
  have h := List.filter_append_perm (fun r : Request => decide (r.exchange ≠ lazyC))
    (ofFarm d g' log (d.getHmdsFarm lazyC))
  have h1 : (ofFarm d g' log (d.getHmdsFarm lazyC)).filter
      (fun r => decide (r.exchange ≠ lazyC)) = ofFarm d g log (d.getHmdsFarm lazyC) := by
    rw [ofFarm, ofFarm, List.filter_filter]
    refine List.filter_congr fun r _ => ?_
    rw [hg]
    by_cases hx : r.exchange = lazyC
    · simp [hx, hl]
    · simp [TreeMap.mem_erase, hx, Ne.symm hx]
  have h2 : (ofFarm d g' log (d.getHmdsFarm lazyC)).filter
      (fun r => !decide (r.exchange ≠ lazyC)) = ofExchange log lazyC := by
    rw [ofFarm, ofExchange, List.filter_filter]
    refine List.filter_congr fun r _ => ?_
    rw [hg]
    by_cases hx : r.exchange = lazyC
    · simp [hx]
    · simp [hx]
  rwa [h1, h2] at h

/-- A control that takes up the exchange's requests in order holds what its
farm is to hold. -/
private theorem holds_erase (h : Books d log g) {hC : PacingControl}
    (hl : lazyC ∈ g.controlLazy) (hg : g'.controlLazy = g.controlLazy.erase lazyC)
    (hn : g'.newControl = g.newControl) (hs : hC.InStep)
    (hp : PacingControl.SameParams g.newControl hC) (ho : hC.Ordered)
    (ht : hC.dateTimes.Perm
      ((ofFarm d g log (d.getHmdsFarm lazyC) ++ ofExchange log lazyC).map Request.time)) :
    Holds g'.newControl hC (ofFarm d g' log (d.getHmdsFarm lazyC)) where
  inStep := hs
  params := hn ▸ hp
  times := by
    have hperm := ht.trans ((ofFarm_erase_perm d log hl hg).map _)
    exact hperm.eq_of_pairwise' ho (h.ordered.sublist (List.filter_sublist.map _))

/-- **The exchange leaves the lazies** and leaves its requests at its farm,
with a control that takes them up. -/
theorem of_erase (h : Books d log g) {hC : PacingControl} (hF : d.getHmdsFarm lazyC ≠ "")
    (hm : lazyC ∈ g.controlLazy) (hs : hC.InStep)
    (hp : PacingControl.SameParams g.newControl hC) (ho : hC.Ordered)
    (ht : hC.dateTimes.Perm
      ((ofFarm d g log (d.getHmdsFarm lazyC) ++ ofExchange log lazyC).map Request.time)) :
    Books d log { g with
      controlLazy := g.controlLazy.erase lazyC
      controlHmds := g.controlHmds.insert (d.getHmdsFarm lazyC) hC } where
  ordered := h.ordered
  global := h.global
  lazy X c hX := forall_erase_key h.lazy X c hX
  hmds F c hc := by
    rcases getElem?_insert_cases hc with ⟨rfl, rfl⟩ | ⟨hne, hc⟩
    · exact ⟨hF, holds_erase h hm rfl rfl hs hp ho ht⟩
    · obtain ⟨hF', hh'⟩ := h.hmds F c hc
      refine ⟨hF', ?_⟩
      rwa [ofFarm_erase_ne (g := g) (Ne.symm hne) rfl]
  home r hr := by
    rcases h.home r hr with hl | hm
    · by_cases hx : lazyC = r.exchange
      · subst hx; exact .inr (by simp)
      · exact .inl (by simp [TreeMap.mem_erase, hx, hl])
    · exact .inr (by simp [hm])

/-- **A farm gets a control without a history** when nothing was recorded
for it. -/
theorem of_create (h : Books d log g) (hF : d.getHmdsFarm lazyC ≠ "")
    (hh : d.getHmdsFarm lazyC ∉ g.controlHmds) :
    Books d log { g with
      controlHmds := g.controlHmds.insert (d.getHmdsFarm lazyC) g.newControl } where
  ordered := h.ordered
  global := h.global
  lazy := h.lazy
  hmds F c hc := by
    rcases getElem?_insert_cases hc with ⟨rfl, rfl⟩ | ⟨-, hc⟩
    · have hnil := h.ofFarm_eq_nil hh
      exact ⟨hF, rfl, .refl _, (congrArg (List.map Request.time) hnil).symm⟩
    · exact h.hmds F c hc
  home r hr := (h.home r hr).imp_right fun hm => by simp [hm]

/-- **A new exchange of an unknown farm** becomes lazy: nothing was recorded
for it. -/
theorem of_createLazy (h : Books d log g) (hF : d.getHmdsFarm lazyC = "")
    (hl : lazyC ∉ g.controlLazy) :
    Books d log { g with controlLazy := g.controlLazy.insert lazyC g.newControl } := by
  have hno : ∀ r ∈ log, r.exchange ≠ lazyC := by
    rintro r hr rfl
    exact h.empty_notMem (hF ▸ (h.home r hr).resolve_left hl)
  refine ⟨h.ordered, h.global, fun X c hX => ?_, fun F c hc => ?_, fun r hr => ?_⟩
  · rcases getElem?_insert_cases hX with ⟨rfl, rfl⟩ | ⟨-, hX⟩
    · have hnil : ofExchange log X = [] := by
        rw [ofExchange, List.filter_eq_nil_iff]
        simpa using hno
      exact ⟨rfl, .refl _, by rw [hnil]; rfl⟩
    · exact h.lazy X c hX
  · obtain ⟨hF', hh'⟩ := h.hmds F c hc
    have hsame : ofFarm d g log F = ofFarm d { g with
        controlLazy := g.controlLazy.insert lazyC g.newControl } log F :=
      List.filter_congr fun r hr => by simp [Ne.symm (hno r hr)]
    exact ⟨hF', hsame ▸ hh'⟩
  · exact (h.home r hr).imp_left fun hm => by simp [hm]

/-- **Filing an exchange keeps the books.** -/
theorem filed (h : Books d log g) (hf : FiledBy d lazyC g g') : Books d log g' := by
  cases hf with
  | known | stay => exact h
  | @move pC hF hh hl =>
      have hpC := h.lazy _ _ hl
      have hnil : ofFarm d g log (d.getHmdsFarm lazyC) = [] :=
        h.ofFarm_eq_nil (notMem_of_getElem? hh)
      have hop : pC.Ordered := by
        rw [PacingControl.Ordered, hpC.times]
        exact h.ofExchange_ordered _
      refine h.of_erase hF (mem_of_getElem? hl) hpC.inStep hpC.params hop ?_
      rw [hnil, List.nil_append, hpC.times]
  | create hF hh hl => exact h.of_create hF (notMem_of_getElem? hh)
  | @merge hC pC hC' hF hh hl hmg =>
      have hpC := h.lazy _ _ hl
      obtain ⟨-, hhC⟩ := h.hmds _ _ hh
      obtain ⟨c', hc', hstep, hparams, hent⟩ := PacingControl.merge_eq_ok hhC.inStep hpC.inStep
      obtain rfl : hC' = c' := by simpa [hmg] using hc'
      have hoh : hC.Ordered := by
        rw [PacingControl.Ordered, hhC.times]
        exact h.ofFarm_ordered _
      have hop : pC.Ordered := by
        rw [PacingControl.Ordered, hpC.times]
        exact h.ofExchange_ordered _
      obtain ⟨hord, hperm⟩ :=
        PacingControl.dateTimes_merge hhC.inStep hpC.inStep hoh hop hstep hent
      refine h.of_erase hF (mem_of_getElem? hl) hstep (hhC.params.trans hparams) hord ?_
      rwa [List.map_append, ← hhC.times, ← hpC.times]
  | createLazy hF hl => exact h.of_createLazy hF hl

end Books

/-! ## After `checkAdd` -/

/-- The chain of filings one `checkAdd` makes. -/
def Filed (d : DataFarmStates) (log : List Request) : PacingGod → PacingGod → Prop :=
  Relation.ReflTransGen fun g g' => Books d log g ∧ ∃ lazyC, FiledBy d lazyC g g'

/-- The books after `checkAdd` for `lazyC`: no lazy exchange has a known
farm, and the control for `lazyC` is there. -/
structure Settled (d : DataFarmStates) (log : List Request) (lazyC : String) (g : PacingGod) :
    Prop where
  books : Books d log g
  unknown : ∀ X ∈ g.controlLazy, d.getHmdsFarm X = ""
  here : if d.getHmdsFarm lazyC = "" then lazyC ∈ g.controlLazy
    else d.getHmdsFarm lazyC ∈ g.controlHmds

namespace FiledBy

/-- Filing takes no other exchange off the lazies and adds none but its
own. -/
theorem mem_lazy {X : String} (h : FiledBy d X g g') (Y : String) :
    Y ∈ g'.controlLazy ↔ if Y = X then d.getHmdsFarm X = "" else Y ∈ g.controlLazy := by
  by_cases hY : Y = X
  · subst hY
    rw [if_pos rfl]
    cases h with
    | move hF | merge hF => exact iff_of_false (by simp) hF
    | create hF _ hn => exact iff_of_false (notMem_of_getElem? hn) hF
    | known hF _ hn => exact iff_of_false hn hF
    | createLazy hF => simp [hF]
    | stay hF hm => exact iff_of_true hm hF
  · rw [if_neg hY]
    cases h with
    | move | merge => simp [TreeMap.mem_erase, Ne.symm hY]
    | create | known | stay => rfl
    | createLazy => simp [Ne.symm hY]

/-- No farm loses its control, and the exchange's farm has one if known. -/
theorem mem_hmds {X : String} (h : FiledBy d X g g') :
    (∀ F ∈ g.controlHmds, F ∈ g'.controlHmds) ∧
      (d.getHmdsFarm X ≠ "" → d.getHmdsFarm X ∈ g'.controlHmds) := by
  cases h with
  | move | create | merge => exact ⟨fun F hF => by simp [hF], fun _ => by simp⟩
  | known _ hm => exact ⟨fun _ hF => hF, fun _ => hm⟩
  | createLazy hF | stay hF => exact ⟨fun _ h => h, fun h => absurd hF h⟩

/-- The global control and the parameters are not touched. -/
theorem global_eq {X : String} (h : FiledBy d X g g') :
    g'.controlGlobal = g.controlGlobal ∧ g'.newControl = g.newControl := by
  cases h <;> exact ⟨rfl, rfl⟩

end FiledBy

theorem Filed.global_eq (h : Filed d log g g') :
    g'.controlGlobal = g.controlGlobal ∧ g'.newControl = g.newControl := by
  induction h with
  | refl => exact ⟨rfl, rfl⟩
  | tail _ hs ih =>
      obtain ⟨-, X, hf⟩ := hs
      exact ⟨hf.global_eq.1.trans ih.1, hf.global_eq.2.trans ih.2⟩

/-- **`checkAdd` settles the books** and fails nowhere. -/
theorem checkAdd_ok (h : Books d log g) (c : Contract) :
    ∃ g', g.checkAdd d c = .ok (g', c.exchange, d.getHmdsFarm c.exchange) ∧
      Filed d log g g' ∧ Settled d log c.exchange g' := by
  -- the invariant of the loop, with the exchanges of `rest` still to be filed
  let I : List String → PacingGod → Prop := fun rest g' =>
    Filed d log g g' ∧ Books d log g' ∧
      (∀ X ∈ g'.controlLazy, X ∈ rest ∨ d.getHmdsFarm X = "") ∧
      (c.exchange ∈ rest ∨ if d.getHmdsFarm c.exchange = "" then c.exchange ∈ g'.controlLazy
        else d.getHmdsFarm c.exchange ∈ g'.controlHmds)
  have hstep : ∀ X rest b, I (X :: rest) b → ∃ b', checkAddOne d b X = .ok b' ∧ I rest b' := by
    rintro X rest b ⟨hfil, hb, hlazy, hhere⟩
    obtain ⟨b', hok, hf⟩ := checkAddOne_ok d X hb.empty_notMem
      (fun F c hc => (hb.hmds F c hc).2.inStep) (fun Y c hc => (hb.lazy Y c hc).inStep)
    refine ⟨b', hok, hfil.tail ⟨hb, X, hf⟩, hb.filed hf, fun Y hY => ?_, ?_⟩
    · rw [hf.mem_lazy] at hY
      split at hY
      · rename_i hYX; subst hYX; exact .inr hY
      · rename_i hYX
        rcases hlazy Y hY with hr | hu
        · exact .inl ((List.mem_cons.1 hr).resolve_left hYX)
        · exact .inr hu
    · rcases hhere with hr | hh
      · rcases List.mem_cons.1 hr with rfl | hr
        · refine .inr ?_
          split
          · rename_i hu; rw [hf.mem_lazy, if_pos rfl]; exact hu
          · rename_i hk; exact hf.mem_hmds.2 hk
        · exact .inl hr
      · refine .inr ?_
        split
        · rename_i hu
          rw [if_pos hu] at hh
          rw [hf.mem_lazy]
          split
          · rename_i hc; rw [← hc]; exact hu
          · exact hh
        · rename_i hk
          rw [if_neg hk] at hh
          exact hf.mem_hmds.1 _ hh
  have hall : c.exchange ∈ g.lazies c.exchange := by
    by_cases hm : c.exchange ∈ g.controlLazy <;> simp [lazies, hm]
  obtain ⟨g', hg', hfil, hb, hlazy, hhere⟩ := Exec.foldlM_ok hstep (g.lazies c.exchange) g
    ⟨.refl, h, fun X hX => .inl (by simp [lazies, hX]), .inl hall⟩
  refine ⟨g', ?_, hfil, hb, fun X hX => (hlazy X hX).resolve_left (by simp),
    hhere.resolve_left (by simp)⟩
  simp only [checkAdd, DataFarmStates.lazyContractStr, hg', Exec.ok_bind]
  rfl

end PacingGod

end Twstools
