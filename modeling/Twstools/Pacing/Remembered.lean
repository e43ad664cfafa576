import Twstools.Pacing.Exact
import Twstools.Pacing.Limits
/-!
# Nothing is forgotten

`clear` shortens the histories of farms that are not up, `remove_last_request`
those of the last request. Where no history gets shorter (`Remembers`) a
clear has changed nothing, so that the books stay as they are.
-/

namespace Twstools

open Std

namespace PacingControl

variable {c : PacingControl} {now : ℤ}

/-- **A clear that forgets nothing** changes nothing. -/
theorem clear_eq_self (hs : c.InStep)
    (h : c.dateTimes.length ≤ (c.clear now).dateTimes.length) : c.clear now = c := by
  unfold clear at h ⊢
  split
  · rfl
  · rename_i back hb
    have hpos : 0 < c.dateTimes.length := by
      rw [List.length_pos_iff]
      rintro hnil
      rw [hnil] at hb
      cases hb
    rw [hb] at h
    dsimp only at h
    split at h
    · -- the only entry is young
      rename_i hy
      have hlen : c.dateTimes.length - 1 = 0 := by
        rw [List.length_drop] at h
        omega
      have hviol : c.violations.length - 1 = 0 := by
        rw [hs]
        exact hlen
      rw [if_pos hy, hlen, hviol]
      rfl
    · simp only [List.length_nil] at h
      omega

end PacingControl

namespace PacingGod

variable {g g' : PacingGod} {d : DataFarmStates} {log : List Request} {now : ℤ}

/-- **No control has become shorter**, as far as it is still there. -/
def Remembers (g g' : PacingGod) : Prop :=
  g.controlGlobal.dateTimes.length ≤ g'.controlGlobal.dateTimes.length ∧
    (∀ e ∈ g.controlHmds.toList, ∀ pC ∈ g'.controlHmds[e.1]?,
      e.2.dateTimes.length ≤ pC.dateTimes.length) ∧
    ∀ e ∈ g.controlLazy.toList, ∀ pC ∈ g'.controlLazy[e.1]?,
      e.2.dateTimes.length ≤ pC.dateTimes.length

instance (g g' : PacingGod) : Decidable (g.Remembers g') := inferInstanceAs (Decidable (_ ∧ _))

/-- The same controls are found in both. -/
structure Alike (g g' : PacingGod) : Prop where
  newControl : g'.newControl = g.newControl
  global : g'.controlGlobal = g.controlGlobal
  hmds : ∀ F : String, g'.controlHmds[F]? = g.controlHmds[F]?
  lazy : ∀ X : String, g'.controlLazy[X]? = g.controlLazy[X]?

/-- **The books are about what is found.** -/
theorem Books.alike (h : Books d log g) (ha : Alike g g') : Books d log g' := by
  have hmem : ∀ X, X ∈ g'.controlLazy ↔ X ∈ g.controlLazy := fun X => by
    rw [TreeMap.mem_iff_isSome_getElem?, TreeMap.mem_iff_isSome_getElem?, ha.lazy]
  have hmemF : ∀ F, F ∈ g'.controlHmds ↔ F ∈ g.controlHmds := fun F => by
    rw [TreeMap.mem_iff_isSome_getElem?, TreeMap.mem_iff_isSome_getElem?, ha.hmds]
  have hof : ∀ F, ofFarm d g' log F = ofFarm d g log F := fun F =>
    List.filter_congr fun r _ =>
      decide_eq_decide.2 (and_congr_right fun _ => not_congr (hmem _))
  refine ⟨h.ordered, ?_, fun X pC hX => ?_, fun F pC hF => ?_, fun r hr => ?_⟩
  · rw [ha.newControl, ha.global]
    exact h.global
  · rw [ha.newControl]
    exact h.lazy X pC (ha.lazy X ▸ hX)
  · rw [ha.newControl, hof]
    exact h.hmds F pC (ha.hmds F ▸ hF)
  · rw [hmem, hmemF]
    exact h.home r hr

/-! ## Clearing the inactive farms -/

/-- The loop of `clear`, one control of each farm of the list. -/
theorem getElem?_clearFarms (now : ℤ) (F : String) :
    ∀ {l : List String} (m : TreeMap String PacingControl),
    l.Nodup → (l.foldl (fun m farm => match m[farm]? with
        | some pC => m.insert farm (pC.clear now)
        | none => m) m)[F]? = if F ∈ l then (m[F]?).map (·.clear now) else m[F]?
  | [], m, _ => by simp
  | a :: l, m, hl => by
      obtain ⟨ha, hl⟩ := List.nodup_cons.1 hl
      rw [List.foldl_cons, getElem?_clearFarms now F _ hl]
      by_cases hF : F = a
      · subst hF
        rw [if_neg ha, if_pos List.mem_cons_self]
        cases hm : m[F]? with
        | none => simp [hm]
        | some pC => simp
      · have hstep : (match m[a]? with
            | some pC => m.insert a (pC.clear now)
            | none => m)[F]? = m[F]? := by
          cases m[a]? with
          | none => rfl
          | some pC => simp [TreeMap.getElem?_insert, Ne.symm hF]
        rw [hstep]
        simp [hF]

theorem nodup_getInactives (d : DataFarmStates) : d.getInactives.Nodup := by
  have h : (d.hStates.toList.map Prod.fst).Nodup := by
    rw [TreeMap.map_fst_toList_eq_keys]
    exact TreeMap.nodup_keys
  exact h.sublist (List.filter_sublist.map _)

/-- **A clear that forgets nothing** leaves the same controls. -/
theorem alike_clear (hb : Books d log g) (h : g.Remembers (g.clear d now)) :
    g.Alike (g.clear d now) := by
  obtain ⟨hglobal, hhmds, hlazy⟩ := h
  unfold clear at hglobal hhmds hlazy ⊢
  split at hglobal
  · rename_i hact
    rw [if_pos hact] at hhmds hlazy ⊢
    have hsame : ∀ {m : TreeMap String PacingControl},
        (∀ (X : String) (pC : PacingControl), m[X]? = some pC → pC.InStep) →
        (∀ e ∈ m.toList, ∀ pC ∈ (m.map fun _ pC => pC.clear now)[e.1]?,
          e.2.dateTimes.length ≤ pC.dateTimes.length) →
        ∀ X : String, (m.map fun _ pC => pC.clear now)[X]? = m[X]? := by
      intro m hs hm X
      rw [TreeMap.getElem?_map]
      cases hX : m[X]? with
      | none => rfl
      | some pC =>
          have hlen := hm (X, pC) (TreeMap.mem_toList_iff_getElem?_eq_some.2 hX) (pC.clear now)
            (by rw [TreeMap.getElem?_map, hX]; rfl)
          exact congrArg some (PacingControl.clear_eq_self (hs X pC hX) hlen)
    exact ⟨rfl, PacingControl.clear_eq_self hb.global.inStep hglobal,
      hsame (fun F pC hF => (hb.hmds F pC hF).2.inStep) hhmds,
      hsame (fun X pC hX => (hb.lazy X pC hX).inStep) hlazy⟩
  · rename_i hact
    rw [if_neg hact] at hhmds hlazy ⊢
    refine ⟨rfl, rfl, fun F => ?_, fun _ => rfl⟩
    have hget := getElem?_clearFarms now F g.controlHmds (nodup_getInactives d)
    refine hget.trans ?_
    split
    · rename_i hF
      cases hX : g.controlHmds[F]? with
      | none => rfl
      | some pC =>
          have hnew := hget.trans (by rw [if_pos hF, hX]; rfl : _ = some (pC.clear now))
          have hlen := hhmds (F, pC) (TreeMap.mem_toList_iff_getElem?_eq_some.2 hX) _ hnew
          exact congrArg some (PacingControl.clear_eq_self (hb.hmds F pC hX).2.inStep hlen)
    · rfl

end PacingGod

namespace PacedWorld

variable {truth : String → String} {w : PacedWorld} {g' : PacingGod} {r i m v : ℤ}

/-- **The limits are about what is found.** -/
theorem Limited.alike (h : Limited truth r i m v w) (ha : w.god.Alike g') :
    Limited truth r i m v { w with toPacingWorld := { w.toPacingWorld with god := g' } } where
  kept := ⟨h.kept.books.alike ha, h.kept.past, h.kept.last⟩
  correct := h.correct
  params := ha.newControl.trans h.params
  count := h.count
  bound := h.bound
  apart := h.apart
  spaced := h.spaced

/-- **What lets a request go is a free history**, however old it is, when
the parameters are `int`s: a deadline that is ahead is less than that
ahead. -/
theorem Limited.free_of_intParams (h : Limited truth r i m v w) (hr : 1 ≤ r)
    (hp : (PacingGod.newControl (.new r i m v)).IntParams) {X : String} {g₁ : PacingGod}
    {pC : PacingControl} {wait : ℤ} (hfil : PacingGod.Filed w.farms w.log w.god g₁)
    (hs : PacingGod.Settled w.farms w.log X g₁)
    (hcon : g₁.consulted (w.farms.getHmdsFarm X) = some pC)
    (hq : pC.goodTime w.now = .ok wait) (hw : wait ≤ 0) : pC.Free w.now := by
  obtain ⟨⟨hmax, hint, hmin, hviol⟩, hstep, -, hlen, -⟩ := h.consulted hfil hs hcon
  have hp' : pC.IntParams := by
    rw [PacingControl.IntParams, hmax, hint, hmin, hviol]
    exact hp
  have hpast : ∀ t ∈ pC.dateTimes, t ≤ w.now := by
    obtain ⟨l, hh, hl, -⟩ := hs.covered h.correct hcon
    intro t ht
    rw [hh.times] at ht
    obtain ⟨q, hq, rfl⟩ := List.mem_map.1 ht
    exact h.kept.past q (hl.subset hq)
  -- a deadline that is long past may wrap around, and then the request only waits
  obtain ⟨wait', hq', hiff⟩ := PacingControl.goodTime_wrapped hstep hp' hlen hpast
    fun _ => .inl (hmax ▸ hr)
  obtain rfl : wait = wait' := Except.ok.inj (hq.symm.trans hq')
  exact (hiff.1 hw).1

end PacedWorld

end Twstools
