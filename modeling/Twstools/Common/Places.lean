import Twstools.Common.Tokens
import Mathlib.Data.List.Sort
/-!
# Where the tokens of a list are

A maximal run is a token in its place: elements that are no separators,
between separators or the ends of the list. `Enumerates` says that a list
of places and runs has all of them, in order; what it has are the tokens
(`Enumerates.map_snd`), so there are at most half as many as elements.
-/

namespace Twstools

variable {α : Type} {p : α → Bool} {l w g r v : List α} {i : ℕ} {rs rs' : List (ℕ × List α)}

/-- **A maximal run**, and where it begins. -/
structure MaximalRun (p : α → Bool) (l : List α) (i : ℕ) (w : List α) : Prop where
  ne_nil : w ≠ []
  inside : ∀ a ∈ w, p a = false
  cut : ∃ g r, l = g ++ w ++ r ∧ g.length = i ∧ (∀ a ∈ g.getLast?, p a = true) ∧
    ∀ a ∈ r.head?, p a = true

/-- All maximal runs of a list, in order. -/
structure Enumerates (p : α → Bool) (l : List α) (rs : List (ℕ × List α)) : Prop where
  ordered : rs.Pairwise (·.1 < ·.1)
  mem_iff : ∀ i w, (i, w) ∈ rs ↔ MaximalRun p l i w

/-- The runs of a list that has `n` elements more in front of it. -/
def shifted (n : ℕ) (rs : List (ℕ × List α)) : List (ℕ × List α) :=
  rs.map fun e => (n + e.1, e.2)

@[simp] theorem length_shifted {n : ℕ} : (shifted n rs).length = rs.length := List.length_map _

@[simp] theorem map_snd_shifted {n : ℕ} : (shifted n rs).map Prod.snd = rs.map Prod.snd := by
  simp [shifted]

theorem mem_shifted {n : ℕ} : (i, w) ∈ shifted n rs ↔ ∃ j, i = n + j ∧ (j, w) ∈ rs := by
  simp only [shifted, List.mem_map, Prod.mk.injEq, Prod.exists]
  constructor
  · rintro ⟨j, v, hm, rfl, rfl⟩
    exact ⟨j, rfl, hm⟩
  · rintro ⟨j, rfl, hm⟩
    exact ⟨j, w, hm, rfl, rfl⟩

/-! ## One run at a time -/

/-- What a run begins with. -/
theorem exists_head (hne : w ≠ []) (hw : ∀ a ∈ w, p a = false) :
    ∃ b v, w = b :: v ∧ p b ≠ true := by
  obtain ⟨b, v, rfl⟩ := List.exists_cons_of_ne_nil hne
  exact ⟨b, v, rfl, by simp [hw b]⟩

/-- Where a run that ends at a separator ends. -/
theorem eq_of_append_eq (hv : ∀ a ∈ v, p a = false) (hw : ∀ a ∈ w, p a = false)
    (hg : ∀ a ∈ g.head?, p a = true) (hr : ∀ a ∈ r.head?, p a = true)
    (h : v ++ g = w ++ r) : v = w := by
  rw [← takeWhile_token hv hg, h, takeWhile_token hw hr]

/-- **Behind separators** the runs are those of the rest. -/
theorem maximalRun_separators_append (hg : ∀ a ∈ g, p a = true) :
    MaximalRun p (g ++ l) i v ↔ ∃ j, i = g.length + j ∧ MaximalRun p l j v := by
  constructor
  · rintro ⟨hne, hin, g', r, hcut, rfl, hlast, hhead⟩
    rw [List.append_assoc] at hcut
    rcases List.append_eq_append_iff.1 hcut with ⟨g₁, rfl, rfl⟩ | ⟨g₁, rfl, hl⟩
    · refine ⟨g₁.length, List.length_append, hne, hin, g₁, r, (List.append_assoc ..).symm, rfl,
        fun a ha => ?_, hhead⟩
      refine hlast a ?_
      rw [List.getLast?_append, Option.mem_def.1 ha]
      rfl
    · -- the run would begin with one of the separators
      cases g₁ with
      | nil =>
          rw [List.nil_append] at hl
          exact ⟨0, by simp, hne, hin, [], r, by rw [← hl, List.nil_append], rfl, by simp, hhead⟩
      | cons a g₁ =>
          obtain ⟨b, v, rfl, hb⟩ := exists_head hne hin
          rw [List.cons_append, List.cons_append] at hl
          obtain ⟨rfl, -⟩ := List.cons.inj hl
          exact absurd (hg b (by simp)) hb
  · rintro ⟨j, rfl, hne, hin, g', r, rfl, rfl, hlast, hhead⟩
    refine ⟨hne, hin, g ++ g', r, by simp, List.length_append, fun a ha => ?_, hhead⟩
    rw [List.getLast?_append] at ha
    cases hg' : g'.getLast? with
    | none =>
        rw [hg', Option.none_or] at ha
        exact hg a (List.mem_of_getLast? ha)
    | some b =>
        rw [hg', Option.some_or] at ha
        exact hlast a (by rw [hg']; exact ha)

/-- **A token in front** is the first run, the others are those of the
rest. -/
theorem maximalRun_token_append (hne : w ≠ []) (hw : ∀ a ∈ w, p a = false)
    (hr : ∀ a ∈ r.head?, p a = true) :
    MaximalRun p (w ++ r) i v ↔ i = 0 ∧ v = w ∨ ∃ j, i = w.length + j ∧ MaximalRun p r j v := by
  constructor
  · rintro ⟨hvne, hin, g, r', hcut, rfl, hlast, hhead⟩
    rw [List.append_assoc] at hcut
    rcases List.append_eq_append_iff.1 hcut with ⟨g₁, rfl, rfl⟩ | ⟨w₁, rfl, hl⟩
    · refine .inr ⟨g₁.length, List.length_append, hvne, hin, g₁, r',
        (List.append_assoc ..).symm, rfl, fun a ha => ?_, hhead⟩
      refine hlast a ?_
      rw [List.getLast?_append, Option.mem_def.1 ha]
      rfl
    · rcases List.eq_nil_or_concat' g with rfl | ⟨g, b, rfl⟩
      · refine .inl ⟨rfl, eq_of_append_eq hin hw hhead hr ?_⟩
        rw [hl, List.nil_append]
      · -- what is before the run is in the token
        have hsep := hlast b (by simp)
        simp [hw b] at hsep
  · rintro (⟨rfl, rfl⟩ | ⟨j, rfl, hvne, hin, g, r', rfl, rfl, hlast, hhead⟩)
    · exact ⟨hne, hw, [], r, by simp, rfl, by simp, hr⟩
    · refine ⟨hvne, hin, w ++ g, r', by simp, List.length_append, fun a ha => ?_, hhead⟩
      -- the rest begins with a separator, so it is not the run that it begins with
      rcases List.eq_nil_or_concat' g with rfl | ⟨g, b, rfl⟩
      · obtain ⟨b, v, rfl, hb⟩ := exists_head hvne hin
        exact absurd (hr b rfl) hb
      · rw [← List.append_assoc, List.getLast?_concat] at ha
        exact hlast a (by rw [List.getLast?_concat]; exact ha)

/-! ## All of them -/

theorem enumerates_separators (hg : ∀ a ∈ g, p a = true) : Enumerates p g [] := by
  refine ⟨List.Pairwise.nil, fun i w => iff_of_false List.not_mem_nil ?_⟩
  rintro ⟨hne, hin, g', r, rfl, -⟩
  obtain ⟨a, w, rfl, ha⟩ := exists_head hne hin
  exact absurd (hg a (by simp)) ha

namespace Enumerates

theorem ordered_shifted (h : Enumerates p l rs) (n : ℕ) :
    (shifted n rs).Pairwise (·.1 < ·.1) :=
  List.pairwise_map.2 (h.ordered.imp fun hlt => Nat.add_lt_add_left hlt n)

/-- Separators in front. -/
theorem separators_append (h : Enumerates p l rs) (hg : ∀ a ∈ g, p a = true) :
    Enumerates p (g ++ l) (shifted g.length rs) where
  ordered := h.ordered_shifted _
  mem_iff i w := by simp only [mem_shifted, maximalRun_separators_append hg, h.mem_iff]

/-- A token in front. -/
theorem token_append (h : Enumerates p r rs) (hne : w ≠ []) (hw : ∀ a ∈ w, p a = false)
    (hr : ∀ a ∈ r.head?, p a = true) :
    Enumerates p (w ++ r) ((0, w) :: shifted w.length rs) where
  ordered := by
    refine List.pairwise_cons.2 ⟨fun e he => ?_, h.ordered_shifted _⟩
    obtain ⟨j, hj, -⟩ := mem_shifted.1 (show (e.1, e.2) ∈ _ from he)
    have := List.length_pos_iff.2 hne
    show 0 < e.1
    omega
  mem_iff i v := by
    simp only [List.mem_cons, Prod.mk.injEq, mem_shifted, maximalRun_token_append hne hw hr,
      h.mem_iff]

/-- The runs are enumerated in one way. -/
theorem unique (h : Enumerates p l rs) (h' : Enumerates p l rs') : rs = rs' := by
  have hperm : rs.Perm rs' := by
    have hnodup : ∀ {rs : List (ℕ × List α)}, Enumerates p l rs → rs.Nodup := fun h =>
      h.ordered.imp fun hlt he => by
        rw [he] at hlt
        exact lt_irrefl _ hlt
    exact (List.perm_ext_iff_of_nodup (hnodup h) (hnodup h')).2 fun e =>
      (h.mem_iff e.1 e.2).trans (h'.mem_iff e.1 e.2).symm
  exact hperm.eq_of_pairwise (fun a b _ _ hab hba => absurd (hab.trans hba) (lt_irrefl _))
    h.ordered h'.ordered

end Enumerates

/-- **Every list has its runs**, and they are its tokens. -/
theorem exists_enumerates (p : α → Bool) (l : List α) :
    ∃ rs, Enumerates p l rs ∧ rs.map Prod.snd = tokens p l := by
  induction hn : l.length using Nat.strong_induction_on generalizing l with
  | _ n ih =>
      rcases tokens_cut p l with hg | ⟨g, w, r, rfl, hg, hne, hw, hr⟩
      · exact ⟨[], enumerates_separators hg, (tokens_separators hg).symm⟩
      · have hpos := List.length_pos_iff.2 hne
        rw [List.length_append, List.length_append] at hn
        obtain ⟨rs, hrs, htok⟩ := ih r.length (by omega) r rfl
        refine ⟨_, (hrs.token_append hne hw hr).separators_append hg, ?_⟩
        rw [map_snd_shifted, List.map_cons, map_snd_shifted, htok, tokens_separators_append hg,
          tokens_token_append hw hne hr]

/-- **The runs are the tokens.** -/
theorem Enumerates.map_snd (h : Enumerates p l rs) : rs.map Prod.snd = tokens p l := by
  obtain ⟨rs', hrs, htok⟩ := exists_enumerates p l
  rw [h.unique hrs, htok]

/-- **Half as many runs as elements.** -/
theorem Enumerates.length_le (h : Enumerates p l rs) : 2 * rs.length ≤ l.length + 1 := by
  have := length_tokens_le (p := p) (l := l)
  rwa [← h.map_snd, List.length_map] at this

end Twstools
