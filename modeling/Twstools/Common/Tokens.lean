import Mathlib.Data.List.TakeWhile
import Mathlib.Tactic.Common
/-!
# Tokens of a list

The tokens of a list are its pieces between separators, without the empty
ones. `nextToken` takes the first one off, as `strtok` does: it passes over
the separators in front of it and the one behind it. A list has at most
half as many tokens as elements, rounded up.
-/

namespace Twstools

variable {α β : Type} {p : α → Bool} {q : β → Bool} {a b : α} {l w r g : List α}

/-- The pieces between separators that are not empty. -/
def tokens (p : α → Bool) (l : List α) : List (List α) := (l.splitOnP p).filter (!·.isEmpty)

/-- The first token, and what is behind the separator that ends it. -/
def nextToken (p : α → Bool) (l : List α) : Option (List α × List α) :=
  match l.dropWhile p with
  | [] => none
  | a :: l => some ((a :: l).takeWhile (!p ·), ((a :: l).dropWhile (!p ·)).tail)

theorem tokens_nil : tokens p [] = [] := by simp [tokens]

/-- Separators in front are passed over. -/
theorem tokens_dropWhile : tokens p (l.dropWhile p) = tokens p l := by
  induction l with
  | nil => rfl
  | cons a l ih =>
      by_cases ha : p a = true
      · rw [List.dropWhile_cons_of_pos ha, ih]
        simp [tokens, List.splitOnP_cons_eq_if_modifyHead, ha]
      · rw [List.dropWhile_cons_of_neg ha]

/-- A piece without separator is the only token. -/
theorem tokens_last (hw : ∀ x ∈ w, p x = false) (hne : w ≠ []) : tokens p w = [w] := by
  rw [tokens, List.splitOnP_eq_singleton hw]
  simp [hne]

/-- A piece in front of a separator is the first token. -/
theorem tokens_first (hw : ∀ x ∈ w, p x = false) (hne : w ≠ []) (ha : p a = true) :
    tokens p (w ++ a :: l) = w :: tokens p l := by
  rw [tokens, List.splitOnP_append_cons_of_forall_mem hw a ha]
  simp [hne, tokens]

/-- Separators have no token. -/
theorem tokens_separators (hg : ∀ a ∈ g, p a = true) : tokens p g = [] := by
  rw [← tokens_dropWhile, List.dropWhile_eq_nil_iff.2 hg, tokens_nil]

theorem tokens_separators_append (hg : ∀ a ∈ g, p a = true) :
    tokens p (g ++ l) = tokens p l := by
  rw [← tokens_dropWhile, List.dropWhile_append_of_pos hg, tokens_dropWhile]

/-- The separator a list begins with does not matter. -/
theorem tokens_tail (hr : ∀ a ∈ r.head?, p a = true) : tokens p r.tail = tokens p r := by
  cases r with
  | nil => rfl
  | cons a r =>
      rw [← tokens_dropWhile (l := a :: r), List.dropWhile_cons_of_pos (hr a rfl),
        tokens_dropWhile, List.tail_cons]

/-- A piece that ends at a separator or with the list is the first token. -/
theorem tokens_token_append (hw : ∀ x ∈ w, p x = false) (hne : w ≠ [])
    (hr : ∀ a ∈ r.head?, p a = true) : tokens p (w ++ r) = w :: tokens p r := by
  cases r with
  | nil => rw [List.append_nil, tokens_last hw hne, tokens_nil]
  | cons a r => rw [tokens_first hw hne (hr a rfl), ← tokens_tail hr, List.tail_cons]

/-- **A list has separators only**, or they are followed by a token that
ends at a separator or with the list. -/
theorem tokens_cut (p : α → Bool) (l : List α) : (∀ a ∈ l, p a = true) ∨
    ∃ g w r, l = g ++ (w ++ r) ∧ (∀ a ∈ g, p a = true) ∧ w ≠ [] ∧ (∀ a ∈ w, p a = false) ∧
      ∀ a ∈ r.head?, p a = true := by
  rcases hl : l.dropWhile p with _ | ⟨a, l'⟩
  · exact .inl (List.dropWhile_eq_nil_iff.1 hl)
  -- the token begins with `a`, which is no separator
  have ha : p a = false := by
    have := List.head?_dropWhile_not p l
    rw [hl] at this
    simpa using this
  refine .inr ⟨l.takeWhile p, (a :: l').takeWhile (!p ·), (a :: l').dropWhile (!p ·), ?_,
    fun b hb => List.mem_takeWhile_imp hb, by simp [ha], fun b hb => ?_, fun b hb => ?_⟩
  · rw [List.takeWhile_append_dropWhile, ← hl, List.takeWhile_append_dropWhile]
  · simpa using List.mem_takeWhile_imp hb
  · have := List.head?_dropWhile_not (!p ·) (a :: l')
    rw [Option.mem_def.1 hb] at this
    simpa using this

/-- What `nextToken` takes off the list: the first of its tokens, with the
separator behind it unless that is the last. -/
structure Taken (p : α → Bool) (l w r : List α) : Prop where
  tokens_eq : tokens p l = w :: tokens p r
  length_pos : 0 < w.length
  length_le : w.length + r.length + 1 ≤ l.length ∨ r = [] ∧ w.length ≤ l.length
  token_subset : w ⊆ l
  rest_subset : r ⊆ l

theorem takeWhile_token (hw : ∀ x ∈ w, p x = false) (hr : ∀ a ∈ r.head?, p a = true) :
    (w ++ r).takeWhile (!p ·) = w := by
  rw [List.takeWhile_append_of_pos (by simpa using hw)]
  cases r with
  | nil => simp
  | cons b r => simp [hr b rfl]

theorem dropWhile_token (hw : ∀ x ∈ w, p x = false) (hr : ∀ a ∈ r.head?, p a = true) :
    (w ++ r).dropWhile (!p ·) = r := by
  rw [List.dropWhile_append_of_pos (by simpa using hw)]
  cases r with
  | nil => rfl
  | cons b r => simp [hr b rfl]

/-- **One token at a time.** -/
theorem nextToken_cases : nextToken p l = none ∧ tokens p l = [] ∨
    ∃ w r, nextToken p l = some (w, r) ∧ Taken p l w r := by
  rcases tokens_cut p l with hg | ⟨g, w, r, rfl, hg, hne, hw, hr⟩
  · refine .inl ⟨?_, tokens_separators hg⟩
    rw [nextToken, List.dropWhile_eq_nil_iff.2 hg]
  refine .inr ⟨w, r.tail, ?_, ?_, List.length_pos_iff.2 hne, ?_, by simp, fun x hx => ?_⟩
  · have hdrop : (g ++ (w ++ r)).dropWhile p = w ++ r := by
      obtain ⟨a, w, rfl⟩ := List.exists_cons_of_ne_nil hne
      rw [List.dropWhile_append_of_pos hg, List.cons_append,
        List.dropWhile_cons_of_neg (by simp [hw a (by simp)])]
    obtain ⟨a, w', rfl⟩ := List.exists_cons_of_ne_nil hne
    rw [nextToken, hdrop]
    show some (((a :: w') ++ r).takeWhile (!p ·), (((a :: w') ++ r).dropWhile (!p ·)).tail) = _
    rw [takeWhile_token hw hr, dropWhile_token hw hr]
  · rw [tokens_separators_append hg, tokens_token_append hw hne hr, tokens_tail hr]
  · cases r with
    | nil => exact .inr ⟨rfl, by simp⟩
    | cons b r =>
        refine .inl ?_
        simp only [List.length_append, List.length_cons, List.tail_cons]
        omega
  · simp [List.mem_of_mem_tail hx]

/-- **Half as many tokens as elements.** -/
theorem length_tokens_le : 2 * (tokens p l).length ≤ l.length + 1 := by
  induction hn : l.length using Nat.strong_induction_on generalizing l with
  | _ n ih =>
      rcases nextToken_cases (p := p) (l := l) with ⟨-, ht⟩ | ⟨w, r, -, ht⟩
      · simp [ht]
      · have hpos := ht.length_pos
        rw [ht.tokens_eq, List.length_cons]
        rcases ht.length_le with hlt | ⟨rfl, hle⟩
        · have := ih r.length (by omega) rfl
          omega
        · rw [tokens_nil, List.length_nil]
          omega

/-- **Half as many there can be**, for a list of every length. -/
theorem exists_length_tokens (ha : p a = false) (hb : p b = true) : ∀ n : ℕ,
    ∃ l : List α, l.length = n ∧ (∀ x ∈ l, x = a ∨ x = b) ∧ (tokens p l).length = (n + 1) / 2
  | 0 => ⟨[], rfl, by simp, by rw [tokens_nil]; rfl⟩
  | 1 => ⟨[a], rfl, by simp, by rw [tokens_last (by simpa using ha) (by simp)]; rfl⟩
  | n + 2 => by
      obtain ⟨l, rfl, hl, hcount⟩ := exists_length_tokens ha hb n
      refine ⟨[a] ++ b :: l, by simp, fun x hx => ?_, ?_⟩
      · rcases List.mem_append.1 hx with hx | hx
        · exact .inl (List.mem_singleton.1 hx)
        · rcases List.mem_cons.1 hx with rfl | hx
          · exact .inr rfl
          · exact hl x hx
      · rw [tokens_first (by simpa using ha) (by simp) hb, List.length_cons, hcount]
        omega

/-- **Encoding a list** element by element keeps its tokens, if it encodes
each separator by one, and nothing else by any. -/
theorem tokens_flatMap {f : α → List β} (hne : ∀ a, f a ≠ [])
    (hsep : ∀ a, p a = true → ∃ b, f a = [b] ∧ q b = true)
    (hin : ∀ a, p a = false → ∀ b ∈ f a, q b = false) :
    tokens q (l.flatMap f) = (tokens p l).map (·.flatMap f) := by
  have hseps : ∀ {g : List α}, (∀ a ∈ g, p a = true) → ∀ b ∈ g.flatMap f, q b = true := by
    intro g hg b hb
    obtain ⟨a, ha, hb⟩ := List.mem_flatMap.1 hb
    obtain ⟨c, hc, hq⟩ := hsep a (hg a ha)
    rw [hc] at hb
    rwa [List.mem_singleton.1 hb]
  induction hn : l.length using Nat.strong_induction_on generalizing l with
  | _ n ih =>
      rcases tokens_cut p l with hg | ⟨g, w, r, rfl, hg, hwne, hw, hr⟩
      · rw [tokens_separators hg, tokens_separators (hseps hg)]
        rfl
      · have hpos := List.length_pos_iff.2 hwne
        rw [List.length_append, List.length_append] at hn
        have hwf : ∀ b ∈ w.flatMap f, q b = false := fun b hb => by
          obtain ⟨a, ha, hb⟩ := List.mem_flatMap.1 hb
          exact hin a (hw a ha) b hb
        have hwfne : w.flatMap f ≠ [] := by
          obtain ⟨a, w, rfl⟩ := List.exists_cons_of_ne_nil hwne
          simp [hne a]
        have hrf : ∀ b ∈ (r.flatMap f).head?, q b = true := by
          cases r with
          | nil => simp
          | cons a r =>
              obtain ⟨c, hc, hq⟩ := hsep a (hr a rfl)
              simpa [hc] using hq
        rw [List.flatMap_append, List.flatMap_append, tokens_separators_append (hseps hg),
          tokens_token_append hwf hwfne hrf, ih r.length (by omega) rfl,
          tokens_separators_append hg, tokens_token_append hw hwne hr, List.map_cons]

end Twstools
