import Mathlib.Data.List.ReduceOption
import Mathlib.Data.List.TakeWhile
/-!
# Segments of a list

A list that is read in segments, each up to the next separator. A reader
takes `segment` and goes on with `remainder`; it stops at the first segment
that cannot be read. `readable` is what it gets in all, and
`readable_intercalate` what that is for a list put together from segments.
-/

namespace Twstools

variable {α β : Type} [DecidableEq α] {sep : α} {s r l : List α} {f : List α → Option β}

/-- What is before the first separator. -/
def segment (sep : α) (l : List α) : List α := l.takeWhile (· ≠ sep)

/-- What is behind it. -/
def remainder (sep : α) (l : List α) : List α := (l.dropWhile (· ≠ sep)).tail

/-- The segments that are read, up to the first that cannot be. -/
def readable (sep : α) (f : List α → Option β) (l : List α) : List β :=
  (((l.splitOn sep).map f).takeWhile (·.isSome)).reduceOption

private theorem forall_ne (h : sep ∉ s) : ∀ a ∈ s, decide (a ≠ sep) = true :=
  fun a ha => by simpa using ne_of_mem_of_not_mem ha h

theorem segment_append (h : sep ∉ s) : segment sep (s ++ sep :: r) = s := by
  rw [segment, List.takeWhile_append_of_pos (forall_ne h)]
  simp

theorem segment_of_not_mem (h : sep ∉ s) : segment sep s = s :=
  List.takeWhile_eq_self_iff.2 (forall_ne h)

theorem remainder_append (h : sep ∉ s) : remainder sep (s ++ sep :: r) = r := by
  rw [remainder, List.dropWhile_append_of_pos (forall_ne h)]
  simp

theorem remainder_of_not_mem (h : sep ∉ s) : remainder sep s = [] := by
  rw [remainder, List.dropWhile_eq_nil_iff.2 (forall_ne h)]
  rfl

/-- A list without separator is one segment; any other has a first one. -/
theorem segment_cases (sep : α) (l : List α) :
    sep ∉ l ∨ ∃ s r, sep ∉ s ∧ l = s ++ sep :: r := by
  by_cases h : sep ∈ l
  · obtain ⟨s, r, rfl, hs⟩ := List.eq_append_cons_of_mem h
    exact .inr ⟨s, r, hs, rfl⟩
  · exact .inl h

/-- **A reader gets on.** -/
theorem length_remainder_lt (h : l ≠ []) : (remainder sep l).length < l.length := by
  rcases segment_cases sep l with hs | ⟨s, r, hs, rfl⟩
  · rw [remainder_of_not_mem hs]
    exact List.length_pos_of_ne_nil h
  · rw [remainder_append hs, List.length_append, List.length_cons]
    omega

/-- **One segment at a time.** -/
theorem readable_eq (h : f [] = none) : readable sep f l =
    (f (segment sep l)).elim [] fun b => b :: readable sep f (remainder sep l) := by
  have hcons : ∀ (o : Option β) (os : List (Option β)),
      ((o :: os).takeWhile (·.isSome)).reduceOption =
        o.elim [] fun b => b :: (os.takeWhile (·.isSome)).reduceOption := fun o os => by
    cases o <;> simp
  rcases segment_cases sep l with hs | ⟨s, r, hs, rfl⟩
  · rw [readable, List.splitOn_eq_singleton hs, segment_of_not_mem hs, remainder_of_not_mem hs,
      List.map_cons, hcons]
    simp [readable, h]
  · rw [readable, List.splitOn_append_cons_self_of_not_mem hs, segment_append hs,
      remainder_append hs, List.map_cons, hcons]
    rfl

theorem readable_nil (h : f [] = none) : readable sep f [] = [] := by simp [readable, h]

/-- **A list of segments**, with or without a separator behind the last,
gives what the segments before the first unreadable one give. -/
theorem readable_intercalate_takeWhile {segs : List (List α)} {trailing : Bool}
    (h : f [] = none) (hsep : ∀ s ∈ segs, sep ∉ s) :
    readable sep f ([sep].intercalate segs ++ if trailing then [sep] else []) =
      (segs.takeWhile fun s => (f s).isSome).filterMap f := by
  induction segs with
  | nil =>
      rw [readable_eq h]
      cases trailing <;> simp [segment, h]
  | cons s segs ih =>
      have hs : sep ∉ s := hsep s List.mem_cons_self
      cases segs with
      | nil =>
          have hlast : readable sep f ([sep].intercalate [s] ++ if trailing then [sep] else []) =
              (f s).elim [] fun b => [b] := by
            rw [readable_eq h]
            cases trailing
            · simp [segment_of_not_mem hs, remainder_of_not_mem hs, readable_nil h]
            · simp [segment_append hs, remainder_append hs, readable_nil h]
          rw [hlast]
          cases hf : f s <;> simp [hf]
      | cons t segs =>
          rw [List.intercalate_cons_cons, List.append_assoc, List.append_assoc,
            List.singleton_append, readable_eq h, segment_append hs, remainder_append hs,
            ih fun s hs => hsep s (List.mem_cons_of_mem _ hs)]
          cases hf : f s <;> simp [hf, List.takeWhile_cons]

/-- That is all of them, if only the last may be unreadable. -/
theorem readable_intercalate {segs : List (List α)} {trailing : Bool} (h : f [] = none)
    (hsep : ∀ s ∈ segs, sep ∉ s) (hread : ∀ s ∈ segs.dropLast, (f s).isSome) :
    readable sep f ([sep].intercalate segs ++ if trailing then [sep] else []) =
      segs.filterMap f := by
  rw [readable_intercalate_takeWhile h hsep]
  rcases List.eq_nil_or_concat segs with rfl | ⟨init, s, rfl⟩
  · rfl
  · rw [List.concat_eq_append, List.dropLast_concat] at hread
    rw [List.concat_eq_append, List.takeWhile_append_of_pos hread, List.filterMap_append,
      List.filterMap_append]
    cases hf : f s <;> simp [hf]

omit [DecidableEq α] in
/-- **What stops the reader costs something** exactly if there is something
to get behind it. -/
theorem flatMap_takeWhile_iff {γ : Type} {g : β → List γ} {segs : List (List α)} :
    ((segs.takeWhile fun s => (f s).isSome).filterMap f).flatMap g =
        (segs.filterMap f).flatMap g ↔
      ∀ s ∈ segs.dropWhile fun s => (f s).isSome, ∀ b, f s = some b → g b = [] := by
  have hsplit : (segs.filterMap f).flatMap g =
      ((segs.takeWhile fun s => (f s).isSome).filterMap f).flatMap g ++
        ((segs.dropWhile fun s => (f s).isSome).filterMap f).flatMap g := by
    rw [← List.flatMap_append, ← List.filterMap_append, List.takeWhile_append_dropWhile]
  rw [hsplit, List.self_eq_append_right, List.flatMap_eq_nil_iff]
  constructor
  · intro h s hs b hb
    exact h b (List.mem_filterMap.2 ⟨s, hs, hb⟩)
  · intro h b hb
    obtain ⟨s, hs, hb⟩ := List.mem_filterMap.1 hb
    exact h s hs b hb

end Twstools
