import Twstools.Common.Memory
import Twstools.Common.Places
/-!
# `strtok`

A C string in memory is its bytes and a NUL. `strtok` works on the memory
of one: a call passes over delimiters, ends the token it finds with a NUL
in place of the delimiter behind it, and remembers where to go on. What is
in front of that place is not touched again.
-/

namespace Twstools

/-! ## C strings -/

namespace Block

variable {Site : Type} (b : Block UInt8)

/-- The search for a byte that is not `p`, in the `n` bytes from `i` on. -/
def skipFrom (p : UInt8 → Bool) : ℕ → ℕ → Exec Site ℕ
  | 0, _ => .error .badAccess
  | n + 1, i => do
      let c ← b.read i
      if p c then skipFrom p n (i + 1) else pure i

/-- The search for a byte that is not `p`, from `i` on. -/
def skip (p : UInt8 → Bool) (i : ℕ) : Exec Site ℕ := b.skipFrom p (b.size - i) i

/-- The C string at `i`. -/
def string (i : ℕ) : Exec Site (List UInt8) := do
  let stop ← b.skip (· ≠ 0) i
  b.view i (stop - i)

end Block

/-- **A C string in memory.** -/
structure StringAt (b : Block UInt8) (i : ℕ) (s : List UInt8) : Prop where
  inside : i + s.length + 1 ≤ b.size
  bytes : b.slice i (s.length + 1) = s ++ [0]
  noNul : 0 ∉ s

/-! ## Calls -/

/-- The memory of the string that `strtok` works on, and where it goes on;
`none` behind the last token. -/
structure Strtok where
  buf : Block UInt8
  next : Option ℕ

/-- `strtok(NULL, delim)`. A call with a string sets the place to go on
first. -/
def strtok {Site : Type} (delim : List UInt8) (m : Strtok) : Exec Site (Strtok × Option ℕ) :=
  match m.next with
  | none => pure (m, none)
  | some i => do
      let token ← m.buf.skip delim.contains i
      if (← m.buf.read token) = 0 then pure ({ m with next := none }, none)
      else do
        let stop ← m.buf.skip (fun c => c ≠ 0 ∧ ¬ delim.contains c) token
        if (← m.buf.read stop) = 0 then pure ({ m with next := none }, some token)
        else do
          let buf ← m.buf.write stop [0]
          pure (⟨buf, some (stop + 1)⟩, some token)

variable {Site : Type} {b b' : Block UInt8} {p : UInt8 → Bool} {delim s g w r : List UInt8}
variable {c : UInt8} {i : ℕ}

/-! ## What is in memory -/

theorem skipFrom_eq {n : ℕ} (hin : i + g.length + 1 ≤ b.size) (hn : g.length < n)
    (hs : b.slice i (g.length + 1) = g ++ [c]) (hg : ∀ a ∈ g, p a = true) (hc : p c = false) :
    (b.skipFrom p n i : Exec Site ℕ) = .ok (i + g.length) := by
  induction g generalizing i n with
  | nil =>
      obtain ⟨n, rfl⟩ := Nat.exists_eq_add_of_lt hn
      have hcell : b.cell i = c := by simpa [Block.slice_succ] using hs
      rw [Block.skipFrom, Block.read_eq (by omega), Exec.ok_bind, hcell, if_neg (by simp [hc])]
      rfl
  | cons a g ih =>
      cases n with
      | zero => exact absurd hn (Nat.not_lt_zero _)
      | succ n =>
          rw [List.length_cons] at hin hn hs
          rw [Block.slice_succ, List.cons_append] at hs
          obtain ⟨hcell, hrest⟩ := List.cons.inj hs
          rw [Block.skipFrom, Block.read_eq (by omega), Exec.ok_bind, hcell,
            if_pos (hg _ (by simp)),
            ih (by omega) (by omega) hrest fun a ha => hg a (by simp [ha]), List.length_cons]
          congr 1
          omega

namespace StringAt

/-- What is behind a part of a string is a string. -/
theorem behind (h : StringAt b i (g ++ r)) : StringAt b (i + g.length) r := by
  obtain ⟨hin, hbytes, hnul⟩ := h
  rw [List.length_append] at hin
  rw [List.append_assoc] at hbytes
  obtain ⟨-, -, hr⟩ := Block.slice_of_append hbytes
  rw [List.length_append, List.length_singleton] at hr
  exact ⟨by omega, hr, fun hm => hnul (List.mem_append_right _ hm)⟩

/-- The byte at a place of a string. -/
theorem read_cons (h : StringAt b i (c :: s)) : (b.read i : Exec Site UInt8) = .ok c := by
  obtain ⟨hin, hbytes, -⟩ := h
  rw [List.length_cons, Block.slice_succ, List.cons_append] at hbytes
  rw [Block.read_eq (by omega), (List.cons.inj hbytes).1]

/-- The NUL. -/
theorem read_nil (h : StringAt b i []) : (b.read i : Exec Site UInt8) = .ok 0 := by
  obtain ⟨hin, hbytes, -⟩ := h
  rw [List.length_nil, Block.slice_succ, List.nil_append] at hbytes
  rw [Block.read_eq (by omega), (List.cons.inj hbytes).1]

/-- **A search in a string** stops at the first byte it is for, the NUL
included. -/
theorem skip_eq (h : StringAt b i (g ++ r)) (hg : ∀ a ∈ g, p a = true)
    (hr : ∀ a ∈ (r ++ [0]).head?, p a = false) :
    (b.skip p i : Exec Site ℕ) = .ok (i + g.length) := by
  obtain ⟨c, t, ht⟩ : ∃ c t, r ++ [0] = c :: t := List.exists_cons_of_ne_nil (by simp)
  have hbytes := h.bytes
  rw [List.append_assoc, ht, List.append_cons] at hbytes
  obtain ⟨-, hs, -⟩ := Block.slice_of_append hbytes
  rw [List.length_append, List.length_singleton] at hs
  have hin := h.inside
  rw [List.length_append] at hin
  exact skipFrom_eq (by omega) (by omega) hs hg (hr c (by rw [ht]; rfl))

/-- **The string that is read.** -/
theorem string_eq (h : StringAt b i s) : (b.string i : Exec Site (List UInt8)) = .ok s := by
  have h' : StringAt b i (s ++ []) := by rwa [List.append_nil]
  have hskip : (b.skip (· ≠ 0) i : Exec Site ℕ) = .ok (i + s.length) :=
    h'.skip_eq (fun a ha => by simpa using ne_of_mem_of_not_mem ha h.noNul) (by simp)
  have hin := h.inside
  rw [Block.string, hskip, Exec.ok_bind, Nat.add_sub_cancel_left, Block.view_eq (by omega),
    (Block.slice_of_append h.bytes).2.1]

/-- A string stays where nothing is written. -/
theorem congr (h : StringAt b i s) (hsize : b'.size = b.size)
    (hcell : ∀ k, k < i + s.length + 1 → b'.cell k = b.cell k) : StringAt b' i s := by
  refine ⟨by rw [hsize]; exact h.inside, ?_, h.noNul⟩
  rw [← h.bytes]
  refine List.map_congr_left fun k hk => hcell _ ?_
  rw [List.mem_range] at hk
  omega

/-- **A NUL in place of a byte** makes two strings of one. -/
theorem cut (h : StringAt b i (w ++ c :: r)) :
    StringAt (b.put (i + w.length) [0]) i w ∧
      StringAt (b.put (i + w.length) [0]) (i + w.length + 1) r := by
  have hin := h.inside
  rw [List.length_append, List.length_cons] at hin
  have hr : StringAt b (i + w.length + 1) r := by
    rw [List.append_cons] at h
    have := h.behind
    rwa [List.length_append, List.length_singleton, ← Nat.add_assoc] at this
  have hbytes := h.bytes
  rw [List.append_assoc] at hbytes
  obtain ⟨-, hslice, -⟩ := Block.slice_of_append hbytes
  constructor
  · refine ⟨by rw [Block.size_put]; omega, ?_, fun hm => h.noNul (List.mem_append_left _ hm)⟩
    have hnul : (b.put (i + w.length) [0]).slice (i + w.length) 1 = [0] := Block.slice_put_self
    rw [Block.slice_add, Block.slice_put_of_le le_rfl, hslice, hnul]
  · refine ⟨by rw [Block.size_put]; exact hr.inside, ?_, hr.noNul⟩
    rw [← hr.bytes]
    refine List.map_congr_left fun k _ => ?_
    rw [Block.cell_put_of_le (by rw [List.length_singleton]; omega)]

end StringAt

/-! ## What a call does -/

/-- The token begins behind the delimiters. -/
theorem skip_delimiters (h : StringAt b i (g ++ (w ++ r)))
    (hg : ∀ a ∈ g, delim.contains a = true) (hne : w ≠ [])
    (hw : ∀ a ∈ w, delim.contains a = false) :
    (b.skip delim.contains i : Exec Site ℕ) = .ok (i + g.length) ∧
      ∃ c, (b.read (i + g.length) : Exec Site UInt8) = .ok c ∧ c ≠ 0 := by
  obtain ⟨c, w, rfl⟩ := List.exists_cons_of_ne_nil hne
  refine ⟨h.skip_eq hg ?_, c, h.behind.read_cons, ?_⟩
  · intro a ha
    obtain rfl : c = a := by simpa using ha
    exact hw c (by simp)
  · rintro rfl
    exact h.noNul (by simp)

/-- It ends at the next delimiter or at the end of the string. -/
theorem skip_token (h : StringAt b i (w ++ r)) (hw : ∀ a ∈ w, delim.contains a = false)
    (hr : ∀ a ∈ r.head?, delim.contains a = true) :
    (b.skip (fun c => c ≠ 0 ∧ ¬ delim.contains c) i : Exec Site ℕ) = .ok (i + w.length) := by
  refine h.skip_eq (fun a ha => ?_) fun a ha => ?_
  · have hnul : a ≠ 0 := by
      rintro rfl
      exact h.noNul (List.mem_append_left _ ha)
    have := hw a ha
    simp_all
  · cases r with
    | nil =>
        obtain rfl : 0 = a := by simpa using ha
        simp
    | cons c r =>
        obtain rfl : c = a := by simpa using ha
        have := hr c rfl
        simp_all

variable {m : Strtok} (hm : m.next = some i)

include hm

/-- **Nothing is found** in a string of delimiters. -/
theorem strtok_separators (h0 : 0 ∉ delim) (h : StringAt m.buf i g)
    (hg : ∀ a ∈ g, delim.contains a = true) :
    (strtok delim m : Exec Site _) = .ok ({ m with next := none }, none) := by
  have h' : StringAt m.buf i (g ++ []) := by rwa [List.append_nil]
  have hskip : (m.buf.skip delim.contains i : Exec Site ℕ) = .ok (i + g.length) :=
    h'.skip_eq hg (by simpa using h0)
  simp only [strtok, hm, hskip, Exec.ok_bind, h'.behind.read_nil, if_true]
  rfl

/-- **The last token** ends with the string. -/
theorem strtok_last (h : StringAt m.buf i (g ++ w)) (hg : ∀ a ∈ g, delim.contains a = true)
    (hne : w ≠ []) (hw : ∀ a ∈ w, delim.contains a = false) :
    (strtok delim m : Exec Site _) = .ok ({ m with next := none }, some (i + g.length)) := by
  have h' : StringAt m.buf i (g ++ (w ++ [])) := by rwa [List.append_nil]
  obtain ⟨hskip, c, hread, hc⟩ : (m.buf.skip delim.contains i : Exec Site ℕ) = _ ∧
      ∃ c, (m.buf.read (i + g.length) : Exec Site UInt8) = .ok c ∧ c ≠ 0 :=
    skip_delimiters h' hg hne hw
  have hstop : (m.buf.skip _ (i + g.length) : Exec Site ℕ) = .ok (i + g.length + w.length) :=
    skip_token h'.behind hw (by simp)
  simp only [strtok, hm, hskip, hread, if_neg hc, hstop, Exec.ok_bind,
    h'.behind.behind.read_nil, if_true]
  rfl

/-- **A token in front of a delimiter** is ended by a NUL in its place. -/
theorem strtok_token (h : StringAt m.buf i (g ++ (w ++ c :: r)))
    (hg : ∀ a ∈ g, delim.contains a = true) (hne : w ≠ [])
    (hw : ∀ a ∈ w, delim.contains a = false) (hc : delim.contains c = true) :
    (strtok delim m : Exec Site _) = .ok
      (⟨m.buf.put (i + g.length + w.length) [0], some (i + g.length + w.length + 1)⟩,
        some (i + g.length)) := by
  obtain ⟨hskip, d, hread, hd⟩ : (m.buf.skip delim.contains i : Exec Site ℕ) = _ ∧
      ∃ d, (m.buf.read (i + g.length) : Exec Site UInt8) = .ok d ∧ d ≠ 0 :=
    skip_delimiters h hg hne hw
  have hstop : (m.buf.skip _ (i + g.length) : Exec Site ℕ) = .ok (i + g.length + w.length) :=
    skip_token h.behind hw (by simpa using hc)
  have hend := h.behind.behind
  have hc0 : c ≠ 0 := by
    rintro rfl
    exact hend.noNul (by simp)
  have hin := hend.inside
  simp only [strtok, hm, hskip, hread, if_neg hd, hstop, Exec.ok_bind, hend.read_cons, if_neg hc0]
  rw [Block.write_eq (by rw [List.length_singleton]; omega)]
  rfl

end Twstools
