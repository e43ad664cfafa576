import Twstools.Common.Fault
/-!
# A block of memory

What `malloc` returns: a size, and a content for each index below it. An
access outside of the block ends the program. The content of new memory is
whatever it is. `slice` is the content of a range, and the lemmas say what
a write and a move make of it.
-/

namespace Twstools

/-- A block of memory. What `cell` says from `size` on does not exist. -/
structure Block (β : Type) where
  size : ℕ
  cell : ℕ → β

namespace Block

variable {β Site : Type} (b : Block β) {i j n m : ℕ} {l : List β}

/-- The content of `n` cells from `i` on. -/
def slice (i n : ℕ) : List β := (List.range n).map fun k => b.cell (i + k)

/-- The block with `l` from `i` on. -/
def put (i : ℕ) (l : List β) : Block β where
  size := b.size
  cell k := if i ≤ k then l[k - i]?.getD (b.cell k) else b.cell k

/-- The block with the `n` cells from `j` on copied to `i`. -/
def copy (i j n : ℕ) : Block β where
  size := b.size
  cell k := if i ≤ k ∧ k < i + n then b.cell (j + (k - i)) else b.cell k

/-! ## Accesses -/

/-- `realloc`. The content is kept. -/
def realloc (n : ℕ) : Block β := { b with size := n }

/-- `b[i]`. -/
def read (i : ℕ) : Exec Site β := if i < b.size then .ok (b.cell i) else .error .badAccess

/-- A function reads `n` cells. -/
def view (i n : ℕ) : Exec Site (List β) :=
  if i + n ≤ b.size then .ok (b.slice i n) else .error .badAccess

/-- A function writes `l`. -/
def write (i : ℕ) (l : List β) : Exec Site (Block β) :=
  if i + l.length ≤ b.size then .ok (b.put i l) else .error .badAccess

/-- `memmove`. -/
def move (i j n : ℕ) : Exec Site (Block β) :=
  if i + n ≤ b.size ∧ j + n ≤ b.size then .ok (b.copy i j n) else .error .badAccess

variable {b}

theorem read_eq (h : i < b.size) : (b.read i : Exec Site β) = .ok (b.cell i) := if_pos h

theorem view_eq (h : i + n ≤ b.size) : (b.view i n : Exec Site (List β)) = .ok (b.slice i n) :=
  if_pos h

theorem write_eq (h : i + l.length ≤ b.size) :
    (b.write i l : Exec Site (Block β)) = .ok (b.put i l) := if_pos h

theorem move_eq (hi : i + n ≤ b.size) (hj : j + n ≤ b.size) :
    (b.move i j n : Exec Site (Block β)) = .ok (b.copy i j n) := if_pos ⟨hi, hj⟩

/-! ## Ranges -/

@[simp] theorem size_put : (b.put i l).size = b.size := rfl

@[simp] theorem length_slice : (b.slice i n).length = n := by simp [slice]

@[simp] theorem slice_zero : b.slice i 0 = [] := rfl

/-- A range in two parts. -/
theorem slice_add : b.slice i (n + m) = b.slice i n ++ b.slice (i + n) m := by
  simp [slice, List.range_add, Nat.add_assoc, Function.comp_def]

/-- A range and its first cell. -/
theorem slice_succ : b.slice i (n + 1) = b.cell i :: b.slice (i + 1) n := by
  rw [Nat.add_comm, slice_add]
  simp [slice]

/-- A range whose content is given in two parts. -/
theorem slice_of_append {s r : List β} (h : b.slice i n = s ++ r) :
    n = s.length + r.length ∧ b.slice i s.length = s ∧ b.slice (i + s.length) r.length = r := by
  obtain rfl : n = s.length + r.length := by simpa using congrArg List.length h
  rw [slice_add] at h
  obtain ⟨hs, hr⟩ := List.append_inj h length_slice
  exact ⟨rfl, hs, hr⟩

/-- An element of a range. -/
theorem read_of_slice {x : β} (h : b.slice i n = l) (hin : i + n ≤ b.size) (hj : l[j]? = some x) :
    (b.read (i + j) : Exec Site β) = .ok x := by
  subst h
  obtain ⟨hlt, rfl⟩ := List.getElem?_eq_some_iff.1 hj
  rw [length_slice] at hlt
  rw [read_eq (by omega)]
  simp [slice]

/-- **What was written is there.** -/
theorem slice_put_self : (b.put i l).slice i l.length = l := by
  refine List.ext_getElem length_slice fun k h₁ h₂ => ?_
  simp [slice, put, h₂]

/-- **What is before it is kept.** -/
theorem slice_put_of_le (h : j + n ≤ i) : (b.put i l).slice j n = b.slice j n := by
  refine List.map_congr_left fun k hk => ?_
  rw [List.mem_range] at hk
  simp only [put]
  rw [if_neg (by omega)]

/-- What is behind it is kept. -/
theorem cell_put_of_le (h : i + l.length ≤ j) : (b.put i l).cell j = b.cell j := by
  show (if i ≤ j then l[j - i]?.getD (b.cell j) else b.cell j) = b.cell j
  rw [if_pos (by omega), List.getElem?_eq_none (by omega), Option.getD_none]

theorem cell_put_of_lt (h : j < i) : (b.put i l).cell j = b.cell j := if_neg (by omega)

/-- Two writes, one behind the other. -/
theorem put_cons {x : β} : (b.put i [x]).put (i + 1) l = b.put i (x :: l) := by
  have hcell : ((b.put i [x]).put (i + 1) l).cell = (b.put i (x :: l)).cell := by
    funext k
    rcases Nat.lt_trichotomy k i with hlt | rfl | hlt
    · rw [cell_put_of_lt (by omega), cell_put_of_lt hlt, cell_put_of_lt hlt]
    · rw [cell_put_of_lt (by omega)]
      simp [put]
    · obtain ⟨m, rfl⟩ := Nat.exists_eq_add_of_lt hlt
      -- behind the first of the two the indices differ by one
      have hk : i + m + 1 - i = m + 1 := by omega
      have hk' : i + m + 1 - (i + 1) = m := by omega
      have hle : i ≤ i + m + 1 := by omega
      simp [put, hk, hk', hle]
  calc (b.put i [x]).put (i + 1) l
      = ⟨b.size, ((b.put i [x]).put (i + 1) l).cell⟩ := rfl
    _ = b.put i (x :: l) := by rw [hcell]; rfl

/-- **A copy has the content of the range it was made from.** -/
theorem slice_copy : (b.copy i j n).slice i n = b.slice j n := by
  refine List.map_congr_left fun k hk => ?_
  rw [List.mem_range] at hk
  simp only [copy]
  rw [if_pos (by omega), Nat.add_sub_cancel_left]

end Block

end Twstools
