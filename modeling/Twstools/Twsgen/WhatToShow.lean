import Twstools.Clib.Printf
import Twstools.Clib.Strtok
import Twstools.Twsgen.Jobs
/-!
# What to show, in memory

`split_whatToShow` copies the argument, has `strtok` take the copy apart,
and puts the places of the tokens into an array for half as many pointers
as there are bytes, and one more. There is room for all of them and the
`NULL` behind them (`splitWhatToShowBytes_holds`), and none to spare
(`exists_full_wts_list`). What the array points to is what the generator
makes jobs for (`splitWhatToShowBytes_refines`).

A pointer is an index into the memory of the copy. Memory is never short,
so a size has no limit here.
-/

namespace Twstools

/-- The delimiters of `strtok`, `", \t"`. -/
def wtsDelimiters : List UInt8 := [44, 32, 9]

/-- The two variables that are set: an array of pointers, and the memory
of the string they point into. -/
structure WtsMemory where
  wts_list : Block (Option ℕ)
  wts_split : Block UInt8

/-- The state of the loop of `split_whatToShow`; `wts` is an index. -/
structure WtsLoop where
  wts_list : Block (Option ℕ)
  wts : ℕ
  strtok : Strtok

/-- `token = strtok(..); *wts = token; wts++`. -/
def nextWts (st : WtsLoop) : Exec Assertion (WtsLoop × Option ℕ) := do
  let (m, token) ← strtok wtsDelimiters st.strtok
  let wts_list ← st.wts_list.write st.wts [token]
  pure (⟨wts_list, st.wts + 1, m⟩, token)

/-- `while( token != NULL )`. -/
def wtsLoop : ℕ → WtsLoop × Option ℕ → Exec Assertion WtsLoop
  | _, (st, none) => pure st
  | 0, (_, some _) => .error .unfinished
  | fuel + 1, (st, some _) => do
      let next ← nextWts st
      wtsLoop fuel next

/-- `split_whatToShow`, on the bytes of the argument. What `malloc` returns
has any content. -/
def splitWhatToShowBytes (list₀ : ℕ → Option ℕ) (split₀ : ℕ → UInt8) (whatToShowp : List UInt8) :
    Exec Assertion WtsMemory := do
  let len := whatToShowp.length + 1
  let wts_list : Block (Option ℕ) := ⟨len / 2 + 1, list₀⟩
  -- `strcpy`
  let wts_split ← (⟨len, split₀⟩ : Block UInt8).write 0 (whatToShowp ++ [0])
  let first ← nextWts ⟨wts_list, 0, ⟨wts_split, some 0⟩⟩
  let st ← wtsLoop len first
  let last ← st.wts_list.read (st.wts - 1)
  ensure (last = none) .splitWhatToShowEnd
  ensure (st.wts ≤ len / 2 + 1) .splitWhatToShowSize
  pure ⟨st.wts_list, st.strtok.buf⟩

/-- The strings that the loop of `gen_hist_job` over `wts_list` gets, from
index `i` on; `n` pointers are left. -/
def WtsMemory.strings (m : WtsMemory) : ℕ → ℕ → Exec Assertion (List (List UInt8))
  | 0, _ => .error .badAccess
  | n + 1, i => do
      match ← m.wts_list.read i with
      | none => pure []
      | some wts => do
          let t ← m.wts_split.string wts
          let ts ← m.strings n (i + 1)
          pure (t :: ts)

/-- **The array is right**: as long as it was made, with a pointer for each
run and one `NULL` behind them, and nothing else written. Each points to a
string that is the run. -/
structure WtsMemory.Holds (m : WtsMemory) (size : ℕ) (list₀ : ℕ → Option ℕ)
    (rs : List (ℕ × List UInt8)) : Prop where
  size_eq : m.wts_list.size = size
  room : rs.length + 1 ≤ size
  pointers : m.wts_list.slice 0 (rs.length + 1) = rs.map (fun e => some e.1) ++ [none]
  unused : ∀ k, rs.length < k → m.wts_list.cell k = list₀ k
  strings : ∀ e ∈ rs, m.wts_split.string e.1 = (.ok e.2 : Exec Assertion _)

variable {s rest g w r : List UInt8} {c : UInt8} {i fuel : ℕ} {rs : List (ℕ × List UInt8)}
variable {list₀ : ℕ → Option ℕ} {split₀ : ℕ → UInt8} {st st' : WtsLoop}

/-! ## The loop -/

/-- What the loop makes of its state, when the runs of the rest of the
string, which begins at `i`, are `rs`. -/
structure WtsLoop.Done (st st' : WtsLoop) (i : ℕ) (rs : List (ℕ × List UInt8)) : Prop where
  wts_list : st'.wts_list = st.wts_list.put st.wts (rs.map (fun e => some (i + e.1)) ++ [none])
  wts : st'.wts = st.wts + rs.length + 1
  size : st'.strtok.buf.size = st.strtok.buf.size
  before : ∀ k < i, st'.strtok.buf.cell k = st.strtok.buf.cell k
  strings : ∀ e ∈ rs, StringAt st'.strtok.buf (i + e.1) e.2

theorem nextWts_eq {m : Strtok} {token : Option ℕ}
    (h : strtok wtsDelimiters st.strtok = (.ok (m, token) : Exec Assertion _))
    (hroom : st.wts < st.wts_list.size) :
    nextWts st = .ok (⟨st.wts_list.put st.wts [token], st.wts + 1, m⟩, token) := by
  simp only [nextWts, h, Exec.ok_bind]
  rw [Block.write_eq (by rw [List.length_singleton]; omega)]
  rfl

theorem wtsLoop_none : wtsLoop fuel (st, none) = .ok st := by
  cases fuel <;> rfl

/-- **Behind the last token** comes the `NULL`. -/
theorem wtsLoop_end (hst : st.strtok.next = none) (hroom : st.wts < st.wts_list.size) :
    (nextWts st >>= wtsLoop fuel) =
      .ok ⟨st.wts_list.put st.wts [none], st.wts + 1, st.strtok⟩ := by
  have h : strtok wtsDelimiters st.strtok = (.ok (st.strtok, none) : Exec Assertion _) := by
    rw [strtok, hst]
    rfl
  rw [nextWts_eq h hroom, Exec.ok_bind, wtsLoop_none]

/-- The runs of a string that ends with its first one. -/
theorem enumerates_last (hg : ∀ a ∈ g, wtsDelimiters.contains a = true) (hne : w ≠ [])
    (hw : ∀ a ∈ w, wtsDelimiters.contains a = false) :
    Enumerates wtsDelimiters.contains (g ++ w) [(g.length, w)] := by
  have hnone : Enumerates wtsDelimiters.contains [] [] := enumerates_separators (by simp)
  simpa [shifted] using (hnone.token_append hne hw (by simp)).separators_append hg

/-- The runs of a string that has one in front of a delimiter. -/
theorem enumerates_first (hrs : Enumerates wtsDelimiters.contains r rs)
    (hg : ∀ a ∈ g, wtsDelimiters.contains a = true) (hne : w ≠ [])
    (hw : ∀ a ∈ w, wtsDelimiters.contains a = false) (hc : wtsDelimiters.contains c = true) :
    Enumerates wtsDelimiters.contains (g ++ (w ++ c :: r))
      ((g.length, w) :: shifted (g.length + w.length + 1) rs) := by
  have hsep : ∀ a ∈ [c], wtsDelimiters.contains a = true := by simpa using hc
  have hrest := ((hrs.separators_append hsep).token_append hne hw
    (by simpa using hc)).separators_append hg
  simpa [shifted, Function.comp_def, Nat.add_assoc] using hrest

/-- The state after a token in front of a delimiter, which is at `stop`. -/
def WtsLoop.found (st : WtsLoop) (token stop : ℕ) : WtsLoop :=
  ⟨st.wts_list.put st.wts [some token], st.wts + 1,
    ⟨st.strtok.buf.put stop [0], some (stop + 1)⟩⟩

namespace WtsLoop.Done

/-- No token. -/
theorem nil (n : Option ℕ) : st.Done
    ⟨st.wts_list.put st.wts [none], st.wts + 1, ⟨st.strtok.buf, n⟩⟩ i [] where
  wts_list := rfl
  wts := rfl
  size := rfl
  before _ _ := rfl
  strings := by simp

/-- A last token. -/
theorem last (h : StringAt st.strtok.buf i (g ++ w)) (n : Option ℕ) :
    st.Done ⟨(st.wts_list.put st.wts [some (i + g.length)]).put (st.wts + 1) [none],
      st.wts + 1 + 1, ⟨st.strtok.buf, n⟩⟩ i [(g.length, w)] where
  wts_list := Block.put_cons
  wts := rfl
  size := rfl
  before _ _ := rfl
  strings e he := by
    rw [List.mem_singleton.1 he]
    exact h.behind

/-- **One token more**: it is ended by a NUL, and what is behind that is
taken apart next. -/
theorem token (h : StringAt st.strtok.buf i (g ++ (w ++ c :: r)))
    (hd : (st.found (i + g.length) (i + g.length + w.length)).Done st'
      (i + g.length + w.length + 1) rs) :
    st.Done st' i ((g.length, w) :: shifted (g.length + w.length + 1) rs) := by
  have hplace : ∀ j, i + (g.length + w.length + 1 + j) = i + g.length + w.length + 1 + j := by
    omega
  refine ⟨?_, ?_, hd.size, fun k hk => ?_, fun e he => ?_⟩
  · have hput : st'.wts_list = (st.wts_list.put st.wts [some (i + g.length)]).put (st.wts + 1) _ :=
      hd.wts_list
    rw [hput, Block.put_cons, List.map_cons, List.cons_append, shifted, List.map_map]
    simp only [Function.comp_def, hplace]
  · have hwts : st'.wts = st.wts + 1 + rs.length + 1 := hd.wts
    rw [hwts, List.length_cons, length_shifted]
    omega
  · rw [hd.before k (by omega)]
    exact Block.cell_put_of_lt (by omega)
  · rcases List.mem_cons.1 he with rfl | he
    · exact h.behind.cut.1.congr hd.size hd.before
    · obtain ⟨j, hj, hm⟩ := mem_shifted.1 (show (e.1, e.2) ∈ _ from he)
      rw [hj, hplace]
      exact hd.strings _ hm

end WtsLoop.Done

/-- **The rest of the string is taken apart**, if there is room for its
tokens. -/
theorem wtsLoop_done (hnext : st.strtok.next = some i) (hs : StringAt st.strtok.buf i rest)
    (hrs : Enumerates wtsDelimiters.contains rest rs) (hfuel : rest.length ≤ fuel)
    (hroom : st.wts + rs.length < st.wts_list.size) :
    ∃ st', (nextWts st >>= wtsLoop fuel) = .ok st' ∧ st.Done st' i rs := by
  have h0 : 0 ∉ wtsDelimiters := by decide
  induction fuel using Nat.strong_induction_on generalizing st i rest rs with
  | _ fuel ih =>
      rcases tokens_cut wtsDelimiters.contains rest with hg | ⟨g, w, r, rfl, hg, hne, hw, hr⟩
      · obtain rfl := hrs.unique (enumerates_separators hg)
        refine ⟨_, ?_, .nil none⟩
        rw [nextWts_eq (strtok_separators hnext h0 hs hg) hroom, Exec.ok_bind, wtsLoop_none]
      have hpos := List.length_pos_iff.2 hne
      rw [List.length_append, List.length_append] at hfuel
      obtain ⟨fuel, rfl⟩ : ∃ n, fuel = n + 1 := Nat.exists_eq_add_one.2 (by omega)
      cases r with
      | nil =>
          rw [List.append_nil] at hs hrs
          obtain rfl := hrs.unique (enumerates_last hg hne hw)
          rw [List.length_singleton] at hroom
          refine ⟨_, ?_, .last hs none⟩
          rw [nextWts_eq (strtok_last hnext hs hg hne hw) (by omega), Exec.ok_bind, wtsLoop,
            wtsLoop_end rfl hroom]
      | cons c r =>
          obtain ⟨rs, hrest, -⟩ := exists_enumerates wtsDelimiters.contains r
          have hc := hr c rfl
          obtain rfl := hrs.unique (enumerates_first hrest hg hne hw hc)
          rw [List.length_cons, length_shifted] at hroom
          rw [List.length_cons] at hfuel
          have hroom' : (st.found (i + g.length) (i + g.length + w.length)).wts + rs.length <
              (st.found (i + g.length) (i + g.length + w.length)).wts_list.size := by
            show st.wts + 1 + rs.length < st.wts_list.size
            omega
          obtain ⟨st', hloop, hd⟩ :=
            ih fuel (by omega) rfl hs.behind.cut.2 hrest (by omega) hroom'
          refine ⟨st', ?_, hd.token hs⟩
          rw [nextWts_eq (strtok_token hnext hs hg hne hw hc) (by omega), Exec.ok_bind, wtsLoop]
          exact hloop

/-! ## The array -/

/-- The state before the first token: a new array, and a copy of the
string. -/
def WtsLoop.start (list₀ : ℕ → Option ℕ) (split₀ : ℕ → UInt8) (s : List UInt8) : WtsLoop where
  wts_list := ⟨(s.length + 1) / 2 + 1, list₀⟩
  wts := 0
  strtok := ⟨(⟨s.length + 1, split₀⟩ : Block UInt8).put 0 (s ++ [0]), some 0⟩

theorem stringAt_start (hs : 0 ∉ s) : StringAt (WtsLoop.start list₀ split₀ s).strtok.buf 0 s := by
  refine ⟨?_, ?_, hs⟩
  · show 0 + s.length + 1 ≤ s.length + 1
    omega
  · have hput : (WtsLoop.start list₀ split₀ s).strtok.buf.slice 0 (s ++ [0]).length = s ++ [0] :=
      Block.slice_put_self
    rwa [List.length_append] at hput

/-- What the loop leaves in the new array. -/
theorem WtsLoop.Done.holds (h : (WtsLoop.start list₀ split₀ s).Done st' 0 rs)
    (hroom : rs.length + 1 ≤ (s.length + 1) / 2 + 1) :
    WtsMemory.Holds ⟨st'.wts_list, st'.strtok.buf⟩ ((s.length + 1) / 2 + 1) list₀ rs := by
  have hlist : st'.wts_list = (WtsLoop.start list₀ split₀ s).wts_list.put 0
      (rs.map (fun e => some e.1) ++ [none]) := by
    rw [h.wts_list]
    simp only [Nat.zero_add]
    rfl
  refine ⟨by rw [hlist]; rfl, hroom, ?_, fun k hk => ?_, fun e he => ?_⟩
  · have hlen : rs.length + 1 = (rs.map (fun e : ℕ × List UInt8 => some e.1) ++ [none]).length := by
      simp
    rw [hlist, hlen]
    exact Block.slice_put_self
  · rw [hlist]
    refine Block.cell_put_of_le ?_
    rw [List.length_append, List.length_map, List.length_singleton]
    omega
  · have hstring := h.strings e he
    rw [Nat.zero_add] at hstring
    exact hstring.string_eq

/-- **The array of a string** holds its runs. -/
theorem splitWhatToShowBytes_holds (hs : 0 ∉ s) (hrs : Enumerates wtsDelimiters.contains s rs)
    (list₀ : ℕ → Option ℕ) (split₀ : ℕ → UInt8) :
    ∃ m, splitWhatToShowBytes list₀ split₀ s = .ok m ∧
      m.Holds ((s.length + 1) / 2 + 1) list₀ rs := by
  have hcount := hrs.length_le
  have hroom : (WtsLoop.start list₀ split₀ s).wts + rs.length <
      (WtsLoop.start list₀ split₀ s).wts_list.size := by
    show 0 + rs.length < (s.length + 1) / 2 + 1
    omega
  obtain ⟨st, hloop, hd⟩ := wtsLoop_done rfl (stringAt_start hs) hrs (Nat.le_succ s.length) hroom
  have hholds := hd.holds (by omega)
  have hwts : st.wts = rs.length + 1 := by
    rw [hd.wts]
    exact congrArg (· + 1) (Nat.zero_add _)
  have hlast : st.wts_list.read (st.wts - 1) = (.ok none : Exec Assertion _) := by
    have hread : st.wts_list.read (0 + rs.length) = (.ok none : Exec Assertion _) :=
      Block.read_of_slice hholds.pointers (by rw [Nat.zero_add, hholds.size_eq]; exact hholds.room)
        (by rw [List.getElem?_append_right (by simp)]; simp)
    rwa [hwts, Nat.add_sub_cancel, ← Nat.zero_add rs.length]
  have hcopy : ((⟨s.length + 1, split₀⟩ : Block UInt8).write 0 (s ++ [0]) : Exec Assertion _) =
      .ok (WtsLoop.start list₀ split₀ s).strtok.buf := Block.write_eq (by simp)
  obtain ⟨first, hfirst, hrest⟩ := Exec.bind_eq_ok.1 hloop
  have hfirst' : nextWts ⟨⟨(s.length + 1) / 2 + 1, list₀⟩, 0,
      ⟨(WtsLoop.start list₀ split₀ s).strtok.buf, some 0⟩⟩ = .ok first := hfirst
  have hsize : st.wts ≤ (s.length + 1) / 2 + 1 := by
    rw [hwts]
    exact hholds.room
  refine ⟨⟨st.wts_list, st.strtok.buf⟩, ?_, hholds⟩
  simp only [splitWhatToShowBytes, hcopy, hfirst', hrest, hlast, Exec.ok_bind]
  rw [Exec.ensure_of_true trivial, Exec.ok_bind, Exec.ensure_of_true hsize, Exec.ok_bind]
  rfl

/-- **`split_whatToShow` stays in bounds**: it gets through for every
string, so that all it reads and writes is where it should be and its
assertions hold, and the array has the runs of the string, in order. -/
theorem split_whatToShow_in_bounds (hs : 0 ∉ s) (list₀ : ℕ → Option ℕ) (split₀ : ℕ → UInt8) :
    ∃ m rs, splitWhatToShowBytes list₀ split₀ s = .ok m ∧
      Enumerates wtsDelimiters.contains s rs ∧ m.Holds ((s.length + 1) / 2 + 1) list₀ rs := by
  obtain ⟨rs, hrs, -⟩ := exists_enumerates wtsDelimiters.contains s
  obtain ⟨m, hm, hholds⟩ := splitWhatToShowBytes_holds hs hrs list₀ split₀
  exact ⟨m, rs, hm, hrs, hholds⟩

/-- `BID, ASK`. -/
theorem split_whatToShow_in_bounds_bidAsk :
    0 ∉ ([66, 73, 68, 44, 32, 65, 83, 75] : List UInt8) ∧
      ∃ m rs, splitWhatToShowBytes (fun _ => none) (fun _ => 255)
          [66, 73, 68, 44, 32, 65, 83, 75] = .ok m ∧
        Enumerates wtsDelimiters.contains [66, 73, 68, 44, 32, 65, 83, 75] rs ∧
        m.Holds 5 (fun _ => none) rs :=
  ⟨by decide, split_whatToShow_in_bounds (by decide) _ _⟩

/-- **There is no room to spare**: for every length some string fills the
array. -/
theorem exists_full_wts_list (n : ℕ) : ∃ s : List UInt8, s.length = n ∧ 0 ∉ s ∧
    ∀ (list₀ : ℕ → Option ℕ) (split₀ : ℕ → UInt8), ∃ m rs,
      splitWhatToShowBytes list₀ split₀ s = .ok m ∧ m.Holds (rs.length + 1) list₀ rs := by
  obtain ⟨s, hlen, hmem, hcount⟩ := exists_length_tokens (p := wtsDelimiters.contains)
    (a := 65) (b := 44) (by decide) (by decide) n
  have hs : 0 ∉ s := fun h0 => by
    rcases hmem 0 h0 with h | h <;> exact absurd h (by decide)
  refine ⟨s, hlen, hs, fun list₀ split₀ => ?_⟩
  obtain ⟨rs, hrs, htok⟩ := exists_enumerates wtsDelimiters.contains s
  obtain ⟨m, hm, hholds⟩ := splitWhatToShowBytes_holds hs hrs list₀ split₀
  have hfull : rs.length = (s.length + 1) / 2 := by
    rw [hlen, ← hcount, ← htok, List.length_map]
  rw [← hfull] at hholds
  exact ⟨m, rs, hm, hholds⟩

/-! ## What the generator gets -/

theorem WtsMemory.strings_eq {m : WtsMemory} {n : ℕ}
    (hin : i + rs.length + 1 ≤ m.wts_list.size) (hn : rs.length < n)
    (hs : m.wts_list.slice i (rs.length + 1) = rs.map (fun e => some e.1) ++ [none])
    (hstr : ∀ e ∈ rs, m.wts_split.string e.1 = (.ok e.2 : Exec Assertion _)) :
    m.strings n i = .ok (rs.map Prod.snd) := by
  induction rs generalizing i n with
  | nil =>
      obtain ⟨n, rfl⟩ := Nat.exists_eq_add_of_lt hn
      have hread : m.wts_list.read (i + 0) = (.ok none : Exec Assertion _) :=
        Block.read_of_slice hs hin rfl
      rw [Nat.add_zero] at hread
      rw [WtsMemory.strings, hread]
      rfl
  | cons e rs ih =>
      cases n with
      | zero => exact absurd hn (Nat.not_lt_zero _)
      | succ n =>
          have hread : m.wts_list.read (i + 0) = (.ok (some e.1) : Exec Assertion _) :=
            Block.read_of_slice hs hin rfl
          rw [Nat.add_zero] at hread
          rw [List.length_cons] at hin hn hs
          rw [Block.slice_succ, List.map_cons, List.cons_append] at hs
          have hrest : m.strings n (i + 1) = .ok (rs.map Prod.snd) :=
            ih (by omega) (by omega) (List.cons.inj hs).2 fun e he =>
              hstr e (List.mem_cons_of_mem _ he)
          rw [WtsMemory.strings, hread]
          simp only [Exec.ok_bind, hstr e List.mem_cons_self, hrest, List.map_cons]
          rfl

/-- **The strings of the array** are the tokens. -/
theorem WtsMemory.Holds.strings_eq {m : WtsMemory} {size : ℕ} (h : m.Holds size list₀ rs) :
    m.strings m.wts_list.size 0 = .ok (rs.map Prod.snd) := by
  have hroom : rs.length + 1 ≤ m.wts_list.size := by
    rw [h.size_eq]
    exact h.room
  exact WtsMemory.strings_eq (by rwa [Nat.zero_add]) hroom h.pointers h.strings

/-- **A delimiter is one byte**, and no other character has it. -/
theorem tokens_utf8 (cs : List Char) :
    tokens wtsDelimiters.contains (utf8 cs) = (tokens isDelimiter cs).map utf8 := by
  refine tokens_flatMap (fun c => String.utf8EncodeChar_ne_nil) (fun c hc => ?_) fun c hc b hb => ?_
  · have hc' : c = ',' ∨ c = ' ' ∨ c = '\t' := by simpa [isDelimiter] using hc
    rcases hc' with rfl | rfl | rfl
    · exact ⟨44, by decide, by decide⟩
    · exact ⟨32, by decide, by decide⟩
    · exact ⟨9, by decide, by decide⟩
  · rw [Bool.eq_false_iff]
    intro hsep
    have hb' : b = 44 ∨ b = 32 ∨ b = 9 := by simpa [wtsDelimiters] using hsep
    have hchar : c.toNat = 44 ∨ c.toNat = 32 ∨ c.toNat = 9 := by
      rcases hb' with rfl | rfl | rfl
      · exact .inl ((ascii_mem_utf8EncodeChar (show 44 < 128 by decide)).1 hb)
      · exact .inr (.inl ((ascii_mem_utf8EncodeChar (show 32 < 128 by decide)).1 hb))
      · exact .inr (.inr ((ascii_mem_utf8EncodeChar (show 9 < 128 by decide)).1 hb))
    have hc' : c = ',' ∨ c = ' ' ∨ c = '\t' :=
      hchar.imp Char.toNat_inj.1 (Or.imp Char.toNat_inj.1 Char.toNat_inj.1)
    simp [isDelimiter, hc'] at hc

/-- **The array in memory is the list of the model**: what the generator
reads from it are the bytes of the kinds of data it makes jobs for. -/
theorem splitWhatToShowBytes_refines {t : String} (ht : CString t) (list₀ : ℕ → Option ℕ)
    (split₀ : ℕ → UInt8) : ∃ m wts_list,
      splitWhatToShowBytes list₀ split₀ (utf8 t.toList) = .ok m ∧
        splitWhatToShow t = .ok wts_list ∧
        m.strings m.wts_list.size 0 =
          .ok ((wts_list.takeWhile Option.isSome).reduceOption.map fun wts =>
            utf8 wts.toList) := by
  have hnul : 0 ∉ utf8 t.toList := fun h0 => by
    obtain ⟨c, hc, hzero⟩ := (ascii_mem_utf8 (show 0 < 128 by decide)).1 h0
    exact CString.iff_forall.1 ht c hc hzero
  obtain ⟨rs, hrs, htok⟩ := exists_enumerates wtsDelimiters.contains (utf8 t.toList)
  obtain ⟨m, hm, hholds⟩ := splitWhatToShowBytes_holds hnul hrs list₀ split₀
  refine ⟨m, _, hm, splitWhatToShow_eq t, ?_⟩
  rw [hholds.strings_eq, htok, tokens_utf8, reduceOption_wts_list, whatToShows, List.map_map]
  simp only [Function.comp_def, String.toList_ofList]

end Twstools
