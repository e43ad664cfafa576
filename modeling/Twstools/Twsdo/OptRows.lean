import Twstools.Clib.Printf
import Twstools.Common.Separated
import Twstools.Twsdo.Packet
import Twstools.Xml.Node
/-!
# Option parameters as text

`PacketOptParams::dumpXml` prints a row as six fields with tabs between
them, the last two with commas inside. The newline comes with the last
strike, so a row without strikes has none, and the next row goes on in its
line (`opt_params_rows_iff`).
-/

namespace Twstools

namespace RowOptParams

variable (r : RowOptParams)

/-- The loop over `expirations`: a comma if there is a next one. -/
def dumpExpirations : List String → List Char
  | [] => []
  | it :: next => (c_str it).toList ++ (if next ≠ [] then [','] else []) ++ dumpExpirations next

/-- The loop over `strikes`: a comma if there is a next one, else the end of
the line. -/
def dumpStrikes : List Double → List Char
  | [] => []
  | it :: next => it.printG ++ (if next ≠ [] then [','] else ['\n']) ++ dumpStrikes next

/-- The body of the loop over the rows. -/
def dumpRow : List Char :=
  (c_str r.exchange).toList ++ '\t' :: ((toString r.underlyingConId).toList ++
    '\t' :: ((c_str r.tradingClass).toList ++ '\t' :: ((c_str r.multiplier).toList ++
      '\t' :: (dumpExpirations r.expirations ++ '\t' :: dumpStrikes r.strikes))))

end RowOptParams

/-- `PacketOptParams::dumpXml`: what is printed. -/
def PacketOptParams.dumpXml (p : PacketOptParams) : List Char :=
  p.opList.flatMap RowOptParams.dumpRow

/-! ## What can be read -/

/-- A row with the strikes as they are printed. -/
@[ext] structure PrintedRow where
  exchange : String
  underlyingConId : ℤ
  tradingClass : String
  multiplier : String
  expirations : List String
  strikes : List String
  deriving DecidableEq

namespace RowOptParams

variable (r : RowOptParams)

def printed : PrintedRow where
  exchange := r.exchange
  underlyingConId := r.underlyingConId
  tradingClass := r.tradingClass
  multiplier := r.multiplier
  expirations := r.expirations
  strikes := r.strikes.map fun x => String.ofList x.printG

/-- The six fields. -/
def columns : List (List Char) :=
  [r.exchange.toList, (toString r.underlyingConId).toList, r.tradingClass.toList,
    r.multiplier.toList, joined ',' (r.expirations.map String.toList),
    joined ',' (r.strikes.map Double.printG)]

/-- The line of a row. -/
def line : List Char := joined '\t' r.columns

end RowOptParams

/-- Six fields are read, the last two as lists. -/
def readColumns : List (List Char) → Option PrintedRow
  | [exchange, underlyingConId, tradingClass, multiplier, expirations, strikes] =>
      some
        { exchange := String.ofList exchange
          underlyingConId := atoi (String.ofList underlyingConId)
          tradingClass := String.ofList tradingClass
          multiplier := String.ofList multiplier
          expirations := (fields ',' expirations).map String.ofList
          strikes := (fields ',' strikes).map String.ofList }
  | _ => none

/-- The rows are read from the lines of a text. -/
def readRows (s : List Char) : Option (List PrintedRow) :=
  (lines '\n' s).mapM fun l => readColumns (l.splitOn '\t')

/-- **One line per row**, in order, with the six fields, and they can be
read. -/
structure PacketOptParams.WritesRows (p : PacketOptParams) : Prop where
  lines : p.dumpXml = terminated '\n' (p.opList.map RowOptParams.line)
  oneLine : ∀ r ∈ p.opList, '\n' ∉ r.line
  read : readRows p.dumpXml = some (p.opList.map RowOptParams.printed)

/-- A string without tab, comma or newline. -/
def NoSeparator (s : String) : Prop := '\t' ∉ s.toList ∧ ',' ∉ s.toList ∧ '\n' ∉ s.toList

instance (s : String) : Decidable (NoSeparator s) := inferInstanceAs (Decidable (_ ∧ _))

/-- The strings of the row have none of these, and the number is of its
type. -/
structure RowOptParams.NoSeparators (r : RowOptParams) : Prop where
  exchange : NoSeparator r.exchange
  underlyingConId : InInt r.underlyingConId
  tradingClass : NoSeparator r.tradingClass
  multiplier : NoSeparator r.multiplier
  expirations : ∀ e ∈ r.expirations, NoSeparator e

/-- No string of the row has a NUL. -/
structure RowOptParams.Clean (r : RowOptParams) : Prop where
  exchange : CString r.exchange
  tradingClass : CString r.tradingClass
  multiplier : CString r.multiplier
  expirations : ∀ e ∈ r.expirations, CString e

namespace RowOptParams

variable {r r' : RowOptParams}

/-! ## The loops -/

theorem dumpExpirations_eq (es : List String) :
    dumpExpirations es = joined ',' (es.map fun e => (c_str e).toList) := by
  induction es with
  | nil => rfl
  | cons e es ih =>
      cases es with
      | nil => simp [dumpExpirations, joined]
      | cons e' es =>
          rw [dumpExpirations, ih, if_pos (List.cons_ne_nil _ _)]
          simp only [List.map_cons, joined_cons_cons, List.append_assoc, List.singleton_append]

theorem dumpStrikes_eq {xs : List Double} (h : xs ≠ []) :
    dumpStrikes xs = joined ',' (xs.map Double.printG) ++ ['\n'] := by
  induction xs with
  | nil => exact absurd rfl h
  | cons x xs ih =>
      cases xs with
      | nil => simp [dumpStrikes, joined]
      | cons x' xs =>
          rw [dumpStrikes, ih (List.cons_ne_nil _ _), if_pos (List.cons_ne_nil _ _)]
          simp only [List.map_cons, joined_cons_cons, List.append_assoc, List.cons_append,
            List.nil_append]

/-- The row as `%s` prints its strings. -/
def cut (r : RowOptParams) : RowOptParams :=
  { r with
    exchange := c_str r.exchange
    tradingClass := c_str r.tradingClass
    multiplier := c_str r.multiplier
    expirations := r.expirations.map c_str }

/-- **A row with strikes** is printed as a line. -/
theorem dumpRow_eq (h : r.strikes ≠ []) : r.dumpRow = r.cut.line ++ ['\n'] := by
  rw [dumpRow, dumpExpirations_eq, dumpStrikes_eq h, line, columns]
  simp only [joined_cons_cons, cut, List.map_map]
  simp only [joined, List.intercalate_singleton, List.append_assoc, List.cons_append]
  rfl

/-! ## What is in the fields -/

/-- No tab and no newline is in a field. -/
theorem notMem_columns {c : Char} (hc : c = '\t' ∨ c = '\n') (hr : r.NoSeparators) :
    ∀ l ∈ r.columns, c ∉ l := by
  have hcomma : c ≠ ',' := by
    rcases hc with rfl | rfl
    · decide
    · decide
  have hstring : ∀ {s : String}, NoSeparator s → c ∉ s.toList := by
    intro s hs
    rcases hc with rfl | rfl
    · exact hs.1
    · exact hs.2.2
  have hplain : ∀ {cs : List Char}, Plain cs → c ∉ cs := by
    intro cs hcs
    rcases hc with rfl | rfl
    · exact hcs.not_mem (by decide) (by decide)
    · exact hcs.not_mem (by decide) (by decide)
  simp only [columns, List.forall_mem_cons, mem_joined hcomma, List.mem_map]
  refine ⟨hstring hr.exchange, hplain (plain_toString _), hstring hr.tradingClass,
    hstring hr.multiplier, ?_, ?_, fun l hl => absurd hl List.not_mem_nil⟩
  · rintro ⟨l, ⟨e, he, rfl⟩, hmem⟩
    exact hstring (hr.expirations e he) hmem
  · rintro ⟨l, ⟨x, -, rfl⟩, hmem⟩
    exact hplain (plain_printPrec 6 x) hmem

theorem newline_notMem_line (hr : r.NoSeparators) : '\n' ∉ r.line := by
  intro h
  obtain ⟨l, hl, hmem⟩ := (mem_joined (by decide)).1 h
  exact notMem_columns (.inr rfl) hr l hl hmem

theorem splitOn_line (hr : r.NoSeparators) : r.line.splitOn '\t' = r.columns :=
  splitOn_joined (notMem_columns (.inl rfl) hr) (List.cons_ne_nil _ _)

theorem noSeparator_c_str {s : String} (h : NoSeparator s) : NoSeparator (c_str s) := by
  have hsub : ∀ c ∈ (c_str s).toList, c ∈ s.toList := by
    intro c hc
    rw [c_str, String.toList_ofList] at hc
    exact (List.takeWhile_prefix _).subset hc
  exact ⟨fun hc => h.1 (hsub _ hc), fun hc => h.2.1 (hsub _ hc), fun hc => h.2.2 (hsub _ hc)⟩

theorem NoSeparators.cut (hr : r.NoSeparators) : r.cut.NoSeparators where
  exchange := noSeparator_c_str hr.exchange
  underlyingConId := hr.underlyingConId
  tradingClass := noSeparator_c_str hr.tradingClass
  multiplier := noSeparator_c_str hr.multiplier
  expirations := by
    intro e he
    obtain ⟨e', he', rfl⟩ := List.mem_map.1 he
    exact noSeparator_c_str (hr.expirations e' he')

/-- **A row without strikes** is printed without a newline. -/
theorem newline_notMem_dumpRow (hr : r.NoSeparators) (h : r.strikes = []) :
    '\n' ∉ r.dumpRow := by
  -- but for the strikes it is a line
  have hline : r.dumpRow = r.cut.line := by
    rw [dumpRow, dumpExpirations_eq, h, line, columns]
    simp only [joined_cons_cons, cut, List.map_map, h]
    simp only [joined, List.intercalate_singleton]
    rfl
  rw [hline]
  exact newline_notMem_line hr.cut

theorem count_dumpRow (hr : r.NoSeparators) :
    r.dumpRow.count '\n' = if r.strikes ≠ [] then 1 else 0 := by
  by_cases h : r.strikes = []
  · rw [if_neg (not_not.2 h)]
    exact List.count_eq_zero.2 (newline_notMem_dumpRow hr h)
  · rw [if_pos h, dumpRow_eq h, List.count_append,
      List.count_eq_zero.2 (newline_notMem_line hr.cut)]
    rfl

/-! ## What is read -/

theorem map_ofList_toList (es : List String) : (es.map String.toList).map String.ofList = es := by
  rw [List.map_map]
  exact (List.map_congr_left fun s _ => String.ofList_toList).trans (List.map_id _)

/-- The strikes are found again, as they are printed. -/
theorem fields_strikes (xs : List Double) :
    fields ',' (joined ',' (xs.map Double.printG)) = xs.map Double.printG := by
  refine (fields_joined_iff fun l hl => ?_).2 fun h => ?_
  · obtain ⟨x, -, rfl⟩ := List.mem_map.1 hl
    exact (plain_printPrec 6 x).not_mem (by decide) (by decide)
  · obtain ⟨x, -, hx⟩ := List.mem_map.1 (h ▸ List.mem_singleton_self [] : [] ∈ xs.map Double.printG)
    exact Double.printPrec_ne_nil 6 x hx

/-- **The fields are read back** unless there is one expiration, and it is
empty. -/
theorem readColumns_columns (hr : r.NoSeparators) :
    readColumns r.columns = some r.printed ↔ r.expirations ≠ [""] := by
  have hsep : ∀ l ∈ r.expirations.map String.toList, ',' ∉ l := by
    intro l hl
    obtain ⟨e, he, rfl⟩ := List.mem_map.1 hl
    exact (hr.expirations e he).2.1
  have hempty : r.expirations.map String.toList = [[]] ↔ r.expirations = [""] := by
    constructor
    · intro h
      rw [← map_ofList_toList r.expirations, h]
      rfl
    · intro h
      rw [h]
      rfl
  rw [ne_eq, ← hempty, ← ne_eq, ← fields_joined_iff hsep, columns, readColumns, printed,
    Option.some.injEq, PrintedRow.mk.injEq, fields_strikes, List.map_map]
  simp only [String.ofList_toList, atoi_toString hr.underlyingConId, true_and]
  constructor
  · rintro ⟨h, -⟩
    have hid : String.toList ∘ String.ofList = id := funext fun _ => String.toList_ofList
    have hmap := congrArg (List.map String.toList) h
    rwa [List.map_map, hid, List.map_id] at hmap
  · intro h
    exact ⟨by rw [h, map_ofList_toList], rfl⟩

/-! ## What is cut -/

/-- The expirations are found again, if there is one. -/
theorem splitOn_expirations {es : List String} (h : ∀ e ∈ es, NoSeparator e) (hne : es ≠ []) :
    (joined ',' (es.map String.toList)).splitOn ',' = es.map String.toList := by
  refine splitOn_joined (fun l hl => ?_) (by simpa using hne)
  obtain ⟨e, he, rfl⟩ := List.mem_map.1 hl
  exact (h e he).2.1

/-- **A NUL in a string** shows in the line. -/
theorem cut_line_eq_iff (hr : r.NoSeparators) : r.cut.line = r.line ↔ r.Clean := by
  constructor
  · intro h
    have hcol : r.cut.columns = r.columns := by rw [← splitOn_line hr.cut, h, splitOn_line hr]
    simp only [columns, List.cons.injEq, String.toList_inj, cut] at hcol
    obtain ⟨hex, -, htc, hmu, hexp, -⟩ := hcol
    refine ⟨hex, htc, hmu, fun e he => ?_⟩
    have hne : r.expirations ≠ [] := List.ne_nil_of_mem he
    have hsplit : (r.expirations.map c_str).map String.toList =
        r.expirations.map String.toList := by
      have hcut : (joined ',' ((r.expirations.map c_str).map String.toList)).splitOn ',' = _ :=
        splitOn_expirations hr.cut.expirations (by simpa using hne)
      rw [← hcut, hexp, splitOn_expirations hr.expirations hne]
    have hsame := List.map_inj_right (fun _ _ => String.toList_inj.1) |>.1 hsplit
    exact map_eq_self_iff.1 hsame e he
  · rintro ⟨hex, htc, hmu, hexp⟩
    have hes : r.expirations.map c_str = r.expirations := map_eq_self_iff.2 hexp
    have hcut : r.cut = r := by
      rw [cut, hex, htc, hmu, hes]
    rw [hcut]

/-! ## The packet -/

/-- There is a newline for each row with strikes. -/
theorem count_dumpXml {rows : List RowOptParams} (h : ∀ r ∈ rows, r.NoSeparators) :
    (rows.flatMap dumpRow).count '\n' = (rows.filter (·.strikes ≠ [])).length := by
  induction rows with
  | nil => rfl
  | cons r rows ih =>
      rw [List.flatMap_cons, List.count_append, count_dumpRow (h r List.mem_cons_self),
        ih fun r hr => h r (List.mem_cons_of_mem _ hr), List.filter_cons]
      by_cases hs : r.strikes = []
      · simp [hs]
      · simp [hs, Nat.add_comm]

/-- Rows with strikes are printed as lines. -/
theorem dumpXml_eq {rows : List RowOptParams} (h : ∀ r ∈ rows, r.strikes ≠ []) :
    rows.flatMap dumpRow = terminated '\n' (rows.map fun r => r.cut.line) := by
  rw [terminated, List.flatMap_map]
  exact List.flatMap_congr fun r hr => dumpRow_eq (h r hr)

/-- What is read from lines. -/
theorem readRows_lines {rows : List RowOptParams} (h : ∀ r ∈ rows, r.NoSeparators) :
    readRows (terminated '\n' (rows.map line)) = some (rows.map printed) ↔
      ∀ r ∈ rows, r.expirations ≠ [""] := by
  have hlines : lines '\n' (terminated '\n' (rows.map line)) = rows.map line := by
    refine lines_terminated fun l hl => ?_
    obtain ⟨r, hr, rfl⟩ := List.mem_map.1 hl
    exact newline_notMem_line (h r hr)
  rw [readRows, hlines]
  clear hlines
  induction rows with
  | nil => exact ⟨fun _ r hr => absurd hr List.not_mem_nil, fun _ => rfl⟩
  | cons r rows ih =>
      have hr := h r List.mem_cons_self
      have hrows := ih fun r hr => h r (List.mem_cons_of_mem _ hr)
      rw [List.forall_mem_cons]
      refine Iff.trans ?_ (and_congr (readColumns_columns hr) hrows)
      rw [List.map_cons, List.mapM_cons, splitOn_line hr, List.map_cons]
      constructor
      · intro hread
        obtain ⟨row, hrow, hread⟩ := Option.bind_eq_some_iff.1 hread
        obtain ⟨rest, hrest, hread⟩ := Option.bind_eq_some_iff.1 hread
        obtain ⟨rfl, rfl⟩ := List.cons.inj (Option.some.inj hread)
        exact ⟨hrow, hrest⟩
      · rintro ⟨hrow, hrest⟩
        rw [hrow, hrest]
        rfl

end RowOptParams

/-- **Option parameters are written one line per row**, and can be read,
exactly if every row has a strike, no row has an empty expiration alone, and
no string has a NUL. -/
theorem opt_params_rows_iff (p : PacketOptParams) (h : ∀ r ∈ p.opList, r.NoSeparators) :
    p.WritesRows ↔ ∀ r ∈ p.opList, r.strikes ≠ [] ∧ r.expirations ≠ [""] ∧ r.Clean := by
  have hline : ∀ r ∈ p.opList, '\n' ∉ r.line := fun r hr => r.newline_notMem_line (h r hr)
  have hlines : ∀ l ∈ p.opList.map RowOptParams.line, '\n' ∉ l := by
    intro l hl
    obtain ⟨r, hr, rfl⟩ := List.mem_map.1 hl
    exact hline r hr
  constructor
  · rintro ⟨hwrite, -, hread⟩
    have hcount := count_terminated hlines
    rw [← hwrite, List.length_map, PacketOptParams.dumpXml, RowOptParams.count_dumpXml h] at hcount
    have hstrikes : ∀ r ∈ p.opList, r.strikes ≠ [] := by
      intro r hr
      exact of_decide_eq_true (List.length_filter_eq_length_iff.1 hcount r hr)
    rw [hwrite] at hread
    have hexp := (RowOptParams.readRows_lines h).1 hread
    -- the lines of the strings that were cut are those of the strings
    have hcut : p.opList.map (fun r => r.cut.line) = p.opList.map RowOptParams.line := by
      rw [PacketOptParams.dumpXml, RowOptParams.dumpXml_eq hstrikes] at hwrite
      rw [← lines_terminated hlines, ← hwrite, lines_terminated]
      intro l hl
      obtain ⟨r, hr, rfl⟩ := List.mem_map.1 hl
      exact RowOptParams.newline_notMem_line (h r hr).cut
    intro r hr
    refine ⟨hstrikes r hr, hexp r hr, (RowOptParams.cut_line_eq_iff (h r hr)).1 ?_⟩
    exact List.map_inj_left.1 hcut r hr
  · intro hall
    have hwrite : p.dumpXml = terminated '\n' (p.opList.map RowOptParams.line) := by
      rw [PacketOptParams.dumpXml, RowOptParams.dumpXml_eq fun r hr => (hall r hr).1]
      congr 1
      exact List.map_congr_left fun r hr =>
        (RowOptParams.cut_line_eq_iff (h r hr)).2 (hall r hr).2.2
    refine ⟨hwrite, hline, ?_⟩
    rw [hwrite]
    exact (RowOptParams.readRows_lines h).2 fun r hr => (hall r hr).2.1

/-- Options of a share, at one exchange. -/
def optRow (exchange : String) (strikes : List Double) : RowOptParams where
  exchange := exchange
  underlyingConId := 756733
  tradingClass := "SPY"
  multiplier := "100"
  expirations := ["20150116", "20150220"]
  strikes := strikes

theorem optRow_noSeparators {exchange : String} {strikes : List Double}
    (h : NoSeparator exchange) : (optRow exchange strikes).NoSeparators where
  exchange := h
  underlyingConId := show InInt 756733 by decide
  tradingClass := show NoSeparator "SPY" by decide
  multiplier := show NoSeparator "100" by decide
  expirations := show ∀ e ∈ ["20150116", "20150220"], NoSeparator e by decide

/-- One row with two strikes. -/
theorem opt_params_rows_iff_smart :
    PacketOptParams.WritesRows { opList := [optRow "SMART" [200, .finite (411 / 2)]] } ↔
      ∀ r ∈ [optRow "SMART" [200, .finite (411 / 2)]],
        r.strikes ≠ [] ∧ r.expirations ≠ [""] ∧ r.Clean :=
  opt_params_rows_iff { opList := [optRow "SMART" [200, .finite (411 / 2)]] } fun r hr => by
    rw [List.mem_singleton.1 hr]
    exact optRow_noSeparators (by decide)

/-- **Two rows, one line**: the first exchange has no strikes. -/
theorem row_without_strikes :
    (∀ r ∈ [optRow "CBOE" [], optRow "SMART" [200]], r.NoSeparators) ∧
      ¬ PacketOptParams.WritesRows { opList := [optRow "CBOE" [], optRow "SMART" [200]] } := by
  constructor
  · intro r hr
    rw [List.mem_cons, List.mem_singleton] at hr
    rcases hr with rfl | rfl
    · exact optRow_noSeparators (by decide)
    · exact optRow_noSeparators (by decide)
  · intro h
    have hcount := congrArg (List.count '\n') h.lines
    exact absurd hcount (by decide +kernel)

end Twstools
