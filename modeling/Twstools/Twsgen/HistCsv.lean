import Twstools.Clib.Printf
import Twstools.Common.Separated
import Twstools.Twsgen.IsoDate
import Twstools.Twsgen.Model
/-!
# Historical data as text

`twsgen --to-csv` prints a packet of historical data row by row, with the
dates converted by `ib_date2iso`. It asserts that they could be. The jobs
the same program makes ask for dates it can convert without `--utc` only,
and a contract month is not one either (`hist_dump_total_iff`).
-/

namespace Twstools

/-- `'\t'`. -/
def TAB : UInt8 := 9

/-- `%s` of a string. -/
def stringBytes (s : String) : List UInt8 := utf8 (c_str s).toList

/-- `short_string`: the last pair of a table is for all other strings. -/
def shortString (pairs : List (String × String)) (last s_short : String) : String :=
  (pairs.lookup s_short).getD last

/-- `short_wts`. -/
def shortWts (wts : String) : String :=
  shortString [("TRADES", "T"), ("MIDPOINT", "M"), ("BID", "B"), ("ASK", "A"), ("BID_ASK", "BA"),
    ("HISTORICAL_VOLATILITY", "HV"), ("OPTION_IMPLIED_VOLATILITY", "OIV"),
    ("OPTION_VOLUME", "OV")] "NNN" wts

/-- `short_bar_size`. -/
def shortBarSize (bar_size : String) : String :=
  shortString [("1 secs", "s01"), ("5 secs", "s05"), ("15 secs", "s15"), ("30 secs", "s30"),
    ("1 min", "m01"), ("2 mins", "m02"), ("3 mins", "m03"), ("5 mins", "m05"), ("15 mins", "m15"),
    ("30 mins", "m30"), ("1 hour", "h01"), ("4 hour", "h04"), ("1 day", "eod"), ("1 week", "w01"),
    ("1 month", "x01"), ("3 months", "x03"), ("1 year", "y01")] "00N" bar_size

namespace HistRequest

variable (request : HistRequest)

/-- `buf_c`, what fits into it. -/
def bufC (expiry : String) : List UInt8 :=
  let c := request.ibContract
  (joined TAB [stringBytes c.symbol, stringBytes c.secType, stringBytes c.exchange,
    stringBytes c.currency, stringBytes expiry, utf8 c.strike.printG,
    stringBytes c.right]).take 511

/-- What is printed for a row, without the newline. -/
def record (expiry dateTime : String) (it : RowHist) : List UInt8 :=
  let wts := shortWts (c_str request.whatToShow)
  let bss := shortBarSize (c_str request.barSizeSetting)
  joined TAB [utf8 wts.toList, utf8 bss.toList, request.bufC expiry, stringBytes dateTime,
    utf8 it.open.printF, utf8 it.high.printF, utf8 it.low.printF, utf8 it.close.printF,
    utf8 (toString it.volume).toList, utf8 (toString it.count).toList, utf8 it.WAP.printF,
    utf8 (toString (if it.hasGaps then 1 else 0 : ℤ)).toList]

variable (pad : Bool)

/-- The expiry as it is converted. -/
def isoExpiry : String :=
  let expiry := request.ibContract.lastTradeDateOrContractMonth
  if expiry = "" then "0000-00-00" else ibDate2iso pad expiry

/-- The body of the loop of `dump`: what `printf` prints. -/
def dumpRow (printFormatDates : Bool) (it : RowHist) : Exec Assertion (List UInt8) :=
  if printFormatDates then do
    let expiry := request.isoExpiry pad
    let dateTime := ibDate2iso pad it.date
    ensure (expiry ≠ "" ∧ dateTime ≠ "") .histDataDump
    pure (request.record expiry dateTime it ++ [NEWLINE])
  else pure (request.record request.ibContract.lastTradeDateOrContractMonth it.date it ++ [NEWLINE])

end HistRequest

/-- `PacketHistData::dump`: what is printed. -/
def PacketHistData.dump (pad printFormatDates : Bool) (p : PacketHistData) :
    Exec Assertion (List UInt8) := do
  let request ← deref p.request
  let printed ← p.rows.mapM (request.dumpRow pad printFormatDates)
  pure printed.flatten

/-! ## The dates of an answer -/

/-- A date of a row, for the format the job asks for. -/
inductive AnswerDate : ℤ → String → Prop
  | day (e : CivilDate) : AnswerDate 1 (String.ofList e.text)
  | dayTime (e : CivilDate) (k : ℕ) {h mi se : ℕ} : h ≤ 23 → mi ≤ 59 → se ≤ 59 →
      AnswerDate 1 (String.ofList (e.text ++ (List.replicate (k + 1) ' ' ++ clockText h mi se)))
  | seconds (n : ℕ) : AnswerDate 2 (toString n)

/-- `yyyymm`. -/
def IsContractMonth (expiry : String) : Prop :=
  ∃ y m : ℕ, y ≤ 9999 ∧ 1 ≤ m ∧ m ≤ 12 ∧ expiry = String.ofList (zeroPad 4 y ++ zeroPad 2 m)

/-- Nothing, a month or a day. -/
def ExpiryForm (expiry : String) : Prop :=
  expiry = "" ∨ IsContractMonth expiry ∨ ∃ e : CivilDate, expiry = String.ofList e.text

/-- Seconds that are few enough to look like a date, and do. -/
def LooksLikeDate (date : String) : Prop := date.length ≤ 8 ∧ (ibStrptime date).isSome

/-- **One line per row**, in order, and no assertion fails. -/
def PacketHistData.PrintsRows (pad : Bool) (p : PacketHistData) : Prop :=
  ∃ request out, p.request = some request ∧ p.dump pad true = .ok out ∧
    out = terminated NEWLINE (p.rows.map fun it =>
      request.record (request.isoExpiry pad) (ibDate2iso pad it.date) it) ∧
    ∀ it ∈ p.rows, NEWLINE ∉ request.record (request.isoExpiry pad) (ibDate2iso pad it.date) it

variable {pad : Bool} {s : String} {request : HistRequest} {it : RowHist} {p : PacketHistData}

/-! ## When the dates are converted -/

/-- **A date is converted** exactly if it is read. -/
theorem ibDate2iso_ne_empty_iff : ibDate2iso pad s ≠ "" ↔ (ibStrptime s).isSome := by
  rcases hs : ibStrptime s with _ | tm
  · rw [ibDate2iso_of_none hs]
    simp
  · refine ⟨fun _ => rfl, fun _ hempty => ?_⟩
    have hne : strftimeF pad tm ≠ [] := by
      unfold strftimeF
      simp
    rcases ibDate2iso_of_some pad hs with h | h
    · rw [hempty] at h
      exact hne h.symm
    · rw [hempty] at h
      exact hne (List.append_eq_nil_iff.1 h.symm).1

theorem IsContractMonth.not_read (h : IsContractMonth s) : ibStrptime s = none := by
  obtain ⟨y, m, hy, -, hm, rfl⟩ := h
  exact ibStrptime_month hy hm

theorem IsContractMonth.ne_empty (h : IsContractMonth s) : s ≠ "" := by
  obtain ⟨y, m, hy, -, -, rfl⟩ := h
  intro hempty
  have hlen := congrArg (fun s => s.toList.length) hempty
  simp only [String.toList_ofList, List.length_append,
    length_zeroPad (w := 4) (n := y) (by decide) (by omega)] at hlen
  exact absurd hlen (by simp)

/-- An expiry is converted unless it is a month. -/
theorem isoExpiry_ne_empty_iff (h : ExpiryForm request.ibContract.lastTradeDateOrContractMonth) :
    request.isoExpiry pad ≠ "" ↔
      ¬ IsContractMonth request.ibContract.lastTradeDateOrContractMonth := by
  unfold HistRequest.isoExpiry
  dsimp only
  generalize request.ibContract.lastTradeDateOrContractMonth = expiry at h
  rcases h with rfl | h | ⟨e, rfl⟩
  · rw [if_pos rfl]
    exact ⟨fun _ hmonth => hmonth.ne_empty rfl, fun _ => by decide⟩
  · rw [if_neg h.ne_empty, ibDate2iso_ne_empty_iff, h.not_read]
    exact ⟨fun hsome => absurd hsome (by decide), fun hno => absurd h hno⟩
  · have hread := ibStrptime_text e
    have hne : String.ofList e.text ≠ "" := by
      intro hempty
      rw [hempty, ibStrptime_empty] at hread
      cases hread
    rw [if_neg hne, ibDate2iso_ne_empty_iff]
    refine ⟨fun _ hmonth => ?_, fun _ => hread⟩
    rw [hmonth.not_read] at hread
    cases hread

theorem AnswerDate.isSome (h : AnswerDate 1 s) : (ibStrptime s).isSome := by
  generalize hf : (1 : ℤ) = fmt at h
  cases h with
  | day e => exact ibStrptime_text e
  | dayTime e k hh hmi hse => exact ibStrptime_text_clock e (k + 1) hh hmi (by omega)
  | seconds n => cases hf

/-- **The date of a row is converted** if the job asked for dates. Seconds
are not, unless they happen to look like a date. -/
theorem ibDate2iso_ne_empty_of_answer {o : GenArgs} (h : AnswerDate o.formatDate s) :
    ibDate2iso pad s ≠ "" ↔ AnswerDate 1 s ∨ LooksLikeDate s := by
  rw [ibDate2iso_ne_empty_iff]
  constructor
  · intro hsome
    have hfmt : o.formatDate = 1 ∨ o.formatDate = 2 := by
      unfold GenArgs.formatDate
      split
      · exact .inr rfl
      · exact .inl rfl
    rcases hfmt with hfmt | hfmt
    · exact .inl (hfmt ▸ h)
    · rw [hfmt] at h
      generalize hf : (2 : ℤ) = fmt at h
      cases h with
      | day e => cases hf
      | dayTime e k hh hmi hse => cases hf
      | seconds n =>
          refine .inr ⟨Nat.not_lt.1 fun hlong => ?_, hsome⟩
          -- more than eight digits are too many for a date
          have htext : toString n = String.ofList (Nat.toDigits 10 n) :=
            Nat.toString_eq_ofList_toDigits
          rw [htext] at hlong hsome
          rw [String.length_ofList] at hlong
          rw [ibStrptime_long (Double.digits_toDigits n) hlong] at hsome
          cases hsome
  · rintro (h | h)
    · exact h.isSome
    · exact h.2

/-! ## When a line is one line -/

theorem newline_mem_stringBytes (h : NEWLINE ∈ stringBytes s) : '\n' ∈ s.toList := by
  rw [stringBytes, newline_mem_utf8, c_str, String.toList_ofList] at h
  exact (List.takeWhile_prefix _).subset h

theorem Plain.newline_notMem {cs : List Char} (h : Plain cs) : NEWLINE ∉ utf8 cs :=
  fun hn => h.not_mem (by decide) (by decide) (newline_mem_utf8.1 hn)

theorem plain_fieldText (w : ℕ) (x : ℤ) : Plain (fieldText w x) :=
  plain_sign.append (plain_of_digits digits_zeroPad)

/-- There is no newline in a date. -/
theorem newline_notMem_ibDate2iso : NEWLINE ∉ stringBytes (ibDate2iso pad s) := by
  intro h
  have hmem := newline_mem_stringBytes h
  have hfield : ∀ {w : ℕ} {x : ℤ}, '\n' ∉ fieldText w x := fun {w x} =>
    (plain_fieldText w x).not_mem (by decide) (by decide)
  rcases hs : ibStrptime s with _ | tm
  · rw [ibDate2iso_of_none hs] at hmem
    cases hmem
  · rcases ibDate2iso_of_some pad hs with h | h
    · rw [h] at hmem
      simp [strftimeF, hfield] at hmem
    · rw [h] at hmem
      simp [strftimeF, strftimeT, hfield] at hmem

/-- A table has what its pairs have. -/
theorem shortString_all {P : String → Prop} {pairs : List (String × String)} {last : String}
    (h : ∀ q ∈ pairs, P q.2) (hlast : P last) : P (shortString pairs last s) := by
  unfold shortString
  rcases hs : pairs.lookup s with _ | v
  · exact hlast
  · obtain ⟨l₁, l₂, rfl, -⟩ := List.lookup_eq_some_iff.1 hs
    exact h (s, v) (List.mem_append_right _ List.mem_cons_self)

theorem newline_notMem_short : '\n' ∉ (shortWts s).toList ∧ '\n' ∉ (shortBarSize s).toList :=
  ⟨shortString_all (P := fun v => '\n' ∉ v.toList) (by decide) (by decide),
    shortString_all (P := fun v => '\n' ∉ v.toList) (by decide) (by decide)⟩

/-- **A newline in a line** is one of the contract's. -/
theorem newline_mem_record {expiry : String} (hd : NEWLINE ∉ stringBytes s) :
    NEWLINE ∈ request.record expiry s it ↔ NEWLINE ∈ request.bufC expiry := by
  have hf : ∀ x : Double, NEWLINE ∉ utf8 x.printF := fun x => (plain_printF x).newline_notMem
  have hi : ∀ x : ℤ, NEWLINE ∉ utf8 (toString x).toList := fun x =>
    (plain_toString x).newline_notMem
  have hw : NEWLINE ∉ utf8 (shortWts (c_str request.whatToShow)).toList := fun h =>
    newline_notMem_short.1 (newline_mem_utf8.1 h)
  have hb : NEWLINE ∉ utf8 (shortBarSize (c_str request.barSizeSetting)).toList := fun h =>
    newline_notMem_short.2 (newline_mem_utf8.1 h)
  rw [HistRequest.record, mem_joined (by decide)]
  simp only [List.mem_cons, List.not_mem_nil, or_false, exists_eq_or_imp, exists_eq_left, hf, hi,
    hw, hb, hd, false_or]

/-! ## The conversion of a packet -/

theorem dumpRow_eq_ok {out : List UInt8} : request.dumpRow pad true it = .ok out ↔
    (request.isoExpiry pad ≠ "" ∧ ibDate2iso pad it.date ≠ "") ∧
      out = request.record (request.isoExpiry pad) (ibDate2iso pad it.date) it ++ [NEWLINE] := by
  unfold HistRequest.dumpRow
  rw [if_pos rfl, Exec.bind_eq_ok]
  constructor
  · rintro ⟨_, hok, hout⟩
    exact ⟨Exec.ensure_eq_ok.1 hok, (Except.ok.inj hout).symm⟩
  · rintro ⟨hok, hout⟩
    rw [hout]
    exact ⟨(), Exec.ensure_eq_ok.2 hok, rfl⟩

/-- A packet is converted when each row is. -/
theorem dump_eq_ok {out : List UInt8} (hreq : p.request = some request) :
    p.dump pad true = .ok out ↔
      (∀ it ∈ p.rows, request.isoExpiry pad ≠ "" ∧ ibDate2iso pad it.date ≠ "") ∧
        out = terminated NEWLINE (p.rows.map fun it =>
          request.record (request.isoExpiry pad) (ibDate2iso pad it.date) it) := by
  have hflat : terminated NEWLINE (p.rows.map fun it =>
      request.record (request.isoExpiry pad) (ibDate2iso pad it.date) it) =
        (p.rows.map fun it => request.record (request.isoExpiry pad) (ibDate2iso pad it.date) it ++
          [NEWLINE]).flatten := by
    rw [terminated, List.flatMap_map, List.flatMap_def]
  have hmap := fun h : ∀ it ∈ p.rows, request.isoExpiry pad ≠ "" ∧ ibDate2iso pad it.date ≠ "" =>
    Exec.mapM_eq_ok (f := request.dumpRow pad true) fun it hit => dumpRow_eq_ok.2 ⟨h it hit, rfl⟩
  rw [hflat, PacketHistData.dump, Exec.deref_eq_ok.2 hreq, Exec.ok_bind]
  constructor
  · intro h
    obtain ⟨printed, hm, hout⟩ := Exec.bind_eq_ok.1 h
    have hall : ∀ it ∈ p.rows, request.isoExpiry pad ≠ "" ∧ ibDate2iso pad it.date ≠ "" := by
      intro it hit
      obtain ⟨b, hb⟩ := Exec.forall_of_mapM hm it hit
      exact (dumpRow_eq_ok.1 hb).1
    rw [hmap hall] at hm
    obtain rfl := Except.ok.inj hm
    exact ⟨hall, (Except.ok.inj hout).symm⟩
  · rintro ⟨hall, rfl⟩
    rw [hmap hall]
    rfl

/-- **Historical data is converted** line by line exactly if there is
nothing to convert, or the expiry is no month, the job asked for dates or
the seconds look like some, and the contract does not break the line. -/
theorem hist_dump_total_iff (pad : Bool) (p : PacketHistData) (request : HistRequest)
    (hreq : p.request = some request)
    (hexp : ExpiryForm request.ibContract.lastTradeDateOrContractMonth)
    (hdates : ∀ it ∈ p.rows, ∃ o : GenArgs, AnswerDate o.formatDate it.date) :
    p.PrintsRows pad ↔ p.rows = [] ∨
      ¬ IsContractMonth request.ibContract.lastTradeDateOrContractMonth ∧
      (∀ it ∈ p.rows, AnswerDate 1 it.date ∨ LooksLikeDate it.date) ∧
      NEWLINE ∉ request.bufC (request.isoExpiry pad) := by
  have hdate : ∀ it ∈ p.rows,
      (ibDate2iso pad it.date ≠ "" ↔ AnswerDate 1 it.date ∨ LooksLikeDate it.date) := by
    intro it hit
    obtain ⟨o, ho⟩ := hdates it hit
    exact ibDate2iso_ne_empty_of_answer ho
  constructor
  · rintro ⟨request', out, hreq', hdump, -, hline⟩
    obtain rfl := Option.some.inj (hreq.symm.trans hreq')
    rcases hrows : p.rows with _ | ⟨it₀, rows⟩
    · exact .inl rfl
    · rw [← hrows]
      have hall := ((dump_eq_ok hreq).1 hdump).1
      have hit₀ : it₀ ∈ p.rows := by rw [hrows]; exact List.mem_cons_self
      refine .inr ⟨(isoExpiry_ne_empty_iff hexp).1 (hall it₀ hit₀).1,
        fun it hit => (hdate it hit).1 (hall it hit).2, fun hn => ?_⟩
      exact hline it₀ hit₀ ((newline_mem_record newline_notMem_ibDate2iso).2 hn)
  · intro h
    refine ⟨request, _, hreq, (dump_eq_ok hreq).2 ⟨fun it hit => ?_, rfl⟩, rfl, fun it hit => ?_⟩
    · rcases h with h | ⟨hexp', hall, -⟩
      · rw [h] at hit
        cases hit
      · exact ⟨(isoExpiry_ne_empty_iff hexp).2 hexp', (hdate it hit).2 (hall it hit)⟩
    · rcases h with h | ⟨-, -, hn⟩
      · rw [h] at hit
        cases hit
      · exact fun hmem => hn ((newline_mem_record newline_notMem_ibDate2iso).1 hmem)

/-- The first of January 2015. -/
def newYear2015 : CivilDate := .early 2015 1 1 (by decide) (by decide) (by decide)

theorem cString_trades : CString "TRADES" := by decide

theorem inInt_zero : InInt 0 := by decide

/-- Arguments for a job, for dates or for seconds. -/
def plainArgs (utc : Bool) : GenArgs where
  endDateTime := "20150105 17:00:00"
  durationStr := "1 D"
  barSizeSetting := "1 day"
  whatToShow := "TRADES"
  useRTH := 0
  utc := utc
  exp_mode := .EXP_AUTO
  endDateTime_c := by decide
  durationStr_c := by decide
  barSizeSetting_c := by decide
  whatToShow_c := cString_trades
  useRTH_int := inInt_zero

/-- The job for a stock, and a row for it. -/
def plainPacket (date : String) : PacketHistData :=
  { mode := .CLOSED
    request := some { ibContract := { symbol := "IBM" } }
    rows := [{ date := date }] }

/-- One row of one day. -/
theorem hist_dump_total_iff_newYear :
    (plainPacket "20150101").PrintsRows false ↔ (plainPacket "20150101").rows = [] ∨
      ¬ IsContractMonth "" ∧
      (∀ it ∈ (plainPacket "20150101").rows, AnswerDate 1 it.date ∨ LooksLikeDate it.date) ∧
      NEWLINE ∉ HistRequest.bufC { ibContract := { symbol := "IBM" } }
        (HistRequest.isoExpiry { ibContract := { symbol := "IBM" } } false) := by
  refine hist_dump_total_iff false (plainPacket "20150101") { ibContract := { symbol := "IBM" } }
    rfl (.inl rfl) fun it hit => ⟨plainArgs false, ?_⟩
  obtain rfl := List.mem_singleton.1 hit
  exact AnswerDate.day newYear2015

/-- **The same row in seconds**, as a job with `--utc` gets it, ends the
program. -/
theorem utc_row_aborts : AnswerDate (plainArgs true).formatDate "1420070400" ∧ ExpiryForm "" ∧
    ∀ pad : Bool, (plainPacket "1420070400").dump pad true = .error (.assertion .histDataDump) ∧
      ¬ (plainPacket "1420070400").PrintsRows pad := by
  refine ⟨AnswerDate.seconds 1420070400, .inl rfl, fun pad => ?_⟩
  have hdump : (plainPacket "1420070400").dump pad true =
      .error (.assertion .histDataDump) := by
    cases pad <;> decide +kernel
  refine ⟨hdump, ?_⟩
  rintro ⟨request, out, -, hok, -⟩
  rw [hdump] at hok
  cases hok

end Twstools
