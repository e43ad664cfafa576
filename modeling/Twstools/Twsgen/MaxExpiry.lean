import Twstools.Twsgen.HistCsv
import Twstools.Xml.HistData
/-!
# The largest expiry

`gen_csv` leaves out the documents whose expiry is behind `--max-expiry`.
The argument has to be a date for `ib_strptime`, but it is compared by
`strcmp`. The order of the texts is the order of the dates exactly if the
argument begins with its date in full (`max_expiry_calendar_iff`): a missing
zero or white space before a field shifts the others.
-/

namespace Twstools

open Double (Digits)

/-- `strcmp(s, t) < 0`. The bytes of two texts are ordered as their
characters are. -/
def StrcmpLt (s t : String) : Prop := (c_str s).toList < (c_str t).toList

instance (s t : String) : Decidable (StrcmpLt s t) := inferInstanceAs (Decidable (_ < _))

/-- The arguments `gen_csv` looks at. -/
structure CsvArgs where
  max_expiry : Option String
  no_conv : Bool

/-- What is printed for a document. -/
inductive CsvOutput where
  | text (bytes : List UInt8)
  | doc (doc : XmlDoc)

namespace CsvArgs

variable (o : CsvArgs)

/-- Whether a document is left out. -/
def leavesOut (phd : PacketHistData) : Exec Assertion Bool :=
  match o.max_expiry with
  | none => pure false
  | some max_expiry => do
      let request ← deref phd.request
      let expiry := request.ibContract.lastTradeDateOrContractMonth
      pure (decide (expiry ≠ "" ∧ StrcmpLt max_expiry expiry))

variable (pad skip : Bool) (api : ApiDefaults)

/-- The body of the loop of `gen_csv`: nothing for a document left out. -/
def convDoc (phd : PacketHistData) : Exec Assertion (Option CsvOutput) := do
  if ← o.leavesOut phd then pure none
  else if o.no_conv then do
    let node ← phd.dumpXml skip api
    pure (some (.doc ⟨[.element "TWSXML" [] [node]]⟩))
  else do
    let bytes ← phd.dump pad true
    pure (some (.text bytes))

/-- The loop of `gen_csv`, over the documents of the file. -/
def convDocs (xns : List XmlNode) : Exec Assertion (List (Option CsvOutput)) :=
  xns.mapM fun xn => o.convDoc pad skip api (PacketHistData.fromXml api xn)

end CsvArgs

/-- A day comes after the date of a `Tm`. -/
def Tm.Before (tm : Tm) (e : CivilDate) : Prop :=
  tm.tm_year + 1900 < e.year ∨ tm.tm_year + 1900 = e.year ∧
    (tm.tm_mon + 1 < e.month ∨ tm.tm_mon + 1 = e.month ∧ tm.tm_mday < e.day)

/-- `yyyymmdd`, as the fields of a `Tm` are written in full. -/
def Tm.dateText (tm : Tm) : List Char :=
  fieldText 4 (tm.tm_year + 1900) ++ (fieldText 2 (tm.tm_mon + 1) ++ fieldText 2 tm.tm_mday)

/-- **The filter follows the calendar**: a document whose expiry is a day is
left out exactly if the day is after the date of the argument, whatever
becomes of it otherwise, and so it is with the documents of a run. -/
structure FollowsCalendar (pad skip : Bool) (api : ApiDefaults) (max_expiry : String) (tm : Tm) :
    Prop where
  doc : ∀ (no_conv : Bool) (xn : XmlNode) (request : HistRequest) (e : CivilDate),
    (PacketHistData.fromXml api xn).request = some request →
    request.ibContract.lastTradeDateOrContractMonth = String.ofList e.text →
    (CsvArgs.convDoc ⟨some max_expiry, no_conv⟩ pad skip api (PacketHistData.fromXml api xn) =
      .ok none ↔ tm.Before e)
  run : ∀ (no_conv : Bool) (xns : List XmlNode) (outs : List (Option CsvOutput)),
    CsvArgs.convDocs ⟨some max_expiry, no_conv⟩ pad skip api xns = .ok outs →
    ∀ (i : ℕ) (xn : XmlNode) (request : HistRequest) (e : CivilDate), xns[i]? = some xn →
      (PacketHistData.fromXml api xn).request = some request →
      request.ibContract.lastTradeDateOrContractMonth = String.ofList e.text →
      (outs[i]? = some none ↔ tm.Before e)

variable {pad skip : Bool} {api : ApiDefaults} {max_expiry : String} {tm : Tm} {e : CivilDate}
variable {rest t : List Char} {y m d : DateField}

/-! ## The order of the texts -/

theorem isSpace_lt_digit {c c' : Char} (h : isSpace c = true) (h' : c'.isDigit = true) :
    c < c' := by
  have hd := (isDigit_bounds h').1
  have hzero : '0'.toNat = 48 := rfl
  rw [Char.lt_def, UInt32.lt_iff_toNat_lt]
  show c.toNat < c'.toNat
  unfold isSpace at h
  have hc : c.toNat ≤ 32 := by
    rcases of_decide_eq_true h with rfl | rfl | rfl | h | h | rfl
    · decide
    · decide
    · decide
    · omega
    · omega
    · decide
  omega

/-- White space comes before all digits. -/
theorem space_lt_digits {sp ds r r' : List Char} (hsp : ∀ c ∈ sp, isSpace c = true) (hne : sp ≠ [])
    (hds : Digits ds) (hds' : ds ≠ []) : sp ++ r < ds ++ r' := by
  obtain ⟨c, sp, rfl⟩ := List.exists_cons_of_ne_nil hne
  obtain ⟨c', ds, rfl⟩ := List.exists_cons_of_ne_nil hds'
  rw [List.cons_append, List.cons_append, List.cons_lt_cons_iff]
  exact .inl (isSpace_lt_digit (hsp c List.mem_cons_self) (hds c' List.mem_cons_self))

theorem zeroPad_ne_nil {w n : ℕ} : zeroPad w n ≠ [] :=
  fun h => Nat.toDigits_ne_nil (List.append_eq_nil_iff.1 h).2

/-- Zeros written short come before zeros in full, when white space follows. -/
theorem zeros_short_lt {w : ℕ} {ds sp r r' : List Char} (hds : Digits ds) (hlen : ds.length < w)
    (hzero : Nat.ofDigitChars 10 ds 0 = 0) (hsp : ∀ c ∈ sp, isSpace c = true) (hne : sp ≠ []) :
    ds ++ (sp ++ r) < zeroPad w 0 ++ r' := by
  obtain ⟨a, b, hab, ha, hda, hdb, hb, hval⟩ := exists_zeroPad_append (n := 0) hlen (by positivity)
  have heq : ds = a := by
    have hpos : 0 < w := by omega
    by_cases hk : 0 < ds.length
    · rw [eq_zeroPad hds rfl hk, eq_zeroPad hda ha hk, hzero]
      congr 1
      omega
    · rw [List.length_eq_zero_iff.1 (by omega : ds.length = 0),
        List.length_eq_zero_iff.1 (by omega : a.length = 0)]
  rw [hab, List.append_assoc, heq, append_lt_append_iff rfl]
  exact .inr ⟨rfl, space_lt_digits hsp hne hdb hb⟩

/-! ## Days the texts get wrong -/

theorem Tm.HasDate.before_iff {y m d : ℕ} (h : tm.HasDate y m d) : tm.Before e ↔
    y < e.year ∨ y = e.year ∧ (m < e.month ∨ m = e.month ∧ d < e.day) := by
  unfold Tm.Before
  rw [h.year, h.month, h.day]
  omega

theorem Tm.HasDate.dateText_eq {y m d : ℕ} (h : tm.HasDate y m d) :
    tm.dateText = zeroPad 4 y ++ (zeroPad 2 m ++ zeroPad 2 d) := by
  rw [Tm.dateText, h.year, h.month, h.day, fieldText_natCast, fieldText_natCast, fieldText_natCast]

/-- The text of the argument gets the day wrong. -/
def Misplaces (cs : List Char) (tm : Tm) (e : CivilDate) : Prop := ¬ (cs < e.text ↔ tm.Before e)

/-- A field without white space that is not in full is short. -/
theorem DateField.Reads.short {f : DateField} {lo hi w : ℕ} (hf : f.Reads lo hi w rest)
    (hw : 0 < w) (hsp : f.space = []) (hne : f.text ≠ zeroPad w f.value) :
    f.text = f.digits ∧ f.digits.length < w ∧ f.value < 10 ^ (w - 1) := by
  have htext : f.text = f.digits := by rw [DateField.text, hsp, List.nil_append]
  have hshort : f.digits.length < w := by
    refine lt_of_le_of_ne hf.length_le fun hlen => hne ?_
    rw [htext]
    exact eq_zeroPad hf.digits hlen hw
  exact ⟨htext, hshort, (ofDigitChars_lt hf.digits).trans_le
    (Nat.pow_le_pow_right (by decide) (Nat.le_sub_one_of_lt hshort))⟩

/-- White space before the year, or a year with less than four digits. -/
theorem misplaces_year (h : tm.HasDate y.value m.value d.value) (hread : ReadsDate y m d rest)
    (hy : y.text ≠ zeroPad 4 y.value) :
    ∃ e, Misplaces (y.text ++ (m.text ++ (d.text ++ rest))) tm e := by
  have hyear := hread.year.le
  have hmonth := hread.month.ge
  have hday := hread.day.ge
  -- the first day of the year is not behind any other
  have hfirst : ¬ tm.Before (.early y.value 1 1 hyear (by decide) (by decide)) := by
    rw [h.before_iff]
    show ¬ (_ < y.value ∨ _ ∧ (m.value < 1 ∨ _ ∧ d.value < 1))
    omega
  by_cases hsp : y.space = []
  · obtain ⟨htext, hshort, hsmall⟩ := hread.year.short (by decide) hsp hy
    rcases Nat.eq_zero_or_pos y.value with hzero | hpos
    · have hblank : m.space ≠ [] := by
        intro hm
        rcases hread.year.year_ends with hlen | hends
        · omega
        · exact hread.month.not_noDigitAhead hm hends
      refine ⟨.early y.value 1 1 hyear (by decide) (by decide), fun hiff => hfirst (hiff.1 ?_)⟩
      have hlt : y.digits ++ (m.space ++ (m.digits ++ (d.text ++ rest))) <
          zeroPad 4 y.value ++ (zeroPad 2 1 ++ zeroPad 2 1) := by
        rw [hzero]
        exact zeros_short_lt hread.year.digits hshort hzero hread.month.space hblank
      rw [htext, DateField.text, List.append_assoc]
      exact hlt
    · refine ⟨.early (y.value + 1) 1 1 (by omega) (by decide) (by decide), fun hiff => ?_⟩
      refine not_short_lt hread.year.digits hshort hpos (htext ▸ hiff.2 ?_)
      exact h.before_iff.2 (.inl (Nat.lt_succ_self _))
  · refine ⟨.early y.value 1 1 hyear (by decide) (by decide), fun hiff => hfirst (hiff.1 ?_)⟩
    rw [DateField.text, List.append_assoc]
    exact space_lt_digits hread.year.space hsp digits_zeroPad zeroPad_ne_nil

/-- White space before the month, or a month with one digit. -/
theorem misplaces_month (h : tm.HasDate y.value m.value d.value) (hread : ReadsDate y m d rest)
    (hm : m.text ≠ zeroPad 2 m.value) :
    ∃ e, Misplaces (zeroPad 4 y.value ++ (m.text ++ (d.text ++ rest))) tm e := by
  have hyear := hread.year.le
  have hmonth := hread.month.ge
  have hday := hread.day.ge
  by_cases hsp : m.space = []
  · obtain ⟨htext, hshort, hsmall⟩ := hread.month.short (by decide) hsp hm
    refine ⟨.early y.value (m.value + 1) 1 hyear (by omega) (by decide), fun hiff => ?_⟩
    have hbefore := hiff.2 (h.before_iff.2 (.inr ⟨rfl, .inl (Nat.lt_succ_self _)⟩))
    rw [htext] at hbefore
    exact not_short_lt hread.month.digits hshort hread.month.ge
      ((append_lt_append_iff rfl).1 hbefore |>.resolve_left (List.lt_irrefl _)).2
  · refine ⟨.early y.value 1 1 hyear (by decide) (by decide), fun hiff => ?_⟩
    have hlt : zeroPad 4 y.value ++ (m.text ++ (d.text ++ rest)) <
        zeroPad 4 y.value ++ (zeroPad 2 1 ++ zeroPad 2 1) := by
      refine List.append_left_lt ?_
      rw [DateField.text, List.append_assoc]
      exact space_lt_digits hread.month.space hsp digits_zeroPad zeroPad_ne_nil
    have hbefore : y.value < y.value ∨ _ ∧ (m.value < 1 ∨ _ ∧ d.value < 1) :=
      h.before_iff.1 (hiff.1 hlt)
    omega

/-- White space before the day, or a day with one digit. -/
theorem misplaces_day (h : tm.HasDate y.value m.value d.value) (hread : ReadsDate y m d rest)
    (hd : d.text ≠ zeroPad 2 d.value) :
    ∃ e, Misplaces (zeroPad 4 y.value ++ (zeroPad 2 m.value ++ (d.text ++ rest))) tm e := by
  have hyear := hread.year.le
  have hmonth := And.intro hread.month.ge hread.month.le
  have hday := hread.day.ge
  by_cases hsp : d.space = []
  · obtain ⟨htext, hshort, hsmall⟩ := hread.day.short (by decide) hsp hd
    refine ⟨.early y.value m.value (d.value + 1) hyear hmonth (by omega), fun hiff => ?_⟩
    have hbefore := hiff.2 (h.before_iff.2 (.inr ⟨rfl, .inr ⟨rfl, Nat.lt_succ_self _⟩⟩))
    rw [htext] at hbefore
    have hlt := ((append_lt_append_iff rfl).1 hbefore |>.resolve_left (List.lt_irrefl _)).2
    have hlt' := ((append_lt_append_iff rfl).1 hlt |>.resolve_left (List.lt_irrefl _)).2
    have hnil : d.digits ++ rest < zeroPad 2 (d.value + 1) ++ [] := by
      rw [List.append_nil]
      exact hlt'
    exact not_short_lt hread.day.digits hshort hread.day.ge hnil
  · refine ⟨.early y.value m.value 1 hyear hmonth (by decide), fun hiff => ?_⟩
    have hlt : zeroPad 4 y.value ++ (zeroPad 2 m.value ++ (d.text ++ rest)) <
        zeroPad 4 y.value ++ (zeroPad 2 m.value ++ zeroPad 2 1) := by
      refine List.append_left_lt (List.append_left_lt ?_)
      rw [DateField.text, List.append_assoc, ← List.append_nil (zeroPad 2 1)]
      exact space_lt_digits hread.day.space hsp digits_zeroPad zeroPad_ne_nil
    have hbefore : y.value < y.value ∨ _ ∧ (m.value < m.value ∨ _ ∧ d.value < 1) :=
      h.before_iff.1 (hiff.1 hlt)
    omega

/-- **With its date in full** an argument places every day rightly, whatever
follows. -/
theorem lt_text_iff (h : tm.HasDate y.value m.value d.value) (hread : ReadsDate y m d t) :
    tm.dateText ++ rest < e.text ↔ tm.Before e := by
  have hy := hread.year.le
  have hm := hread.month.le
  have hd := hread.day.le
  have hey := e.year_le
  have hem := e.month_le
  have hed := e.day_le_31
  have hlen : ∀ {w n : ℕ}, 0 < w → n < 10 ^ w → (zeroPad w n).length = w :=
    fun hw hn => length_zeroPad hw hn
  rw [h.dateText_eq, h.before_iff, CivilDate.text, List.append_assoc, List.append_assoc,
    append_lt_zeroPad_append_iff digits_zeroPad (hlen (by decide) (by omega)) (by decide)
      (by omega),
    append_lt_zeroPad_append_iff digits_zeroPad (hlen (by decide) (by omega)) (by decide)
      (by omega), ← List.append_nil (zeroPad 2 e.day),
    append_lt_zeroPad_append_iff digits_zeroPad (hlen (by decide) (by omega)) (by decide)
      (by omega), ofDigitChars_zeroPad, ofDigitChars_zeroPad, ofDigitChars_zeroPad]
  simp

/-- **Only then.** -/
theorem dateText_prefix_iff (h : ibStrptime max_expiry = some tm) :
    tm.dateText <+: (c_str max_expiry).toList ↔
      ∀ e : CivilDate, (c_str max_expiry).toList < e.text ↔ tm.Before e := by
  obtain ⟨y, m, d, rest, hcs, hread, hdate, -⟩ := ibStrptime_eq_some h
  constructor
  · rintro ⟨t, ht⟩ e
    rw [← ht]
    exact lt_text_iff hdate hread
  · intro hall
    have hplaces : ∀ {cs : List Char}, (c_str max_expiry).toList = cs →
        ¬ ∃ e, Misplaces cs tm e := by
      rintro cs rfl ⟨e, he⟩
      exact he (hall e)
    by_cases hy : y.text = zeroPad 4 y.value
    · rw [hy] at hcs
      by_cases hm : m.text = zeroPad 2 m.value
      · rw [hm] at hcs
        by_cases hd : d.text = zeroPad 2 d.value
        · rw [hcs, hdate.dateText_eq, hd]
          exact ⟨rest, by simp only [List.append_assoc]⟩
        · exact absurd (misplaces_day hdate hread hd) (hplaces hcs)
      · exact absurd (misplaces_month hdate hread hm) (hplaces hcs)
    · exact absurd (misplaces_year hdate hread hy) (hplaces hcs)

/-! ## The filter -/

/-- A document for a contract that expires on a day. -/
def expiryDoc (e : CivilDate) : XmlNode :=
  .element "request" [("type", "historical_data")] [.element "query" []
    [.element "reqContract" [("lastTradeDateOrContractMonth", String.ofList e.text)] []]]

theorem expiryDoc_request (api : ApiDefaults) (e : CivilDate) : ∃ request,
    (PacketHistData.fromXml api (expiryDoc e)).request = some request ∧
      request.ibContract.lastTradeDateOrContractMonth = String.ofList e.text := ⟨_, rfl, rfl⟩

/-- **Which documents are left out.** -/
theorem leavesOut_eq {phd : PacketHistData} {request : HistRequest} {no_conv : Bool}
    (hreq : phd.request = some request)
    (he : request.ibContract.lastTradeDateOrContractMonth = String.ofList e.text) :
    CsvArgs.leavesOut ⟨some max_expiry, no_conv⟩ phd =
      .ok (decide ((c_str max_expiry).toList < e.text)) := by
  have hne : String.ofList e.text ≠ "" := by
    intro hempty
    have hread := ibStrptime_text e
    rw [hempty, ibStrptime_empty] at hread
    cases hread
  have hc := cString_ofList fun c hc => isDigit_toNat_ne_zero (e.digits_text c hc)
  unfold CsvArgs.leavesOut
  simp only [Exec.deref_eq_ok.2 hreq, Exec.ok_bind, he, StrcmpLt, hc, String.toList_ofList, ne_eq,
    hne, not_false_iff, true_and]
  rfl

/-- A document that is left out leaves nothing behind, and no other one does. -/
theorem convDoc_eq_none {phd : PacketHistData} {o : CsvArgs} {b : Bool}
    (hb : o.leavesOut phd = .ok b) : o.convDoc pad skip api phd = .ok none ↔ b = true := by
  unfold CsvArgs.convDoc
  rw [hb, Exec.ok_bind]
  cases b with
  | true => exact ⟨fun _ => rfl, fun _ => rfl⟩
  | false =>
      rw [if_neg (by decide)]
      refine ⟨fun h => ?_, fun h => by cases h⟩
      split at h
      · obtain ⟨node, -, h⟩ := Exec.bind_eq_ok.1 h
        cases Except.ok.inj h
      · obtain ⟨bytes, -, h⟩ := Exec.bind_eq_ok.1 h
        cases Except.ok.inj h

/-- The filter is the order of the texts. -/
theorem followsCalendar_iff_lt : FollowsCalendar pad skip api max_expiry tm ↔
    ∀ e : CivilDate, (c_str max_expiry).toList < e.text ↔ tm.Before e := by
  constructor
  · intro h e
    obtain ⟨request, hreq, he⟩ := expiryDoc_request api e
    rw [← h.doc true _ request e hreq he, convDoc_eq_none (leavesOut_eq hreq he), decide_eq_true_eq]
  · intro h
    have hdoc : ∀ (no_conv : Bool) (xn : XmlNode) (request : HistRequest) (e : CivilDate),
        (PacketHistData.fromXml api xn).request = some request →
        request.ibContract.lastTradeDateOrContractMonth = String.ofList e.text →
        (CsvArgs.convDoc ⟨some max_expiry, no_conv⟩ pad skip api
          (PacketHistData.fromXml api xn) = .ok none ↔ tm.Before e) := by
      intro no_conv xn request e hreq he
      rw [convDoc_eq_none (leavesOut_eq hreq he), decide_eq_true_eq]
      exact h e
    refine ⟨hdoc, fun no_conv xns outs hrun i xn request e hi hreq he => ?_⟩
    obtain ⟨out, hout, hconv⟩ := Exec.getElem?_of_mapM hrun hi
    rw [hout, Option.some.injEq, ← hdoc no_conv xn request e hreq he, hconv, Except.ok.injEq]

/-- **The largest expiry follows the calendar** exactly if the argument
begins with its date in full: four digits for the year, two for the month,
two for the day, and nothing before or between them. -/
theorem max_expiry_calendar_iff (h : ibStrptime max_expiry = some tm) :
    FollowsCalendar pad skip api max_expiry tm ↔ tm.dateText <+: (c_str max_expiry).toList := by
  rw [followsCalendar_iff_lt, dateText_prefix_iff h]

/-- The date in the test of the program. -/
theorem max_expiry_calendar_iff_december :
    FollowsCalendar false true PacketHistData.zeroApi "20111216"
        { tm_mday := 16, tm_mon := 11, tm_year := 111, tm_wday := 5 } ↔
      ({ tm_mday := 16, tm_mon := 11, tm_year := 111, tm_wday := 5 } : Tm).dateText <+:
        (c_str "20111216").toList :=
  max_expiry_calendar_iff (by decide +kernel)

/-- **The tenth of February without its zero** is accepted, but the first of
March is not behind it. -/
theorem short_month_misfiled :
    ibStrptime "2015210" =
        some { tm_mday := 10, tm_mon := 1, tm_year := 115, tm_wday := 2 } ∧
      ¬ FollowsCalendar false true PacketHistData.zeroApi "2015210"
        { tm_mday := 10, tm_mon := 1, tm_year := 115, tm_wday := 2 } := by
  refine ⟨by decide +kernel, fun h => ?_⟩
  have hiff := followsCalendar_iff_lt.1 h (.early 2015 3 1 (by decide) (by decide) (by decide))
  have hlt := hiff.2 (.inr ⟨by decide, .inl (by decide)⟩)
  exact absurd hlt (by decide +kernel)

end Twstools
