import Twstools.Clib.Strtol
import Twstools.Twsdo.Config
/-!
# The type of market data

`--data-type` names the type of market data to ask for, or gives its number.
The names are compared one by one, and what is none of them is read as a
number. The first comparison is not part of the chain: after `none` the
others go on, and at its end `none` is no number. Every name but `none`
means what it says, and `waitTwsCon` asks for the type with its request for
the time.
-/

namespace Twstools

/-- `init_mkt_data_type`; nothing when the program exits with the status 2. -/
def ConfigTwsdo.initMktDataType (cfg : ConfigTwsdo) (str : String) : Option ConfigTwsdo :=
  let cfg := if strcaseEq str "none" then { cfg with mkt_data_type := 0 } else cfg
  if strcaseEq str "real-time" then some { cfg with mkt_data_type := 1 }
  else if strcaseEq str "frozen" then some { cfg with mkt_data_type := 2 }
  else if strcaseEq str "delayed" then some { cfg with mkt_data_type := 3 }
  else if strcaseEq str "delayed-frozen" then some { cfg with mkt_data_type := 4 }
  else
    let (val, rest) := strtol str.toList
    -- all integers are allowed, for testing
    if rest = str.toList ∨ rest ≠ [] ∨ val < INT_MIN ∨ val > INT_MAX then none
    else some { cfg with mkt_data_type := val }

/-- The names of the types, with their numbers. -/
def dataTypeNames : List (String × ℤ) :=
  [("none", 0), ("real-time", 1), ("frozen", 2), ("delayed", 3), ("delayed-frozen", 4)]

/-- What the option documents: a name, in small letters or capitals, or an
`int`. -/
def DocumentedDataType (str : String) (v : ℤ) : Prop :=
  (∃ name, (name, v) ∈ dataTypeNames ∧ strcaseEq str name = true) ∨
    ∃ n : Numeral, n.text = str.toList ∧ n.value = v ∧ InInt v

namespace TwsDL

/-- TWS has sent an order number on this connection, and not the time. -/
def AsksTime (s : TwsDL) : Prop :=
  s.connected = true ∧ s.tws_hb.tws_time = 0 ∧ s.tws_valid_orderId ≠ 0

instance (s : TwsDL) : Decidable s.AsksTime := inferInstanceAs (Decidable (_ ∧ _))

/-- What the handshake sends for the type `v`: no type when it is 0. -/
def handshakeCalls (s : TwsDL) (v : ℤ) : List Action :=
  if s.AsksTime then (if v = 0 then [] else [.reqMarketDataType v]) ++ [.reqCurrentTime] else []

end TwsDL

/-- **The option means what it documents**: the documented strings are
accepted, with their numbers, and no others; and in every run from there a
handshake sends that number, or nothing for 0. -/
structure MeansDocumented (str : String) : Prop where
  accepts : ∀ (cfg : ConfigTwsdo) (v : ℤ),
    (∃ cfg', cfg.initMktDataType str = some cfg' ∧ cfg'.mkt_data_type = v) ↔
      DocumentedDataType str v
  handshake : ∀ (cfg cfg' : ConfigTwsdo) (v : ℤ) (async : Bool) (jobs : List Job)
    (evs : List Event) (s s' : TwsDL), cfg.initMktDataType str = some cfg' →
    DocumentedDataType str v → Run TwsDL.Step (TwsDL.start cfg' async jobs) evs s →
    s.waitTwsCon = .ok s' → ∃ rest, (rest = [] ∨ rest = [.eDisconnect]) ∧
      s'.out = s.out ++ s.handshakeCalls v ++ rest

variable {str : String} {cfg : ConfigTwsdo} {v : ℤ}

/-! ## The argument -/

/-- A text compares equal to the names with the same small letters only. -/
theorem strcaseEq_iff {name : String} : strcaseEq str name = true ↔
    str.toList.map Char.toLower = name.toList.map Char.toLower := by
  simp [strcaseEq]

/-- A name has no digits, in capitals neither. -/
theorem isDigit_of_name {name : String} (hname : (name, v) ∈ dataTypeNames)
    (hs : strcaseEq str name = true) : ∀ c ∈ str.toList, c.isDigit = false := by
  intro c hc
  rw [Bool.eq_false_iff]
  intro hdig
  have hlow : c.toLower = c := by
    have hr : c.toNat ≤ 57 := by
      simp only [Char.isDigit, Bool.and_eq_true, decide_eq_true_eq] at hdig
      exact UInt32.le_iff_toNat_le.1 hdig.2
    refine dif_neg ?_
    rintro ⟨h1, -⟩
    have := UInt32.le_iff_toNat_le.1 h1
    simp at this
    omega
  have hmem : c ∈ str.toList.map Char.toLower := List.mem_map.2 ⟨c, hc, hlow⟩
  have hno : dataTypeNames.all
      (fun e => (e.1.toList.map Char.toLower).all fun c => !c.isDigit) = true := by
    decide +kernel
  rw [strcaseEq_iff.1 hs] at hmem
  have := List.all_eq_true.1 (List.all_eq_true.1 hno _ hname) c hmem
  simp [hdig] at this

/-- So no name begins with a numeral. -/
theorem not_numeral_of_name {name : String} (hname : (name, v) ∈ dataTypeNames)
    (hs : strcaseEq str name = true) (n : Numeral) (rest : List Char) :
    str.toList ≠ n.text ++ rest := by
  intro h
  obtain ⟨d, hd⟩ := List.exists_mem_of_ne_nil _ n.digits_ne_nil
  have hmem : d ∈ str.toList := by
    rw [h, Numeral.text]
    exact List.mem_append_left _ (List.mem_append_right _ hd)
  have := isDigit_of_name hname hs d hmem
  simp [n.isDigit_digits d hd] at this

/-- Comparing a text is comparing the name it compares equal to. -/
theorem strcaseEq_congr {name : String} (hs : strcaseEq str name = true) (other : String) :
    strcaseEq str other = strcaseEq name other := by
  rw [strcaseEq_iff] at hs
  unfold strcaseEq
  rw [hs]

/-- **`none` is refused.** -/
theorem initMktDataType_none (hs : strcaseEq str "none" = true) :
    cfg.initMktDataType str = none := by
  have hread : strtol str.toList = (0, str.toList) :=
    strtol_of_no_numeral (not_numeral_of_name (v := 0) (by decide) hs)
  have h1 : strcaseEq "none" "real-time" = false := by decide
  have h2 : strcaseEq "none" "frozen" = false := by decide
  have h3 : strcaseEq "none" "delayed" = false := by decide
  have h4 : strcaseEq "none" "delayed-frozen" = false := by decide
  unfold ConfigTwsdo.initMktDataType
  simp [strcaseEq_congr hs, h1, h2, h3, h4, hread]

/-- **A name other than `none`** stands for its number. -/
theorem initMktDataType_name {name : String} (hname : (name, v) ∈ dataTypeNames) (hv : v ≠ 0)
    (hs : strcaseEq str name = true) :
    ∃ cfg', cfg.initMktDataType str = some cfg' ∧ cfg'.mkt_data_type = v := by
  unfold ConfigTwsdo.initMktDataType
  simp only [strcaseEq_congr hs]
  simp only [dataTypeNames, List.mem_cons, List.not_mem_nil, or_false, Prod.mk.injEq] at hname
  rcases hname with ⟨-, h0⟩ | ⟨rfl, rfl⟩ | ⟨rfl, rfl⟩ | ⟨rfl, rfl⟩ | ⟨rfl, rfl⟩
  · exact absurd h0 hv
  · exact ⟨_, rfl, rfl⟩
  · exact ⟨_, rfl, rfl⟩
  · exact ⟨_, rfl, rfl⟩
  · exact ⟨_, rfl, rfl⟩

/-- **What is no name** is an `int` or nothing. -/
theorem initMktDataType_number
    (hno : ∀ name v, (name, v) ∈ dataTypeNames → strcaseEq str name = false) :
    (∃ cfg', cfg.initMktDataType str = some cfg' ∧ cfg'.mkt_data_type = v) ↔
      ∃ n : Numeral, n.text = str.toList ∧ n.value = v ∧ InInt v := by
  have hskip : ∀ name v, (name, v) ∈ dataTypeNames → ¬ strcaseEq str name = true :=
    fun name v h => by simp [hno name v h]
  unfold ConfigTwsdo.initMktDataType
  rw [if_neg (hskip "none" 0 (by decide)), if_neg (hskip "real-time" 1 (by decide)),
    if_neg (hskip "frozen" 2 (by decide)), if_neg (hskip "delayed" 3 (by decide)),
    if_neg (hskip "delayed-frozen" 4 (by decide))]
  obtain ⟨⟨val, rest⟩, hread⟩ : ∃ r, strtol str.toList = r := ⟨_, rfl⟩
  simp only [hread]
  constructor
  · rintro ⟨cfg', h, rfl⟩
    by_cases hbad : rest = str.toList ∨ rest ≠ [] ∨ val < INT_MIN ∨ val > INT_MAX
    · rw [if_pos hbad] at h
      cases h
    · rw [if_neg hbad] at h
      rw [← Option.some.inj h]
      simp only [not_or, not_not] at hbad
      obtain ⟨hne, rfl, hmin, hmax⟩ := hbad
      obtain ⟨n, hs, -, rfl⟩ := (strtol_eq_iff hne).1 hread
      have hin : InInt (clampLong n.value) := ⟨not_lt.1 hmin, not_lt.1 hmax⟩
      rw [List.append_nil] at hs
      exact ⟨n, hs.symm, (clampLong_eq_of_inInt hin).symm, hin⟩
  · rintro ⟨n, hn, rfl, hin⟩
    have hnum : strtol str.toList = (n.value, []) := by
      rw [← hn, ← List.append_nil n.text, n.strtol_append noDigitAhead_nil,
        clampLong_eq hin.inLong]
    obtain ⟨rfl, rfl⟩ := Prod.mk.inj (hread.symm.trans hnum)
    have hne : ([] : List Char) ≠ str.toList := by
      rw [← hn]
      exact Ne.symm n.text_ne_nil
    rw [if_neg]
    · exact ⟨_, rfl, rfl⟩
    · simp only [not_or, not_not]
      exact ⟨hne, trivial, not_lt.2 hin.1, not_lt.2 hin.2⟩

/-! ## The handshake -/

namespace TwsDL

variable {s s' : TwsDL}

theorem askTime_out (hc : s.connected = true) :
    s.askTime.out = s.out ++ s.handshakeCalls s.cfg.mkt_data_type := by
  unfold askTime handshakeCalls
  by_cases hask : s.tws_hb.tws_time = 0 ∧ s.tws_valid_orderId ≠ 0
  · rw [if_pos hask, if_pos (show s.AsksTime from ⟨hc, hask⟩)]
    by_cases hv : s.cfg.mkt_data_type = 0
    · simp [hv, act, canSend]
    · simp [hv, act, canSend]
  · rw [if_neg hask, if_neg fun h : s.AsksTime => hask h.2, List.append_nil]

/-- **What a handshake sends**, before it may give up. -/
theorem waitTwsCon_out (h : s.waitTwsCon = .ok s') :
    ∃ rest, (rest = [] ∨ rest = [.eDisconnect]) ∧
      s'.out = s.out ++ s.handshakeCalls s.cfg.mkt_data_type ++ rest := by
  simp only [waitTwsCon] at h
  by_cases hc : s.connected = true
  · rw [if_pos hc] at h
    have hout := askTime_out hc
    split at h
    · exact ⟨[], .inl rfl, by rw [eq_of_changeState h, List.append_nil, ← hout]⟩
    split at h
    · exact ⟨[], .inl rfl, by rw [← Except.ok.inj h, List.append_nil, ← hout]⟩
    · rw [← hout]
      rcases disconnectTWS_effect h with rfl | ⟨-, p, rfl⟩
      · exact ⟨[], .inl rfl, (List.append_nil _).symm⟩
      · exact ⟨[.eDisconnect], .inr rfl, rfl⟩
  · rw [if_neg hc] at h
    have hno : s.handshakeCalls s.cfg.mkt_data_type = [] := if_neg fun ha => hc ha.1
    exact ⟨[], .inl rfl, by rw [eq_of_changeState h, hno, List.append_nil, List.append_nil]⟩

end TwsDL

/-! ## Every name but one -/

/-- A name has one number. -/
theorem number_unique {name name' : String} {v' : ℤ} (h : (name, v) ∈ dataTypeNames)
    (h' : (name', v') ∈ dataTypeNames) (hs : strcaseEq str name = true)
    (hs' : strcaseEq str name' = true) : v = v' := by
  have hall : dataTypeNames.all (fun e => dataTypeNames.all fun e' =>
      !strcaseEq e.1 e'.1 || e.2 == e'.2) = true := by
    decide +kernel
  rw [strcaseEq_congr hs] at hs'
  have := List.all_eq_true.1 (List.all_eq_true.1 hall _ h) _ h'
  simpa [hs'] using this

/-- **The documented strings are accepted**, if they are not `none`. -/
theorem initMktDataType_iff (hno : strcaseEq str "none" = false) (cfg : ConfigTwsdo) (v : ℤ) :
    (∃ cfg', cfg.initMktDataType str = some cfg' ∧ cfg'.mkt_data_type = v) ↔
      DocumentedDataType str v := by
  by_cases hname : ∃ name v', (name, v') ∈ dataTypeNames ∧ strcaseEq str name = true
  · obtain ⟨name, v', hmem, hs⟩ := hname
    have hv' : v' ≠ 0 := by
      rintro rfl
      have : ∀ e ∈ dataTypeNames, e.2 = 0 → e.1 = "none" := by decide
      obtain rfl : name = "none" := this _ hmem rfl
      simp [hno] at hs
    obtain ⟨cfg₁, hc, hv⟩ :
        ∃ cfg₁, cfg.initMktDataType str = some cfg₁ ∧ cfg₁.mkt_data_type = v' :=
      initMktDataType_name hmem hv' hs
    constructor
    · rintro ⟨cfg', h, rfl⟩
      obtain rfl := Option.some.inj (hc.symm.trans h)
      rw [hv]
      exact .inl ⟨name, hmem, hs⟩
    · rintro (⟨other, hmem', hs'⟩ | ⟨n, hn, -, -⟩)
      · exact ⟨cfg₁, hc, hv.trans (number_unique hmem hmem' hs hs')⟩
      · exact absurd (by rw [hn, List.append_nil]) (not_numeral_of_name hmem hs n [])
  · have hnone : ∀ name v', (name, v') ∈ dataTypeNames → strcaseEq str name = false := by
      intro name v' hmem
      rw [Bool.eq_false_iff]
      exact fun hs => hname ⟨name, v', hmem, hs⟩
    rw [initMktDataType_number hnone]
    refine ⟨.inr, ?_⟩
    rintro (⟨name, hmem, hs⟩ | h)
    · exact absurd ⟨name, v, hmem, hs⟩ hname
    · exact h

/-- **The option means what it documents unless it is `none`.** -/
theorem init_mkt_data_type_iff (str : String) :
    MeansDocumented str ↔ strcaseEq str "none" = false := by
  constructor
  · intro h
    rw [Bool.eq_false_iff]
    intro hs
    obtain ⟨cfg', hc, -⟩ := (h.accepts { } 0).2 (.inl ⟨"none", by decide, hs⟩)
    rw [initMktDataType_none hs] at hc
    cases hc
  · intro hno
    refine ⟨initMktDataType_iff hno, ?_⟩
    intro cfg cfg' v async jobs evs s s' hc hv hr hw
    obtain ⟨cfg₁, hc₁, rfl⟩ := (initMktDataType_iff hno cfg v).2 hv
    obtain rfl := Option.some.inj (hc.symm.trans hc₁)
    have hcfg : s.cfg = cfg' := TwsDL.cfg_of_run hr
    rw [← hcfg]
    exact TwsDL.waitTwsCon_out hw

/-- **The special case is refused.** -/
theorem none_refused : ¬ MeansDocumented "none" := by
  intro h
  obtain ⟨cfg', hc, -⟩ := (h.accepts { } 0).2 (.inl ⟨"none", by decide, by decide⟩)
  have hrefused : ({ } : ConfigTwsdo).initMktDataType "none" = none := by decide +kernel
  rw [hrefused] at hc
  cases hc

end Twstools
