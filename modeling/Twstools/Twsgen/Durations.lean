import Mathlib.Algebra.Order.Ring.Int
import Twstools.Clib.Strtol
import Twstools.Twsgen.Dates
/-!
# The grammar of durations

A duration is a number that is not negative, a space, and the letter of a
unit. `ib_duration2secs` looks at the last two characters, and asks `strtol`
where the number in front of them ends. Where nothing is in front of them
`strtol` reads no number and stops at the same place, so the unit alone is
taken for 0 seconds. The last two characters are found by the length as an
`int`; of a longer string that is some other place.
-/

namespace Twstools

/-- **The durations**, with their seconds. These are an `int`. -/
inductive Duration : List Char → ℤ → Prop
  | mk (n : Numeral) {c : Char} {unit : ℤ} : 0 ≤ n.value → unitSeconds c = some unit →
      n.value * unit ≤ INT_MAX → Duration (n.text ++ [' ', c]) (n.value * unit)

/-- A unit without a number. -/
def BareUnit (s : List Char) : Prop := ∃ c unit, s = [' ', c] ∧ unitSeconds c = some unit

/-- **Exactly the durations are accepted.** Nothing outside of the string is
read, a duration gives its seconds, and everything else gives `-1`. -/
structure ParsesDurations (dur : String) : Prop where
  reads : ∃ secs, ibDuration2secs dur = .ok secs
  accepts : ∀ secs, Duration dur.toList secs → ibDuration2secs dur = .ok secs
  rejects : (∀ secs, ¬ Duration dur.toList secs) → ibDuration2secs dur = .ok (-1)

/-- The characters that are counted by the length as an `int`. -/
def counted (s : List Char) : List Char := s.take (toInt s.length).toNat

/-- There are two characters to look at, and they are not just a unit. Of a
string too long to count, neither all nor the counted part is a duration. -/
structure TakenApart (s : List Char) : Prop where
  two : 2 ≤ toInt s.length
  notBare : ¬ BareUnit (counted s)
  long : INT_MAX < s.length →
    (∀ secs, ¬ Duration s secs) ∧ ∀ secs, ¬ Duration (counted s) secs

variable {dur : String} {p rest tmp s : List Char} {a b c : Char} {unit secs x : ℤ}

/-! ## Units -/

/-- The letters are neither digits nor white space nor signs, and there are
five of them. -/
theorem unit_spec (h : unitSeconds c = some unit) : 1 ≤ unit ∧ isSpace c = false ∧
    c.isDigit = false ∧ c ≠ '+' ∧ c ≠ '-' ∧ c ≠ ' ' := by
  unfold unitSeconds at h
  split at h <;> cases h <;> decide

/-- A number of seconds fits exactly if the number of units does. -/
theorem le_ediv_unit (h : unitSeconds c = some unit) : x ≤ INT_MAX / unit ↔ x * unit ≤ INT_MAX :=
  Int.le_ediv_iff_mul_le (by have := (unit_spec h).1; omega)

/-- **Only the last character of a duration is a letter.** -/
theorem unit_of_duration (h : Duration (p ++ b :: rest) secs) (hrest : rest ≠ []) :
    unitSeconds b = none := by
  by_contra hb
  obtain ⟨unit, hb⟩ := Option.ne_none_iff_exists'.1 hb
  obtain ⟨-, hspace, hdigit, hplus, hminus, hblank⟩ := unit_spec hb
  generalize hs : p ++ b :: rest = s at h
  cases h with
  | @mk n c u _ hc _ =>
      -- the letter is before the last character
      obtain ⟨rest', last, rfl⟩ : ∃ rest' last, rest = rest' ++ [last] :=
        ⟨_, _, (List.dropLast_concat_getLast hrest).symm⟩
      have hinit : p ++ b :: rest' = n.text ++ [' '] := by
        have hs' : p ++ b :: rest' ++ [last] = n.text ++ [' '] ++ [c] := by simpa using hs
        exact (List.append_inj' hs' rfl).1
      have hmem : b ∈ n.text ++ [' '] := by
        rw [← hinit]
        simp
      simp only [Numeral.text, List.mem_append, List.mem_singleton] at hmem
      rcases hmem with ((hb' | hb') | hb') | hb'
      · simp [n.isSpace_space b hb'] at hspace
      · rcases n.isSign with hs | hs | hs <;> simp [hs] at hb' <;> contradiction
      · simp [n.isDigit_digits b hb'] at hdigit
      · exact hblank hb'

/-! ## Where the number ends -/

/-- **`strtol` stops at the space** behind a numeral, or where there is
nothing in front of it. -/
theorem strtol_stops (h : strtol (p ++ ' ' :: b :: rest) = (x, tmp))
    (hlen : ((p ++ ' ' :: b :: rest).length : ℤ) - tmp.length = p.length) :
    p = [] ∨ ∃ n : Numeral, p = n.text ∧ x = clampLong n.value := by
  have hle : tmp.length + p.length = (p ++ ' ' :: b :: rest).length := by omega
  rcases exists_numeral (p ++ ' ' :: b :: rest) with ⟨n, rest', hs, hnd⟩ | hd
  · rw [hs, n.strtol_append hnd] at h
    obtain ⟨rfl, rfl⟩ := Prod.mk.inj h
    rw [hs, List.length_append] at hle
    refine .inr ⟨n, (List.append_inj hs (by omega)).1, rfl⟩
  · rw [strtol_of_no_digit hd] at h
    obtain ⟨-, rfl⟩ := Prod.mk.inj h
    exact .inl (List.eq_nil_of_length_eq_zero (by omega))

/-- A unit without a number is not read at all. -/
theorem strtol_bare (hb : unitSeconds b = some unit) :
    strtol (' ' :: b :: rest) = (0, ' ' :: b :: rest) := by
  obtain ⟨-, hspace, hdigit, hplus, hminus, -⟩ := unit_spec hb
  refine strtol_of_no_digit ?_
  rw [List.dropWhile_cons_of_pos (by decide), List.dropWhile_cons_of_neg (by simp [hspace])]
  have hsign : (splitSign (b :: rest)).2 = b :: rest := by
    unfold splitSign
    split
    · simp_all
    · simp_all
    · rfl
  rw [hsign, List.takeWhile_cons_of_neg (by simp [hdigit])]

/-! ## What is returned -/

theorem bareUnit_iff : BareUnit (p ++ [a, b]) ↔
    p = [] ∧ a = ' ' ∧ ∃ unit, unitSeconds b = some unit := by
  constructor
  · rintro ⟨c, unit, hs, hu⟩
    rw [← List.nil_append [' ', c]] at hs
    obtain ⟨rfl, htail⟩ := List.append_inj' hs rfl
    obtain ⟨rfl, rfl⟩ : a = ' ' ∧ b = c := by simpa using htail
    exact ⟨rfl, rfl, unit, hu⟩
  · rintro ⟨rfl, rfl, unit, hu⟩
    exact ⟨b, unit, rfl, hu⟩

section

variable (hd : (c_str dur).toList = p ++ a :: b :: rest)
variable (hlen : toInt (p ++ a :: b :: rest).length = p.length + 2)

include hd hlen

/-- The two characters that are looked at. -/
theorem ibDuration2secs_eq : ibDuration2secs dur =
    if a ≠ ' ' then .ok (-1)
    else (unitSeconds b).elim (.ok (-1)) fun unit =>
      if ((p ++ a :: b :: rest).length : ℤ) - (strtol (p ++ a :: b :: rest)).2.length
          ≠ p.length then .ok (-1)
      else if (strtol (p ++ a :: b :: rest)).1 < 0 ∨
          INT_MAX / unit < (strtol (p ++ a :: b :: rest)).1 then .ok (-1)
      else .ok ((strtol (p ++ a :: b :: rest)).1 * unit) := by
  have hspace : charAt (p ++ a :: b :: rest) ((p.length : ℤ) + 2 - 2) = .ok a := by
    refine charAt_eq_ok.2 ⟨by omega, ?_⟩
    have hk : ((p.length : ℤ) + 2 - 2).toNat = p.length := by omega
    rw [hk]
    simp
  have hlast : charAt (p ++ a :: b :: rest) ((p.length : ℤ) + 2 - 1) = .ok b := by
    refine charAt_eq_ok.2 ⟨by omega, ?_⟩
    have hk : ((p.length : ℤ) + 2 - 1).toNat = p.length + 1 := by omega
    rw [hk]
    simp
  have hidx : (p.length : ℤ) + 2 - 2 = p.length := by omega
  unfold ibDuration2secs
  simp only [hd, hlen, hspace, hlast, Exec.ok_bind]
  split
  · rfl
  · cases unitSeconds b with
    | none => rfl
    | some unit =>
        simp only [Option.elim_some, hidx]
        rfl

/-- **A duration gives its seconds.** -/
theorem ibDuration2secs_duration (h : Duration (p ++ [a, b]) secs) :
    ibDuration2secs dur = .ok secs := by
  rw [ibDuration2secs_eq hd hlen]
  generalize hs : p ++ [a, b] = s at h
  cases h with
  | @mk n c unit h0 hu hmax =>
      obtain ⟨rfl, htail⟩ := List.append_inj' hs rfl
      obtain ⟨rfl, rfl⟩ : a = ' ' ∧ b = c := by simpa using htail
      have hpos := (unit_spec hu).1
      have hv : n.value ≤ INT_MAX := le_trans (le_mul_of_one_le_right h0 hpos) hmax
      have hclamp : clampLong n.value = n.value := by
        refine clampLong_eq (InInt.inLong ⟨?_, hv⟩)
        unfold INT_MIN
        omega
      have hnd : NoDigitAhead (' ' :: b :: rest) := noDigitAhead_cons (by decide)
      have hread := n.strtol_append hnd
      rw [hclamp] at hread
      have hfit := (le_ediv_unit hu).2 hmax
      simp only [hread, hu, Option.elim_some]
      rw [if_neg (by simp), if_neg (by simp), if_neg (by omega)]

/-- **A unit without a number gives 0.** -/
theorem ibDuration2secs_bare (h : BareUnit (p ++ [a, b])) : ibDuration2secs dur = .ok 0 := by
  obtain ⟨rfl, rfl, unit, hu⟩ := bareUnit_iff.1 h
  have hfit : 0 ≤ INT_MAX / unit := (le_ediv_unit hu).2 (by rw [zero_mul]; decide)
  rw [ibDuration2secs_eq hd hlen]
  simp only [List.nil_append, strtol_bare hu, hu, Option.elim_some]
  rw [if_neg (by simp), if_neg (by simp), if_neg (by omega), zero_mul]

/-- **Anything else gives `-1`.** -/
theorem ibDuration2secs_other (hno : ∀ secs, ¬ Duration (p ++ [a, b]) secs)
    (hbare : ¬ BareUnit (p ++ [a, b])) : ibDuration2secs dur = .ok (-1) := by
  rw [ibDuration2secs_eq hd hlen]
  by_cases ha : a = ' '
  · subst ha
    rw [if_neg (by simp)]
    cases hu : unitSeconds b with
    | none => rfl
    | some unit =>
        rw [Option.elim_some]
        split
        · rfl
        rename_i hstop
        split
        · rfl
        rename_i hfit
        obtain ⟨hlow, hhigh⟩ := not_or.1 hfit
        exfalso
        rcases strtol_stops Prod.mk.eta.symm (not_not.1 hstop) with rfl | ⟨n, rfl, hx⟩
        · exact hbare ⟨b, unit, rfl, hu⟩
        · rw [hx, not_lt] at hlow hhigh
          have hmax := (le_ediv_unit hu).1 hhigh
          have hpos := (unit_spec hu).1
          have hle := le_mul_of_one_le_right hlow hpos
          have hclamp : clampLong n.value = n.value :=
            clampLong_eq_of_inInt ⟨le_trans (by decide) hlow, le_trans hle hmax⟩
          rw [hclamp] at hlow hmax
          exact hno _ (.mk n hlow hu hmax)
  · rw [if_pos ha]

end

/-! ## What is taken apart -/

/-- A string with two characters to look at, cut there. -/
theorem exists_counted (h2 : 2 ≤ toInt s.length) : ∃ p a b rest, s = p ++ a :: b :: rest ∧
    counted s = p ++ [a, b] ∧ toInt s.length = p.length + 2 := by
  have hle := toInt_length_le s
  set k := (toInt s.length).toNat with hk
  have hlen : (s.take k).length = k := by rw [List.length_take]; omega
  obtain ⟨p, a, b, hp⟩ : ∃ p a b, s.take k = p ++ [a, b] := by
    have hne : s.take k ≠ [] := by
      intro h
      rw [h, List.length_nil] at hlen
      omega
    obtain ⟨q, b, hq⟩ : ∃ q b, s.take k = q ++ [b] :=
      ⟨_, _, (List.dropLast_concat_getLast hne).symm⟩
    have hqne : q ≠ [] := by
      rintro rfl
      rw [hq, List.nil_append, List.length_singleton] at hlen
      omega
    obtain ⟨p, a, rfl⟩ : ∃ p a, q = p ++ [a] :=
      ⟨_, _, (List.dropLast_concat_getLast hqne).symm⟩
    exact ⟨p, a, b, by simpa using hq⟩
  refine ⟨p, a, b, s.drop k, ?_, hp, ?_⟩
  · have hcut := List.take_append_drop k s
    rw [hp] at hcut
    simpa using hcut.symm
  · rw [hp, List.length_append] at hlen
    simp only [List.length_cons, List.length_nil] at hlen
    omega

/-- What is counted is all of the string, or the string is too long. -/
theorem rest_eq_nil_iff (h : toInt (p ++ a :: b :: rest).length = p.length + 2) :
    rest = [] ↔ ¬ INT_MAX < (p ++ a :: b :: rest).length := by
  have hlen : (p ++ a :: b :: rest).length = p.length + 2 + rest.length := by
    simp only [List.length_append, List.length_cons]
    omega
  constructor
  · rintro rfl hlong
    have := (inInt_toInt (p ++ [a, b]).length).2
    rw [h] at this
    rw [hlen, List.length_nil] at hlong
    omega
  · intro hshort
    have hin : InInt (p ++ a :: b :: rest).length := by
      refine ⟨?_, not_lt.1 hshort⟩
      unfold INT_MIN
      omega
    rw [toInt_eq hin, hlen] at h
    exact List.eq_nil_of_length_eq_zero (by omega)

/-- A unit is no duration. -/
theorem not_duration_of_bareUnit (h : BareUnit s) : ¬ Duration s secs := by
  rintro ⟨n, -, -, -⟩
  obtain ⟨c', unit', hs, -⟩ := h
  rw [← List.nil_append [' ', c']] at hs
  have hnil : n.text = [] := (List.append_inj' hs rfl).1
  exact n.text_ne_nil hnil

namespace Duration

/-- A duration has a number of seconds that is not negative. -/
theorem nonneg (h : Duration s secs) : 0 ≤ secs := by
  cases h with
  | mk n h0 hu _ => exact Int.mul_nonneg h0 (by have := (unit_spec hu).1; omega)

/-- It ends with a letter. -/
theorem exists_unit (h : Duration (p ++ [a, b]) secs) : ∃ unit, unitSeconds b = some unit := by
  generalize hs : p ++ [a, b] = s at h
  cases h with
  | @mk n c unit _ hu _ =>
      obtain ⟨-, htail⟩ := List.append_inj' hs rfl
      obtain ⟨-, rfl⟩ : a = ' ' ∧ b = c := by simpa using htail
      exact ⟨unit, hu⟩

end Duration

/-- **A letter inside spoils the string**: what goes on behind a unit is no
duration. -/
theorem not_duration_of_unit (hu : unitSeconds b = some unit) (hrest : rest ≠ []) :
    ¬ Duration (p ++ a :: b :: rest) secs := by
  intro h
  rw [List.append_cons] at h
  have := unit_of_duration h hrest
  simp [hu] at this

/-- Seconds and `-1` are not returned both. -/
theorem not_seconds_and_error (h0 : 0 ≤ secs) (hsecs : ibDuration2secs dur = .ok secs)
    (hneg : ibDuration2secs dur = .ok (-1)) : False := by
  rw [hsecs] at hneg
  have := Except.ok.inj hneg
  omega

section

variable (hd : (c_str dur).toList = p ++ a :: b :: rest)
variable (hlen : toInt (p ++ a :: b :: rest).length = p.length + 2)

include hd hlen

/-- **A bare unit is accepted**, and it is no duration, nor is what goes on
behind it. -/
theorem not_bareUnit_of_parses (hc : c_str dur = dur) (h : ParsesDurations dur) :
    ¬ BareUnit (p ++ [a, b]) := by
  intro hbare
  have hno : ∀ secs, ¬ Duration dur.toList secs := by
    intro secs
    rw [← hc, hd]
    by_cases hrest : rest = []
    · rw [hrest]
      exact not_duration_of_bareUnit hbare
    · obtain ⟨-, -, unit, hu⟩ := bareUnit_iff.1 hbare
      exact not_duration_of_unit hu hrest
  exact not_seconds_and_error le_rfl (ibDuration2secs_bare hd hlen hbare) (h.rejects hno)

/-- **Where not all is counted** there is no duration: the one of all of
the string would be refused, the one of the counted part accepted. -/
theorem not_duration_of_parses (hc : c_str dur = dur) (hrest : rest ≠ [])
    (h : ParsesDurations dur) : (∀ secs, ¬ Duration dur.toList secs) ∧
      ∀ secs, ¬ Duration (p ++ [a, b]) secs := by
  have hs : dur.toList = p ++ a :: b :: rest := by rw [← hd, hc]
  constructor
  · intro secs hdur
    have hval := h.accepts secs hdur
    have h0 := hdur.nonneg
    rw [hs] at hdur
    have hletter : unitSeconds b = none := by
      rw [List.append_cons] at hdur
      exact unit_of_duration hdur hrest
    have hneg := ibDuration2secs_other hd hlen
      (fun secs' hpart => by
        obtain ⟨unit, hu⟩ := hpart.exists_unit
        simp [hletter] at hu)
      (fun hbare => by
        obtain ⟨-, -, unit, hu⟩ := bareUnit_iff.1 hbare
        simp [hletter] at hu)
    exact not_seconds_and_error h0 hval hneg
  · intro secs hpart
    obtain ⟨unit, hu⟩ := hpart.exists_unit
    have hneg := h.rejects fun secs' => by
      rw [hs]
      exact not_duration_of_unit hu hrest
    exact not_seconds_and_error hpart.nonneg (ibDuration2secs_duration hd hlen hpart) hneg

/-- **What is taken apart is parsed.** -/
theorem parses_of_not_bareUnit (hc : c_str dur = dur) (hbare : ¬ BareUnit (p ++ [a, b]))
    (hlong : rest ≠ [] → (∀ secs, ¬ Duration dur.toList secs) ∧
      ∀ secs, ¬ Duration (p ++ [a, b]) secs) : ParsesDurations dur := by
  have hs : dur.toList = p ++ a :: b :: rest := by rw [← hd, hc]
  have haccepts : ∀ secs, Duration dur.toList secs → ibDuration2secs dur = .ok secs := by
    intro secs hdur
    have hrest : rest = [] := by
      by_contra hrest
      exact (hlong hrest).1 secs hdur
    rw [hs, hrest] at hdur
    exact ibDuration2secs_duration hd hlen hdur
  have hrejects : (∀ secs, ¬ Duration dur.toList secs) → ibDuration2secs dur = .ok (-1) := by
    intro hno
    refine ibDuration2secs_other hd hlen (fun secs hpart => ?_) hbare
    by_cases hrest : rest = []
    · rw [hs, hrest] at hno
      exact hno secs hpart
    · exact (hlong hrest).2 secs hpart
  refine ⟨?_, haccepts, hrejects⟩
  by_cases hdur : ∃ secs, Duration dur.toList secs
  · obtain ⟨secs, hdur⟩ := hdur
    exact ⟨secs, haccepts secs hdur⟩
  · exact ⟨-1, hrejects (not_exists.1 hdur)⟩

end

/-- **Exactly the durations are accepted, exactly if** the string is taken
apart where it should be. -/
theorem ib_duration2secs_iff (hnul : CString dur) :
    ParsesDurations dur ↔ TakenApart dur.toList := by
  have hc : c_str dur = dur := hnul
  by_cases h2 : 2 ≤ toInt dur.toList.length
  · obtain ⟨p, a, b, rest, hs, hcounted, hlen⟩ := exists_counted h2
    have hd : (c_str dur).toList = p ++ a :: b :: rest := by rw [hc, hs]
    rw [hs] at hlen
    have hlong : rest ≠ [] ↔ INT_MAX < dur.toList.length := by
      rw [ne_eq, rest_eq_nil_iff hlen, not_not, hs]
    constructor
    · intro h
      refine ⟨h2, ?_, fun hl => ?_⟩
      · rw [hcounted]
        exact not_bareUnit_of_parses hd hlen hc h
      · rw [hcounted]
        exact not_duration_of_parses hd hlen hc (hlong.2 hl) h
    · rintro ⟨-, hbare, hapart⟩
      rw [hcounted] at hbare hapart
      exact parses_of_not_bareUnit hd hlen hc hbare fun hrest => hapart (hlong.1 hrest)
  · refine iff_of_false (fun h => ?_) (fun h => h2 h.two)
    have := ibDuration2secs_ok_iff.1 h.reads
    rw [hc, ← String.length_toList] at this
    exact h2 this

theorem ib_duration2secs_iff_month :
    ParsesDurations "1 M" ↔ TakenApart ("1 M" : String).toList :=
  ib_duration2secs_iff (by decide)

/-- **A unit without a number is accepted**, and one character is not enough
to look at. -/
theorem bare_unit_accepted : ibDuration2secs " S" = .ok 0 ∧ ¬ ParsesDurations " S" ∧
    ibDuration2secs "S" = .error .badAccess ∧ ¬ ParsesDurations "S" := by
  have h1 : ibDuration2secs " S" = .ok 0 := by decide +kernel
  have h2 : ibDuration2secs "S" = .error .badAccess := by decide +kernel
  refine ⟨h1, fun h => ?_, h2, fun h => ?_⟩
  · have hneg := h.rejects fun secs =>
      not_duration_of_bareUnit ⟨'S', 1, by decide, rfl⟩
    rw [h1] at hneg
    exact absurd (Except.ok.inj hneg) (by decide)
  · obtain ⟨secs, hs⟩ := h.reads
    rw [h2] at hs
    cases hs

end Twstools
