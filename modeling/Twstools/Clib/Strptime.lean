import Twstools.Clib.FixedWidth
import Twstools.Clib.Strtol
import Twstools.Clib.Time
/-!
# What `strptime` reads

A field of a date is white space and digits. `getNumber` reads a field up to
its width, or up to where no other digit could belong to it
(`getNumber_eq_some_iff`). A date of three fields is read field by field,
each against its own range only (`scanFormat_date`), and a time of day
behind it (`scanFormat_clock`).
-/

namespace Twstools

open Double (Digits)

/-- A number as `strptime` finds it. -/
structure DateField where
  space : List Char
  digits : List Char

namespace DateField

/-- The characters of a field. -/
def text (f : DateField) : List Char := f.space ++ f.digits

/-- The number it stands for. -/
def value (f : DateField) : ℕ := Nat.ofDigitChars 10 f.digits 0

/-- The field is one `getNumber lo hi n` reads in front of `rest`. -/
structure Reads (f : DateField) (lo hi n : ℕ) (rest : List Char) : Prop where
  space : ∀ c ∈ f.space, isSpace c = true
  digits : Digits f.digits
  ne_nil : f.digits ≠ []
  length_le : f.digits.length ≤ n
  ge : lo ≤ f.value
  le : f.value ≤ hi
  /-- Why no other digit is read. -/
  ends : f.digits.length = n ∨ hi < f.value * 10 ∨ NoDigitAhead rest

/-- The field of a number in its full width. -/
def full (w n : ℕ) : DateField := ⟨[], zeroPad w n⟩

variable {f : DateField} {lo hi n w : ℕ} {rest : List Char}

@[simp] theorem text_full : (full w n).text = zeroPad w n := rfl

@[simp] theorem value_full : (full w n).value = n := ofDigitChars_zeroPad

theorem reads_full (hw : 0 < w) (hn : n < 10 ^ w) (hlo : lo ≤ n) (hhi : n ≤ hi) :
    (full w n).Reads lo hi w rest where
  space := fun _ h => absurd h List.not_mem_nil
  digits := digits_zeroPad
  ne_nil := List.ne_nil_of_length_pos (by rw [full, length_zeroPad hw hn]; exact hw)
  length_le := (length_zeroPad hw hn).le
  ge := by rwa [value_full]
  le := by rwa [value_full]
  ends := .inl (length_zeroPad hw hn)

end DateField

variable {lo hi n val v : ℕ} {s rest ds : List Char}

theorem le_ofDigitChars : val ≤ Nat.ofDigitChars 10 ds val := by
  rw [Nat.ofDigitChars_eq_ofDigitChars_zero]
  have : 1 * val ≤ 10 ^ ds.length * val := Nat.mul_le_mul_right _ (Nat.one_le_pow _ _ (by omega))
  omega

/-- What `takeNumber` takes are digits, and there is a reason to stop. -/
theorem takeNumber_spec (h : takeNumber hi n val s = (v, rest)) :
    ∃ ds, s = ds ++ rest ∧ Digits ds ∧ ds.length ≤ n ∧ v = Nat.ofDigitChars 10 ds val ∧
      (ds.length = n ∨ hi < v * 10 ∨ NoDigitAhead rest) := by
  induction n generalizing val s with
  | zero =>
      obtain ⟨rfl, rfl⟩ := Prod.mk.inj h
      exact ⟨[], rfl, fun c hc => absurd hc List.not_mem_nil, le_rfl, rfl, .inl rfl⟩
  | succ n ih =>
      cases s with
      | nil =>
          obtain ⟨rfl, rfl⟩ := Prod.mk.inj h
          exact ⟨[], rfl, fun c hc => absurd hc List.not_mem_nil, Nat.zero_le _, rfl,
            .inr (.inr noDigitAhead_nil)⟩
      | cons c cs =>
          rw [takeNumber] at h
          split at h
          · rename_i hc
            obtain ⟨ds, rfl, hds, hlen, rfl, hend⟩ := ih h
            have hval : Nat.ofDigitChars 10 (c :: ds) val =
                Nat.ofDigitChars 10 ds (val * 10 + (c.toNat - '0'.toNat)) := by
              rw [Nat.ofDigitChars_cons, Nat.mul_comm]
            refine ⟨c :: ds, rfl, List.forall_mem_cons.2 ⟨hc.1, hds⟩, Nat.succ_le_succ hlen,
              hval.symm, hend.imp_left fun h => congrArg Nat.succ h⟩
          · rename_i hc
            obtain ⟨rfl, rfl⟩ := Prod.mk.inj h
            refine ⟨[], rfl, fun c hc => absurd hc List.not_mem_nil, Nat.zero_le _, rfl, .inr ?_⟩
            by_cases hd : c.isDigit = true
            · exact .inl (Nat.lt_of_not_le fun hle => hc ⟨hd, hle⟩)
            · exact .inr (noDigitAhead_cons (by simpa using hd))

/-- Digits of an allowed value are taken up to such a reason. -/
theorem takeNumber_append (hds : Digits ds) (hlen : ds.length ≤ n)
    (hle : Nat.ofDigitChars 10 ds val ≤ hi)
    (hend : ds.length = n ∨ hi < Nat.ofDigitChars 10 ds val * 10 ∨ NoDigitAhead rest) :
    takeNumber hi n val (ds ++ rest) = (Nat.ofDigitChars 10 ds val, rest) := by
  induction ds generalizing n val with
  | nil =>
      rw [List.nil_append, Nat.ofDigitChars_nil]
      cases n with
      | zero => cases rest <;> rfl
      | succ n =>
          cases rest with
          | nil => rfl
          | cons c cs =>
              rw [takeNumber, if_neg]
              rintro ⟨hc, hval⟩
              rcases hend with h | h | h
              · cases h
              · rw [Nat.ofDigitChars_nil] at h
                omega
              · have := h c rfl
                rw [hc] at this
                cases this
  | cons c ds ih =>
      obtain ⟨hc, hds⟩ := Digits.tail hds
      rw [Nat.ofDigitChars_cons, Nat.mul_comm 10 val] at hle hend ⊢
      cases n with
      | zero => cases hlen
      | succ n =>
          have hval : val * 10 ≤ hi := by
            have hmono : val * 10 + (c.toNat - '0'.toNat) ≤
                Nat.ofDigitChars 10 ds (val * 10 + (c.toNat - '0'.toNat)) := le_ofDigitChars
            omega
          rw [List.cons_append, takeNumber, if_pos ⟨hc, hval⟩]
          exact ih hds (Nat.le_of_succ_le_succ hlen) hle
            (hend.imp_left fun h => Nat.succ.inj h)

/-- **What a field is**, for `getNumber`. -/
theorem getNumber_eq_some_iff (hn : 0 < n) {x : ℤ} : getNumber lo hi n s = some (x, rest) ↔
    ∃ f : DateField, s = f.text ++ rest ∧ f.Reads lo hi n rest ∧ x = f.value := by
  constructor
  · intro h
    unfold getNumber at h
    dsimp only at h
    split at h
    · rename_i hdig
      split at h
      · rename_i hrange
        obtain ⟨rfl, rfl⟩ := Prod.mk.inj (Option.some.inj h)
        obtain ⟨ds, hs, hds, hlen, hv, hend⟩ :=
          takeNumber_spec (Prod.eta (takeNumber hi n 0 (s.dropWhile isSpace))).symm
        refine ⟨⟨s.takeWhile isSpace, ds⟩, ?_,
          ⟨fun c hc => List.mem_takeWhile_imp hc, hds, ?_, hlen, ?_, ?_, ?_⟩, ?_⟩
        · rw [DateField.text, List.append_assoc, ← hs, List.takeWhile_append_dropWhile]
        · -- the first character that is no space is a digit, and it is read
          rintro rfl
          rcases hend with h | h | h
          · exact absurd h hn.ne
          · rw [hv] at h
            exact absurd h (Nat.not_lt_zero _)
          · rw [List.nil_append] at hs
            rw [hs] at hdig
            obtain ⟨c, hc, hcd⟩ := (Option.any_eq_true _ _).1 hdig
            rw [h c hc] at hcd
            cases hcd
        · rw [DateField.value, ← hv]
          exact hrange.1
        · rw [DateField.value, ← hv]
          exact hrange.2
        · rwa [DateField.value, ← hv]
        · exact congrArg Nat.cast hv
      · cases h
    · cases h
  · rintro ⟨f, rfl, h, rfl⟩
    obtain ⟨c, cs, hc⟩ := List.exists_cons_of_ne_nil h.ne_nil
    have hdig : c.isDigit = true := h.digits c (by rw [hc]; exact List.mem_cons_self)
    have hdrop : (f.text ++ rest).dropWhile isSpace = f.digits ++ rest := by
      rw [DateField.text, List.append_assoc, List.dropWhile_append_of_pos h.space, hc,
        List.cons_append, List.dropWhile_cons_of_neg (by simp [(isDigit_ne hdig).1])]
    have hhead : (f.digits ++ rest).head?.any Char.isDigit = true := by
      rw [hc]
      simpa using hdig
    have htake := takeNumber_append h.digits h.length_le h.le h.ends
    unfold getNumber
    simp only [hdrop, hhead, htake, if_true]
    exact if_pos ⟨h.ge, h.le⟩

/-! ## Dates and times -/

/-- Three fields are a date in front of `rest`, each one going by its own
range. -/
structure ReadsDate (y m d : DateField) (rest : List Char) : Prop where
  year : y.Reads 0 9999 4 (m.text ++ (d.text ++ rest))
  month : m.Reads 1 12 2 (d.text ++ rest)
  day : d.Reads 1 31 2 rest

/-- Three fields are a time of day in front of `rest`. -/
structure ReadsClock (h mi se : DateField) (rest : List Char) : Prop where
  hour : h.Reads 0 23 2 (':' :: (mi.text ++ ':' :: (se.text ++ rest)))
  minute : mi.Reads 0 59 2 (':' :: (se.text ++ rest))
  second : se.Reads 0 61 2 rest

namespace Tm

/-- The fields `%Y%m%d` sets. -/
def setDate (tm : Tm) (y m d : ℕ) : Tm :=
  { tm with tm_year := y - 1900, tm_mon := m - 1, tm_mday := d }

/-- The fields `%H:%M:%S` sets. -/
def setClock (tm : Tm) (h mi se : ℕ) : Tm :=
  { tm with tm_hour := h, tm_min := mi, tm_sec := se }

end Tm

variable {α : Type} {fmt : List Conversion} {tm : Tm} {r : Tm × List Char}

/-- A field, and what goes on with its value. -/
theorem getNumber_bind_eq_some (hn : 0 < n) {k : ℤ × List Char → Option α} {a : α} :
    (getNumber lo hi n s).bind k = some a ↔ ∃ (f : DateField) (rest : List Char),
      s = f.text ++ rest ∧ f.Reads lo hi n rest ∧ k (f.value, rest) = some a := by
  rw [Option.bind_eq_some_iff]
  constructor
  · rintro ⟨⟨x, rest⟩, h, hk⟩
    obtain ⟨f, hs, hf, rfl⟩ := (getNumber_eq_some_iff hn).1 h
    exact ⟨f, rest, hs, hf, hk⟩
  · rintro ⟨f, rest, hs, hf, hk⟩
    exact ⟨_, (getNumber_eq_some_iff hn).2 ⟨f, hs, hf, rfl⟩, hk⟩

/-- **`%Y%m%d`**, and the rest of the format. -/
theorem scanFormat_date : scanFormat (.Y :: .m :: .d :: fmt) s tm = some r ↔
    ∃ (y m d : DateField) (rest : List Char),
      s = y.text ++ (m.text ++ (d.text ++ rest)) ∧ ReadsDate y m d rest ∧
        scanFormat fmt rest (tm.setDate y.value m.value d.value) = some r := by
  constructor
  · intro h
    obtain ⟨y, rest₁, rfl, hy, h⟩ := (getNumber_bind_eq_some (by decide)).1 h
    obtain ⟨m, rest₂, rfl, hm, h⟩ := (getNumber_bind_eq_some (by decide)).1 h
    obtain ⟨d, rest₃, rfl, hd, h⟩ := (getNumber_bind_eq_some (by decide)).1 h
    exact ⟨y, m, d, rest₃, rfl, ⟨hy, hm, hd⟩, h⟩
  · rintro ⟨y, m, d, rest, rfl, ⟨hy, hm, hd⟩, h⟩
    exact (getNumber_bind_eq_some (by decide)).2 ⟨y, _, rfl, hy,
      (getNumber_bind_eq_some (by decide)).2 ⟨m, _, rfl, hm,
        (getNumber_bind_eq_some (by decide)).2 ⟨d, _, rfl, hd, h⟩⟩⟩

/-- A character of the format. -/
theorem scanFormat_literal {c : Char} : scanFormat (.literal c :: fmt) s tm = some r ↔
    ∃ rest, s = c :: rest ∧ scanFormat fmt rest tm = some r := by
  rw [scanFormat]
  cases s with
  | nil => simp
  | cons c' cs =>
      simp only [List.head?_cons, Option.some.injEq, List.tail_cons]
      constructor
      · intro h
        split at h
        · rename_i hc
          exact ⟨cs, by rw [hc], h⟩
        · cases h
      · rintro ⟨rest, hs, h⟩
        obtain ⟨rfl, rfl⟩ := List.cons.inj hs
        rw [if_pos rfl, h]

/-- **`%t%H:%M:%S`**, the end of the format. -/
theorem scanFormat_clock :
    scanFormat [.t, .H, .literal ':', .M, .literal ':', .S] s tm = some r ↔
    ∃ (h mi se : DateField) (rest : List Char),
      s.dropWhile isSpace = h.text ++ ':' :: (mi.text ++ ':' :: (se.text ++ rest)) ∧
        ReadsClock h mi se rest ∧ r = (tm.setClock h.value mi.value se.value, rest) := by
  rw [scanFormat]
  constructor
  · intro hr
    obtain ⟨h, rest₁, hs, hh, hr⟩ := (getNumber_bind_eq_some (by decide)).1 hr
    obtain ⟨rest₂, rfl, hr⟩ := scanFormat_literal.1 hr
    obtain ⟨mi, rest₃, rfl, hmi, hr⟩ := (getNumber_bind_eq_some (by decide)).1 hr
    obtain ⟨rest₄, rfl, hr⟩ := scanFormat_literal.1 hr
    obtain ⟨se, rest₅, rfl, hse, hr⟩ := (getNumber_bind_eq_some (by decide)).1 hr
    exact ⟨h, mi, se, rest₅, hs, ⟨hh, hmi, hse⟩, (Option.some.inj hr).symm⟩
  · rintro ⟨h, mi, se, rest, hs, ⟨hh, hmi, hse⟩, rfl⟩
    exact (getNumber_bind_eq_some (by decide)).2 ⟨h, _, hs, hh,
      scanFormat_literal.2 ⟨_, rfl, (getNumber_bind_eq_some (by decide)).2 ⟨mi, _, rfl, hmi,
        scanFormat_literal.2 ⟨_, rfl, (getNumber_bind_eq_some (by decide)).2
          ⟨se, _, rfl, hse, rfl⟩⟩⟩⟩⟩

end Twstools
