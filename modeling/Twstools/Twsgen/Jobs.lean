import Twstools.Twsgen.Model
import Twstools.Xml.Delivery
import Twstools.Xml.NormalForm
/-!
# What the generator prints

For each contract of the input that did not expire before the begin date
there is a document for each kind of data, in order. The generator gets
that far exactly when `mktime` gives no date the time `-1` and a duration
that is looked at has two characters.
-/

namespace Twstools

/-! ## What to show -/

/-- The kinds of data asked for. -/
def whatToShows (whatToShow : String) : List String :=
  (tokens isDelimiter whatToShow.toList).map String.ofList

/-- The array is filled with the tokens, if there is room for them. -/
theorem putTokens_eq {size fuel : ℕ} : ∀ {s : List Char} {wts_list : List (Option String)},
    s.length < fuel → wts_list.length + (tokens isDelimiter s).length < size →
    putTokens size fuel s wts_list = .ok (wts_list ++
      ((tokens isDelimiter s).map fun t => some (String.ofList t)) ++ [none]) := by
  induction fuel with
  | zero => exact fun h _ => absurd h (Nat.not_lt_zero _)
  | succ fuel ih =>
      intro s wts_list hfuel hsize
      rw [putTokens]
      rcases nextToken_cases (p := isDelimiter) (l := s) with ⟨hn, ht⟩ | ⟨w, r, hn, ht⟩
      · rw [ht] at hsize ⊢
        rw [hn]
        simp only [List.length_nil, Nat.add_zero] at hsize
        simp [putToken, hsize]
      · have hlen := ht.length_le
        have hpos := ht.length_pos
        rw [ht.tokens_eq] at hsize ⊢
        rw [List.length_cons] at hsize
        have hroom : wts_list.length < size := by omega
        have hrest : r.length < fuel := by
          rcases hlen with hlt | ⟨rfl, hle⟩
          · omega
          · rw [List.length_nil]
            omega
        simp only [hn, putToken, if_pos hroom, pure, Except.pure, Exec.ok_bind]
        rw [ih hrest (by rw [List.length_append, List.length_singleton]; omega)]
        simp

/-- **`split_whatToShow` finds the tokens**, and its array has room. -/
theorem splitWhatToShow_eq (s : String) :
    splitWhatToShow s = .ok ((whatToShows s).map some ++ [none]) := by
  have hcount := length_tokens_le (p := isDelimiter) (l := s.toList)
  rw [String.length_toList] at hcount
  have hfuel : s.toList.length < s.length + 1 := by
    rw [String.length_toList]
    omega
  have hroom : ([] : List (Option String)).length + (tokens isDelimiter s.toList).length <
      (s.length + 1) / 2 + 1 := by
    rw [List.length_nil]
    omega
  have hsize : (whatToShows s).length + 1 ≤ (s.length + 1) / 2 + 1 := by
    rw [whatToShows, List.length_map]
    omega
  have hput : putTokens ((s.length + 1) / 2 + 1) (s.length + 1) s.toList [] =
      .ok ((whatToShows s).map some ++ [none]) := by
    rw [putTokens_eq hfuel hroom, whatToShows, List.map_map]
    rfl
  simp only [splitWhatToShow, hput, Exec.ok_bind]
  rw [Exec.ensure_of_true (by simp), Exec.ok_bind,
    Exec.ensure_of_true (by simpa using hsize), Exec.ok_bind]
  rfl

/-- The kinds of data in front of the `NULL`. -/
theorem reduceOption_wts_list (ts : List String) :
    ((ts.map some ++ [none]).takeWhile Option.isSome).reduceOption = ts := by
  rw [List.takeWhile_append_of_pos (by simp)]
  simp [List.reduceOption]

namespace GenArgs

variable (o : GenArgs)

/-- The contract as it is asked for: `includeExpired` is what `get_inc_exp`
decides, and unchanged in mode keep. -/
def jobContract (c : Contract) : Contract :=
  { c with
    includeExpired := (getIncExp o.exp_mode c.secType).toOption.getD c.includeExpired }

/-- The jobs for contracts: of those that did not expire, one for each kind
of data. -/
def jobs (mktime : Tm → ℤ) (t_begin : ℤ) (cs : List Contract) : List HistRequest :=
  (cs.filter fun c =>
    (skipExpiry mktime c.lastTradeDateOrContractMonth t_begin).toOption ≠ some true).flatMap
      fun c => (whatToShows o.whatToShow).map (o.histRequest (o.jobContract c))

variable {o} {skip : Bool} {api : DetailsDefaults} {mktime : Tm → ℤ} {t_begin : ℤ}
variable {c : Contract} {cd : ContractDetails}

/-! ## One contract -/

end GenArgs

end Twstools
