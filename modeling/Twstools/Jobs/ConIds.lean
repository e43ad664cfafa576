import Twstools.Common.Groups
import Twstools.Jobs.Repeat
import Twstools.Jobs.Strategy
/-!
# The contract numbers of the requests for market data

Each job for market data also asks for the details of its contract. With a
strategy module the number in the row that arrives is given to one of the
requests for market data: not to that of the job, but to the one whose
place is the number of different contracts so far. `conIdsMatch_iff` says
for which work files and rows that is the same.
-/

namespace Twstools

open Std

/-! ## The jobs -/

/-- The job for market data of a work file's element. -/
def Job.marketJob : Job → Option MktDataRequest
  | .market_data r _ => some r
  | _ => none

theorem readFile_mktDataTodo (w : WorkTodo) (jobs : List Job) :
    (w.readFile jobs).mktDataTodo = w.mktDataTodo ++ jobs.filterMap Job.marketJob := by
  induction jobs generalizing w with
  | nil => simp [WorkTodo.readFile]
  | cons job jobs ih =>
      rw [WorkTodo.readFile, List.foldl_cons, ← WorkTodo.readFile, ih]
      cases job <;> simp [WorkTodo.readReq, List.filterMap_cons, Job.marketJob]

/-- The place of the `j`-th job among those for which contract details are
asked for. -/
def queryOf (jobs : List Job) (j : ℕ) : ℕ := ((jobs.take j).filterMap Job.contractJob).length

/-- The place of the `j`-th job among those for market data. -/
def tickerOf (jobs : List Job) (j : ℕ) : ℕ := ((jobs.take j).filterMap Job.marketJob).length

/-- The conIds of the rows for the first `n` queries, if `r` tells them. -/
def conIds (r : ℕ → ℤ) (n : ℕ) : List ℤ := (List.range n).map r

/-- Those of all queries. -/
def answers (r : ℕ → ℤ) (jobs : List Job) : List ℤ :=
  conIds r (jobs.filterMap Job.contractJob).length

/-- The conIds that the jobs for market data have themselves. -/
def ownConIds (jobs : List Job) : List ℤ :=
  (jobs.filterMap Job.marketJob).map (·.ibContract.conId)

/-- **The conIds go where they belong**: they fall into groups, each
beginning with one that was not there before, and the groups are those of
the jobs for market data. -/
structure ConIdsMatch (r : ℕ → ℤ) (jobs : List Job) : Prop where
  card_le : (answers r jobs).toFinset.card ≤ (jobs.filterMap Job.marketJob).length
  card_le_int : (answers r jobs).toFinset.card ≤ 2147483648
  settles : ∀ (j : ℕ) (q : MktDataRequest) (cdr : ContractDetailsRequest),
    jobs[j]? = some (.market_data q cdr) → SettlesOn 0 (r (queryOf jobs j))
      (q.ibContract.conId :: group (answers r jobs) (tickerOf jobs j))

variable {r : ℕ → ℤ} {jobs : List Job} {n : ℕ}

theorem conIds_succ : conIds r (n + 1) = conIds r n ++ [r n] := by
  simp [conIds, List.range_succ]

theorem conIds_prefix {m : ℕ} (h : n ≤ m) : ∃ l, conIds r m = conIds r n ++ l := by
  induction h with
  | refl => exact ⟨[], by simp⟩
  | step _ ih =>
      obtain ⟨l, hl⟩ := ih
      exact ⟨l ++ [r _], by rw [conIds_succ, hl, List.append_assoc]⟩

/-- The place of an element among those that are taken. -/
theorem getElem?_filterMap_take {α β : Type*} {f : α → Option β} {l : List α} {j : ℕ} {a : α}
    {b : β} (ha : l[j]? = some a) (hb : f a = some b) :
    (l.filterMap f)[((l.take j).filterMap f).length]? = some b := by
  induction l generalizing j with
  | nil => cases ha
  | cons x l ih =>
      cases j with
      | zero =>
          obtain rfl := Option.some.inj ha
          simp [hb]
      | succ j =>
          have h := ih ha
          cases hx : f x with
          | none => simpa [List.filterMap_cons, hx] using h
          | some y => simpa [List.filterMap_cons, hx] using h

/-- Each of them has its place. -/
theorem exists_of_getElem?_filterMap {α β : Type*} {f : α → Option β} {l : List α} {i : ℕ} {b : β}
    (h : (l.filterMap f)[i]? = some b) :
    ∃ j a, l[j]? = some a ∧ f a = some b ∧ ((l.take j).filterMap f).length = i := by
  induction l generalizing i with
  | nil => cases h
  | cons x l ih =>
      cases hx : f x with
      | none =>
          rw [List.filterMap_cons_none hx] at h
          obtain ⟨j, a, ha, hb, hi⟩ := ih h
          exact ⟨j + 1, a, ha, hb, by simpa [List.filterMap_cons, hx] using hi⟩
      | some y =>
          rw [List.filterMap_cons_some hx] at h
          cases i with
          | zero => exact ⟨0, x, rfl, hx.trans h, rfl⟩
          | succ i =>
              obtain ⟨j, a, ha, hb, hi⟩ := ih h
              exact ⟨j + 1, a, ha, hb, by simp [hx, hi]⟩

theorem getElem?_ownConIds {j : ℕ} {q : MktDataRequest} {cdr : ContractDetailsRequest}
    (h : jobs[j]? = some (.market_data q cdr)) :
    (ownConIds jobs)[tickerOf jobs j]? = some q.ibContract.conId := by
  rw [ownConIds, List.getElem?_map, tickerOf, getElem?_filterMap_take h (b := q) rfl]
  rfl

/-- **The conIds go where they belong** exactly if they can be filed, and
each one is in its place then. -/
theorem conIdsMatch_iff : ConIdsMatch r jobs ↔
    Fits 0 (min (ownConIds jobs).length 2147483648) (ownConIds jobs) (answers r jobs) ∧
      ∀ (j : ℕ) (q : MktDataRequest) (cdr : ContractDetailsRequest),
        jobs[j]? = some (.market_data q cdr) →
          (filed (ownConIds jobs) (answers r jobs))[tickerOf jobs j]? =
            some (r (queryOf jobs j)) := by
  have hlen : (ownConIds jobs).length = (jobs.filterMap Job.marketJob).length := List.length_map _
  have hfiled : ∀ {j : ℕ} {q : MktDataRequest} {cdr : ContractDetailsRequest},
      jobs[j]? = some (.market_data q cdr) →
      (filed (ownConIds jobs) (answers r jobs))[tickerOf jobs j]? =
        some ((group (answers r jobs) (tickerOf jobs j)).getLastD q.ibContract.conId) := by
    intro j q cdr h
    rw [getElem?_filed, getElem?_ownConIds h]
    rfl
  constructor
  · rintro ⟨hcard, hint, hsettles⟩
    refine ⟨⟨?_, fun i c hc => ?_⟩, fun j q cdr h => ?_⟩
    · rw [hlen]
      exact le_min hcard hint
    · -- the cell is that of a job
      rw [ownConIds, List.getElem?_map, Option.map_eq_some_iff] at hc
      obtain ⟨q, hq, rfl⟩ := hc
      obtain ⟨j, job, hj, hjq, rfl⟩ := exists_of_getElem?_filterMap hq
      cases job with
      | market_data q' cdr =>
          obtain rfl := Option.some.inj hjq
          exact (settlesOn_iff.1 (hsettles j _ cdr hj)).1
      | _ => cases hjq
    · rw [hfiled h, (settlesOn_iff.1 (hsettles j q cdr h)).2]
  · rintro ⟨⟨hcard, hchain⟩, hplace⟩
    rw [hlen] at hcard
    refine ⟨hcard.trans (min_le_left _ _), hcard.trans (min_le_right _ _), fun j q cdr h => ?_⟩
    refine settlesOn_iff.2 ⟨hchain _ _ (getElem?_ownConIds h), ?_⟩
    have hp := hplace j q cdr h
    rw [hfiled h] at hp
    exact Option.some.inj hp

/-! ## Filing one row -/

/-- The rows that are kept have these conIds. -/
structure KeptRows (ids : List ℤ) (con_details : TreeMap ℤ ContractDetails) : Prop where
  mem : ∀ x, x ∈ con_details ↔ x ∈ ids
  size : con_details.size = ids.toFinset.card

variable {ids cs : List ℤ} {cds cds' : TreeMap ℤ ContractDetails} {v v' : List MktDataRequest}
variable {cd : ContractDetails}

theorem KeptRows.insert (h : KeptRows ids cds) (cd : ContractDetails) :
    KeptRows (ids ++ [cd.summary.conId]) (cds.insert cd.summary.conId cd) where
  mem x := by
    rw [TreeMap.mem_insert, h.mem, List.mem_append, List.mem_singleton, Std.compare_eq_iff_eq,
      or_comm, eq_comm]
  size := by
    have hmem : cds.contains cd.summary.conId = true ↔ cd.summary.conId ∈ ids :=
      TreeMap.mem_iff_contains.symm.trans (h.mem _)
    rw [TreeMap.size_insert, card_snoc, h.size]
    by_cases hc : cd.summary.conId ∈ ids
    · rw [if_pos (hmem.2 hc), if_pos hc]
      rfl
    · rw [if_neg (fun h => hc (hmem.1 h)), if_neg hc]

/-- The number of an `int` index, for as many contracts as there can be. -/
theorem toInt_size (hn : 0 < n) (hle : n ≤ 2147483649) :
    n ≤ 2147483648 ∧ toInt (n - 1) = ↑(n - 1) ∨ n = 2147483649 ∧ toInt (n - 1) < 0 := by
  by_cases h : n ≤ 2147483648
  · refine .inl ⟨h, ?_⟩
    rw [toInt_eq ⟨by unfold INT_MIN; omega, by unfold INT_MAX; omega⟩]
    omega
  · exact .inr ⟨by omega, toInt_neg (by unfold INT_MAX; omega) (by omega)⟩

/-- **Filing one row**: the cell for it is there, and may be written. -/
theorem addConId_eq_ok (hk : KeptRows ids cds) (hcard : ids.toFinset.card ≤ 2147483648) :
    StratDL.addConId cds v [cd] = .ok (cds', v') ↔
      (ids ++ [cd.summary.conId]).toFinset.card ≤ 2147483648 ∧
        ∃ q, v[(ids ++ [cd.summary.conId]).toFinset.card - 1]? = some q ∧
          MayWrite 0 q.ibContract.conId cd.summary.conId ∧
          cds' = cds.insert cd.summary.conId cd ∧
          v' = v.set ((ids ++ [cd.summary.conId]).toFinset.card - 1)
            (q.setConId cd.summary.conId) := by
  have hsize := (hk.insert cd).size
  have hpos := card_snoc_pos ids cd.summary.conId
  have hsnoc := card_snoc ids cd.summary.conId
  have hle : (ids ++ [cd.summary.conId]).toFinset.card ≤ 2147483649 := by
    split at hsnoc <;> omega
  have hat : (atIndex [cd] 0 : Exec Assertion ContractDetails) = .ok cd := rfl
  simp only [StratDL.addConId, Exec.bind_eq_ok, Exec.ensure_eq_ok, hat, Except.ok.injEq,
    Exec.deref_eq_ok, Exec.pure_eq_ok, hsize, exists_eq_left', List.length_singleton, true_and,
    exists_const, Prod.mk.injEq]
  rcases toInt_size hpos hle with ⟨hok, hmi⟩ | ⟨htop, hneg⟩
  · rw [hmi, if_pos (Int.natCast_nonneg _), Int.toNat_natCast]
    constructor
    · rintro ⟨q, hq, hw, rfl, rfl⟩
      exact ⟨hok, q, hq, hw, rfl, rfl⟩
    · rintro ⟨-, q, hq, hw, rfl, rfl⟩
      exact ⟨q, hq, hw, rfl, rfl⟩
  · -- the index has become negative
    rw [if_neg (by omega)]
    constructor
    · rintro ⟨q, hq, -⟩
      cases hq
    · rintro ⟨hle', -⟩
      omega

/-- The part of the state that is filed, after the rows with these conIds. -/
structure FiledRows (cs ids : List ℤ) (v : List MktDataRequest)
    (con_details : TreeMap ℤ ContractDetails) : Prop where
  kept : KeptRows ids con_details
  conIds : v.map (·.ibContract.conId) = filed cs ids
  fits : Fits 0 (min cs.length 2147483648) cs ids

theorem FiledRows.getElem? (h : FiledRows cs ids v cds) (i : ℕ) :
    (filed cs ids)[i]? = v[i]?.map (·.ibContract.conId) := by
  rw [← h.conIds, List.getElem?_map]

/-- **A row that is filed** can be filed, and is. -/
theorem FiledRows.snoc (h : FiledRows cs ids v cds)
    (hadd : StratDL.addConId cds v [cd] = .ok (cds', v')) :
    FiledRows cs (ids ++ [cd.summary.conId]) v' cds' := by
  have hbound := h.fits.card_le
  obtain ⟨hcard, q, hq, hw, rfl, rfl⟩ := (addConId_eq_ok h.kept (by omega)).1 hadd
  have hcell : (filed cs ids)[(ids ++ [cd.summary.conId]).toFinset.card - 1]? =
      some q.ibContract.conId := by
    rw [h.getElem?, hq]
    rfl
  have hlt : (ids ++ [cd.summary.conId]).toFinset.card - 1 < cs.length := by
    have := (List.getElem?_eq_some_iff.1 hcell).1
    rwa [length_filed] at this
  refine ⟨h.kept.insert cd, ?_, (fits_snoc _ _ _ _ _).2 ⟨h.fits, ?_, fun w hwrite => ?_⟩⟩
  · rw [filed_snoc, ← h.conIds, List.map_set]
    rfl
  · exact le_min (by omega) hcard
  · rw [hcell] at hwrite
    rwa [← Option.some.inj hwrite]

/-- **A row that can be filed is.** -/
theorem FiledRows.of_fits (h : FiledRows cs ids v cds)
    (hf : Fits 0 (min cs.length 2147483648) cs (ids ++ [cd.summary.conId])) :
    ∃ res, StratDL.addConId cds v [cd] = .ok res := by
  have hbound := h.fits.card_le
  obtain ⟨-, hcard, hwrite⟩ := (fits_snoc _ _ _ _ _).1 hf
  have hpos := card_snoc_pos ids cd.summary.conId
  have hlen : v.length = cs.length := by
    have := congrArg List.length h.conIds
    rwa [List.length_map, length_filed] at this
  have hlt : (ids ++ [cd.summary.conId]).toFinset.card - 1 < v.length := by omega
  obtain ⟨q, hq⟩ : ∃ q, v[(ids ++ [cd.summary.conId]).toFinset.card - 1]? = some q :=
    ⟨_, List.getElem?_eq_getElem hlt⟩
  refine ⟨(_, _), (addConId_eq_ok h.kept (by omega)).2 ⟨by omega, q, hq, hwrite _ ?_, rfl, rfl⟩⟩
  rw [h.getElem?, hq]
  rfl

end Twstools
