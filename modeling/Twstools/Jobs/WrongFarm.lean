import Twstools.Jobs.Runs
import Twstools.Twsdo.Sites
/-!
# A farm that is known wrong

`learnHmds` leaves a farm that is known as it is, even when another one
sends the data. `learnHmdsLastOk` asserts that the known farm is the one
that just came up, so a table entry that is out of date, or one that was
learned wrong, ends the program there. This happens in no other place.
-/

namespace Twstools

open Exec

namespace DataFarmStates

variable {d : DataFarmStates} {n : ℤ} {c : Contract}

/-- The last message was about a farm, a historical one that is up now, and
the exchange of `c` is known to have another farm. -/
def Disagrees (d : DataFarmStates) (n : ℤ) (c : Contract) : Prop :=
  n = d.lastMsgNumber + 1 ∧ d.hStates[d.lastChanged]? = some .OK ∧
    ∃ farm, d.hLearn[lazyContractStr c]? = some farm ∧ farm ≠ d.lastChanged

/-- **When `learnHmdsLastOk` fails.** -/
theorem learnHmdsLastOk_eq_error {e : Fault Assertion} : d.learnHmdsLastOk n c = .error e ↔
    e = .assertion .learnHmdsLastOk ∧ d.Disagrees n c := by
  unfold learnHmdsLastOk Disagrees
  by_cases hn : n = d.lastMsgNumber + 1
  · rw [if_neg (not_not.2 hn)]
    by_cases hok : d.hStates[d.lastChanged]? = some .OK
    · rw [if_pos hok]
      cases hl : d.hLearn[lazyContractStr c]? with
      | none => simp [hl]
      | some farm => simp [hl, hn, hok, bind_eq_error, and_comm]
    · simp [hok]
  · simp [hn]

end DataFarmStates

namespace TwsDL

variable {s : TwsDL} {e : Event} {cfg : ConfigTwsdo} {async : Bool} {jobs : List Job}

/-- The event tells that the historical data of the current request comes
from a farm that came up just before, and another one is known. -/
def LearnsOther (s : TwsDL) (e : Event) : Prop :=
  ∃ err job, e = .error err ∧ s.connected = true ∧ err.id = s.currentRequest.reqId ∧
    s.currentRequest.reqType = .HIST_REQUEST ∧
    s.workTodo.histTodo.checkedOutRequest = some job ∧ err.code = 165 ∧
    err.matches "HMDS server disconnect occurred.  Attempting reconnection" = false ∧
    err.matches "HMDS connection attempt failed.  Connection will be re-attempted" = false ∧
    err.matches "HMDS server connection was successful" = true ∧
    s.dataFarms.Disagrees (s.msgCounter + 1) job.request.ibContract

/-- A message about historical data fails there exactly then. -/
theorem errorHistData_eq_error {err : RowError} {p : PacketHistData}
    (hp : s.packet = some (.histData p)) :
    s.errorHistData err = .error (.assertion .learnHmdsLastOk) ↔
      ∃ job, s.workTodo.histTodo.checkedOutRequest = some job ∧ err.code = 165 ∧
        err.matches "HMDS server disconnect occurred.  Attempting reconnection" = false ∧
        err.matches "HMDS connection attempt failed.  Connection will be re-attempted" = false ∧
        err.matches "HMDS server connection was successful" = true ∧
        s.dataFarms.Disagrees s.msgCounter job.request.ibContract := by
  have hs : Assertion.ofAnswer .learnHmdsLastOk = true := rfl
  cases hj : s.workTodo.histTodo.checkedOutRequest with
  | none => simp [errorHistData, HistTodo.current, hj, ensure, bind, Except.bind]
  | some job =>
      have hcur : s.workTodo.histTodo.current = .ok job.request :=
        HistTodo.current_eq_ok.2 ⟨job, hj, rfl⟩
      simp only [errorHistData, hcur, hp, Packet.asHistData, Exec.ok_bind]
      have spared : ∀ {x : Exec Assertion TwsDL} {q : Prop},
          Spares (.assertion .learnHmdsLastOk) x → ¬ q →
          (x = .error (.assertion .learnHmdsLastOk) ↔ q) := fun hx hq =>
        ⟨fun h => absurd h hx, fun h => absurd h hq⟩
      by_cases h162 : err.code = 162
      · rw [if_pos h162]
        exact spared (errorHistService_spares hs (closes_of_ne (by decide))) (by simp [h162])
      rw [if_neg h162]
      by_cases h165 : err.code = 165
      · rw [if_pos h165, errorHistServer]
        split
        · rename_i hm
          exact spared spares_ok (by rintro ⟨-, -, -, h1, h2, -⟩; simp [h1, h2] at hm)
        rename_i hm
        obtain ⟨h1, h2⟩ := not_or.1 hm
        split
        · rename_i hm3
          rw [bind_eq_error]
          simp [DataFarmStates.learnHmdsLastOk_eq_error, h165, h1, h2, hm3]
        · rename_i hm3
          exact spared spares_ok (by rintro ⟨-, -, -, -, -, h3, -⟩; exact hm3 h3)
      rw [if_neg h165]
      refine spared ?_ (by rintro ⟨-, -, h, -⟩; exact h165 h)
      split
      · exact closePacket_spares (closes_of_ne (by decide))
      split
      · exact closePacket_spares (closes_of_ne (by decide))
      · exact spares_ok

/-- A message of TWS fails there exactly if it is about the historical
request. -/
theorem twsError_eq_error {err : RowError} (hok : s.jobs.Ok) :
    s.twsError err = .error (.assertion .learnHmdsLastOk) ↔ s.LearnsOther (.error err) := by
  have hs : Assertion.ofAnswer .learnHmdsLastOk = true := rfl
  have spared : Spares (.assertion .learnHmdsLastOk) (s.twsError err) →
      ¬ s.LearnsOther (.error err) →
      (s.twsError err = .error (.assertion .learnHmdsLastOk) ↔ s.LearnsOther (.error err)) :=
    fun hx hq => ⟨fun h => absurd h hx, fun h => absurd h hq⟩
  by_cases hc : s.connected = true
  · by_cases hid : err.id = s.currentRequest.reqId
    · by_cases ht : s.currentRequest.reqType = .HIST_REQUEST
      · obtain ⟨p, hp⟩ := histData_of_ok hok ht
        have hd := @errorHistData_eq_error { s with msgCounter := s.msgCounter + 1 } err _ hp
        simpa [twsError, errorRequest, LearnsOther, hc, hid, ht] using hd
      · refine spared ?_ (by rintro ⟨_, _, he, _, _, h, _⟩; exact ht h)
        simp only [twsError, hc, hid, errorRequest]
        cases hq : s.currentRequest.reqType with
        | HIST_REQUEST => exact absurd hq ht
        | NONE => exact spares_ok
        | CONTRACT_DETAILS_REQUEST | OPT_PARAMS_REQUEST =>
            exact errorContracts_spares (closes_of_ne (by decide))
        | ACC_STATUS_REQUEST | EXECUTIONS_REQUEST | ORDERS_REQUEST =>
            exact spares_bind.2 ⟨spares_other hs .twsErrorRequestType rfl, fun _ _ => spares_ok⟩
    · refine spared ?_ ?_
      · simp only [twsError, hc, if_neg hid]
        rw [if_neg (by decide), spares_bind]
        refine ⟨errorPlaceOrder_spares hs (closes_of_ne (by decide)), fun s' _ => ?_⟩
        split
        · exact spares_ok
        · exact errorGeneric_spares hs (closes_of_ne (by decide))
      · rintro ⟨_, _, he, _, h, _⟩
        obtain rfl := Event.error.inj he
        exact hid h
  · exact spared (twsError_spares_of_not_connected hs (by simpa using hc))
      (by rintro ⟨_, _, _, h, _⟩; exact hc h)

/-- **Where the program ends in `learnHmdsLastOk`.** -/
theorem handle_eq_error_iff (hok : s.jobs.Ok) :
    s.handle e = .error (.assertion .learnHmdsLastOk) ↔ s.LearnsOther e := by
  have hs : Assertion.ofAnswer .learnHmdsLastOk = true := rfl
  by_cases ha : ∃ err, e = .error err
  · obtain ⟨err, rfl⟩ := ha
    exact twsError_eq_error hok
  · have hx : Spares (.assertion .learnHmdsLastOk) (s.handle e) := by
      cases ha' : e.answers with
      | false => exact handle_spares hs ha' (closes_of_ne (by decide)) Assertion.noConfusion
      | true =>
          -- The rows and end marks have assertions of their own.
          cases e with
          | error err => exact absurd ⟨err, rfl⟩ ha
          | contractDetails n cd | bondContractDetails n cd =>
              exact twsContractDetails_spares (by decide) (by decide)
          | contractDetailsEnd n => exact twsContractDetailsEnd_spares (by decide)
          | historicalData n row =>
              exact twsHistoricalData_spares hs (by decide) (by decide) (by decide)
          | optParams n r => exact twsOptParams_spares (by decide) (by decide)
          | optParamsEnd n => exact twsOptParamsEnd_spares (by decide)
          | _ => cases ha'
    refine ⟨fun h => absurd h hx, ?_⟩
    rintro ⟨err, _, he, -⟩
    exact absurd ⟨err, he⟩ ha

/-- **A wrong farm is tolerated** as long as no historical data comes from
another farm right after that farm came up: this is the only way a sequence
of events ends the program in `learnHmdsLastOk`. -/
theorem wrong_farm_tolerated_iff (cfg : ConfigTwsdo) (async : Bool) (jobs : List Job)
    (evs : List Event) :
    (start cfg async jobs).play evs ≠ .error (.assertion .learnHmdsLastOk) ↔
      ∀ pre e post s, evs = pre ++ e :: post → Run Step (start cfg async jobs) pre s →
        s.quit = false → ¬ s.LearnsOther e := by
  rw [ne_eq, play_eq_error]
  constructor
  · intro h pre e post s he hr hq hl
    exact h ⟨pre, e, post, s, he, hr, hq, (handle_eq_error_iff (run_ok hr)).2 hl⟩
  · rintro h ⟨pre, e, post, s, he, hr, hq, hl⟩
    exact h pre e post s he hr hq ((handle_eq_error_iff (run_ok hr)).1 hl)

/-- A job for an exchange that is hard-coded to `euhmds`. -/
def ibisJob : Job := .historical_data { ibContract := { exchange := "IBIS" } }

/-- While it is outstanding another farm comes up, and TWS is connected to
the server. -/
def otherFarmUp : List Event :=
  connects 40000 1 ++ [.turn {}, .error ⟨-1, 2106, "HMDS data farm connection is OK:ethmds"⟩,
    .error ⟨1, 165, "HMDS server connection was successful"⟩]

/-- **The hard-coded farm is out of date**, and the program ends. -/
theorem hard_coded_farm_aborts :
    ((start {} false [ibisJob]).play otherFarmUp).fault =
      some (.assertion .learnHmdsLastOk) := by
  decide +kernel

end TwsDL

end Twstools
