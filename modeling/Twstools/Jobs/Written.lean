import Twstools.Jobs.Serial
import Twstools.Jobs.Rejected
import Twstools.Orders.Delivered
import Twstools.Twsdo.Documents
/-!
# The output of a run as a work file

Each answer is written with the query it is for, so the output of a run is
a work file again. What it asks for are jobs of the first work file: the
contracts in their order, none of them more often, and historical data and
orders likewise. An order that got rows ends the program that reads it.
-/

namespace Twstools

namespace Exchanges

variable {n : ℤ} {l : List Action} {p : Packet} {job : Option HistJob}

end Exchanges

/-- The order of a job, as it was sent. -/
def PlaceOrder.IsSent (all : List PlaceOrder) (r : PlaceOrder) : Prop :=
  ∃ pO ∈ all, r = { pO with orderId := r.orderId, time_sent := r.time_sent }

section Answered

variable {out : List Action}

end Answered

/-- **The jobs of an output** that ask again for what a work file asked:
contracts in their order, none of them and no historical data more often,
and orders as they were sent, one under each number. -/
structure AskedAgain (jobs again : List Job) : Prop where
  contracts : (again.filterMap Job.contractJob).Sublist (jobs.filterMap Job.contractJob)
  hist : (again.filterMap Job.histRequest).Subperm (jobs.filterMap Job.histRequest)
  orders : ∀ r ∈ orderJobs again, r.IsSent (orderJobs jobs)
  orderIds : ((orderJobs again).map PlaceOrder.orderId).Nodup

/-- What can be kept of the first jobs can be kept of these. -/
theorem AskedAgain.keeps {skip : Bool} {api : AnswerDefaults} {jobs again : List Job}
    (hA : AskedAgain jobs again) (hjobs : ∀ job ∈ jobs, job.Keeps skip api)
    (hlong : ∀ r ∈ orderJobs again, InLong r.orderId ∧ InLong r.time_sent) :
    ∀ job ∈ again, job.Keeps skip api := by
  have hcontract : ∀ r ∈ again.filterMap Job.contractJob,
      r.ibContract.Exact ∧ r.ibContract.Clean := fun r hr => by
    obtain ⟨job, hm, hj⟩ := List.mem_filterMap.1 (hA.contracts.subset hr)
    have hk := hjobs job hm
    cases job with
    | contract_details | market_data =>
        obtain rfl := Option.some.inj hj
        exact hk
    | _ => cases hj
  intro job hm
  cases job with
  | contract_details r | market_data m r => exact hcontract r (List.mem_filterMap.2 ⟨_, hm, rfl⟩)
  | historical_data r =>
      have hr : r ∈ again.filterMap Job.histRequest := List.mem_filterMap.2 ⟨_, hm, rfl⟩
      obtain ⟨job, hm', hj⟩ := List.mem_filterMap.1 (hA.hist.subset hr)
      have hk := hjobs job hm'
      cases job with
      | historical_data =>
          obtain rfl := Option.some.inj hj
          exact hk
      | _ => cases hj
  | place_order r =>
      have hr : r ∈ orderJobs again := List.mem_filterMap.2 ⟨_, hm, rfl⟩
      obtain ⟨pO, hpO, heq⟩ := hA.orders r hr
      obtain ⟨hid, htime⟩ := hlong r hr
      obtain ⟨job, hm', hj⟩ := List.mem_filterMap.1 hpO
      have hk := hjobs job hm'
      cases job with
      | place_order =>
          obtain rfl := Option.some.inj hj
          obtain ⟨he, hk⟩ := hk
          rw [heq]
          exact ⟨⟨hid, htime, he.contract, he.order⟩, ⟨hk.contract, hk.order⟩⟩
      | _ => cases hj
  | _ => trivial

namespace TwsDL

variable {s : TwsDL} {evs : List Event} {cfg : ConfigTwsdo} {async : Bool} {jobs : List Job}
variable {p : Packet} {job : Option HistJob}

variable {skip : Bool} {api : AnswerDefaults} {orderState : RowOpenOrder → OrderState}

variable {xmlReadMemory : List UInt8 → ℤ → Option XmlDoc} {xmlDocFormatDump : XmlDoc → List UInt8}

end TwsDL

end Twstools
