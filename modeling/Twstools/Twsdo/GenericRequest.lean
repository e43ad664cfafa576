import Twstools.Clib.Int
import Twstools.Common.Fault
/-!
# The current request

`GenericRequest` is the request that is being waited for: its type, or
`NONE`, its number and when it was made. Every request takes the next
number, so that an answer tells by its number which request it belongs to.
-/

namespace Twstools

/-- `GenericRequest::ReqType`. -/
inductive ReqType where
  | NONE
  | ACC_STATUS_REQUEST
  | EXECUTIONS_REQUEST
  | ORDERS_REQUEST
  | CONTRACT_DETAILS_REQUEST
  | HIST_REQUEST
  | OPT_PARAMS_REQUEST
  deriving DecidableEq, Repr

/-- `GenericRequest`. -/
structure GenericRequest where
  reqType : ReqType := .NONE
  reqId : ℤ := 0
  ctime : ℤ := 0
  deriving DecidableEq

namespace GenericRequest

variable {Site : Type} {q q' : GenericRequest} {t : ReqType} {now : ℤ}

/-- `age`. -/
def age (q : GenericRequest) (now : ℤ) : ℤ := toInt (now - q.ctime)

/-- `nextRequest`. The number is an `int` and must not overflow. -/
def nextRequest (q : GenericRequest) (t : ReqType) (now : ℤ) : Exec Site GenericRequest :=
  if q.reqId < INT_MAX then .ok { reqType := t, reqId := q.reqId + 1, ctime := now }
  else .error .overflow

/-- `close`. -/
def close (q : GenericRequest) : GenericRequest := { q with reqType := .NONE }

/-- **A request gets the next number.** -/
theorem nextRequest_eq_ok : (q.nextRequest t now : Exec Site GenericRequest) = .ok q' ↔
    q.reqId < INT_MAX ∧ q' = { reqType := t, reqId := q.reqId + 1, ctime := now } := by
  unfold nextRequest
  split <;> simp_all [eq_comm]

end GenericRequest

end Twstools
