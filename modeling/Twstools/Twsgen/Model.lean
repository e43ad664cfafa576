import Twstools.Twsgen.Dates
import Twstools.Common.Tokens
import Twstools.Twsdo.Todo
import Twstools.Xml.ContractDetails
import Twstools.Xml.Stream
/-!
# The job generator

`twsgen --histjob` reads contract details and writes a historical job for
each contract and each kind of data asked for, as documents of their own.
The work file for `twsdo` is what it prints: every document is followed by
a form feed.
-/

namespace Twstools

/-- `expiry_mode`. -/
inductive ExpiryMode where
  | EXP_AUTO | EXP_ALWAYS | EXP_NEVER | EXP_KEEP
  deriving DecidableEq

/-- The arguments that say what the jobs ask for. They are C strings, and
`useRTH` counts how often the flag is given. -/
structure GenArgs where
  endDateTime : String
  durationStr : String
  barSizeSetting : String
  whatToShow : String
  useRTH : ℤ
  utc : Bool
  exp_mode : ExpiryMode
  endDateTime_c : CString endDateTime
  durationStr_c : CString durationStr
  barSizeSetting_c : CString barSizeSetting
  whatToShow_c : CString whatToShow
  useRTH_int : InInt useRTH

/-- `set_includeExpired`; any other argument ends the program. -/
def setIncludeExpired (includeExpired : String) : Option ExpiryMode :=
  if includeExpired = "auto" then some .EXP_AUTO
  else if includeExpired = "always" then some .EXP_ALWAYS
  else if includeExpired = "never" then some .EXP_NEVER
  else if includeExpired = "keep" then some .EXP_KEEP
  else none

/-- `get_inc_exp`. -/
def getIncExp (exp_mode : ExpiryMode) (secType : String) : Exec Assertion Bool :=
  match exp_mode with
  | .EXP_AUTO =>
      pure (strcaseEq secType "OPT" || strcaseEq secType "FUT" || strcaseEq secType "FOP" ||
        strcaseEq secType "WAR")
  | .EXP_ALWAYS => pure true
  | .EXP_NEVER => pure false
  | .EXP_KEEP => .error (.assertion .getIncExpMode)

/-! ## What to show -/

/-- The delimiters of `split_whatToShow`. -/
def isDelimiter (c : Char) : Bool := c = ',' ∨ c = ' ' ∨ c = '\t'

/-- `*wts = token; wts++`, in an array of `size` pointers. -/
def putToken (size : ℕ) (wts_list : List (Option String)) (token : Option String) :
    Exec Assertion (List (Option String)) :=
  if wts_list.length < size then pure (wts_list ++ [token]) else .error .badAccess

/-- The calls of `strtok`, until one returns `NULL`, which is put into the
list as well. -/
def putTokens (size : ℕ) :
    ℕ → List Char → List (Option String) → Exec Assertion (List (Option String))
  | 0, _, _ => .error .unfinished
  | fuel + 1, s, wts_list =>
      match nextToken isDelimiter s with
      | none => putToken size wts_list none
      | some (token, s) => do
          let wts_list ← putToken size wts_list (some (String.ofList token))
          putTokens size fuel s wts_list

/-- `split_whatToShow`. -/
def splitWhatToShow (whatToShow : String) : Exec Assertion (List (Option String)) := do
  let len := whatToShow.length + 1
  let wts_list ← putTokens (len / 2 + 1) len whatToShow.toList []
  ensure (wts_list.getLast? = some none) .splitWhatToShowEnd
  ensure (wts_list.length ≤ len / 2 + 1) .splitWhatToShowSize
  pure wts_list

/-! ## The jobs -/

namespace GenArgs

variable (o : GenArgs)

/-- `formatDate`. -/
def formatDate : ℤ := if o.utc then 2 else 1

/-- The arguments of `HistRequest::initialize`. -/
def histRequest (c : Contract) (wts : String) : HistRequest where
  ibContract := c
  endDateTime := o.endDateTime
  durationStr := o.durationStr
  barSizeSetting := o.barSizeSetting
  whatToShow := wts
  useRTH := o.useRTH
  formatDate := o.formatDate

/-- The contract of the jobs. -/
def contract (c : Contract) : Exec Assertion Contract :=
  if o.exp_mode ≠ .EXP_KEEP then do
    let includeExpired ← getIncExp o.exp_mode c.secType
    pure { c with includeExpired := includeExpired }
  else pure c

variable (skip : Bool) (api : DetailsDefaults)

variable (mktime : Tm → ℤ)

end GenArgs

/-- `dumpAndFree` for the documents one after the other: what is printed. -/
def printed (xmlDocFormatDump : XmlDoc → List UInt8) (docs : List XmlDoc) : List UInt8 :=
  docs.flatMap fun doc => xmlDocFormatDump doc ++ [FORM_FEED]

end Twstools
