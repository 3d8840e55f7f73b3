import Blive.Misc.JsonCanonical
import Blive.Runtime.M32Record

/-!
# The log of the runs

`record_to_json_dict` and `append_run_record` of `runtime/m3_2_record.py`: each run is a line of
JSON in a file that is only ever appended to. A file that does not exist is `none`.
-/

namespace Blive.M32Record

open JsonText

/-- The texts that a record holds where `RunRecord` has a number or the form of a breach. -/
structure Texts where
  /-- `str` of a decimal -/
  str : Decimal → String
  /-- `repr` of a `float` -/
  repr : Decimal → FloatText
  detail : BreachDetail → String

variable (t : Texts)

/-- An entry of `breaches`, as a field of the record holds it. -/
def BreachRow.toJsonDict (row : BreachRow) : Dict String String :=
  Dict.ofList [("check", row.check.value), ("severity", row.severity.value),
    ("detail", t.detail row.detail)]

def FsmTrace.toJsonDict (trace : FsmTrace) : Dict String FloatText :=
  Dict.ofList [("accepted_rate", t.repr trace.acceptedRate),
    ("filled_rate", t.repr trace.filledRate), ("canceled_rate", t.repr trace.canceledRate),
    ("rejected_rate", t.repr trace.rejectedRate)]

def counts (d : Dict String Nat) : Json := sortedDict id (fun n : Nat => .int n) d

/-- The fields of a record, each as `json.dumps` sorts it. The keys of `observed_error_codes` are
sorted as integers and only then made strings. -/
def jsonFields (record : RunRecord) : List (String × Json) :=
  [("schema_version", .int record.schemaVersion),
    ("run_id", .str record.runId),
    ("recorded_at_utc", .str record.recordedAtUtc),
    ("strategy_id", .str record.strategyId),
    ("instruments", .list (record.instruments.map .str)),
    ("order_type", .str record.orderType),
    ("max_bars", .int record.maxBars),
    ("nav_slice", .str (t.str record.navSlice)),
    ("starting_cash", .str (t.str record.startingCash)),
    ("final_equity", .str (t.str record.finalEquity)),
    ("rebalance_rows", .int record.rebalanceRows),
    ("regime_flip_count", .int record.regimeFlipCount),
    ("submitted_count", .int record.submittedCount),
    ("accepted_count", .int record.acceptedCount),
    ("filled_count", .int record.filledCount),
    ("canceled_count", .int record.canceledCount),
    ("rejected_count", .int record.rejectedCount),
    ("breach_count", .int record.breachCount),
    ("cap_binding_2161_count", .int record.capBinding2161Count),
    ("submitted_by_symbol", counts record.submittedBySymbol),
    ("fills_by_symbol", counts record.fillsBySymbol),
    ("fill_rate_by_symbol",
      sortedDict id (fun rate => ofFloat (t.repr rate)) record.fillRateBySymbol),
    ("observed_error_codes",
      sortedDict toString (fun n : Nat => .int n) record.observedErrorCodes),
    ("fsm_trace", sortedDict id ofFloat (record.fsmTrace.toJsonDict t)),
    ("breaches", .list (record.breaches.map fun row => sortedDict id .str (row.toJsonDict t))),
    ("note", .str record.note)]

/-- `record_to_json_dict` -/
def recordToJsonDict (record : RunRecord) : Dict String Json :=
  Dict.ofList (jsonFields t record)

/-- What a reader of the line gets. -/
def recordJson (record : RunRecord) : Json := sortedDict id id (recordToJsonDict t record)

/-- `json.dumps(record_to_json_dict(record), sort_keys=True)` -/
def runLine (record : RunRecord) : List Char := dumps .spaced (recordJson t record)

/-- `append_run_record` -/
def appendRunRecord (file : Option (List Char)) (record : RunRecord) : Option (List Char) :=
  some (file.getD [] ++ (runLine t record ++ ['\n']))

end Blive.M32Record
