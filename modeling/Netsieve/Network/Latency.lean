import Netsieve.Duration
import Netsieve.Json.Parser
import Netsieve.Json.Printer

/-!
# `Netsieve.Network.Latency`: how long messages take

Every message takes the base latency, and both chains of rules may add a delay.
Each of the two is limited on its own, so one rule cannot hold a message back for
ever, and the sum stops at the greatest duration.
-/

set_option autoImplicit false

namespace Netsieve

/-- The latency settings of a network. -/
structure Latency where
  /-- What every permitted message takes. -/
  base : Duration
  /-- The most that one rule can add. -/
  maxRuleDelay : Duration
  deriving DecidableEq

namespace Latency

/-- No latency, and at most a minute from one rule. -/
instance : Inhabited Latency := ⟨⟨.zero, .ofSecs 60⟩⟩

/-- No latency, and at most a second from one rule. -/
def fastLocal : Latency := ⟨.zero, .ofSecs 1⟩

/-- Sets what every permitted message takes. -/
def withBase (l : Latency) (base : Duration) : Latency :=
  { l with base }

/-- How long a message takes for which the chains ask for these delays. -/
def total (l : Latency) (outbound inbound : Duration) : Duration :=
  (l.base.saturatingAdd (min outbound l.maxRuleDelay)).saturatingAdd (min inbound l.maxRuleDelay)

/-- The diagnostic text of latency settings. -/
def inspect (l : Latency) : List Char :=
  Inspect.record "NetworkConfiguration"
    [("base_latency", l.base.inspect), ("max_filter_delay", l.maxRuleDelay.inspect)]

/-- The names of the fields. -/
def fieldNames : List (List Char) :=
  ["base_latency".toList, "max_filter_delay".toList]

/-- The JSON form of latency settings. -/
def toJson (l : Latency) : Json :=
  Json.object [("base_latency", l.base.toJson), ("max_filter_delay", l.maxRuleDelay.toJson)]

/-- Reads latency settings from JSON. -/
def ofJson? (v : Json) : Option Latency :=
  match v.record? fieldNames with
  | some [base, maxRuleDelay] => do
    let base ← Json.required? Duration.ofJson? base
    let maxRuleDelay ← Json.required? Duration.ofJson? maxRuleDelay
    some { base, maxRuleDelay }
  | _ => none

/-- Reads latency settings from JSON text. -/
def decode? (s : String) : Option Latency :=
  (Json.parse? s).bind ofJson?

/-- The JSON text of latency settings. -/
def encode (l : Latency) : String :=
  l.toJson.toString

end Latency

end Netsieve
