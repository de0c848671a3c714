import Readings.Analysis.Settings

/-! Settings changed one at a time, by name. A duration is given as a count of milliseconds or by its
seconds and nanoseconds. -/

namespace Readings

inductive AssignmentError where
  | unknownSetting
  | unfitValue
deriving Repr, DecidableEq

def assignRead {σ α : Type} (read : Json → Option α) (change : α → σ) (value : Json) :
    Except AssignmentError σ :=
  match read value with
  | some value => .ok (change value)
  | none => .error .unfitValue

def Duration.ofSetting? (value : Json) : Option Duration :=
  match value.toCount? with
  | some count => some (ofMilliseconds count)
  | none => ofJson? value

def ChartConfig.assign (config : ChartConfig) :
    String → Json → Except AssignmentError ChartConfig
  | "max_items_per_set" => assignRead Json.toCount? fun count => { config with maxItemsPerSet := count }
  | "max_total_items" => assignRead Json.toCount? fun count => { config with maxTotalItems := count }
  | "max_derivations" => assignRead Json.toCount? config.withMaxDerivations
  | _ => fun _ => .error .unknownSetting

def CacheConfig.assign (config : CacheConfig) : String → Json → Except AssignmentError CacheConfig
  | "incremental" => assignRead Json.toBool? fun incremental => { config with incremental }
  | "max_entries" => assignRead Json.toCount? config.withMaxEntries
  | "ttl" => assignRead Duration.ofSetting? fun timeToLive => { config with timeToLive }
  | "min_prefix" => assignRead Json.toCount? fun minPrefix => { config with minPrefix }
  | _ => fun _ => .error .unknownSetting

def DebouncePolicy.assign (policy : DebouncePolicy) :
    String → Json → Except AssignmentError DebouncePolicy
  | "min_interval" => assignRead Duration.ofSetting? fun minInterval => { policy with minInterval }
  | "max_delay" => assignRead Duration.ofSetting? fun maxDelay => { policy with maxDelay }
  | "pause_threshold" =>
    assignRead Duration.ofSetting? fun pauseThreshold => { policy with pauseThreshold }
  | _ => fun _ => .error .unknownSetting

end Readings
