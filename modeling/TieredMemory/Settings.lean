import TieredMemory.Collaborator
import TieredMemory.Duration
import TieredMemory.Path
import TieredMemory.Pattern.Basic
import TieredMemory.Settings.Dotenv
import TieredMemory.Text.Case

/-!
# Settings

The settings of the memory with their defaults and bounds. They are read from named values: from
variables of the environment that begin with `MNEMO_`, in any letter case, then from a file of
variables. A value may be written as text; whatever does not have the form of its setting or is out
of its bounds is bad, and all bad settings are named at once.
-/

namespace TieredMemory

/-- The settings of the memory. -/
structure Settings where
  /-- Where files are kept. -/
  dataDir : Path := Path.ofText "data"
  /-- The name of the archive's file. -/
  dbName : String := "mnemo.db"
  archiveBackend : String := "memory"
  hotCacheCapacity : Int := 10
  hotCacheTtlHours : Float := 24
  hotCacheMaxBuckets : Int := 10000
  hotCacheSweepSeconds : Float := 300
  factMinAccessCount : Int := 2
  factTtlDays : Float := 30
  factSearchLimit : Int := 20
  archiveSearchLimit : Int := 5
  patternCapacity : Int := 100
  consolidationEvery : Int := 10
  consolidationTimeoutSeconds : Float := 120
  consolidationDebounceSeconds : Float := 0.1
  thresholdDecayAfterUses : Int := 10
  thresholdDecayStep : Float := 0.05
  thresholdDecayCeiling : Float := 0.7
  thresholdFloor : Float := 0.6
  backgroundTimeoutSeconds : Float := 300
  maintenanceIntervalHours : Float := 24
  /-- The model that completes prompts; empty for none. -/
  completionModel : String := ""
  /-- The model that embeds texts; empty for none. -/
  embeddingModel : String := ""
  logLevel : String := "INFO"

namespace Settings

/-- The path of the archive's file. -/
def dbPath (s : Settings) : Path := s.dataDir.join (Path.ofText s.dbName)

/-- How thresholds relax. -/
def policy (s : Settings) : ReinforcementPolicy where
  decayAfterUses := s.thresholdDecayAfterUses
  step := s.thresholdDecayStep
  ceiling := s.thresholdDecayCeiling
  floor := s.thresholdFloor

/-- The names of the settings. -/
def names : List String := [
  "data_dir", "db_name", "archive_backend", "hot_cache_capacity", "hot_cache_ttl_hours",
  "hot_cache_max_buckets", "hot_cache_sweep_seconds", "fact_min_access_count", "fact_ttl_days",
  "fact_search_limit", "archive_search_limit", "pattern_capacity", "consolidation_every",
  "consolidation_timeout_seconds", "consolidation_debounce_seconds", "threshold_decay_after_uses",
  "threshold_decay_step", "threshold_decay_ceiling", "threshold_floor",
  "background_timeout_seconds", "maintenance_interval_hours", "completion_model",
  "embedding_model", "log_level"]

/-! ### Reading one value -/

/-- The values of settings by name. -/
abbrev Values := List (String × Json.Value)

/-- Digits, perhaps with single low lines between them. -/
def digitsOf? : List Char → Option (List Char)
  | [c] => if c.isDigit then some [c] else none
  | c :: '_' :: r => if c.isDigit then (digitsOf? r).map (c :: ·) else none
  | c :: r => if c.isDigit then (digitsOf? r).map (c :: ·) else none
  | [] => none

/-- A text without a fraction of zeros. -/
def withoutZeroFraction (s : List Char) : List Char :=
  let (whole, rest) := s.span (· != '.')
  match rest with
  | _ :: zeros => if zeros.all (· == '0') then whole else s
  | [] => s

/-- The whole number that a text spells. -/
def wholeOfText? (s : String) : Option Int :=
  let (negative, cs) := match (Text.trim s).toList with
    | '-' :: r => (true, r)
    | '+' :: r => (false, r)
    | r => (false, r)
  (digitsOf? (withoutZeroFraction cs)).map fun ds =>
    let n : Nat := ds.foldl (fun n c => n * 10 + (c.toNat - 48)) 0
    if negative then -(n : Int) else n

/-- The whole number that a value stands for. -/
def whole? : Json.Value → Option Int
  | .int n => some n
  | .bool b => some (if b then 1 else 0)
  | .real x =>
    if x.isNaN || x.isInf then none
    else
      let (n, rest) := wholeAndRest x
      if rest == 0 && n.natAbs < 9223372036854775808 then some n else none
  | .str s => wholeOfText? s
  | _ => none

/-- The number that a value stands for. A text is read in ASCII, blanks around it apart. -/
def number? : Json.Value → Option Float
  | .str s =>
    let s := Text.trim s
    if s.toList.all (·.toNat < 128) then Decimal.read? s else none
  | v => v.toFloat.toOption

/-- The text of a value. -/
def text? : Json.Value → Option String
  | .str s => some s
  | _ => none

/-! ### Reading all values -/

/-- Reading settings collects the names of the bad ones. -/
abbrev Reading := StateM (List String)

/-- Read a setting, which keeps its default if it is not given or bad. -/
def take {α : Type} (values : Values) (name : String) (default : α) (read : Json.Value → Option α) :
    Reading α :=
  match Json.lookup? name values with
  | none => pure default
  | some v =>
    match read v with
    | some a => pure a
    | none => do
      modify (name :: ·)
      pure default

/-- Read a whole number that is not less than `least`. -/
def takeWhole (values : Values) (name : String) (least default : Int) : Reading Int :=
  take values name default fun v => (whole? v).filter (least ≤ ·)

/-- Read a number that satisfies `p`. -/
def takeNumber (values : Values) (name : String) (p : Float → Bool) (default : Float) :
    Reading Float :=
  take values name default fun v => (number? v).filter p

/-- Not zero and not less. -/
def isPositive (x : Float) : Bool := !(x ≤ 0)

/-- Not less than zero. -/
def isNonnegative (x : Float) : Bool := !(x < 0)

/-- Not outside of the unit interval. -/
def isUnit (x : Float) : Bool := !(x < 0 || 1 < x)

/-- Read all settings. -/
def readAll (v : Values) : Reading Settings := do
  let d : Settings := {}
  return {
    dataDir := ← take v "data_dir" d.dataDir fun x => (text? x).map Path.ofText
    dbName := ← take v "db_name" d.dbName text?
    archiveBackend := ← take v "archive_backend" d.archiveBackend text?
    hotCacheCapacity := ← takeWhole v "hot_cache_capacity" 1 d.hotCacheCapacity
    hotCacheTtlHours := ← takeNumber v "hot_cache_ttl_hours" isPositive d.hotCacheTtlHours
    hotCacheMaxBuckets := ← takeWhole v "hot_cache_max_buckets" 1 d.hotCacheMaxBuckets
    hotCacheSweepSeconds := ← takeNumber v "hot_cache_sweep_seconds" isNonnegative d.hotCacheSweepSeconds
    factMinAccessCount := ← takeWhole v "fact_min_access_count" 1 d.factMinAccessCount
    factTtlDays := ← takeNumber v "fact_ttl_days" isPositive d.factTtlDays
    factSearchLimit := ← takeWhole v "fact_search_limit" 1 d.factSearchLimit
    archiveSearchLimit := ← takeWhole v "archive_search_limit" 1 d.archiveSearchLimit
    patternCapacity := ← takeWhole v "pattern_capacity" 1 d.patternCapacity
    consolidationEvery := ← takeWhole v "consolidation_every" 1 d.consolidationEvery
    consolidationTimeoutSeconds :=
      ← takeNumber v "consolidation_timeout_seconds" isPositive d.consolidationTimeoutSeconds
    consolidationDebounceSeconds :=
      ← takeNumber v "consolidation_debounce_seconds" isNonnegative d.consolidationDebounceSeconds
    thresholdDecayAfterUses := ← takeWhole v "threshold_decay_after_uses" 0 d.thresholdDecayAfterUses
    thresholdDecayStep := ← takeNumber v "threshold_decay_step" isUnit d.thresholdDecayStep
    thresholdDecayCeiling := ← takeNumber v "threshold_decay_ceiling" isUnit d.thresholdDecayCeiling
    thresholdFloor := ← takeNumber v "threshold_floor" isUnit d.thresholdFloor
    backgroundTimeoutSeconds :=
      ← takeNumber v "background_timeout_seconds" isPositive d.backgroundTimeoutSeconds
    maintenanceIntervalHours :=
      ← takeNumber v "maintenance_interval_hours" isPositive d.maintenanceIntervalHours
    completionModel := ← take v "completion_model" d.completionModel text?
    embeddingModel := ← take v "embedding_model" d.embeddingModel text?
    logLevel := ← take v "log_level" d.logLevel text? }

/-- The settings as named values. -/
def toValues (s : Settings) : Values := [
  ("data_dir", .str s.dataDir.shown),
  ("db_name", .str s.dbName),
  ("archive_backend", .str s.archiveBackend),
  ("hot_cache_capacity", .int s.hotCacheCapacity),
  ("hot_cache_ttl_hours", .real s.hotCacheTtlHours),
  ("hot_cache_max_buckets", .int s.hotCacheMaxBuckets),
  ("hot_cache_sweep_seconds", .real s.hotCacheSweepSeconds),
  ("fact_min_access_count", .int s.factMinAccessCount),
  ("fact_ttl_days", .real s.factTtlDays),
  ("fact_search_limit", .int s.factSearchLimit),
  ("archive_search_limit", .int s.archiveSearchLimit),
  ("pattern_capacity", .int s.patternCapacity),
  ("consolidation_every", .int s.consolidationEvery),
  ("consolidation_timeout_seconds", .real s.consolidationTimeoutSeconds),
  ("consolidation_debounce_seconds", .real s.consolidationDebounceSeconds),
  ("threshold_decay_after_uses", .int s.thresholdDecayAfterUses),
  ("threshold_decay_step", .real s.thresholdDecayStep),
  ("threshold_decay_ceiling", .real s.thresholdDecayCeiling),
  ("threshold_floor", .real s.thresholdFloor),
  ("background_timeout_seconds", .real s.backgroundTimeoutSeconds),
  ("maintenance_interval_hours", .real s.maintenanceIntervalHours),
  ("completion_model", .str s.completionModel),
  ("embedding_model", .str s.embeddingModel),
  ("log_level", .str s.logLevel)]

/-- The settings that values give, or the names of the bad ones in order. A value without a setting
is bad. -/
def ofValues (values : Values) : Except (List String) Settings :=
  let unknown := (values.map (·.1)).filter fun n => !names.contains n
  let (settings, bad) := (readAll values).run unknown
  if bad.isEmpty then .ok settings else .error (sortedDistinct bad)

/-! ### Sources -/

/-- The name of the variable of a setting, in lower case. -/
def variableName (name : String) : String := "mnemo_" ++ name

/-- The last value of a variable, the letter case of its name aside. -/
def lastValue? (env : Environment) (name : String) : Option String :=
  (env.reverse.find? fun p => Text.lower p.1 == name).map (·.2)

/-- The values that variables give to settings. -/
def valuesOf (env : Environment) : Values :=
  names.filterMap fun n => (lastValue? env (variableName n)).map fun v => (n, .str v)

/-- The variables of a file that are no settings. Those without a value do not count. -/
def strangers (file : Environment) : Values :=
  ((file.map fun p => (Text.lower p.1, p.2)).filter fun p =>
      !p.2.isEmpty && !names.contains p.1 && !(names.map variableName).contains p.1).map
    fun p => (p.1, .str p.2)

/-- The settings that the environment and a file of variables give. The environment goes first. -/
def ofSources (env : Environment) (file : Option String) : Except (List String) Settings :=
  let found := (file.map (Dotenv.read env)).getD []
  ofValues (valuesOf env ++ valuesOf found ++ strangers found)

end Settings

end TieredMemory
