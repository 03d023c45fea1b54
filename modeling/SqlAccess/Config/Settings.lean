/-
**Settings.**

Which built-in interceptors an engine has, and their parameters, as a configuration text gives them.

Main definitions:

* `SqlAccess.Settings` — the settings;
* `SqlAccess.Settings.ofToml?` — settings from the entries of a document;
* `SqlAccess.Settings.check` — the tests of their values;
* `SqlAccess.Settings.read`, `SqlAccess.Settings.missingFile` — settings from a text, and the error
  for a file that is not there.
-/

import SqlAccess.Config.Toml
import SqlAccess.Error
import SqlAccess.Log
import SqlAccess.Text.Blank
import SqlAccess.Text.Cut

set_option autoImplicit false

namespace SqlAccess

/-- How statements are logged. -/
structure SqlLogSettings where
  /-- The name of the level, as written. -/
  level : String
  /-- The longest text that is logged whole, in bytes. -/
  maxBytes : Option Nat
  deriving DecidableEq, Repr, Inhabited

/-- How slow calls are reported. -/
structure SlowQuerySettings where
  thresholdMillis : Nat
  deriving DecidableEq, Repr, Inhabited

/-- Which built-in interceptors an engine has. -/
structure Settings where
  pagination : Bool
  sqlLog : Option SqlLogSettings
  slowQuery : Option SlowQuerySettings
  deriving DecidableEq, Repr, Inhabited

/-- The level that a name denotes, blanks around it and ASCII case aside. -/
def SqlLogSettings.logLevel (s : SqlLogSettings) : Outcome LogLevel :=
  let word := (Text.trim s.level.toList).map Char.toLower
  match LogLevel.ofName? (String.ofList (word.map Char.toUpper)) with
  | some level => .ok level
  | none => .error (.config ("unknown sql_debug.level: " ++ String.ofList word))

/-- The time above which a call is slow. -/
def SlowQuerySettings.threshold (s : SlowQuerySettings) : Duration :=
  .ofMillis s.thresholdMillis

namespace Settings

/-! ### From a document -/

/-- A whole number of at most sixty-four bits. -/
def natural? : Toml → Option Nat
  | .scalar (.integer (some n)) => if 0 ≤ n ∧ n < Int.pow 2 64 then some n.toNat else none
  | _ => none

/-- A text. -/
def text? : Toml → Option String
  | .text s => some s
  | _ => none

/-- Whether all entries have one of these names. -/
def onlyNames (names : List String) (entries : List (String × Toml)) : Bool :=
  entries.all fun e => names.contains e.1

/-- The level of a log whose level is not given. -/
def defaultLevel : String := "debug"

/-- Log settings: a table, or a list of the level and the length. -/
def sqlLog? : Toml → Option SqlLogSettings
  | .table _ entries => do
    if !onlyNames ["level", "max_sql_length"] entries then none
    let level ← match findField? "level" entries with
      | some value => text? value
      | none => some defaultLevel
    match findField? "max_sql_length" entries with
    | some value => return ⟨level, some (← natural? value)⟩
    | none => return ⟨level, none⟩
  | .array (level :: length :: _) => do
    return ⟨← text? level, some (← natural? length)⟩
  | _ => none

/-- Slow-call settings: a table, or a list of the threshold. -/
def slowQuery? : Toml → Option SlowQuerySettings
  | .table _ entries => do
    if !onlyNames ["threshold_ms"] entries then none
    return ⟨← natural? (← findField? "threshold_ms" entries)⟩
  | .array (threshold :: _) => (natural? threshold).map SlowQuerySettings.mk
  | _ => none

/-- Settings from the entries of a document; unknown names are refused. -/
def ofToml? (entries : List (String × Toml)) : Option Settings := do
  if !onlyNames ["pagination", "sql_debug", "slow_query"] entries then none
  let pagination ← match findField? "pagination" entries with
    | some (.scalar (.bool b)) => some b
    | some _ => none
    | none => some false
  let sqlLog ← match findField? "sql_debug" entries with
    | some value => (sqlLog? value).map some
    | none => some none
  let slowQuery ← match findField? "slow_query" entries with
    | some value => (slowQuery? value).map some
    | none => some none
  return ⟨pagination, sqlLog, slowQuery⟩

/-! ### Tests of the values -/

/-- The level must be known, and lengths and thresholds must not be zero. -/
def check (s : Settings) : Outcome Unit := do
  if let some log := s.sqlLog then
    let _ ← log.logLevel
    if log.maxBytes = some 0 then
      throw (.config "sql_debug.max_sql_length must be greater than 0")
  if let some slow := s.slowQuery then
    if slow.thresholdMillis = 0 then
      throw (.config "slow_query.threshold_ms must be greater than 0")

/-- Settings from a text. -/
def read (text : String) : Outcome Settings := do
  match (Toml.read? text).bind ofToml? with
  | none => throw (.config "failed to parse engine config")
  | some settings =>
    settings.check
    return settings

/-! ### Files that are not there -/

/-- The longest path and the longest part of one that can be looked up, in bytes. -/
def maxPathBytes : Nat × Nat := (4095, 255)

/-- The first part of a path that has to be looked up by its name. -/
def firstPart (path : String) : String :=
  let parts := (Text.fields '/' path.toList).map String.ofList
  (parts.find? fun part => ["", ".", ".."].all (part != ·)).getD ""

/-- Why a path with no file behind it cannot be read. -/
def missingReason (path : String) : String :=
  if path.toList.contains '\x00' then "file name contained an unexpected NUL byte"
  else if maxPathBytes.1 < path.utf8ByteSize ∨ maxPathBytes.2 < (firstPart path).utf8ByteSize then
    "File name too long (os error 36)"
  else "No such file or directory (os error 2)"

/-- What reading settings from a file that is not there comes to. -/
def missingFile (path : String) : Error :=
  .config ("failed to read config file " ++ path ++ ": " ++ missingReason path)

end Settings

end SqlAccess
