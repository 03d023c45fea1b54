/-
**Log events.**

Main definitions:

* `SqlAccess.LogLevel` — how grave an event is;
* `SqlAccess.LogEvent` — an event: its level, where it comes from, its message and fields;
* `SqlAccess.LogEvent.render` — an event on one line.
-/

set_option autoImplicit false

namespace SqlAccess

/-- How grave an event is. -/
inductive LogLevel where
  | trace
  | debug
  | info
  | warn
  | error
  deriving DecidableEq, Repr, Inhabited

namespace LogLevel

/-- The name of a level. -/
def name : LogLevel → String
  | trace => "TRACE"
  | debug => "DEBUG"
  | info => "INFO"
  | warn => "WARN"
  | error => "ERROR"

/-- All levels. -/
def all : List LogLevel := [trace, debug, info, warn, error]

/-- The level of that name in upper case. -/
def ofName? (name : String) : Option LogLevel := all.find? fun level => level.name = name

end LogLevel

/-- An event. -/
structure LogEvent where
  level : LogLevel
  target : String
  message : String
  /-- Further facts by name, in order. -/
  fields : List (String × String)
  deriving DecidableEq, Repr, Inhabited

/-- Level, target and message, then the fields. -/
def LogEvent.render (e : LogEvent) : String :=
  e.level.name ++ " " ++ e.target ++ ": " ++ e.message ++
    String.join (e.fields.map fun f => " " ++ f.1 ++ "=" ++ f.2)

end SqlAccess
