/-
**Errors.**

Every way in which a call can fail, as a cause.  The wording of each cause is in one function.

Main definitions:

* `SqlAccess.DecodeFault` — why a value cannot be read as a type;
* `SqlAccess.Error` — why a call fails;
* `SqlAccess.Error.message` — the wording;
* `SqlAccess.Error.rootCause` — the cause behind failed rollbacks.
-/

import SqlAccess.Condition.Fault
import SqlAccess.Statement.Fault
import SqlAccess.Time.Duration
import SqlAccess.Value.Basic

set_option autoImplicit false

namespace SqlAccess

/-! ### Decoding -/

/-- Why a value cannot be read as a type. -/
inductive DecodeFault where
  /-- The row has no such column. -/
  | noSuchColumn
  /-- The value is of another type. -/
  | mismatch (expected : String) (got : Value)
  /-- An integer above the type's range. -/
  | tooLarge
  /-- An integer below the type's range. -/
  | tooSmall
  /-- A text that denotes no identifier. -/
  | badUuid (text : String)
  /-- A column of a type that is not read. -/
  | unsupportedType (name : String)
  /-- Bytes that are no value of the column's type. -/
  | malformed (type : String)
  /-- A cause given in words. -/
  | described (text : String)
  deriving Inhabited

/-- The wording of a fault. -/
def DecodeFault.message : DecodeFault → String
  | noSuchColumn => "no such column"
  | mismatch expected got => "expected " ++ expected ++ ", got " ++ got.tagged
  | tooLarge => "number too large to fit in target type"
  | tooSmall => "number too small to fit in target type"
  | badUuid text => "no identifier in " ++ Text.quoted text
  | unsupportedType name => "unsupported column type " ++ name
  | malformed type => "malformed value of type " ++ type
  | described text => text

/-! ### Errors of a call -/

/-- Why a call fails. -/
inductive Error where
  /-- The text of a condition is rejected. -/
  | parse (cause : Condition.Fault)
  /-- A statement cannot be built. -/
  | build (cause : BuildFault)
  /-- The executor reports a failure. -/
  | execution (text : String)
  /-- A value of a row cannot be read. -/
  | decode (column : String) (fault : DecodeFault)
  /-- An argument is not of the shape it must have. -/
  | validation (text : String)
  /-- A statement has no form for a page, or none that counts. -/
  | pagination (text : String)
  /-- A cached call has an empty key. -/
  | emptyCacheKey
  /-- The caller has stopped waiting for a load, which may still succeed. -/
  | cacheTimeout (key : String) (limit : Duration)
  /-- The call as a whole has taken too long. -/
  | timeout (limit : Duration)
  /-- The reply is not of the type that the caller asked for. -/
  | unexpectedReply (expected : String)
  /-- A block in a transaction has panicked. -/
  | panicked (text : String)
  /-- A rollback has failed after its block had failed. -/
  | rollback (cause failure : Error)
  /-- A configuration is invalid. -/
  | config (text : String)
  | other (text : String)
  deriving Inhabited

namespace Error

/-- The name of a cause. -/
def kind : Error → String
  | parse _ => "Parse"
  | build _ => "Build"
  | execution _ => "Execution"
  | decode _ _ => "Decode"
  | validation _ => "Validation"
  | pagination _ => "Pagination"
  | emptyCacheKey => "EmptyCacheKey"
  | cacheTimeout _ _ => "CacheTimeout"
  | timeout _ => "Timeout"
  | unexpectedReply _ => "UnexpectedReply"
  | panicked _ => "Panicked"
  | rollback _ _ => "Rollback"
  | config _ => "Config"
  | other _ => "Other"

/-- The wording of a cause. -/
def message : Error → String
  | parse cause => "Parse error: " ++ cause.message
  | build cause => "Build error: " ++ cause.message
  | execution text => "Execution error: " ++ text
  | decode column fault => "Decode error on column '" ++ column ++ "': " ++ fault.message
  | validation text => "Validation error: " ++ text
  | pagination text => "Pagination error: " ++ text
  | emptyCacheKey => "empty cache key provided"
  | cacheTimeout key limit => "cache load timed out after " ++ limit.render ++ ", key: " ++ key
  | timeout limit => "Query timeout after " ++ limit.render
  | unexpectedReply expected => "unexpected reply type, expected " ++ expected
  | panicked text => "panicked: " ++ text
  | rollback cause failure => cause.message ++ " (rollback failed: " ++ failure.message ++ ")"
  | config text => "Config error: " ++ text
  | other text => text

/-- Whether the call as a whole has taken too long. -/
def isTimeout : Error → Bool
  | timeout _ => true
  | _ => false

/-- Whether the caller has stopped waiting for a load. -/
def isCacheTimeout : Error → Bool
  | cacheTimeout _ _ => true
  | _ => false

/-- The cause that decided a rollback, behind any number of failed rollbacks. -/
def rootCause : Error → Error
  | rollback cause _ => cause.rootCause
  | error => error

end Error

/-- The outcome of a call. -/
abbrev Outcome (α : Type) := Except Error α

end SqlAccess
