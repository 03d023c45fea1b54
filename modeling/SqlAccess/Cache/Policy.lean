/-
**Cached calls.**

A read looks into a store first and loads only what is not there; calls that miss the same key at
the same time share one load.  A write evicts a key, before or after its statement runs.

Main definitions:

* `SqlAccess.Cache.Policy` — how the calls of one call site are cached;
* `SqlAccess.Cache.Use`, `SqlAccess.Cache.Attachment` — what one call does with which key;
* `SqlAccess.Cache.goodKey` — the key of a call, which must resolve and not be empty;
* `SqlAccess.Cache.Payload` — how the stored values travel in replies.
-/

import SqlAccess.Cache.Lru
import SqlAccess.Log
import SqlAccess.Pipeline.Reply
import SqlAccess.Statement.Placeholder

set_option autoImplicit false

namespace SqlAccess.Cache

/-! ### Policies -/

/-- How the calls of one call site are cached. -/
structure Policy where
  /-- Which store holds the entries. -/
  store : Nat
  /-- Whether it is remembered that there is no value. -/
  keepsAbsent : Bool
  /-- Whether a write evicts before it runs, instead of after it has succeeded. -/
  evictsFirst : Bool
  /-- How long a caller waits for a load, if that is limited. -/
  waitLimit : Option Duration
  deriving DecidableEq, Repr, Inhabited

namespace Policy

/-- The limit on waiting; a limit of zero is none. -/
def limitOf (d : Duration) : Option Duration := if d.nanos = 0 then none else some d

/-- What is stored for the outcome of a load, if anything. -/
def entryFor {α : Type} (p : Policy) : Option α → Option (Entry α)
  | some value => some (.present value)
  | none => if p.keepsAbsent then some .absent else none

end Policy

/-! ### Attachments -/

/-- What a call does with its key. -/
inductive Use where
  | read
  | evict
  deriving DecidableEq, Repr, Inhabited

/-- The cache attached to a call. -/
structure Attachment where
  use : Use
  /-- Which policy applies. -/
  policy : Nat
  /-- The key, or why it does not resolve. -/
  key : Except BuildFault String
  deriving Inhabited

/-- A key that resolves and is not empty. -/
def goodKey : Except BuildFault String → Outcome String
  | .ok key => if key.isEmpty then .error .emptyCacheKey else .ok key
  | .error e => .error (.build e)

/-- How the stored values travel in replies. -/
structure Payload (α : Type) where
  toReply : Option α → Reply
  ofReply? : Reply → Option (Option α)
  /-- The kind of reply that loads must bring. -/
  kind : ReplyKind

namespace Payload

/-- Stored values of any shape. -/
def value : Payload Value where
  toReply := .optionalValue
  ofReply?
    | .optionalValue v => some v
    | _ => none
  kind := .optionalValue

/-- Stored rows. -/
def row : Payload Row where
  toReply := .optionalRow
  ofReply?
    | .optionalRow r => some r
    | _ => none
  kind := .optionalRow

/-- What a reply brings, which must be of the stored type. -/
def take {α : Type} (p : Payload α) (r : Reply) : Outcome (Option α) :=
  match p.ofReply? r with
  | some value => .ok value
  | none => .error (.unexpectedReply p.kind.name)

end Payload

/-! ### Events -/

/-- An event that concerns a key. -/
def keyEvent (level : LogLevel) (message key : String) (more : List (String × String)) : LogEvent :=
  ⟨level, "quarry.cache", message, ("key", key) :: more⟩

/-- The entry was found. -/
def hitEvent (key : String) : LogEvent := keyEvent .trace "cache hit" key []

/-- The caller waits for a load that another has started. -/
def joinEvent (key : String) : LogEvent := keyEvent .trace "joining in-flight load" key []

/-- A load starts. -/
def missEvent (key : String) : LogEvent := keyEvent .debug "cache miss, loading" key []

/-- A loaded value could not be stored. -/
def storeFailedEvent (key : String) (e : Error) : LogEvent :=
  keyEvent .warn "failed to store loaded value" key [("error", e.message)]

/-- A load has ended without an outcome. -/
def droppedEvent (key : String) : LogEvent :=
  keyEvent .warn "cache load task dropped its channel" key []

/-- A caller has stopped waiting. -/
def waitTimeoutEvent (key : String) (limit : Duration) : LogEvent :=
  keyEvent .debug "cache load wait timed out" key [("limit", limit.render)]

/-- A key has been evicted. -/
def evictedEvent (key : String) : LogEvent := keyEvent .trace "cache evicted" key []

/-- The error of those who waited for a load that has panicked. -/
def abandoned (key : String) : Error :=
  .other ("cache load for key '" ++ key ++ "' was abandoned")

end SqlAccess.Cache
