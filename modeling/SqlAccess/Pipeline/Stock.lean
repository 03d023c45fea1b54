/-
**Stock interceptors.**

Small stages of general use: they note what passes, change requests, reply by themselves, or run the
rest again.

Main definitions:

* `SqlAccess.Stock.record` — notes when the rest starts and how it ends;
* `SqlAccess.Stock.prepend`, `SqlAccess.Stock.pushArg` — change the request;
* `SqlAccess.Stock.delay` — waits first;
* `SqlAccess.Stock.failWith`, `SqlAccess.Stock.replyWith` — do not run the rest;
* `SqlAccess.Stock.twice`, `SqlAccess.Stock.fallback` — run the rest again, or make up for its
  failure;
* `SqlAccess.Stock.noteAffected`, `SqlAccess.Stock.notePage` — note a reply or the page.
-/

import SqlAccess.Pipeline.Interceptor
import SqlAccess.Text.Record

set_option autoImplicit false

namespace SqlAccess.Stock

/-- Notes how many stages are left, runs them, and notes how that ended. -/
def record (name : String) : Interceptor := fun request next => do
  Run.emit (.note (name ++ " > " ++ String.ofList (Text.digits next.remaining) ++ " left"))
  let outcome ← Run.attempt (next.run request)
  let ending := match outcome with
    | .ok _ => "ok"
    | .error e => e.kind
  Run.emit (.note (name ++ " < " ++ ending))
  Run.ofOutcome outcome

/-- Puts a text before the statement. -/
def prepend (text : String) : Interceptor := fun request next =>
  next.run { request with sql := text ++ request.sql }

/-- Adds a value to those that the statement binds. -/
def pushArg (value : Value) : Interceptor := fun request next =>
  next.run { request with args := request.args ++ [value] }

/-- Waits, and then goes on. -/
def delay (d : Duration) : Interceptor := fun request next => do
  Run.emit (.sleep d)
  next.run request

/-- Fails without running the rest. -/
def failWith (e : Error) : Interceptor := fun _ _ => Run.fail e

/-- Replies without running the rest. -/
def replyWith (reply : Reply) : Interceptor := fun _ _ => pure reply

/-- Runs the rest twice; the second outcome counts. -/
def twice : Interceptor := fun request next => do
  let _ ← Run.attempt (next.run request)
  next.run request

/-- Replies in place of a failure. -/
def fallback (reply : Reply) : Interceptor := fun request next => do
  match ← Run.attempt (next.run request) with
  | .ok other => return other
  | .error _ => return reply

/-- Notes the number of affected rows that a reply brings, if it brings one. -/
def noteAffected : Interceptor := fun request next => do
  let reply ← next.run request
  let count := reply.affected?.map fun n => String.ofList (Text.digits n.toNat)
  Run.emit (.note ("reply " ++ Text.optional count))
  return reply

/-- Notes the page that the caller asked for, with its totals as known so far. -/
def notePage (describe : Option (Page × PageTotals) → String) : Interceptor :=
  fun request next => do
    let totals ← Run.totals
    Run.emit (.note ("page " ++ describe (request.page?.map fun page => (page, totals))))
    next.run request

end SqlAccess.Stock
