/-
**Interceptors.**

An interceptor receives a request and the rest of the pipeline.  It may change the request, run the
rest any number of times, change or replace what comes back, or reply by itself.

Main definitions:

* `SqlAccess.Request` — a call on its way through the pipeline;
* `SqlAccess.Next` — the rest of a pipeline;
* `SqlAccess.Interceptor`, `SqlAccess.Terminal` — the stages and the end of a pipeline;
* `SqlAccess.Next.behind` — what is left of a pipeline behind some of its stages;
* `SqlAccess.Next.ofStages` — the pipeline of several stages before a terminal.
-/

import SqlAccess.Pipeline.Executor
import SqlAccess.Pipeline.Reply

set_option autoImplicit false

namespace SqlAccess

/-- What a caller hands along with a call. -/
inductive Extension where
  | page (page : Page)
  /-- Something that no built-in stage looks at. -/
  | foreign
  deriving Inhabited

/-- A call on its way through the pipeline.  The context of the call (its own stages, its cache and
its time limit) is left out: a stage may read it and hand it on, but no built-in stage looks at it.
-/
structure Request where
  sql : String
  args : List Value
  executor : Executor
  extension : Option Extension
  deriving Inhabited

/-- The page request that the caller handed along. -/
def Request.page? (r : Request) : Option Page :=
  match r.extension with
  | some (.page page) => some page
  | _ => none

/-- The rest of a pipeline. -/
structure Next where
  /-- How many interceptors are left before the terminal. -/
  remaining : Nat
  run : Request → Run Reply

/-- A stage around the rest of a pipeline. -/
abbrev Interceptor := Request → Next → Run Reply

/-- The stage that only goes on. -/
def Interceptor.pass : Interceptor := fun request next => next.run request

/-- The innermost stage, which runs the statement. -/
abbrev Terminal := Request → Run Reply

/-- What is left of a pipeline when some of its stages are passed: the stage at that position, which
is handed what is left behind it in turn; behind the last stage comes the terminal. -/
def Next.behind (stages : List Interceptor) (terminal : Terminal) (passed : Nat) : Next :=
  ⟨stages.length - passed, fun request =>
    match h : stages[passed]? with
    | none => terminal request
    | some stage =>
      have : passed < stages.length := (List.getElem?_eq_some_iff.1 h).1
      stage request (Next.behind stages terminal (passed + 1))⟩
termination_by stages.length - passed

/-- The pipeline of several stages before a terminal. -/
def Next.ofStages (stages : List Interceptor) (terminal : Terminal) : Next :=
  Next.behind stages terminal 0

theorem Next.remaining_behind (stages : List Interceptor) (terminal : Terminal) (passed : Nat) :
    (Next.behind stages terminal passed).remaining = stages.length - passed := by
  rw [Next.behind]

end SqlAccess
