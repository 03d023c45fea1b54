/-
**Calls through an engine.**

Main definitions:

* `SqlAccess.Engine.behindCache` — what a call does behind its cache;
* `SqlAccess.Engine.call` — a call through an engine, with its cache and its time limit.
-/

import SqlAccess.Cache.Schedule
import SqlAccess.Pipeline.Engine

set_option autoImplicit false

namespace SqlAccess.Engine

/-- What a call does behind its cache.  A cached call goes through all stages, of which there may be
none; that its reply is of the right kind is seen to at the end of the call. -/
def behindCache (e : Engine) (context : Context) (request : Request) (kind : CallKind)
    (attachment : Option Cache.Attachment) : Run Reply :=
  match attachment with
  | some _ => (Next.ofStages (e.stages context) kind.terminal).run request
  | none => e.run context request kind

/-- A call through an engine, with its cache and its time limit. -/
def call (e : Engine) (context : Context) (request : Request) (kind : CallKind)
    (attachment : Option Cache.Attachment) : Cache.Call :=
  ⟨⟨0⟩, attachment, .ofRun (e.behindCache context request kind attachment), kind.replyKind,
    context.timeout⟩

end SqlAccess.Engine
