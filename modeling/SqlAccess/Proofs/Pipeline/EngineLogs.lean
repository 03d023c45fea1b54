/-
**Engines with and without logs.**

Two engines that differ in built-in logs only answer every call alike, give the executor the same
statements, and find the same totals of pages, whatever the call asks for, be it behind a cache or
not.  Where one of them has no stages at all, it asks the terminal directly, and the other finds the
reply that comes back through its logs to be of the right kind.

Main definitions:

* `SqlAccess.EngineSlots.UpToLogs`, `SqlAccess.Context.UpToLogs` — engines and calls that differ in
  built-in logs only.

Main results:

* `SqlAccess.Engine.runWith_eq_checked` — without stages it is no loss to look at the reply's kind;
* `SqlAccess.EngineSlots.UpToLogs.stages`, `SqlAccess.EngineSlots.UpToLogs.runWith` — the stages of
  such engines differ in logs only, and their calls are alike;
* `SqlAccess.Engine.alike_up_to_logs` — **logs are transparent**, alone and among other calls.
-/

import SqlAccess.Proofs.Cache.Remarks
import SqlAccess.Proofs.Pipeline.Order
import SqlAccess.Proofs.Pipeline.Transparency

set_option autoImplicit false

namespace SqlAccess

open SqlAccess.Action

/-! ### Engines and calls that differ in logs only -/

/-- The same stage, which looks neither at the number of stages left nor at remarks. -/
def Interceptor.SameImpartial (stage stage' : Interceptor) : Prop :=
  stage = stage' ∧ stage.Impartial

theorem Interceptor.SameImpartial.agree {stage stage' : Interceptor}
    (h : stage.SameImpartial stage') : stage.Agree stage' := by
  obtain ⟨rfl, himpartial⟩ := h
  exact himpartial.agree

/-- A custom paging stage is impartial. -/
def PagingSlot.Impartial : PagingSlot → Prop
  | off | builtin => True
  | custom stage => stage.Impartial

/-- Slots that differ in built-in logs only, and are filled with impartial stages otherwise. -/
structure EngineSlots.UpToLogs (s s' : EngineSlots) : Prop where
  pagination : s.pagination = s'.pagination
  paging : s.pagination.Impartial
  sqlLog : SqlAccess.UpToLogs Interceptor.SameImpartial s.sqlLog.toList s'.sqlLog.toList
  interceptors : SqlAccess.UpToLogs Interceptor.SameImpartial s.interceptors s'.interceptors
  slowQuery : SqlAccess.UpToLogs Interceptor.SameImpartial s.slowQuery.toList s'.slowQuery.toList

/-- Additions to calls that differ in built-in logs only, and are impartial stages otherwise. -/
structure Context.UpToLogs (context context' : Context) : Prop where
  cache : SqlAccess.UpToLogs Interceptor.SameImpartial context.cache.toList context'.cache.toList
  interceptors :
    SqlAccess.UpToLogs Interceptor.SameImpartial context.interceptors context'.interceptors
  timeout : context.timeout = context'.timeout

variable {s s' : EngineSlots} {context context' : Context} {terminal : Terminal} {kind : ReplyKind}

theorem EngineSlots.UpToLogs.paginationStage (h : s.UpToLogs s') :
    SqlAccess.UpToLogs Interceptor.Agree s.build.pagination.toList s'.build.pagination.toList := by
  have hlog := h.sqlLog.mono fun _ _ => Interceptor.SameImpartial.agree
  have himpartial := h.paging
  rw [build, build, ← h.pagination]
  cases hslot : s.pagination with
  | off => exact .nil
  | builtin => exact .both (Paginator.agree hlog) .nil
  | custom stage =>
      rw [hslot] at himpartial
      exact .both (Interceptor.Impartial.agree himpartial) .nil

theorem EngineSlots.UpToLogs.stages (h : s.UpToLogs s') (hcontext : context.UpToLogs context') :
    SqlAccess.UpToLogs Interceptor.Agree (s.build.stages context) (s'.build.stages context') := by
  have hagree : ∀ stage stage', Interceptor.SameImpartial stage stage' → stage.Agree stage' :=
    fun _ _ => Interceptor.SameImpartial.agree
  have hcache := (hcontext.cache.mono hagree).append h.paginationStage
  have hown := (hcache.append (h.sqlLog.mono hagree)).append (h.interceptors.mono hagree)
  exact (hown.append (hcontext.interceptors.mono hagree)).append (h.slowQuery.mono hagree)

/-! ### Calls as runs -/

/-- Without stages it is no loss to look at the reply's kind. -/
theorem Engine.runWith_eq_checked (hreplies : terminal.Replies kind) (e : Engine)
    (context : Context) (request : Request) :
    e.runWith context request kind terminal = (do
      let reply ← (Next.nested (e.stages context) terminal).run request
      Run.ofOutcome (reply.expect kind)) := by
  rw [runWith_eq]
  split
  · rename_i hempty
    rw [List.isEmpty_iff.1 hempty]
    apply Run.eq_of_playFrom
    intro t
    change _ = (terminal request >>= fun reply => Run.ofOutcome (reply.expect kind)).playFrom t
    rw [Run.playFrom_bind]
    rcases hplay : (terminal request).playFrom t with ⟨e | reply, u⟩
    · rfl
    · have hkind : reply.expect kind = .ok reply := if_pos (hreplies request t reply u hplay)
      dsimp only
      rw [hkind, Run.playFrom_ofOutcome]
  · rfl

/-- Calls through engines that differ in logs only are alike. -/
theorem EngineSlots.UpToLogs.runWith (h : s.UpToLogs s') (hcontext : context.UpToLogs context')
    (hterminal : terminal.Impartial) (hreplies : terminal.Replies kind) (request : Request) :
    (s.build.runWith context request kind terminal).Alike
      (s'.build.runWith context' request kind terminal) := by
  rw [Engine.runWith_eq_checked hreplies, Engine.runWith_eq_checked hreplies]
  refine ((h.stages hcontext).alike hterminal request).bind ?_
  intro reply
  exact .ofOutcome _

/-! ### Calls in time -/

theorem EngineSlots.UpToLogs.behindCache (h : s.UpToLogs s') (hcontext : context.UpToLogs context')
    (request : Request) (callKind : CallKind) (attachment : Option Cache.Attachment) :
    (s.build.behindCache context request callKind attachment).Alike
      (s'.build.behindCache context' request callKind attachment) := by
  unfold Engine.behindCache
  cases attachment with
  | none =>
      exact h.runWith hcontext callKind.impartial_terminal callKind.replies_terminal request
  | some _ =>
      simp only [Next.ofStages_eq_nested]
      exact (h.stages hcontext).alike callKind.impartial_terminal request

/-- Calls through engines that differ in logs only have the same scripts, remarks aside. -/
theorem EngineSlots.UpToLogs.call (h : s.UpToLogs s') (hcontext : context.UpToLogs context')
    (request : Request) (callKind : CallKind) (attachment : Option Cache.Attachment) :
    (s.build.call context request callKind attachment).plain =
      (s'.build.call context' request callKind attachment).plain := by
  obtain ⟨houtcome, hdeeds⟩ :=
    h.behindCache hcontext request callKind attachment (rfl : deeds [] = deeds [])
  have hscript (r : Run Reply) : Cache.Script.ofRun r =
      ⟨(r.playFrom []).2, .returned (r.playFrom []).1⟩ := rfl
  simp only [Engine.call, Cache.Call.plain, hscript, houtcome, hdeeds, hcontext.timeout]

/-! ### Transparency -/

/-- **Logs are transparent.**  Engines and calls that differ in built-in logs only, before a
terminal that replies with one kind, end in the same way and leave the same statements and totals,
whatever has been remarked before.  If one of them has no stages, the replies that the other's logs
let through are all of that kind.  Among other calls, with or without a cache, the difference in
logs is not seen either. -/
theorem Engine.alike_up_to_logs (h : s.UpToLogs s') (hcontext : context.UpToLogs context')
    (hterminal : terminal.Impartial) (hreplies : terminal.Replies kind) (request : Request) :
    (∀ t t', deeds t = deeds t' →
      let r := (s.build.runWith context request kind terminal).playFrom t
      let r' := (s'.build.runWith context' request kind terminal).playFrom t'
      r.1 = r'.1 ∧ statements r.2 = statements r'.2 ∧ totalsIn r.2 = totalsIn r'.2) ∧
    (s.build.stages context = [] → ∀ t reply u,
      ((Next.ofStages (s'.build.stages context') terminal).run request).playFrom t =
        (.ok reply, u) → reply.expect kind = .ok reply) ∧
    (∀ {α : Type} (w : Cache.World α) (front back : List Cache.Call) (callKind : CallKind)
      (attachment : Option Cache.Attachment),
      let r := w.perform (front ++ s.build.call context request callKind attachment :: back)
      let r' := w.perform (front ++ s'.build.call context' request callKind attachment :: back)
      r.1 = r'.1 ∧ r.2.site = r'.2.site ∧ r.2.observed.seen = r'.2.observed.seen ∧
        r.2.observed.totals = r'.2.observed.totals) := by
  refine ⟨?_, ?_, ?_⟩
  · intro t t' ht
    obtain ⟨houtcome, hdeeds⟩ := h.runWith hcontext hterminal hreplies request ht
    exact ⟨houtcome, statements_eq_of_deeds hdeeds, totalsIn_eq_of_deeds hdeeds⟩
  · intro hempty t reply u hplay
    have halike := (h.stages hcontext).alike hterminal request (rfl : deeds t = deeds t)
    rw [Next.ofStages_eq_nested] at hplay
    rw [hempty, hplay] at halike
    have hdirect : (terminal request).playFrom t =
        (.ok reply, ((terminal request).playFrom t).2) := Prod.ext halike.1 rfl
    exact if_pos (hreplies request t reply _ hdirect)
  · intro α w front back callKind attachment
    have hcalls : (front ++ s.build.call context request callKind attachment :: back).map
        Cache.Call.plain =
        (front ++ s'.build.call context' request callKind attachment :: back).map
          Cache.Call.plain := by
      rw [List.map_append, List.map_cons, h.call hcontext, List.map_append, List.map_cons]
    obtain ⟨houtcomes, hworld⟩ := Cache.World.perform_congr hcalls (rfl : w.plain = w.plain)
    obtain ⟨hsite, -, -, hseen, htotals⟩ := Cache.World.eq_of_plain hworld
    exact ⟨houtcomes, hsite, hseen, htotals⟩

/-- A conduct that passes a failed request on once more. -/
def retried (request : Request) : Conduct Reply :=
  .onward request fun
    | .ok reply => .done (.ok reply)
    | .error _ => .onward request .done

theorem blind_retried (request : Request) : (retried request).Blind := by
  refine .onward request ?_
  intro outcome
  cases outcome with
  | ok reply => exact .done _
  | error _ => exact .onward request fun outcome => .done outcome

/-- Paging and a stage of the engine's own; both logs come in between and behind them if asked
for. -/
def EngineSlots.retrying (sqlLog slowQuery : Option Interceptor) : EngineSlots :=
  ⟨.builtin, sqlLog, [Conduct.stage fun request _ => retried request], slowQuery⟩

/-- The logs of statements and of slow calls make no difference to an engine that pages and tries
again, nor to one without stages. -/
theorem Engine.alike_with_logs :
    let sqlLog := SqlLog.interceptor ⟨.debug, some 20⟩
    let slowQuery := SlowQueryLog.interceptor ⟨⟨0⟩, SlowQueryReport.event⟩
    let quiet := (EngineSlots.retrying none none).build
    let logged := (EngineSlots.retrying (some sqlLog) (some slowQuery)).build
    let bare := EngineSlots.empty.build
    let bareLogged := (EngineSlots.mk .off (some sqlLog) [] (some slowQuery)).build
    let request : Request := ⟨"SELECT id FROM users", [], default, none⟩
    (quiet.run .empty request .rows).play.1 = (logged.run .empty request .rows).play.1 ∧
      bare.stages .empty = [] ∧
      (bare.run .empty request .rows).play.1 = (bareLogged.run .empty request .rows).play.1 := by
  intro sqlLog slowQuery quiet logged bare bareLogged request
  have hsql : Interceptor.IsLog sqlLog := .sql _
  have hslow : Interceptor.IsLog slowQuery := .slow _ fun _ _ => rfl
  have hcontext : Context.empty.UpToLogs Context.empty := ⟨.nil, .nil, rfl⟩
  have hstage : Interceptor.SameImpartial (Conduct.stage fun request _ => retried request)
      (Conduct.stage fun request _ => retried request) :=
    ⟨rfl, Conduct.impartial_stage blind_retried⟩
  have hretrying : (EngineSlots.retrying none none).UpToLogs
      (EngineSlots.retrying (some sqlLog) (some slowQuery)) :=
    ⟨rfl, trivial, .right hsql .nil, .both hstage .nil, .right hslow .nil⟩
  have hbare : EngineSlots.empty.UpToLogs ⟨.off, some sqlLog, [], some slowQuery⟩ :=
    ⟨rfl, trivial, .right hsql .nil, .nil, .right hslow .nil⟩
  have hterminal := CallKind.rows.impartial_terminal
  have hreplies := CallKind.rows.replies_terminal
  obtain ⟨hquiet, -⟩ := alike_up_to_logs hretrying hcontext hterminal hreplies request
  obtain ⟨hdirect, -⟩ := alike_up_to_logs hbare hcontext hterminal hreplies request
  exact ⟨(hquiet [] [] rfl).1, rfl, (hdirect [] [] rfl).1⟩

end SqlAccess
