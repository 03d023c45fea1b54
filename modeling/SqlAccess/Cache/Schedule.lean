/-
**Calls in time.**

Calls run on one thread.  What a call does behind its cache is known beforehand as a script, which
is played up to its next pause.  A load plays its script as a task of its own, so that it goes on
when those who wait for it have given up.

Time is virtual: it stands still while anything can go on, and then passes to the next deadline.
Timers count whole milliseconds and are rounded up.  At any moment the calls come first, in their
order, and then the loads that are ready, in the order in which they became so.

Main definitions:

* `SqlAccess.Cache.Script`, `SqlAccess.Cache.Call` — what a call does;
* `SqlAccess.Cache.World` — the site, the tasks of loads, the clock, and what has been observed;
* `SqlAccess.Cache.Caller.poll` — a call goes on as far as it can;
* `SqlAccess.Cache.World.runTasks` — the tasks that are ready go on;
* `SqlAccess.Cache.World.perform` — several calls from start to end.
-/

import SqlAccess.Cache.Site
import SqlAccess.Pipeline.Run

set_option autoImplicit false

namespace SqlAccess.Cache

/-! ### Calls -/

/-- What a call does behind its cache: its actions, and how it ends. -/
structure Script where
  actions : List Action
  ending : Ending Reply
  deriving Inhabited

/-- The script of a run. -/
def Script.ofRun (r : Run Reply) : Script :=
  let (outcome, actions) := r.play
  ⟨actions, .returned outcome⟩

/-- How many pauses actions make at most. -/
def pauses (actions : List Action) : Nat := actions.countP fun a => a matches .sleep _

/-- A call: what it waits for before it starts, its cache, its script, and what it must reply. -/
structure Call where
  start : Duration
  attachment : Option Attachment
  script : Script
  kind : ReplyKind
  timeout : Option Duration
  deriving Inhabited

/-- How far a call is. -/
inductive Progress where
  /-- It starts at a time. -/
  | starting (wake : Nat)
  /-- It plays its own script from a time on; the key is evicted in the end if there is one. -/
  | playing (wake : Nat) (rest : List Action) (evicts : Option (Nat × String))
  /-- It waits for a load, up to a time. -/
  | waiting (policy : Nat) (key : String) (load : Nat) (wake : Option Nat)
  | done (outcome : Outcome Reply)
  deriving Inhabited

/-- A call under way. -/
structure Caller where
  /-- Its number among all calls. -/
  number : Nat
  call : Call
  progress : Progress
  /-- The time at which it has taken too long. -/
  deadline : Option Nat
  deriving Inhabited

/-- A load under way, as a task. -/
structure Task where
  load : Nat
  /-- The call that started it. -/
  owner : Nat
  rest : List Action
  ending : Ending Reply
  deriving Inhabited

/-- A task that sleeps until a time. -/
structure Sleeper where
  wake : Nat
  task : Task
  deriving Inhabited

/-- Something observed, in the words of a log. -/
structure Observed where
  log : List String
  seen : List Statement
  /-- The totals of pages by the number of their call. -/
  totals : List (Nat × PageTotals)
  deriving Inhabited

/-- The site, the tasks of loads, the clock in milliseconds, and what has been observed. -/
structure World (α : Type) where
  payload : Payload α
  site : Site α
  now : Nat
  /-- The tasks that are ready. -/
  ready : List Task
  /-- The tasks that sleep, in the order in which they fell asleep. -/
  sleeping : List Sleeper
  observed : Observed
  /-- How many calls there have been. -/
  calls : Nat

namespace World

variable {α : Type}

/-- A world in which nothing has happened. -/
def ofSite (payload : Payload α) (site : Site α) : World α :=
  ⟨payload, site, 0, [], [], ⟨[], [], []⟩, 0⟩

/-- The time that many nanoseconds from now, rounded up to whole milliseconds. -/
def after (w : World α) (d : Duration) : Nat := w.now + (d.nanos + 999999) / 1000000

/-- A line is observed. -/
def note (w : World α) (line : String) : World α :=
  { w with observed := { w.observed with log := w.observed.log ++ [line] } }

/-- An event is observed. -/
def logEvent (w : World α) (e : LogEvent) : World α := w.note e.render

/-- A statement is observed. -/
def see (w : World α) (s : Statement) : World α :=
  { w with observed := { w.observed with seen := w.observed.seen ++ [s] } }

/-- The totals of a call's page are observed. -/
def setTotals (w : World α) (owner : Nat) (t : PageTotals) : World α :=
  { w with observed := { w.observed with
      totals := (owner, t) :: w.observed.totals.filter fun p => p.1 != owner } }

/-- The totals of a call's page. -/
def totalsOf (w : World α) (owner : Nat) : PageTotals :=
  ((w.observed.totals.find? fun p => p.1 == owner).map Prod.snd).getD .none

/-! ### Playing -/

/-- Actions are played up to the first pause: the world then, and if there is a pause, its end and
the actions after it. -/
def play (owner : Nat) (w : World α) : List Action → World α × Option (Nat × List Action)
  | [] => (w, none)
  | .log e :: rest => play owner (w.logEvent e) rest
  | .note line :: rest => play owner (w.note line) rest
  | .statement s :: rest => play owner (w.see s) rest
  | .totals t :: rest => play owner (w.setTotals owner t) rest
  | .work _ :: rest => play owner w rest
  | .sleep d :: rest =>
    if w.after d ≤ w.now then play owner w rest else (w, some (w.after d, rest))

/-! ### Loads -/

/-- How a load has ended: what its script returned must be of the stored type. -/
def endingOf (w : World α) : Ending Reply → Ending (Option α)
  | .returned outcome => .returned (outcome.bind w.payload.take)
  | .panicked => .panicked

/-- A task goes on: it falls asleep, or its load ends and is settled. -/
def runTask (w : World α) (t : Task) : World α :=
  match w.play t.owner t.rest with
  | (w, some (wake, rest)) =>
    { w with sleeping := w.sleeping ++ [⟨wake, { t with rest }⟩] }
  | (w, none) =>
    let key := ((w.site.load? t.load).map Load.key).getD ""
    match w.site.settle t.load (w.endingOf t.ending) with
    | (some problem, site) => { w with site }.logEvent (storeFailedEvent key problem)
    | (none, site) => { w with site }

/-- All tasks that are ready go on. -/
def runTasks (w : World α) : World α := w.ready.foldl runTask { w with ready := [] }

end World

/-! ### Callers -/

namespace Caller

variable {α : Type}

/-- A call that has ended. -/
def finish (c : Caller) (outcome : Outcome Reply) : Caller :=
  { c with progress := .done (outcome.bind (Reply.expect c.call.kind)) }

/-- Whether the call has ended. -/
def isDone (c : Caller) : Bool :=
  match c.progress with
  | .done _ => true
  | _ => false

/-- What a script that has ended comes to for the caller that played it. -/
def outcomeOf : Ending Reply → Outcome Reply
  | .returned outcome => outcome
  | .panicked => .error (.panicked "")

/-- The end of a call that has played its own script: a key still to be evicted is, if the script
has succeeded. -/
def conclude (c : Caller) (w : World α) (evicts : Option (Nat × String)) : Caller × World α :=
  match outcomeOf c.call.script.ending, evicts with
  | .ok reply, some (policy, key) =>
    if (w.site.policy policy).evictsFirst then
      (c.finish (.ok reply), w.logEvent (evictedEvent key))
    else match w.site.evict policy key with
      | (.ok (), site) => (c.finish (.ok reply), { w with site }.logEvent (evictedEvent key))
      | (.error e, site) => (c.finish (.error e), { w with site })
  | outcome, _ => (c.finish outcome, w)

/-- The call plays its own script. -/
def playOwn (c : Caller) (w : World α) (rest : List Action) (evicts : Option (Nat × String)) :
    Caller × World α :=
  match w.play c.number rest with
  | (w, some (wake, rest)) => ({ c with progress := .playing wake rest evicts }, w)
  | (w, none) => c.conclude w evicts

/-- The call waits for a load, as long as its policy allows. -/
def await (c : Caller) (w : World α) (policy : Nat) (key : String) (load : Nat) : Caller :=
  let wake := (w.site.policy policy).waitLimit.map w.after
  { c with progress := .waiting policy key load wake }

/-- A read whose key is good: a hit ends it, a miss joins the load in flight or starts one. -/
def read (c : Caller) (w : World α) (policy : Nat) (key : String) : Caller × World α :=
  match w.site.lookup policy key with
  | (.error e, site) => (c.finish (.error e), { w with site })
  | (.ok (some entry), site) =>
    (c.finish (.ok (w.payload.toReply entry.toOption)), { w with site }.logEvent (hitEvent key))
  | (.ok none, site) =>
    let w := { w with site }
    match w.site.flight? policy key with
    | some load => (c.await w policy key load, w.logEvent (joinEvent key))
    | none =>
      let (load, site) := w.site.register policy key
      let task : Task :=
        ⟨load, c.number, .log (missEvent key) :: c.call.script.actions, c.call.script.ending⟩
      let w := { w with site, ready := w.ready ++ [task] }
      (c.await w policy key load, w)

/-- A write whose key is good: the key is evicted before or after it plays its script. -/
def write (c : Caller) (w : World α) (policy : Nat) (key : String) : Caller × World α :=
  if (w.site.policy policy).evictsFirst then
    match w.site.evict policy key with
    | (.error e, site) => (c.finish (.error e), { w with site })
    | (.ok (), site) =>
      c.playOwn { w with site } c.call.script.actions (some (policy, key))
  else c.playOwn w c.call.script.actions (some (policy, key))

/-- The call starts. -/
def begin (c : Caller) (w : World α) : Caller × World α :=
  let c := { c with deadline := c.call.timeout.map w.after }
  match c.call.attachment with
  | none => c.playOwn w c.call.script.actions none
  | some attachment =>
    match goodKey attachment.key with
    | .error e => (c.finish (.error e), w)
    | .ok key =>
      match attachment.use with
      | .read => c.read w attachment.policy key
      | .evict => c.write w attachment.policy key

/-- The call looks at the load it waits for; if the outcome is not there, it may give up. -/
def look (c : Caller) (w : World α) (policy : Nat) (key : String) (load : Nat)
    (wake : Option Nat) : Caller × World α :=
  match w.site.outcome? load with
  | some (.returned outcome) => (c.finish (outcome.map w.payload.toReply), w)
  | some .panicked => (c.finish (.error (abandoned key)), w.logEvent (droppedEvent key))
  | none =>
    match (w.site.policy policy).waitLimit, wake with
    | some limit, some wake =>
      if wake ≤ w.now then
        (c.finish (.error (.cacheTimeout key limit)), w.logEvent (waitTimeoutEvent key limit))
      else (c, w)
    | _, _ => (c, w)

/-- The call goes on, its time limit aside. -/
def advance (c : Caller) (w : World α) : Caller × World α :=
  match c.progress with
  | .starting wake => if wake ≤ w.now then c.begin w else (c, w)
  | .playing wake rest evicts => if wake ≤ w.now then c.playOwn w rest evicts else (c, w)
  | .waiting policy key load wake => c.look w policy key load wake
  | .done _ => (c, w)

/-- A call that has not ended within its time limit ends by it. -/
def expire (c : Caller) (now : Nat) : Caller :=
  match c.isDone, c.call.timeout, c.deadline with
  | false, some limit, some deadline =>
    if deadline ≤ now then { c with progress := .done (.error (.timeout limit)) } else c
  | _, _, _ => c

/-- The call goes on as far as it can. -/
def poll (c : Caller) (w : World α) : Caller × World α :=
  let (c, w) := c.advance w
  (c.expire w.now, w)

/-- The times at which the call goes on even if nothing else does. -/
def wakes (c : Caller) : List Nat :=
  let own := match c.progress with
    | .starting wake | .playing wake _ _ => [wake]
    | .waiting _ _ _ wake => wake.toList
    | .done _ => []
  if c.isDone then [] else own ++ c.deadline.toList

/-- How often the call can still go on, at most. -/
def work (c : Caller) : Nat := pauses c.call.script.actions + 4

end Caller

/-! ### Time -/

namespace World

variable {α : Type}

/-- All calls go on in their order. -/
def pollAll (w : World α) : List Caller → List Caller × World α
  | [] => ([], w)
  | c :: rest =>
    let (c, w) := c.poll w
    let (rest, w) := w.pollAll rest
    (c :: rest, w)

/-- The next time at which anything goes on. -/
def nextWake? (w : World α) (callers : List Caller) : Option Nat :=
  (callers.flatMap Caller.wakes ++ w.sleeping.map Sleeper.wake).min?

/-- Time passes to a moment; the tasks that sleep until then are ready. -/
def passTo (w : World α) (time : Nat) : World α :=
  let (due, later) := w.sleeping.partition fun s => s.wake ≤ time
  { w with now := time, ready := w.ready ++ due.map Sleeper.task, sleeping := later }

/-- Calls and tasks go on until all calls have ended; `fuel` bounds how often. -/
def drive : Nat → List Caller → World α → List Caller × World α
  | 0, callers, w => (callers, w)
  | fuel + 1, callers, w =>
    let (callers, w) := w.pollAll callers
    if callers.all Caller.isDone then (callers, w)
    else
      let published := w.site.loads.countP fun l => l.phase matches .published _
      let w := w.runTasks
      if published < w.site.loads.countP fun l => l.phase matches .published _ then
        drive fuel callers w
      else match w.nextWake? callers with
        | some time => drive fuel callers (w.passTo time)
        | none => (callers, w)

/-- A bound on how often anything can go on. -/
def work (w : World α) (callers : List Caller) : Nat :=
  let ofCallers := callers.map fun c => 2 * c.work
  let ofTasks := (w.ready ++ w.sleeping.map Sleeper.task).map fun t => pauses t.rest + 4
  ofCallers.foldr (· + ·) 0 + ofTasks.foldr (· + ·) 0 + 1

/-- Several calls from start to end, with their numbers and outcomes. -/
def perform (w : World α) (calls : List Call) : List (Nat × Outcome Reply) × World α :=
  let callers := calls.mapIdx fun i call =>
    Caller.mk (w.calls + i) call (.starting (w.after call.start)) none
  let (callers, w) := drive (w.work callers) callers { w with calls := w.calls + calls.length }
  let outcomes := callers.map fun c =>
    match c.progress with
    | .done outcome => (c.number, outcome)
    | _ => (c.number, .error (.other "call has not ended"))
  (outcomes, w)

/-- What has been observed of the log and of statements is taken out. -/
def drain (w : World α) : (List String × List Statement) × World α :=
  ((w.observed.log, w.observed.seen),
    { w with observed := { w.observed with log := [], seen := [] } })

end World

end SqlAccess.Cache
