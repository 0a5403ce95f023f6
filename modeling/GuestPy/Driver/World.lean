import GuestPy.Driver.Timer
import GuestPy.Guest.Activity
import GuestPy.Library.Program

/-!
# The state of a driver

The driver of one guest, the futures that are polled from outside, and the slot that the
driver lives in.

* `PendingHostFutureState` holds the host futures of a driver: those to be polled, how many
  are out in a batch, and those that have completed.
* `CoroutineFuture` and `Operation` are the futures that hosts poll: the first drives one
  coroutine, the second is a call of `run_until_idle` or `close`.
* A `Ledger` keeps what the program does not: which waker each host future was polled with
  and in which sweep, what each sweep found when it began, which host futures are out in a
  batch, which completed entries have been drained, which of them are being published or have
  been, and how often a result was set.
* An `Event` records one thing that happened, with the data that decides about it.
-/

namespace GuestPy.Driver

abbrev Err := Error String

/-! ## Host futures -/

/-- An asyncio future. -/
inductive FutureState where
  | pending
  | done
  | cancelled
  deriving DecidableEq

/-- A host future that has completed, with the number of the asyncio future that waits for
it. Its `ticket` tells the entries of the ready queue apart. -/
structure Completed where
  ticket : Nat
  future : Nat
  outcome : Except Err Nat

structure PendingHostFutureState where
  entries : List Nat
  polling : Nat
  ready : List Completed

namespace PendingHostFutureState

def new : PendingHostFutureState := ⟨[], 0, []⟩

def isEmpty (s : PendingHostFutureState) : Bool :=
  s.entries.isEmpty && s.polling == 0 && s.ready.isEmpty

def hasReady (s : PendingHostFutureState) : Bool := !s.ready.isEmpty

end PendingHostFutureState

structure EventLoop where
  started : Bool
  selectorTimeout : Option Number

structure AsyncRuntime where
  eventLoop : EventLoop
  pending : PendingHostFutureState

def AsyncRuntime.new : AsyncRuntime := ⟨⟨false, none⟩, .new⟩

inductive Progress where
  | idle
  | ready
  | waiting (delay : Duration)
  | blocked

/-- A loop that reports this has callbacks to run or a timer to wait for. -/
def Progress.isActive : Progress → Bool
  | ready => true
  | waiting _ => true
  | _ => false

/-! ## Futures that are polled from outside -/

inductive Status where
  | fresh
  | polling
  | pending
  deriving DecidableEq

/-- A future that drives a coroutine. A pending one also remembers its last poll: the
waker, the number of wakes requested before, and what the loop reported. Once its task or a
host future it waits for has completed after that poll, `completed` says whether it was
bound to be polled again in any case. -/
structure CoroutineFuture where
  task : Option Nat
  active : Bool
  sleep : Timer
  status : Status
  waker : Waker
  since : Nat
  progress : Progress
  completed : Option Bool

def CoroutineFuture.new : CoroutineFuture :=
  ⟨none, false, .new, .fresh, .noop, 0, .idle, none⟩

/-- Where a `run_until_idle` or `close` is: not begun yet, in a poll (its first one, until it
has got its driver, or a later one), suspended, or over. -/
inductive Stage where
  | start
  | starting
  | running
  | yielding
  | blocked
  | waiting (delay : Duration)
  | finished

/-- Does the call count on the driver? -/
def Stage.isOpen : Stage → Bool
  | start => false
  | starting => false
  | finished => false
  | _ => true

structure Operation where
  closing : Bool
  remaining : Option Nat
  sleep : Timer
  stage : Stage

/-! ## Events -/

/-- What a failed assertion is about. -/
inductive Cause where
  | absent
  | borrowed
  | duration
  | instant
  deriving DecidableEq

/-- What has become of an entry of a batch: whether its asyncio future is done, how often
`publish` has set a result or an exception on it, and whether the entry is queued. -/
structure Fate where
  done : Bool
  resolutions : Nat
  queued : Bool

/-- A host future that is still pending, with its number and the waker that it was last polled
with. -/
structure Outstanding where
  number : Nat
  held : Option Waker

/-- Where a poll ends in pending: in a `drive`, by what the loop reports, or in the poll of a
`CoroutineFuture`. There a loop that waits for a guest timer may find it due at once, and one
that is blocked or idle may find that host futures have completed. -/
inductive Branch where
  | driveReady
  | driveWaiting
  | driveBlocked
  | ready
  | waiting (due : Bool)
  | blocked (hasReady : Bool)
  deriving DecidableEq

/-- Does the branch itself wake the task? -/
def Branch.wakes : Branch → Bool
  | driveReady => true
  | ready => true
  | waiting due => due
  | blocked hasReady => hasReady
  | _ => false

/-- A sweep over the host futures. When it began, so many had been registered, and those in
`out` were out in other batches. -/
structure Sweep where
  waker : Waker
  registered : Nat
  out : List Nat

/-- The last sweep that a poll has made with its own waker, and the wakers of all that have
begun since. -/
structure OwnSweep where
  sweep : Sweep
  since : List Waker

/-- Where the host futures of a driver are: how many have been registered, the numbers of
those to be polled, of those out in a batch, of those that have completed, of those that a
publish in progress has taken, and of those that are published, and what the driver itself
counts and reports. -/
structure Snapshot where
  registered : Nat
  entries : List Nat
  flying : List Nat
  ready : List Nat
  publishing : List Nat
  published : List Nat
  polling : Nat
  isEmpty : Bool

/-- One thing that happened.

* `polled`: a host future was polled, which had `completed` before or not.
* `settled`: `count` entries are counted back, of the `polling` that are counted as out.
* `inspected`: other code may look where the host futures are.
* `published`: a batch was published, up to the entry on which a step failed.
* `suspended`: a poll ends in pending, in this branch. `requested` says whether its task has
  been woken since it began, `outside` whether it has been so by others than the branch, and
  `own` is the last sweep it has made with its own waker.
* `pended`: a `CoroutineFuture` is left pending, with `limits` on the time until it has to be
  polled again, the timer it had before the poll, and the one it has now.
* `completed`: what a pending `CoroutineFuture` waits for has completed. `progress` is what
  the loop reported to its last poll, and `woken` says whether it has been woken since.
* `returned`: an operation returns, and leaves some of these futures unserved.
* the others: the uses of the slot, the numbers recorded by the selector, the polls of a
  timer, and failed assertions. -/
inductive Event where
  | polled (completed : Bool)
  | settled (polling count : Nat)
  | inspected (snapshot : Snapshot)
  | published (handled unhandled : List Fate)
  | suspended (cx : Waker) (branch : Branch) (outside requested : Bool) (own : Option OwnSweep)
      (outstanding : List Outstanding)
  | pended (cx : Waker) (progress : Progress) (requested : Bool) (limits : List Duration)
      (now : Nat) (older sleep : Timer)
  | completed (i : Nat) (progress : Progress) (woken : Bool)
  | returned (unserved : List Nat)
  | began (writing : Bool)
  | closing (present : Bool)
  | taking (borrowed others : Bool)
  | recorded (x : Option Number)
  | timed (fits : Bool)
  | panicked (cause : Cause)

/-! ## The world -/

structure Ledger where
  held : Nat → Option Waker
  sweepOf : Nat → Option Nat
  sweeps : Nat
  sweepAt : Nat → Sweep
  flying : List Nat
  finished : Nat → Bool
  tickets : Nat
  drained : Nat → Bool
  publishing : List Nat
  published : List Nat
  resolutions : Nat → Nat

def Ledger.new : Ledger where
  held := fun _ => none
  sweepOf := fun _ => none
  sweeps := 0
  sweepAt := fun _ => ⟨.noop, 0, []⟩
  flying := []
  finished := fun _ => false
  tickets := 0
  drained := fun _ => false
  publishing := []
  published := []
  resolutions := fun _ => 0

/-- One guest of a runtime and its driver slot, which counts its shared borrows. `awaits`
says which asyncio futures the tasks of the guest wait for. -/
structure World where
  guest : GuestId
  runtime : RuntimeInner
  driver : Option AsyncRuntime
  borrows : Nat
  writing : Bool
  coroutines : Nat → Option CoroutineFuture
  spawned : Nat
  operations : Nat → Option Operation
  started : Nat
  nextFuture : Nat
  futures : Nat → FutureState
  tasks : Nat → Bool
  awaits : List (Nat × Nat)
  wakes : List Waker
  ledger : Ledger
  events : List Event
  calls : Nat

namespace World

/-- A runtime whose guest `guest` has neither a driver nor futures. -/
def new (guest : GuestId) (runtime : RuntimeInner) : World where
  guest := guest
  runtime := runtime
  driver := none
  borrows := 0
  writing := false
  coroutines := fun _ => none
  spawned := 0
  operations := fun _ => none
  started := 0
  nextFuture := 0
  futures := fun _ => .pending
  tasks := fun _ => false
  awaits := []
  wakes := []
  ledger := .new
  events := []
  calls := 0

def tick (w : World) : World := { w with calls := w.calls + 1 }

def log (e : Event) (w : World) : World := { w with events := e :: w.events }

def withRuntime (f : RuntimeInner → RuntimeInner) (w : World) : World :=
  { w with runtime := f w.runtime }

def withLedger (f : Ledger → Ledger) (w : World) : World := { w with ledger := f w.ledger }

def withPending (f : PendingHostFutureState → PendingHostFutureState) (w : World) : World :=
  { w with driver := w.driver.map fun d => { d with pending := f d.pending } }

def withLoop (f : EventLoop → EventLoop) (w : World) : World :=
  { w with driver := w.driver.map fun d => { d with eventLoop := f d.eventLoop } }

def pending (w : World) : PendingHostFutureState :=
  match w.driver with
  | some d => d.pending
  | none => .new

def wake (cx : Waker) (w : World) : World := { w with wakes := cx :: w.wakes }

/-- Has `cx` been woken since `since` wakes had been requested? -/
def wokenSince (w : World) (cx : Waker) (since : Nat) : Bool :=
  (w.wakes.take (w.wakes.length - since)).contains cx

/-- The `n`th sweep, as one that a poll has made with its own waker. -/
def ownSweep (w : World) (n : Nat) : OwnSweep where
  sweep := w.ledger.sweepAt n
  since := (List.range w.ledger.sweeps).filterMap fun m =>
    if n < m then some (w.ledger.sweepAt m).waker else none

/-- The host futures that are still pending: those queued, and those out in a batch. A batch
whose polls have panicked stays counted as out. -/
def outstanding (w : World) : List Nat :=
  (w.pending.entries ++ w.ledger.flying).filter fun h => !w.ledger.finished h

/-! ### Futures that are polled from outside -/

def setCoroutine (i : Nat) (f : CoroutineFuture → CoroutineFuture) (w : World) : World :=
  { w with coroutines := Function.update w.coroutines i ((w.coroutines i).map f) }

def setOperation (i : Nat) (f : Operation → Operation) (w : World) : World :=
  { w with operations := Function.update w.operations i ((w.operations i).map f) }

/-- The waker of the last poll has been woken since, or the future's timer holds it. -/
def keepsWake (w : World) (c : CoroutineFuture) : Bool :=
  w.wokenSince c.waker c.since || c.sleep.holds c.waker

/-- The waker of the last poll has been woken since, or a timer or a pending host future
holds it. -/
def serves (w : World) (c : CoroutineFuture) : Bool :=
  w.keepsWake c || w.outstanding.any fun h => w.ledger.held h == some c.waker

def affected (p : CoroutineFuture → Bool) (c : CoroutineFuture) : Bool :=
  decide (c.status = .pending) && c.completed.isNone && p c

/-- What the pending futures in `p` wait for has completed. -/
def complete (p : CoroutineFuture → Bool) (w : World) : World :=
  { w with
    coroutines := fun i => (w.coroutines i).map fun c =>
      if affected p c then
        { c with completed := some (c.progress.isActive || w.wokenSince c.waker c.since) }
      else
        c
    events := ((List.range w.spawned).filterMap fun i =>
      match w.coroutines i with
      | some c =>
        if affected p c then
          some (.completed i c.progress (w.wokenSince c.waker c.since))
        else
          none
      | none => none) ++ w.events }

/-- The pending futures whose wait is over while nothing is going to wake them. -/
def unserved (w : World) : List Nat :=
  (List.range w.spawned).filter fun i =>
    match w.coroutines i with
    | some c => decide (c.status = .pending) && c.completed.isSome && !w.serves c
    | none => false

end World

/-! ## Calls out -/

/-- The moments at which other code may run. -/
inductive Call where
  | python (what : String)
  | pollHost (h : Nat) (cx : Waker)
  | convert (value : Nat)
  | exception (e : Err)
  | create
  | runOnce
  | hostBody
  | dropDriver

/-- What comes back from a call. A host future that is polled is pending, or has an outcome;
a task is made for a coroutine. -/
structure Answer where
  outcome : Option (Except Err Nat)
  task : Nat
  deriving Inhabited

end GuestPy.Driver
