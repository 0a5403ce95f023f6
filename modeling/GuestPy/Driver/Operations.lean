import GuestPy.Driver.Runtime

/-!
# Driving a guest

Everything that a host does with the driver of a guest: `advance`, polls of futures that
drive coroutines, and polls of `run_until_idle` and `close`. Guest code and host futures run
in between, and may do any of it again.

* `Coroutine.poll` polls the host futures, steps the loop, and arranges for the next poll by
  what the loop reports.
* `driveLoop` is the loop of `run_until_idle` and `close`, from one suspension to the next.
* `Op` lists what may happen, and `drivers` is the system.
-/

namespace GuestPy.Driver

open PendingHostFutures (python)
open AsyncDriverSlot

variable {α : Type}

namespace World

def inner (w : World) : Option GuestInner := w.runtime.guests w.guest

/-- The times within which the guest's policy has to be asked again: the rest of its
deadline, and the interval at which its signal is polled. -/
def limits (w : World) : List Duration :=
  match w.inner with
  | some inner =>
    (inner.activity.policy.remaining (w.runtime.elapsed inner)).toList ++
      inner.activity.policy.pollInterval.toList
  | none => []

/-- Has `cx` been woken by others since? The wake of the branch itself comes last. -/
def wokenOutside (w : World) (cx : Waker) (since : Nat) (branch : Branch) : Bool :=
  if branch.wakes then
    { w with wakes := w.wakes.tail }.wokenSince cx since
  else
    w.wokenSince cx since

/-- A poll ends in pending. -/
def suspend (cx : Waker) (since : Nat) (branch : Branch) (own : Option Nat) (w : World) : World :=
  w.log (.suspended cx branch (w.wokenOutside cx since branch) (w.wokenSince cx since)
    (own.map w.ownSweep) (w.outstanding.map fun h => ⟨h, w.ledger.held h⟩))

/-- A poll of the `i`th coroutine future ends in pending, with the timer `sleep`. -/
def pend (i : Nat) (cx : Waker) (since : Nat) (branch : Branch) (own : Option Nat)
    (progress : Progress) (older sleep : Timer) (w : World) : World :=
  ((w.suspend cx since branch own).log
      (.pended cx progress (w.wokenSince cx since) w.limits w.runtime.now older sleep))
    |>.setCoroutine i fun c =>
      { c with sleep, status := .pending, waker := cx, since, progress, completed := none }

end World

/-! ## Entering -/

/-- Runs `m` under an activation token. -/
def underToken (g : GuestId) (r : RuntimeInner) (m : Host World Err α) : Host World Err α :=
  Host.bind (Host.modify (World.withRuntime fun _ => r)) fun _ =>
    Host.guarded m (World.withRuntime fun r => r.step (.drop g))

/-- A token for the time of `m`. -/
def withToken (activation : Activation) (m : Host World Err α) : Host World Err α := do
  let w ← Host.get
  match w.inner with
  | none => Host.throw .closed
  | some inner =>
    match ActiveGuest.new w.runtime w.guest inner activation with
    | .error e => Host.throw e
    | .ok r => underToken w.guest r m

/-- `enter` and `enter_cleanup`. -/
def enter (activation : Activation) (m : Host World Err α) : Host World Err α := do
  let w ← Host.get
  match w.inner with
  | none => Host.throw .closed
  | some inner =>
    if inner.closed then Host.throw .closed
    else if w.runtime.isInnermost w.guest then m
    else withToken activation m

variable (callout : Call → Host World Err Answer)

/-! ## One step of the driver -/

def advanceEntered : Host World Err Progress := do
  expectDriver
  let advanced ← Host.attempt (withDriver (AsyncRuntime.advance callout))
  let restored ← Host.attempt (EventLoop.setRunningLoop callout)
  let progress ← Host.ofExcept advanced
  Host.ofExcept restored
  pure progress

/-- `advance_with`. -/
def advanceWith (activation : Activation) : Host World Err Progress :=
  withToken activation do
    expectDriver
    let _ ← withDriver (PendingHostFutures.pollAll callout .noop)
    enter activation (advanceEntered callout)

/-- `Guest::advance`. -/
def advance : Host World Err Unit := do
  enter .operation (ensure callout)
  let _ ← advanceWith callout .operation
  pure ()

/-! ## Timers -/

/-- One poll of a timer. -/
def pollTimer (t : Timer) (duration : Duration) (cx : Waker) : Host World Err (Timer × Bool) := do
  let w ← Host.get
  Host.modify (World.log (.timed (t.fits w.runtime.now duration)))
  match t.pollAfter w.runtime.now duration cx with
  | some polled => pure polled
  | none => panicBecause .instant

/-! ## Coroutine futures -/

namespace Coroutine

/-- `begin_operation`, for a future that holds no token yet. -/
def activate (i : Nat) (active : Bool) : Host World Err Unit :=
  if active then
    pure ()
  else do
    let w ← Host.get
    match w.inner with
    | none => Host.throw .closed
    | some inner =>
      match ActiveGuest.new w.runtime w.guest inner .operation with
      | .error e => Host.throw e
      | .ok r =>
        Host.modify fun w =>
          (w.withRuntime fun _ => r).setCoroutine i fun c => { c with active := true }

/-- Polls the host futures if there is a driver. Returns the sweep. -/
def sweep (cx : Waker) : Host World Err (Option Nat) := do
  if ← isInitialized then
    let n ← withDriver (PendingHostFutures.pollAll callout cx)
    pure (some n)
  else
    pure none

/-- `prepare`: the task of the coroutine, made by the first poll. -/
def prepare (i : Nat) (task : Option Nat) : Host World Err Nat :=
  match task with
  | some t => pure t
  | none => do
    ensure callout
    let answer ← withDriver (callout (.python "ensure_future"))
    Host.modify (World.setCoroutine i fun c => { c with task := some answer.task })
    pure answer.task

/-- `task_state`: is the task done? Its result may be an exception. -/
def taskState (t : Nat) : Host World Err Bool := do
  python callout "done"
  let w ← Host.get
  if w.tasks t then
    python callout "result"
    pure true
  else
    pure false

def stepped (i : Nat) (task : Option Nat) : Host World Err (Progress × Bool) := do
  let t ← prepare callout i task
  ensure callout
  let progress ← withDriver (AsyncRuntime.advance callout)
  let done ← taskState callout t
  pure (progress, done)

/-- `classify`, by the policy as it is now. -/
def classify (r : Except Err α) : Host World Err α := do
  let w ← Host.get
  match w.inner with
  | none => Host.throw .closed
  | some inner =>
    Host.ofExcept (inner.activity.policy.classify (w.runtime.elapsed inner) r)

/-- `should_abort`. -/
def checkAbort : Host World Err Unit := do
  let w ← Host.get
  match w.inner with
  | none => Host.throw .closed
  | some inner =>
    let elapsed := w.runtime.elapsed inner
    if inner.activity.policy.shouldAbort elapsed then
      Host.throw (inner.activity.policy.abortError elapsed)
    else
      pure ()

/-- What a poll does inside the interpreter. -/
def entered (i : Nat) (task : Option Nat) : Host World Err (Progress × Bool) := do
  let checked ← Host.attempt (python callout "check")
  classify checked
  checkAbort
  let stepped ← Host.attempt (stepped callout i task)
  let restored ← Host.attempt (EventLoop.setRunningLoop callout)
  let outcome ← Host.ofExcept stepped
  Host.ofExcept restored
  pure outcome

/-- `clamp`: the loop's delay, cut down to the limits. -/
def clamp (limits : List Duration) (delay : Duration) : Duration := limits.foldl Duration.min delay

/-- The branch of a loop that waits for a guest timer: the timer, and is it due at once? -/
def waitFor (cx : Waker) (sleep : Timer) (delay : Duration) : Host World Err (Timer × Bool) := do
  let w ← Host.get
  let (sleep, ready) ← pollTimer sleep (clamp w.limits delay) cx
  if ready then
    Host.modify (World.wake cx)
    pure (sleep, true)
  else
    pure (sleep, false)

/-- The branch of a loop that is blocked or idle: the last sweep, and have host futures
completed? -/
def waitForHost (cx : Waker) (own : Option Nat) : Host World Err (Option Nat × Bool) := do
  if ← isInitialized then
    withDriver do
      let n ← PendingHostFutures.pollAll callout cx
      let w ← Host.get
      if w.pending.hasReady then
        Host.modify (World.wake cx)
        pure (some n, true)
      else
        pure (some n, false)
  else
    pure (own, false)

/-- How a poll is left: the branch it ends in, its last sweep with its own waker, and the timer
of the future. -/
structure Arrangement where
  branch : Branch
  own : Option Nat
  sleep : Timer

/-- Arranges for the next poll, by what the loop reports. -/
def arrange (cx : Waker) (sleep : Timer) (own : Option Nat) :
    Progress → Host World Err Arrangement
  | .ready => do
    Host.modify (World.wake cx)
    pure ⟨.ready, own, sleep⟩
  | .waiting delay => do
    let (sleep, due) ← waitFor cx sleep delay
    pure ⟨.waiting due, own, sleep⟩
  | .blocked => do
    let (own, hasReady) ← waitForHost callout cx own
    pure ⟨.blocked hasReady, own, sleep⟩
  | .idle => do
    let (own, hasReady) ← waitForHost callout cx own
    pure ⟨.blocked hasReady, own, sleep⟩

/-- The body of `poll`: is the future pending after it? -/
def pollBody (i : Nat) (cx : Waker) (since : Nat) (c : CoroutineFuture) :
    Host World Err Bool := do
  activate i c.active
  let own ← sweep callout cx
  let outcome ← Host.attempt (entered callout i c.task)
  let (progress, done) ← classify outcome
  if done then
    python callout "extract"
    pure false
  else
    let left ← arrange callout cx c.sleep own progress
    Host.modify (World.pend i cx since left.branch left.own progress c.sleep left.sleep)
    pure true

/-- `CoroutineFuture::poll`. A future that is in a poll, or whose poll has panicked, is not polled. -/
def poll (i : Nat) (cx : Waker) : Host World Err Unit := do
  let w ← Host.get
  match w.coroutines i with
  | none => pure ()
  | some c =>
    if c.status = .polling then
      pure ()
    else
      let since := w.wakes.length
      Host.modify (World.setCoroutine i fun c => { c with status := .polling })
      match ← Host.attempt (pollBody callout i cx since c) with
      | .ok true => pure ()
      | .ok false =>
        Host.modify (World.setCoroutine i fun c => { c with status := .fresh })
      | .error e =>
        Host.modify (World.setCoroutine i fun c => { c with status := .fresh })
        Host.throw e

end Coroutine

/-! ## Driving until idle -/

section Driving

def Operation.activation (o : Operation) : Activation :=
  if o.closing then .cleanup else .operation

/-- `CLOSE_DRIVE_BUDGET`. -/
def closeDriveBudget : Nat := 1000

/-- What a poll of the call comes to: it is suspended, or its drive is over. -/
inductive Turn where
  | suspended (stage : Stage)
  | ended

def suspendAt (cx : Waker) (since : Nat) (branch : Branch) (own : Option Nat) (stage : Stage) :
    Host World Err Turn := do
  Host.modify (World.suspend cx since branch own)
  pure (.suspended stage)

/-- One poll of the future that waits for host futures: is it ready, and the sweep. -/
def pollBlocked (cx : Waker) : Host World Err (Bool × Nat) :=
  withDriver do
    let n ← PendingHostFutures.pollAll callout cx
    let w ← Host.get
    pure (w.pending.hasReady || w.pending.isEmpty, n)

def pollWaiting (i : Nat) (cx : Waker) (delay : Duration) : Host World Err Bool := do
  let w ← Host.get
  match w.operations i with
  | none => pure false
  | some o =>
    let (sleep, ready) ← pollTimer o.sleep delay cx
    Host.modify (World.setOperation i fun o => { o with sleep })
    pure ready

/-- `remaining.map(|left| left - 1)`. -/
def spend (i : Nat) : Host World Err Unit :=
  Host.modify (World.setOperation i fun o =>
    { o with remaining := o.remaining.map fun left => left - 1 })

/-- `drive`, up to its next suspension or to its end. The number of rounds that it makes without
being suspended is bounded. -/
def driveLoop (i : Nat) (cx : Waker) (since : Nat) (activation : Activation) :
    Nat → Host World Err Turn
  | 0 => Host.stuck
  | rounds + 1 => do
    let w ← Host.get
    match (w.operations i).bind Operation.remaining with
    | some 0 => pure .ended
    | _ =>
      match ← advanceWith callout activation with
      | .idle => pure .ended
      | .ready =>
        Host.modify (World.wake cx)
        suspendAt cx since .driveReady none .yielding
      | .blocked =>
        expectDriver
        let (ready, n) ← pollBlocked callout cx
        if ready then
          spend i
          driveLoop i cx since activation rounds
        else
          suspendAt cx since .driveBlocked (some n) .blocked
      | .waiting delay =>
        if ← pollWaiting i cx delay then
          spend i
          driveLoop i cx since activation rounds
        else
          suspendAt cx since .driveWaiting none (.waiting delay)

/-- The start of a call of `close`, whose handle was taken while there was a driver. -/
def beginClose (i : Nat) : Host World Err Unit := do
  enter .cleanup do
    Host.modify fun w => w.log (.closing w.driver.isSome)
    withDriver (python callout "cancel")
  Host.modify (World.setOperation i fun o =>
    { o with remaining := some closeDriveBudget, stage := .running })

def beginRun (i : Nat) : Host World Err Unit := do
  enter .operation (ensure callout)
  Host.modify (World.setOperation i fun o => { o with stage := .running })

def begin (i : Nat) (closing : Bool) : Host World Err Unit :=
  if closing then beginClose callout i else beginRun callout i

/-- `drive`, from where it was suspended. -/
def resumeDrive (i : Nat) (cx : Waker) (since : Nat) (o : Operation) (rounds : Nat) :
    Host World Err Turn :=
  match o.stage with
  | .start => do
    begin callout i o.closing
    driveLoop callout i cx since o.activation rounds
  | .blocked => do
    let (ready, n) ← pollBlocked callout cx
    if ready then
      spend i
      driveLoop callout i cx since o.activation rounds
    else
      suspendAt cx since .driveBlocked (some n) .blocked
  | .waiting delay => do
    if ← pollWaiting i cx delay then
      spend i
      driveLoop callout i cx since o.activation rounds
    else
      suspendAt cx since .driveWaiting none (.waiting delay)
  | _ => do
    spend i
    driveLoop callout i cx since o.activation rounds

/-- A call of `close` that has driven the loop closes the coroutines that are left. -/
def resumeBody (i : Nat) (cx : Waker) (since : Nat) (o : Operation) (rounds : Nat) :
    Host World Err Turn := do
  match ← resumeDrive callout i cx since o rounds with
  | .suspended stage => pure (.suspended stage)
  | .ended =>
    if o.closing then
      enter .cleanup (withDriver (python callout "close"))
      pure .ended
    else
      pure .ended

def Stage.polled : Stage → Stage
  | start => starting
  | _ => running

/-- Where a poll leaves the call. -/
def Turn.stage : Except Err Turn → Stage
  | .ok (.suspended stage) => stage
  | _ => .finished

/-- One poll of a call of `run_until_idle` or `close`. A `close` that has come to its end takes
the driver. -/
def resumeFrom (i : Nat) (cx : Waker) (rounds : Nat) (o : Operation) : Host World Err Unit := do
  let w ← Host.get
  let turn ← Host.bracket
    (World.setOperation i fun o => { o with stage := o.stage.polled })
    (Host.attempt (resumeBody callout i cx w.wakes.length o rounds))
    fun turn => World.setOperation i fun o => { o with stage := Turn.stage turn }
  match turn with
  | .ok (.suspended _) => pure ()
  | .ok .ended => if o.closing then take callout else pure ()
  | .error e => Host.throw e

/-- A call that is in a poll, or over, or whose poll has panicked, is not polled. -/
def resume (i : Nat) (cx : Waker) (rounds : Nat) : Host World Err Unit := do
  let w ← Host.get
  match w.operations i with
  | none => pure ()
  | some o =>
    match o.stage with
    | .starting => pure ()
    | .running => pure ()
    | .finished => pure ()
    | _ => resumeFrom callout i cx rounds o

end Driving

/-! ## The system -/

/-- What may happen: the operations of hosts, at the top or from code that a driver runs, and
what guest code and the world outside do. -/
inductive Op where
  | activity (a : Action)
  | advance
  | spawn
  | poll (i : Nat) (cx : Waker)
  | drop (i : Nat)
  | start (closing : Bool)
  | resume (i : Nat) (cx : Waker) (rounds : Nat)
  | abandon (i : Nat)
  | hostCall
  | «await» (task h : Nat)
  | finishTask (task : Nat)
  | setFuture (h : Nat) (state : FutureState)
  | select (x : Option Number)
  | wake (cx : Waker)

namespace World

def spawn (w : World) : World :=
  { w with
    coroutines := Function.update w.coroutines w.spawned (some .new)
    spawned := w.spawned + 1 }

/-- Dropping a future drops its token. -/
def dropCoroutine (i : Nat) (w : World) : World :=
  match w.coroutines i with
  | none => w
  | some c =>
    if c.status = .polling then
      w
    else
      { w with
        runtime := if c.active then w.runtime.step (.drop w.guest) else w.runtime
        coroutines := Function.update w.coroutines i none }

def start (closing : Bool) (w : World) : World :=
  { w with
    operations := Function.update w.operations w.started (some ⟨closing, none, .new, .start⟩)
    started := w.started + 1 }

/-- A call of `run_until_idle` or `close` is dropped between two polls. -/
def abandon (i : Nat) (w : World) : World :=
  match (w.operations i).map Operation.stage with
  | some .starting => w
  | some .running => w
  | _ => w.setOperation i fun o => { o with stage := .finished }

/-- A task of the guest is done. -/
def finishTask (task : Nat) (w : World) : World :=
  { w.complete fun c => c.task == some task with tasks := Function.update w.tasks task true }

/-- Guest code completes or cancels an asyncio future, unless it is done already. -/
def setFuture (h : Nat) (state : FutureState) (w : World) : World :=
  if h < w.nextFuture ∧ w.futures h = .pending then
    { w with futures := Function.update w.futures h state }
  else
    w

/-- The selector records the last of its arguments. -/
def select (x : Option Number) (w : World) : World := (w.setTimeout x).log (.recorded x)

end World

/-- An asynchronous host function: its body runs while the driver is borrowed. -/
def hostCall : Host World Err Unit := do
  ensure callout
  withDriver do
    let _ ← callout .hostBody
    let _ ← PendingHostFutures.register callout
    pure ()

/-- An operation on the driver. What it leaves unserved is noted when it returns. -/
def operation (m : Host World Err Unit) : Host World Err Unit := do
  Host.modify fun w => w.log (.began w.writing)
  let outcome ← Host.attempt m
  Host.modify fun w => w.log (.returned w.unserved)
  Host.ofExcept outcome

def performOp : Op → Host World Err Unit
  | .activity a => Host.modify (World.withRuntime fun r => r.step a)
  | .advance => operation (advance callout)
  | .spawn => Host.modify World.spawn
  | .poll i cx => operation (Coroutine.poll callout i cx)
  | .drop i => Host.modify (World.dropCoroutine i)
  | .start closing => Host.modify (World.start closing)
  | .resume i cx rounds => operation (resume callout i cx rounds)
  | .abandon i => Host.modify (World.abandon i)
  | .hostCall => operation (hostCall callout)
  | .await task h => Host.modify fun w => { w with awaits := (task, h) :: w.awaits }
  | .finishTask task => Host.modify (World.finishTask task)
  | .setFuture h state => Host.modify (World.setFuture h state)
  | .select x => Host.modify (World.select x)
  | .wake cx => Host.modify (World.wake cx)

/-- The drivers of a guest, against any code that they run. -/
def drivers : System World Err Op Unit Call Answer where
  body := performOp
  tick := World.tick

end GuestPy.Driver
