import GuestPy.Boundary.Raising

/-!
# Operations on guests

Every way in which a host, or code that a guest calls, gets at a guest.

* `enterWith` is the way in for synchronous operations, `guestEnterWith` the one for host
  code that is called back.
* `CoroutineFuture.poll` is the way in for futures. It takes an activation token itself, and
  classifies the error of an interrupted poll.
* `advanceWith` is one round of a drive. A drive that was suspended goes on with another one.
* `Op` lists what may happen, and `boundary` is the system.

Wakers and timers, and the borrows of the driver's slot, are left out here.
-/

namespace GuestPy.Boundary

open Exceptions

variable {types : TypeId → HostException} {α : Type}

/-! ## Entering -/

/-- Runs `m` under an activation token. -/
def underToken (g : GuestId) (r : RuntimeInner) (m : Host (World types) Err α) :
    Host (World types) Err α :=
  Host.bind (Host.modify (World.withRuntime fun _ => r)) fun _ =>
    Host.guarded m (World.withRuntime fun r => r.step (.drop g))

/-- A token for the time of `m`. -/
def withToken (g : GuestId) (activation : Activation) (m : Host (World types) Err α) :
    Host (World types) Err α := do
  let w ← Host.get
  match w.runtime.get g with
  | .error e => Host.throw e
  | .ok inner =>
    match ActiveGuest.new w.runtime g inner activation with
    | .error e => Host.throw e
    | .ok r => underToken g r m

/-- `B::enter`, and the types of its error. -/
def enterBackend (g : GuestId) (m : Host (World types) Err α) : Host (World types) Err α := do
  let raw ← Host.attempt m
  let w ← Host.get
  let outcome := raw.mapError (resolveExceptionTypes w.interpreter.cache)
  Host.modify (World.log (w.settled g .entered false false raw outcome))
  Host.ofExcept outcome

/-- `enter_with`. -/
def enterWith (g : GuestId) (activation : Activation) (m : Host (World types) Err α) :
    Host (World types) Err α := do
  let w ← Host.get
  match w.runtime.get g with
  | .error e => Host.throw e
  | .ok inner =>
    if inner.closed then Host.throw .closed
    else if w.runtime.isInnermost g then enterBackend g m
    else withToken g activation (enterBackend g m)

section Calls

variable (callout : Call → Host (World types) Err Answer)

/-- Runs code of a guest. It returns a value, or an exception that is described here, unless
the backend fails. -/
def python (g : GuestId) (what : String) : Host (World types) Err Nat := do
  Host.modify (World.start g)
  match ← Host.attempt (callout (.python g what)) with
  | .ok (.value n) => pure n
  | .ok (.raised x) =>
    let w ← Host.get
    Host.throw (.guest (w.describe x))
  | .error _ => Host.throw (.engine what)

/-- Runs host code. -/
def hostCode (call : Call) : Host (World types) Err Unit := do
  let _ ← callout call
  pure ()

/-! ## Synchronous operations -/

def exec (g : GuestId) : Host (World types) Err Unit :=
  enterWith g .operation do
    let _ ← python callout g "exec"
    pure ()

def eval (g : GuestId) : Host (World types) Err Unit :=
  enterWith g .operation do
    let _ ← python callout g "eval"
    hostCode callout (.convert g)

/-- `import`: host code that realises the module, and runs its code. -/
def «import» (g : GuestId) : Host (World types) Err Unit :=
  enterWith g .operation (hostCode callout (.closure g))

/-- `load`. A bundle without a single root is refused first. -/
def load (g : GuestId) (rooted : Bool) (roots : Nat) : Host (World types) Err Unit := do
  if rooted then
    enterWith g .operation (hostCode callout (.closure g))
    «import» callout g
  else
    Host.throw (.ambiguousBundle roots)

/-- `close`. -/
def close (g : GuestId) : Host (World types) Err Unit := do
  let w ← Host.get
  if w.isClosed g then
    pure ()
  else if w.drivers g then
    Host.throw (.unexpected "cannot close guest while its async driver is active")
  else
    enterWith g .cleanup do
      let _ ← python callout g "clear"
      pure ()
    Host.modify (World.markClosed g)

/-- `scope`, up to its first suspension. Its token is dropped when it ends. -/
def scope (g : GuestId) : Host (World types) Err Unit := do
  let w ← Host.get
  match w.runtime.get g with
  | .error e => Host.throw e
  | .ok inner =>
    if inner.closed then Host.throw .closed
    else
      match ActiveGuest.new w.runtime g inner .operation with
      | .error e => Host.throw e
      | .ok r => Host.modify (World.withRuntime fun _ => r)

/-! ## Host code that is called back -/

/-- `guest_enter_with`. -/
def guestEnterWith (g : GuestId) (inner : GuestInner) (m : Host (World types) Err Unit) :
    Host (World types) Err Unit := do
  let w ← Host.get
  match ActiveGuest.new w.runtime g inner .operation with
  | .error e => raiseError callout .runtime e
  | .ok r =>
    underToken g r do
      match ← Host.attempt m with
      | .ok _ => pure ()
      | .error e => raiseError callout .guest e

/-- `raw_body`, and the body of the import hook for the guest that it has chosen. -/
def callback (g : GuestId) : Host (World types) Err Unit := do
  let w ← Host.get
  match w.runtime.get g with
  | .error e => raiseError callout .runtime e
  | .ok inner => guestEnterWith callout g inner (hostCode callout (.body g))

/-! ## The driver -/

def ensureDriver (g : GuestId) : Host (World types) Err Unit := do
  let w ← Host.get
  if w.drivers g then
    pure ()
  else
    let _ ← python callout g "driver"
    Host.modify (World.setDriver g true)

/-- `.expect("async driver initialized")`. -/
def expectDriver (g : GuestId) : Host (World types) Err Unit := do
  let w ← Host.get
  if w.drivers g then pure () else Host.panic

/-- Polls the host futures, if there is a driver. -/
def pollHosts (g : GuestId) : Host (World types) Err Unit := do
  let w ← Host.get
  if w.drivers g then
    let _ ← Host.attempt (callout (.pollHosts g))
    pure ()
  else
    pure ()

def advanceEntered (g : GuestId) : Host (World types) Err Unit := do
  expectDriver g
  let advanced ← Host.attempt (python callout g "advance")
  let restored ← Host.attempt (python callout g "_set_running_loop")
  let _ ← Host.ofExcept advanced
  let _ ← Host.ofExcept restored
  pure ()

/-- `advance_with`. -/
def advanceWith (g : GuestId) (activation : Activation) : Host (World types) Err Unit :=
  withToken g activation do
    expectDriver g
    pollHosts callout g
    enterWith g activation (advanceEntered callout g)

/-- `Guest::advance`, and `run_until_idle` up to its first suspension. -/
def advance (g : GuestId) : Host (World types) Err Unit := do
  enterWith g .operation (ensureDriver callout g)
  advanceWith callout g .operation

/-- `drive`, from where it was suspended: waiting for host futures, or not. -/
def resume (g : GuestId) (activation : Activation) (blocked : Bool) :
    Host (World types) Err Unit := do
  if blocked then
    expectDriver g
    pollHosts callout g
    advanceWith callout g activation
  else
    advanceWith callout g activation

/-- `ActiveAsyncDriver::close`, up to its drive. -/
def cancelDriver (g : GuestId) : Host (World types) Err Unit :=
  enterWith g .cleanup do
    expectDriver g
    let _ ← python callout g "cancel"
    pure ()

/-- `ActiveAsyncDriver::close`, after its drive. -/
def dropDriver (g : GuestId) : Host (World types) Err Unit := do
  enterWith g .cleanup do
    expectDriver g
    let _ ← python callout g "close"
    pure ()
  Host.modify (World.setDriver g false)

/-! ## Futures -/

namespace CoroutineFuture

/-- `begin_operation`, for a future that holds no token yet. -/
def activate (i : Nat) (c : CoroutineFuture) : Host (World types) Err Unit := do
  let w ← Host.get
  if c.active then
    pure ()
  else
    match w.runtime.get c.guest with
    | .error e => Host.throw e
    | .ok inner =>
      match ActiveGuest.new w.runtime c.guest inner .operation with
      | .error e => Host.throw e
      | .ok r =>
        Host.modify fun w =>
          (w.withRuntime fun _ => r).setCoroutine i fun c => { c with active := true }
        let _ ← Host.attempt (callout .reset)
        pure ()

/-- `prepare`. -/
def prepare (i : Nat) (c : CoroutineFuture) : Host (World types) Err Unit :=
  if c.task then
    pure ()
  else do
    ensureDriver callout c.guest
    let _ ← python callout c.guest "ensure_future"
    Host.modify (World.setCoroutine i fun c => { c with task := true })

/-- `task_state`: is the task done? Its result may be an exception. -/
def taskState (g : GuestId) : Host (World types) Err Bool := do
  let done ← python callout g "done"
  if done ≠ 0 then
    let _ ← python callout g "result"
    pure true
  else
    pure false

/-- `stepped`. Says whether the task is done. -/
def stepped (i : Nat) (c : CoroutineFuture) : Host (World types) Err Bool := do
  prepare callout i c
  ensureDriver callout c.guest
  let _ ← python callout c.guest "advance"
  taskState callout c.guest

/-- What a poll comes to inside the interpreter. -/
inductive Turn where
  | stopped (e : Err)
  | stepped (r : Except Err Bool)

def Turn.result : Turn → Except Err Bool
  | stopped e => .error e
  | stepped r => r

/-- Has the guest been stopped? An engine that says so is asked before the policy. -/
def mustStop (inner : GuestInner) (elapsed : Duration) (interrupted : Bool) : Option Err :=
  match inner.activity.policy.classify elapsed (if interrupted then .error .interrupted else .ok ()) with
  | .error e => some e
  | .ok () =>
    if inner.activity.policy.shouldAbort elapsed then
      some (inner.activity.policy.abortError elapsed)
    else
      none

/-- `B::check`, which fails with nothing but an interruption. -/
def check : Host (World types) Err Bool := do
  match ← Host.attempt (callout .check) with
  | .ok _ => pure false
  | .error _ => pure true

/-- What a poll does inside the interpreter. -/
def entered (i : Nat) (c : CoroutineFuture) : Host (World types) Err Turn := do
  let interrupted ← check callout
  let w ← Host.get
  match (w.runtime.guests c.guest).bind fun inner =>
      mustStop inner (w.runtime.elapsed inner) interrupted with
  | some e => pure (.stopped e)
  | none =>
    let stepped ← Host.attempt (stepped callout i c)
    let restored ← Host.attempt (python callout c.guest "_set_running_loop")
    match stepped, restored with
    | .error e, _ => pure (.stepped (.error e))
    | .ok _, .error e => pure (.stepped (.error e))
    | .ok done, .ok _ => pure (.stepped (.ok done))

/-- `classify`, by the guest's policy as it is now. -/
def classify (w : World types) (g : GuestId) (r : Except Err α) : Except Err α :=
  match w.runtime.guests g with
  | some inner => inner.activity.policy.classify (w.runtime.elapsed inner) r
  | none => r

/-- The future, or the step of an iteration that it belongs to, returns. -/
def finish (g : GuestId) (path : Path) (step noticed : Bool) (raw outcome : Except Err Unit) :
    Host (World types) Err Unit := do
  let w ← Host.get
  Host.modify (World.log (w.settled g path step noticed raw (handBack step outcome)))
  Host.ofExcept (handBack step outcome)

def Turn.isStopped : Turn → Bool
  | stopped _ => true
  | stepped _ => false

/-- The end of a poll: an error, a value that is still to be converted, or nothing yet. -/
def conclude (g : GuestId) (step : Bool) (turn : Turn) : Host (World types) Err Unit := do
  let w ← Host.get
  match classify w g turn.result with
  | .error e =>
    finish g .polled step turn.isStopped (Result.forget turn.result) (.error e)
  | .ok true =>
    let extracted ← Host.attempt (hostCode callout (.convert g))
    finish g .extracted step false extracted extracted
  | .ok false => pollHosts callout g

def pollBody (i : Nat) (step : Bool) (c : CoroutineFuture) : Host (World types) Err Unit := do
  activate callout i c
  pollHosts callout c.guest
  let turn ← entered callout i c
  conclude callout c.guest step turn

/-- `poll`. A future that is in a poll, or whose poll has panicked, is not polled. -/
def poll (i : Nat) (step : Bool) (c : CoroutineFuture) : Host (World types) Err Unit := do
  Host.modify (World.setCoroutine i fun c => { c with polling := true })
  let r ← Host.attempt (pollBody callout i step c)
  Host.modify (World.setCoroutine i fun c => { c with polling := false })
  Host.ofExcept r

end CoroutineFuture

/-- A step of an asynchronous iteration: the call that makes its coroutine. If that fails, the
step fails with the same error. -/
def startStep (g : GuestId) : Host (World types) Err Unit := do
  match ← Host.attempt (enterWith g .operation (python callout g "__anext__")) with
  | .ok _ => Host.modify (World.spawn g)
  | .error e => Host.ofExcept (handBack true (.error e))

end Calls

/-! ## The system -/

/-- What may happen: the operations of hosts, and what host and guest code do while they run.

* `within` and `hostCall` are what host code can do that has entered a guest: run code of it,
  and call one of its asynchronous host functions.
* `interrupt` is an interrupt that is raised in running guest code, as the object given.
* `allocate` and `assign` are what guest code does to objects, `absorb` and `realise` what
  modules do that are bound and imported. -/
inductive Op (types : TypeId → HostException) where
  | activity (a : Action)
  | enter (g : GuestId)
  | exec (g : GuestId)
  | eval (g : GuestId)
  | «import» (g : GuestId)
  | load (g : GuestId) (rooted : Bool) (roots : Nat)
  | advance (g : GuestId)
  | runUntilIdle (g : GuestId)
  | resume (g : GuestId) (activation : Activation) (blocked : Bool)
  | cancelDriver (g : GuestId)
  | dropDriver (g : GuestId)
  | scope (g : GuestId)
  | close (g : GuestId)
  | spawn (g : GuestId)
  | poll (i : Nat) (step : Bool)
  | drop (i : Nat)
  | startStep (g : GuestId)
  | callback (g : GuestId)
  | within (g : GuestId)
  | hostCall (g : GuestId)
  | interrupt (o : ObjectId → Object)
  | allocate (o : ObjectId → Object)
  | assign (x : ObjectId) (f : Object → Object)
  | absorb (spec : ExceptionSpec types)
  | realise (depth : Nat) (key : ExceptionKey)

namespace World

/-- Dropping a future drops its token. -/
def dropCoroutine (i : Nat) (w : World types) : World types :=
  match w.coroutines i with
  | none => w
  | some c =>
    if c.polling then
      w
    else
      { w.withRuntime fun r => if c.active then r.step (.drop c.guest) else r with
        coroutines := Function.update w.coroutines i none }

/-- An interrupt is raised as a new object. -/
def interrupt (o : ObjectId → Object) (w : World types) : World types :=
  { w with
    interpreter := w.interpreter.withHeap fun h => (h.allocate o).2
    interrupts := Function.update w.interrupts w.interpreter.heap.next true }

def allocate (o : ObjectId → Object) : World types → World types :=
  withInterpreter (Interpreter.withHeap fun h => (h.allocate o).2)

def assign (x : ObjectId) (f : Object → Object) : World types → World types :=
  withInterpreter (Interpreter.withHeap fun h => h.assign x f)

def absorb (spec : ExceptionSpec types) : World types → World types :=
  withInterpreter fun i => { i with cache := i.cache.absorb spec }

end World

/-- Hands a reply on. -/
def replay : Reply Err α → Host (World types) Err α
  | .ok a => pure a
  | .err e => Host.throw e
  | .panic => Host.panic

/-- An operation on a guest. When it ends, however it does, that is noted. -/
def operation (entry : Entry) (g : GuestId) (m : Host (World types) Err Unit) :
    Host (World types) Err Unit := do
  let before ← Host.get
  let reply ← Host.observe m
  Host.modify fun w =>
    w.log (.operated entry g (before.shut g) (decide (w.runs g ≠ before.runs g)) reply)
  replay reply

variable (callout : Call → Host (World types) Err Answer)

def performOp : Op types → Host (World types) Err Unit
  | .activity a => Host.modify (World.withRuntime fun r => r.step a)
  | .enter g => operation .enter g (enterWith g .operation (hostCode callout (.closure g)))
  | .exec g => operation .exec g (exec callout g)
  | .eval g => operation .eval g (eval callout g)
  | .import g => operation .import g («import» callout g)
  | .load g rooted roots => operation (.load rooted) g (load callout g rooted roots)
  | .advance g => operation .advance g (advance callout g)
  | .runUntilIdle g => operation .runUntilIdle g (advance callout g)
  | .resume g activation blocked => operation .resume g (resume callout g activation blocked)
  | .cancelDriver g => operation .cancelDriver g (cancelDriver callout g)
  | .dropDriver g => operation .dropDriver g (dropDriver callout g)
  | .scope g => operation .scope g (scope g)
  | .close g => close callout g
  | .spawn g => Host.modify (World.spawn g)
  | .poll i step => do
    let w ← Host.get
    match w.coroutines i with
    | none => pure ()
    | some c =>
      if c.polling then pure ()
      else operation .poll c.guest (CoroutineFuture.poll callout i step c)
  | .drop i => Host.modify (World.dropCoroutine i)
  | .startStep g => operation .startStep g (startStep callout g)
  | .callback g => operation .callback g (callback callout g)
  | .within g => do
    let _ ← python callout g "call"
    pure ()
  | .hostCall g => do
    ensureDriver callout g
    hostCode callout (.body g)
  | .interrupt o => Host.modify (World.interrupt o)
  | .allocate o => Host.modify (World.allocate o)
  | .assign x f => Host.modify (World.assign x f)
  | .absorb spec => Host.modify (World.absorb spec)
  | .realise depth key => do
    let _ ← onInterpreter (ExceptionRealiser.host depth key)
    pure ()

/-- The guests of a runtime, against any code that they and their hosts run. -/
def boundary (types : TypeId → HostException) :
    System (World types) Err (Op types) Unit Call Answer where
  body := performOp
  tick := World.tick

end GuestPy.Boundary
