import GuestPy.Exceptions.Specs
import GuestPy.Guest.Activity
import GuestPy.Library.Program

/-!
# Where hosts and guests meet

The state that is shared by all operations on the guests of one runtime, as far as it
decides which operations run guest code, and with which error they end.

* `Fatal` is a kind of fatal error, and `Fatal.spec` the exception class that `guestpy` has
  for it.
* Ghosts of the `World`: which guests have been closed, how often code of a guest was
  started, which exceptions were raised by an interrupt, and which were made for a fatal
  error.
* A `Settled` records how an operation has ended: what it came to inside, and what its
  caller is given.
-/

namespace GuestPy.Boundary

open Exceptions

/-! ## Fatal errors -/

inductive Fatal where
  | timeout
  | cancelled
  | interrupted
  | closed
  deriving DecidableEq

/-- `Error::is_fatal`. -/
def isFatal : Err → Bool
  | .timeout => true
  | .cancelled => true
  | .interrupted => true
  | .closed => true
  | _ => false

namespace Fatal

def of : Err → Option Fatal
  | .timeout => some timeout
  | .cancelled => some cancelled
  | .interrupted => some interrupted
  | .closed => some closed
  | _ => none

def error : Fatal → Err
  | timeout => .timeout
  | cancelled => .cancelled
  | interrupted => .interrupted
  | closed => .closed

def name : Fatal → Str
  | timeout => "TimeoutError".toList
  | cancelled => "CancelledError".toList
  | interrupted => "InterruptedError".toList
  | closed => "ClosedError".toList

/-- `FatalExceptions::MODULE`. -/
def module : Str := "guestpy".toList

def key (k : Fatal) : ExceptionKey := .named module k.name

def all : List Fatal := [timeout, cancelled, interrupted, closed]

/-- `FatalExceptions::spec`. -/
def spec {types : TypeId → HostException} (k : Fatal) : ExceptionSpec types :=
  .named module k.name (.builtin "BaseException".toList)

theorem of_eq_some {e : Err} {k : Fatal} (h : of e = some k) : e = k.error := by
  cases e <;> cases h <;> rfl

end Fatal

/-! ## Results -/

/-- Notes on a guest exception the typed classes `ids`. -/
def identifyError (ids : List TypeId) : Err → Err
  | .guest e => .guest (e.identify ids)
  | e => e

/-- `AsyncStep::settle`: the end of an iteration is not an error. -/
def settle {α : Type} : Except Err α → Except Err (Option α)
  | .ok a => .ok (some a)
  | .error .stopAsyncIteration => .ok none
  | .error (.guest e) =>
    if e.matches "StopAsyncIteration".toList then .ok none else .error (.guest e)
  | .error e => .error e

/-- The exception of a result. -/
def guestOf {α : Type} : Except Err α → Option GuestException
  | .error (.guest e) => some e
  | _ => none

theorem guestOf_eq_some {α : Type} {r : Except Err α} {e : GuestException} :
    guestOf r = some e ↔ r = .error (.guest e) := by
  unfold guestOf
  split
  · exact ⟨fun h => by cases h; rfl, fun h => by cases h; rfl⟩
  · next hne =>
    constructor
    · exact nofun
    · intro h
      exact absurd h (hne e)

/-- The error alone. -/
def Result.forget {α : Type} : Except Err α → Except Err Unit
  | .ok _ => .ok ()
  | .error e => .error e

/-- What a future returns to its caller, or to the step of an iteration that it belongs to. -/
def handBack (step : Bool) (r : Except Err Unit) : Except Err Unit :=
  if step then Result.forget (settle r) else r

/-- By which way an operation ends: from the interpreter, entered synchronously or in the
poll of a future, or in the conversion of the value that a future has come to. -/
inductive Path where
  | entered
  | polled
  | extracted
  deriving DecidableEq

/-- How an operation has ended.

* `raw` is what it came to inside, and `outcome` what its caller is given. `step` says whether
  that caller is a step of an asynchronous iteration.
* `expired` and `cancelled` are what the guest's policy says by then.
* `noticed` says that a poll has itself found that it has to stop, and `interrupt` that `raw`
  is an exception that an interrupt raised inside guest code.
* `origin` is the fatal error that the exception in `raw` was made for.
* `types` are the typed classes that match the exception in `raw` by name. -/
structure Settled where
  path : Path
  step : Bool
  raw : Except Err Unit
  outcome : Except Err Unit
  expired : Bool
  cancelled : Bool
  noticed : Bool
  interrupt : Bool
  origin : Option Fatal
  types : List TypeId

/-- An error that has been turned into an exception for guest code.

* `made` says whether the object is for this very error, and `origin` which fatal error it was
  made for.
* `proper` says whether its class is the one that `guestpy` has for that fatal error. -/
structure Raised where
  error : Err
  exception : GuestException
  object : ObjectId
  made : Bool
  origin : Option Fatal
  proper : Bool

/-- The operations on a guest. -/
inductive Entry where
  | enter
  | exec
  | eval
  | «import»
  | load (rooted : Bool)
  | advance
  | runUntilIdle
  | cancelDriver
  | dropDriver
  | scope
  | startStep
  | resume
  | poll
  | callback
  deriving DecidableEq

/-- One thing that happened.

* `operated`: an operation on a guest has ended. `shut` says whether the guest had been closed
  when it began, and `ran` whether any code of the guest was started while it lasted.
* `settled`: a call has returned from the interpreter.
* `raised`: a host callback has failed. -/
inductive Event where
  | operated (entry : Entry) (g : GuestId) (shut ran : Bool) (reply : Reply Err Unit)
  | settled (s : Settled)
  | raised (r : Raised)

/-! ## The world -/

/-- A future that drives a coroutine of a guest. -/
structure CoroutineFuture where
  guest : GuestId
  task : Bool
  active : Bool
  polling : Bool

structure World (types : TypeId → HostException) where
  runtime : RuntimeInner
  drivers : GuestId → Bool
  coroutines : Nat → Option CoroutineFuture
  spawned : Nat
  interpreter : Interpreter types
  noneObject : ObjectId
  shut : GuestId → Bool
  runs : GuestId → Nat
  interrupts : ObjectId → Bool
  origins : ObjectId → Option Fatal
  events : List Event
  calls : Nat

namespace World

variable {types : TypeId → HostException}

/-- A new runtime, in which `guestpy` is registered. -/
def new (interpreter : Interpreter types) (noneObject : ObjectId) : World types where
  runtime := .new
  drivers := fun _ => false
  coroutines := fun _ => none
  spawned := 0
  interpreter := { interpreter with cache := Fatal.all.foldl (fun c k => c.absorb k.spec) .new }
  noneObject := noneObject
  shut := fun _ => false
  runs := fun _ => 0
  interrupts := fun _ => false
  origins := fun _ => none
  events := []
  calls := 0

def tick (w : World types) : World types := { w with calls := w.calls + 1 }

def log (e : Event) (w : World types) : World types := { w with events := e :: w.events }

def withRuntime (f : RuntimeInner → RuntimeInner) (w : World types) : World types :=
  { w with runtime := f w.runtime }

def withInterpreter (f : Interpreter types → Interpreter types) (w : World types) :
    World types :=
  { w with interpreter := f w.interpreter }

/-- Code of the guest is started. -/
def start (g : GuestId) (w : World types) : World types :=
  { w with runs := Function.update w.runs g (w.runs g + 1) }

def setDriver (g : GuestId) (present : Bool) (w : World types) : World types :=
  { w with drivers := Function.update w.drivers g present }

def setCoroutine (i : Nat) (f : CoroutineFuture → CoroutineFuture) (w : World types) :
    World types :=
  { w with coroutines := Function.update w.coroutines i ((w.coroutines i).map f) }

def spawn (g : GuestId) (w : World types) : World types :=
  { w with
    coroutines := Function.update w.coroutines w.spawned (some ⟨g, false, false, false⟩)
    spawned := w.spawned + 1 }

/-- `Cell::set(true)`, and the ghost of it. -/
def markClosed (g : GuestId) (w : World types) : World types :=
  { w with runtime := w.runtime.step (.close g), shut := Function.update w.shut g true }

/-- A guest that is gone is as good as closed. -/
def isClosed (w : World types) (g : GuestId) : Bool :=
  match w.runtime.guests g with
  | some inner => inner.closed
  | none => true

def describe (w : World types) (x : ObjectId) : GuestException :=
  .describe w.interpreter.heap x none

/-! ### What the policy of a guest says -/

def expired (w : World types) (g : GuestId) : Bool :=
  match w.runtime.guests g with
  | some inner => inner.activity.policy.deadline.expired (w.runtime.elapsed inner)
  | none => false

def cancelled (w : World types) (g : GuestId) : Bool :=
  match w.runtime.guests g with
  | some inner => inner.activity.policy.isCancelled
  | none => false

/-! ### What is known of an error -/

/-- The object of an exception. -/
def objectOf {α : Type} (r : Except Err α) : Option ObjectId :=
  (guestOf r).bind GuestException.object

/-- Is the object of the class that `guestpy` has for the fatal error that it was made for? -/
def isProper (w : World types) (x : ObjectId) : Bool :=
  match w.origins x with
  | some k =>
    w.interpreter.cache.realisedException k.key == some (w.interpreter.heap.objects x).class
  | none => false

def originOf {α : Type} (w : World types) (r : Except Err α) : Option Fatal :=
  (objectOf r).bind w.origins

def isInterrupt {α : Type} (w : World types) (r : Except Err α) : Bool :=
  (objectOf r).any w.interrupts

/-- The typed classes that an exception matches by name. -/
def typesOf {α : Type} (w : World types) (r : Except Err α) : List TypeId :=
  match guestOf r with
  | some e => w.interpreter.cache.exceptionTypes e
  | none => []

def settled {α β : Type} (w : World types) (g : GuestId) (path : Path) (step noticed : Bool)
    (raw : Except Err α) (outcome : Except Err β) : Event :=
  .settled
    { path, step, noticed
      raw := Result.forget raw
      outcome := Result.forget outcome
      expired := w.expired g
      cancelled := w.cancelled g
      interrupt := w.isInterrupt raw
      origin := w.originOf raw
      types := w.typesOf raw }

end World

/-! ## Calls out -/

/-- The moments at which other code may run.

* `python`: code of a guest.
* `closure` and `body`: host code that was given to `enter`, or is called back.
* `convert`: the conversion of a guest value for the host.
* `pollHosts`: the host futures of a guest's driver are polled.
* `check`: the engine is asked whether it was interrupted, after `reset` has cleared that.
* `construct`: an exception class is called. -/
inductive Call where
  | python (g : GuestId) (what : String)
  | closure (g : GuestId)
  | body (g : GuestId)
  | convert (g : GuestId)
  | pollHosts (g : GuestId)
  | check
  | reset
  | construct (c : ObjectId)

/-- What comes back from a call that the interpreter has carried out: a value, or an exception. -/
inductive Answer where
  | value (n : Nat)
  | raised (x : ObjectId)

instance : Inhabited Answer := ⟨.value 0⟩

end GuestPy.Boundary
