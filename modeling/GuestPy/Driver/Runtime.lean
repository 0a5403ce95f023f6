import GuestPy.Driver.HostFutures

/-!
# The driver slot and the event loop

The slot of a guest holds its driver, behind a cell that counts borrows: a shared borrow
lasts while the driver is used, an exclusive one while the slot is written. An assertion
about the slot that fails is logged before it unwinds.

* `withDriver` uses the driver, `ensure` fills an empty slot, `take` empties it.
* `EventLoop.step` runs the loop once and reads what its selector was asked to wait for.
* `AsyncRuntime.advance` publishes, then makes such a step.
-/

namespace GuestPy.Driver

namespace World

def borrow (w : World) : World := { w with borrows := w.borrows + 1 }

def unborrow (w : World) : World := { w with borrows := w.borrows - 1 }

def install (w : World) : World := { w with driver := some .new, writing := false }

def vacate (w : World) : World := { w with driver := none }

def startWriting (w : World) : World := { w with writing := true }

/-- Does any call of `run_until_idle` or `close` count on the driver? -/
def inUse (w : World) : Bool :=
  (List.range w.started).any fun i => (w.operations i).any fun o => o.stage.isOpen

/-- The number that the selector was asked for last. -/
def timeout (w : World) : Option Number := w.driver.bind fun d => d.eventLoop.selectorTimeout

def setTimeout (x : Option Number) (w : World) : World :=
  w.withLoop fun l => { l with selectorTimeout := x }

end World

variable {α : Type}

/-- A failed assertion. -/
def panicBecause (cause : Cause) : Host World Err α := do
  Host.modify (World.log (.panicked cause))
  Host.panic

namespace AsyncDriverSlot

/-- `is_initialized`. -/
def isInitialized : Host World Err Bool := do
  let w ← Host.get
  if w.writing then panicBecause .borrowed else pure w.driver.isSome

/-- `ActiveAsyncDriver::driver`: uses the driver under a shared borrow. -/
def withDriver (m : Host World Err α) : Host World Err α := do
  let w ← Host.get
  if w.writing then
    panicBecause .borrowed
  else if w.driver.isSome then
    Host.bind (Host.modify World.borrow) fun _ => Host.guarded m World.unborrow
  else
    panicBecause .absent

/-- `.expect("async driver initialized")`. -/
def expectDriver : Host World Err Unit := do
  if ← isInitialized then pure () else panicBecause .absent

variable (callout : Call → Host World Err Answer)

/-- Writes a new driver into the slot. One that is there by now is dropped under the
exclusive borrow. -/
def assign : Host World Err Unit := do
  let w ← Host.get
  if w.borrows ≠ 0 ∨ w.writing = true then
    panicBecause .borrowed
  else if w.driver.isSome then
    Host.bind (Host.modify World.startWriting) fun _ =>
      Host.guarded
        (do
          let _ ← Host.attempt (callout .dropDriver)
          pure ())
        World.install
  else
    Host.modify World.install

/-- `ensure`: the driver is made before the slot is borrowed. -/
def ensure : Host World Err Unit := do
  if ← isInitialized then
    pure ()
  else
    let _ ← callout .create
    assign callout

/-- `take`; the driver is dropped after the borrow has ended. -/
def take : Host World Err Unit := do
  let w ← Host.get
  Host.modify (World.log (.taking (decide (w.borrows ≠ 0)) w.inUse))
  if w.borrows ≠ 0 ∨ w.writing = true then
    panicBecause .borrowed
  else
    Host.modify World.vacate
    let _ ← Host.attempt (callout .dropDriver)
    pure ()

end AsyncDriverSlot

namespace EventLoop

variable (callout : Call → Host World Err Answer)

open PendingHostFutures (python)

def setRunningLoop : Host World Err Unit := python callout "_set_running_loop"

def setup (started : Bool) : Host World Err Unit :=
  if started then
    setRunningLoop callout
  else do
    python callout "_run_forever_setup"
    Host.modify (World.withLoop fun l => { l with started := true })

/-- What the selector was asked to wait for. -/
def progress : Option Number → Host World Err Progress
  | none => pure .idle
  | some delay =>
    if delay.nonpos then
      pure .ready
    else
      match delay.toDuration with
      | some duration => pure (.waiting duration)
      | none => panicBecause .duration

def step : Host World Err Progress := do
  let w ← Host.get
  setup callout (w.driver.any fun d => d.eventLoop.started)
  Host.modify (World.setTimeout none)
  let _ ← callout .runOnce
  let w ← Host.get
  progress w.timeout

end EventLoop

namespace AsyncRuntime

variable (callout : Call → Host World Err Answer)

/-- `AsyncDriver::advance`: an idle loop is blocked while host futures are left. -/
def advance : Host World Err Progress := do
  PendingHostFutures.publish callout
  let progress ← EventLoop.step callout
  let w ← Host.get
  match progress with
  | .idle => if w.pending.isEmpty then pure .idle else pure .blocked
  | progress => pure progress

end AsyncRuntime

end GuestPy.Driver
