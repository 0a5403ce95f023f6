import GuestPy.Driver.World

/-!
# Host futures of a driver

A driver polls its host futures in batches. A batch is moved out before it is polled, so
that the futures may register others; what is still pending goes back in front of those,
and what has completed is queued until it is published.

`publish` completes the asyncio futures that wait for the queued results. It drains the
queue first, and stops at the first step that fails.
-/

namespace GuestPy.Driver

namespace World

/-- `take_entries`, for a sweep with the waker `cx`. -/
def takeEntries (cx : Waker) (w : World) : World :=
  (w.withPending fun s => { s with entries := [], polling := s.polling + s.entries.length })
    |>.withLedger fun l =>
      { l with
        sweeps := l.sweeps + 1
        sweepAt := Function.update l.sweepAt l.sweeps ⟨cx, w.nextFuture, l.flying⟩
        flying := w.pending.entries ++ l.flying }

/-- A host future is polled by a sweep. -/
def give (h : Nat) (cx : Waker) (sweep : Nat) (w : World) : World :=
  (w.log (.polled (w.ledger.finished h))).withLedger fun l =>
    { l with
      held := Function.update l.held h (some cx)
      sweepOf := Function.update l.sweepOf h (some sweep) }

/-- A host future has completed, and with it what waits for it. -/
def finish (h : Nat) (w : World) : World :=
  (w.complete fun c => w.awaits.any fun p => p.2 == h && c.task == some p.1)
    |>.withLedger fun l => { l with finished := Function.update l.finished h true }

/-- `settle`; the entries that are queued get the next tickets. -/
def settle (entries : List Nat) (ready : List (Nat × Except Err Nat)) (w : World) : World :=
  ((w.log (.settled w.pending.polling (entries.length + ready.length))).withPending fun s =>
      { entries := entries ++ s.entries
        polling := s.polling - (entries.length + ready.length)
        ready := s.ready ++ ready.zipIdx.map fun p =>
          ⟨w.ledger.tickets + p.2, p.1.1, p.1.2⟩ })
    |>.withLedger fun l =>
      { l with
        tickets := l.tickets + ready.length
        flying := l.flying.drop (entries.length + ready.length) }

/-- `drain_ready`. -/
def drainReady (w : World) : World :=
  (w.withPending fun s => { s with ready := [] })
    |>.withLedger fun l =>
      { l with
        drained := fun ticket =>
          l.drained ticket || w.pending.ready.any fun c => c.ticket == ticket
        publishing := w.pending.ready.map Completed.future ++ l.publishing }

def register (w : World) : World :=
  { w.withPending fun s => { s with entries := s.entries ++ [w.nextFuture] } with
    nextFuture := w.nextFuture + 1 }

/-- A result or an exception is set on an asyncio future. -/
def resolve (h : Nat) (w : World) : World :=
  { w.withLedger fun l =>
      { l with resolutions := Function.update l.resolutions h (l.resolutions h + 1) } with
    futures := Function.update w.futures h .done }

/-- What has become of an entry that was drained. -/
def fate (w : World) (c : Completed) : Fate where
  done := decide (w.futures c.future ≠ .pending)
  resolutions := w.ledger.resolutions c.future
  queued := w.pending.ready.any fun c' => c'.ticket == c.ticket

/-- A publish ends. What it leaves is published if its asyncio future is done. -/
def endPublish (handled left : List Completed) (w : World) : World :=
  (w.log (.published (handled.map w.fate) (left.map w.fate))).withLedger fun l =>
    { l with
      publishing := l.publishing.drop (handled.length + left.length)
      published :=
        ((handled ++ left).map Completed.future).filter (fun h => decide (w.futures h ≠ .pending))
          ++ l.published }

end World

namespace PendingHostFutures

variable (callout : Call → Host World Err Answer)

def python (what : String) : Host World Err Unit := do
  let _ ← callout (.python what)
  pure ()

def register : Host World Err Nat := do
  python callout "create_future"
  let w ← Host.get
  Host.modify World.register
  pure w.nextFuture

/-- Polls one host future. A poll has no error of its own. -/
def pollHost (h : Nat) (cx : Waker) (sweep : Nat) :
    Host World Err (Option (Except Err Nat)) := do
  Host.modify (World.give h cx sweep)
  match ← Host.attempt (callout (.pollHost h cx)) with
  | .ok answer => pure answer.outcome
  | .error e => pure (some (.error e))

/-- Polls a batch: the entries that are still pending, and the outcomes of the others. -/
def pollEntries (cx : Waker) (sweep : Nat) :
    List Nat → Host World Err (List Nat × List (Nat × Except Err Nat))
  | [] => pure ([], [])
  | h :: rest => do
    match ← pollHost callout h cx sweep with
    | none =>
      let (entries, ready) ← pollEntries cx sweep rest
      pure (h :: entries, ready)
    | some outcome =>
      Host.modify (World.finish h)
      let (entries, ready) ← pollEntries cx sweep rest
      pure (entries, (h, outcome) :: ready)

/-- `poll_all`. Returns the number of the sweep. -/
def pollAll (cx : Waker) : Host World Err Nat := do
  let w ← Host.get
  Host.modify (World.takeEntries cx)
  let (entries, ready) ← pollEntries callout cx w.ledger.sweeps w.pending.entries
  Host.modify (World.settle entries ready)
  pure w.ledger.sweeps

/-- Sets a result or an exception. An asyncio future that is done refuses it, and the
callbacks it schedules are the loop's own. -/
def set (h : Nat) : Host World Err Unit := do
  let w ← Host.get
  if w.futures h = .pending then
    Host.modify (World.resolve h)
    python callout "call_soon"
  else
    Host.throw (.guest "InvalidStateError")

/-- The steps of `publish` for one entry, once its asyncio future is not cancelled. -/
def deliver (c : Completed) : Host World Err Unit :=
  match c.outcome with
  | .ok value => do
    python callout "set_result"
    let _ ← callout (.convert value)
    python callout "call"
    set callout c.future
  | .error e => do
    python callout "set_exception"
    let _ ← Host.attempt (callout (.exception e))
    python callout "call"
    set callout c.future

def publishEntry (c : Completed) : Host World Err Unit := do
  python callout "cancelled"
  let w ← Host.get
  if w.futures c.future = .cancelled then
    pure ()
  else
    deliver callout c

/-- Publishes entries up to the first failure: the entries handled, those left then, and the
error. -/
def publishEntries :
    List Completed → Host World Err (List Completed × List Completed × Option Err)
  | [] => pure ([], [], none)
  | c :: rest => do
    match ← Host.attempt (publishEntry callout c) with
    | .ok _ =>
      let (handled, left, failed) ← publishEntries rest
      pure (c :: handled, left, failed)
    | .error e => pure ([], c :: rest, some e)

/-- `publish`. -/
def publish : Host World Err Unit := do
  let w ← Host.get
  Host.modify World.drainReady
  let (handled, left, failed) ← publishEntries callout w.pending.ready
  Host.modify (World.endPublish handled left)
  match failed with
  | none => pure ()
  | some e => Host.throw e

end PendingHostFutures

end GuestPy.Driver
