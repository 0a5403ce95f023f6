import GuestPy.Errors

/-!
# Execution policies

A policy holds the budget of a guest, its cancellation signal and the deadline that the
budget is turned into when an operation begins.

* `Duration` is `std::time::Duration`: whole nanoseconds below a fixed bound.
* A `Deadline` is one 64-bit number of nanoseconds after its base. The largest such number
  stands for "not armed".
* Time enters as the duration `elapsed` since the base of the deadline.
-/

namespace GuestPy

/-! ## Durations -/

/-- The nanoseconds of the longest duration: `u64::MAX` seconds and 999999999 nanoseconds. -/
def Duration.maxNanos : Nat := 2 ^ 64 * 10 ^ 9 - 1

/-- A span of time, by its nanoseconds. -/
structure Duration where
  asNanos : Nat
  bounded : asNanos ≤ Duration.maxNanos

namespace Duration

/-- The longest duration stands for all longer ones. -/
def saturate (nanos : Nat) : Duration := ⟨min nanos maxNanos, Nat.min_le_right _ _⟩

/-- `Duration::from_millis`. -/
def fromMillis (millis : Nat) : Duration := saturate (millis * 10 ^ 6)

/-- `Duration::saturating_add`. -/
def saturatingAdd (a b : Duration) : Duration := saturate (a.asNanos + b.asNanos)

/-- The shorter of two durations, and the first if they are equally long. -/
def min (a b : Duration) : Duration := if b.asNanos < a.asNanos then b else a

@[ext] theorem ext {a b : Duration} (h : a.asNanos = b.asNanos) : a = b := by
  cases a
  cases b
  cases h
  rfl

theorem min_le_left (a b : Duration) : (a.min b).asNanos ≤ a.asNanos := by
  unfold min
  split
  · next h => exact Nat.le_of_lt h
  · exact Nat.le_refl _

theorem min_le_right (a b : Duration) : (a.min b).asNanos ≤ b.asNanos := by
  unfold min
  split
  · exact Nat.le_refl _
  · next h => exact Nat.le_of_not_lt h

end Duration

/-! ## Deadlines -/

/-- The number that stands for "not armed". -/
def u64Max : Nat := 2 ^ 64 - 1

/-- The moment a budget runs out, in nanoseconds after the base of the deadline. -/
structure Deadline where
  «at» : Nat
  bounded : «at» ≤ u64Max

namespace Deadline

/-- A deadline that is not armed. -/
def new : Deadline := ⟨u64Max, Nat.le_refl _⟩

/-- Arms the deadline. A budget that ends too late for 64 bits gives an unarmed one. -/
def arm (elapsed budget : Duration) : Deadline :=
  ⟨Nat.min (elapsed.saturatingAdd budget).asNanos u64Max, Nat.min_le_right _ _⟩

/-- What a deadline is when it is disarmed. -/
def disarm : Deadline := new

/-- Is there a moment at which the budget runs out? -/
def isArmed (d : Deadline) : Bool := d.at != u64Max

/-- Has the budget run out? The elapsed nanoseconds are cast to 64 bits before the comparison. -/
def expired (d : Deadline) (elapsed : Duration) : Bool :=
  d.isArmed && decide (d.at ≤ elapsed.asNanos % 2 ^ 64)

/-- The time that is left until an armed deadline. -/
def remaining (d : Deadline) (elapsed : Duration) : Option Duration :=
  if d.isArmed then
    some (Duration.saturate (d.at - elapsed.asNanos % 2 ^ 64))
  else
    none

end Deadline

/-! ## Policies -/

/-- A cancellation signal: what it answers when it is asked. -/
structure CancelSignal where
  isCancelled : Bool

/-- The limits of what runs in a guest: its budget, its cancellation signal, the deadline of the
operation that is running, and how often the signal is looked at while a driver sleeps. -/
structure ExecutionPolicy where
  timeout : Option Duration
  cancellation : Option CancelSignal
  deadline : Deadline
  cancelPollInterval : Duration

namespace ExecutionPolicy

/-- A policy without limits. -/
def new : ExecutionPolicy where
  timeout := none
  cancellation := none
  deadline := .new
  cancelPollInterval := .fromMillis 100

/-- The policy of a guest of a runtime: its own budget if it has one, the signal of the runtime, and
a deadline of its own. -/
def derive (p : ExecutionPolicy) (timeout : Option Duration) : ExecutionPolicy where
  timeout := timeout.or p.timeout
  cancellation := p.cancellation
  deadline := .new
  cancelPollInterval := p.cancelPollInterval

/-- Has the operation been cancelled? Without a signal it never is. -/
def isCancelled (p : ExecutionPolicy) : Bool := p.cancellation.any CancelSignal.isCancelled

variable {Ex : Type}

/-- Refuses a cancelled operation, and arms the deadline unless it is armed already. -/
def begin (p : ExecutionPolicy) (elapsed : Duration) : Except (Error Ex) ExecutionPolicy :=
  if p.isCancelled then
    .error .cancelled
  else
    match p.timeout with
    | some budget =>
      if p.deadline.isArmed then
        .ok p
      else
        .ok { p with deadline := .arm elapsed budget }
    | none => .ok p

/-- Should the guest stop? -/
def shouldAbort (p : ExecutionPolicy) (elapsed : Duration) : Bool :=
  p.isCancelled || p.deadline.expired elapsed

/-- The error of a guest that is stopped by the host. A deadline comes before a cancellation. -/
def abortError (p : ExecutionPolicy) (elapsed : Duration) : Error Ex :=
  if p.deadline.expired elapsed then .timeout
  else if p.isCancelled then .cancelled
  else .interrupted

/-- Says why an interrupted operation was interrupted. -/
def classify {α : Type} (p : ExecutionPolicy) (elapsed : Duration) :
    Except (Error Ex) α → Except (Error Ex) α
  | .error .interrupted =>
    if p.deadline.expired elapsed then .error .timeout
    else if p.isCancelled then .error .cancelled
    else .error .interrupted
  | other => other

/-- Ends the budget of an operation. -/
def disarm (p : ExecutionPolicy) : ExecutionPolicy := { p with deadline := .disarm }

/-- The time that the operation has left. -/
def remaining (p : ExecutionPolicy) (elapsed : Duration) : Option Duration :=
  p.deadline.remaining elapsed

/-- How often the signal is looked at, if there is one. -/
def pollInterval (p : ExecutionPolicy) : Option Duration :=
  p.cancellation.map fun _ => p.cancelPollInterval

end ExecutionPolicy

end GuestPy
