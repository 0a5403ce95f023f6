import GuestPy.Driver.Driving

/-!
# Deadlines without a wake

A coroutine future that is left pending has to be polled again before its guest's deadline,
and to ask its guest's cancellation signal. Its own timer sees to that where the loop waits
for a guest timer. Where the loop is blocked or idle the timer is left as it is.

* `awakeInTime_iff_alreadyArmed`: all futures are polled again in time along a run just if,
  where a loop is blocked or idle, an older timer is due in time, the task has been woken,
  or the guest has neither a deadline nor a signal.
* `not_awakeInTime_of_blocked` is a run in which a timeout never fires.
-/

namespace GuestPy.Driver

namespace Event

/-- A future that is left pending has been woken, or its timer is due within every limit of
its guest, up to the timer's slack. -/
def AwakeInTime : Event → Prop
  | pended cx _ requested limits now _ sleep =>
    requested = true ∨ ∀ limit ∈ limits,
      sleep.holdsBy cx (now + limit.asNanos + Timer.slack.asNanos) = true
  | _ => True

/-- Where the loop is blocked or idle, this is true of the timer that the future had before. -/
def AlreadyArmed : Event → Prop
  | pended cx progress requested limits now older _ =>
    progress.isActive = true ∨ requested = true ∨ ∀ limit ∈ limits,
      older.holdsBy cx (now + limit.asNanos + Timer.slack.asNanos) = true
  | _ => True

instance : DecidablePred AwakeInTime := fun e =>
  match e with
  | pended cx _ requested limits now _ sleep =>
    inferInstanceAs (Decidable (requested = true ∨ ∀ limit ∈ limits,
      sleep.holdsBy cx (now + limit.asNanos + Timer.slack.asNanos) = true))
  | polled .. | settled .. | inspected ..
  | published .. | suspended .. | completed .. | returned .. | began .. | closing ..
  | taking .. | recorded .. | timed .. | panicked .. => inferInstanceAs (Decidable True)

theorem awakeInTime_iff {events : List Event} {e : Event} (h : e.Lawful events) :
    e.AwakeInTime ↔ e.AlreadyArmed := by
  cases e with
  | pended cx progress requested limits now older sleep =>
    cases progress with
    | ready => exact ⟨fun _ => Or.inl rfl, fun _ => Or.inl h⟩
    | waiting delay => exact ⟨fun _ => Or.inl rfl, fun _ => h⟩
    | blocked =>
      have hsleep : sleep = older := h
      subst hsleep
      exact ⟨Or.inr, fun h => h.resolve_left nofun⟩
    | idle =>
      have hsleep : sleep = older := h
      subst hsleep
      exact ⟨Or.inr, fun h => h.resolve_left nofun⟩
  | _ => exact Iff.rfl

end Event

/-- **Every pending coroutine is polled again in time, along a run, just if the timers are
already armed where its loop is blocked or idle.** -/
theorem awakeInTime_iff_alreadyArmed (guest : GuestId) (runtime : RuntimeInner) (code : Code)
    (fuel : Nat) (script : Script) :
    Every Event.AwakeInTime (runScript guest runtime code fuel script) ↔
      Every Event.AlreadyArmed (runScript guest runtime code fuel script) := by
  have hlawful := lawful_run guest runtime code fuel script
  exact forall₂_congr fun e he => Event.awakeInTime_iff (hlawful e he)

/-! ## A timeout and a host future -/

/-- In the first round of the loop the coroutine calls a host function, and its host future
stays pending. After that the loop has nothing to do. -/
def callingCode : Code := fun w call =>
  match call with
  | .runOnce =>
    if w.pending.isEmpty then
      .call (.select (some (.finite 0))) fun _ => .call .hostCall fun _ => .ret (.ok default)
    else
      .call (.select none) fun _ => .ret (.ok default)
  | _ => .ret (.ok default)

/-- A timeout of fifty milliseconds. -/
def briefPolicy : ExecutionPolicy := { ExecutionPolicy.new with timeout := some (.fromMillis 50) }

/-- The coroutine waits for the host future, and no timer is armed for its timeout. -/
theorem not_awakeInTime_of_blocked :
    ¬ ∀ (guest : GuestId) (runtime : RuntimeInner) (code : Code) (fuel : Nat) (script : Script),
      Every Event.AwakeInTime (runScript guest runtime code fuel script) := by
  intro h
  have hrun : Every Event.AwakeInTime
      (runOps briefPolicy callingCode [.spawn, .poll 0 (.task 0), .poll 0 (.task 0)]) :=
    h _ _ _ _ _
  exact absurd hrun (by decide +kernel)

end GuestPy.Driver
