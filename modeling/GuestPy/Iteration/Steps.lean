import GuestPy.Exceptions.Specs

/-!
# Steps of async iterators

A step of an iterator is a call of `__anext__` and the coroutine future that drives what it
returns. A host sees how it ends through three layers, and by then an exception is only names.

* `AsyncIterator` is a guest's iterator: what each of its steps comes to, and when.
* `AsyncStep` is one step on its way, and `AsyncCursor.poll` polls one after another.
* `settle` takes an error for the end of the iteration by its name.
* `settle_eq_ideal_iff` says which ends of a step it takes for what they are.
-/

namespace GuestPy.Iteration

open Exceptions

variable {Value Item : Type}

/-! ## Iterators -/

/-- How a step ends for its host. Its task returns or raises, or the poll fails, which may leave
the step in flight, or its end unseen. -/
inductive End (Value : Type) where
  | returned (value : Value)
  | raised (heap : Heap) (x : ObjectId) (traceback : Option Str)
  | failed (e : Err) (left : Bool)

/-- What the call of `__anext__` comes to. The guest may refuse to be entered. -/
inductive Start where
  | begun
  | raised (heap : Heap) (x : ObjectId) (traceback : Option Str)
  | refused (e : Err)

/-- An async iterator of a guest, whose items a host converts. `start k` is the call that starts
its `k`th step, and `found k n` what the `n`th poll of the step finds, if it does not find it
suspended. `stop` is the builtin class `StopAsyncIteration`. -/
structure AsyncIterator (Value Item : Type) where
  stop : ObjectId
  start : Nat → Start
  found : Nat → Nat → Option (End Value)
  convert : Value → Except Err Item

namespace Start

/-- Has `__anext__` been called? -/
def called : Start → Bool
  | refused _ => false
  | _ => true

def toEnd : Start → Option (End Value)
  | begun => none
  | raised heap x traceback => some (.raised heap x traceback)
  | refused e => some (.failed e false)

end Start

namespace End

/-- Is the step over, and its end known? -/
def seen : End Value → Bool
  | failed _ left => !left
  | _ => true

variable (I : AsyncIterator Value Item)

/-- The output of the coroutine future. -/
def outcome : End Value → Except Err Item
  | returned value => I.convert value
  | raised heap x traceback => .error (.guest (.describe heap x traceback))
  | failed e _ => .error e

/-- What the end of the step means: an item, the end of the iteration, or a failure. -/
def ideal : End Value → Except Err (Option Item)
  | returned value =>
    match I.convert value with
    | .ok item => .ok (some item)
    | .error e => .error e
  | raised heap x traceback =>
    if heap.IsInstance x I.stop then .ok none
    else .error (.guest (.describe heap x traceback))
  | failed e _ => .error e

end End

/-! ## Steps -/

/-- `"StopAsyncIteration"`. -/
def stopName : Str := "StopAsyncIteration".toList

/-- `AsyncStep::settle`. -/
def settle : Except Err Item → Except Err (Option Item)
  | .ok value => .ok (some value)
  | .error .stopAsyncIteration => .ok none
  | .error (.guest exception) =>
    if exception.matches stopName then .ok none else .error (.guest exception)
  | .error e => .error e

/-- A step on its way: the coroutine future of the `k`th step, with the number of its polls, or
an error from its start. -/
inductive AsyncStep where
  | pending (k polls : Nat)
  | failed (error : Option Err)

/-- `with_async_step`. -/
def AsyncIterator.withAsyncStep (I : AsyncIterator Value Item) (k : Nat) : AsyncStep :=
  match I.start k with
  | .begun => .pending k 0
  | .raised heap x traceback => .failed (some (.guest (.describe heap x traceback)))
  | .refused e => .failed (some e)

/-- `AsyncStep::poll`: the step after it, and its output. `none` where the assertion "async step
polled after completion" fails. -/
def AsyncStep.poll (I : AsyncIterator Value Item) :
    AsyncStep → Option (AsyncStep × Option (Except Err (Option Item)))
  | pending k polls => some (.pending k (polls + 1), (I.found k polls).map fun o => settle (o.outcome I))
  | failed (some e) => some (.failed none, some (settle (.error e)))
  | failed none => none

/-- `AsyncCursor::poll`, with the step that it starts if it has none. -/
def AsyncCursor.poll (I : AsyncIterator Value Item) (current : Option AsyncStep)
    (start : AsyncStep) : Option (Option AsyncStep × Option (Except Err (Option Item))) :=
  match (current.getD start).poll I with
  | some (step, none) => some (some step, none)
  | some (_, some outcome) => some (none, some outcome)
  | none => none

section Polls

variable {I : AsyncIterator Value Item} {current : Option AsyncStep} {start step : AsyncStep}

theorem AsyncCursor.poll_suspended (h : (current.getD start).poll I = some (step, none)) :
    AsyncCursor.poll I current start = some (some step, none) := by
  rw [AsyncCursor.poll, h]

theorem AsyncCursor.poll_over {outcome : Except Err (Option Item)}
    (h : (current.getD start).poll I = some (step, some outcome)) :
    AsyncCursor.poll I current start = some (none, some outcome) := by
  rw [AsyncCursor.poll, h]

theorem AsyncStep.poll_pending (k polls : Nat) :
    (AsyncStep.pending k polls).poll I =
      some (.pending k (polls + 1), (I.found k polls).map fun o => settle (o.outcome I)) :=
  rfl

end Polls

/-! ## Names -/

/-- Is the error one that ends the iteration? -/
def endsIteration : Err → Bool
  | .stopAsyncIteration => true
  | .guest exception => exception.matches stopName
  | _ => false

theorem settle_error (e : Err) :
    (settle (.error e) : Except Err (Option Item)) =
      if endsIteration e then .ok none else .error e := by
  cases e <;> rfl

/-- A class that the object lists has a name that ends with `StopAsyncIteration`. -/
def BearsStopName (heap : Heap) (x : ObjectId) : Prop :=
  ∃ c ∈ heap.listedClasses x, ∃ before, heap.dotted c = some (before ++ '.' :: stopName)

theorem endsIteration_describe {heap : Heap} {x : ObjectId} {traceback : Option Str} :
    endsIteration (.guest (.describe heap x traceback)) = true ↔ BearsStopName heap x :=
  GuestException.describe_matches_bare_iff (by decide)

/-- The end of the step can be told from the error that it comes to. -/
def End.Told (I : AsyncIterator Value Item) : End Value → Prop
  | returned value => ∀ e, I.convert value = .error e → endsIteration e = false
  | raised heap x _ => BearsStopName heap x ↔ heap.IsInstance x I.stop
  | failed e _ => endsIteration e = false

theorem settle_eq_error_iff (e : Err) :
    (settle (.error e) : Except Err (Option Item)) = .error e ↔ endsIteration e = false := by
  rw [settle_error]
  cases endsIteration e with
  | true => exact ⟨nofun, nofun⟩
  | false => exact ⟨fun _ => rfl, fun _ => rfl⟩

theorem settle_returned_iff (I : AsyncIterator Value Item) (value : Value) :
    settle ((End.returned value).outcome I) = (End.returned value).ideal I ↔
      (End.returned value).Told I := by
  change (settle (I.convert value) = match I.convert value with
    | .ok item => .ok (some item)
    | .error e => .error e) ↔ ∀ e, I.convert value = .error e → endsIteration e = false
  cases I.convert value with
  | ok item =>
    constructor
    · intro _ e he
      cases he
    · exact fun _ => rfl
  | error e =>
    dsimp only
    rw [settle_eq_error_iff]
    constructor
    · intro h e' he
      cases he
      exact h
    · exact fun h => h e rfl

theorem settle_raised_iff (I : AsyncIterator Value Item) (heap : Heap) (x : ObjectId)
    (traceback : Option Str) :
    settle ((End.raised heap x traceback : End Value).outcome I) =
        (End.raised heap x traceback : End Value).ideal I ↔
      (End.raised heap x traceback : End Value).Told I := by
  let e : Err := .guest (.describe heap x traceback)
  change ((settle (.error e) : Except Err (Option Item)) =
    if heap.IsInstance x I.stop then .ok none else .error e) ↔
      (BearsStopName heap x ↔ heap.IsInstance x I.stop)
  have hbears : endsIteration e = true ↔ BearsStopName heap x := endsIteration_describe
  rw [settle_error, ← hbears]
  by_cases hmatches : endsIteration e = true
  · rw [if_pos hmatches]
    by_cases hinstance : heap.IsInstance x I.stop
    · rw [if_pos hinstance]
      exact ⟨fun _ => ⟨fun _ => hinstance, fun _ => hmatches⟩, fun _ => rfl⟩
    · rw [if_neg hinstance]
      exact ⟨nofun, fun h => absurd (h.mp hmatches) hinstance⟩
  · rw [if_neg hmatches]
    by_cases hinstance : heap.IsInstance x I.stop
    · rw [if_pos hinstance]
      exact ⟨nofun, fun h => absurd (h.mpr hinstance) hmatches⟩
    · rw [if_neg hinstance]
      exact ⟨fun _ => ⟨fun h => absurd h hmatches, fun h => absurd h hinstance⟩, fun _ => rfl⟩

/-- **A step is taken for what it is exactly if its end can be told from its error.** -/
theorem settle_eq_ideal_iff (I : AsyncIterator Value Item) (o : End Value) :
    settle (o.outcome I) = o.ideal I ↔ o.Told I := by
  cases o with
  | returned value => exact settle_returned_iff I value
  | raised heap x traceback => exact settle_raised_iff I heap x traceback
  | failed e left => exact settle_eq_error_iff e

end GuestPy.Iteration
