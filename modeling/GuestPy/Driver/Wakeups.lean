import GuestPy.Driver.Driving

/-!
# Wakeups that are lost

All futures of a guest share its event loop. Whichever of them is polled runs the callbacks
of all, and takes over the host futures with its own waker. None of this wakes a future that
is pending. It is polled again if its last poll found the loop active, for then that poll
has woken its task or armed its timer.

* `servesAll_of_keptAwake`: where tasks and host futures only complete for futures of which
  this is true, or which have been woken since, an operation leaves no future pending that
  nothing wakes.
* `not_servesAll_of_shared_loop` is a run that loses a wakeup.
-/

namespace GuestPy.Driver

namespace Event

/-- An operation leaves no future pending whose wait is over and which nothing wakes. -/
def ServesAll : Event → Prop
  | returned unserved => unserved = []
  | _ => True

/-- A future whose wait is over has been woken since its last poll, or that poll found the
loop with callbacks to run or a timer to wait for. -/
def KeptAwake : Event → Prop
  | completed _ progress woken => progress.isActive = true ∨ woken = true
  | _ => True

instance : DecidablePred ServesAll := fun e =>
  match e with
  | returned unserved => inferInstanceAs (Decidable (unserved = []))
  | polled .. | settled .. | inspected ..
  | published .. | suspended .. | pended .. | completed .. | began .. | closing .. | taking ..
  | recorded .. | timed .. | panicked .. => inferInstanceAs (Decidable True)

instance : DecidablePred KeptAwake := fun e =>
  match e with
  | completed _ progress woken =>
    inferInstanceAs (Decidable (progress.isActive = true ∨ woken = true))
  | polled .. | settled .. | inspected ..
  | published .. | suspended .. | pended .. | returned .. | began .. | closing .. | taking ..
  | recorded .. | timed .. | panicked .. => inferInstanceAs (Decidable True)

theorem servesAll {events : List Event} {e : Event} (h : e.Lawful events)
    (hkept : ∀ e ∈ events, e.KeptAwake) : e.ServesAll := by
  cases e with
  | returned unserved =>
    apply List.eq_nil_iff_forall_not_mem.2
    intro i hi
    obtain ⟨progress, hinactive, hmem⟩ := h i hi
    have hawake : progress.isActive = true ∨ false = true := hkept _ hmem
    rw [hinactive] at hawake
    rcases hawake with hawake | hawake <;> cases hawake
  | _ => trivial

end Event

/-- **No wakeup is lost along a run in which tasks and host futures complete only for futures
that are kept awake.** -/
theorem servesAll_of_keptAwake (guest : GuestId) (runtime : RuntimeInner) (code : Code)
    (fuel : Nat) (script : Script)
    (h : Every Event.KeptAwake (runScript guest runtime code fuel script)) :
    Every Event.ServesAll (runScript guest runtime code fuel script) :=
  fun e he => Event.servesAll (lawful_run guest runtime code fuel script e he) h

/-! ## Two coroutines and one loop -/

/-- Two coroutines. The first waits for an event once its first step is made; the second sets
the event in its first step, so that the first ends in the round of the loop after that. -/
def handingOverCode : Code := fun w call =>
  let polled i := (w.coroutines i).any fun c => decide (c.status = .polling)
  let stepped i := (w.coroutines i).any fun c => c.progress.isActive
  match call with
  | .python "ensure_future" => .ret (.ok { outcome := none, task := if polled 0 then 0 else 1 })
  | .runOnce =>
    if polled 0 ∧ stepped 0 then
      .call (.select none) fun _ => .ret (.ok default)
    else
      .call (.select (some (.finite 0))) fun _ =>
        if stepped 1 then .call (.finishTask 0) fun _ => .ret (.ok default)
        else .ret (.ok default)
  | _ => .ret (.ok default)

/-- The first future is polled `rounds` times, then the second one twice, from another task. -/
def pollBoth (rounds : Nat) : List Op :=
  .spawn :: .spawn :: List.replicate rounds (.poll 0 (.task 0)) ++
    [.poll 1 (.task 1), .poll 1 (.task 1)]

/-- The first future has been woken by its only poll. -/
theorem servesAll_of_keptAwake_woken :
    Every Event.ServesAll (runOps .new handingOverCode (pollBoth 1)) :=
  servesAll_of_keptAwake _ _ _ _ _ (by decide +kernel)

/-- Nothing wakes the first future when the second one is polled and its loop ends the first
one's task. -/
theorem not_servesAll_of_shared_loop :
    ¬ ∀ (guest : GuestId) (runtime : RuntimeInner) (code : Code) (fuel : Nat) (script : Script),
      Every Event.ServesAll (runScript guest runtime code fuel script) := by
  intro h
  have hrun : Every Event.ServesAll (runOps .new handingOverCode (pollBoth 2)) := h _ _ _ _ _
  exact absurd hrun (by decide +kernel)

end GuestPy.Driver
