import GuestPy.Driver.Driving

/-!
# Host futures that are stranded

A task that is suspended while host futures of its guest are pending is woken by those that
were last polled with its own waker. Where a poll ends decides whether that is so. A loop with
callbacks to run wakes the task in any case. `drive` has polled the host futures with its own
waker just before it waits for a blocked loop, but where it waits for a guest timer their last
poll was the one with a waker that wakes nobody. A `CoroutineFuture` polls them before its step,
and after it where the loop is blocked or idle; where the loop waits for a guest timer, the step
has come between, and may have registered others.

* `reachesAll_of_attended`: a suspended task is woken by every host future, or has been
  woken, if its branch wakes it, or its own sweep has polled all that are pending and no other
  has begun since.
* `not_reachesAll_of_guest_timer` is a run that strands a host future.
-/

namespace GuestPy.Driver

/-- Each pending host future had been registered when the poll's own sweep began and was not out
in another batch, and no sweep with another waker has begun since. -/
def Covered (cx : Waker) (own : Option OwnSweep) (outstanding : List Outstanding) : Prop :=
  ∀ o ∈ outstanding, ∃ s ∈ own, s.Covers cx o

instance (cx : Waker) (own : Option OwnSweep) (outstanding : List Outstanding) :
    Decidable (Covered cx own outstanding) :=
  inferInstanceAs (Decidable (∀ o ∈ outstanding, ∃ s ∈ own, s.Covers cx o))

/-- What keeps a poll from stranding host futures, by the branch in which it ends. -/
def Branch.Attends (cx : Waker) (own : Option OwnSweep) (outstanding : List Outstanding) :
    Branch → Prop
  | driveReady => True
  | driveWaiting => outstanding = []
  | driveBlocked => Covered cx own outstanding
  | ready => True
  | waiting due => due = true ∨ Covered cx own outstanding
  | blocked hasReady => hasReady = true ∨ Covered cx own outstanding

instance (cx : Waker) (own : Option OwnSweep) (outstanding : List Outstanding) :
    DecidablePred (Branch.Attends cx own outstanding) := fun branch =>
  match branch with
  | .driveReady | .ready => inferInstanceAs (Decidable True)
  | .driveWaiting =>
    match outstanding with
    | [] => isTrue rfl
    | _ :: _ => isFalse nofun
  | .driveBlocked => inferInstanceAs (Decidable (Covered cx own outstanding))
  | .waiting due => inferInstanceAs (Decidable (due = true ∨ Covered cx own outstanding))
  | .blocked hasReady => inferInstanceAs (Decidable (hasReady = true ∨ Covered cx own outstanding))

namespace Event

/-- A suspended task has been woken, or every pending host future holds its waker. -/
def ReachesAll : Event → Prop
  | suspended cx _ _ requested _ outstanding =>
    requested = true ∨ ∀ o ∈ outstanding, o.held = some cx
  | _ => True

/-- A suspended task has been woken by others than the branch in which its poll ends, or that
branch keeps host futures from being stranded. -/
def Attended : Event → Prop
  | suspended cx branch outside _ own outstanding =>
    outside = true ∨ branch.Attends cx own outstanding
  | _ => True

instance : DecidablePred ReachesAll := fun e =>
  match e with
  | suspended cx _ _ requested _ outstanding =>
    inferInstanceAs (Decidable (requested = true ∨ ∀ o ∈ outstanding, o.held = some cx))
  | polled .. | settled .. | inspected ..
  | published .. | pended .. | completed .. | returned .. | began .. | closing .. | taking ..
  | recorded .. | timed .. | panicked .. => inferInstanceAs (Decidable True)

instance : DecidablePred Attended := fun e =>
  match e with
  | suspended cx branch outside _ own outstanding =>
    inferInstanceAs (Decidable (outside = true ∨ branch.Attends cx own outstanding))
  | polled .. | settled .. | inspected ..
  | published .. | pended .. | completed .. | returned .. | began .. | closing .. | taking ..
  | recorded .. | timed .. | panicked .. => inferInstanceAs (Decidable True)

end Event

section Suspensions

variable {cx : Waker} {branch : Branch} {outside requested : Bool} {own : Option OwnSweep}
  {outstanding : List Outstanding}

/-- What the poll's own sweep covers holds the waker of the poll. -/
theorem LawfulSuspension.held_of_covered
    (h : LawfulSuspension cx branch outside requested own outstanding)
    (hcovered : Covered cx own outstanding) : ∀ o ∈ outstanding, o.held = some cx := by
  intro o ho
  obtain ⟨s, hs, hcovers⟩ := hcovered o ho
  exact h.held s hs o ho hcovers

/-- No host future is stranded in a branch that attends to them. -/
theorem LawfulSuspension.reaches
    (h : LawfulSuspension cx branch outside requested own outstanding)
    (hattends : branch.Attends cx own outstanding) :
    requested = true ∨ ∀ o ∈ outstanding, o.held = some cx := by
  cases branch with
  | driveReady => exact Or.inl (h.woken.2 (Or.inr rfl))
  | ready => exact Or.inl (h.woken.2 (Or.inr rfl))
  | driveWaiting =>
    have hnone : outstanding = [] := hattends
    rw [hnone]
    exact Or.inr fun o ho => absurd ho List.not_mem_nil
  | driveBlocked => exact Or.inr (h.held_of_covered hattends)
  | waiting due =>
    rcases hattends with hdue | hcovered
    · exact Or.inl (h.woken.2 (Or.inr hdue))
    · exact Or.inr (h.held_of_covered hcovered)
  | blocked hasReady =>
    rcases hattends with hready | hcovered
    · exact Or.inl (h.woken.2 (Or.inr hready))
    · exact Or.inr (h.held_of_covered hcovered)

end Suspensions

theorem Event.reachesAll {events : List Event} {e : Event} (h : e.Lawful events)
    (hattended : e.Attended) : e.ReachesAll := by
  cases e with
  | suspended cx branch outside requested own outstanding =>
    have hlawful : LawfulSuspension cx branch outside requested own outstanding := h
    rcases hattended with houtside | hattends
    · exact Or.inl (hlawful.woken.2 (Or.inl houtside))
    · exact hlawful.reaches hattends
  | _ => trivial

/-- **No host future is stranded along a run in which every poll that ends in pending attends to
the host futures, by the branch in which it ends.** -/
theorem reachesAll_of_attended (guest : GuestId) (runtime : RuntimeInner) (code : Code)
    (fuel : Nat) (script : Script)
    (h : Every Event.Attended (runScript guest runtime code fuel script)) :
    Every Event.ReachesAll (runScript guest runtime code fuel script) :=
  fun e he => Event.reachesAll (lawful_run guest runtime code fuel script e he) (h e he)

/-! ## A host future and a guest timer -/

/-- In the first round of the loop a task calls a host function, and its host future stays
pending. After that the loop waits for `delay`. -/
def waitingCode (delay : Option Number) : Code := fun w call =>
  match call with
  | .runOnce =>
    if w.pending.isEmpty then
      .call (.select (some (.finite 0))) fun _ => .call .hostCall fun _ => .ret (.ok default)
    else
      .call (.select delay) fun _ => .ret (.ok default)
  | _ => .ret (.ok default)

/-- `run_until_idle` is polled, and once more after it has yielded. -/
def runTwice : List Op := [.start false, .resume 0 (.task 0) 1, .resume 0 (.task 0) 1]

/-- A loop without a timer is blocked, and `drive` polls the host future itself. -/
theorem reachesAll_of_attended_blocked :
    Every Event.ReachesAll (runOps .new (waitingCode none) runTwice) :=
  reachesAll_of_attended _ _ _ _ _ (by decide +kernel)

/-- With a guest timer of one second, `drive` waits for that timer only. -/
theorem not_reachesAll_of_guest_timer :
    ¬ ∀ (guest : GuestId) (runtime : RuntimeInner) (code : Code) (fuel : Nat) (script : Script),
      Every Event.ReachesAll (runScript guest runtime code fuel script) := by
  intro h
  have hrun : Every Event.ReachesAll
      (runOps .new (waitingCode (some (.finite 1))) runTwice) := h _ _ _ _ _
  exact absurd hrun (by decide +kernel)

/-- Each round of the loop calls a host function, and waits for a second after that. -/
def registeringCode : Code := fun _ call =>
  match call with
  | .runOnce =>
    .call .hostCall fun _ => .call (.select (some (.finite 1))) fun _ => .ret (.ok default)
  | _ => .ret (.ok default)

/-- A coroutine future strands the host future that is registered by its own step. -/
example : ¬ Every Event.ReachesAll (runOps .new registeringCode [.spawn, .poll 0 (.task 0)]) := by
  decide +kernel

end GuestPy.Driver
