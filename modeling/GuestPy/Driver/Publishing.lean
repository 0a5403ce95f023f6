import GuestPy.Driver.Driving

/-!
# Host futures that are lost

`publish` moves a batch of completed host futures out of the queue, and stops at the first
step that fails. What it has not handled by then is in no queue any more.

* `losesNothing_iff_failsOnDone`: a run loses nothing just if, wherever a step fails, the
  asyncio futures that are left are done already.
* `not_losesNothing_of_failed_conversion` is a run that loses two.
-/

namespace GuestPy.Driver

/-- The asyncio future is resolved once, or was done before; or the entry is still queued. -/
def Fate.Kept (f : Fate) : Prop := f.queued = true ∨ f.done = true ∧ f.resolutions ≤ 1

instance (f : Fate) : Decidable f.Kept := inferInstanceAs (Decidable (_ ∨ _))

namespace Event

/-- No entry of a batch is lost. -/
def LosesNothing : Event → Prop
  | published handled unhandled => ∀ f ∈ handled ++ unhandled, f.Kept
  | _ => True

/-- No step of `publish` fails, or all that is left at that step is done already. -/
def FailsOnDone : Event → Prop
  | published _ unhandled => ∀ f ∈ unhandled, f.done = true
  | _ => True

instance : DecidablePred LosesNothing := fun e =>
  match e with
  | published handled unhandled =>
    inferInstanceAs (Decidable (∀ f ∈ handled ++ unhandled, f.Kept))
  | polled .. | settled .. | inspected .. | suspended .. | pended .. | completed .. | returned ..
  | began .. | closing .. | taking .. | recorded .. | timed .. | panicked .. =>
    inferInstanceAs (Decidable True)

instance : DecidablePred FailsOnDone := fun e =>
  match e with
  | published _ unhandled => inferInstanceAs (Decidable (∀ f ∈ unhandled, f.done = true))
  | polled .. | settled .. | inspected .. | suspended .. | pended .. | completed .. | returned ..
  | began .. | closing .. | taking .. | recorded .. | timed .. | panicked .. =>
    inferInstanceAs (Decidable True)

theorem losesNothing_iff {events : List Event} {e : Event} (h : e.Lawful events) :
    e.LosesNothing ↔ e.FailsOnDone := by
  cases e with
  | published handled unhandled =>
    obtain ⟨hhandled, hbatch⟩ := h
    constructor
    · intro hkept f hf
      have hmem : f ∈ handled ++ unhandled := List.mem_append_right _ hf
      rcases hkept f hmem with hqueued | ⟨hdone, -⟩
      · rw [(hbatch f hmem).1] at hqueued
        cases hqueued
      · exact hdone
    · intro hdone f hf
      right
      constructor
      · rcases List.mem_append.1 hf with hf | hf
        · exact hhandled f hf
        · exact hdone f hf
      · exact (hbatch f hf).2
  | _ => exact Iff.rfl

end Event

/-- **A run loses no completed host future just if no step of `publish` fails while one of
those that are left is still pending.** -/
theorem losesNothing_iff_failsOnDone (guest : GuestId) (runtime : RuntimeInner) (code : Code)
    (fuel : Nat) (script : Script) :
    Every Event.LosesNothing (runScript guest runtime code fuel script) ↔
      Every Event.FailsOnDone (runScript guest runtime code fuel script) := by
  have hlawful := lawful_run guest runtime code fuel script
  exact forall₂_congr fun e he => Event.losesNothing_iff (hlawful e he)

/-! ## Two host futures -/

/-- Host futures complete when they are polled; the result of the first has no guest value. -/
def unconvertibleCode : Code := fun _ call =>
  match call with
  | .pollHost h _ => .ret (.ok { outcome := some (.ok h), task := 0 })
  | .convert 0 => .ret (.error (.conversion "out of range"))
  | _ => .ret (.ok default)

/-- Neither asyncio future is ever resolved. -/
theorem not_losesNothing_of_failed_conversion :
    ¬ ∀ (guest : GuestId) (runtime : RuntimeInner) (code : Code) (fuel : Nat) (script : Script),
      Every Event.LosesNothing (runScript guest runtime code fuel script) := by
  intro h
  have hrun : Every Event.LosesNothing
      (runOps .new unconvertibleCode [.hostCall, .hostCall, .advance]) := h _ _ _ _ _
  exact absurd hrun (by decide +kernel)

end GuestPy.Driver
