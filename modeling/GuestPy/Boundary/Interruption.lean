import GuestPy.Boundary.Polling

/-!
# Interrupted operations

A guest is stopped because its deadline has expired, or its signal is set. It is stopped in
one of two ways. The poll of a future asks the engine and the policy before it runs guest
code, and gives the error that the policy has for it. Or an interrupt is raised inside
running guest code: then the exception that it raises goes all the way out, since only
`Error::Interrupted` is ever classified, and synchronous operations classify nothing.

* `classifiedAlike_iff_noticed`: an operation that is stopped ends with the error of the
  policy just if no interrupt has stopped it inside guest code.
* `not_classifiedAlike_of_exec` is a run whose deadline expires while it runs guest code.
-/

namespace GuestPy.Boundary

open Exceptions

namespace Settled

/-- The operation has been stopped by its policy. -/
def isStopped (s : Settled) : Bool := (s.noticed || s.interrupt) && (s.expired || s.cancelled)

end Settled

namespace Event

/-- An operation that was stopped by its policy ends with the error of the policy. -/
def ClassifiedAlike : Event → Prop
  | settled s => s.isStopped = true → s.outcome = .error (stopError s.expired s.cancelled)
  | _ => True

/-- An operation that was stopped by its policy was not stopped by an interrupt inside guest
code. -/
def Noticed : Event → Prop
  | settled s => s.isStopped = true → s.interrupt = false
  | _ => True

instance : DecidablePred ClassifiedAlike := fun e =>
  match e with
  | settled s => inferInstanceAs (Decidable (s.isStopped = true → s.outcome = _))
  | operated .. => inferInstanceAs (Decidable True)
  | raised _ => inferInstanceAs (Decidable True)

theorem classifiedAlike_iff {e : Event} (h : e.Lawful) : e.ClassifiedAlike ↔ e.Noticed := by
  cases e with
  | operated entry g shut ran reply => exact Iff.rfl
  | raised r => exact Iff.rfl
  | settled s =>
    refine imp_congr_right fun hstopped => ?_
    constructor
    · intro houtcome
      by_contra hne
      have hinterrupt : s.interrupt = true := Bool.not_eq_false _ ▸ hne
      obtain ⟨e, hraw⟩ := h.exception (Or.inl hinterrupt)
      rcases Settled.outcome_of_guest h hraw with ⟨-, hguest⟩ | ⟨-, hok⟩
      · rw [houtcome] at hguest
        exact stopError_ne_guest _ _ _ (Except.error.inj hguest)
      · rw [houtcome] at hok
        cases hok
    · intro hinterrupt
      unfold Settled.isStopped at hstopped
      rw [hinterrupt, Bool.or_false] at hstopped
      exact Settled.outcome_of_noticed h (Bool.and_elim_left hstopped)

end Event

/-- **Operations that are stopped are classified alike just if polls notice it, and no interrupt
is raised inside guest code.** -/
theorem classifiedAlike_iff_noticed (types : TypeId → HostException)
    (interpreter : Interpreter types) (noneObject : ObjectId) (code : Code types) (fuel : Nat)
    (script : Script types) :
    Every Event.ClassifiedAlike (runScript interpreter noneObject code fuel script) ↔
      Every Event.Noticed (runScript interpreter noneObject code fuel script) := by
  have hlawful := lawful_run interpreter noneObject code fuel script
  exact forall₂_congr fun e he => Event.classifiedAlike_iff (hlawful e he)

/-! ## A deadline that expires -/

/-- Guest code runs for 60 milliseconds, until it is interrupted. -/
def interruptedCode : Code noTypes := fun w call =>
  match call with
  | .python _ _ =>
    .call (.activity (.tick (60 * 10 ^ 6))) fun _ =>
      .call (.interrupt fun _ => Interpreter.instanceOf 1 none none) fun _ =>
        .ret (.ok (.raised w.interpreter.heap.next))
  | _ => .ret (.ok default)

/-- `exec` of a guest with a timeout of 50 milliseconds returns the exception. -/
theorem not_classifiedAlike_of_exec :
    ¬ ∀ (types : TypeId → HostException) (interpreter : Interpreter types)
      (noneObject : ObjectId) (code : Code types) (fuel : Nat) (script : Script types),
      Every Event.ClassifiedAlike (runScript interpreter noneObject code fuel script) := by
  intro h
  have hrun : Every Event.ClassifiedAlike
      (runOps (ExecutionPolicy.new.derive (some (.fromMillis 50))) interruptedCode
        [.exec firstGuest]) := h _ _ _ _ _ _
  exact absurd hrun (by decide +kernel)

end GuestPy.Boundary
