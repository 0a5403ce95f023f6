import GuestPy.Boundary.Polling

/-!
# Closed guests

Synchronous operations ask whether the guest is closed. Three ways in do not: the poll of a
future, a drive that was suspended, and host code that is called back. `load` refuses some
bundles before it asks.

* `staysShut_of_asks`: a guest that has been closed refuses every operation, as long as
  only those are begun that ask.
* `not_staysShut_of_future` is a run that polls a future of a closed guest.
-/

namespace GuestPy.Boundary

open Exceptions

instance (ran : Bool) (reply : Reply Err Unit) : Decidable (Refused ran reply) :=
  match reply with
  | .err e => decidable_of_iff (ran = false ∧ e = .closed) <| by
    unfold Refused
    rw [Reply.err.injEq]
  | .ok _ => isFalse fun h => nomatch h.2
  | .panic => isFalse fun h => nomatch h.2

namespace Event

/-- An operation on a guest that had been closed was refused, and ran no code of it. -/
def StaysShut : Event → Prop
  | operated _ _ shut ran reply => shut = true → Refused ran reply
  | _ => True

/-- An operation on a guest that had been closed is one that asks. -/
def Asks : Event → Prop
  | operated entry _ shut _ _ => shut = true → entry.asks = true
  | _ => True

instance : DecidablePred StaysShut := fun e =>
  match e with
  | operated _ _ shut ran reply => inferInstanceAs (Decidable (shut = true → Refused ran reply))
  | settled _ => inferInstanceAs (Decidable True)
  | raised _ => inferInstanceAs (Decidable True)

instance : DecidablePred Asks := fun e =>
  match e with
  | operated entry _ shut _ _ => inferInstanceAs (Decidable (shut = true → entry.asks = true))
  | settled _ => inferInstanceAs (Decidable True)
  | raised _ => inferInstanceAs (Decidable True)

theorem staysShut {e : Event} (h : e.Lawful) (hasks : e.Asks) : e.StaysShut := by
  cases e with
  | operated entry g shut ran reply => exact fun hshut => h hshut (hasks hshut)
  | settled s => trivial
  | raised r => trivial

end Event

/-- **A closed guest stays closed, as long as only operations are begun on it that ask.** -/
theorem staysShut_of_asks (types : TypeId → HostException) (interpreter : Interpreter types)
    (noneObject : ObjectId) (code : Code types) (fuel : Nat) (script : Script types)
    (h : Every Event.Asks (runScript interpreter noneObject code fuel script)) :
    Every Event.StaysShut (runScript interpreter noneObject code fuel script) :=
  fun e he => Event.staysShut (lawful_run interpreter noneObject code fuel script e he) (h e he)

/-! ## A future that is left -/

/-- Code that returns at once. -/
def idleCode : Code noTypes := fun _ _ => .ret (.ok default)

theorem staysShut_of_asks_exec : Every Event.StaysShut
    (runOps .new idleCode [.exec firstGuest, .close firstGuest, .exec firstGuest]) :=
  staysShut_of_asks noTypes _ _ _ _ _ (by decide +kernel)

/-- A future is made, its guest is closed, and the future is polled: the guest gets a driver,
and its loop is run. -/
theorem not_staysShut_of_future :
    ¬ ∀ (types : TypeId → HostException) (interpreter : Interpreter types)
      (noneObject : ObjectId) (code : Code types) (fuel : Nat) (script : Script types),
      Every Event.StaysShut (runScript interpreter noneObject code fuel script) := by
  intro h
  have hrun : Every Event.StaysShut
      (runOps .new idleCode [.spawn firstGuest, .close firstGuest, .poll 0 false]) :=
    h _ _ _ _ _ _
  exact absurd hrun (by decide +kernel)

end GuestPy.Boundary
