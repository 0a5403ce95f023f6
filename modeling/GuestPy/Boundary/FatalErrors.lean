import GuestPy.Boundary.Polling

/-!
# Fatal errors that cross guest frames

A fatal error of a host callback becomes an exception object of a class of `guestpy`. It
stays that object: guest frames let it through, an operation that it leaves returns it as a
guest exception, and a callback that fails with that raises the same object again.

* `keepsFatal_run`: along every run an exception that was made for a fatal error keeps its
  object, and a fatal error that meets no guest frame stays fatal.
* `not_survives_of_callback` is a run in which a fatal error comes back as a guest exception,
  which is not fatal.
-/

namespace GuestPy.Boundary

open Exceptions

namespace Settled

/-- The exception is returned as a guest exception with the same object, which is not fatal,
unless it ends an iteration by its name. -/
def ReturnsObject (s : Settled) : Prop :=
  ∃ e, s.raw = .error (.guest e) ∧
    ((∃ e', s.outcome = .error (.guest e') ∧ e'.object = e.object ∧
      isFatal (.guest e') = false) ∨ s.EndsIteration e ∧ s.outcome = .ok ())

/-- A fatal error is returned as one of the same kind, but for an interruption that a poll has
classified. -/
def ReturnsFatal (s : Settled) (k : Fatal) : Prop :=
  ∃ e k', s.outcome = .error e ∧ Fatal.of e = some k' ∧ isFatal e = true ∧
    (k' = k ∨ k = .interrupted ∧ s.path = .polled)

theorem returnsObject {s : Settled} (h : s.Lawful) {k : Fatal} (hk : s.origin = some k) :
    s.ReturnsObject := by
  have horigin : s.origin ≠ none := by
    rw [hk]
    exact Option.some_ne_none k
  obtain ⟨e, hraw⟩ := h.exception (Or.inr (Or.inl horigin))
  refine ⟨e, hraw, ?_⟩
  rcases outcome_of_guest h hraw with ⟨-, houtcome⟩ | hended
  · exact Or.inl ⟨s.handed e, houtcome, s.handed_object e, rfl⟩
  · exact Or.inr hended

theorem handBack_fatal (step : Bool) (k : Fatal) :
    handBack step (.error k.error) = .error k.error := by
  cases step <;> cases k <;> rfl

theorem returnsFatal {s : Settled} (h : s.Lawful) {e : Err} {k : Fatal}
    (hraw : s.raw = .error e) (hk : Fatal.of e = some k) : s.ReturnsFatal k := by
  obtain rfl := Fatal.of_eq_some hk
  have hreturned : ∃ k' : Fatal, s.returned = .error k'.error ∧
      (k' = k ∨ k = .interrupted ∧ s.path = .polled) := by
    unfold returned
    rw [hraw]
    cases hpath : s.path with
    | entered => exact ⟨k, by cases k <;> rfl, Or.inl rfl⟩
    | extracted => exact ⟨k, rfl, Or.inl rfl⟩
    | polled =>
      by_cases hinterrupted : k = .interrupted
      · subst hinterrupted
        change ∃ k' : Fatal, (.error (stopError s.expired s.cancelled) : Except Err Unit) =
          .error k'.error ∧ _
        unfold stopError
        cases s.expired with
        | true => exact ⟨.timeout, rfl, Or.inr ⟨rfl, rfl⟩⟩
        | false =>
          cases s.cancelled with
          | true => exact ⟨.cancelled, rfl, Or.inr ⟨rfl, rfl⟩⟩
          | false => exact ⟨.interrupted, rfl, Or.inl rfl⟩
      · refine ⟨k, ?_, Or.inl rfl⟩
        cases k with
        | interrupted => exact absurd rfl hinterrupted
        | _ => rfl
  obtain ⟨k', hr, hkind⟩ := hreturned
  refine ⟨k'.error, k', ?_, ?_, ?_, hkind⟩
  · rw [h.outcome, expected, hr, handBack_fatal]
  · cases k' <;> rfl
  · cases k' <;> rfl

end Settled

namespace Event

/-- An operation that is left by an exception that was made for a fatal error returns that
error. -/
def Survives : Event → Prop
  | settled s => ∀ k, s.origin = some k → s.outcome = .error k.error
  | _ => True

/-- What a fatal error becomes, and what is done with it.

* An exception that was made for it leaves an operation as a guest exception with the same
  object.
* An operation that fails with it directly returns it.
* A callback that fails with it raises an object made for it, of the class that `guestpy` has
  for it, if one can be made. A callback that fails with a guest exception raises the object
  of that. -/
def KeepsFatal : Event → Prop
  | settled s =>
    (∀ k, s.origin = some k → s.ReturnsObject) ∧
      ∀ e k, s.raw = .error e → Fatal.of e = some k → s.ReturnsFatal k
  | raised r =>
    r.exception.object = some r.object ∧
      (∀ k, Fatal.of r.error = some k → r.made = true → r.origin = some k ∧ r.proper = true) ∧
        ∀ e x, r.error = .guest e → e.object = some x → r.object = x
  | operated .. => True

instance : DecidablePred Survives := fun e =>
  match e with
  | settled s =>
    match h : s.origin with
    | none => isTrue fun k hk => by
      rw [h] at hk
      cases hk
    | some k => decidable_of_iff (s.outcome = .error k.error) <| by
      constructor
      · intro houtcome k' hk
        rw [h] at hk
        cases hk
        exact houtcome
      · exact fun hs => hs k h
  | operated .. => inferInstanceAs (Decidable True)
  | raised _ => inferInstanceAs (Decidable True)

theorem keepsFatal {e : Event} (h : e.Lawful) : e.KeepsFatal := by
  cases e with
  | operated entry g shut ran reply => trivial
  | settled s =>
    exact ⟨fun _ hk => Settled.returnsObject h hk, fun _ _ hraw hk =>
      Settled.returnsFatal h hraw hk⟩
  | raised r => exact ⟨h.described, h.fatal, h.object⟩

end Event

/-- **Along every run, whatever the nesting, a fatal error keeps its exception object across
guest frames, and stays fatal where there are none.** -/
theorem keepsFatal_run (types : TypeId → HostException) (interpreter : Interpreter types)
    (noneObject : ObjectId) (code : Code types) (fuel : Nat) (script : Script types) :
    Every Event.KeepsFatal (runScript interpreter noneObject code fuel script) :=
  fun e he => Event.keepsFatal (lawful_run interpreter noneObject code fuel script e he)

/-! ## A callback that times out -/

/-- Guest code calls a host function, which fails with a timeout, and lets the exception
through. -/
def timeoutCode : Code noTypes := fun _ call =>
  match call with
  | .python g _ =>
    .call (.callback g) fun reply =>
      match reply with
      | .err (.guest ⟨_, _, _, _, _, _, _, some x⟩) => .ret (.ok (.raised x))
      | _ => .ret (.ok default)
  | .body _ => .ret (.error .timeout)
  | _ => .ret (.ok default)

theorem not_survives_of_callback :
    ¬ ∀ (types : TypeId → HostException) (interpreter : Interpreter types)
      (noneObject : ObjectId) (code : Code types) (fuel : Nat) (script : Script types),
      Every Event.Survives (runScript interpreter noneObject code fuel script) := by
  intro h
  have hrun : Every Event.Survives (runOps .new timeoutCode [.exec firstGuest]) := h _ _ _ _ _ _
  exact absurd hrun (by decide +kernel)

end GuestPy.Boundary
