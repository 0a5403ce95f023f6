import GuestPy.Boundary.Polling

/-!
# Typed exceptions on every path

Which typed classes an exception is of is noted on an error when a synchronous operation
returns it. The poll of a future, and the conversion of its value, return their errors as
they are.

* `alikeTyped_iff_identified`: a typed class matches what an operation returns just if it
  would match what a synchronous one returns, if there is nothing to note, or it has been
  noted before.
* `not_alikeTyped_of_poll` is a run that awaits a coroutine that raises a typed exception.
-/

namespace GuestPy.Boundary

open Exceptions

/-- The same types, in any order. -/
def SameTypes (a b : List TypeId) : Prop := ∀ E, E ∈ a ↔ E ∈ b

instance (a b : List TypeId) : Decidable (SameTypes a b) :=
  decidable_of_iff ((∀ E ∈ a, E ∈ b) ∧ ∀ E ∈ b, E ∈ a) <| by
    constructor
    · exact fun h E => ⟨h.1 E, h.2 E⟩
    · exact fun h => ⟨fun E => (h E).1, fun E => (h E).2⟩

theorem sameTypes_iff_matches {e e' : GuestException} :
    SameTypes e.typedMro e'.typedMro ↔
      ∀ E name, (ExceptionClass.typed E name).matches e = (ExceptionClass.typed E name).matches e' := by
  refine forall_congr' fun E => ?_
  constructor
  · intro h name
    exact Bool.eq_iff_iff.2 (List.contains_iff_mem.trans (h.trans List.contains_iff_mem.symm))
  · intro h
    have hE : e.typedMro.contains E = e'.typedMro.contains E := h []
    rw [← List.contains_iff_mem, hE, List.contains_iff_mem]

namespace Event

/-- A typed class matches the exception that an operation returns just if it matches that
exception as a synchronous operation returns it. -/
def AlikeTyped : Event → Prop
  | settled s => ∀ e, s.outcome = .error (.guest e) → ∀ E name,
    (ExceptionClass.typed E name).matches e =
      (ExceptionClass.typed E name).matches (e.identify s.types)
  | _ => True

/-- The operation is synchronous, or its exception ends an iteration. Or else no typed class
matches the exception by name, if a poll has failed with it; and if the conversion of a value
has, what its names say has been noted before. -/
def Identified : Event → Prop
  | settled s => ∀ e, s.raw = .error (.guest e) → s.EndsIteration e ∨
    match s.path with
    | .entered => True
    | .polled => s.types = []
    | .extracted => SameTypes e.typedMro s.types
  | _ => True

instance : DecidablePred AlikeTyped := fun e =>
  match e with
  | settled s =>
    match h : guestOf s.outcome with
    | some e => decidable_of_iff (SameTypes e.typedMro s.types) <| by
      have houtcome := guestOf_eq_some.1 h
      constructor
      · intro hsame e' he'
        rw [houtcome] at he'
        cases he'
        exact sameTypes_iff_matches.1 hsame
      · exact fun halike => sameTypes_iff_matches.2 (halike e houtcome)
    | none => isTrue fun e he => by
      rw [guestOf_eq_some.2 he] at h
      cases h
  | operated .. => inferInstanceAs (Decidable True)
  | raised _ => inferInstanceAs (Decidable True)

theorem alikeTyped_iff {e : Event} (h : e.Lawful) : e.AlikeTyped ↔ e.Identified := by
  cases e with
  | operated entry g shut ran reply => exact Iff.rfl
  | raised r => exact Iff.rfl
  | settled s =>
    constructor
    · intro halike e hraw
      rcases Settled.outcome_of_guest h hraw with ⟨-, houtcome⟩ | ⟨hends, -⟩
      · right
        have hsame : SameTypes (s.handed e).typedMro s.types :=
          sameTypes_iff_matches.2 (halike _ houtcome)
        unfold Settled.handed at hsame
        cases hpath : s.path with
        | entered => trivial
        | polled =>
          rw [hpath] at hsame
          have hdescribed : e.typedMro = [] :=
            h.described hpath (Settled.not_noticed_of_guest h hraw) _ hraw
          refine List.eq_nil_iff_forall_not_mem.2 fun E hE => ?_
          have hmem := (hsame E).2 hE
          rw [hdescribed] at hmem
          cases hmem
        | extracted =>
          rw [hpath] at hsame
          exact hsame
      · exact Or.inl hends
    · intro hidentified e' houtcome
      obtain ⟨e, hraw⟩ := Settled.raw_of_guest h houtcome
      rcases Settled.outcome_of_guest h hraw with ⟨hends, hhanded⟩ | ⟨-, hok⟩
      · have he' : e' = s.handed e := by
          rw [houtcome] at hhanded
          injection hhanded with hhanded
          injection hhanded
        subst he'
        apply sameTypes_iff_matches.1
        have hpath := (hidentified e hraw).resolve_left hends
        change SameTypes (s.handed e).typedMro s.types
        unfold Settled.handed
        cases hp : s.path with
        | entered => exact fun E => Iff.rfl
        | polled =>
          rw [hp] at hpath
          have hdescribed : e.typedMro = [] :=
            h.described hp (Settled.not_noticed_of_guest h hraw) _ hraw
          change SameTypes e.typedMro s.types
          rw [hdescribed, hpath]
          exact fun E => Iff.rfl
        | extracted =>
          rw [hp] at hpath
          exact hpath
      · rw [houtcome] at hok
        cases hok

end Event

/-- **A typed class matches alike on every path just if what a poll, or the conversion of its
value, fails with has nothing left to be noted.** -/
theorem alikeTyped_iff_identified (types : TypeId → HostException)
    (interpreter : Interpreter types) (noneObject : ObjectId) (code : Code types) (fuel : Nat)
    (script : Script types) :
    Every Event.AlikeTyped (runScript interpreter noneObject code fuel script) ↔
      Every Event.Identified (runScript interpreter noneObject code fuel script) := by
  have hlawful := lawful_run interpreter noneObject code fuel script
  exact forall₂_congr fun e he => Event.alikeTyped_iff (hlawful e he)

/-! ## A coroutine that raises a typed exception -/

/-- One typed exception, `Timeout`, derived from `Exception`. -/
def oneType : TypeId → HostException := fun _ => ⟨"Timeout".toList, .builtin "Exception".toList⟩

/-- The step of the loop runs the task, which raises an instance of the class. -/
def raisingCode : Code oneType := fun w call =>
  match call with
  | .python _ "result" =>
    match w.interpreter.cache.realisedException (.of oneType 0) with
    | some c =>
      .call (.allocate fun _ => Interpreter.instanceOf c none none) fun _ =>
        .ret (.ok (.raised w.interpreter.heap.next))
    | none => .ret (.ok default)
  | .python _ "done" => .ret (.ok (.value 1))
  | _ => .ret (.ok default)

theorem not_alikeTyped_of_poll :
    ¬ ∀ (types : TypeId → HostException) (interpreter : Interpreter types)
      (noneObject : ObjectId) (code : Code types) (fuel : Nat) (script : Script types),
      Every Event.AlikeTyped (runScript interpreter noneObject code fuel script) := by
  intro h
  have hrun : Every Event.AlikeTyped (runOps .new raisingCode
      [.absorb (.typed 0 "net".toList), .realise 1 (.of oneType 0), .spawn firstGuest,
        .poll 0 false]) := h _ _ _ _ _ _
  exact absurd hrun (by decide +kernel)

end GuestPy.Boundary
