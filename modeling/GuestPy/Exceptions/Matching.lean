import GuestPy.Exceptions.Specs

/-!
# Typed exceptions that are matched by name

A host asks whether an exception it is handed is of a typed class. What it is told rests on
the names that the classes of the object list, not on the classes themselves.

* `isMatched_iff_isInstance_iff_namesTell`: what it is told is right just if the names tell
  the instances of the class from the other objects.
* `namesTell_of_unique`: they do where no class but the realised one bears the dotted name,
  and the object lists its true classes.
* `not_isMatched_iff_isInstance_of_impostor` is a guest class with the names of a host class.
-/

namespace GuestPy.Exceptions

variable {types : TypeId → HostException}

namespace Interpreter

/-- The error that a host operation returns for an object that was raised. -/
def handed (i : Interpreter types) (x : ObjectId) (traceback : Option Str) : Err :=
  resolveExceptionTypes i.cache (.guest (.describe i.heap x traceback))

/-- Does the typed class match that error? -/
def IsMatched (i : Interpreter types) (x : ObjectId) (traceback : Option Str) (E : TypeId) :
    Prop :=
  ∃ e, i.handed x traceback = .guest e ∧ (ExceptionClass.of types E).matches e = true

/-- The object's class is the realised class of the type, or a subclass of it. -/
def IsInstanceOf (i : Interpreter types) (x : ObjectId) (E : TypeId) : Prop :=
  ∃ c, i.cache.realisedException (.of types E) = some c ∧ i.heap.IsInstance x c

/-- A class that the object lists has the dotted name that the type is registered under. -/
def BearsName (i : Interpreter types) (x : ObjectId) (E : TypeId) : Prop :=
  ∃ spec, i.cache.exceptionSpec (.of types E) = some spec ∧
    ∃ c ∈ i.heap.listedClasses x, i.heap.dotted c = some spec.dotted

/-- The names tell whether the object is an instance: an instance can be recognised, and
nothing else has borrowed the name. -/
structure NamesTell (i : Interpreter types) (x : ObjectId) (E : TypeId) : Prop where
  recognised : i.IsInstanceOf x E → i.BearsName x E
  unborrowed : ¬ i.IsInstanceOf x E → ¬ i.BearsName x E

instance (i : Interpreter types) (x : ObjectId) (E : TypeId) : Decidable (i.IsInstanceOf x E) :=
  match h : i.cache.realisedException (.of types E) with
  | some c =>
    decidable_of_iff (i.heap.IsInstance x c) <| by
      unfold IsInstanceOf
      rw [h]
      simp only [Option.some.injEq, exists_eq_left']
  | none => isFalse <| by
      unfold IsInstanceOf
      rw [h]
      rintro ⟨c, hc, -⟩
      cases hc

theorem isMatched_iff_mem {i : Interpreter types} {x : ObjectId} {traceback : Option Str}
    {E : TypeId} :
    i.IsMatched x traceback E ↔ E ∈ i.cache.exceptionTypes (.describe i.heap x traceback) := by
  constructor
  · rintro ⟨e, he, hmatch⟩
    cases he
    exact List.contains_iff_mem.1 hmatch
  · intro h
    exact ⟨_, rfl, List.contains_iff_mem.2 h⟩

/-- **A typed class is matched by name.** -/
theorem isMatched_iff_bearsName {i : Interpreter types} {x : ObjectId} {traceback : Option Str}
    {E : TypeId} : i.IsMatched x traceback E ↔ i.BearsName x E := by
  rw [isMatched_iff_mem, RealisationCache.mem_exceptionTypes]
  refine exists_congr fun spec => and_congr_right fun _ => ?_
  exact GuestException.describe_matches_iff spec.dot_mem_dotted

/-- Only the realised class of the type bears the dotted name, and it does bear it. -/
def NameIsUnique (i : Interpreter types) (E : TypeId) : Prop :=
  ∃ spec, i.cache.exceptionSpec (.of types E) = some spec ∧
    ∀ c, i.heap.dotted c = some spec.dotted ↔ i.cache.realisedException (.of types E) = some c

/-- The object lists its true classes. -/
def ListsItsClasses (i : Interpreter types) (x : ObjectId) : Prop :=
  i.heap.listedClasses x = (i.heap.objects (i.heap.objects x).class).mro

theorem namesTell_of_unique {i : Interpreter types} {x : ObjectId} {E : TypeId}
    (hname : i.NameIsUnique E) (hlists : i.ListsItsClasses x) : i.NamesTell x E := by
  obtain ⟨spec, hspec, hunique⟩ := hname
  have hiff : i.IsInstanceOf x E ↔ i.BearsName x E := by
    constructor
    · rintro ⟨c, hc, hmem⟩
      refine ⟨spec, hspec, c, ?_, (hunique c).2 hc⟩
      rw [hlists]
      exact hmem
    · rintro ⟨spec', hspec', c, hmem, hdotted⟩
      obtain rfl : spec = spec' := Option.some.inj (hspec.symm.trans hspec')
      refine ⟨c, (hunique c).1 hdotted, ?_⟩
      rw [hlists] at hmem
      exact hmem
  exact ⟨hiff.1, fun hnot hbears => hnot (hiff.2 hbears)⟩

end Interpreter

open Interpreter

/-- **Whether a typed class matches is whether the object is an instance of it, just if the
names tell.** -/
theorem isMatched_iff_isInstance_iff_namesTell (types : TypeId → HostException)
    (i : Interpreter types) (x : ObjectId) (traceback : Option Str) (E : TypeId) :
    (i.IsMatched x traceback E ↔ i.IsInstanceOf x E) ↔ i.NamesTell x E := by
  rw [isMatched_iff_bearsName]
  constructor
  · intro h
    exact ⟨h.2, fun hnot hbears => hnot (h.1 hbears)⟩
  · intro h
    exact ⟨fun hbears => by_contra fun hnot => h.unborrowed hnot hbears, h.recognised⟩

/-! ## A class with the names of another -/

/-- One typed exception, `Timeout`, derived from `Exception`. -/
def timeoutTypes : TypeId → HostException := fun _ => ⟨"Timeout".toList, .builtin "Exception".toList⟩

/-- The module `net` registers the exception, and the class is realised. Guest code then runs
`class Timeout(Exception): __module__ = "net"`, and raises an instance of that. -/
def raiseImpostor : Host (Interpreter timeoutTypes) Err ObjectId := do
  Host.modify fun i => { i with cache := i.cache.absorb (.typed 0 "net".toList) }
  let _ ← ExceptionRealiser.host 1 (.of timeoutTypes 0)
  let i ← Host.get
  let c ← allocate (subclass i.heap (some "net".toList) "Timeout".toList 0 2)
  allocate fun _ => instanceOf c none none

/-- The interpreter after that, in which the object 7 has been raised. -/
def impostorRaised : Interpreter timeoutTypes := (raiseImpostor (.fresh _)).2

theorem not_isMatched_iff_isInstance_of_impostor :
    ¬ ∀ (types : TypeId → HostException) (i : Interpreter types) (x : ObjectId)
      (traceback : Option Str) (E : TypeId), i.IsMatched x traceback E ↔ i.IsInstanceOf x E := by
  intro h
  have hiff := h timeoutTypes impostorRaised 7 none 0
  rw [isMatched_iff_mem] at hiff
  exact absurd hiff (by decide +kernel)

end GuestPy.Exceptions
