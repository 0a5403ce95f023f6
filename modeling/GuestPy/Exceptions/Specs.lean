import GuestPy.Exceptions.Classes
import GuestPy.Library.Host

/-!
# Exception classes of the host

How the host names an exception class, what it registers, and how a registered class comes
to exist in the interpreter.

* `ExceptionClass` names a class: a builtin, a class of a host or guest module, or a type of
  the host program that implements `HostException`. `types` says what the types of the
  program implement.
* `RealisationCache` holds the specification of each registered class under its key, and the
  class once it has been realised.
* `ExceptionRealiser.host` realises a class, its bases first.
* `resolveExceptionTypes` notes on a guest exception which typed classes its names match.
-/

namespace GuestPy.Exceptions

abbrev Err := Error GuestException

/-! ## Names of classes -/

inductive ExceptionClass where
  | builtin (name : Str)
  | host (module name : Str)
  | guest (module qualname : Str)
  | typed (id : TypeId) (name : Str)
  deriving DecidableEq

inductive ExceptionKey where
  | named (module name : Str)
  | typed (id : TypeId) (name : Str)
  deriving DecidableEq

/-- What a type of the host program implements. -/
structure HostException where
  NAME : Str
  base : ExceptionClass

namespace ExceptionClass

/-- `ExceptionClass::of`. -/
def of (types : TypeId → HostException) (id : TypeId) : ExceptionClass := typed id (types id).NAME

def key : ExceptionClass → Option ExceptionKey
  | host module name => some (.named module name)
  | typed id name => some (.typed id name)
  | builtin _ => none
  | guest _ _ => none

/-- Does the class match an exception? A typed class goes by what has been noted on it. -/
def «matches» (c : ExceptionClass) (e : GuestException) : Bool :=
  match c with
  | builtin name => e.matches ("builtins".toList ++ '.' :: name)
  | host module name => e.matches (module ++ '.' :: name)
  | guest module qualname => e.matches (module ++ '.' :: qualname)
  | typed id _ => e.matchesType id

def display : ExceptionClass → Str
  | builtin name => name
  | host module name => module ++ '.' :: name
  | guest module qualname => module ++ '.' :: qualname
  | typed _ name => name

end ExceptionClass

namespace ExceptionKey

def name : ExceptionKey → Str
  | named _ name => name
  | typed _ name => name

def of (types : TypeId → HostException) (id : TypeId) : ExceptionKey := typed id (types id).NAME

end ExceptionKey

/-! ## Specifications -/

/-- The specification of a class. The name in a typed key is that of its type. -/
structure ExceptionSpec (types : TypeId → HostException) where
  key : ExceptionKey
  module : Str
  base : ExceptionClass
  declared : ∀ id name, key = .typed id name → name = (types id).NAME

namespace ExceptionSpec

variable {types : TypeId → HostException}

def named (module name : Str) (base : ExceptionClass) : ExceptionSpec types where
  key := .named module name
  module := module
  base := base
  declared := nofun

def typed (id : TypeId) (module : Str) : ExceptionSpec types where
  key := .of types id
  module := module
  base := (types id).base
  declared := by
    intro id' name h
    cases h
    rfl

def name (s : ExceptionSpec types) : Str := s.key.name

/-- `"{module}.{name}"`. -/
def dotted (s : ExceptionSpec types) : Str := s.module ++ '.' :: s.name

theorem dot_mem_dotted (s : ExceptionSpec types) : '.' ∈ s.dotted :=
  List.mem_append_right _ List.mem_cons_self

end ExceptionSpec

/-! ## The cache of a runtime -/

structure InternedEntry (V : Type) where
  spec : V
  realised : Option ObjectId

/-- Specifications under their keys, each with what realises it. -/
structure Interned (K V : Type) [DecidableEq K] where
  entries : List (K × InternedEntry V)
  nodup : (entries.map Prod.fst).Nodup

namespace Interned

variable {K V : Type} [DecidableEq K]

def new : Interned K V := ⟨[], List.nodup_nil⟩

def entry (i : Interned K V) (key : K) : Option (InternedEntry V) := i.entries.lookup key

def contains (i : Interned K V) (key : K) : Bool := (i.entry key).isSome

def spec (i : Interned K V) (key : K) : Option V := (i.entry key).map InternedEntry.spec

def realised (i : Interned K V) (key : K) : Option ObjectId :=
  (i.entry key).bind InternedEntry.realised

theorem entry_eq_some_iff {i : Interned K V} {key : K} {e : InternedEntry V} :
    i.entry key = some e ↔ (key, e) ∈ i.entries := by
  obtain ⟨entries, hnodup⟩ := i
  change entries.lookup key = some e ↔ (key, e) ∈ entries
  induction entries with
  | nil => exact ⟨nofun, nofun⟩
  | cons p rest ih =>
    obtain ⟨hp, hrest⟩ := List.nodup_cons.1 hnodup
    rw [List.lookup_cons, List.mem_cons]
    by_cases hk : key = p.1
    · simp only [hk, beq_self_eq_true]
      constructor
      · intro h
        cases h
        exact Or.inl rfl
      · rintro (h | h)
        · rw [← h]
        · exact absurd (List.mem_map.2 ⟨_, h, rfl⟩) hp
    · simp only [beq_eq_false_iff_ne.2 hk]
      rw [ih hrest]
      constructor
      · exact Or.inr
      · rintro (h | h)
        · exact absurd (congrArg Prod.fst h) hk
        · exact h

theorem entry_eq_none_iff {i : Interned K V} {key : K} :
    i.entry key = none ↔ key ∉ i.entries.map Prod.fst := by
  rw [Option.eq_none_iff_forall_not_mem]
  constructor
  · intro h hmem
    obtain ⟨p, hp, rfl⟩ := List.mem_map.1 hmem
    exact h p.2 (entry_eq_some_iff.2 hp)
  · intro h e he
    exact h (List.mem_map.2 ⟨_, entry_eq_some_iff.1 he, rfl⟩)

/-- The first specification of a key stays. -/
def intern (i : Interned K V) (key : K) (spec : V) : Interned K V :=
  if h : i.entry key = none then
    ⟨(key, ⟨spec, none⟩) :: i.entries, List.nodup_cons.2 ⟨entry_eq_none_iff.1 h, i.nodup⟩⟩
  else
    i

def setRealised (i : Interned K V) (key : K) (owned : ObjectId) : Interned K V where
  entries := i.entries.map fun p =>
    if p.1 = key then (p.1, { p.2 with realised := some owned }) else p
  nodup := by
    have hkeys : (i.entries.map fun p =>
        if p.1 = key then (p.1, { p.2 with realised := some owned }) else p).map Prod.fst =
          i.entries.map Prod.fst := by
      rw [List.map_map]
      refine List.map_congr_left fun p _ => ?_
      simp only [Function.comp_apply]
      split <;> rfl
    rw [hkeys]
    exact i.nodup

theorem mem_intern {i : Interned K V} {key : K} {spec : V} {p : K × InternedEntry V} :
    p ∈ (i.intern key spec).entries ↔
      p ∈ i.entries ∨ i.entry key = none ∧ p = (key, ⟨spec, none⟩) := by
  unfold intern
  by_cases h : i.entry key = none
  · rw [dif_pos h, List.mem_cons]
    simp only [h, true_and, or_comm]
  · rw [dif_neg h]
    simp only [h, false_and, or_false]

theorem mem_setRealised {i : Interned K V} {key : K} {owned : ObjectId}
    {p : K × InternedEntry V} :
    p ∈ (i.setRealised key owned).entries ↔
      p.1 ≠ key ∧ p ∈ i.entries ∨
        p.1 = key ∧ ∃ e, (key, e) ∈ i.entries ∧ p.2 = { e with realised := some owned } := by
  change p ∈ i.entries.map _ ↔ _
  rw [List.mem_map]
  constructor
  · rintro ⟨q, hq, rfl⟩
    by_cases h : q.1 = key
    · subst h
      rw [if_pos rfl]
      exact Or.inr ⟨rfl, q.2, hq, rfl⟩
    · rw [if_neg h]
      exact Or.inl ⟨h, hq⟩
  · rintro (⟨h, hp⟩ | ⟨h, e, he, hp⟩)
    · exact ⟨p, hp, if_neg h⟩
    · refine ⟨(key, e), he, ?_⟩
      rw [if_pos rfl, ← h, ← hp]

end Interned

/-- The exception classes that a runtime has registered. Each has its own key. -/
structure RealisationCache (types : TypeId → HostException) where
  exceptions : Interned ExceptionKey (ExceptionSpec types)
  keyed : ∀ p ∈ exceptions.entries, p.2.spec.key = p.1

namespace RealisationCache

variable {types : TypeId → HostException}

def new : RealisationCache types := ⟨.new, nofun⟩

def exceptionSpec (c : RealisationCache types) (key : ExceptionKey) :
    Option (ExceptionSpec types) :=
  c.exceptions.spec key

def realisedException (c : RealisationCache types) (key : ExceptionKey) : Option ObjectId :=
  c.exceptions.realised key

/-- `absorb`, for one exception of a module. -/
def absorb (c : RealisationCache types) (spec : ExceptionSpec types) : RealisationCache types where
  exceptions := c.exceptions.intern spec.key spec
  keyed := by
    intro p hp
    rcases Interned.mem_intern.1 hp with hp | ⟨-, rfl⟩
    · exact c.keyed p hp
    · rfl

def setRealisedException (c : RealisationCache types) (key : ExceptionKey) (owned : ObjectId) :
    RealisationCache types where
  exceptions := c.exceptions.setRealised key owned
  keyed := by
    intro p hp
    rcases Interned.mem_setRealised.1 hp with ⟨-, hp⟩ | ⟨rfl, e, he, hp⟩
    · exact c.keyed p hp
    · rw [hp]
      exact c.keyed (p.1, e) he

/-- The typed classes that an exception matches by name. -/
def exceptionTypes (c : RealisationCache types) (e : GuestException) : List TypeId :=
  c.exceptions.entries.filterMap fun p =>
    match p.1 with
    | .typed id _ => if e.matches p.2.spec.dotted then some id else none
    | .named _ _ => none

/-- **Types by name.** A type is listed just if it is registered, and its dotted name matches. -/
theorem mem_exceptionTypes {c : RealisationCache types} {e : GuestException} {id : TypeId} :
    id ∈ c.exceptionTypes e ↔
      ∃ spec, c.exceptionSpec (.of types id) = some spec ∧ e.matches spec.dotted = true := by
  unfold exceptionTypes
  rw [List.mem_filterMap]
  constructor
  · rintro ⟨⟨key, entry⟩, hmem, h⟩
    cases key with
    | named module name => cases h
    | typed id' name =>
      by_cases hmatch : e.matches entry.spec.dotted = true
      · simp only [if_pos hmatch] at h
        cases h
        have hkey : entry.spec.key = .typed id name := c.keyed _ hmem
        obtain rfl := entry.spec.declared id name hkey
        refine ⟨entry.spec, ?_, hmatch⟩
        have hentry := Interned.entry_eq_some_iff.2 hmem
        exact congrArg (Option.map InternedEntry.spec) hentry
      · simp only [if_neg hmatch] at h
        cases h
  · rintro ⟨spec, hspec, hmatch⟩
    obtain ⟨entry, hentry, rfl⟩ := Option.map_eq_some_iff.1 hspec
    exact ⟨_, Interned.entry_eq_some_iff.1 hentry, if_pos hmatch⟩

end RealisationCache

variable {types : TypeId → HostException}

/-- `resolve_exception_types`. -/
def resolveExceptionTypes (c : RealisationCache types) : Err → Err
  | .guest e => .guest (e.identify (c.exceptionTypes e))
  | e => e

/-! ## Realising a class -/

/-- An interpreter with the exception classes of a runtime. `keyError` is what looking up a
builtin that is missing raises. -/
structure Interpreter (types : TypeId → HostException) where
  heap : Heap
  builtins : Str → Option ObjectId
  keyError : ObjectId
  cache : RealisationCache types

namespace Interpreter

def withHeap (f : Heap → Heap) (i : Interpreter types) : Interpreter types :=
  { i with heap := f i.heap }

/-- A class with one base. -/
def subclass (h : Heap) (module : Option Str) (name : Str) (metaclass base c : ObjectId) :
    Object where
  «class» := metaclass
  mro := c :: (h.objects base).mro
  reported := some metaclass
  listed := c :: (h.objects base).mro
  module := module
  qualname := some name
  name := some name
  text := none
  label := none

/-- An object of a class. -/
def instanceOf («class» : ObjectId) (text label : Option Str) : Object where
  «class» := «class»
  mro := []
  reported := some «class»
  listed := []
  module := none
  qualname := none
  name := none
  text := text
  label := label

/-- A new object. -/
def allocate (o : ObjectId → Object) : Host (Interpreter types) Err ObjectId := do
  let i ← Host.get
  Host.modify (withHeap fun h => (h.allocate o).2)
  pure i.heap.next

end Interpreter

namespace ExceptionRealiser

open Interpreter

/-- `builtin`: an item of the dictionary of builtins. -/
def builtin (name : Str) : Host (Interpreter types) Err ObjectId := do
  let i ← Host.get
  match i.builtins name with
  | some c => pure c
  | none =>
    let x ← allocate fun _ => instanceOf i.keyError (some name) none
    let i ← Host.get
    Host.throw (.guest (.describe i.heap x none))

/-- `create`. -/
def create (module name : Str) (base : ObjectId) : Host (Interpreter types) Err ObjectId := do
  let metaclass ← builtin "type".toList
  let i ← Host.get
  allocate (subclass i.heap (some module) name metaclass base)

/-- `exception_class`: refuses what is not a subclass of `BaseException`. -/
def exceptionClass («class» : ExceptionClass) (value : ObjectId) :
    Host (Interpreter types) Err ObjectId := do
  let base ← builtin "BaseException".toList
  let i ← Host.get
  if base ∈ (i.heap.objects value).mro then
    pure value
  else
    Host.throw (.conversion (String.ofList «class».display ++ " is not an exception class"))

/-- The base of a class, by the name that its specification has for it. -/
def baseOf (host : ExceptionKey → Host (Interpreter types) Err ObjectId)
    (spec : ExceptionSpec types) : Host (Interpreter types) Err ObjectId :=
  match spec.base.key with
  | some key => host key
  | none =>
    match spec.base with
    | .builtin name => builtin name
    | base =>
      Host.throw (.unsupported ("host exception " ++ String.ofList spec.name ++
        " cannot inherit from guest class " ++ String.ofList base.display))

/-- Creates the class of a specification and keeps it. -/
def realise (host : ExceptionKey → Host (Interpreter types) Err ObjectId) (key : ExceptionKey)
    (spec : ExceptionSpec types) : Host (Interpreter types) Err ObjectId := do
  let base ← baseOf host spec
  let base ← exceptionClass spec.base base
  let c ← create spec.module spec.name base
  Host.modify fun i => { i with cache := i.cache.setRealisedException key c }
  pure c

/-- `host`. The chain of bases is followed up to a bound. -/
def host : Nat → ExceptionKey → Host (Interpreter types) Err ObjectId
  | 0, _ => Host.stuck
  | depth + 1, key => do
    let i ← Host.get
    match i.cache.realisedException key with
    | some c => pure c
    | none =>
      match i.cache.exceptionSpec key with
      | some spec => realise (host depth) key spec
      | none =>
        Host.throw (.unexpected ("host exception " ++ String.ofList key.name ++
          " was not registered"))

end ExceptionRealiser

/-! ## A new interpreter -/

/-- A class of the module `builtins`. -/
def builtinClass (name : String) (mro : List ObjectId) : Object where
  «class» := 0
  mro := mro
  reported := some 0
  listed := mro
  module := some "builtins".toList
  qualname := some name.toList
  name := some name.toList
  text := none
  label := none

/-- The builtins `type`, `BaseException`, `Exception`, `KeyError` and `None`, and nothing else. -/
def Interpreter.fresh (types : TypeId → HostException) : Interpreter types where
  heap :=
    { objects := fun x =>
        match x with
        | 0 => builtinClass "type" [0]
        | 1 => builtinClass "BaseException" [1]
        | 2 => builtinClass "Exception" [2, 1]
        | 3 => builtinClass "KeyError" [3, 2, 1]
        | _ => Interpreter.instanceOf 0 none none
      next := 5 }
  builtins := fun name =>
    if name = "type".toList then some 0
    else if name = "BaseException".toList then some 1
    else if name = "Exception".toList then some 2
    else none
  keyError := 3
  cache := .new

end GuestPy.Exceptions
