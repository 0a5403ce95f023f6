import GuestPy.Boundary.Raising
import GuestPy.Exceptions.Requests
import GuestPy.Library.Fuel

/-!
# Raising host errors

An error of the host that guest code is to see becomes an exception of the interpreter. An error
may ask for an exception itself: by its class, arguments, attributes and a cause, which is an error
again. Some of the values are made only then, by code of the host program.

* `HostError` is an error with what it asks for, and `HostError.asRaise` what each error is raised
  as. A guest exception that still has its object is raised as that object.
* A `Backend` is what runs in the interpreter: it makes strings, imports guest classes, calls
  classes and assigns attributes, and it runs the conversions of the host program.
* `convert` makes the exception. Where that fails, it makes one for the second error, and then a
  bare `SystemError`.
-/

namespace GuestPy.Raising

open Exceptions
open Boundary (Site raisedClass raisedText raisedName)

/-! ## What is asked for -/

/-- A value that is converted later: a string of the crate, or a value of the host program, by its
number. -/
inductive Thunk (T : Type) where
  | string (value : Str)
  | value (t : T)

inductive RaiseValue (T : Type) where
  | text (text : Str)
  | guest (thunk : Thunk T)

/-- `Raise`, with causes in `E`. -/
structure RaiseOf (E T : Type) where
  «class» : ExceptionClass
  args : List (RaiseValue T)
  attrs : List (Str × RaiseValue T)
  cause : Option E

/-- `guestpy_core::Error`. A raise that was made for another backend is `foreign`. -/
inductive HostError (T : Type) where
  | plain (error : Err)
  | raise (raise : RaiseOf (HostError T) T)
  | foreign

abbrev Raise (T : Type) := RaiseOf (HostError T) T

namespace Raise

variable {T : Type}

def new («class» : ExceptionClass) : Raise T := ⟨«class», [], [], none⟩

def text (r : Raise T) (value : Str) : Raise T := { r with args := r.args ++ [.text value] }

def arg (r : Raise T) (t : T) : Raise T := { r with args := r.args ++ [.guest (.value t)] }

def withCause (r : Raise T) (cause : HostError T) : Raise T := { r with cause := some cause }

/-- The raise of an error that does not ask for one: its text, and for some errors the attribute
`name`. -/
def ofPlain (e : Err) : Raise T where
  «class» := raisedClass e
  args := (raisedText e).toList.map .text
  attrs := (raisedName e).toList.map fun name => ("name".toList, .guest (.string name))
  cause := none

end Raise

namespace HostError

variable {T : Type}

/-- The object of a guest exception. -/
def objectOf : Err → Option ObjectId
  | .guest e => e.object
  | _ => none

def carried : HostError T → Option ObjectId
  | plain e => objectOf e
  | _ => none

/-- What an error is raised as if it is not an object already. -/
def asRaise : HostError T → Raise T
  | plain e => .ofPlain e
  | raise r => r
  | foreign =>
    (Raise.new (.builtin "SystemError".toList)).text
      "raise was built for a different backend".toList

/-- Induction along a chain of causes. -/
theorem induction_cause {P : HostError T → Prop}
    (h : ∀ e, (∀ cause, e.asRaise.cause = some cause → P cause) → P e) : ∀ e, P e
  | plain e => h _ nofun
  | foreign => h _ nofun
  | raise ⟨_, _, _, none⟩ => h _ nofun
  | raise ⟨_, _, _, some cause⟩ => by
    refine h _ fun c hc => ?_
    obtain rfl : cause = c := Option.some.inj hc
    exact induction_cause h cause

end HostError

/-! ## The backend -/

/-- An interpreter, and all else that guest code and the host program can change. -/
structure World (types : TypeId → HostException) (Ω : Type) where
  interpreter : Interpreter types
  rest : Ω

/-- What runs in the interpreter, and the conversions `ToGuest` of the host program. All of it comes
to an end. -/
structure Backend (types : TypeId → HostException) (Ω T : Type) where
  str : Str → World types Ω → ObjectId × World types Ω
  noneObject : ObjectId
  trueObject : ObjectId
  toGuest : T → World types Ω → Except (HostError T) ObjectId × World types Ω
  qualified : Str → Str → World types Ω → Except (HostError T) ObjectId × World types Ω
  call : ObjectId → List ObjectId → World types Ω → Except (HostError T) ObjectId × World types Ω
  setAttr : ObjectId → Str → ObjectId → World types Ω → Except (HostError T) Unit × World types Ω

variable {types : TypeId → HostException} {Ω T α : Type}

/-- A computation of the interpreter. -/
def onInterpreter (m : Host (Interpreter types) Err α) : Host (World types Ω) (HostError T) α :=
  Host.zoom World.interpreter (fun i w => { w with interpreter := i })
    (Host.mapErr HostError.plain m)

namespace Backend

variable (M : Backend types Ω T) (site : Site)

def makeStr (text : Str) : Host (World types Ω) (HostError T) ObjectId := fun w =>
  (.ok (M.str text w).1, (M.str text w).2)

/-- Runs a thunk, which needs an active guest. -/
def runThunk : Thunk T → Host (World types Ω) (HostError T) ObjectId
  | .string value => M.makeStr value
  | .value t => Host.total (M.toGuest t)

/-- `value`. -/
def value : RaiseValue T → Host (World types Ω) (HostError T) ObjectId
  | .text text => M.makeStr text
  | .guest thunk =>
    match site with
    | .guest => M.runThunk thunk
    | .runtime => Host.throw (.plain (.unexpected "host raise needs an active guest"))

/-- The object that a class is to be, before it is checked. -/
def resolve (depth : Nat) : ExceptionClass → Host (World types Ω) (HostError T) ObjectId
  | .builtin name => onInterpreter (ExceptionRealiser.builtin name)
  | .host module name => onInterpreter (ExceptionRealiser.host depth (.named module name))
  | .typed id name => onInterpreter (ExceptionRealiser.host depth (.typed id name))
  | .guest module qualname =>
    match site with
    | .guest => Host.total (M.qualified module qualname)
    | .runtime => Host.throw (.plain (.unexpected "host raise needs an active guest"))

/-- `class`. -/
def classOf (depth : Nat) (cls : ExceptionClass) :
    Host (World types Ω) (HostError T) ObjectId := do
  let resolved ← M.resolve site depth cls
  onInterpreter (ExceptionRealiser.exceptionClass cls resolved)

def setAttribute (x : ObjectId) (p : Str × RaiseValue T) :
    Host (World types Ω) (HostError T) Unit := do
  let y ← M.value site p.2
  Host.total (M.setAttr x p.1 y)

/-- The exception that a raise asks for, without its cause. -/
def assemble (depth : Nat) (r : Raise T) : Host (World types Ω) (HostError T) ObjectId := do
  let c ← M.classOf site depth r.class
  let values ← Host.collect (M.value site) r.args
  let x ← Host.total (M.call c values)
  Host.forEach r.attrs (M.setAttribute site x)
  pure x

def linkCause (x cause : ObjectId) : Host (World types Ω) (HostError T) Unit := do
  Host.total (M.setAttr x "__cause__".toList cause)
  Host.total (M.setAttr x "__suppress_context__".toList M.trueObject)

/-- Converts the cause, if there is one, and links it. -/
def attachCause (convert : HostError T → Host (World types Ω) (HostError T) ObjectId)
    (x : ObjectId) : Option (HostError T) → Host (World types Ω) (HostError T) ObjectId
  | none => pure x
  | some cause => do
    let y ← convert cause
    M.linkCause x y
    pure x

/-- `raise_value`. -/
def raiseValue (convert : HostError T → Host (World types Ω) (HostError T) ObjectId) (depth : Nat)
    (e : HostError T) : Host (World types Ω) (HostError T) ObjectId :=
  match e.carried with
  | some x => pure x
  | none => do
    let x ← M.assemble site depth e.asRaise
    M.attachCause convert x e.asRaise.cause

def bareSystemError : Host (World types Ω) (HostError T) ObjectId := do
  let c ← M.classOf site 0 (.builtin "SystemError".toList)
  Host.total (M.call c [])

/-- `fallback`. -/
def fallback : Host (World types Ω) (HostError T) ObjectId := do
  match ← Host.attempt (M.bareSystemError site) with
  | .ok x => pure x
  | .error _ => pure M.noneObject

/-- `convert`. The fuel bounds how deep conversions call for one another. -/
def convert : Nat → HostError T → Host (World types Ω) (HostError T) ObjectId
  | 0, _ => Host.stuck
  | fuel + 1, e => do
    match ← Host.attempt (M.raiseValue site (convert fuel) fuel e) with
    | .ok x => pure x
    | .error e =>
      match ← Host.attempt (M.raiseValue site (convert fuel) fuel e) with
      | .ok x => pure x
      | .error _ => M.fallback site

end Backend

end GuestPy.Raising
