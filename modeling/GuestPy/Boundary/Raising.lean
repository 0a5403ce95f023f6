import GuestPy.Boundary.World

/-!
# From an error to an exception

When host code that guest code has called fails, its error is turned into an exception
object of the interpreter.

* `raisedClass`, `raisedText` and `raisedName` say which exception each error becomes. A guest
  exception that still has its object is raised again as that object.
* `convert` makes the exception. Where that fails, it makes one for the second error, and
  then a bare `SystemError`.
* `raiseError` describes it for the backend, which raises it in the calling frame.
-/

namespace GuestPy.Boundary

open Exceptions

variable {types : TypeId → HostException} {α : Type}

/-! ## What is raised -/

def raisedClass : Err → ExceptionClass
  | .guest _ => .builtin "RuntimeError".toList
  | .conversion _ => .builtin "TypeError".toList
  | .import _ _ => .builtin "ImportError".toList
  | .attribute _ => .builtin "AttributeError".toList
  | .bundle _ _ => .builtin "ImportError".toList
  | .ambiguousBundle _ => .builtin "ImportError".toList
  | .nameInUse _ => .builtin "ImportError".toList
  | .borrow _ _ => .builtin "RuntimeError".toList
  | .unsupported _ => .builtin "NotImplementedError".toList
  | .host _ => .builtin "RuntimeError".toList
  | .timeout => .host Fatal.module Fatal.timeout.name
  | .cancelled => .host Fatal.module Fatal.cancelled.name
  | .interrupted => .host Fatal.module Fatal.interrupted.name
  | .closed => .host Fatal.module Fatal.closed.name
  | .stopIteration => .builtin "StopIteration".toList
  | .stopAsyncIteration => .builtin "StopAsyncIteration".toList
  | .io _ => .builtin "OSError".toList
  | .engine _ => .builtin "SystemError".toList
  | .unexpected _ => .builtin "SystemError".toList

/-- The argument of the exception. -/
def raisedText : Err → Option Str
  | .guest e => some e.message
  | .conversion message => some message.toList
  | .import _ message => some message.toList
  | .attribute name => some ("no attribute named '".toList ++ name.toList ++ "'".toList)
  | .bundle _ message => some message.toList
  | .ambiguousBundle roots =>
    some ("bundle has ".toList ++ (toString roots).toList ++ " top-level modules".toList)
  | .nameInUse name =>
    some ("module ".toList ++ name.toList ++ " is already loaded in this guest".toList)
  | .borrow «class» kind =>
    some ("host class ".toList ++ «class».toList ++ " is already borrowed (".toList ++
      kind.toList ++ ")".toList)
  | .unsupported message => some message.toList
  | .host message => some message.toList
  | .timeout => some "execution timed out".toList
  | .cancelled => some "execution cancelled".toList
  | .interrupted => some "execution interrupted".toList
  | .closed => some "guest is closed".toList
  | .stopIteration => none
  | .stopAsyncIteration => none
  | .io message => some message.toList
  | .engine message => some message.toList
  | .unexpected message => some message.toList

/-- The attribute `name` of the exception. -/
def raisedName : Err → Option Str
  | .import name _ => some name.toList
  | .bundle _ _ => some "guestpy".toList
  | .ambiguousBundle _ => some "guestpy".toList
  | .nameInUse name => some name.toList
  | _ => none

/-! ## Making the exception -/

/-- A computation of the interpreter. -/
def onInterpreter (m : Host (Interpreter types) Err α) : Host (World types) Err α := fun w =>
  ((m w.interpreter).1, { w with interpreter := (m w.interpreter).2 })

/-- Where an error is raised: in a guest, or before one is active. -/
inductive Site where
  | guest
  | runtime
  deriving DecidableEq

/-- The class that an error is raised as. A chain of bases is no longer than the list of
classes that are registered. -/
def classOf («class» : ExceptionClass) : Host (World types) Err ObjectId := do
  let w ← Host.get
  match «class».key with
  | some key =>
    let depth := w.interpreter.cache.exceptions.entries.length + 1
    let c ← onInterpreter (ExceptionRealiser.host depth key)
    onInterpreter (ExceptionRealiser.exceptionClass «class» c)
  | none =>
    let c ← onInterpreter (ExceptionRealiser.builtin «class».display)
    onInterpreter (ExceptionRealiser.exceptionClass «class» c)

variable (callout : Call → Host (World types) Err Answer)

/-- A call of an exception class: a new instance, unless the call raises. -/
def construct (c : ObjectId) (text label : Option Str) : Host (World types) Err ObjectId := do
  match ← Host.attempt (callout (.construct c)) with
  | .ok (.value _) => onInterpreter (Interpreter.allocate fun _ => Interpreter.instanceOf c text label)
  | .ok (.raised x) =>
    let w ← Host.get
    Host.throw (.guest (w.describe x))
  | .error _ => Host.throw (.engine "exception")

def World.mark (x : ObjectId) (k : Option Fatal) (w : World types) : World types :=
  match k with
  | some k => { w with origins := Function.update w.origins x (some k) }
  | none => w

/-- An exception for the error. Its attributes are values that only an active guest can make. -/
def make (site : Site) (e : Err) : Host (World types) Err ObjectId := do
  let c ← classOf (raisedClass e)
  let x ← construct callout c (raisedText e) (raisedName e)
  if (raisedName e).isSome ∧ site = .runtime then
    Host.throw (.unexpected "host raise needs an active guest")
  else
    Host.modify (World.mark x (Fatal.of e))
    pure x

/-- `raise_value`. -/
def raiseValue (site : Site) (e : Err) : Host (World types) Err ObjectId :=
  match World.objectOf (.error e : Except Err Unit) with
  | some x => pure x
  | none => make callout site e

/-- `fallback`. -/
def fallback : Host (World types) Err ObjectId := do
  let made ← Host.attempt do
    let c ← classOf (.builtin "SystemError".toList)
    construct callout c none none
  let w ← Host.get
  match made with
  | .ok x => pure x
  | .error _ => pure w.noneObject

/-- `convert`. Says as well whether the exception is for this very error. -/
def convert (site : Site) (e : Err) : Host (World types) Err (ObjectId × Bool) := do
  match ← Host.attempt (raiseValue callout site e) with
  | .ok x => pure (x, true)
  | .error second =>
    match ← Host.attempt (raiseValue callout site second) with
    | .ok x => pure (x, false)
    | .error _ =>
      let x ← fallback callout
      pure (x, false)

/-- `raise_guest` and `raise_runtime`. -/
def raiseError (site : Site) (e : Err) : Host (World types) Err α := do
  let (x, made) ← convert callout site e
  let w ← Host.get
  Host.modify (World.log (.raised ⟨e, w.describe x, x, made, w.origins x, w.isProper x⟩))
  Host.throw (.guest (w.describe x))

end GuestPy.Boundary
