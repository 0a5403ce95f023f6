import GuestPy.Imports.Realise

/-!
# Import requests

The three ways an import reaches the runtime, and mounting.

* `Imports.dispatch` is the body of a guest's `__import__`. A name that is denied is
  refused, a name whose head is bound is realised, and any other name is delegated to the
  importer of the interpreter.
* `rawBody` runs it for one fixed guest; `importBody` is the dispatcher, which reads the
  guest off the globals of the call and falls back to the innermost guest.
* `Op` lists what code may do while an import calls out, and `imports` is the system of all
  guests of a runtime.
-/

namespace GuestPy

/-! ## Arguments -/

namespace Args

def value (args : Args) (index : Nat) (name : Str) : Option Value :=
  match args.positional[index]? with
  | some v => some v
  | none => args.keyword.lookup name

def requiredStr (args : Args) (index : Nat) (name : String) : Except Err Str :=
  match args.value index name.toList with
  | some (.atom (.str s)) => .ok s
  | some v => .error (.conversion ("expected str, got " ++ v.typeName))
  | none => .error (.conversion ("missing required argument '" ++ name ++ "'"))

/-- `None` is as good as no argument. -/
def optional (args : Args) (index : Nat) (name : String) : Option Value :=
  match args.value index name.toList with
  | some v => if v.isNone then none else some v
  | none => none

end Args

/-- Does the call name its module from the top? -/
def ImportCall.absolute (call : ImportCall) : Bool :=
  match call.level with
  | none => true
  | some (.atom (.int i)) => i == 0
  | some _ => false

/-- The arguments of an import, as the importer of the interpreter reads them. -/
def ImportCall.parse (args : Args) : Except Err ImportCall :=
  match args.value 0 "name".toList with
  | some (.atom (.str name)) =>
    .ok
      { name
        globals := args.optional 1 "globals"
        locals := args.optional 2 "locals"
        fromlist := args.optional 3 "fromlist"
        level := args.optional 4 "level" }
  | _ => .error (.guest "TypeError")

/-! ## Importing for a guest -/

namespace Imports

open GuestBindings Importlib

variable (callout : Call → Host World Err Answer)

def package (globals : Option Value) : Host World Err Str :=
  match globals with
  | none => pure []
  | some globals => do
    match ← getItem callout globals "__package__".toList with
    | none => pure []
    | some .none => pure []
    | some (.str package) => pure package
    | some _ => Host.throw (.guest "TypeError")

def delegate (asker g : GuestId) (call : ImportCall) : Host World Err Module :=
  importModule callout asker (some g) call

/-- The attributes that lead from the top module to the module asked for. -/
def leaf (top : Module) (dotted : Str) : Host World Err Module := do
  Host.forEach (DottedName.prefixes dotted).tail fun name => do
    let _ ← callout (.getAttr top name)
    pure ()
  pure top

/-- Refuses a denied name. -/
def isBound (g : GuestId) (resolved : Str) : Host World Err Bool := do
  let w ← Host.get
  if w.denies g resolved then
    Host.throw (.import (String.ofList resolved) "this module is denied to this guest")
  else
    logEvent (.checked g resolved)
    contains g (DottedName.head resolved)

/-- `is_bound`, asked by code of `asker`, with what it answers written down. -/
def routes (asker g : GuestId) (resolved : Str) : Host World Err Bool := do
  record (·.asked asker (some g) resolved)
  let bound ← isBound g resolved
  record (·.routed asker g resolved bound)
  pure bound

/-- The names a from-list stands for: a star stands for `__all__`. -/
def wanted (m : Module) : List Str → Host World Err (List Str)
  | [] => pure []
  | name :: rest => do
    if name = "*".toList then
      let answer ← callout (.hasAttr m "__all__".toList)
      let all ← if answer.flag then callout (.attrNames m "__all__".toList) else pure default
      let names ← wanted m rest
      pure (all.names.filter (· ≠ "*".toList) ++ names)
    else
      let names ← wanted m rest
      pure (name :: names)

/-- Realises a submodule that a from-list asks for and the module lacks. That there is none
is not an error. -/
def expandName (g : GuestId) (m : Module) (dotted name : Str) : Host World Err Unit := do
  let answer ← callout (.hasAttr m name)
  if answer.flag then
    pure ()
  else
    let full := dotted ++ '.' :: name
    logEvent (.expanding g full)
    match ← Host.attempt (Realiser.module callout g full) with
    | .ok _ => pure ()
    | .error (.import _ _) => pure ()
    | .error e => Host.throw e

def expand (g : GuestId) (m : Module) (dotted : Str) (names : List Str) :
    Host World Err Unit := do
  let names ← wanted callout m names
  Host.forEach names (expandName callout g m dotted)

/-- The rest of `dispatch`, from the absolute name on. -/
def dispatchResolved (asker g : GuestId) (call : ImportCall) (resolved : Str) :
    Host World Err Module := do
  if ← routes asker g resolved then
    let m ← Realiser.module callout g resolved
    let names ← listNames callout call.fromlist
    if names = [] then
      match ← cached g (DottedName.head resolved) with
      | some top =>
        logEvent (.handed asker resolved m)
        logEvent (.handed asker (DottedName.head resolved) top)
        pure top
      | none =>
        Host.throw (.import (String.ofList resolved) "its head module is not realised")
    else
      expand callout g m resolved names
      logEvent (.handed asker resolved m)
      pure m
  else
    delegate callout asker g call

/-- `dispatch`, once its arguments are read. -/
def dispatchCall (asker g : GuestId) (call : ImportCall) : Host World Err Module := do
  let depth ← levelOf callout call.level
  if depth = 0 then
    dispatchResolved callout asker g call call.name
  else
    let package ← package callout call.globals
    if package = [] then
      delegate callout asker g call
    else
      let resolved ← Host.ofExcept (DottedName.absolutise package call.name depth)
      dispatchResolved callout asker g call resolved

def dispatch (asker g : GuestId) (args : Args) : Host World Err Module := do
  let name ← Host.ofExcept (args.requiredStr 0 "name")
  dispatchCall callout asker g
    { name
      globals := args.optional 1 "globals"
      locals := args.optional 2 "locals"
      fromlist := args.optional 3 "fromlist"
      level := args.optional 4 "level" }

/-- `Imports::module`, behind `Guest::import`. -/
def module (g : GuestId) (dotted : Str) : Host World Err Module := do
  if ← routes g g dotted then
    let m ← Realiser.module callout g dotted
    logEvent (.handed g dotted m)
    pure m
  else
    let top ← delegate callout g g ⟨dotted, none, none, none, none⟩
    leaf callout top dotted

end Imports

/-! ## Entering a guest -/

section Entering

variable (callout : Call → Host World Err Answer) {α : Type}

/-- Turns an error into an exception of the interpreter, which may import and raise. -/
def raise (e : Err) : Host World Err α := do
  let _ ← callout (.raise e)
  Host.throw (.guest "Exception")

def withRuntime (f : RuntimeInner → RuntimeInner) (w : World) : World :=
  { w with runtime := f w.runtime }

/-- Runs `m` under an activation token of `g`. -/
def underToken (g : GuestId) (r : RuntimeInner) (m : Host World Err α) : Host World Err α :=
  Host.bind (Host.modify (withRuntime fun _ => r)) fun _ =>
    Host.guarded m (withRuntime fun r => r.step (.drop g))

/-- `guest_enter_with`: always a token, and errors are raised in the interpreter. -/
def guestEnterWith (g : GuestId) (inner : GuestInner) (m : Host World Err α) :
    Host World Err α := do
  let w ← Host.get
  match ActiveGuest.new w.runtime g inner .operation with
  | .error e => raise callout e
  | .ok r =>
    underToken g r do
      match ← Host.attempt m with
      | .ok a => pure a
      | .error e => raise callout e

/-- `resolve_exception_types`: an exception that comes out is looked up among the exception
classes of the runtime. -/
def resolveExceptionTypes (m : Host World Err α) : Host World Err α := do
  match ← Host.attempt m with
  | .ok a => pure a
  | .error (.guest exception) =>
    readRef .exceptions fun _ => ()
    Host.throw (.guest exception)
  | .error e => Host.throw e

/-- `enter`: a token unless `g` is the innermost guest. -/
def enter (g : GuestId) (m : Host World Err α) : Host World Err α := do
  let w ← Host.get
  match w.runtime.guests g with
  | none => Host.throw .closed
  | some inner =>
    if inner.closed then
      Host.throw .closed
    else if w.runtime.isInnermost g then
      resolveExceptionTypes m
    else
      match ActiveGuest.new w.runtime g inner .operation with
      | .error e => Host.throw e
      | .ok r => underToken g r (resolveExceptionTypes m)

/-- The hook of `g`: a raw body with a fixed guest. -/
def rawBody (g : GuestId) (args : Args) : Host World Err Module := do
  Importlib.logEvent (.asked g .hook (some g))
  let w ← Host.get
  match w.runtime.get g with
  | .error e => raise callout e
  | .ok inner => guestEnterWith callout g inner (Imports.dispatch callout g g args)

/-- The guest whose live number the globals carry. -/
def namedGuest (globals : Option Value) : Host World Err (Option GuestId) := do
  match globals with
  | none => pure none
  | some globals =>
    if globals.isNone then
      pure none
    else
      match ← Host.attempt (Importlib.getItem callout globals "__guestpy_id__".toList) with
      | .ok (some a) =>
        match ← Host.attempt (Importlib.asU64 callout (.atom a)) with
        | .ok n =>
          let w ← Host.get
          pure ((GuestId.fromU64 n).filter fun g => (w.runtime.guests g).isSome)
        | .error _ => pure none
      | _ => pure none

/-- The dispatcher. `asker` is the guest whose code calls it. -/
def importBody (asker : GuestId) (args : Args) : Host World Err Module := do
  let named ← namedGuest callout args.positional[1]?
  let w ← Host.get
  let innermost := w.runtime.innermost
  Importlib.logEvent (.asked asker (.dispatcher named innermost) (named.or innermost))
  match named.or innermost with
  | none =>
    let call ← Host.ofExcept (ImportCall.parse args)
    record fun h => if call.absolute then h.asked asker none call.name else h.ledger
    Importlib.importModule callout asker none call
  | some g =>
    match w.runtime.guests g with
    | some inner => guestEnterWith callout g inner (Imports.dispatch callout asker g args)
    | none => raise callout .closed

/-- `Guest::import`. -/
def importModule (g : GuestId) (dotted : Str) : Host World Err Module := do
  Importlib.logEvent (.asked g .host (some g))
  enter g (Imports.module callout g dotted)

/-- `Guest::load`. -/
def load (g : GuestId) (bundle : Bundle) : Host World Err Module := do
  match bundle.root with
  | none => Host.throw (.ambiguousBundle bundle.roots)
  | some root =>
    enter g (GuestBindings.mount callout g bundle root)
    importModule callout g root

end Entering

/-! ## The system -/

/-- What code may do while an import calls out, and what a host does at the top: import for
a guest in any way, mount a bundle, take and drop activation tokens, write to
`sys.modules`, and use the class and exception caches of the runtime. -/
inductive Op where
  | hook (g : GuestId) (args : Args)
  | dispatcher (asker : GuestId) (args : Args)
  | guestImport (g : GuestId) (dotted : Str)
  | guestLoad (g : GuestId) (bundle : Bundle)
  | activity (a : Action)
  | sysModules (name : Str) (m : Option Module)
  | classes (store : Bool)
  | exceptions (store : Bool)

/-- A lookup in a cache of realised classes, or an entry that may replace another. -/
def realisation (callout : Call → Host World Err Answer) (c : Cell) (store : Bool) :
    Host World Err Unit :=
  if store then
    withMut (.writing c) do
      let _ ← Host.attempt (callout (.released none))
      pure ()
  else
    readRef c fun _ => ()

def performOp (callout : Call → Host World Err Answer) : Op → Host World Err (Option Module)
  | .hook g args => do
    let m ← rawBody callout g args
    pure (some m)
  | .dispatcher asker args => do
    let m ← importBody callout asker args
    pure (some m)
  | .guestImport g dotted => do
    let m ← importModule callout g dotted
    pure (some m)
  | .guestLoad g bundle => do
    let m ← load callout g bundle
    pure (some m)
  | .activity a => do
    Host.modify (withRuntime fun r => r.step a)
    pure none
  | .sysModules name m => do
    Host.modify (World.setSys name m)
    pure none
  | .classes store => do
    realisation callout .classes store
    pure none
  | .exceptions store => do
    realisation callout .exceptions store
    pure none

/-- All imports of a runtime, against any code that its calls may run. -/
def imports : System World Err Op (Option Module) Call Answer where
  body := performOp
  tick := World.tick

end GuestPy
