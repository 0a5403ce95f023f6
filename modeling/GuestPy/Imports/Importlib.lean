import GuestPy.Imports.World

/-!
# The importer of the interpreter

`__import__` of the interpreter, which an import is delegated to when its guest has nothing
bound under the name. A relative name is resolved against `__package__`, else against
`__spec__` and `__name__` of the globals; the module and its parents are looked up in
`sys.modules` and loaded where they are missing; and the submodules a from-list asks for
are imported where the module has no attribute of that name.
-/

namespace GuestPy

namespace Value

def typeName : Value → String
  | .atom .none => "NoneType"
  | .atom (.str _) => "str"
  | .atom (.int _) => "int"
  | .atom (.spec _) => "ModuleSpec"
  | .atom .other => "object"
  | .dict _ => "dict"
  | .object _ => "object"

def isNone : Value → Bool
  | .atom .none => true
  | _ => false

end Value

namespace Importlib

variable (callout : Call → Host World Err Answer)

/-! ## Reading arguments -/

def toU64 : Option Atom → Except Err Nat
  | some (.int i) =>
    if 0 ≤ i ∧ i < 2 ^ 64 then .ok i.toNat else .error (.guest "OverflowError")
  | _ => .error (.guest "TypeError")

/-- `as_u64`: an object is asked for its index. -/
def asU64 : Value → Host World Err Nat
  | .object n => do
    let answer ← callout (.index (.object n))
    Host.ofExcept (toU64 answer.item)
  | .atom .other => do
    let answer ← callout (.index (.atom .other))
    Host.ofExcept (toU64 answer.item)
  | .atom a => Host.ofExcept (toU64 (some a))
  | .dict _ => Host.throw (.guest "TypeError")

/-- The level of an import, 0 by default. -/
def levelOf (level : Option Value) : Host World Err Nat :=
  match level with
  | some v => asU64 callout v
  | none => pure 0

/-- `get_item_opt`. -/
def getItem : Value → Str → Host World Err (Option Atom)
  | .dict item, key => pure (item key)
  | .object n, key => do
    let answer ← callout (.getItem (.object n) key)
    pure answer.item
  | .atom _, _ => Host.throw (.guest "TypeError")

/-- `list_names`: the strings of an iterable. -/
def listNames : Option Value → Host World Err (List Str)
  | none => pure []
  | some v => do
    let answer ← callout (.iterate v)
    pure answer.names

/-! ## Resolving a name -/

/-- The package by the name of the module, which is itself one if it has a path. -/
def packageOfName (globals : Value) : Host World Err Str := do
  match ← getItem callout globals "__name__".toList with
  | some (.str name) =>
    let path ← getItem callout globals "__path__".toList
    if path.isSome then
      pure name
    else
      match DottedName.rsplitOnce '.' name with
      | some (before, _) => pure before
      | none => pure []
  | _ => Host.throw (.guest "KeyError")

def packageOfSpec (globals : Value) : Host World Err Str := do
  match ← getItem callout globals "__spec__".toList with
  | some (.spec (some parent)) => pure parent
  | some .none => packageOfName callout globals
  | none => packageOfName callout globals
  | some _ => Host.throw (.guest "AttributeError")

/-- `_calc___package__`. -/
def calcPackage (globals : Value) : Host World Err Str := do
  match ← getItem callout globals "__package__".toList with
  | some (.str package) => pure package
  | some .none => packageOfSpec callout globals
  | none => packageOfSpec callout globals
  | some _ => Host.throw (.guest "TypeError")

/-- `_resolve_name`. -/
def resolveName (package name : Str) (level : Nat) : Except Err Str :=
  if package = [] then
    .error (.guest "ImportError")
  else
    match DottedName.ancestor package (level - 1) with
    | some base => .ok (DottedName.join base name)
    | none => .error (.guest "ImportError")

/-- The absolute name an import is about. -/
def resolve (call : ImportCall) : Host World Err Str := do
  let level ← levelOf callout call.level
  if level = 0 then
    if call.name = [] then Host.throw (.guest "ValueError") else pure call.name
  else
    match call.globals with
    | some globals =>
      let package ← calcPackage callout globals
      Host.ofExcept (resolveName package call.name level)
    | none => Host.throw (.guest "KeyError")

/-- The name of the module an import without a from-list returns. -/
def front (name target : Str) : Str :=
  target.take (target.length - (name.length - (DottedName.head name).length))

/-! ## Finding and loading -/

def logEvent (e : Event) : Host World Err Unit := Host.modify (World.log e)

/-- Loads a module that `sys.modules` lacks. It may have put itself there meanwhile. -/
def findAndLoad (name : Str) : Host World Err Unit := do
  let w ← Host.get
  match w.sysModules name with
  | some _ => pure ()
  | none =>
    let _ ← callout (.load name)
    Host.modify fun w =>
      match w.sysModules name with
      | some _ => w
      | none => w.setSys name (some ⟨.interpreter, name⟩)

/-- The module under a name in `sys.modules`. -/
def lookup (asker : GuestId) (name : Str) : Host World Err Module := do
  let w ← Host.get
  match w.sysModules name with
  | some m =>
    logEvent (.found asker name m)
    pure m
  | none => Host.throw (.guest "ModuleNotFoundError")

/-- `_gcd_import`: parents first, unless the module is there already. -/
def gcdImport (asker : GuestId) (target : Str) : Host World Err Module := do
  let w ← Host.get
  match w.sysModules target with
  | some _ => pure ()
  | none => Host.forEach (DottedName.prefixes target) (findAndLoad callout)
  lookup asker target

/-- Imports a submodule that a from-list asks for and the module lacks. That there is none
is not an error. -/
def followName (asker : GuestId) (m : Module) (target name : Str) : Host World Err Unit := do
  let answer ← callout (.hasAttr m name)
  if answer.flag then
    pure ()
  else
    let full := target ++ '.' :: name
    logEvent (.following asker full)
    match ← Host.attempt (gcdImport callout asker full) with
    | .ok sub => logEvent (.handed asker full sub)
    | .error (.guest "ModuleNotFoundError") => pure ()
    | .error e => Host.throw e

/-- `_handle_fromlist`. A star stands for the names in `__all__`, once. -/
def handleFromlist (asker : GuestId) (m : Module) (target : Str) (names : List Str) :
    Host World Err Unit :=
  Host.forEach names fun name =>
    if name = "*".toList then do
      let answer ← callout (.hasAttr m "__all__".toList)
      if answer.flag then
        let all ← callout (.attrNames m "__all__".toList)
        Host.forEach (all.names.filter (· ≠ "*".toList)) (followName callout asker m target)
      else
        pure ()
    else
      followName callout asker m target name

/-- `__import__`. -/
def importModule (asker : GuestId) (guest : Option GuestId) (call : ImportCall) :
    Host World Err Module := do
  let target ← resolve callout call
  logEvent (.delegated asker guest call target)
  let m ← gcdImport callout asker target
  let names ← listNames callout call.fromlist
  if names = [] then
    let top ← lookup asker (front call.name target)
    logEvent (.handed asker target m)
    logEvent (.handed asker (front call.name target) top)
    pure top
  else
    let answer ← callout (.hasAttr m "__path__".toList)
    let _ ← if answer.flag then handleFromlist callout asker m target names else pure ()
    logEvent (.handed asker target m)
    pure m

end Importlib

end GuestPy
