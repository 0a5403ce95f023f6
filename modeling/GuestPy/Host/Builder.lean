import GuestPy.Host.Registration
import GuestPy.Library.Fuel

/-!
# Building host classes

A host class is specified by the calls that its `build` makes on a builder.

* `Dunder` and `MemberName` are the names of members. `fromStr_eq_ok_iff` says that the names of
  the dunders can be read back.
* `ClassBuilder.perform` is one call. A property has one slot for each name, which the accessors
  of that name share.
* `ClassSpec.of` runs `build` for a class, and runs it again for each of its host bases. The
  classes whose `build` is running are on a list of the thread.
-/

namespace GuestPy.Building

open Exceptions (Err)

/-! ## Names of members -/

/-- The special methods that a host class may declare. -/
inductive Dunder where
  | repr
  | str
  | bool
  | hash
  | eq
  | ne
  | lt
  | le
  | gt
  | ge
  | len
  | getItem
  | setItem
  | delItem
  | contains
  | iter
  | next
  | call
  | enter
  | exit
  | aEnter
  | aExit
  | aiter
  | anext
  | await
  | getAttr
  | setAttr
  | delAttr
  | add
  | sub
  | mul
  | trueDiv
  | floorDiv
  | mod
  | pow
  | neg
  | abs
  | index
  | int
  | float
  | format
  deriving DecidableEq

namespace Dunder

/-- The name that guest code uses. -/
def name : Dunder → String
  | repr => "__repr__"
  | str => "__str__"
  | bool => "__bool__"
  | hash => "__hash__"
  | eq => "__eq__"
  | ne => "__ne__"
  | lt => "__lt__"
  | le => "__le__"
  | gt => "__gt__"
  | ge => "__ge__"
  | len => "__len__"
  | getItem => "__getitem__"
  | setItem => "__setitem__"
  | delItem => "__delitem__"
  | contains => "__contains__"
  | iter => "__iter__"
  | next => "__next__"
  | call => "__call__"
  | enter => "__enter__"
  | exit => "__exit__"
  | aEnter => "__aenter__"
  | aExit => "__aexit__"
  | aiter => "__aiter__"
  | anext => "__anext__"
  | await => "__await__"
  | getAttr => "__getattr__"
  | setAttr => "__setattr__"
  | delAttr => "__delattr__"
  | add => "__add__"
  | sub => "__sub__"
  | mul => "__mul__"
  | trueDiv => "__truediv__"
  | floorDiv => "__floordiv__"
  | mod => "__mod__"
  | pow => "__pow__"
  | neg => "__neg__"
  | abs => "__abs__"
  | index => "__index__"
  | int => "__int__"
  | float => "__float__"
  | format => "__format__"

/-- May the method of this name hand back an awaitable? -/
def acceptsAwaitable : Dunder → Bool
  | call | eq | ne | lt | le | gt | ge | getItem | next | enter | aEnter | aExit | anext | await
  | getAttr | add | sub | mul | trueDiv | floorDiv | mod | pow | neg | abs => true
  | repr | str | bool | hash | len | setItem | delItem | contains | iter | exit | aiter | setAttr
  | delAttr | index | int | float | format => false

/-- `FromStr` of a dunder. -/
def fromStr (value : String) : Except String Dunder :=
  match value with
  | "__repr__" => .ok repr
  | "__str__" => .ok str
  | "__bool__" => .ok bool
  | "__hash__" => .ok hash
  | "__eq__" => .ok eq
  | "__ne__" => .ok ne
  | "__lt__" => .ok lt
  | "__le__" => .ok le
  | "__gt__" => .ok gt
  | "__ge__" => .ok ge
  | "__len__" => .ok len
  | "__getitem__" => .ok getItem
  | "__setitem__" => .ok setItem
  | "__delitem__" => .ok delItem
  | "__contains__" => .ok contains
  | "__iter__" => .ok iter
  | "__next__" => .ok next
  | "__call__" => .ok call
  | "__enter__" => .ok enter
  | "__exit__" => .ok exit
  | "__aenter__" => .ok aEnter
  | "__aexit__" => .ok aExit
  | "__aiter__" => .ok aiter
  | "__anext__" => .ok anext
  | "__await__" => .ok await
  | "__getattr__" => .ok getAttr
  | "__setattr__" => .ok setAttr
  | "__delattr__" => .ok delAttr
  | "__add__" => .ok add
  | "__sub__" => .ok sub
  | "__mul__" => .ok mul
  | "__truediv__" => .ok trueDiv
  | "__floordiv__" => .ok floorDiv
  | "__mod__" => .ok mod
  | "__pow__" => .ok pow
  | "__neg__" => .ok neg
  | "__abs__" => .ok abs
  | "__index__" => .ok index
  | "__int__" => .ok int
  | "__float__" => .ok float
  | "__format__" => .ok format
  | _ => .error ("unknown dunder name: " ++ value)

theorem fromStr_name (d : Dunder) : fromStr d.name = .ok d := by
  cases d <;> rfl

theorem fromStr_eq_ok_iff {value : String} {d : Dunder} :
    fromStr value = .ok d ↔ value = d.name := by
  constructor
  · intro h
    unfold fromStr at h
    split at h <;> cases h <;> rfl
  · rintro rfl
    exact fromStr_name d

end Dunder

/-- The name of a member, of its own or a special one. -/
inductive MemberName where
  | named (name : String)
  | dunder (dunder : Dunder)
  deriving DecidableEq

namespace MemberName

/-- The text of a name. -/
def asStr : MemberName → String
  | named name => name
  | dunder d => d.name

/-- `MemberName::from`, of a text. -/
def ofStr (value : String) : MemberName :=
  match Dunder.fromStr value with
  | .ok d => .dunder d
  | .error _ => .named value

@[simp] theorem asStr_ofStr (value : String) : (ofStr value).asStr = value := by
  unfold ofStr
  cases h : Dunder.fromStr value with
  | ok d => exact (Dunder.fromStr_eq_ok_iff.mp h).symm
  | error e => rfl

end MemberName

/-! ## Specifications -/

/-- The bodies of a `ClassPropertyDeclaration`. -/
structure Accessors (F : Type) where
  get : Option F
  set : Option F
  del : Option F
  deriving DecidableEq

namespace Accessors

variable {F : Type}

/-- A property that has been declared and has no accessors yet. -/
def new : Accessors F := ⟨none, none, none⟩

/-- Sets the getter. -/
def setGet (a : Accessors F) (get : F) : Accessors F := { a with get := some get }

/-- Sets the setter. -/
def setSet (a : Accessors F) (set : F) : Accessors F := { a with set := some set }

/-- Sets the deleter. -/
def setDel (a : Accessors F) (del : F) : Accessors F := { a with del := some del }

end Accessors

/-- What is declared under a name. An asynchronous method knows the name that it has, and a
property knows its slot. -/
inductive Member (F : Type) where
  | method (function : F)
  | asyncMethod (name : MemberName) (function : F)
  | classMethod (function : F)
  | staticMethod (function : F)
  | property (slot : Nat)
  | constant (value : F)
  | generic

/-- A member of a `Namespace`. -/
inductive NamespaceMember (F : Type) where
  | constant (value : F)
  | function (function : F)
  | asyncFunction (function : F)
  | getter (get : F)
  | property (get set : F)
  | object (members : List (String × NamespaceMember F))

/-- Members by their names, in the order of their declaration. -/
abbrev Namespace (F : Type) := List (String × NamespaceMember F)

/-- A `ClassSpec` without its bases. The declarations of properties are shared, and stand in
`slots`. Without `init`, the class cannot be constructed. -/
structure ClassBody (C R F : Type) where
  name : String
  doc : Option String
  init : Option F
  members : List (MemberName × Member F)
  slots : List (Accessors F)
  statics : Namespace F
  payload : C
  requirements : List R

mutual

/-- A class as it is declared, with its bases. -/
inductive ClassSpec (C R F : Type) where
  | mk (body : ClassBody C R F) (bases : List (ClassBase C R F))

/-- A base: another host class, or a class that a module of the guest has. -/
inductive ClassBase (C R F : Type) where
  | host (spec : ClassSpec C R F)
  | imported (module qualname : String)

end

variable {C R F : Type}

namespace ClassSpec

/-- The specification without its bases. -/
def body : ClassSpec C R F → ClassBody C R F
  | mk body _ => body

/-- The bases, in the order in which they are named. -/
def bases : ClassSpec C R F → List (ClassBase C R F)
  | mk _ bases => bases

end ClassSpec

/-! ## The builder -/

/-- What `build` does with its builder. `dunderMethod` looks its name up while the class is built,
as the generated code does for a name that is given as a dunder. -/
inductive Call (C R F : Type) where
  | require (requirements : List R)
  | constructor (construct : F)
  | method (name : MemberName) (function : F)
  | asyncMethod (name : MemberName) (function : F)
  | dunderMethod (name : String) (asynchronous : Bool) (function : F)
  | classMethod (name : String) (function : F)
  | staticMethod (name : String) (function : F)
  | getter (name : String) (get : F)
  | setter (name : String) (set : F)
  | deleter (name : String) (del : F)
  | property (name : String) (get set : F)
  | constant (name : String) (value : F)
  | statics (members : Namespace F)
  | generic
  | base (payload : C)
  | importedBase (module qualname : String)

/-- The host classes of a program: `NAME`, `DOC` and `build`. The classes that `build` names as
bases are in the list. -/
structure Program (C R F : Type) where
  name : C → String
  doc : C → Option String
  build : C → List (Call C R F)
  classes : List C
  closed : ∀ c d, .base d ∈ build c → d ∈ classes

/-- `properties` is the slot that a name has. -/
structure ClassBuilder (C R F : Type) where
  body : ClassBody C R F
  bases : List (ClassBase C R F)
  error : Option Err
  properties : String → Option Nat

namespace ClassBuilder

/-- The builder that `build` gets. -/
def new (program : Program C R F) (c : C) : ClassBuilder C R F where
  body := ⟨program.name c, program.doc c, none, [], [], [], c, []⟩
  bases := []
  error := none
  properties := fun _ => none

/-- The specification, if nothing was refused. -/
def finish (b : ClassBuilder C R F) : Except Err (ClassSpec C R F) :=
  match b.error with
  | some e => .error e
  | none => .ok ⟨b.body, b.bases⟩

/-- Keeps an error, and of several the first. -/
def reject (b : ClassBuilder C R F) (e : Err) : ClassBuilder C R F :=
  { b with error := b.error.or (some e) }

/-- Declares a member. -/
def push (b : ClassBuilder C R F) (name : MemberName) (member : Member F) : ClassBuilder C R F :=
  { b with body := { b.body with members := b.body.members ++ [(name, member)] } }

/-- The error of a special method that must answer at once. -/
def unawaitable (name : String) (d : Dunder) : Err :=
  .unsupported ("host class " ++ name ++ " cannot declare " ++ d.name ++ " as async")

/-- Declares an asynchronous member. One that is refused is declared all the same. -/
def pushAsync (b : ClassBuilder C R F) (name : MemberName) (member : Member F) :
    ClassBuilder C R F :=
  match name with
  | .dunder d =>
    if d.acceptsAwaitable then b.push (.dunder d) member
    else (b.reject (unawaitable b.body.name d)).push (.dunder d) member
  | .named name => b.push (.named name) member

/-- The slot of a property. Its first accessor declares the property. -/
def propertySlot (b : ClassBuilder C R F) (name : String) : Nat × ClassBuilder C R F :=
  match b.properties name with
  | some slot => (slot, b)
  | none =>
    let slot := b.body.slots.length
    let b := { b with
      body := { b.body with slots := b.body.slots ++ [Accessors.new] }
      properties := Function.update b.properties name (some slot) }
    (slot, b.push (.ofStr name) (.property slot))

/-- Changes the accessors of a property. -/
def access (b : ClassBuilder C R F) (name : String) (f : Accessors F → Accessors F) :
    ClassBuilder C R F :=
  let (slot, b) := b.propertySlot name
  { b with body := { b.body with slots := b.body.slots.modify slot f } }

/-- What the context of a call has to provide. -/
def require (b : ClassBuilder C R F) (requirements : List R) : ClassBuilder C R F :=
  { b with body := { b.body with requirements := b.body.requirements ++ requirements } }

/-- What constructs an instance. The last one counts. -/
def «constructor» (b : ClassBuilder C R F) (construct : F) : ClassBuilder C R F :=
  { b with body := { b.body with init := some construct } }

/-- A method of instances. -/
def method (b : ClassBuilder C R F) (name : MemberName) (function : F) : ClassBuilder C R F :=
  b.push name (.method function)

/-- A method that answers with an awaitable. -/
def asyncMethod (b : ClassBuilder C R F) (name : MemberName) (function : F) :
    ClassBuilder C R F :=
  b.pushAsync name (.asyncMethod name function)

/-- A method that is called with the class. -/
def classMethod (b : ClassBuilder C R F) (name : String) (function : F) : ClassBuilder C R F :=
  b.push (.ofStr name) (.classMethod function)

/-- A method that is called with its arguments only. -/
def staticMethod (b : ClassBuilder C R F) (name : String) (function : F) : ClassBuilder C R F :=
  b.push (.ofStr name) (.staticMethod function)

/-- Lets a property be read. -/
def getter (b : ClassBuilder C R F) (name : String) (get : F) : ClassBuilder C R F :=
  b.access name fun a => a.setGet get

/-- Lets a property be assigned. -/
def setter (b : ClassBuilder C R F) (name : String) (set : F) : ClassBuilder C R F :=
  b.access name fun a => a.setSet set

/-- Lets a property be deleted. -/
def deleter (b : ClassBuilder C R F) (name : String) (del : F) : ClassBuilder C R F :=
  b.access name fun a => a.setDel del

/-- A property that can be read and assigned. -/
def property (b : ClassBuilder C R F) (name : String) (get set : F) : ClassBuilder C R F :=
  (b.getter name get).setter name set

/-- A value of the class. -/
def constant (b : ClassBuilder C R F) (name : String) (value : F) : ClassBuilder C R F :=
  b.push (.ofStr name) (.constant value)

/-- The members of a namespace, which become attributes of the class itself. -/
def statics (b : ClassBuilder C R F) (members : Namespace F) : ClassBuilder C R F :=
  { b with body := { b.body with statics := b.body.statics ++ members } }

/-- Lets the class be subscripted with types. -/
def generic (b : ClassBuilder C R F) : ClassBuilder C R F :=
  b.push (.ofStr "__class_getitem__") .generic

/-- A base that a module of the guest has. -/
def importedBase (b : ClassBuilder C R F) (module qualname : String) : ClassBuilder C R F :=
  { b with bases := b.bases ++ [.imported module qualname] }

end ClassBuilder

/-! ## Building a class -/

/-- What a panic while a class is being built is about. -/
inductive Panic (C : Type) where
  | cycle (payload : C)
  | unknownDunder (name : String)
  deriving DecidableEq

/-- `BUILDING`, and what the panics of the thread said. -/
structure Thread (C : Type) where
  building : List C
  panics : List (Panic C)

/-- Computations of `build`. -/
abbrev Build (C A : Type) := Host (Thread C) Err A

/-- Panics, and says why. -/
def panic {A : Type} (p : Panic C) : Build C A := do
  Host.modify fun t => { t with panics := t.panics ++ [p] }
  Host.panic

namespace ClassBuilder

/-- A base is built by `of`, and what it fails with is kept. -/
def base (of : C → Build C (ClassSpec C R F)) (b : ClassBuilder C R F) (payload : C) :
    Build C (ClassBuilder C R F) := do
  match ← Host.attempt (of payload) with
  | .ok spec => pure { b with bases := b.bases ++ [.host spec] }
  | .error e => pure (b.reject e)

/-- Looks the name up and declares the method. A name that is unknown panics. -/
def dunderMethod (b : ClassBuilder C R F) (name : String) (asynchronous : Bool) (function : F) :
    Build C (ClassBuilder C R F) :=
  match Dunder.fromStr name with
  | .ok d =>
    pure (if asynchronous then b.asyncMethod (.dunder d) function
      else b.method (.dunder d) function)
  | .error _ => panic (.unknownDunder name)

/-- One call. -/
def perform (of : C → Build C (ClassSpec C R F)) (b : ClassBuilder C R F) :
    Call C R F → Build C (ClassBuilder C R F)
  | .require requirements => pure (b.require requirements)
  | .constructor construct => pure (b.constructor construct)
  | .method name function => pure (b.method name function)
  | .asyncMethod name function => pure (b.asyncMethod name function)
  | .dunderMethod name asynchronous function => b.dunderMethod name asynchronous function
  | .classMethod name function => pure (b.classMethod name function)
  | .staticMethod name function => pure (b.staticMethod name function)
  | .getter name get => pure (b.getter name get)
  | .setter name set => pure (b.setter name set)
  | .deleter name del => pure (b.deleter name del)
  | .property name get set => pure (b.property name get set)
  | .constant name value => pure (b.constant name value)
  | .statics members => pure (b.statics members)
  | .generic => pure b.generic
  | .base payload => b.base of payload
  | .importedBase module qualname => pure (b.importedBase module qualname)

/-- The calls of `build`, one after another. -/
def performAll (of : C → Build C (ClassSpec C R F)) :
    ClassBuilder C R F → List (Call C R F) → Build C (ClassBuilder C R F)
  | b, [] => pure b
  | b, call :: calls => do
    let b ← b.perform of call
    performAll of b calls

end ClassBuilder

/-- `ClassSpec::of`. The list of the thread is shortened only where `build` returns. -/
def ClassSpec.of [DecidableEq C] (program : Program C R F) :
    Nat → C → Build C (ClassSpec C R F)
  | 0, _ => Host.stuck
  | fuel + 1, c => do
    let t ← Host.get
    if c ∈ t.building then panic (.cycle c)
    else do
      Host.modify fun t => { t with building := t.building ++ [c] }
      let b ← (ClassBuilder.new program c).performAll (of program fuel) (program.build c)
      Host.modify fun t => { t with building := t.building.dropLast }
      Host.ofExcept b.finish

end GuestPy.Building
