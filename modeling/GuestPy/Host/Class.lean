import GuestPy.Guest.Activity
import GuestPy.Library.Program

/-!
# Host classes

A host class is declared once, by its payload type, and realised once in a runtime: the
type object is kept in the cache of the runtime and handed to every guest that imports it.

* `rawBody` is what the interpreter calls: a host body together with the identifier of the
  guest that it was wrapped for.
* `ClassRealiser.realise` makes a type object and all its callables for the guest that is
  entered, unless the cache has one. Each of its steps may run other code first.
* `callMember` is a call of a member: the guest of the callable is looked up and entered.
-/

namespace GuestPy.Classes

/-! ## Declarations -/

mutual

/-- A member of a class, or of its static namespace. -/
inductive Declaration where
  | method
  | classMethod
  | staticMethod
  | property (get set del : Bool)
  | function
  | value
  | object (members : Namespace)

inductive Namespace where
  | nil
  | cons (name : String) (member : Declaration) (rest : Namespace)

end

mutual

/-- A class. Its payload type stands for the class in the cache. -/
inductive ClassSpec where
  | mk (payload : Nat) (name : String) (bases : ClassBases) (members statics : Namespace)

inductive ClassBases where
  | nil
  | host (base : ClassSpec) (rest : ClassBases)
  | imported (module qualname : String) (rest : ClassBases)

end

def ClassSpec.payload : ClassSpec → Nat
  | .mk payload .. => payload

mutual

/-- `host_lineage`: the class and its host bases. -/
def ClassSpec.hostLineage : ClassSpec → List ClassSpec
  | .mk payload name bases members statics =>
    .mk payload name bases members statics :: bases.hostLineage

def ClassBases.hostLineage : ClassBases → List ClassSpec
  | .nil => []
  | .host base rest => base.hostLineage ++ rest.hostLineage
  | .imported _ _ rest => rest.hostLineage

end

/-! ## Realised classes -/

/-- Which host body a callable runs. -/
inductive Slot where
  | new
  | init
  | call (path : List String)
  | getter (path : List String)
  | setter (path : List String)
  | deleter (path : List String)
  deriving DecidableEq

/-- A callable of a type object: a host body, wrapped for a guest. -/
structure RawBody where
  guest : GuestId
  slot : Slot
  deriving DecidableEq

/-- A type object made from a host class, with its callables. -/
structure HostClass where
  id : Nat
  payload : Nat
  bodies : List RawBody

/-- What a guest gets for a host class: its type object, and those of its host bases. The
interpreter finds a member in one of them. -/
abbrev Lineage := List HostClass

structure InternedEntry where
  spec : ClassSpec
  realised : Option Lineage

/-- What came of calling a member, for a guest whose own policy `admits` an operation or
not: the guest that the body runs with an `Enter` for, or the error. -/
inductive Event where
  | called (caller : GuestId) (c : HostClass) (body : RawBody) (admits : Bool)
      (outcome : Except (Error String) GuestId)

/-- A request for a class: it was made, while a realisation of the class was underway or not,
or it was answered. -/
inductive Request where
  | made (payload : Nat) (underway : Bool)
  | answered (payload : Nat) (answer : Lineage)

/-- `makers` records the guest that each type object was made for, and `realising` the
realisations that are underway, the innermost first. -/
structure World where
  runtime : RuntimeInner
  classes : Nat → Option InternedEntry
  objects : Nat
  makers : Nat → Option GuestId
  realising : List Nat
  requests : List Request
  obtained : GuestId → List Lineage
  events : List Event
  calls : Nat

namespace World

def new : World where
  runtime := .new
  classes := fun _ => none
  objects := 0
  makers := fun _ => none
  realising := []
  requests := []
  obtained := fun _ => []
  events := []
  calls := 0

def tick (w : World) : World := { w with calls := w.calls + 1 }

def withRuntime (f : RuntimeInner → RuntimeInner) (w : World) : World :=
  { w with runtime := f w.runtime }

/-- `Interned::intern`: the first specification of a payload stays. -/
def intern (classes : Nat → Option InternedEntry) (spec : ClassSpec) :
    Nat → Option InternedEntry :=
  if (classes spec.payload).isSome then classes
  else Function.update classes spec.payload (some ⟨spec, none⟩)

def absorbClass (spec : ClassSpec) (w : World) : World :=
  { w with classes := spec.hostLineage.foldl intern w.classes }

def setRealised (payload : Nat) (c : Lineage) (w : World) : World :=
  { w with
    classes := Function.update w.classes payload
      ((w.classes payload).map fun entry => { entry with realised := some c }) }

/-- A new type object, made for `g`. -/
def make (g : GuestId) (w : World) : World :=
  { w with objects := w.objects + 1, makers := Function.update w.makers w.objects (some g) }

def request (payload : Nat) (w : World) : World :=
  { w with requests := .made payload (w.realising.contains payload) :: w.requests }

def answer (payload : Nat) (c : Lineage) (w : World) : World :=
  { w with requests := .answered payload c :: w.requests }

def setOut (payload : Nat) (w : World) : World := { w with realising := payload :: w.realising }

def arrive (w : World) : World := { w with realising := w.realising.tail }

def hand (g : GuestId) (c : Lineage) (w : World) : World :=
  { w with obtained := Function.update w.obtained g (c :: w.obtained g) }

def log (e : Event) (w : World) : World := { w with events := e :: w.events }

end World

/-- The moments at which other code may run. -/
inductive Call where
  | external (module qualname : String)
  | metaclass (name : String)
  | prepare (name : String)
  | wrap (slot : Slot)
  | property (path : List String)
  | value (g : GuestId) (path : List String)
  | namespace (path : List String)
  | setItem (name : String)
  | create (name : String)
  | body (b : RawBody)
  | raise (e : Error String)

abbrev Err := Error String

/-! ## Realising -/

section Realising

variable (callout : Call → Host World Err Bool)

/-- Makes one callable for `g`: a raw body, and the object of the interpreter around it. -/
def callable (g : GuestId) (slot : Slot) : Host World Err (List RawBody) := do
  let _ ← callout (.wrap slot)
  pure [⟨g, slot⟩]

def accessor (g : GuestId) (present : Bool) (slot : Slot) : Host World Err (List RawBody) :=
  if present then callable callout g slot else pure []

mutual

/-- `DeclareMember::realise`: the callables of a member. -/
def Declaration.realise (g : GuestId) (path : List String) :
    Declaration → Host World Err (List RawBody)
  | .method => callable callout g (.call path)
  | .classMethod => callable callout g (.call path)
  | .staticMethod => callable callout g (.call path)
  | .function => callable callout g (.call path)
  | .property get set del => do
    let getter ← accessor callout g get (.getter path)
    let setter ← accessor callout g set (.setter path)
    let deleter ← accessor callout g del (.deleter path)
    let _ ← callout (.property path)
    pure (getter ++ setter ++ deleter)
  | .value => do
    let _ ← callout (.value g path)
    pure []
  | .object members => do
    let bodies ← members.realise g path
    let _ ← callout (.namespace path)
    pure bodies

/-- Realises the members in order, and stores each one. -/
def Namespace.realise (g : GuestId) (path : List String) :
    Namespace → Host World Err (List RawBody)
  | .nil => pure []
  | .cons name member rest => do
    let bodies ← member.realise g (path ++ [name])
    let _ ← callout (.setItem name)
    let others ← rest.realise g path
    pure (bodies ++ others)

end

namespace ClassRealiser

def classNew (g : GuestId) : Host World Err (List RawBody) := callable callout g .new

def classInit (g : GuestId) : Host World Err (List RawBody) := callable callout g .init

/-- A realisation is underway for the time of `m`. -/
def underway {α : Type} (payload : Nat) (m : Host World Err α) : Host World Err α :=
  Host.bind (Host.modify (World.setOut payload)) fun _ => Host.guarded m World.arrive

def answer (payload : Nat) (lineage : Lineage) : Host World Err Lineage := do
  Host.modify (World.answer payload lineage)
  pure lineage

/-- Makes the type object, once the bases are there. -/
def create (g : GuestId) (payload : Nat) (name : String) (members statics : Namespace)
    (bases : Lineage) : Host World Err Lineage := do
  let _ ← callout (.metaclass name)
  let _ ← callout (.prepare name)
  let bodies ← members.realise callout g []
  let _ ← callout (.setItem "__doc__")
  let _ ← callout (.setItem "__module__")
  let new ← classNew callout g
  let _ ← callout (.setItem "__new__")
  let init ← classInit callout g
  let _ ← callout (.setItem "__init__")
  let _ ← callout (.create name)
  let w ← Host.get
  Host.modify (World.make g)
  let shared ← statics.realise callout g []
  pure (⟨w.objects, payload, bodies ++ new ++ init ++ shared⟩ :: bases)

mutual

/-- `realise`, under an `Enter` for `g`. -/
def realise (g : GuestId) : ClassSpec → Host World Err Lineage
  | .mk payload name bases members statics => do
    Host.modify (World.request payload)
    let w ← Host.get
    match w.classes payload with
    | none => Host.throw (.unexpected "host class was not registered")
    | some entry =>
      match entry.realised with
      | some lineage => answer payload lineage
      | none =>
        let lineage ← underway payload do
          let bases ← ClassRealiser.bases g bases
          create callout g payload name members statics bases
        Host.modify (World.setRealised payload lineage)
        answer payload lineage

/-- The host bases of a class; an imported base has to be a class. -/
def bases (g : GuestId) : ClassBases → Host World Err Lineage
  | .nil => pure []
  | .host base rest => do
    let base ← realise g base
    let others ← bases g rest
    pure (base ++ others)
  | .imported module qualname rest => do
    let isClass ← callout (.external module qualname)
    if isClass then
      bases g rest
    else
      Host.throw (.conversion (module ++ "." ++ qualname ++ " is not a class"))

end

/-- `ClassSpec::realise_registered`. -/
def realiseRegistered (g : GuestId) (payload : Nat) : Host World Err Lineage := do
  let w ← Host.get
  match w.classes payload with
  | some entry => realise callout g entry.spec
  | none => Host.throw (.unexpected "host class was not registered")

end ClassRealiser

end Realising

/-! ## Entering -/

section Entering

variable (callout : Call → Host World Err Bool) {α : Type}

def raise (e : Err) : Host World Err α := do
  let _ ← callout (.raise e)
  Host.throw (.guest "Exception")

/-- Runs `m` under an activation token of `g`. -/
def underToken (g : GuestId) (r : RuntimeInner) (m : Host World Err α) : Host World Err α :=
  Host.bind (Host.modify (World.withRuntime fun _ => r)) fun _ =>
    Host.guarded m (World.withRuntime fun r => r.step (.drop g))

/-- `guest_enter_with`: always a token, and errors are raised in the interpreter. -/
def guestEnterWith (g : GuestId) (inner : GuestInner) (m : Host World Err α) :
    Host World Err α := do
  let w ← Host.get
  match ActiveGuest.new w.runtime g inner .operation with
  | .error e => raise callout e
  | .ok r =>
    underToken g r do
      match ← Host.attempt m with
      | .ok a => pure a
      | .error e => raise callout e

/-- `enter`: a token unless `g` is the innermost guest. -/
def enter (g : GuestId) (m : Host World Err α) : Host World Err α := do
  let w ← Host.get
  match w.runtime.guests g with
  | none => Host.throw .closed
  | some inner =>
    if inner.closed then
      Host.throw .closed
    else if w.runtime.isInnermost g then
      m
    else
      match ActiveGuest.new w.runtime g inner .operation with
      | .error e => Host.throw e
      | .ok r => underToken g r m

/-- A guest imports through the host, or through its hook or the dispatcher. -/
def enterForImport (g : GuestId) (byHost : Bool) (m : Host World Err α) : Host World Err α :=
  if byHost then
    enter g m
  else do
    let w ← Host.get
    match w.runtime.guests g with
    | none => raise callout .closed
    | some inner => guestEnterWith callout g inner m

def importClass (g : GuestId) (byHost : Bool) (m : Host World Err Lineage) :
    Host World Err Unit := do
  let lineage ← enterForImport callout g byHost m
  Host.modify (World.hand g lineage)

/-- The body of a callable: its guest is looked up, whether closed or not, and entered. -/
def rawBody (caller : GuestId) (c : HostClass) (admits : Bool) (body : RawBody) :
    Host World Err Unit := do
  let w ← Host.get
  match w.runtime.get body.guest with
  | .error e =>
    Host.modify (World.log (.called caller c body admits (.error e)))
    raise callout e
  | .ok inner =>
    match ActiveGuest.new w.runtime body.guest inner .operation with
    | .error e =>
      Host.modify (World.log (.called caller c body admits (.error e)))
      raise callout e
    | .ok _ =>
      Host.modify (World.log (.called caller c body admits (.ok body.guest)))
      guestEnterWith callout body.guest inner do
        let _ ← callout (.body body)
        pure ()

/-- Does the guest's own policy let an operation of it begin? -/
def admits (r : RuntimeInner) (inner : GuestInner) : Bool :=
  match (inner.activity.begin (r.elapsed inner) .operation : Except Err _) with
  | .ok _ => true
  | .error _ => false

/-- Code of a live guest calls a member: the `k`th callable of the `j`th class in the
lineage of the `i`th class that it has imported. -/
def callMember (caller : GuestId) (i j k : Nat) : Host World Err Unit := do
  let w ← Host.get
  match w.runtime.guests caller, (w.obtained caller)[i]? with
  | some inner, some lineage =>
    if inner.closed then
      pure ()
    else
      match lineage[j]? with
      | none => pure ()
      | some c =>
        match c.bodies[k]? with
        | none => pure ()
        | some body => rawBody callout caller c (admits w.runtime inner) body
  | _, _ => pure ()

end Entering

/-! ## The system -/

/-- What happens in a runtime: its guests come, go and are closed, classes are declared, and
guests import them and call their members. -/
inductive Op where
  | activity (a : Action)
  | absorb (spec : ClassSpec)
  | «import» (g : GuestId) (byHost : Bool) (spec : ClassSpec)
  | registered (g : GuestId) (byHost : Bool) (payload : Nat)
  | call (caller : GuestId) (i j k : Nat)

def performOp (callout : Call → Host World Err Bool) : Op → Host World Err Unit
  | .activity a => Host.modify (World.withRuntime fun r => r.step a)
  | .absorb spec => Host.modify (World.absorbClass spec)
  | .import g byHost spec => importClass callout g byHost (ClassRealiser.realise callout g spec)
  | .registered g byHost payload =>
    importClass callout g byHost (ClassRealiser.realiseRegistered callout g payload)
  | .call caller i j k => callMember callout caller i j k

def classes : System World Err Op Unit Call Bool where
  body := performOp
  tick := World.tick

end GuestPy.Classes
