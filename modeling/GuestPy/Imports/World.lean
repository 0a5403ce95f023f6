import GuestPy.Guest.Activity
import GuestPy.Imports.Name
import GuestPy.Library.Program

/-!
# The state of imports

What imports read and write: the bindings of each guest, the caches of the runtime, the
module table of the interpreter, and the dynamic borrow flags of the cells these live in.

* `GuestBindings` holds what a guest may import and, in its `state`, what it has imported.
* `Cell` names the cells with a borrow flag, and a `Frame` is an exclusive borrow that lasts
  while other code may run.
* An `Event` records one thing an import did, together with the data it decided on. The
  events of a run are kept, newest first.
* The `Ledger` remembers what the bindings alone do not tell: what a cached module was realised
  from, what is underway, and what has failed. Nothing but the ledger itself reads it.
-/

namespace GuestPy

/-! ## Modules and what provides them -/

/-- Who made a module object. Extension modules are shared by the process. -/
inductive Maker where
  | interpreter
  | guest (g : GuestId)
  | extension
  deriving DecidableEq

structure Module where
  maker : Maker
  name : Str
  deriving DecidableEq

/-- A host module. A member with a module getter is computed when it is read. -/
structure ModuleSpec where
  name : Str
  members : List (Str × Bool)

structure NativeModule where
  name : Str
  aliases : List Str

structure BundleModule where
  origin : Str
  package : Bool
  deriving DecidableEq

structure Bundle where
  id : Nat
  root : Option Str
  modules : List (Str × BundleModule)
  deriving DecidableEq

namespace Bundle

def names (b : Bundle) : List Str := b.modules.map Prod.fst

def module (b : Bundle) (dotted : Str) : Option BundleModule := b.modules.lookup dotted

/-- The number of top-level modules. -/
def roots (b : Bundle) : Nat := (b.names.filter fun name => !name.contains '.').length

end Bundle

/-- The native extensions of a bundle: their names and, where one fits the interpreter, a
number that stands for its contents. -/
structure PreparedExtensions where
  names : List Str
  contents : Str → Option Nat

instance : Inhabited PreparedExtensions := ⟨⟨[], fun _ => none⟩⟩

structure BindingState where
  sources : Str → Option Bundle
  prepared : Nat → Option PreparedExtensions
  extensions : Str → Option PreparedExtensions
  realised : Str → Option Module
  loaded : Str → Option Nat

structure GuestBindings where
  specs : Str → Option ModuleSpec
  natives : Str → Option NativeModule
  denied : Str → Bool
  state : BindingState
  named : ∀ dotted spec, specs dotted = some spec → spec.name = dotted

/-- What a runtime, or a guest of it, is built with. -/
structure Catalog where
  modules : List ModuleSpec
  natives : List NativeModule
  bundles : List Bundle
  denied : List Str

/-- `GuestBindings::new`: what the guest binds itself overrides what the runtime binds, and
what either denies is denied. -/
def GuestBindings.new (runtime guest : Catalog) (prepare : Nat → PreparedExtensions) :
    GuestBindings where
  specs dotted := (runtime.modules ++ guest.modules).reverse.find? (·.name = dotted)
  natives dotted :=
    (runtime.natives ++ guest.natives).reverse.find? fun n => n.name = dotted ∨ dotted ∈ n.aliases
  denied name := decide (name ∈ runtime.denied ++ guest.denied)
  state :=
    { sources := fun dotted =>
        (runtime.bundles ++ guest.bundles).reverse.find? fun b => dotted ∈ b.names
      prepared := fun id =>
        ((runtime.bundles ++ guest.bundles).find? fun b => b.id = id).map fun b => prepare b.id
      extensions := fun dotted =>
        ((runtime.bundles ++ guest.bundles).map fun b => prepare b.id).reverse.find?
          fun loader => dotted ∈ loader.names
      realised := fun _ => none
      loaded := fun _ => none }
  named dotted spec h := by simpa using List.find?_some h

/-! ## Python values -/

inductive Atom where
  | none
  | str (s : Str)
  | int (i : Int)
  | spec (parent : Option Str)
  | other
  deriving DecidableEq, Inhabited

/-- An argument of an import. A `dict` is read without running code; reading an `object`
runs code, and may answer differently each time. -/
inductive Value where
  | atom (a : Atom)
  | dict (item : Str → Option Atom)
  | object (n : Nat)

structure Args where
  positional : List Value
  keyword : List (Str × Value)

/-- The arguments of an import, by name. -/
structure ImportCall where
  name : Str
  globals : Option Value
  locals : Option Value
  fromlist : Option Value
  level : Option Value

/-! ## Cells -/

inductive Cell where
  | bindings (g : GuestId)
  | classes
  | exceptions
  | code
  deriving DecidableEq

/-- A `RefCell` flag, as far as other code can see it: shared borrows end before other code
runs. -/
inductive BorrowFlag where
  | unused
  | writing
  deriving DecidableEq

/-- An exclusive borrow held while other code may run. -/
inductive Frame where
  | mounting (g : GuestId)
  | writing (c : Cell)
  deriving DecidableEq

def Frame.cell : Frame → Cell
  | mounting g => .bindings g
  | writing c => c

/-! ## Events -/

/-- How a request reached the runtime: through the hook of a guest, through the dispatcher
(with the live guest its globals name and the innermost guest), or through the host. -/
inductive Via where
  | hook
  | dispatcher (named innermost : Option GuestId)
  | host

/-- One thing an import did. `asker` is the guest whose code asks, `guest` the one that the
request is attributed to. -/
inductive Event where
  | asked (asker : GuestId) (via : Via) (guest : Option GuestId)
  | checked (g : GuestId) (dotted : Str)
  | expanding (g : GuestId) (full : Str)
  | realised (g : GuestId) (name : Str) (m : Module)
  | delegated (asker : GuestId) (guest : Option GuestId) (call : ImportCall) (target : Str)
  | following (asker : GuestId) (full : Str)
  | found (asker : GuestId) (name : Str) (m : Module)
  | handed (asker : GuestId) (name : Str) (m : Module)
  | borrowed (c : Cell) (frames : List Frame) (conflict : Bool)

/-! ## The ledger -/

/-- What a module is realised from. -/
inductive Origin where
  | host
  | native
  | source (bundle : Nat)
  | extension
  deriving DecidableEq

/-- What is bound under a name: host modules first, native extensions last. -/
def GuestBindings.offer (b : GuestBindings) (dotted : Str) : Option Origin :=
  match b.specs dotted, b.natives dotted, b.state.sources dotted, b.state.extensions dotted with
  | some _, _, _, _ => some .host
  | none, some _, _, _ => some .native
  | none, none, some bundle, _ => some (.source bundle.id)
  | none, none, none, some _ => some .extension
  | none, none, none, none => none

/-- What is underway: the import of a name, which is bound or not, and the realisation of a
module. -/
inductive Underway where
  | walking (g : GuestId) (dotted : Str) (bound : Bool)
  | realising (g : GuestId) (name : Str) (origin : Origin)
  deriving DecidableEq

/-- What an import found and did, as a reader of the bindings sees it. `owners` are the bundles
that the guest has mounted and that have the name with all its packages. -/
inductive Record where
  | asked (asker : GuestId) (guest : Option GuestId) (name : Str) (bound rooted : Bool)
  | routed (asker g : GuestId) (name : Str) (bound : Bool) (owners : List Bundle) (handled : Bool)
  | walked (g : GuestId) (dotted : Str) (bound rooted : Bool)
  | missing (g : GuestId) (name : Str) (bound : Bool) (owners : List Bundle)
  | chose (g : GuestId) (name : Str) (origin : Origin) (offer : Option Origin)
  | joined (g : GuestId) (name : Str) (stale : Bool)
  | removed (g : GuestId) (name : Str) (others : Nat)
  | failed (g : GuestId) (name : Str) (others : Nat) (left : Option Module)
      (lost : List (GuestId × Str))
  | imported (g : GuestId) (dotted : Str) (origin offer : Option Origin) (mounted owners : List Bundle)
      (linked : Bool)
  | mounted (g : GuestId) (bundle : Bundle) (clash : Bool)
  | refused (g : GuestId) (before after : GuestBindings)

/-- What is remembered of the imports of a run, next to the state that they work on:

* what is underway, innermost first;
* what the module in the cache was realised from, and the names that are set in their parent;
* how many realisations of a name have begun and not failed, which names have failed since they
  were last cached, and which realisations have completed;
* the bundles that are mounted. -/
structure Ledger where
  records : List Record
  stack : List Underway
  origins : GuestId → Str → Option Origin
  linked : GuestId → Str → Bool
  unfailed : GuestId → Str → Nat
  stale : GuestId → Str → Bool
  completed : List (GuestId × Str)
  mounted : GuestId → List Bundle

def Ledger.new : Ledger where
  records := []
  stack := []
  origins := fun _ _ => none
  linked := fun _ _ => false
  unfailed := fun _ _ => 0
  stale := fun _ _ => false
  completed := []
  mounted := fun _ => []

/-- The bindings of all guests, with the ledger. -/
structure Holdings where
  bindings : GuestId → GuestBindings
  ledger : Ledger

/-- `f` with another value for one name of one guest. -/
def setName {α : Type} (f : GuestId → Str → α) (g : GuestId) (name : Str) (a : α) :
    GuestId → Str → α :=
  fun x n => if x = g ∧ n = name then a else f x n

namespace Holdings

variable (h : Holdings)

def cached (g : GuestId) (name : Str) : Option Module := (h.bindings g).state.realised name

def offer (g : GuestId) (name : Str) : Option Origin := (h.bindings g).offer name

/-- Is `name` bound to `g` and not denied? -/
def binds (g : GuestId) (name : Str) : Bool :=
  !DottedName.isDenied (h.bindings g).denied name && (h.offer g name).isSome

/-- Is every package of `name` bound to `g`, and `name` too? -/
def rooted (g : GuestId) (name : Str) : Bool :=
  (DottedName.prefixes name).all fun p => (h.offer g p).isSome

def owners (g : GuestId) (name : Str) : List Bundle :=
  (h.ledger.mounted g).filter fun b => (DottedName.prefixes name).all (· ∈ b.names)

/-- Is `name` in the cache, and set in the parent that is there? -/
def inPlace (g : GuestId) (name : Str) : Bool :=
  (h.cached g name).isSome && ((DottedName.parent name).isNone || h.ledger.linked g name)

/-- Is a name of the bundle bound to something else, or realised from something else? -/
def clashes (g : GuestId) (bundle : Bundle) : Bool :=
  bundle.names.any fun name =>
    ((h.bindings g).specs name).isSome || ((h.bindings g).natives name).isSome ||
      ((h.cached g name).isSome && h.ledger.origins g name != some (.source bundle.id)) ||
      (h.ledger.stack.any fun u =>
        match u with
        | .realising x n o => x == g && n == name && o != .source bundle.id
        | .walking .. => false) ||
      (h.ledger.mounted g).any fun b => b != bundle && b.names.contains name

/-! ### What is written down -/

def note (r : Record) : Ledger := { h.ledger with records := r :: h.ledger.records }

def asked (asker : GuestId) (guest : Option GuestId) (name : Str) : Ledger :=
  h.note (.asked asker guest name (h.binds asker name) (h.rooted asker name))

def routed (asker g : GuestId) (name : Str) (handled : Bool) : Ledger :=
  h.note (.routed asker g name (h.binds asker name) (h.owners g name) handled)

def walk (g : GuestId) (dotted : Str) : Ledger :=
  let bound := (h.offer g dotted).isSome
  { h.note (.walked g dotted bound (h.rooted g dotted)) with
    stack := .walking g dotted bound :: h.ledger.stack }

def leave : Ledger := { h.ledger with stack := h.ledger.stack.tail }

/-- The bundles that own the name that is being imported. -/
def walkOwners : List Bundle :=
  match h.ledger.stack.head? with
  | some (.walking g dotted _) => h.owners g dotted
  | _ => []

/-- Is the name that is being imported bound? -/
def walkBound : Bool :=
  match h.ledger.stack.head? with
  | some (.walking _ _ bound) => bound
  | _ => false

def choose (g : GuestId) (name : Str) (o : Origin) : Ledger :=
  { h.note (.chose g name o (h.offer g name)) with
    stack := .realising g name o :: h.ledger.stack
    unfailed := setName h.ledger.unfailed g name (h.ledger.unfailed g name + 1) }

def joined (g : GuestId) (name : Str) : Ledger := h.note (.joined g name (h.ledger.stale g name))

/-- The module that is underway enters the cache. What was set in the module before is gone. -/
def caching (g : GuestId) (name : Str) : Ledger :=
  { h.ledger with
    origins := setName h.ledger.origins g name
      (match h.ledger.stack.head? with
      | some (.realising _ _ o) => some o
      | _ => none)
    linked := fun x n =>
      if x = g ∧ (DottedName.parent n).map Prod.fst = some name then false
      else h.ledger.linked x n
    stale := setName h.ledger.stale g name false }

def link (g : GuestId) (name : Str) : Ledger :=
  { h.ledger with linked := setName h.ledger.linked g name true }

def complete (g : GuestId) (name : Str) : Ledger :=
  { h.ledger with completed := (g, name) :: h.ledger.completed }

/-- A failed module leaves the cache. `since` counts the realisations before it. -/
def removed (g : GuestId) (name : Str) (since : Nat) : Ledger :=
  { h.note (.removed g name (h.ledger.unfailed g name - (since + 1))) with
    unfailed := setName h.ledger.unfailed g name (h.ledger.unfailed g name - 1) }

/-- What has completed and is not in the cache. -/
def lost : List (GuestId × Str) := h.ledger.completed.filter fun x => (h.cached x.1 x.2).isNone

def failed (g : GuestId) (name : Str) (since : Nat) : Ledger :=
  { h.note (.failed g name (h.ledger.unfailed g name - since) (h.cached g name) h.lost) with
    stale := setName h.ledger.stale g name true }

/-- Nothing is bound under the name, and so its import fails. -/
def lack (g : GuestId) (name : Str) : Ledger :=
  { h.ledger with
    records := .failed g name 0 (h.cached g name) h.lost ::
      .missing g name h.walkBound h.walkOwners :: h.ledger.records }

def imported (g : GuestId) (dotted : Str) : Ledger :=
  h.note (.imported g dotted (h.ledger.origins g dotted) (h.offer g dotted) (h.ledger.mounted g)
    (h.owners g dotted) ((DottedName.prefixes dotted).all (h.inPlace g)))

def mount (g : GuestId) (bundle : Bundle) (clash : Bool) : Ledger :=
  { h.note (.mounted g bundle clash) with
    mounted := Function.update h.ledger.mounted g (bundle :: h.ledger.mounted g) }

def remount (g : GuestId) (bundle : Bundle) : Ledger :=
  h.note (.mounted g bundle (decide (bundle ∉ h.ledger.mounted g)))

def refused (g : GuestId) (before : GuestBindings) : Ledger :=
  h.note (.refused g before (h.bindings g))

end Holdings

/-! ## The world -/

structure World where
  runtime : RuntimeInner
  bindings : GuestId → GuestBindings
  code : Nat → Str → Bool
  sysModules : Str → Option Module
  loadedExtensions : Str → Option (Nat × Module)
  flags : Cell → BorrowFlag
  frames : List Frame
  events : List Event
  ledger : Ledger
  calls : Nat

namespace World

/-- A runtime without guests. `bindings` are those that the guests to come are built with. -/
def new (bindings : GuestId → GuestBindings) : World where
  runtime := .new
  bindings := bindings
  code := fun _ _ => false
  sysModules := fun _ => none
  loadedExtensions := fun _ => none
  flags := fun _ => .unused
  frames := []
  events := []
  ledger := .new
  calls := 0

def holdings (w : World) : Holdings := ⟨w.bindings, w.ledger⟩

/-- Writes to the ledger. -/
def record (f : Holdings → Ledger) (w : World) : World := { w with ledger := f w.holdings }

def log (e : Event) (w : World) : World := { w with events := e :: w.events }

def tick (w : World) : World := { w with calls := w.calls + 1 }

def setState (g : GuestId) (f : BindingState → BindingState) (w : World) : World :=
  { w with
    bindings := Function.update w.bindings g
      { w.bindings g with state := f (w.bindings g).state } }

def setSys (name : Str) (m : Option Module) (w : World) : World :=
  { w with sysModules := Function.update w.sysModules name m }

def openFrame (fr : Frame) (w : World) : World :=
  { w with
    frames := fr :: w.frames
    flags := Function.update w.flags fr.cell .writing }

def closeFrame (fr : Frame) (w : World) : World :=
  { w with
    frames := w.frames.tail
    flags := Function.update w.flags fr.cell .unused }

theorem bindings_setState_self (g : GuestId) (f : BindingState → BindingState) (w : World) :
    (w.setState g f).bindings g = { w.bindings g with state := f (w.bindings g).state } :=
  Function.update_self ..

theorem bindings_setState_of_ne {g x : GuestId} (h : x ≠ g) (f : BindingState → BindingState)
    (w : World) : (w.setState g f).bindings x = w.bindings x :=
  Function.update_of_ne h ..

/-- Puts a module into the cache of a guest, or takes it out. -/
def setRealised (g : GuestId) (dotted : Str) (m : Option Module) (w : World) : World :=
  w.setState g fun s => { s with realised := Function.update s.realised dotted m }

theorem realised_setRealised (g x : GuestId) (dotted name : Str) (m : Option Module)
    (w : World) :
    ((w.setRealised g dotted m).bindings x).state.realised name =
      if x = g ∧ name = dotted then m else (w.bindings x).state.realised name := by
  unfold setRealised
  by_cases hx : x = g
  · rw [hx, bindings_setState_self]
    by_cases hn : name = dotted
    · rw [if_pos ⟨rfl, hn⟩, hn]
      exact Function.update_self ..
    · rw [if_neg fun h => hn h.2]
      exact Function.update_of_ne hn ..
  · rw [if_neg fun h => hx h.1, bindings_setState_of_ne hx]

/-- Is `name` denied to `g`? -/
def denies (w : World) (g : GuestId) (name : Str) : Bool :=
  DottedName.isDenied (w.bindings g).denied name

end World

/-! ## Calls out -/

/-- The moments at which an import leaves the host and other code may run. -/
inductive Call where
  | index (v : Value)
  | getItem (v : Value) (key : Str)
  | iterate (v : Value)
  | hasAttr (m : Module) (name : Str)
  | attrNames (m : Module) (name : Str)
  | getAttr (m : Module) (name : Str)
  | setAttr (m : Module) (name : Str)
  | create (name : Str)
  | member (g : GuestId) (module name : Str)
  | declare (g : GuestId) (name : Str)
  | compile (bundle : Nat) (name : Str)
  | exec (g : GuestId) (name : Str)
  | prepare (g : GuestId) (bundle : Nat)
  | extension (name : Str)
  | load (name : Str)
  | raise (e : Error String)
  | released (m : Option Module)

/-- What comes back from a call: each call reads the part that is meant for it. -/
structure Answer where
  flag : Bool
  names : List Str
  item : Option Atom
  prepared : PreparedExtensions
  deriving Inhabited

abbrev Err := Error String

end GuestPy
