import GuestPy.Imports.Importlib

/-!
# Realising bound modules

`Realiser` makes the module objects of what a guest has bound: host modules, natives, the
modules of bundles and the native extensions in them. A module is realised after its
parents, kept in the cache of the guest, and set as an attribute of its parent.

* `readRef` and `withMut` are the two ways into a `RefCell`: a borrow that ends at once, and
  an exclusive one under which a body runs. Both panic on a conflict.
* Each function of the source keeps its name. `record`, `realising` and `walking` write to the
  ledger only.
-/

namespace GuestPy

/-! ## Borrows -/

section Borrows

variable {α : Type}

/-- Asks for a borrow. A shared one conflicts with a writer, an exclusive one with any
borrow. -/
def access (c : Cell) : Host World Err Unit := do
  let w ← Host.get
  Host.modify (World.log (.borrowed c w.frames (w.flags c == .writing)))
  if w.flags c = .writing then Host.panic else pure ()

/-- `cell.borrow()`, ended before anything else runs. -/
def readRef (c : Cell) (read : World → α) : Host World Err α := do
  access c
  let w ← Host.get
  pure (read w)

/-- `cell.borrow_mut()`, held while `body` runs. -/
def withMut (fr : Frame) (body : Host World Err α) : Host World Err α := do
  access fr.cell
  Host.bind (Host.modify (World.openFrame fr)) fun _ =>
    Host.guarded body (World.closeFrame fr)

/-- Writes to the ledger. -/
def record (f : Holdings → Ledger) : Host World Err Unit := Host.modify (World.record f)

end Borrows

namespace GuestBindings

variable (callout : Call → Host World Err Answer)

def spec (g : GuestId) (dotted : Str) : Host World Err (Option ModuleSpec) := do
  let w ← Host.get
  pure ((w.bindings g).specs dotted)

def native (g : GuestId) (dotted : Str) : Host World Err (Option NativeModule) := do
  let w ← Host.get
  pure ((w.bindings g).natives dotted)

def source (g : GuestId) (dotted : Str) : Host World Err (Option Bundle) :=
  readRef (.bindings g) fun w => (w.bindings g).state.sources dotted

def prepared (g : GuestId) (id : Nat) : Host World Err (Option PreparedExtensions) :=
  readRef (.bindings g) fun w => (w.bindings g).state.prepared id

def extension (g : GuestId) (dotted : Str) : Host World Err (Option PreparedExtensions) :=
  readRef (.bindings g) fun w => (w.bindings g).state.extensions dotted

def cached (g : GuestId) (dotted : Str) : Host World Err (Option Module) :=
  readRef (.bindings g) fun w => (w.bindings g).state.realised dotted

/-- A module that is replaced is let go of while the borrow lasts. -/
def cache (g : GuestId) (dotted : Str) (m : Module) : Host World Err Unit :=
  withMut (.writing (.bindings g)) do
    let w ← Host.get
    Host.modify fun w =>
      ((w.setRealised g dotted (some m)).record (·.caching g dotted)).log (.realised g dotted m)
    match (w.bindings g).state.realised dotted with
    | some old =>
      let _ ← Host.attempt (callout (.released (some old)))
      pure ()
    | none => pure ()

/-- `since` is for the ledger: how many realisations began before the one that failed. -/
def removeCached (g : GuestId) (dotted : Str) (since : Nat) : Host World Err (Option Module) :=
  withMut (.writing (.bindings g)) do
    let w ← Host.get
    Host.modify fun w => (w.setRealised g dotted none).record (·.removed g dotted since)
    pure ((w.bindings g).state.realised dotted)

def contains (g : GuestId) (dotted : Str) : Host World Err Bool :=
  readRef (.bindings g) fun w =>
    let b := w.bindings g
    (b.specs dotted).isSome || (b.natives dotted).isSome || (b.state.sources dotted).isSome ||
      (b.state.extensions dotted).isSome || (b.state.realised dotted).isSome

/-- Fails to mount a bundle. `before` is for the ledger: the bindings that it was mounted on. -/
def refuse {α : Type} (g : GuestId) (before : GuestBindings) (e : Err) : Host World Err α := do
  record (·.refused g before)
  Host.throw e

/-- `prepare_bundle`, run while the state of the bindings is borrowed. -/
def prepareBundle (g : GuestId) (bundle : Bundle) (before : GuestBindings) :
    Host World Err Unit := do
  let w ← Host.get
  let loader ← match (w.bindings g).state.prepared bundle.id with
    | some loader => pure loader
    | none =>
      match ← Host.attempt (callout (.prepare g bundle.id)) with
      | .error e => refuse g before e
      | .ok answer =>
        Host.modify (World.setState g fun s =>
          { s with prepared := Function.update s.prepared bundle.id (some answer.prepared) })
        pure answer.prepared
  let w ← Host.get
  let clash := w.holdings.clashes g bundle
  Host.modify fun w =>
    (w.setState g fun s =>
      { s with
        sources := fun name => if name ∈ bundle.names then some bundle else s.sources name
        extensions := fun name =>
          if name ∈ loader.names then some loader else s.extensions name }).record
      (·.mount g bundle clash)

def mount (g : GuestId) (bundle : Bundle) (root : Str) : Host World Err Unit := do
  let start ← Host.get
  match ← spec g root with
  | some _ => refuse g (start.bindings g) (.nameInUse (String.ofList root))
  | none =>
    withMut (.mounting g) do
      let w ← Host.get
      match (w.bindings g).state.loaded root with
      | some id =>
        if id = bundle.id then
          record (·.remount g bundle)
        else
          refuse g (start.bindings g) (.nameInUse (String.ofList root))
      | none =>
        prepareBundle callout g bundle (start.bindings g)
        Host.modify (World.setState g fun s =>
          { s with loaded := Function.update s.loaded root (some bundle.id) })

end GuestBindings

/-! ## Native extensions -/

namespace PreparedExtensions

variable (callout : Call → Host World Err Answer)

def removeIfSame (name : Str) (expected : Module) : Host World Err Unit :=
  Host.modify fun w =>
    if w.sysModules name = some expected then w.setSys name none else w

/-- Takes the module and the parents that were registered out of `sys.modules` again. -/
def rollback (inserted : List (Str × Module)) (child : Option (Str × Module)) :
    Host World Err Unit :=
  Host.forEach (child.toList ++ inserted) fun p => removeIfSame p.1 p.2

/-- Registers the parents that `sys.modules` lacks, and returns them, last first. -/
def registerParents (inserted : List (Str × Module)) :
    List (Str × Module) → Host World Err (List (Str × Module))
  | [] => pure inserted
  | (name, parent) :: rest => do
    let w ← Host.get
    match w.sysModules name with
    | some existing =>
      if existing = parent then
        registerParents inserted rest
      else
        rollback inserted none
        Host.throw (.import (String.ofList name)
          ("a different parent module already occupies " ++ String.ofList name))
    | none =>
      Host.modify (World.setSys name (some parent))
      registerParents ((name, parent) :: inserted) rest

def executeLoader (parents : List (Str × Module)) (dotted : Str) : Host World Err Module := do
  let _ ← callout (.extension "spec_from_file_location".toList)
  let inserted ← registerParents [] parents
  match ← Host.attempt (callout (.extension "module_from_spec".toList)) with
  | .error e =>
    rollback inserted none
    Host.throw e
  | .ok _ =>
    let m : Module := ⟨.extension, dotted⟩
    Host.modify (World.setSys dotted (some m))
    match ← Host.attempt (callout (.extension "exec_module".toList)) with
    | .error e =>
      rollback inserted (some (dotted, m))
      Host.throw e
    | .ok _ => pure m

/-- Loads an extension, or returns the one that the process has loaded under its name. The
texts of its errors leave the paths of the artifacts out. -/
def load (parents : List (Str × Module)) (dotted : Str) (contents : Nat) :
    Host World Err Module := do
  let _ ← callout (.extension "import_lock".toList)
  let w ← Host.get
  match w.loadedExtensions dotted with
  | some (loaded, m) =>
    if loaded = contents then
      pure m
    else
      Host.throw (.import (String.ofList dotted)
        ("a different native module is already loaded for " ++ String.ofList dotted))
  | none =>
    let w ← Host.get
    match w.sysModules dotted with
    | some _ =>
      Host.throw (.import (String.ofList dotted)
        ("an ambient module already occupies " ++ String.ofList dotted))
    | none =>
      let _ ← callout (.extension "extension_loader".toList)
      let m ← executeLoader callout parents dotted
      Host.modify fun w =>
        { w with
          loadedExtensions := Function.update w.loadedExtensions dotted (some (contents, m)) }
      pure m

def realise (p : PreparedExtensions) (parents : List (Str × Module)) (dotted : Str) :
    Host World Err Module :=
  match p.contents dotted with
  | some contents => load callout parents dotted contents
  | none =>
    if dotted ∈ p.names then
      Host.throw (.import (String.ofList dotted)
        ("the bundle contains native artifacts for " ++ String.ofList dotted ++
          " but none match the active interpreter"))
    else
      Host.throw (.import (String.ofList dotted)
        "the prepared bundle has no native extension of that name")

end PreparedExtensions

/-! ## The realiser -/

namespace Realiser

open GuestBindings

variable (callout : Call → Host World Err Answer)

/-- The code of a module, compiled once per bundle. -/
def codeFor (bundle : Bundle) (dotted : Str) : Host World Err Unit := do
  if ← readRef .code fun w => w.code bundle.id dotted then
    pure ()
  else
    match bundle.module dotted with
    | none =>
      Host.throw (.import (String.ofList dotted) "the bundle has no module of that name")
    | some _ =>
      let _ ← callout (.compile bundle.id dotted)
      withMut (.writing .code) do
        let w ← Host.get
        Host.modify fun w =>
          { w with
            code := Function.update w.code bundle.id
              (Function.update (w.code bundle.id) dotted true) }
        if w.code bundle.id dotted then
          let _ ← Host.attempt (callout (.released none))
          pure ()
        else
          pure ()

def realisedParents (g : GuestId) (dotted : Str) :
    List Str → Host World Err (List (Str × Module))
  | [] => pure []
  | package :: rest => do
    if package = dotted then
      pure []
    else
      match ← cached g package with
      | some m =>
        let parents ← realisedParents g dotted rest
        pure ((package, m) :: parents)
      | none =>
        Host.throw (.import (String.ofList dotted)
          ("parent module " ++ String.ofList package ++ " is not realised"))

def realiseHost (g : GuestId) (spec : ModuleSpec) : Host World Err Module := do
  let _ ← callout (.create spec.name)
  let m : Module := ⟨.guest g, spec.name⟩
  cache callout g spec.name m
  Host.forEach spec.members fun member =>
    if member.2 then
      pure ()
    else do
      let _ ← callout (.member g spec.name member.1)
      let _ ← callout (.setAttr m member.1)
      pure ()
  if spec.members.any Prod.snd then
    let _ ← callout (.setAttr m "__getattr__".toList)
    pure m
  else
    pure m

def realiseNative (g : GuestId) (dotted : Str) : Host World Err Module := do
  let _ ← callout (.declare g dotted)
  let m : Module := ⟨.guest g, dotted⟩
  cache callout g dotted m
  pure m

def realiseBundle (g : GuestId) (bundle : Bundle) (dotted : Str) : Host World Err Module := do
  match bundle.module dotted with
  | none =>
    Host.throw (.import (String.ofList dotted) "the bundle has no module of that name")
  | some _ =>
    match ← prepared g bundle.id with
    | none => Host.throw (.unexpected "a bound bundle has no prepared native-extension state")
    | some _ =>
      let _ ← callout (.create dotted)
      let m : Module := ⟨.guest g, dotted⟩
      cache callout g dotted m
      codeFor callout bundle dotted
      let _ ← callout (.exec g dotted)
      pure m

def realiseExtension (g : GuestId) (extensions : PreparedExtensions) (dotted : Str) :
    Host World Err Module := do
  let parents ← realisedParents g dotted (DottedName.prefixes dotted)
  let m ← extensions.realise callout parents dotted
  cache callout g dotted m
  pure m

/-- Realises a module, with the ledger open at it. -/
def realising (g : GuestId) (dotted : Str) (origin : Origin) (body : Host World Err Module) :
    Host World Err (Except Err Module) :=
  Host.bind (Host.modify (World.record (·.choose g dotted origin))) fun _ =>
    Host.guarded (Host.attempt body) (World.record Holdings.leave)

/-- What is bound under a name, host modules first. -/
def realiseBound (g : GuestId) (dotted : Str) : Host World Err (Except Err Module) := do
  match ← spec g dotted with
  | some spec => realising g dotted .host (realiseHost callout g spec)
  | none =>
    match ← native g dotted with
    | some _ => realising g dotted .native (realiseNative callout g dotted)
    | none =>
      match ← source g dotted with
      | some bundle =>
        realising g dotted (.source bundle.id) (realiseBundle callout g bundle dotted)
      | none =>
        match ← extension g dotted with
        | some extensions =>
          realising g dotted .extension (realiseExtension callout g extensions dotted)
        | none =>
          record (·.lack g dotted)
          Host.throw (.import (String.ofList dotted)
            "no module of that name is available to this guest")

/-- A module that fails while it is realised leaves the cache again. -/
def realise (g : GuestId) (dotted : Str) : Host World Err Module := do
  match ← cached g dotted with
  | some m =>
    record (·.joined g dotted)
    pure m
  | none =>
    let since := (← Host.get).ledger.unfailed g dotted
    match ← realiseBound callout g dotted with
    | .ok m =>
      record (·.complete g dotted)
      pure m
    | .error e =>
      match ← removeCached g dotted since with
      | some m =>
        let _ ← Host.attempt (callout (.released (some m)))
        record (·.failed g dotted since)
        Host.throw e
      | none =>
        record (·.failed g dotted since)
        Host.throw e

/-- Realises one package on the way to a module and sets it in its parent. -/
def realisePrefix (g : GuestId) (name : Str) : Host World Err Module := do
  let m ← realise callout g name
  match DottedName.parent name with
  | some (parent, last) =>
    match ← cached g parent with
    | some p =>
      let _ ← callout (.setAttr p last)
      record (·.link g name)
      pure m
    | none => Host.throw (.import (String.ofList name) "its parent is not realised")
  | none => pure m

def modulePrefixes (g : GuestId) : List Str → Option Module → Host World Err (Option Module)
  | [], m => pure m
  | name :: rest, _ => do
    let m ← realisePrefix callout g name
    modulePrefixes g rest (some m)

/-- Walks along the packages of a name, with the ledger open at it. -/
def walking {α : Type} (g : GuestId) (dotted : Str) (body : Host World Err α) :
    Host World Err α :=
  Host.bind (Host.modify (World.record (·.walk g dotted))) fun _ =>
    Host.guarded body (World.record Holdings.leave)

def module (g : GuestId) (dotted : Str) : Host World Err Module := do
  match ← walking g dotted (modulePrefixes callout g (DottedName.prefixes dotted) none) with
  | some m =>
    record (·.imported g dotted)
    pure m
  | none => Host.throw (.import (String.ofList dotted) "the module name is empty")

end Realiser

end GuestPy
