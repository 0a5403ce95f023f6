import GuestPy.Imports.Mounting

/-!
# Bound names

Whether the guest imports a name itself is asked of its first component: if that is not bound,
the importer of the interpreter gets the name. Then the module is realised package by package,
each from the first of the four bindings that has it. A name may be bound whose packages are not:
nothing checks it where modules are bound, other than among the modules of one bundle.

* `reached_of_rooted`: along a run in which the packages of every bound name that is imported are
  bound, too, and the dispatcher takes the caller for the guest it is, bound names are reached.
* `not_reached_of_bare_name` is a run that hands a bound name to the interpreter.
-/

namespace GuestPy

namespace Record

instance : DecidablePred Rooted := fun r =>
  match r with
  | .asked asker guest _ bound rooted =>
    inferInstanceAs (Decidable (bound = true → guest = some asker ∧ rooted = true))
  | .walked _ _ bound rooted => inferInstanceAs (Decidable (bound = true → rooted = true))
  | .routed .. | .missing .. | .chose .. | .joined .. | .removed .. | .failed .. | .imported ..
  | .mounted .. | .refused .. => inferInstanceAs (Decidable True)

instance : DecidablePred Reached := fun r =>
  match r with
  | .asked asker guest _ bound _ => inferInstanceAs (Decidable (bound = true → guest = some asker))
  | .routed asker g _ bound _ handled =>
    inferInstanceAs (Decidable (bound = true → g = asker ∧ handled = true))
  | .missing _ _ bound _ => inferInstanceAs (Decidable (bound = false))
  | .chose _ _ origin offer => inferInstanceAs (Decidable (offer = some origin))
  | .imported _ _ origin offer bundles _ _ =>
    inferInstanceAs (Decidable (bundles = [] → offer.isSome = true → origin = offer))
  | .walked .. | .joined .. | .removed .. | .failed .. | .mounted .. | .refused .. =>
    inferInstanceAs (Decidable True)

end Record

/-- **Every bound name is reached in a run that imports none whose packages are not bound.** -/
theorem reached_of_rooted (code : Code) (fuel : Nat) (script : Script) (w : World)
    (hw : Initial w) (hR : (runScript code fuel script w).holdings.Always Record.Rooted) :
    (runScript code fuel script w).holdings.Always Record.Reached :=
  fun r hr => ((sound_run code fuel script hw).lawful r hr).reached hR

/-- A guest is built, and its code imports a module. -/
def importName (name : String) : Script :=
  .call (.activity (.build .new)) fun _ =>
    .call (.hook firstGuest ⟨[.atom (.str name.toList)], []⟩) fun _ => .ret ()

theorem reached_of_rooted_submodule :
    (runScript (idleCode []) 3 (importName "p.sub") (packageWorld [])).holdings.Always
      Record.Reached :=
  reached_of_rooted _ 3 _ _ (initial_packageWorld _) (by decide +kernel)

/-- The native module `pkg.fast` is bound, and `pkg` is not: the interpreter gets the name. -/
theorem not_reached_of_bare_name :
    ¬ ∀ (code : Code) (fuel : Nat) (script : Script) (w : World), Initial w →
      (runScript code fuel script w).holdings.Always Record.Reached := by
  intro h
  have hrun := h (idleCode []) 3 (importName "pkg.fast") (oneNativeWorld "pkg.fast")
    (initial_oneNativeWorld _)
  exact absurd hrun (by decide +kernel)

end GuestPy
