import GuestPy.Imports.Failing

/-!
# Mounted bundles

To mount a bundle binds its names to its source. Whether they are free is asked of the root alone,
and only of the host modules and of the bundles mounted before: a native module of the same name
takes precedence over the bundle, and a module that is in the cache already is served from there.

* `served_of_clear`: along a run in which no name of a bundle is taken when it is mounted, mounted
  bundles serve their own names, and a mount that fails leaves the bindings as they were.
* `not_served_of_native` is a run in which a guest loads a bundle and is handed a native module.
-/

namespace GuestPy

namespace Record

instance : DecidablePred Clear := fun r =>
  match r with
  | .mounted _ _ clash => inferInstanceAs (Decidable (clash = false))
  | .asked .. | .routed .. | .walked .. | .missing .. | .chose .. | .joined .. | .removed ..
  | .failed .. | .imported .. | .refused .. => inferInstanceAs (Decidable True)

instance : DecidablePred Served := fun r =>
  match r with
  | .routed _ _ _ _ owners handled => inferInstanceAs (Decidable (owners ≠ [] → handled = true))
  | .missing _ _ _ owners => inferInstanceAs (Decidable (owners = []))
  | .imported _ _ origin _ _ owners _ =>
    inferInstanceAs (Decidable (∀ b ∈ owners, origin = some (.source b.id)))
  | .asked .. | .walked .. | .chose .. | .joined .. | .removed .. | .failed .. | .mounted ..
  | .refused .. => inferInstanceAs (Decidable True)

end Record

/-- **Mounted bundles serve their own names in a run that mounts none with a name that is
taken.** -/
theorem served_of_clear (code : Code) (fuel : Nat) (script : Script) (w : World)
    (hw : Initial w) (hC : (runScript code fuel script w).holdings.Always Record.Clear) :
    (runScript code fuel script w).holdings.Always Record.Served ∧
      (runScript code fuel script w).holdings.Always Record.Untouched := by
  have hs := sound_run code fuel script hw
  exact ⟨fun r hr => (hs.lawful r hr).served hC, fun r hr => (hs.lawful r hr).untouched⟩

/-! ## A bundle and a native module -/

/-- Every guest has one native module. -/
def oneNativeWorld (name : String) : World :=
  World.new fun _ =>
    GuestBindings.new ⟨[], [⟨name.toList, []⟩], [], []⟩ ⟨[], [], [], []⟩ fun _ => default

theorem initial_oneNativeWorld (name : String) : Initial (oneNativeWorld name) :=
  initial_new fun _ _ => rfl

/-- A guest is built, and loads a bundle with the package `q` and the module `q.sub`. -/
def loadPackage : Script :=
  let bundle : Bundle :=
    { id := 2
      root := some "q".toList
      modules := [("q".toList, ⟨"q/__init__.py".toList, true⟩),
        ("q.sub".toList, ⟨"q/sub.py".toList, false⟩)] }
  .call (.activity (.build .new)) fun _ =>
    .call (.guestLoad firstGuest bundle) fun _ =>
      .call (.guestImport firstGuest "q.sub".toList) fun _ => .ret ()

theorem served_of_clear_package :
    (runScript (idleCode []) 3 loadPackage (oneNativeWorld "fast")).holdings.Always
        Record.Served ∧
      (runScript (idleCode []) 3 loadPackage (oneNativeWorld "fast")).holdings.Always
        Record.Untouched :=
  served_of_clear _ 3 _ _ (initial_oneNativeWorld _) (by decide +kernel)

/-- The guest loads `q` and is handed the native module `q`. -/
theorem not_served_of_native :
    ¬ ∀ (code : Code) (fuel : Nat) (script : Script) (w : World), Initial w →
      (runScript code fuel script w).holdings.Always Record.Served ∧
        (runScript code fuel script w).holdings.Always Record.Untouched := by
  intro h
  have hrun := (h (idleCode []) 3 loadPackage (oneNativeWorld "q") (initial_oneNativeWorld _)).1
  exact absurd hrun (by decide +kernel)

end GuestPy
