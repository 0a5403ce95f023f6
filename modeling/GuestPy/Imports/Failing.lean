import GuestPy.Imports.Denied

/-!
# Failed imports

A module that fails while it is realised is taken out of the cache again. Host modules and the
modules of bundles enter the cache before any of their code runs, so that a circular import meets
them there. Native modules and native extensions enter it last: when code that a declaration runs
imports the same name once more, that realisation completes, and the clean-up of the first takes
its module away.

* `restored_of_alone`: along a run in which, whenever a module fails, so has every other
  realisation of its name that began meanwhile, a failed module is not left in the cache and is
  never served from it, what completed stays, and what succeeds is set in its parents.
* `not_restored_of_circular_native` is a run that loses a module that had completed.
-/

namespace GuestPy

namespace Record

instance : DecidablePred Alone := fun r =>
  match r with
  | .removed _ _ others => inferInstanceAs (Decidable (others = 0))
  | .failed _ _ others _ _ => inferInstanceAs (Decidable (others = 0))
  | .asked .. | .routed .. | .walked .. | .missing .. | .chose .. | .joined .. | .imported ..
  | .mounted .. | .refused .. => inferInstanceAs (Decidable True)

instance : DecidablePred Restored := fun r =>
  match r with
  | .failed _ _ _ left lost => inferInstanceAs (Decidable (left = none ∧ lost = []))
  | .joined _ _ stale => inferInstanceAs (Decidable (stale = false))
  | .imported _ _ _ _ _ _ linked => inferInstanceAs (Decidable (linked = true))
  | .asked .. | .routed .. | .walked .. | .missing .. | .chose .. | .removed .. | .mounted ..
  | .refused .. => inferInstanceAs (Decidable True)

end Record

instance (P : Record → Prop) [DecidablePred P] (h : Holdings) : Decidable (h.Always P) :=
  inferInstanceAs (Decidable (∀ r ∈ h.ledger.records, P r))

/-- **A failed import leaves no partial module and takes no other along, in a run where no
realisation of a name outlives one that fails around it.** -/
theorem restored_of_alone (code : Code) (fuel : Nat) (script : Script) (w : World)
    (hw : Initial w) (hA : (runScript code fuel script w).holdings.Always Record.Alone) :
    (runScript code fuel script w).holdings.Always Record.Restored :=
  fun r hr => ((sound_run code fuel script hw).lawful r hr).restored hA

/-! ## A package whose module fails once -/

/-- A guest is built, and imports `p.sub` twice. -/
def importTwice : Script :=
  .call (.activity (.build .new)) fun _ =>
    .call (.guestImport firstGuest "p.sub".toList) fun _ =>
      .call (.guestImport firstGuest "p.sub".toList) fun _ => .ret ()

/-- The source of `p.sub` raises the first time it is executed. -/
def raisingOnceCode : Code := fun w call =>
  match call with
  | .exec _ name =>
    if name = "p.sub".toList ∧ w.calls < 7 then .ret (.error (.guest "ValueError"))
    else .ret (.ok default)
  | _ => .ret (.ok default)

theorem restored_of_alone_twice :
    (runScript raisingOnceCode 3 importTwice (packageWorld [])).holdings.Always
      Record.Restored :=
  restored_of_alone _ 3 _ _ (initial_packageWorld _) (by decide +kernel)

/-! ## A native module that is imported while it is declared -/

/-- Every guest has a native module `fast` and a bundle with the module `helper`. -/
def nativeWorld : World :=
  let bundle : Bundle :=
    { id := 1
      root := some "helper".toList
      modules := [("helper".toList, ⟨"helper.py".toList, false⟩)] }
  World.new fun _ =>
    GuestBindings.new ⟨[], [⟨"fast".toList, []⟩], [bundle], []⟩ ⟨[], [], [], []⟩ fun _ => default

theorem initial_nativeWorld : Initial nativeWorld := initial_new fun _ _ => rfl

/-- To declare `fast` for the first time imports `helper`, which imports `fast`, and fails
afterwards. -/
def circularCode : Code := fun w call =>
  let hook (name : String) : Op := .hook firstGuest ⟨[.atom (.str name.toList)], []⟩
  match call with
  | .declare _ _ =>
    if w.calls = 0 then
      .call (hook "helper") fun _ => .ret (.error (.guest "RuntimeError"))
    else
      .ret (.ok default)
  | .exec _ _ => .call (hook "fast") fun _ => .ret (.ok default)
  | _ => .ret (.ok default)

/-- A guest is built, and imports `fast`. -/
def importFast : Script :=
  .call (.activity (.build .new)) fun _ =>
    .call (.guestImport firstGuest "fast".toList) fun _ => .ret ()

/-- The clean-up of the first realisation takes the module of the second, which completed. -/
theorem not_restored_of_circular_native :
    ¬ ∀ (code : Code) (fuel : Nat) (script : Script) (w : World), Initial w →
      (runScript code fuel script w).holdings.Always Record.Restored := by
  intro h
  have hrun := h circularCode 6 importFast nativeWorld initial_nativeWorld
  exact absurd hrun (by decide +kernel)

end GuestPy
