import GuestPy.Imports.Denied

/-!
# Borrows of the bindings

The bindings of a guest and the caches of the runtime are cells with a dynamic borrow flag:
a borrow that conflicts with one still held panics. All borrows end before other code can
run, but for two kinds: mounting a bundle holds the bindings while the native extensions of
the bundle are prepared, and a cache entry that is replaced is let go of under the borrow
that replaces it.

* `Event.Granted` says that a borrow meets no conflict, and `Event.Unheld` that it is not
  asked for while an exclusive borrow of the same cell is in progress further out.
* `granted_iff_unheld`: along every run the two come to the same.
* `not_granted_of_mount` is a run that imports while a bundle of its guest is prepared.
-/

namespace GuestPy

namespace Event

/-- The borrow is granted. -/
def Granted : Event → Prop
  | .borrowed _ _ conflict => conflict = false
  | _ => True

/-- No mount and no write to the cell is in progress further out. -/
def Unheld : Event → Prop
  | .borrowed c frames _ => c ∉ frames.map Frame.cell
  | _ => True

instance : DecidablePred Granted := fun e =>
  match e with
  | .borrowed _ _ conflict => inferInstanceAs (Decidable (conflict = false))
  | .asked .. | .checked .. | .expanding .. | .realised .. | .delegated .. | .following ..
  | .found .. | .handed .. => inferInstanceAs (Decidable True)

end Event

theorem granted_iff_unheld_of_justified {denied : GuestId → Str → Bool} {events : List Event}
    (hj : Justified denied events) {e : Event} (he : e ∈ events) : e.Granted ↔ e.Unheld := by
  cases e with
  | borrowed c frames conflict =>
    obtain ⟨_, _, hconflict⟩ := hj.mem he
    have hconflict : conflict = true ↔ c ∈ frames.map Frame.cell := hconflict
    exact Bool.eq_false_iff.trans (not_congr hconflict)
  | asked _ _ _ => exact Iff.rfl
  | checked _ _ => exact Iff.rfl
  | expanding _ _ => exact Iff.rfl
  | realised _ _ _ => exact Iff.rfl
  | delegated _ _ _ _ => exact Iff.rfl
  | following _ _ => exact Iff.rfl
  | found _ _ _ => exact Iff.rfl
  | handed _ _ _ => exact Iff.rfl

/-- **No borrow of a run conflicts exactly when none is asked for while a mount or a write
to the same cell is in progress further out.** -/
theorem granted_iff_unheld (code : Code) (fuel : Nat) (script : Script) (w : World)
    (hw : Initial w) :
    Every Event.Granted (runScript code fuel script w) ↔
      Every Event.Unheld (runScript code fuel script w) := by
  have hj := (justified_run code fuel script hw).1
  exact forall₂_congr fun e he => granted_iff_unheld_of_justified hj he

/-! ## A mount that imports -/

/-- Preparing a bundle imports through the hook of the guest it is mounted for. -/
def preparingCode : Code := fun _ call =>
  match call with
  | .prepare g _ =>
    .call (.hook g ⟨[.atom (.str "importlib.machinery".toList)], []⟩) fun _ =>
      .ret (.ok default)
  | _ => .ret (.ok default)

/-- A guest is built, and a bundle is loaded into it. -/
def loadBundle : Script :=
  let bundle : Bundle := ⟨2, some "q".toList, [("q".toList, ⟨"q.py".toList, false⟩)]⟩
  .call (.activity (.build .new)) fun _ =>
    .call (.guestLoad firstGuest bundle) fun _ => .ret ()

theorem granted_iff_unheld_load :
    Every Event.Granted (runScript (idleCode []) 3 loadBundle (packageWorld [])) ↔
      Every Event.Unheld (runScript (idleCode []) 3 loadBundle (packageWorld [])) :=
  granted_iff_unheld _ 3 _ _ (initial_packageWorld _)

/-- The import inside finds the bindings borrowed. -/
theorem not_granted_of_mount : ¬ ∀ (code : Code) (fuel : Nat) (script : Script) (w : World),
    Initial w → Every Event.Granted (runScript code fuel script w) := by
  intro h
  have hrun := h preparingCode 4 loadBundle (packageWorld []) (initial_packageWorld _)
  exact absurd hrun (by decide +kernel)

end GuestPy
