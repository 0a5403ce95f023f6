import GuestPy.Imports.Denied

/-!
# Isolation of guests

Which guest an import is resolved for, and whose modules it hands back. A hook belongs to
one guest. The dispatcher reads the guest off the globals it is given, and falls back to the
innermost guest; and an import that is delegated gets what `sys.modules` holds, where
loading a native extension leaves the packages of the guest that loaded it.

* `Event.Isolated` says that an import is resolved for the guest whose code asks, and that
  no module another guest made is realised for it or handed back.
* `isolated_of_owned`: so it is along runs in which the dispatcher takes its callers for
  whom they are, and `sys.modules` answers no guest with a module of another one.
* `not_isolated_of_forged_id` is a run in which it takes a caller for another guest.
-/

namespace GuestPy

open DottedName

/-- The module was made by no other guest than `g`. -/
def Module.OwnTo (m : Module) (g : GuestId) : Prop :=
  m.maker = .guest g ∨ m.maker = .interpreter ∨ m.maker = .extension

instance (m : Module) (g : GuestId) : Decidable (m.OwnTo g) := inferInstanceAs (Decidable (_ ∨ _))

namespace Event

/-- An import of a guest's code is resolved for that guest, and stays with its modules. -/
def Isolated : Event → Prop
  | .asked asker _ guest => guest = some asker
  | .realised g _ m => m.OwnTo g
  | .handed asker _ m => m.OwnTo asker
  | _ => True

/-- The dispatcher takes the caller for the guest it is, and `sys.modules` holds no module
of another guest under the name that is looked up. -/
def Owned : Event → Prop
  | .asked asker (.dispatcher named innermost) _ => CallsAsItself asker named innermost
  | .found asker _ m => m.OwnTo asker
  | _ => True

instance : DecidablePred Isolated := fun e =>
  match e with
  | .asked asker _ guest => inferInstanceAs (Decidable (guest = some asker))
  | .realised g _ m => inferInstanceAs (Decidable (m.OwnTo g))
  | .handed asker _ m => inferInstanceAs (Decidable (m.OwnTo asker))
  | .checked .. | .expanding .. | .delegated .. | .following .. | .found .. | .borrowed .. =>
    inferInstanceAs (Decidable True)

instance : DecidablePred Owned := fun e =>
  match e with
  | .asked asker (.dispatcher named innermost) _ =>
    inferInstanceAs (Decidable (CallsAsItself asker named innermost))
  | .found asker _ m => inferInstanceAs (Decidable (m.OwnTo asker))
  | .asked _ .hook _ | .asked _ .host _ | .checked .. | .expanding .. | .realised ..
  | .delegated .. | .following .. | .handed .. | .borrowed .. =>
    inferInstanceAs (Decidable True)

end Event

/-- What is realised for a guest is its own. -/
theorem realised_own {denied : GuestId → Str → Bool} {events : List Event}
    (hj : Justified denied events) {g : GuestId} {name : Str} {m : Module}
    (h : .realised g name m ∈ events) : m.OwnTo g := by
  obtain ⟨past, -, -, hmaker⟩ := hj.mem h
  rcases hmaker with hm | hm
  · exact Or.inl hm
  · exact Or.inr (Or.inr hm)

theorem isolated_of_justified {denied : GuestId → Str → Bool} {events : List Event}
    (hj : Justified denied events) (hown : ∀ e ∈ events, e.Owned) :
    ∀ e ∈ events, e.Isolated := by
  have hself : ∀ {asker guest}, Attributed events asker guest → guest = some asker :=
    attributed_self hj fun _ _ _ _ he => hown _ he
  intro e he
  cases e with
  | asked asker via guest => exact hself ⟨via, he⟩
  | realised g name m => exact realised_own hj he
  | handed asker name m =>
    obtain ⟨past, hpast, hhanded⟩ := hj.mem he
    rcases hhanded with ⟨g, hasked, hr⟩ | ⟨hfound, -⟩
    · cases hself (hasked.mono hpast)
      exact realised_own hj (hpast.subset hr)
    · exact hown _ (hpast.subset hfound)
  | checked _ _ => trivial
  | expanding _ _ => trivial
  | delegated _ _ _ _ => trivial
  | following _ _ => trivial
  | found _ _ _ => trivial
  | borrowed _ _ _ => trivial

/-- **Imports stay with their guest along a run in which the dispatcher takes every caller
for whom it is and `sys.modules` holds nothing of another guest for it.** -/
theorem isolated_of_owned (code : Code) (fuel : Nat) (script : Script) (w : World)
    (hw : Initial w) (hown : Every Event.Owned (runScript code fuel script w)) :
    Every Event.Isolated (runScript code fuel script w) :=
  isolated_of_justified (justified_run code fuel script hw).1 hown

/-! ## Two guests -/

/-- Guest 2 has a host module `secret` that guest 1 has not. -/
def secretWorld : World :=
  World.new fun g =>
    if g.value = 2 then
      GuestBindings.new ⟨[], [], [], []⟩ ⟨[⟨"secret".toList, []⟩], [], [], []⟩ fun _ => default
    else
      GuestBindings.new ⟨[], [], [], []⟩ ⟨[], [], [], []⟩ fun _ => default

/-- Code of guest 1 imports `secret` through the dispatcher, with `id` in its globals. -/
def importSecretAs (id : Nat) : Script :=
  let globals : Value := .dict fun key =>
    if key = "__guestpy_id__".toList then some (.int id) else none
  .call (.activity (.build .new)) fun _ =>
    .call (.activity (.build .new)) fun _ =>
      .call (.dispatcher firstGuest ⟨[.atom (.str "secret".toList), globals], []⟩) fun _ =>
        .ret ()

theorem initial_secretWorld : Initial secretWorld :=
  initial_new fun g _ => by by_cases h : g.value = 2 <;> simp only [h, if_true, if_false] <;> rfl

theorem isolated_of_owned_id :
    Every Event.Isolated (runScript (idleCode []) 3 (importSecretAs 1) secretWorld) :=
  isolated_of_owned _ 3 _ _ initial_secretWorld (by decide +kernel)

/-- Guest 1 puts the number of guest 2 into the globals, and is handed its host module. -/
theorem not_isolated_of_forged_id : ¬ ∀ (code : Code) (fuel : Nat) (script : Script) (w : World),
    Initial w → Every Event.Isolated (runScript code fuel script w) := by
  intro h
  have hrun := h (idleCode []) 3 (importSecretAs 2) secretWorld initial_secretWorld
  exact absurd hrun (by decide +kernel)

end GuestPy
