import GuestPy.Imports.Keeping

/-!
# Denied modules

What the denied set of a guest keeps out. A request is checked against it once, by the name
that is asked for, and every package on the way to an admitted name is admitted with it.
Three things an import loads are not the name that was checked: a submodule that a
from-list or `__all__` asks for, a relative name that only the importer of the interpreter
resolves, and whatever another guest may import, when the dispatcher takes the caller for
that guest.

* `Event.Vetted` says of these that they are not denied either.
* `admitted_of_vetted`: along runs that meet it, nothing denied is realised or handed back.
* `not_admitted_of_fromlist` is a run that realises a denied submodule.
-/

namespace GuestPy

open DottedName

/-- The dispatcher takes the caller for the guest it is. -/
def CallsAsItself (asker : GuestId) (named innermost : Option GuestId) : Prop :=
  named = some asker ∨ named = none ∧ innermost = some asker

namespace Event

variable (denied : GuestId → Str → Bool)

/-- No denied module is put into the cache of its guest or handed back to an importer. -/
def Admitted : Event → Prop
  | .realised g name _ => denied g name = false
  | .handed asker name _ => denied asker name = false
  | _ => True

/-- What an import goes on to load without a check is not denied. -/
def Vetted : Event → Prop
  | .asked asker (.dispatcher named innermost) _ => CallsAsItself asker named innermost
  | .expanding g full => denied g full = false
  | .following asker full => denied asker full = false
  | .delegated asker _ call target => call.plainName = none → denied asker target = false
  | _ => True

instance : DecidablePred (Admitted denied) := fun e =>
  match e with
  | .realised g name _ => inferInstanceAs (Decidable (denied g name = false))
  | .handed asker name _ => inferInstanceAs (Decidable (denied asker name = false))
  | .asked .. | .checked .. | .expanding .. | .delegated .. | .following .. | .found ..
  | .borrowed .. => inferInstanceAs (Decidable True)

instance (asker : GuestId) (named innermost : Option GuestId) :
    Decidable (CallsAsItself asker named innermost) :=
  inferInstanceAs (Decidable (_ ∨ _))

instance : DecidablePred (Vetted denied) := fun e =>
  match e with
  | .asked asker (.dispatcher named innermost) _ =>
    inferInstanceAs (Decidable (CallsAsItself asker named innermost))
  | .expanding g full => inferInstanceAs (Decidable (denied g full = false))
  | .following asker full => inferInstanceAs (Decidable (denied asker full = false))
  | .delegated asker _ call target =>
    inferInstanceAs (Decidable (call.plainName = none → denied asker target = false))
  | .asked _ .hook _ | .asked _ .host _ | .checked .. | .realised .. | .found .. | .handed ..
  | .borrowed .. => inferInstanceAs (Decidable True)

end Event

/-- A request is attributed to the guest whose code makes it. -/
theorem attributed_self {denied : GuestId → Str → Bool} {events : List Event}
    (hj : Justified denied events)
    (hv : ∀ asker named innermost guest, .asked asker (.dispatcher named innermost) guest ∈ events →
      CallsAsItself asker named innermost)
    {asker : GuestId} {guest : Option GuestId} (h : Attributed events asker guest) :
    guest = some asker := by
  obtain ⟨via, hvia⟩ := h
  obtain ⟨past, -, hasked⟩ := hj.mem hvia
  cases via with
  | hook => exact hasked
  | host => exact hasked
  | dispatcher named innermost =>
    have heq : guest = named.or innermost := hasked
    rcases hv asker named innermost guest hvia with h | ⟨h, h'⟩
    · rw [heq, h, Option.some_or]
    · rw [heq, h, h', Option.none_or]

/-- What is realised was admitted by name, or asked for by a from-list. -/
theorem realised_admitted {denied : GuestId → Str → Bool}
    (hclosed : ∀ g p name, p ∈ prefixes name → denied g name = false → denied g p = false)
    {events : List Event} (hj : Justified denied events)
    (hv : ∀ e ∈ events, e.Vetted denied) {g : GuestId} {name : Str} {m : Module}
    (h : .realised g name m ∈ events) : denied g name = false := by
  obtain ⟨past, hpast, ⟨dotted, hp, hd⟩, -⟩ := hj.mem h
  refine hclosed g name dotted hp ?_
  rcases hd with hd | hd
  · obtain ⟨_, _, hchecked⟩ := hj.mem (hpast.subset hd)
    exact hchecked
  · exact hv _ (hpast.subset hd)

theorem admitted_of_justified {denied : GuestId → Str → Bool}
    (hclosed : ∀ g p name, p ∈ prefixes name → denied g name = false → denied g p = false)
    {events : List Event} (hj : Justified denied events)
    (hv : ∀ e ∈ events, e.Vetted denied) : ∀ e ∈ events, e.Admitted denied := by
  have hself : ∀ {asker guest}, Attributed events asker guest → guest = some asker :=
    attributed_self hj fun _ _ _ _ he => hv _ he
  intro e he
  cases e with
  | realised g name m => exact realised_admitted hclosed hj hv he
  | handed asker name m =>
    obtain ⟨past, hpast, hhanded⟩ := hj.mem he
    rcases hhanded with ⟨g, hasked, hr⟩ | ⟨-, ⟨guest, call, target, hp, hd⟩ | hf⟩
    · cases hself (hasked.mono hpast)
      exact realised_admitted hclosed hj hv (hpast.subset hr)
    · -- a plain name was checked before it was delegated
      have hdmem := hpast.subset hd
      obtain ⟨past', hpast', hasked, hplain⟩ := hj.mem hdmem
      refine hclosed asker name target hp ?_
      rcases hn : call.plainName with _ | plain
      · exact hv _ hdmem hn
      · obtain ⟨htarget, hallowed⟩ := hplain plain hn
        rw [htarget]
        exact hallowed asker (hself (hasked.mono hpast'))
    · exact hv _ (hpast.subset hf)
  | asked _ _ _ => trivial
  | checked _ _ => trivial
  | expanding _ _ => trivial
  | delegated _ _ _ _ => trivial
  | following _ _ => trivial
  | found _ _ _ => trivial
  | borrowed _ _ _ => trivial

/-- **Nothing denied is realised or handed back along a run whose unchecked loads are not
denied.** -/
theorem admitted_of_vetted (code : Code) (fuel : Nat) (script : Script) (w : World)
    (hw : Initial w) (hv : Every (Event.Vetted w.denies) (runScript code fuel script w)) :
    Every (Event.Admitted w.denies) (runScript code fuel script w) := by
  have hclosed : ∀ g p name, p ∈ prefixes name → w.denies g name = false →
      w.denies g p = false := fun _ _ _ hp hd => not_denied_of_mem_prefixes hd hp
  exact admitted_of_justified hclosed (justified_run code fuel script hw).1 hv

/-! ## A package and its submodule -/

def firstGuest : GuestId := ⟨1, Nat.one_ne_zero⟩

/-- Every guest has a package `p` with a module `p.sub`, and is denied some names. -/
def packageWorld (denied : List Str) : World :=
  let bundle : Bundle :=
    { id := 1
      root := some "p".toList
      modules := [("p".toList, ⟨"p/__init__.py".toList, true⟩),
        ("p.sub".toList, ⟨"p/sub.py".toList, false⟩)] }
  World.new fun _ => GuestBindings.new ⟨[], [], [bundle], []⟩ ⟨[], [], [], denied⟩ fun _ => default

/-- Code that does nothing when it is called. An iteration over anything gives `names`. -/
def idleCode (names : List Str) : Code := fun _ call =>
  match call with
  | .iterate _ => .ret (.ok { (default : Answer) with names })
  | _ => .ret (.ok default)

/-- A guest is built, and its code runs `from p import …`. -/
def importFromPackage : Script :=
  let args : Args := ⟨[.atom (.str "p".toList), .dict fun _ => none, .atom .none, .object 0], []⟩
  .call (.activity (.build .new)) fun _ => .call (.hook firstGuest args) fun _ => .ret ()

theorem initial_packageWorld (denied : List Str) : Initial (packageWorld denied) :=
  initial_new fun _ _ => rfl

theorem admitted_of_vetted_submodule :
    Every (Event.Admitted (packageWorld ["q".toList]).denies)
      (runScript (idleCode ["sub".toList]) 3 importFromPackage (packageWorld ["q".toList])) :=
  admitted_of_vetted _ 3 _ _ (initial_packageWorld _) (by decide +kernel)

/-- `from p import sub` realises `p.sub`, which is denied. -/
theorem not_admitted_of_fromlist : ¬ ∀ (code : Code) (fuel : Nat) (script : Script) (w : World),
    Initial w → Every (Event.Admitted w.denies) (runScript code fuel script w) := by
  intro h
  have hrun := h (idleCode ["sub".toList]) 3 importFromPackage (packageWorld ["p.sub".toList])
    (initial_packageWorld _)
  exact absurd hrun (by decide +kernel)

end GuestPy
