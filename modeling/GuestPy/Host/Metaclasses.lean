import GuestPy.Host.Class
import GuestPy.Library.Fuel
import GuestPy.Library.Least

/-!
# The metaclass of a host class

A host class may have bases of the interpreter, with metaclasses of their own, so the host has to
choose a metaclass before it can make the class.

* `ClassRealiser.metaclass` passes over the bases once and moves to each metaclass that is below
  the one at hand. `realise` makes the class with what it chose.
* `Lawful` says what the host relies on: what the interpreter answers about classes, and that
  calling a metaclass checks for a conflict.
* `metaclass_mostDerived`: the choice is the most derived metaclass of the bases, in whatever order
  they come, and no class is made if there is none.
-/

namespace GuestPy.Metaclasses

open Classes (ClassBases ClassSpec Declaration Err Namespace)

/-! ## Classes of the interpreter -/

/-- The objects of an interpreter. A class lists itself and what it inherits from in its method
resolution order, and any other object lists itself only. -/
class Objects (V : Type) where
  «class» : V → V
  mro : V → List V
  type : V
  items : V → List V
  self_mem : ∀ c, c ∈ mro c
  inherited : ∀ c d, d ∈ mro c → mro d ⊆ mro c
  acyclic : ∀ c d, d ∈ mro c → c ∈ mro d → c = d

section

variable {V : Type} [Objects V]

/-- `c ≤ d`: the class `c` is a subclass of `d`. -/
instance (priority := low) subclassOrder : PartialOrder V where
  le c d := d ∈ Objects.mro c
  le_refl := Objects.self_mem
  le_trans _ _ _ hcd hde := Objects.inherited _ _ hcd hde
  le_antisymm := Objects.acyclic

instance decidableSubclass [DecidableEq V] : DecidableLE V := fun c d =>
  inferInstanceAs (Decidable (d ∈ Objects.mro c))

/-- Classes are the instances of `type`. -/
def IsClass (x : V) : Prop := Objects.class x ≤ Objects.type

instance [DecidableEq V] (x : V) : Decidable (IsClass x) :=
  inferInstanceAs (Decidable (Objects.class x ≤ Objects.type))

def metaclasses (bases : List V) : List V := bases.map Objects.class

end

/-! ## Realising a class -/

/-- What specifications say besides, by the payload type. -/
structure Texts where
  doc : Nat → Option String
  module : Nat → Option String

/-- The classes that are registered and those that have been realised, with the rest of the
world. -/
structure Realisation (V R : Type) where
  registered : Nat → Bool
  realised : Nat → Option V
  rest : R

namespace Realisation

variable {V R : Type}

def setRealised (payload : Nat) (c : V) (s : Realisation V R) : Realisation V R :=
  { s with realised := Function.update s.realised payload (some c) }

end Realisation

/-- What realising a class asks of the interpreter and of the rest of the host. Any of it may run
code that realises other classes. -/
structure Python (V R : Type) where
  none : V
  str : String → V
  nativeBase : V
  isClass : V → Bool
  external : String → Host (Realisation V R) Err V
  qualified : V → String → Host (Realisation V R) Err V
  builtinsDict : Host (Realisation V R) Err V
  getItem : V → V → Host (Realisation V R) Err V
  setItem : V → V → V → Host (Realisation V R) Err Unit
  getAttr : V → String → Host (Realisation V R) Err V
  setAttr : V → String → V → Host (Realisation V R) Err Unit
  isSubclass : V → V → Host (Realisation V R) Err Bool
  tuple : List V → Host (Realisation V R) Err V
  call : V → List V → Host (Realisation V R) Err V
  member : Declaration → String → Host (Realisation V R) Err V
  wrapBuiltin : String → V → Host (Realisation V R) Err V
  classNew : Nat → Host (Realisation V R) Err V
  classInit : Nat → Host (Realisation V R) Err V

def membersOf : Namespace → List (String × Declaration)
  | .nil => []
  | .cons name member rest => (name, member) :: membersOf rest

def hasHostBase : ClassBases → Bool
  | .nil => false
  | .host _ _ => true
  | .imported _ _ rest => hasHostBase rest

/-- The native base comes first, unless a host base brings it. -/
def withNative {V R : Type} (py : Python V R) (specs : ClassBases) (found : List V) : List V :=
  if hasHostBase specs then found else py.nativeBase :: found

namespace ClassRealiser

variable {V R : Type} (texts : Texts) (py : Python V R)

/-- The loop of `metaclass`, with the winner so far. -/
def choose (winner : V) : List V → Host (Realisation V R) Err V
  | [] => pure winner
  | base :: bases => do
    let candidate ← py.getAttr base "__class__"
    if ← py.isSubclass candidate winner then choose candidate bases else choose winner bases

def metaclass (bases : List V) : Host (Realisation V R) Err V := do
  let builtins ← py.builtinsDict
  let winner ← py.getItem builtins (py.str "type")
  choose py winner bases

/-- The members of the class, and what each class has. -/
def fill (payload : Nat) (members : Namespace) (ns : V) : Host (Realisation V R) Err Unit := do
  Host.forEach (membersOf members) fun m => do
    let value ← py.member m.2 m.1
    py.setItem ns (py.str m.1) value
  py.setItem ns (py.str "__doc__") (((texts.doc payload).map py.str).getD py.none)
  py.setItem ns (py.str "__module__") (py.str ((texts.module payload).getD ""))
  let new ← py.classNew payload
  let new ← py.wrapBuiltin "staticmethod" new
  py.setItem ns (py.str "__new__") new
  let init ← py.classInit payload
  py.setItem ns (py.str "__init__") init

/-- What `realise` does once it has the bases. -/
def create (payload : Nat) (name : String) (members statics : Namespace) (bases : List V) :
    Host (Realisation V R) Err V := do
  let metaclass ← metaclass py bases
  let bases ← py.tuple bases
  let prepare ← py.getAttr metaclass "__prepare__"
  let ns ← py.call prepare [py.str name, bases]
  fill texts py payload members ns
  let c ← py.call metaclass [py.str name, bases, ns]
  Host.forEach (membersOf statics) fun m => do
    let value ← py.member m.2 m.1
    py.setAttr c m.1 value
  pure c

mutual

def realise : ClassSpec → Host (Realisation V R) Err V
  | .mk payload name specs members statics => do
    let s ← Host.get
    if !s.registered payload then
      Host.throw (.unexpected "host class was not registered")
    else
      match s.realised payload with
      | some c => pure c
      | none => do
        let found ← collectBases specs
        let c ← create texts py payload name members statics
          (withNative py specs found)
        Host.modify (Realisation.setRealised payload c)
        pure c

/-- The loop of `bases`. -/
def collectBases : ClassBases → Host (Realisation V R) Err (List V)
  | .nil => pure []
  | .host base rest => do
    let base ← realise base
    let others ← collectBases rest
    pure (base :: others)
  | .imported module qualname rest => do
    let module' ← py.external module
    let base ← py.qualified module' qualname
    if py.isClass base then
      let others ← collectBases rest
      pure (base :: others)
    else
      Host.throw (.conversion (module ++ "." ++ qualname ++ " is not a class"))

end

def bases (specs : ClassBases) : Host (Realisation V R) Err (List V) := do
  let found ← collectBases texts py specs
  pure (withNative py specs found)

end ClassRealiser

/-! ## What the host relies on -/

section

variable {V R : Type} [Objects V]

/-- `type`, `__class__` and `issubclass` are what they are documented to be, and calling a metaclass
checks that one of it and the metaclasses of the bases is a subclass of all of them. -/
structure Lawful (py : Python V R) : Prop where
  type : ∀ s, ∃ builtins s₁ s₂, py.builtinsDict s = (.ok builtins, s₁) ∧
    py.getItem builtins (py.str "type") s₁ = (.ok Objects.type, s₂)
  getClass : ∀ b, IsClass b → ∀ s, ∃ s', py.getAttr b "__class__" s = (.ok (Objects.class b), s')
  isSubclass : ∀ c d, c ≤ Objects.type → d ≤ Objects.type → ∀ s,
    ∃ below s', py.isSubclass c d s = (.ok below, s') ∧ (below = true ↔ c ≤ d)
  tuple : ∀ bases s t s', py.tuple bases s = (.ok t, s') → Objects.items t = bases
  conflict : ∀ m name bases ns s c s', m ≤ Objects.type → (∀ b ∈ Objects.items bases, IsClass b) →
    py.call m [name, bases, ns] s = (.ok c, s') →
      ∃ w, IsLeast {x | x ∈ m :: metaclasses (Objects.items bases)} w

/-- Whatever code runs while a class is made, it returns or fails. -/
structure Python.Settles (py : Python V R) : Prop where
  builtinsDict : Host.Settles py.builtinsDict
  getItem : ∀ x k, Host.Settles (py.getItem x k)
  setItem : ∀ x k v, Host.Settles (py.setItem x k v)
  getAttr : ∀ x name, Host.Settles (py.getAttr x name)
  setAttr : ∀ x name v, Host.Settles (py.setAttr x name v)
  isSubclass : ∀ c d, Host.Settles (py.isSubclass c d)
  tuple : ∀ l, Host.Settles (py.tuple l)
  call : ∀ f args, Host.Settles (py.call f args)
  member : ∀ m name, Host.Settles (py.member m name)
  wrapBuiltin : ∀ name x, Host.Settles (py.wrapBuiltin name x)
  classNew : ∀ payload, Host.Settles (py.classNew payload)
  classInit : ∀ payload, Host.Settles (py.classInit payload)

/-- The metaclass of one of the bases, below those of all. -/
def MostDerived (bases : List V) (m : V) : Prop := IsLeast {x | x ∈ metaclasses bases} m

omit [Objects V] in
/-- No class comes out of it. If the code that it runs comes back, it fails. -/
structure Rejects (py : Python V R) (m : Host (Realisation V R) Err V)
    (s : Realisation V R) : Prop where
  none : ∀ c, (m s).1 ≠ .ok c
  fails : py.Settles → ∃ e, (m s).1 = .err e

end

/-! ## Choosing -/

namespace ClassRealiser

section

variable {V R : Type} [Objects V] {py : Python V R} {texts : Texts} {bases : List V}

open Classical in
/-- The loop is the pass of the library over the metaclasses. -/
theorem choose_eq (hpy : Lawful py) (hbases : ∀ b ∈ bases, IsClass b) {winner : V}
    (hwinner : winner ≤ Objects.type) (s : Realisation V R) :
    ∃ s', choose py winner bases s = (.ok ((metaclasses bases).foldl lower winner), s') := by
  induction bases generalizing winner s with
  | nil => exact ⟨s, rfl⟩
  | cons b bases ih =>
    have hb : IsClass b := hbases b List.mem_cons_self
    have hrest : ∀ b ∈ bases, IsClass b := fun b hb => hbases b (List.mem_cons_of_mem _ hb)
    obtain ⟨s₁, hclass⟩ := hpy.getClass b hb s
    obtain ⟨below, s₂, hbelow, hiff⟩ := hpy.isSubclass (Objects.class b) winner hb hwinner s₁
    have hlower : lower winner (Objects.class b) ≤ Objects.type :=
      (lower_le winner _).trans hwinner
    obtain ⟨s₃, hchoose⟩ := ih hrest hlower s₂
    refine ⟨s₃, ?_⟩
    unfold choose
    rw [Host.bind_eq_ok]
    refine ⟨_, s₁, hclass, ?_⟩
    rw [Host.bind_eq_ok]
    refine ⟨_, s₂, hbelow, ?_⟩
    have hfold : (metaclasses (b :: bases)).foldl lower winner =
        (metaclasses bases).foldl lower (lower winner (Objects.class b)) := rfl
    rw [hfold, ← hchoose]
    unfold lower
    by_cases hle : Objects.class b ≤ winner
    · rw [if_pos (hiff.mpr hle), if_pos hle]
    · rw [if_neg (mt hiff.mp hle), if_neg hle]

open Classical in
theorem metaclass_eq (hpy : Lawful py) (hbases : ∀ b ∈ bases, IsClass b)
    (s : Realisation V R) :
    ∃ s', metaclass py bases s = (.ok ((metaclasses bases).foldl lower Objects.type), s') := by
  obtain ⟨builtins, s₁, s₂, hbuiltins, htype⟩ := hpy.type s
  obtain ⟨s₃, hchoose⟩ := choose_eq hpy hbases le_rfl s₂
  refine ⟨s₃, ?_⟩
  unfold metaclass
  rw [Host.bind_eq_ok]
  refine ⟨builtins, s₁, hbuiltins, ?_⟩
  rw [Host.bind_eq_ok]
  exact ⟨Objects.type, s₂, htype, hchoose⟩

theorem metaclasses_le (hbases : ∀ b ∈ bases, IsClass b) :
    ∀ m ∈ metaclasses bases, m ≤ (Objects.type : V) := by
  intro m hm
  obtain ⟨b, hb, rfl⟩ := List.mem_map.mp hm
  exact hbases b hb

/-- The most derived metaclass is chosen. -/
theorem metaclass_of_mostDerived (hpy : Lawful py) (hbases : ∀ b ∈ bases, IsClass b) {m : V}
    (hm : MostDerived bases m) (s : Realisation V R) :
    ∃ s', metaclass py bases s = (.ok m, s') := by
  classical
  have hle : m ≤ Objects.type := metaclasses_le hbases m hm.1
  rw [← foldl_lower_of_isLeast hm hle]
  exact metaclass_eq hpy hbases s

theorem mostDerived_perm {bases' : List V} {m : V} (hm : MostDerived bases m)
    (hp : bases.Perm bases') : MostDerived bases' m := by
  have hmeta : (metaclasses bases).Perm (metaclasses bases') := hp.map _
  exact ⟨hmeta.mem_iff.mp hm.1, fun x hx => hm.2 (hmeta.mem_iff.mpr hx)⟩

/-! ## Making the class -/

/-- A class is only made if one of the metaclasses is below all. -/
theorem mostDerived_of_create (hpy : Lawful py) (hbases : ∀ b ∈ bases, IsClass b)
    (hne : bases ≠ []) {payload : Nat} {name : String} {members statics : Namespace}
    {s s' : Realisation V R} {c : V}
    (h : create texts py payload name members statics bases s = (.ok c, s')) :
    ∃ m, MostDerived bases m := by
  classical
  unfold create at h
  obtain ⟨m, s₁, hm, h⟩ := Host.bind_eq_ok.mp h
  obtain ⟨t, s₂, ht, h⟩ := Host.bind_eq_ok.mp h
  obtain ⟨prepare, s₃, -, h⟩ := Host.bind_eq_ok.mp h
  obtain ⟨ns, s₄, -, h⟩ := Host.bind_eq_ok.mp h
  obtain ⟨_, s₅, -, h⟩ := Host.bind_eq_ok.mp h
  obtain ⟨made, s₆, hmade, -⟩ := Host.bind_eq_ok.mp h
  have hitems : Objects.items t = bases := hpy.tuple bases s₁ t s₂ ht
  have hle : ∀ x ∈ metaclasses bases, x ≤ Objects.type := metaclasses_le hbases
  -- what was chosen is `type`, or the metaclass of a base
  have hwinner : m = Objects.type ∨ m ∈ metaclasses bases := by
    obtain ⟨s₁', hchosen⟩ := metaclass_eq hpy hbases s
    rw [hm] at hchosen
    cases hchosen
    exact foldl_lower_mem (metaclasses bases) Objects.type
  have htype : m ≤ Objects.type := hwinner.elim (fun h => h.le) (hle m)
  obtain ⟨w, hw⟩ := hpy.conflict m _ t ns s₅ made s₆ htype (hitems ▸ hbases) hmade
  rw [hitems] at hw
  refine ⟨w, isLeast_of_cons (by simpa [metaclasses] using hne) ?_ hw⟩
  rcases hwinner with rfl | hmem
  · exact Or.inr hle
  · exact Or.inl hmem

omit [Objects V] in
theorem settles_choose (hpy : py.Settles) (winner : V) : Host.Settles (choose py winner bases) := by
  induction bases generalizing winner with
  | nil => exact Host.Settles.pure winner
  | cons b bases ih =>
    refine (hpy.getAttr b _).bind fun candidate => (hpy.isSubclass candidate winner).bind ?_
    intro below
    cases below with
    | true => exact ih candidate
    | false => exact ih winner

omit [Objects V] in
theorem settles_fill (hpy : py.Settles) (payload : Nat) (members : Namespace) (ns : V) :
    Host.Settles (fill texts py payload members ns) := by
  have hmembers : ∀ m : String × Declaration, Host.Settles (do
      let value ← py.member m.2 m.1
      py.setItem ns (py.str m.1) value) :=
    fun m => (hpy.member _ _).bind fun value => hpy.setItem ns _ value
  refine (Host.settles_forEach hmembers _).bind fun _ => ?_
  refine (hpy.setItem ns _ _).bind fun _ => (hpy.setItem ns _ _).bind fun _ => ?_
  refine (hpy.classNew payload).bind fun new => (hpy.wrapBuiltin _ new).bind fun new => ?_
  refine (hpy.setItem ns _ new).bind fun _ => (hpy.classInit payload).bind fun init => ?_
  exact hpy.setItem ns _ init

omit [Objects V] in
theorem settles_create (hpy : py.Settles) (payload : Nat) (name : String)
    (members statics : Namespace) :
    Host.Settles (create texts py payload name members statics bases) := by
  have hstatics : ∀ (c : V) (m : String × Declaration), Host.Settles (do
      let value ← py.member m.2 m.1
      py.setAttr c m.1 value) :=
    fun c m => (hpy.member _ _).bind fun value => hpy.setAttr c _ value
  refine (hpy.builtinsDict.bind fun d => (hpy.getItem d _).bind (settles_choose hpy)).bind ?_
  intro metaclass
  refine (hpy.tuple bases).bind fun t => (hpy.getAttr metaclass _).bind fun prepare => ?_
  refine (hpy.call prepare _).bind fun ns => (settles_fill hpy payload members ns).bind fun _ => ?_
  refine (hpy.call metaclass _).bind fun c => (Host.settles_forEach (hstatics c) _).bind fun _ => ?_
  exact Host.Settles.pure c

omit [Objects V] in
/-- A class that has not been realised is made from its bases. -/
theorem realise_eq {payload : Nat} {name : String} {specs : ClassBases}
    {members statics : Namespace} {s s₁ : Realisation V R} {found : List V}
    (hregistered : s.registered payload = true) (hrealised : s.realised payload = none)
    (hfound : ClassRealiser.bases texts py specs s = (.ok found, s₁)) :
    realise texts py (.mk payload name specs members statics) s =
      (do
        let c ← create texts py payload name members statics found
        Host.modify (Realisation.setRealised payload c)
        pure c : Host (Realisation V R) Err V) s₁ := by
  obtain ⟨raw, s₀, hraw, hnative⟩ := Host.bind_eq_ok.mp hfound
  cases hnative
  unfold realise
  rw [Host.get_bind]
  simp only [hregistered, hrealised, Bool.not_true, Bool.false_eq_true, if_false]
  change Host.bind (collectBases texts py specs) _ s = _
  unfold Host.bind
  rw [hraw]

omit [Objects V] in
theorem bases_ne_nil {specs : ClassBases} {s s₁ : Realisation V R} {found : List V}
    (h : ClassRealiser.bases texts py specs s = (.ok found, s₁)) : found ≠ [] := by
  obtain ⟨raw, s₀, hraw, hnative⟩ := Host.bind_eq_ok.mp h
  cases hnative
  unfold withNative
  cases specs with
  | nil => exact List.cons_ne_nil _ _
  | host base rest =>
    unfold collectBases at hraw
    obtain ⟨b, _, -, hraw⟩ := Host.bind_eq_ok.mp hraw
    obtain ⟨others, _, -, hraw⟩ := Host.bind_eq_ok.mp hraw
    cases hraw
    exact List.cons_ne_nil _ _
  | imported module qualname rest =>
    split
    · unfold collectBases at hraw
      obtain ⟨m, _, -, hraw⟩ := Host.bind_eq_ok.mp hraw
      obtain ⟨b, _, -, hraw⟩ := Host.bind_eq_ok.mp hraw
      split at hraw
      · obtain ⟨others, _, -, hraw⟩ := Host.bind_eq_ok.mp hraw
        cases hraw
        exact List.cons_ne_nil _ _
      · cases hraw
    · exact List.cons_ne_nil _ _

theorem rejects_of_not_mostDerived (hpy : Lawful py) {payload : Nat} {name : String}
    {specs : ClassBases} {members statics : Namespace} {s s₁ : Realisation V R} {found : List V}
    (hregistered : s.registered payload = true) (hrealised : s.realised payload = none)
    (hfound : ClassRealiser.bases texts py specs s = (.ok found, s₁))
    (hbases : ∀ b ∈ found, IsClass b) (hnone : ¬ ∃ m, MostDerived found m) :
    Rejects py (realise texts py (.mk payload name specs members statics)) s := by
  have hcreate : ∀ c, (create texts py payload name members statics found s₁).1 ≠ .ok c := by
    intro c hc
    exact hnone (mostDerived_of_create hpy hbases (bases_ne_nil hfound) (Prod.ext hc rfl))
  refine ⟨?_, ?_⟩
  · rw [realise_eq hregistered hrealised hfound]
    exact (Host.bind_of_ne_ok hcreate).2
  · intro hsettles
    rw [realise_eq hregistered hrealised hfound]
    have hmade : Host.Settles (create texts py payload name members statics found) :=
      settles_create hsettles payload name members statics
    have hs := hmade.bind fun c => Host.Settles.bind
      (m := (Host.modify (Realisation.setRealised payload c) : Host (Realisation V R) Err Unit))
      (fun _ => Or.inl ⟨(), rfl⟩) fun _ => Host.Settles.pure c
    rcases hs s₁ with ⟨c, hc⟩ | herr
    · exact absurd hc ((Host.bind_of_ne_ok hcreate).2 c)
    · exact herr

/-- **The metaclass of a host class is the most derived one of its bases, whatever their order, and
where there is none no class is made.** -/
theorem metaclass_mostDerived (hpy : Lawful py) (texts : Texts) :
    (∀ (bases bases' : List V) (m : V), (∀ b ∈ bases, IsClass b) → MostDerived bases m →
      bases.Perm bases' → ∀ s, ∃ s', metaclass py bases' s = (.ok m, s')) ∧
    ∀ (payload : Nat) (name : String) (specs : ClassBases) (members statics : Namespace)
      (s s₁ : Realisation V R) (found : List V), s.registered payload = true →
      s.realised payload = none → ClassRealiser.bases texts py specs s = (.ok found, s₁) →
      (∀ b ∈ found, IsClass b) → (¬ ∃ m, MostDerived found m) →
      Rejects py (realise texts py (.mk payload name specs members statics)) s := by
  refine ⟨?_, ?_⟩
  · intro bases bases' m hbases hm hp s
    have hbases' : ∀ b ∈ bases', IsClass b := fun b hb => hbases b (hp.mem_iff.mpr hb)
    exact metaclass_of_mostDerived hpy hbases' (mostDerived_perm hm hp) s
  · intro payload name specs members statics s s₁ found hregistered hrealised hfound hbases hnone
    exact rejects_of_not_mostDerived hpy hregistered hrealised hfound hbases hnone

end

end ClassRealiser

/-! ## Metaclasses that are not comparable -/

/-- Classes are numbers, and tuples of classes are lists of them. The classes `1` and `2` inherit
from `type`, which is `0`, and `3` from both; `4` to `7` are classes of these. -/
inductive Sample where
  | object (n : Nat)
  | tuple (l : List Nat)
  deriving DecidableEq

namespace Sample

def isObject : Sample → Bool
  | .object _ => true
  | .tuple _ => false

def number : Sample → Nat
  | .object n => n
  | .tuple _ => 0

def above : Sample → List Sample
  | .object 1 => [.object 0]
  | .object 2 => [.object 0]
  | .object 3 => [.object 1, .object 2, .object 0]
  | _ => []

def «class» : Sample → Sample
  | .object 5 => .object 1
  | .object 6 => .object 2
  | .object 7 => .object 3
  | .object _ => .object 0
  | .tuple _ => .object 8

def items : Sample → List Sample
  | .object _ => []
  | .tuple l => l.map .object

theorem above_spec {c d : Sample} (h : d ∈ above c) : d :: above d ⊆ above c ∧ c ∉ above d := by
  unfold above at h
  split at h
  · obtain rfl := List.mem_singleton.mp h
    simp [above]
  · obtain rfl := List.mem_singleton.mp h
    simp [above]
  · simp only [List.mem_cons, List.not_mem_nil, or_false] at h
    rcases h with rfl | rfl | rfl <;> simp [above]
  · cases h

instance : Objects Sample where
  «class» := Sample.class
  mro c := c :: above c
  type := .object 0
  items := items
  self_mem _ := List.mem_cons_self
  inherited c d h := by
    rcases List.mem_cons.mp h with rfl | h
    · exact List.Subset.refl _
    · exact List.subset_cons_of_subset _ (above_spec h).1
  acyclic c d hcd hdc := by
    rcases List.mem_cons.mp hcd with heq | hcd
    · exact heq.symm
    · rcases List.mem_cons.mp hdc with heq | hdc
      · exact heq
      · exact absurd hdc (above_spec hcd).2

/-- The most derived one of the metaclasses, by trying them all. -/
def winner (l : List Sample) : Option Sample := l.find? fun w => l.all fun x => decide (w ≤ x)

/-- A module `shapes` with the classes, in an interpreter in which nothing else happens. -/
def python : Python Sample Unit where
  none := .object 8
  str _ := .object 8
  nativeBase := .object 4
  isClass x := decide (Sample.class x ≤ .object 0)
  external _ := pure (.object 8)
  qualified _ name := pure
    (if name = "Left" then .object 5 else if name = "Right" then .object 6 else .object 7)
  builtinsDict := pure (.object 8)
  getItem _ _ := pure (.object 0)
  setItem _ _ _ := pure ()
  getAttr x name := pure (if name = "__class__" then Sample.class x else .object 8)
  setAttr _ _ _ := pure ()
  isSubclass c d := pure (decide (c ≤ d))
  tuple l := if l.all isObject then pure (.tuple (l.map number))
    else Host.throw (.unexpected "not a class")
  call f args :=
    match args with
    | [_, bases, _] =>
      if (winner (f :: metaclasses (items bases))).isSome then pure (.object 9)
      else Host.throw (.guest "TypeError: metaclass conflict")
    | _ => pure (.object 8)
  member _ _ := pure (.object 8)
  wrapBuiltin _ x := pure x
  classNew _ := pure (.object 8)
  classInit _ := pure (.object 8)

theorem isLeast_winner {l : List Sample} {w : Sample} (h : winner l = some w) :
    IsLeast {x | x ∈ l} w := by
  refine ⟨List.mem_of_find?_eq_some h, fun x hx => ?_⟩
  have hall := List.find?_some h
  exact of_decide_eq_true (List.all_eq_true.mp hall x hx)

theorem map_number {l : List Sample} (h : ∀ x ∈ l, isObject x = true) :
    (l.map number).map Sample.object = l := by
  rw [List.map_map]
  refine (List.map_congr_left fun x hx => ?_).trans (List.map_id l)
  cases x with
  | object n => rfl
  | tuple l => cases h _ hx

theorem lawful_python : Lawful python where
  type s := ⟨_, s, s, rfl, rfl⟩
  getClass _ _ s := ⟨s, rfl⟩
  isSubclass _ _ _ _ s := ⟨_, s, rfl, decide_eq_true_iff⟩
  tuple bases s t s' h := by
    simp only [python] at h
    split at h
    · rename_i hall
      cases h
      exact map_number (List.all_eq_true.mp hall)
    · cases h
  conflict m name bases ns s c s' _ _ h := by
    simp only [python] at h
    split at h
    · rename_i hsome
      obtain ⟨w, hw⟩ := Option.isSome_iff_exists.mp hsome
      exact ⟨w, isLeast_winner hw⟩
    · cases h

theorem settles_python : python.Settles where
  builtinsDict _ := Or.inl ⟨_, rfl⟩
  getItem _ _ _ := Or.inl ⟨_, rfl⟩
  setItem _ _ _ _ := Or.inl ⟨_, rfl⟩
  getAttr _ _ _ := Or.inl ⟨_, rfl⟩
  setAttr _ _ _ _ := Or.inl ⟨_, rfl⟩
  isSubclass _ _ _ := Or.inl ⟨_, rfl⟩
  tuple l s := by
    simp only [python]
    split
    · exact Or.inl ⟨_, rfl⟩
    · exact Or.inr ⟨_, rfl⟩
  call f args s := by
    simp only [python]
    split
    · split
      · exact Or.inl ⟨_, rfl⟩
      · exact Or.inr ⟨_, rfl⟩
    · exact Or.inl ⟨_, rfl⟩
  member _ _ _ := Or.inl ⟨_, rfl⟩
  wrapBuiltin _ _ _ := Or.inl ⟨_, rfl⟩
  classNew _ _ := Or.inl ⟨_, rfl⟩
  classInit _ _ := Or.inl ⟨_, rfl⟩

/-- A class with the bases `Left` and `Right`. -/
def leftRight : ClassBases := .imported "shapes" "Left" (.imported "shapes" "Right" .nil)

def texts : Texts := ⟨fun _ => none, fun _ => some "shapes"⟩

def start : Realisation Sample Unit := ⟨fun _ => true, fun _ => none, ()⟩

/-- `Both` settles what `Left` and `Right` do not. -/
theorem metaclass_of_both :
    (∃ s', ClassRealiser.metaclass python [.object 4, .object 5, .object 7, .object 6] start =
      (.ok (.object 3), s')) ∧
    ∃ e, (ClassRealiser.realise texts python (.mk 0 "Torn" leftRight .nil .nil) start).1 =
      .err e := by
  obtain ⟨hchoose, hreject⟩ := ClassRealiser.metaclass_mostDerived lawful_python texts
  refine ⟨?_, ?_⟩
  · have hleast : MostDerived [Sample.object 7, .object 6, .object 5, .object 4] (.object 3) :=
      isLeast_winner (l := metaclasses [.object 7, .object 6, .object 5, .object 4]) (by decide)
    refine hchoose _ _ _ ?_ hleast ?_ start
    · decide
    · decide
  · have hfound : ClassRealiser.bases texts python leftRight start =
        (.ok [.object 4, .object 5, .object 6], start) := rfl
    refine (hreject 0 "Torn" leftRight .nil .nil start start _ rfl rfl hfound ?_ ?_).fails
      settles_python
    · decide
    · rintro ⟨m, hm, hle⟩
      have hall : ∀ m ∈ metaclasses [Sample.object 4, .object 5, .object 6],
          ¬ ∀ x ∈ metaclasses [Sample.object 4, .object 5, .object 6], m ≤ x := by decide
      exact hall m hm fun x hx => hle hx

end Sample

end GuestPy.Metaclasses
