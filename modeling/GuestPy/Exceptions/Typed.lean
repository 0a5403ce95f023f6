import GuestPy.Exceptions.Chains
import GuestPy.Marshal.Returning

/-!
# Structs that are raised and caught

A struct that derives `HostException` is raised as an exception object, and read back from it.

* `ExceptionField.new` says for each field whether it is a constructor argument or an attribute.
  `raiseValue` calls the class with the arguments and then sets the attributes one by one, and
  `fromRaised` goes by index and by name.
* In the object, `args` holds the arguments of the constructor, and `__class__` is the class.
  Other attributes are stored under their names. For `__cause__`, `__context__`, `__traceback__`,
  `__suppress_context__` and `__dict__`, whose values the interpreter checks, and for attributes
  that the class itself computes, as `OSError` does `errno`, this is an assumption.
* `roundTrip_iff`: every value of the struct comes back just if no two attributes share a name,
  and none is `args` or `__class__`.
-/

namespace GuestPy.Exceptions

open Host (mapErr zoom)
open Marshal (Native Value Obj Floats Code Engine toGuest toGuestAll fromGuest)

variable {types : TypeId → HostException} {F : Type}

/-! ## The derive macro -/

/-- A field as the macro finds it. -/
structure ExceptionFieldInput where
  ident : Str
  arg : Bool
  name : Option Str

inductive ExceptionFieldKind where
  | argument (index : Nat)
  | «attribute» (name : Str)
  deriving DecidableEq

/-- `ExceptionField::new`, with the number of arguments before the field. -/
def ExceptionField.new (input : ExceptionFieldInput) (argument : Nat) :
    Except String (ExceptionFieldKind × Nat) :=
  if input.arg && input.name.isSome then
    .error "an exception field cannot combine arg and name"
  else if input.arg then .ok (.argument argument, argument + 1)
  else .ok (.attribute (input.name.getD input.ident), argument)

/-- The fields of `HostExceptionDerive::new`. -/
def HostExceptionDerive.fields : List ExceptionFieldInput → Nat →
    Except String (List ExceptionFieldKind)
  | [], _ => .ok []
  | input :: inputs, argument => do
    let (kind, argument) ← ExceptionField.new input argument
    let kinds ← fields inputs argument
    return kind :: kinds

namespace ExceptionFieldKind

/-- The guest name of an attribute. -/
def guestName : ExceptionFieldKind → Option Str
  | argument _ => none
  | «attribute» name => some name

/-- The arguments are numbered from `n` on. -/
def Numbered : Nat → List ExceptionFieldKind → Prop
  | _, [] => True
  | n, argument index :: kinds => index = n ∧ Numbered (n + 1) kinds
  | n, «attribute» _ :: kinds => Numbered n kinds

end ExceptionFieldKind

theorem HostExceptionDerive.numbered {inputs : List ExceptionFieldInput} {n : Nat}
    {kinds : List ExceptionFieldKind} (h : fields inputs n = .ok kinds) :
    ExceptionFieldKind.Numbered n kinds := by
  induction inputs generalizing n kinds with
  | nil =>
    cases h
    trivial
  | cons input inputs ih =>
    unfold fields at h
    obtain ⟨⟨kind, m⟩, hkind, h⟩ := Results.bind_eq_ok.mp h
    obtain ⟨rest, hrest, h⟩ := Results.bind_eq_ok.mp h
    cases h
    unfold ExceptionField.new at hkind
    split at hkind
    · cases hkind
    · split at hkind
      · cases hkind
        exact ⟨rfl, ih hrest⟩
      · cases hkind
        change ExceptionFieldKind.Numbered _ rest
        exact ih hrest

/-! ## Names of classes -/

/-- The class goes by the names of its specification, and lists itself. -/
structure Bears (i : Interpreter types) (spec : ExceptionSpec types) (c : ObjectId) : Prop where
  module : (i.heap.objects c).module = some spec.module
  qualname : (i.heap.objects c).qualname = some spec.name
  listed : c ∈ (i.heap.objects c).listed

/-- The classes that have been realised go by the names they were given. -/
def KeepsNames (i : Interpreter types) : Prop :=
  ∀ key c, i.cache.realisedException key = some c →
    ∃ spec, i.cache.exceptionSpec key = some spec ∧ Bears i spec c

theorem KeepsNames.of_quiet {past : List (Str → Option ObjectId)} {i i' : Interpreter types}
    (h : KeepsNames i) (hsound : Sound past i) (hquiet : Quiet i i') : KeepsNames i' := by
  intro key c hc
  rw [hquiet.cache] at hc
  obtain ⟨spec, hspec, hbears⟩ := h key c hc
  have hobject := hquiet.objects c (hsound.allocated key c hc)
  refine ⟨spec, by rw [hquiet.cache, hspec], ?_⟩
  exact ⟨by rw [hobject]; exact hbears.module, by rw [hobject]; exact hbears.qualname,
    by rw [hobject]; exact hbears.listed⟩

theorem KeepsNames.of_created {key : ExceptionKey} {spec : ExceptionSpec types} {b c : ObjectId}
    {i₁ i₂ : Interpreter types} (h : KeepsNames i₂) (hspec : i₂.cache.exceptionSpec key = some spec)
    (hc : ExceptionRealiser.Created spec.module spec.name b i₁ i₂ c) :
    KeepsNames { i₂ with cache := i₂.cache.setRealisedException key c } := by
  intro key' c' hc'
  by_cases hk : key' = key
  · subst hk
    rw [RealisationCache.realised_setRealised_self hspec] at hc'
    cases hc'
    refine ⟨spec, by rw [RealisationCache.exceptionSpec_setRealised, hspec], ?_⟩
    exact ⟨hc.module, hc.qualname, by rw [hc.listed]; exact List.mem_cons_self⟩
  · rw [RealisationCache.realised_setRealised_of_ne hk] at hc'
    obtain ⟨spec', hspec', hbears⟩ := h key' c' hc'
    exact ⟨spec', by rw [RealisationCache.exceptionSpec_setRealised, hspec'],
      hbears.module, hbears.qualname, hbears.listed⟩

/-- Requests keep the names. -/
theorem keepsNames_host {past : List (Str → Option ObjectId)} {i i' : Interpreter types}
    {o : Outcome Err ObjectId} (depth : Nat) {key : ExceptionKey} (hsound : Sound past i)
    (h : KeepsNames i) (hhost : ExceptionRealiser.host depth key i = (o, i')) : KeepsNames i' := by
  induction depth generalizing key i o i' with
  | zero =>
    cases hhost
    exact h
  | succ depth ih =>
    rcases ExceptionRealiser.host_cases hhost with
      ⟨c, -, -, rfl⟩ | ⟨-, -, rfl⟩ | ⟨spec, hspec, -, hrealise⟩
    · exact h
    · exact h
    · rcases hbase : ExceptionRealiser.baseOf (ExceptionRealiser.host depth) spec i with ⟨ob, i₁⟩
      obtain ⟨hrealises, hdeclared, -⟩ := ExceptionRealiser.baseOf_cases
        (fun _ _ _ hk => ExceptionRealiser.requested_host depth hsound hk) hsound hbase
      have hnames : KeepsNames i₁ := by
        cases hkey : spec.base.key with
        | some base =>
          rw [ExceptionRealiser.baseOf_of_key hkey] at hbase
          exact ih hsound h hbase
        | none => exact h.of_quiet hsound (ExceptionRealiser.quiet_baseOf hkey hbase)
      rcases ExceptionRealiser.realise_cases hrealise hbase fun b hb =>
        (hdeclared b hb).lt hrealises.sound with ⟨-, rfl, -⟩ | ⟨b, rfl, hend⟩
      · exact hnames
      · rcases hend with ⟨-, hquiet⟩ | ⟨c, i₂, -, hquiet, hcreated, rfl⟩
        · exact hnames.of_quiet hrealises.sound hquiet
        · refine (hnames.of_quiet hrealises.sound hquiet).of_created ?_ hcreated
          rw [hquiet.cache, hrealises.specs, hspec]

/-! ## Fields of a value -/

/-- A field of a value of the struct. -/
structure ExceptionField (F : Type) where
  kind : ExceptionFieldKind
  ty : Native
  value : Value F

/-- `Raise`, without a cause. Its values are converted when it is raised. -/
structure Raise (F : Type) where
  «class» : ExceptionClass
  args : List (Value F)
  attrs : List (Str × Value F)

namespace Raise

def new («class» : ExceptionClass) : Raise F := ⟨«class», [], []⟩

def arg (r : Raise F) (value : Value F) : Raise F := { r with args := r.args ++ [value] }

def attr (r : Raise F) (name : Str) (value : Value F) : Raise F :=
  { r with attrs := r.attrs ++ [(name, value)] }

end Raise

/-- `ExceptionField::raise`. -/
def ExceptionField.raise (r : Raise F) (field : ExceptionField F) : Raise F :=
  match field.kind with
  | .argument _ => r.arg field.value
  | .attribute name => r.attr name field.value

/-- `Raise::host`. -/
def Raise.host (types : TypeId → HostException) (E : TypeId) (fields : List (ExceptionField F)) :
    Raise F :=
  fields.foldl ExceptionField.raise (.new (.of types E))

/-- The attributes among the fields. -/
def attributes (fields : List (ExceptionField F)) : List (Str × Value F) :=
  fields.filterMap fun field => field.kind.guestName.map (·, field.value)

theorem map_fst_attributes (fields : List (ExceptionField F)) :
    (attributes fields).map Prod.fst =
      (fields.map ExceptionField.kind).filterMap ExceptionFieldKind.guestName := by
  unfold attributes
  rw [List.map_filterMap, List.filterMap_map]
  congr 1
  funext field
  simp [Option.map_map, Function.comp_def]

/-- What the fields add to a `Raise`. -/
structure Raises (fields : List (ExceptionField F)) (r r' : Raise F) : Prop where
  «class» : r'.class = r.class
  attrs : r'.attrs = r.attrs ++ attributes fields
  extends' : r.args <+: r'.args
  args : ∀ field ∈ fields, ∀ index, field.kind = .argument index →
    r'.args[index]? = some field.value
  only : ∀ value ∈ r'.args, value ∈ r.args ∨ ∃ field ∈ fields, field.value = value

theorem raises_foldl {fields : List (ExceptionField F)} {r : Raise F}
    (h : ExceptionFieldKind.Numbered r.args.length (fields.map ExceptionField.kind)) :
    Raises fields r (fields.foldl ExceptionField.raise r) := by
  induction fields generalizing r with
  | nil => exact ⟨rfl, (List.append_nil _).symm, List.prefix_refl _, nofun, fun _ => Or.inl⟩
  | cons field fields ih =>
    obtain ⟨kind, ty, value⟩ := field
    rw [List.foldl_cons]
    cases kind with
    | argument index =>
      obtain ⟨rfl, h⟩ := h
      have hrest : Raises fields (r.arg value) (fields.foldl ExceptionField.raise (r.arg value)) :=
        ih (by simpa [Raise.arg] using h)
      refine ⟨hrest.class, hrest.attrs, (List.prefix_append _ _).trans hrest.extends', ?_, ?_⟩
      · intro field' hfield' index hindex
        rcases List.mem_cons.mp hfield' with rfl | hmem
        · cases hindex
          have hlast := List.prefix_iff_getElem?.mp hrest.extends' r.args.length
            (by simp [Raise.arg])
          simp only [Raise.arg, List.getElem_append_right (le_refl _), Nat.sub_self,
            List.getElem_cons_zero] at hlast
          exact hlast
        · exact hrest.args field' hmem index hindex
      · intro v hv
        rcases hrest.only v hv with hv | ⟨field', hmem, heq⟩
        · rcases List.mem_append.mp hv with hv | hv
          · exact Or.inl hv
          · rw [List.mem_singleton.mp hv]
            exact Or.inr ⟨_, List.mem_cons_self, rfl⟩
        · exact Or.inr ⟨field', List.mem_cons_of_mem _ hmem, heq⟩
    | «attribute» name =>
      have hrest : Raises fields (r.attr name value)
          (fields.foldl ExceptionField.raise (r.attr name value)) := ih h
      refine ⟨hrest.class, ?_, hrest.extends', ?_, ?_⟩
      · refine hrest.attrs.trans ?_
        simp [Raise.attr, attributes, ExceptionFieldKind.guestName]
      · intro field' hfield' index hindex
        rcases List.mem_cons.mp hfield' with rfl | hmem
        · cases hindex
        · exact hrest.args field' hmem index hindex
      · intro v hv
        rcases hrest.only v hv with hv | ⟨field', hmem, heq⟩
        · exact Or.inl hv
        · exact Or.inr ⟨field', List.mem_cons_of_mem _ hmem, heq⟩

/-! ## Exception objects -/

/-- What an exception object holds. -/
structure Contents (F : Type) where
  args : List (Obj F)
  attrs : Str → Option (Obj F)

structure World (types : TypeId → HostException) (F : Type) where
  interpreter : Interpreter types
  contents : ObjectId → Contents F

namespace World

def setContents (x : ObjectId) (f : Contents F → Contents F) (w : World types F) : World types F :=
  { w with contents := Function.update w.contents x (f (w.contents x)) }

/-- Runs a computation of the interpreter. -/
def within {α : Type} (m : Host (Interpreter types) Err α) : Host (World types F) Err α :=
  zoom interpreter (fun i w => { w with interpreter := i }) m

end World

/-- Where an exception is raised. `qualified` looks up a class of a guest module, `adopt` is how
an error of a native conversion is seen, `construct` is what a class makes of the arguments it is
called with, and `recover` is what the conversion of an error makes of an error that it meets. -/
structure Site (types : TypeId → HostException) (F : Type) where
  depth : Nat
  engine : Engine
  code : Code (World types F) F
  qualified : Str → Str → Host (Interpreter types) Err ObjectId
  adopt : Marshal.Err → Err
  construct : ObjectId → List (Obj F) → Contents F
  recover : Err → Host (World types F) Err ObjectId

namespace Site

open ExceptionRealiser

variable (site : Site types F)

def call (c : ObjectId) (args : List (Obj F)) : Host (World types F) Err ObjectId := do
  let w ← Host.get
  Host.modify fun w =>
    { interpreter := w.interpreter.withHeap fun h =>
        (h.allocate fun _ => Interpreter.instanceOf c none none).2
      contents := Function.update w.contents w.interpreter.heap.next (site.construct c args) }
  pure w.interpreter.heap.next

/-- `get_attr`. All attributes but `args` and `__class__` are taken to be stored under their names,
the special ones of exceptions included. -/
def getAttr (x : ObjectId) (name : Str) : Host (World types F) Err (Obj F) := do
  let w ← Host.get
  if name = "args".toList then pure (.tuple (w.contents x).args)
  else if name = "__class__".toList then
    pure (.other "type" (w.interpreter.heap.objects x).class)
  else
    match (w.contents x).attrs name with
    | some value => pure value
    | none => Host.throw (site.adopt (Obj.raise "AttributeError"))

/-- An attribute that is stored under its name. -/
def Plain (name : Str) : Prop := name ≠ "args".toList ∧ name ≠ "__class__".toList

instance : DecidablePred Plain := fun _ => inferInstanceAs (Decidable (_ ∧ _))

theorem getAttr_args (x : ObjectId) (w : World types F) :
    site.getAttr x "args".toList w = (.ok (.tuple (w.contents x).args), w) := rfl

theorem getAttr_plain {x : ObjectId} {name : Str} (h : Plain name) {value : Obj F}
    {w w' : World types F} :
    site.getAttr x name w = (.ok value, w') ↔ (w.contents x).attrs name = some value ∧ w' = w := by
  unfold getAttr
  rw [Host.get_bind, if_neg h.1, if_neg h.2]
  cases (w.contents x).attrs name with
  | some value' =>
    constructor
    · intro h
      cases h
      exact ⟨rfl, rfl⟩
    · rintro ⟨h, rfl⟩
      cases h
      rfl
  | none =>
    constructor
    · intro h
      cases h
    · rintro ⟨h, -⟩
      cases h

/-- What is assigned to `args` becomes a tuple, and a class is not one of the values that have
native conversions. The attributes that `getAttr` takes to be stored accept any value here. -/
def setAttr (x : ObjectId) (name : Str) (value : Obj F) : Host (World types F) Err Unit :=
  if name = "args".toList then do
    let iterator ← mapErr site.adopt (site.code.iterator value)
    let args ← mapErr site.adopt (site.code.drain pure iterator)
    Host.modify (World.setContents x fun c => { c with args := args })
  else if name = "__class__".toList then Host.throw (site.adopt (Obj.raise "TypeError"))
  else Host.modify (World.setContents x fun c =>
    { c with attrs := Function.update c.attrs name (some value) })

theorem setAttr_plain {x : ObjectId} {name : Str} (h : Plain name) (value : Obj F)
    (w : World types F) : site.setAttr x name value w = (.ok (), w.setContents x fun c =>
      { c with attrs := Function.update c.attrs name (some value) }) := by
  unfold setAttr
  rw [if_neg h.1, if_neg h.2]
  rfl

variable [Floats F]

/-! ### Raising -/

/-- `ExceptionRaiser::class`. -/
def classOf («class» : ExceptionClass) : Host (World types F) Err ObjectId :=
  World.within do
    let resolved ←
      match «class».key with
      | some key => host site.depth key
      | none =>
        match «class» with
        | .guest module qualname => site.qualified module qualname
        | «class» => builtin «class».display
    exceptionClass «class» resolved

/-- Converts an attribute and sets it. -/
def assign (x : ObjectId) (p : Str × Value F) : Host (World types F) Err Unit := do
  let value ← mapErr site.adopt (Host.ofExcept (toGuest p.2))
  site.setAttr x p.1 value

/-- `raise_value`, for a `Raise`. -/
def raiseValue (r : Raise F) : Host (World types F) Err ObjectId := do
  let c ← site.classOf r.class
  let values ← mapErr site.adopt (Host.ofExcept (toGuestAll r.args))
  let object ← site.call c values
  Host.forEach r.attrs (site.assign object)
  pure object

/-- `convert`. -/
def convert (r : Raise F) : Host (World types F) Err ObjectId := do
  match ← Host.attempt (site.raiseValue r) with
  | .ok object => pure object
  | .error e => site.recover e

/-! ### Catching -/

/-- `Raised::arg`. -/
def arg (x : ObjectId) (ty : Native) (index : Nat) : Host (World types F) Err (Value F) := do
  match ← site.getAttr x "args".toList with
  | .tuple args =>
    match args[index]? with
    | some value => mapErr site.adopt (fromGuest site.engine site.code ty value)
    | none => Host.throw (.conversion s!"raised exception has no argument {index}")
  | _ => Host.throw (site.adopt (Obj.raise "TypeError"))

/-- `Raised::attr`. -/
def attr (x : ObjectId) (ty : Native) (name : Str) : Host (World types F) Err (Value F) := do
  let value ← mapErr (fun _ => .attribute (String.ofList name)) (site.getAttr x name)
  mapErr site.adopt (fromGuest site.engine site.code ty value)

/-- `ExceptionField::read`. -/
def read (x : ObjectId) (field : ExceptionField F) : Host (World types F) Err (Value F) :=
  match field.kind with
  | .argument index => site.arg x field.ty index
  | .attribute name => site.attr x field.ty name

def fromRaised (x : ObjectId) (fields : List (ExceptionField F)) :
    Host (World types F) Err (List (Value F)) :=
  eachItem (site.read x) fields

/-- `FromRaised::caught`. -/
def caught (E : TypeId) (fields : List (ExceptionField F)) (e : GuestException) :
    Host (World types F) Err (Option (List (Value F))) :=
  if !(ExceptionClass.of types E).matches e then pure none
  else
    match e.object with
    | some x => do return some (← site.fromRaised x fields)
    | none => Host.throw (.conversion
        (String.ofList e.qualifiedName ++ " has no object for this backend"))

/-- A host callback raises the value. The exception goes through the guest, and the host that
called the guest catches it. -/
def roundTrip (E : TypeId) (traceback : Option Str) (fields : List (ExceptionField F)) :
    Host (World types F) Err (Option (List (Value F))) := do
  let x ← site.convert (.host types E fields)
  let w ← Host.get
  match w.interpreter.handed x traceback with
  | .guest e => site.caught E fields e
  | e => Host.throw e

/-! ## What is read -/

/-- Items that are read one after another, without a change of the state. -/
theorem eachItem_eq_ok {σ ε α β : Type} {f : α → Host σ ε β} {as : List α} {bs : List β} {s s' : σ}
    (hstill : ∀ a ∈ as, ∀ s b s', f a s = (.ok b, s') → s' = s) :
    eachItem f as s = (.ok bs, s') ↔
      s' = s ∧ List.Forall₂ (fun a b => f a s = (.ok b, s)) as bs := by
  induction as generalizing bs with
  | nil =>
    constructor
    · intro h
      cases h
      exact ⟨rfl, .nil⟩
    · rintro ⟨rfl, h⟩
      cases h
      rfl
  | cons a as ih =>
    have ih : ∀ {bs}, eachItem f as s = (.ok bs, s') ↔
        s' = s ∧ List.Forall₂ (fun a b => f a s = (.ok b, s)) as bs :=
      ih fun a' ha' => hstill a' (List.mem_cons_of_mem _ ha')
    have hcons : eachItem f (a :: as) s = (.ok bs, s') ↔ ∃ b s₁, f a s = (.ok b, s₁) ∧
        ∃ bs' s₂, eachItem f as s₁ = (.ok bs', s₂) ∧
          (pure (b :: bs') : Host σ ε _) s₂ = (.ok bs, s') :=
      Host.bind_eq_ok.trans (exists_congr fun b => exists_congr fun s₁ =>
        and_congr_right fun _ => Host.bind_eq_ok)
    rw [hcons]
    constructor
    · rintro ⟨b, s₁, hb, bs', s₂, hbs, h⟩
      cases h
      obtain rfl := hstill a List.mem_cons_self _ _ _ hb
      obtain ⟨rfl, hrest⟩ := ih.mp hbs
      exact ⟨rfl, .cons hb hrest⟩
    · rintro ⟨rfl, h⟩
      cases h with
      | @cons _ b _ bs' hb hrest =>
        exact ⟨b, _, hb, bs', _, ih.mpr ⟨rfl, hrest⟩, rfl⟩

theorem mapErr_of_ok {ε ε' σ α : Type} {f : ε → ε'} {m : Host σ ε α} {s s' : σ} {a : α}
    (h : m s = (.ok a, s')) : mapErr f m s = (.ok a, s') :=
  Host.mapErr_eq_ok.mpr h

theorem attr_eq_ok {x : ObjectId} {ty : Native} {name : Str} {value : Obj F} {v : Value F}
    {w w' : World types F} (hvalue : site.getAttr x name w = (.ok value, w)) :
    site.attr x ty name w = (.ok v, w') ↔
      fromGuest site.engine site.code ty value w = (.ok v, w') := by
  unfold attr
  rw [Host.bind_eq_ok]
  constructor
  · rintro ⟨value', w₁, hget, h⟩
    rw [Host.mapErr_eq_ok, hvalue] at hget
    cases hget
    exact Host.mapErr_eq_ok.mp h
  · intro h
    exact ⟨value, w, mapErr_of_ok hvalue, Host.mapErr_eq_ok.mpr h⟩

theorem arg_eq_ok {x : ObjectId} {ty : Native} {index : Nat} {v : Value F} {w w' : World types F} :
    site.arg x ty index w = (.ok v, w') ↔ ∃ value, (w.contents x).args[index]? = some value ∧
      fromGuest site.engine site.code ty value w = (.ok v, w') := by
  unfold arg
  rw [Host.bind_eq_ok]
  constructor
  · rintro ⟨tuple, w₁, hget, h⟩
    rw [getAttr_args] at hget
    cases hget
    cases hvalue : (w.contents x).args[index]? with
    | some value =>
      simp only [hvalue] at h
      exact ⟨value, rfl, Host.mapErr_eq_ok.mp h⟩
    | none =>
      simp only [hvalue] at h
      cases h
  · rintro ⟨value, hvalue, h⟩
    refine ⟨_, w, getAttr_args site x w, ?_⟩
    simp only [hvalue]
    exact Host.mapErr_eq_ok.mpr h

/-! ### Strings -/

theorem fromGuest_string {σ : Type} {engine : Engine} {code : Code σ F} {o : Obj F} {v : Value F}
    {s s' : σ} (h : fromGuest engine code .string o s = (.ok v, s')) :
    s' = s ∧ ∃ text, o = .str text := by
  unfold fromGuest at h
  cases o with
  | str text =>
    cases h
    exact ⟨rfl, text, rfl⟩
  | illFormed id => cases engine <;> cases h
  | none => cases h
  | bool b => cases h
  | int n => cases h
  | float x => cases h
  | bytes b => cases h
  | list xs => cases h
  | tuple xs => cases h
  | set xs => cases h
  | dict ps => cases h
  | other typeName id => cases h

/-- Reading a string changes nothing, and neither of the two special attributes is one. -/
theorem read_string {x : ObjectId} {field : ExceptionField F} {v : Value F} {w w' : World types F}
    (hty : field.ty = .string) (h : site.read x field w = (.ok v, w')) :
    w' = w ∧ ∀ name, field.kind = .attribute name → Plain name := by
  unfold read at h
  cases hkind : field.kind with
  | argument index =>
    rw [hkind, hty, arg_eq_ok] at h
    obtain ⟨value, -, h⟩ := h
    exact ⟨(fromGuest_string h).1, nofun⟩
  | «attribute» name =>
    rw [hkind, hty] at h
    obtain ⟨value, w₁, hget, hvalue⟩ := Host.bind_eq_ok.mp h
    obtain ⟨rfl, text, rfl⟩ := fromGuest_string (Host.mapErr_eq_ok.mp hvalue)
    rw [Host.mapErr_eq_ok] at hget
    have hname : Plain name := by
      constructor
      · rintro rfl
        cases hget
      · rintro rfl
        cases hget
    refine ⟨?_, fun name' heq => by cases heq; exact hname⟩
    exact ((site.getAttr_plain hname).mp hget).2

/-! ### Fields that are strings -/

/-- The field comes back through the native conversions. -/
def FieldReturns (field : ExceptionField F) : Prop :=
  ∃ o, toGuest field.value = .ok o ∧
    ∀ w, fromGuest site.engine site.code field.ty o w = (.ok field.value, w)

/-- A value of a struct of strings, each longer than the one before. -/
def marked (kinds : List ExceptionFieldKind) : List (ExceptionField F) :=
  kinds.zipIdx.map fun p => ⟨p.1, .string, .str (List.replicate p.2 'a')⟩

omit [Floats F] in
theorem kind_marked (kinds : List ExceptionFieldKind) :
    (marked (F := F) kinds).map ExceptionField.kind = kinds := by
  unfold marked
  rw [List.map_map]
  exact List.zipIdx_map_fst 0 kinds

omit [Floats F] in
theorem mem_marked {kinds : List ExceptionFieldKind} {i : Nat} {kind : ExceptionFieldKind}
    (h : kinds[i]? = some kind) :
    (⟨kind, .string, .str (List.replicate i 'a')⟩ : ExceptionField F) ∈ marked kinds :=
  List.mem_map.mpr ⟨(kind, i), List.mk_mem_zipIdx_iff_getElem?.mpr h, rfl⟩

/-- Values of the standard library come back. -/
theorem fieldReturns_of_has {field : ExceptionField F} (h : field.ty.Has field.value)
    (hl : field.value.Lossless) : site.FieldReturns field := by
  have hreturns : ∃ o, toGuest field.value = .ok o ∧
      Marshal.Comes site.engine site.code field.ty field.value o := Marshal.returns h hl
  obtain ⟨o, ho, hcomes⟩ := hreturns
  exact ⟨o, ho, hcomes.exact⟩

theorem returns_marked (kinds : List ExceptionFieldKind) :
    ∀ field ∈ marked (F := F) kinds, site.FieldReturns field := by
  intro field hfield
  obtain ⟨p, -, rfl⟩ := List.mem_map.mp hfield
  exact site.fieldReturns_of_has trivial trivial

theorem guestName_eq_some {kind : ExceptionFieldKind} {name : Str}
    (h : kind.guestName = some name) : kind = .attribute name := by
  cases kind with
  | argument index => cases h
  | «attribute» name' =>
    cases h
    rfl

/-- Such a value comes back only if the names tell its attributes apart. -/
theorem names_of_fromRaised {x : ObjectId} {kinds : List ExceptionFieldKind} {w w' : World types F}
    (h : site.fromRaised x (marked kinds) w =
      (.ok ((marked kinds).map ExceptionField.value), w')) :
    (kinds.filterMap ExceptionFieldKind.guestName).Nodup ∧
      ∀ name ∈ kinds.filterMap ExceptionFieldKind.guestName, Plain name := by
  have hty : ∀ field ∈ marked (F := F) kinds, field.ty = .string := by
    intro field hfield
    obtain ⟨p, -, rfl⟩ := List.mem_map.mp hfield
    rfl
  have hstill : ∀ field ∈ marked (F := F) kinds, ∀ s v s',
      site.read x field s = (.ok v, s') → s' = s := fun field hfield _ _ _ hread =>
    (site.read_string (hty field hfield) hread).1
  obtain ⟨-, hall⟩ := (eachItem_eq_ok hstill).mp h
  rw [List.forall₂_map_right_iff, List.forall₂_same] at hall
  constructor
  · unfold List.Nodup
    rw [List.pairwise_filterMap, List.pairwise_iff_getElem]
    rintro i j hi hj hlt name hname _ hname' rfl
    -- both are read at one name, but differ in length
    have hfirst := hall _ (mem_marked (kinds.getElem?_eq_some_iff.mpr ⟨hi, rfl⟩))
    have hsecond := hall _ (mem_marked (kinds.getElem?_eq_some_iff.mpr ⟨hj, rfl⟩))
    rw [guestName_eq_some hname] at hfirst
    rw [guestName_eq_some hname'] at hsecond
    have hsame := hfirst.symm.trans hsecond
    simp only [Prod.mk.injEq, Outcome.ok.injEq, Value.str.injEq, and_true] at hsame
    have hlength := congrArg List.length hsame
    simp only [List.length_replicate] at hlength
    omega
  · intro name hname
    obtain ⟨kind, hkind, hguest⟩ := List.mem_filterMap.mp hname
    rw [← kind_marked (F := F) kinds] at hkind
    obtain ⟨field, hfield, rfl⟩ := List.mem_map.mp hkind
    exact (site.read_string (hty field hfield) (hall field hfield)).2 name
      (guestName_eq_some hguest)

/-- A round trip reads the fields. -/
theorem names_of_roundTrip {E : TypeId} {traceback : Option Str} {kinds : List ExceptionFieldKind}
    {w w' : World types F} (h : site.roundTrip E traceback (marked kinds) w =
      (.ok (some ((marked kinds).map ExceptionField.value)), w')) :
    (kinds.filterMap ExceptionFieldKind.guestName).Nodup ∧
      ∀ name ∈ kinds.filterMap ExceptionFieldKind.guestName, Plain name := by
  obtain ⟨x, w₁, -, h⟩ := Host.bind_eq_ok.mp h
  change site.caught E (marked kinds)
    ((GuestException.describe w₁.interpreter.heap x traceback).identify _) w₁ = _ at h
  unfold caught at h
  split at h
  · cases h
  · obtain ⟨values, w₂, hread, h⟩ := Host.bind_eq_ok.mp h
    cases h
    exact site.names_of_fromRaised hread

/-! ## What is stored -/

theorem toGuestAll_of_forall {values : List (Value F)}
    (h : ∀ v ∈ values, ∃ o, toGuest v = .ok o) : ∃ os, toGuestAll values = .ok os ∧
      ∀ (i : Nat) (v : Value F) (o : Obj F), values[i]? = some v → toGuest v = .ok o →
        os[i]? = some o := by
  induction values with
  | nil => exact ⟨[], rfl, fun i v o hv => by simp at hv⟩
  | cons v values ih =>
    obtain ⟨o, ho⟩ := h v List.mem_cons_self
    obtain ⟨os, hos, hget⟩ := ih fun v' hv' => h v' (List.mem_cons_of_mem _ hv')
    refine ⟨o :: os, ?_, fun i v' o' hv' ho' => ?_⟩
    · unfold toGuestAll
      rw [ho, hos]
      rfl
    · cases i with
      | zero =>
        cases hv'
        rw [ho] at ho'
        cases ho'
        rfl
      | succ i => exact hget i v' o' hv' ho'

/-- What setting the attributes leaves. -/
structure Assigned (x : ObjectId) (ps : List (Str × Value F)) (w w' : World types F) : Prop where
  interpreter : w'.interpreter = w.interpreter
  args : (w'.contents x).args = (w.contents x).args
  others : ∀ name, name ∉ ps.map Prod.fst → (w'.contents x).attrs name = (w.contents x).attrs name
  stored : (ps.map Prod.fst).Nodup → ∀ p ∈ ps, ∀ o, toGuest p.2 = .ok o →
    (w'.contents x).attrs p.1 = some o

theorem assigned_forEach {x : ObjectId} {ps : List (Str × Value F)}
    (hplain : ∀ name ∈ ps.map Prod.fst, Plain name) (hconvert : ∀ p ∈ ps, ∃ o, toGuest p.2 = .ok o)
    (w : World types F) :
    ∃ w', Host.forEach ps (site.assign x) w = (.ok (), w') ∧ Assigned x ps w w' := by
  induction ps generalizing w with
  | nil => exact ⟨w, rfl, rfl, rfl, fun _ _ => rfl, nofun⟩
  | cons p ps ih =>
    obtain ⟨name, v⟩ := p
    obtain ⟨o, ho⟩ := hconvert (name, v) List.mem_cons_self
    have hname : Plain name := hplain name List.mem_cons_self
    have hfirst : site.assign x (name, v) w = (.ok (), w.setContents x fun c =>
        { c with attrs := Function.update c.attrs name (some o) }) := by
      refine Host.bind_eq_ok.mpr ⟨o, w, ?_, site.setAttr_plain hname o w⟩
      rw [ho]
      rfl
    obtain ⟨w', hrest, hassigned⟩ := ih (fun n hn => hplain n (List.mem_cons_of_mem _ hn))
      (fun q hq => hconvert q (List.mem_cons_of_mem _ hq))
      (w.setContents x fun c => { c with attrs := Function.update c.attrs name (some o) })
    have hcontents : ((w.setContents x fun c =>
        { c with attrs := Function.update c.attrs name (some o) }).contents x) =
        { w.contents x with attrs := Function.update (w.contents x).attrs name (some o) } :=
      Function.update_self ..
    refine ⟨w', ?_, hassigned.interpreter, ?_, fun n hn => ?_, fun hnodup q hq o' ho' => ?_⟩
    · exact Host.bind_eq_ok.mpr ⟨(), _, hfirst, hrest⟩
    · rw [hassigned.args, hcontents]
    · obtain ⟨hne, hn⟩ := List.ne_and_not_mem_of_not_mem_cons hn
      rw [hassigned.others n hn, hcontents]
      exact Function.update_of_ne hne _ _
    · obtain ⟨hnew, hnodup⟩ := List.nodup_cons.mp hnodup
      rcases List.mem_cons.mp hq with rfl | hq
      · rw [ho] at ho'
        cases ho'
        rw [hassigned.others name hnew, hcontents]
        exact Function.update_self ..
      · exact hassigned.stored hnodup q hq o' ho'

/-- What the object holds of the fields. -/
structure Holds (fields : List (ExceptionField F)) (c : Contents F) : Prop where
  args : ∀ field ∈ fields, ∀ index, field.kind = .argument index → ∀ o,
    toGuest field.value = .ok o → c.args[index]? = some o
  attrs : ∀ field ∈ fields, ∀ name, field.kind = .attribute name → ∀ o,
    toGuest field.value = .ok o → c.attrs name = some o

/-- Fields that are held are read. -/
theorem fromRaised_of_holds {x : ObjectId} {fields : List (ExceptionField F)} {w : World types F}
    (hreturns : ∀ field ∈ fields, site.FieldReturns field)
    (hplain : ∀ name ∈ (fields.map ExceptionField.kind).filterMap ExceptionFieldKind.guestName,
      Plain name) (h : Holds fields (w.contents x)) :
    site.fromRaised x fields w = (.ok (fields.map ExceptionField.value), w) := by
  have hread : ∀ field ∈ fields, site.read x field w = (.ok field.value, w) := by
    intro field hfield
    obtain ⟨o, ho, hfrom⟩ := hreturns field hfield
    unfold read
    cases hkind : field.kind with
    | argument index =>
      exact site.arg_eq_ok.mpr ⟨o, h.args field hfield index hkind o ho, hfrom w⟩
    | «attribute» name =>
      have hname : Plain name := by
        refine hplain name (List.mem_filterMap.mpr ⟨field.kind, List.mem_map_of_mem hfield, ?_⟩)
        rw [hkind]
        rfl
      have hget := (site.getAttr_plain hname).mpr ⟨h.attrs field hfield name hkind o ho, rfl⟩
      exact (site.attr_eq_ok hget).mpr (hfrom w)
  clear hreturns hplain h
  induction fields with
  | nil => rfl
  | cons field fields ih =>
    refine Host.bind_eq_ok.mpr ⟨_, w, hread field List.mem_cons_self, ?_⟩
    refine Host.bind_eq_ok.mpr ⟨_, w, ih fun f hf => hread f (List.mem_cons_of_mem _ hf), rfl⟩

omit [Floats F] in
/-- The object that a call makes. -/
theorem call_eq (c : ObjectId) (args : List (Obj F)) (w : World types F) :
    site.call c args w = (.ok w.interpreter.heap.next,
      { interpreter := w.interpreter.withHeap fun h =>
          (h.allocate fun _ => Interpreter.instanceOf c none none).2
        contents := Function.update w.contents w.interpreter.heap.next
          (site.construct c args) }) := rfl

/-- Raising a value makes an object that holds its fields. -/
theorem raiseValue_holds {E : TypeId} {fields : List (ExceptionField F)} {w w₁ : World types F}
    {c : ObjectId} (hclass : site.classOf (.of types E) w = (.ok c, w₁))
    (hconstruct : ∀ args, (site.construct c args).args = args)
    (hnumbered : ExceptionFieldKind.Numbered 0 (fields.map ExceptionField.kind))
    (hconvert : ∀ field ∈ fields, ∃ o, toGuest field.value = .ok o)
    (hnodup : ((fields.map ExceptionField.kind).filterMap ExceptionFieldKind.guestName).Nodup)
    (hplain : ∀ name ∈ (fields.map ExceptionField.kind).filterMap ExceptionFieldKind.guestName,
      Plain name) :
    ∃ w', site.raiseValue (.host types E fields) w = (.ok w₁.interpreter.heap.next, w') ∧
      w'.interpreter = w₁.interpreter.withHeap (fun h =>
        (h.allocate fun _ => Interpreter.instanceOf c none none).2) ∧
      Holds fields (w'.contents w₁.interpreter.heap.next) := by
  have hraises : Raises fields (.new (.of types E)) (.host types E fields) :=
    raises_foldl hnumbered
  have hargs : ∀ v ∈ (Raise.host types E fields).args, ∃ o, toGuest v = .ok o := by
    intro v hv
    rcases hraises.only v hv with hv | ⟨field, hfield, rfl⟩
    · cases hv
    · exact hconvert field hfield
  obtain ⟨os, hos, hget⟩ := toGuestAll_of_forall hargs
  have hattrs : (Raise.host types E fields).attrs = attributes fields :=
    hraises.attrs.trans (List.nil_append _)
  have hnames := map_fst_attributes fields
  have hpairs : ∀ p ∈ attributes fields, ∃ o, toGuest p.2 = .ok o := by
    intro p hp
    obtain ⟨field, hfield, heq⟩ := List.mem_filterMap.mp hp
    obtain ⟨name, -, rfl⟩ := Option.map_eq_some_iff.mp heq
    exact hconvert field hfield
  rw [← hnames] at hplain
  obtain ⟨w', hassign, hassigned⟩ := site.assigned_forEach (x := w₁.interpreter.heap.next)
    hplain hpairs
    { interpreter := w₁.interpreter.withHeap fun h =>
        (h.allocate fun _ => Interpreter.instanceOf c none none).2
      contents := Function.update w₁.contents w₁.interpreter.heap.next (site.construct c os) }
  refine ⟨w', ?_, hassigned.interpreter, ?_⟩
  · refine Host.bind_eq_ok.mpr ⟨c, w₁, ?_, ?_⟩
    · rw [hraises.class]
      exact hclass
    · refine Host.bind_eq_ok.mpr ⟨os, w₁, ?_, ?_⟩
      · rw [hos]
        rfl
      · refine Host.bind_eq_ok.mpr ⟨_, _, site.call_eq c os w₁, ?_⟩
        rw [hattrs]
        exact Host.bind_eq_ok.mpr ⟨(), w', hassign, rfl⟩
  · constructor
    · intro field hfield index hkind o ho
      rw [hassigned.args]
      simp only [Function.update_self, hconstruct]
      exact hget index field.value o (hraises.args field hfield index hkind) ho
    · intro field hfield name hkind o ho
      have hmem : (name, field.value) ∈ attributes fields := by
        refine List.mem_filterMap.mpr ⟨field, hfield, ?_⟩
        rw [hkind]
        rfl
      exact hassigned.stored (by rw [hnames]; exact hnodup) _ hmem o ho

/-! ## There and back -/

omit [Floats F] in
/-- The class that is found for a type is the realised one. -/
theorem classOf_typed {past : List (Str → Option ObjectId)} {E : TypeId} {w w₁ : World types F}
    {c : ObjectId} (hsound : Sound past w.interpreter) (hnames : KeepsNames w.interpreter)
    (h : site.classOf (.of types E) w = (.ok c, w₁)) :
    Sound past w₁.interpreter ∧ KeepsNames w₁.interpreter ∧
      w₁.interpreter.cache.realisedException (.of types E) = some c := by
  unfold classOf World.within at h
  obtain ⟨i₁, hi, rfl⟩ := Host.zoom_eq_ok.mp h
  obtain ⟨v, i₂, hhost, hclass⟩ := Host.bind_eq_ok.mp hi
  obtain ⟨hrealises, hanswer, -⟩ := requested_host site.depth hsound hhost
  obtain ⟨hquiet, hc⟩ := exceptionClass_cases hclass
  have hv : v = c := by
    rcases hc with hc | ⟨e, hc⟩
    · cases hc
      rfl
    · cases hc
  subst hv
  refine ⟨hrealises.sound.of_quiet hquiet, ?_, ?_⟩
  · exact (keepsNames_host site.depth hsound hnames hhost).of_quiet hrealises.sound hquiet
  · change i₁.cache.realisedException (.of types E) = some v
    rw [hquiet.cache]
    exact hanswer v rfl

/-- An object of the class is recognised. -/
theorem handed_eq {i : Interpreter types} {E : TypeId} {c x : ObjectId} (hnames : KeepsNames i)
    (hrealised : i.cache.realisedException (.of types E) = some c)
    (hreported : (i.heap.objects x).reported = some c) (traceback : Option Str) :
    ∃ e, i.handed x traceback = .guest e ∧ (ExceptionClass.of types E).matches e = true ∧
      e.object = some x := by
  have hmatched : i.IsMatched x traceback E := by
    rw [Interpreter.isMatched_iff_bearsName]
    obtain ⟨spec, hspec, hbears⟩ := hnames _ c hrealised
    refine ⟨spec, hspec, c, ?_, ?_⟩
    · unfold Heap.listedClasses
      rw [hreported]
      exact hbears.listed
    · unfold Heap.dotted
      rw [hbears.module, hbears.qualname]
      rfl
  obtain ⟨e, he, hmatch⟩ := hmatched
  refine ⟨e, he, hmatch, ?_⟩
  cases he
  rfl

/-- The struct can be raised: its class is found, under the name it was given, and the class keeps
the arguments of its constructor. -/
structure Ready (site : Site types F) (w : World types F) (E : TypeId) : Prop where
  sound : ∃ past, Sound past w.interpreter
  names : KeepsNames w.interpreter
  found : ∃ c w₁, site.classOf (.of types E) w = (.ok c, w₁) ∧
    ∀ args, (site.construct c args).args = args

/-- **Typed exceptions come back just if their names are told apart.** -/
theorem roundTrip_iff (site : Site types F) (w : World types F) (E : TypeId)
    (traceback : Option Str) (hready : site.Ready w E) (inputs : List ExceptionFieldInput)
    (kinds : List ExceptionFieldKind) (hderive : HostExceptionDerive.fields inputs 0 = .ok kinds) :
    (∀ fields : List (ExceptionField F), fields.map ExceptionField.kind = kinds →
      (∀ field ∈ fields, site.FieldReturns field) →
      ∃ w', site.roundTrip E traceback fields w =
        (.ok (some (fields.map ExceptionField.value)), w')) ↔
    (kinds.filterMap ExceptionFieldKind.guestName).Nodup ∧
      ∀ name ∈ kinds.filterMap ExceptionFieldKind.guestName, Plain name := by
  constructor
  · intro h
    obtain ⟨w', hw'⟩ := h (marked kinds) (kind_marked kinds) (site.returns_marked kinds)
    exact site.names_of_roundTrip hw'
  · rintro ⟨hnodup, hplain⟩ fields rfl hreturns
    obtain ⟨⟨past, hsound⟩, hnames, c, w₁, hclass, hconstruct⟩ := hready
    obtain ⟨hsound₁, hnames₁, hrealised⟩ := site.classOf_typed hsound hnames hclass
    obtain ⟨w', hraise, hinterpreter, hholds⟩ := site.raiseValue_holds hclass hconstruct
      (HostExceptionDerive.numbered hderive)
      (fun field hfield => (hreturns field hfield).imp fun _ ho => ho.1) hnodup hplain
    have hquiet : Quiet w₁.interpreter w'.interpreter := by
      rw [hinterpreter]
      exact quiet_allocate _ _
    obtain ⟨e, he, hmatch, hobject⟩ := handed_eq (x := w₁.interpreter.heap.next)
      (hnames₁.of_quiet hsound₁ hquiet) (by rw [hquiet.cache]; exact hrealised)
      (by
        rw [hinterpreter]
        change (Function.update w₁.interpreter.heap.objects _ _ _).reported = some c
        rw [Function.update_self]
        rfl) traceback
    have hconvert : site.convert (.host types E fields) w =
        (.ok w₁.interpreter.heap.next, w') := by
      have hattempt : Host.attempt (site.raiseValue (.host types E fields)) w =
          (.ok (.ok w₁.interpreter.heap.next), w') := by
        unfold Host.attempt
        rw [hraise]
      exact Host.bind_eq_ok.mpr ⟨_, w', hattempt, rfl⟩
    have hcaught : site.caught E fields e w' =
        (.ok (some (fields.map ExceptionField.value)), w') := by
      unfold caught
      rw [hmatch, hobject]
      exact Host.bind_eq_ok.mpr ⟨_, w', site.fromRaised_of_holds hreturns hplain hholds, rfl⟩
    refine ⟨w', Host.bind_eq_ok.mpr ⟨_, w', hconvert, ?_⟩⟩
    rw [Host.get_bind, he]
    exact hcaught

/-! ### A struct of one module -/

/-- A guest without classes of its own, and a class that keeps its arguments. -/
def plainSite : Site timeoutTypes Int where
  depth := 1
  engine := .cpython
  code :=
    { fuel := 0
      hasAttr := fun _ _ w => (false, w)
      iter := fun _ => Host.throw "TypeError"
      next := fun _ => Host.throw "TypeError"
      keys := fun _ => Host.throw "TypeError"
      getItem := fun _ _ => Host.throw "TypeError"
      chars := fun _ => [] }
  qualified := fun _ _ => Host.throw .closed
  adopt := fun _ => .closed
  construct := fun _ args => ⟨args, fun _ => none⟩
  recover := Host.throw

/-- The module `net` has registered the struct. -/
def registered : World timeoutTypes Int where
  interpreter :=
    { Interpreter.fresh timeoutTypes with
      cache := RealisationCache.new.absorb (.typed 0 "net".toList) }
  contents := fun _ => ⟨[], fun _ => none⟩

theorem ready_registered : Ready plainSite registered 0 where
  sound :=
    ⟨_, (Runtime.Reachable.step (.start rfl (Runtime.fresh_valid timeoutTypes))
      (.absorb _ (.typed 0 "net".toList))).wellFormed.sound⟩
  names key c hc := by
    have hnew := Runtime.realised_of_absorb hc
    cases hnew
  found := ⟨5, _, rfl, fun _ => rfl⟩

theorem roundTrip_code : ∃ w', plainSite.roundTrip 0 none
    [⟨.argument 0, .string, .str "late".toList⟩,
      ⟨.attribute "code".toList, .int .i64 rfl, .int 7⟩] registered =
    (.ok (some [.str "late".toList, .int 7]), w') := by
  refine (roundTrip_iff plainSite registered 0 none ready_registered
    [⟨"message".toList, true, none⟩, ⟨"code".toList, false, none⟩] _ rfl).mpr
    ⟨by decide, by decide⟩ _ rfl ?_
  intro field hfield
  rcases List.mem_cons.mp hfield with rfl | hfield
  · exact plainSite.fieldReturns_of_has trivial trivial
  · rw [List.mem_singleton.mp hfield]
    exact plainSite.fieldReturns_of_has (by rfl) trivial

theorem not_roundTrip_of_shared_name :
    ¬ ∀ (types : TypeId → HostException) (F : Type) [Floats F] (site : Site types F)
      (w : World types F) (E : TypeId) (traceback : Option Str)
      (inputs : List ExceptionFieldInput) (fields : List (ExceptionField F)),
      site.Ready w E →
      HostExceptionDerive.fields inputs 0 = .ok (fields.map ExceptionField.kind) →
      (∀ field ∈ fields, site.FieldReturns field) →
      ∃ w', site.roundTrip E traceback fields w =
        (.ok (some (fields.map ExceptionField.value)), w') := by
  intro h
  obtain ⟨w', hw'⟩ := h timeoutTypes Int plainSite registered 0 none
    [⟨"code".toList, false, none⟩, ⟨"status".toList, false, some "code".toList⟩]
    (marked [.attribute "code".toList, .attribute "code".toList]) ready_registered rfl
    (plainSite.returns_marked _)
  exact absurd (plainSite.names_of_roundTrip hw').1 (by decide)

end Site

end GuestPy.Exceptions
