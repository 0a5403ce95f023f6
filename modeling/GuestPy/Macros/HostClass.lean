import GuestPy.Macros.Callable

/-!
# The macro for host classes

* `HostClassDefinition.fromImpl` reads an `impl` block: each exported item has one role, and the
  role decides which receiver and which parameters the item may have.
* `ClassMember.registration` is the code that declares a member on the builder.
* `provided_closures`: for every block that is accepted, the code can be generated. It uses no
  variable before it is bound, and requires every type that it resolves from its context.
-/

namespace GuestPy.Macros

open Marshal (Parameter Typed)
open Building (MemberName)

variable {C D : Type}

/-! ## The items of an `impl` block -/

structure ClassItemOptions where
  «constructor» : Bool := false
  method : Bool := false
  asyncMethod : Bool := false
  classMethod : Bool := false
  staticMethod : Bool := false
  get : Bool := false
  set : Bool := false
  delete : Bool := false
  statics : Bool := false
  constant : Bool := false
  dunder : Option String := none
  name : Option String := none

def ClassItemOptions.roleCount (options : ClassItemOptions) : Nat :=
  ([options.constructor, options.method, options.asyncMethod, options.classMethod,
    options.staticMethod, options.get, options.set, options.delete, options.statics,
    options.constant].filter id).length

/-- An item, with the options of its attributes unless it has none. -/
inductive ImplItem (D O : Type) where
  | method (sig : Signature D) (options : Option O)
  | const (ident : String) (options : Option O)
  | other

/-- `Naming::member`, with the rule that `rename_all` stands for. -/
def member (ident : String) (name : Option String) (renameAll : Option (String → String)) :
    String :=
  name.getD ((renameAll.map fun rule => rule ident).getD ident)

inductive ClassMember (D : Type) where
  | method (callable : Callable D) (asynchronous dunder : Bool)
  | classMethod (callable : Callable D)
  | staticMethod (callable : Callable D)
  | getter (callable : Callable D)
  | setter (callable : Callable D)
  | deleter (callable : Callable D)
  | statics (ident : String)
  | constant (ident name : String)

/-- `constructor` and `members` of the definition, while the items are gone through. -/
structure Classified (D : Type) where
  «constructor» : Option (Callable D)
  members : List (ClassMember D)

namespace HostClassDefinition

def validateMethod (callable : Callable D) (asynchronous : Bool) : Except String Unit :=
  if callable.receiver = .none ∧ callable.usesThis = false then
    .error ("\nan exported method requires &self, &mut self, or a #[guestpy(this)] parameter;\n" ++
      "use #[guestpy(static_method)] for a function that needs neither\n")
  else if asynchronous ∧ callable.receiver = .exclusive then
    .error ("\na #[guestpy(async_method)] requires &self;\n" ++
      "an exclusive borrow cannot be held while the returned future is built\n")
  else .ok ()

def requireReceiver (callable : Callable D) (expected : Receiver) (subject : String) :
    Except String Unit :=
  if callable.receiver = expected then .ok ()
  else
    .error (match expected with
      | .none => subject ++ " cannot have a receiver"
      | .shared => subject ++ " requires &self"
      | .exclusive => subject ++ " requires &mut self")

def requireThis (callable : Callable D) (subject : String) : Except String Unit :=
  if (callable.parameters.filter Parameter.isThis).length = 1 then .ok ()
  else .error (subject ++ " requires exactly one #[guestpy(this)] parameter")

/-- What each role asks of its callable. -/
def classifyCallable (options : ClassItemOptions) (callable : Callable D) (c : Classified D) :
    Except String (Classified D) :=
  let push (m : ClassMember D) : Classified D := { c with members := c.members ++ [m] }
  if options.constructor then do
    requireReceiver callable .none "a constructor"
    callable.rejectThis "a constructor"
    if c.constructor.isSome then .error "a host class may have only one constructor"
    else return { c with «constructor» := some callable }
  else if options.method || (options.roleCount == 0 && options.dunder.isSome) then do
    validateMethod callable false
    return push (.method callable false options.dunder.isSome)
  else if options.asyncMethod then do
    validateMethod callable true
    return push (.method callable true options.dunder.isSome)
  else if options.classMethod then do
    requireReceiver callable .none "a class_method"
    requireThis callable "a class_method"
    return push (.classMethod callable)
  else if options.staticMethod then do
    requireReceiver callable .none "a static_method"
    callable.rejectThis "a static_method"
    return push (.staticMethod callable)
  else if options.get then do
    requireReceiver callable .shared "a getter"
    if callable.parameters.any Parameter.consumesArg then
      .error "a #[guestpy(get)] getter cannot accept guest arguments"
    else return push (.getter callable)
  else if options.set then do
    requireReceiver callable .exclusive "a setter"
    if (callable.parameters.filter Parameter.consumesArg).length ≠ 1 ||
        callable.parameters.any Parameter.isNonPlainValue then
      .error "a #[guestpy(set)] setter requires exactly one plain value parameter"
    else return push (.setter callable)
  else if options.delete then do
    requireReceiver callable .exclusive "a deleter"
    if callable.parameters.any Parameter.consumesArg then
      .error "a #[guestpy(delete)] deleter cannot accept guest arguments"
    else return push (.deleter callable)
  else .error "#[guestpy(constant)] is only valid on an associated const"

def classifyMethod (renameAll : Option (String → String)) (sig : Signature D)
    (options : ClassItemOptions) (c : Classified D) : Except String (Classified D) :=
  if options.dunder.isSome ∧ options.name.isSome then
    .error "dunder and name cannot both be set; dunder already supplies the member name"
  else if options.roleCount = 0 ∧ options.dunder = none then
    .error "an exported host class member requires a role"
  else if 1 < options.roleCount then .error "a host class member may declare only one role"
  else if options.dunder.isSome ∧ 0 < options.roleCount ∧
      ¬ (options.method = true ∨ options.asyncMethod = true) then
    .error "dunder only combines with method or async_method"
  else if options.statics then do
    if (← Receiver.of sig) ≠ .none then
      .error "a #[guestpy(statics)] hook cannot have a receiver"
    else return { c with members := c.members ++ [.statics sig.ident] }
  else do
    let name := options.dunder.getD (member sig.ident options.name renameAll)
    let callable ← Callable.parse sig name
    if callable.asynchronous then
      .error ("\nasync fn is unsupported in host classes;\n" ++
        "for an async method use #[guestpy(async_method)] on a non-async fn returning\n" ++
        "Result<impl core::future::Future<Output = Result<R, Error>> + use<..>, E>,\n" ++
        "naming the backend type parameter inside use<..>\n")
    else classifyCallable options callable c

def classifyItem (renameAll : Option (String → String)) (c : Classified D) :
    ImplItem D ClassItemOptions → Except String (Classified D)
  | .method sig (some options) => classifyMethod renameAll sig options c
  | .const ident (some options) =>
    if options.roleCount ≠ 1 || !options.constant then
      .error "an exported associated const requires exactly the constant role"
    else
      .ok { c with
        members := c.members ++ [.constant ident (member ident options.name renameAll)] }
  | _ => .ok c

end HostClassDefinition

inductive BaseItem (C : Type) where
  | host (base : C)
  | imported (module qualname : String)

structure ClassOptions (C : Type) where
  name : Option String
  renameAll : Option (String → String)
  extends' : List (BaseItem C)
  generic : Bool

structure HostClassDefinition (C D : Type) where
  name : String
  extends' : List (BaseItem C)
  generic : Bool
  «constructor» : Option (Callable D)
  members : List (ClassMember D)

/-- `target` is the name of the type that the block is for. -/
def HostClassDefinition.fromImpl (options : ClassOptions C) (target : String)
    (items : List (ImplItem D ClassItemOptions)) : Except String (HostClassDefinition C D) := do
  let c ← items.foldlM (classifyItem options.renameAll) ⟨none, []⟩
  return ⟨options.name.getD target, options.extends', options.generic, c.constructor, c.members⟩

/-! ## The generated code -/

namespace Callable

variable (c : Callable D)

/-- The closure of a method or of a class method. -/
def methodClosure (target : Option Variable) : Closure D where
  ident := c.ident
  parameters := [.receiver, c.enterIdent, c.argsIdent]
  state := none
  context := c.contextSetup c.enterIdent
  setup := c.argumentSetup
  finish := some c.argsIdent
  target := target
  arguments := c.argumentBindings.map .bound

/-- The closure of a constructor or of a static method. -/
def staticClosure : Closure D :=
  { c.methodClosure none with parameters := [c.enterIdent, c.argsIdent] }

/-- The closure of a getter, a setter or a deleter. -/
def accessorClosure (more : List Variable) : Option (Closure D) := do
  return {
    ident := c.ident
    parameters := [.receiver, c.enterIdent] ++ more
    state := none
    context := c.contextSetup c.enterIdent
    setup := ← c.accessorSetup
    finish := none
    target := c.receiver.callTarget
    arguments := c.argumentBindings.map .bound }

end Callable

/-- What the generated code hands to the builder. -/
inductive Generated (D : Type) where
  | closure (closure : Closure D)
  | constant (ident : String)

/-- `ClassMember::registration`. What a hook for statics declares is up to the hook. Without a
call, the macro has panicked. -/
def ClassMember.registration (hooks : String → Building.Namespace (Generated D)) :
    ClassMember D → Option (Building.Call C D (Generated D))
  | method callable asynchronous dunder =>
    let closure := .closure (callable.methodClosure callable.receiver.callTarget)
    if dunder then some (.dunderMethod callable.name asynchronous closure)
    else if asynchronous then some (.asyncMethod (.ofStr callable.name) closure)
    else some (.method (.ofStr callable.name) closure)
  | classMethod callable =>
    some (.classMethod callable.name (.closure (callable.methodClosure none)))
  | staticMethod callable => some (.staticMethod callable.name (.closure callable.staticClosure))
  | getter callable => do
    return .getter callable.name (.closure (← callable.accessorClosure []))
  | setter callable => do
    return .setter callable.name (.closure (← callable.accessorClosure [.value]))
  | deleter callable => do
    return .deleter callable.name (.closure (← callable.accessorClosure []))
  | statics ident => some (.statics (hooks ident))
  | constant ident name => some (.constant name (.constant ident))

def ClassMember.contextTypes : ClassMember D → List D
  | method callable _ _ => callable.contextTypes
  | classMethod callable => callable.contextTypes
  | staticMethod callable => callable.contextTypes
  | getter callable => callable.contextTypes
  | setter callable => callable.contextTypes
  | deleter callable => callable.contextTypes
  | statics _ => []
  | constant _ _ => []

namespace HostClassDefinition

variable [DecidableEq D] (definition : HostClassDefinition C D)

/-- The types of the context parameters. Those of the members are added once each. -/
def contextTypes : List D :=
  (definition.members.flatMap ClassMember.contextTypes).foldl
    (fun types type => if type ∈ types then types else types ++ [type])
    ((definition.constructor.map Callable.contextTypes).getD [])

/-- The body of `build`. -/
def render (hooks : String → Building.Namespace (Generated D)) :
    Option (List (Building.Call C D (Generated D))) := do
  let registrations ← definition.members.mapM (ClassMember.registration hooks)
  return definition.contextTypes.map (fun type => .require [type]) ++
    (definition.constructor.map fun c =>
      .constructor (.closure c.staticClosure)).toList ++
    (if definition.generic then [.generic] else []) ++
    registrations ++
    definition.extends'.map fun base =>
      match base with
      | .host base => .base base
      | .imported module qualname => .importedBase module qualname

end HostClassDefinition

/-! ## What the roles ask for -/

/-- The arguments of the member can be set up by the code for its role. -/
def ClassMember.Accepted : ClassMember D → Prop
  | method _ _ _ => True
  | classMethod _ => True
  | staticMethod callable => callable.usesThis = false
  | getter callable => callable.usesArgs = false
  | setter callable => ∀ p ∈ callable.parameters, p.isNonPlainValue = false
  | deleter callable => callable.usesArgs = false
  | statics _ => True
  | constant _ _ => True

structure Classified.Accepted (c : Classified D) : Prop where
  «constructor» : ∀ callable, c.constructor = some callable → callable.usesThis = false
  members : ∀ m ∈ c.members, m.Accepted

namespace HostClassDefinition

open Results (bind_eq_ok)

theorem Accepted.push {c : Classified D} (h : c.Accepted) {m : ClassMember D} (hm : m.Accepted) :
    Classified.Accepted { c with members := c.members ++ [m] } where
  «constructor» := h.constructor
  members m' hm' := by
    rcases List.mem_append.mp hm' with hm' | hm'
    · exact h.members m' hm'
    · rw [List.mem_singleton.mp hm']
      exact hm

theorem rejectThis_eq_ok {callable : Callable D} {subject : String} {u : Unit}
    (h : callable.rejectThis subject = .ok u) : callable.usesThis = false := by
  unfold Callable.rejectThis at h
  cases hthis : callable.usesThis with
  | false => rfl
  | true =>
    rw [hthis] at h
    cases h

theorem accepted_classifyCallable {options : ClassItemOptions} {callable : Callable D}
    {c c' : Classified D} (hc : c.Accepted)
    (h : classifyCallable options callable c = .ok c') : c'.Accepted := by
  unfold classifyCallable at h
  split at h
  · obtain ⟨-, -, h⟩ := bind_eq_ok.mp h
    obtain ⟨_, hthis, h⟩ := bind_eq_ok.mp h
    split at h
    · cases h
    · cases h
      refine ⟨fun callable' heq => ?_, hc.members⟩
      cases heq
      exact rejectThis_eq_ok hthis
  split at h
  · obtain ⟨-, -, h⟩ := bind_eq_ok.mp h
    cases h
    exact Accepted.push hc trivial
  split at h
  · obtain ⟨-, -, h⟩ := bind_eq_ok.mp h
    cases h
    exact Accepted.push hc trivial
  split at h
  · obtain ⟨-, -, h⟩ := bind_eq_ok.mp h
    obtain ⟨-, -, h⟩ := bind_eq_ok.mp h
    cases h
    exact Accepted.push hc trivial
  split at h
  · obtain ⟨-, -, h⟩ := bind_eq_ok.mp h
    obtain ⟨_, hthis, h⟩ := bind_eq_ok.mp h
    cases h
    exact Accepted.push hc (rejectThis_eq_ok hthis)
  split at h
  · obtain ⟨-, -, h⟩ := bind_eq_ok.mp h
    split at h
    · cases h
    · rename_i hargs
      cases h
      exact Accepted.push hc (Bool.eq_false_of_not_eq_true hargs)
  split at h
  · obtain ⟨-, -, h⟩ := bind_eq_ok.mp h
    split at h
    · cases h
    · rename_i hvalue
      cases h
      refine Accepted.push hc fun p hp => ?_
      have hplain := (Bool.or_eq_false_iff.mp (Bool.eq_false_of_not_eq_true hvalue)).2
      exact Bool.eq_false_of_not_eq_true (List.any_eq_false.mp hplain p hp)
  split at h
  · obtain ⟨-, -, h⟩ := bind_eq_ok.mp h
    split at h
    · cases h
    · rename_i hargs
      cases h
      exact Accepted.push hc (Bool.eq_false_of_not_eq_true hargs)
  · cases h

theorem accepted_classifyMethod {renameAll : Option (String → String)} {sig : Signature D}
    {options : ClassItemOptions} {c c' : Classified D} (hc : c.Accepted)
    (h : classifyMethod renameAll sig options c = .ok c') : c'.Accepted := by
  unfold classifyMethod at h
  split at h
  · cases h
  split at h
  · cases h
  split at h
  · cases h
  split at h
  · cases h
  split at h
  · obtain ⟨receiver, -, h⟩ := bind_eq_ok.mp h
    split at h
    · cases h
    · cases h
      exact Accepted.push hc trivial
  · obtain ⟨callable, -, h⟩ := bind_eq_ok.mp h
    split at h
    · cases h
    · exact accepted_classifyCallable hc h

theorem accepted_classifyItem {renameAll : Option (String → String)} {c c' : Classified D}
    {item : ImplItem D ClassItemOptions} (hc : c.Accepted)
    (h : classifyItem renameAll c item = .ok c') : c'.Accepted := by
  cases item with
  | method sig options =>
    cases options with
    | none =>
      cases h
      exact hc
    | some options => exact accepted_classifyMethod hc h
  | const ident options =>
    cases options with
    | none =>
      cases h
      exact hc
    | some options =>
      change (if _ then _ else _) = _ at h
      split at h
      · cases h
      · cases h
        exact Accepted.push hc trivial
  | other =>
    cases h
    exact hc

theorem accepted_foldlM {renameAll : Option (String → String)}
    {items : List (ImplItem D ClassItemOptions)} {c c' : Classified D} (hc : c.Accepted)
    (h : items.foldlM (classifyItem renameAll) c = .ok c') : c'.Accepted := by
  induction items generalizing c with
  | nil =>
    cases h
    exact hc
  | cons item items ih =>
    rw [List.foldlM_cons] at h
    obtain ⟨c₁, hitem, h⟩ := bind_eq_ok.mp h
    exact ih (accepted_classifyItem hc hitem) h

end HostClassDefinition

/-! ## Scopes of the generated closures -/

namespace Callable

variable {callable : Callable D}

theorem enterIdent_eq (h : callable.usesEnter = true) : callable.enterIdent = .enter := by
  unfold enterIdent
  rw [if_pos h]

theorem argsIdent_eq (h : callable.usesArgs = true) : callable.argsIdent = .args := by
  unfold argsIdent
  rw [if_pos h]

/-- What takes no argument takes plain values only. -/
theorem isNonPlainValue_of_usesArgs (h : callable.usesArgs = false) :
    ∀ p ∈ callable.parameters, p.isNonPlainValue = false := by
  intro p hp
  have hconsumes := List.any_eq_false.mp h p hp
  unfold Parameter.isNonPlainValue
  unfold Parameter.consumesArg at hconsumes
  cases hrole : p.role <;> simp [hrole] at hconsumes ⊢

theorem contextSetup_eq {x y : Variable} (h : callable.contextSetup x = some y) : y = x := by
  unfold contextSetup at h
  split at h
  · cases h
    rfl
  · cases h

/-- The parameters of a closure and its context provide for the arguments. -/
theorem provides_of_mem (callable : Callable D) (parameters : List Variable)
    (henter : callable.enterIdent ∈ parameters)
    (hreceiver : callable.usesThis = true → .receiver ∈ parameters) :
    Provides (((callable.contextSetup callable.enterIdent).map fun _ =>
      Variable.context).toList ++ [] ++ parameters) callable where
  enter h := List.mem_append_right _ (enterIdent_eq h ▸ henter)
  receiver h := List.mem_append_right _ (hreceiver h)
  context h := by
    unfold contextSetup
    rw [if_pos h]
    simp

theorem mem_argumentSetup_of_bound {e : Expression D} {scope : List Variable}
    (he : e ∈ callable.argumentBindings.map .bound) :
    ∀ x ∈ e.uses, x ∈ scope ++ callable.argumentSetup.map Prod.fst := by
  obtain ⟨x, hx, rfl⟩ := List.mem_map.mp he
  intro y hy
  rw [List.mem_singleton.mp hy]
  refine List.mem_append_right _ ?_
  unfold argumentSetup
  rw [List.map_fst_zip (by simp [argumentBindings])]
  exact hx

/-- The arguments that a call has bound before are not resolved once more. -/
theorem mem_contextTypes_of_bound {c : Closure D} {xs : List Variable}
    (h : c.arguments = xs.map .bound) {type : D} (htype : type ∈ c.contextTypes) :
    ∃ e ∈ c.setup.map Prod.snd, e.contextType = some type := by
  obtain ⟨e, he, hcontext⟩ := List.mem_filterMap.mp htype
  rcases List.mem_append.mp he with he | he
  · exact ⟨e, he, hcontext⟩
  · rw [h] at he
    obtain ⟨x, -, rfl⟩ := List.mem_map.mp he
    cases hcontext

theorem contextTypes_methodClosure (target : Option Variable) {type : D}
    (h : type ∈ (callable.methodClosure target).contextTypes) : type ∈ callable.contextTypes := by
  obtain ⟨e, he, hcontext⟩ := mem_contextTypes_of_bound rfl h
  exact mem_contextTypes_of_setup he hcontext

theorem scoped_methodClosure (target : Option Variable)
    (htarget : ∀ x, target = some x → x = .receiver) :
    (callable.methodClosure target).Scoped where
  state _ h := nomatch h
  context x h := by
    rw [contextSetup_eq h]
    exact List.mem_cons_of_mem _ List.mem_cons_self
  setup := scoped_setup (provides_of_mem _ _ (List.mem_cons_of_mem _ List.mem_cons_self)
    fun _ => List.mem_cons_self) fun h => by
      refine List.mem_append_right _ ?_
      rw [← argsIdent_eq h]
      simp [methodClosure]
  finish x h := by
    cases h
    simp [methodClosure]
  target x h := by
    rw [htarget x h]
    exact List.mem_append_right _ (List.mem_append_right _ List.mem_cons_self)
  arguments e he := mem_argumentSetup_of_bound he

theorem scoped_staticClosure (hthis : callable.usesThis = false) :
    callable.staticClosure.Scoped where
  state _ h := nomatch h
  context x h := by
    rw [contextSetup_eq h]
    exact List.mem_cons_self
  setup := scoped_setup (provides_of_mem _ _ List.mem_cons_self fun h => by
    rw [hthis] at h
    cases h) fun h => by
      refine List.mem_append_right _ ?_
      rw [← argsIdent_eq h]
      simp [staticClosure]
  finish x h := by
    cases h
    simp [staticClosure, methodClosure]
  target _ h := nomatch h
  arguments e he := mem_argumentSetup_of_bound he

theorem scoped_accessorClosure (more : List Variable)
    (hplain : ∀ p ∈ callable.parameters, p.isNonPlainValue = false)
    (hvalue : callable.usesArgs = true → .value ∈ more) :
    ∃ closure, callable.accessorClosure more = some closure ∧ closure.Scoped ∧
      ∀ type ∈ closure.contextTypes, type ∈ callable.contextTypes := by
  have hprovides := provides_of_mem callable ([.receiver, callable.enterIdent] ++ more)
    (List.mem_cons_of_mem _ List.mem_cons_self) fun _ => List.mem_cons_self
  obtain ⟨expressions, hexpressions, hlength, huses⟩ := scoped_accessors hprovides hplain
    fun h => List.mem_append_right _ (List.mem_append_right _ (hvalue h))
  have hclosure : callable.accessorClosure more = some {
      ident := callable.ident
      parameters := [.receiver, callable.enterIdent] ++ more
      state := none
      context := callable.contextSetup callable.enterIdent
      setup := callable.argumentBindings.zip expressions
      finish := none
      target := callable.receiver.callTarget
      arguments := callable.argumentBindings.map .bound } := by
    unfold accessorClosure accessorSetup
    rw [hexpressions]
    rfl
  refine ⟨_, hclosure, ?_, fun type htype => ?_⟩
  rotate_left
  · obtain ⟨e, he, hcontext⟩ := mem_contextTypes_of_bound rfl htype
    obtain ⟨⟨x, e'⟩, hmem, rfl⟩ := List.mem_map.mp he
    exact (huses e' (List.of_mem_zip hmem).2).2 type hcontext
  constructor
  · exact fun _ h => nomatch h
  · intro x h
    rw [contextSetup_eq h]
    exact List.mem_cons_of_mem _ List.mem_cons_self
  · exact scopedSetup_zip fun e he => (huses e he).1
  · exact fun _ h => nomatch h
  · intro x h
    have hx : x = .receiver := by
      cases hreceiver : callable.receiver with
      | none =>
        rw [hreceiver] at h
        cases h
      | shared =>
        rw [hreceiver] at h
        cases h
        rfl
      | exclusive =>
        rw [hreceiver] at h
        cases h
        rfl
    rw [hx]
    exact List.mem_append_right _ (List.mem_append_right _ List.mem_cons_self)
  · intro e he x hx
    obtain ⟨y, hy, rfl⟩ := List.mem_map.mp he
    rw [List.mem_singleton.mp hx]
    refine List.mem_append_right _ ?_
    rw [List.map_fst_zip (by simp [argumentBindings, hlength])]
    exact hy

end Callable

/-! ## The generated `build` -/

/-- The closure that a call of the generated code hands to the builder. -/
def closureOf : Building.Call C D (Generated D) → Option (Closure D)
  | .constructor (.closure closure) => some closure
  | .method _ (.closure closure) => some closure
  | .asyncMethod _ (.closure closure) => some closure
  | .dunderMethod _ _ (.closure closure) => some closure
  | .classMethod _ (.closure closure) => some closure
  | .staticMethod _ (.closure closure) => some closure
  | .getter _ (.closure closure) => some closure
  | .setter _ (.closure closure) => some closure
  | .deleter _ (.closure closure) => some closure
  | _ => none

/-- A closure is scoped, and resolves no other types from its context. -/
structure ClosesOver (types : List D) (closure : Closure D) : Prop where
  bound : closure.Scoped
  contextTypes : ∀ type ∈ closure.contextTypes, type ∈ types

theorem ClosesOver.mono {types types' : List D} {closure : Closure D}
    (h : ClosesOver types closure) (hsub : types ⊆ types') : ClosesOver types' closure :=
  ⟨h.bound, fun type htype => hsub (h.contextTypes type htype)⟩

theorem callTarget_eq {r : Receiver} {x : Variable} (h : r.callTarget = some x) :
    x = .receiver := by
  cases r <;> cases h <;> rfl

theorem closesOver_registration {m : ClassMember D} (hm : m.Accepted)
    (hooks : String → Building.Namespace (Generated D)) :
    ∃ call : Building.Call C D (Generated D), m.registration hooks = some call ∧
      ∀ closure, closureOf call = some closure → ClosesOver m.contextTypes closure := by
  have hno : ∀ {c : Callable D}, c.usesArgs = false → c.usesArgs = true →
      Variable.value ∈ ([] : List Variable) := by
    intro c hargs h
    rw [hargs] at h
    cases h
  cases m with
  | method callable asynchronous dunder =>
    have hcloses : ClosesOver callable.contextTypes
        (callable.methodClosure callable.receiver.callTarget) :=
      ⟨callable.scoped_methodClosure _ fun x => callTarget_eq,
        fun type => callable.contextTypes_methodClosure _⟩
    cases dunder with
    | true =>
      refine ⟨_, rfl, fun closure h => ?_⟩
      cases h
      exact hcloses
    | false =>
      cases asynchronous with
      | true =>
        refine ⟨_, rfl, fun closure h => ?_⟩
        cases h
        exact hcloses
      | false =>
        refine ⟨_, rfl, fun closure h => ?_⟩
        cases h
        exact hcloses
  | classMethod callable =>
    refine ⟨_, rfl, fun closure h => ?_⟩
    cases h
    exact ⟨callable.scoped_methodClosure none nofun,
      fun type => callable.contextTypes_methodClosure none⟩
  | staticMethod callable =>
    refine ⟨_, rfl, fun closure h => ?_⟩
    cases h
    exact ⟨Callable.scoped_staticClosure hm, fun type => callable.contextTypes_methodClosure none⟩
  | getter callable =>
    obtain ⟨closure, hclosure, hscoped, htypes⟩ :=
      Callable.scoped_accessorClosure [] (Callable.isNonPlainValue_of_usesArgs hm) (hno hm)
    refine ⟨.getter callable.name (.closure closure), ?_, fun closure' h => ?_⟩
    · simp only [ClassMember.registration, hclosure]
      rfl
    · cases h
      exact ⟨hscoped, htypes⟩
  | setter callable =>
    obtain ⟨closure, hclosure, hscoped, htypes⟩ := Callable.scoped_accessorClosure [.value] hm
      fun _ => List.mem_cons_self
    refine ⟨.setter callable.name (.closure closure), ?_, fun closure' h => ?_⟩
    · simp only [ClassMember.registration, hclosure]
      rfl
    · cases h
      exact ⟨hscoped, htypes⟩
  | deleter callable =>
    obtain ⟨closure, hclosure, hscoped, htypes⟩ :=
      Callable.scoped_accessorClosure [] (Callable.isNonPlainValue_of_usesArgs hm) (hno hm)
    refine ⟨.deleter callable.name (.closure closure), ?_, fun closure' h => ?_⟩
    · simp only [ClassMember.registration, hclosure]
      rfl
    · cases h
      exact ⟨hscoped, htypes⟩
  | statics ident =>
    refine ⟨_, rfl, fun closure h => ?_⟩
    cases h
  | constant ident name =>
    refine ⟨_, rfl, fun closure h => ?_⟩
    cases h

theorem closesOver_registrations {members : List (ClassMember D)} (h : ∀ m ∈ members, m.Accepted)
    (hooks : String → Building.Namespace (Generated D)) :
    ∃ calls : List (Building.Call C D (Generated D)),
      members.mapM (ClassMember.registration hooks) = some calls ∧
        ∀ call ∈ calls, ∀ closure, closureOf call = some closure →
          ClosesOver (members.flatMap ClassMember.contextTypes) closure := by
  induction members with
  | nil => exact ⟨[], rfl, fun _ hcall => absurd hcall List.not_mem_nil⟩
  | cons m members ih =>
    obtain ⟨call, hcall, hcloses⟩ :=
      closesOver_registration (C := C) (h m List.mem_cons_self) hooks
    obtain ⟨calls, hcalls, hall⟩ := ih fun m' hm' => h m' (List.mem_cons_of_mem _ hm')
    rw [List.flatMap_cons]
    refine ⟨call :: calls, ?_, fun call' hcall' closure hclosure => ?_⟩
    · rw [List.mapM_cons, hcall, hcalls]
      rfl
    · rcases List.mem_cons.mp hcall' with rfl | hcall'
      · exact (hcloses closure hclosure).mono (List.subset_append_left _ _)
      · exact (hall call' hcall' closure hclosure).mono (List.subset_append_right _ _)

/-- Each type is added once, and none is forgotten. -/
theorem mem_foldl_distinct [DecidableEq D] {types types' : List D} {type : D} :
    type ∈ types'.foldl (fun types type => if type ∈ types then types else types ++ [type]) types ↔
      type ∈ types ∨ type ∈ types' := by
  induction types' generalizing types with
  | nil => exact ⟨Or.inl, fun h => h.resolve_right List.not_mem_nil⟩
  | cons type' types' ih =>
    rw [List.foldl_cons, ih, List.mem_cons]
    split
    next h =>
      constructor
      · exact fun hmem => hmem.imp_right Or.inr
      · rintro (hmem | rfl | hmem)
        · exact Or.inl hmem
        · exact Or.inl h
        · exact Or.inr hmem
    next h => rw [List.mem_append, List.mem_singleton, or_assoc]

/-- A closure is scoped, and the calls require what it resolves. -/
structure Provided (calls : List (Building.Call C D (Generated D))) (closure : Closure D) :
    Prop where
  bound : closure.Scoped
  required : ∀ type ∈ closure.contextTypes, .require [type] ∈ calls

/-- **The macro generates code for every block that it accepts.** It uses no variable before it is
bound, and requires what it resolves. -/
theorem provided_closures [DecidableEq D] {options : ClassOptions C} {target : String}
    {items : List (ImplItem D ClassItemOptions)} {definition : HostClassDefinition C D}
    (h : HostClassDefinition.fromImpl options target items = .ok definition)
    (hooks : String → Building.Namespace (Generated D)) :
    ∃ calls, definition.render hooks = some calls ∧
      ∀ call ∈ calls, ∀ closure, closureOf call = some closure → Provided calls closure := by
  obtain ⟨c, hc, hdefinition⟩ := Results.bind_eq_ok.mp h
  cases hdefinition
  have hempty : Classified.Accepted (⟨none, []⟩ : Classified D) :=
    ⟨fun _ hcallable => (nomatch hcallable), fun _ hm => absurd hm List.not_mem_nil⟩
  have haccepted := HostClassDefinition.accepted_foldlM hempty hc
  obtain ⟨registrations, hregistrations, hall⟩ :=
    closesOver_registrations (C := C) haccepted.members hooks
  refine ⟨_, by
    unfold HostClassDefinition.render
    rw [hregistrations]
    rfl, fun call hcall closure hclosure => ?_⟩
  have hprovided : ∀ {types : List D} {calls : List (Building.Call C D (Generated D))},
      ClosesOver types closure → (∀ type ∈ types, .require [type] ∈ calls) →
        Provided calls closure :=
    fun hcloses hrequired => ⟨hcloses.bound,
      fun type htype => hrequired type (hcloses.contextTypes type htype)⟩
  simp only [List.mem_append] at hcall
  rcases hcall with (((hcall | hcall) | hcall) | hcall) | hcall
  · obtain ⟨type, -, rfl⟩ := List.mem_map.mp hcall
    cases hclosure
  · obtain ⟨callable, hcallable, rfl⟩ := Option.mem_map.mp (Option.mem_toList.mp hcall)
    cases hclosure
    have hcloses : ClosesOver callable.contextTypes callable.staticClosure :=
      ⟨Callable.scoped_staticClosure (haccepted.constructor callable hcallable),
        fun type => callable.contextTypes_methodClosure none⟩
    refine hprovided hcloses fun type htype => ?_
    simp only [List.mem_append]
    refine Or.inl (Or.inl (Or.inl (Or.inl (List.mem_map_of_mem
      (mem_foldl_distinct.mpr (Or.inl ?_))))))
    rw [show c.constructor = some callable from hcallable]
    exact htype
  · cases hgeneric : options.generic with
    | true =>
      rw [hgeneric] at hcall
      cases List.mem_singleton.mp hcall
      cases hclosure
    | false =>
      rw [hgeneric] at hcall
      cases hcall
  · refine hprovided (hall call hcall closure hclosure) fun type htype => ?_
    simp only [List.mem_append]
    exact Or.inl (Or.inl (Or.inl (Or.inl (List.mem_map_of_mem
      (mem_foldl_distinct.mpr (Or.inr htype))))))
  · obtain ⟨base, -, rfl⟩ := List.mem_map.mp hcall
    cases base with
    | host _ => cases hclosure
    | imported _ _ => cases hclosure

/-- A counter with a constructor, a property, a method for a dunder, a method that resolves a clock,
and a class method. -/
def counterItems : List (ImplItem String ClassItemOptions) :=
  let x : Typed String := ⟨"start".toList, {}, "i64", .plain "i64"⟩
  let value : Typed String := ⟨"value".toList, {}, "i64", .plain "i64"⟩
  let clock : Typed String := ⟨"clock".toList, { context := true }, "Clock", .plain "Clock"⟩
  let this : Typed String := ⟨"class".toList, { this := true }, "Type", .plain "Type"⟩
  [.method ⟨"new", false, false, false, none, [x], true, false⟩ (some { «constructor» := true }),
    .method ⟨"count", false, false, false, some (.reference false), [], true, false⟩
      (some { get := true }),
    .method ⟨"set_count", false, false, false, some (.reference true), [value], true, false⟩
      (some { set := true, name := some "count" }),
    .method ⟨"length", false, false, false, some (.reference false), [], true, false⟩
      (some { dunder := some "__len__" }),
    .method ⟨"stamp", false, false, false, some (.reference false), [clock, value], true, false⟩
      (some { method := true }),
    .method ⟨"at", false, false, false, none, [this, clock], true, false⟩
      (some { classMethod := true })]

def counterDefinition : Except String (HostClassDefinition Nat String) :=
  HostClassDefinition.fromImpl ⟨none, none, [], false⟩ "Counter" counterItems

/-- The types that the closures of a definition resolve. -/
def HostClassDefinition.resolved (definition : HostClassDefinition Nat String) : List String :=
  ((definition.render fun _ => []).getD []).flatMap fun call =>
    ((closureOf call).map Closure.contextTypes).getD []

theorem provided_closures_counter :
    ∃ definition, counterDefinition = .ok definition ∧ definition.resolved = ["Clock", "Clock"] ∧
      ∃ calls, definition.render (fun _ => []) = some calls ∧
        ∀ call ∈ calls, ∀ closure, closureOf call = some closure → Provided calls closure := by
  have hresolved : counterDefinition.toOption.map HostClassDefinition.resolved =
      some ["Clock", "Clock"] := rfl
  rcases h : counterDefinition with e | definition
  · rw [h] at hresolved
    cases hresolved
  · rw [h] at hresolved
    exact ⟨definition, rfl, Option.some.inj hresolved, provided_closures h _⟩

end GuestPy.Macros
