import GuestPy.Macros.HostClass

/-!
# The macro for host modules

The functions of a module may take `&self`. They get the state of their module then, which the
generated function `module` hands over at its end.

* `HostModuleDefinition.fromImpl` reads an `impl` block, and `ModuleMember.registration` is the
  code that declares a member.
* `Furnished` says of a closure that it uses no variable before it is bound, and that the calls
  require what it resolves. `furnished_closures`: that is so for every block that is accepted.
-/

namespace GuestPy.Macros

open Marshal (Parameter Typed)

variable {C D E : Type}

/-! ## The items of an `impl` block -/

structure ModuleItemOptions where
  function : Bool := false
  getter : Bool := false
  constant : Bool := false
  init : Bool := false
  object : Bool := false
  name : Option String := none

def ModuleItemOptions.roleCount (options : ModuleItemOptions) : Nat :=
  ([options.function, options.getter, options.constant, options.init,
    options.object].filter id).length

inductive ModuleMember (D : Type) where
  | function (callable : Callable D)
  | getter (callable : Callable D)
  | init (ident : String) (shared takesEnter : Bool)
  | object (ident name : String) (shared : Bool)
  | constant (ident name : String)

namespace ModuleMember

def isStateful : ModuleMember D → Bool
  | function callable => callable.receiver == .shared
  | getter callable => callable.receiver == .shared
  | init _ shared _ => shared
  | object _ _ shared => shared
  | constant _ _ => false

def contextTypes : ModuleMember D → List D
  | function callable => callable.contextTypes
  | getter callable => callable.contextTypes
  | _ => []

def isInit : ModuleMember D → Bool
  | init _ _ _ => true
  | _ => false

end ModuleMember

structure ModuleOptions (C E : Type) where
  name : Option String
  renameAll : Option (String → String)
  classes : List C
  exceptions : List E

structure HostModuleDefinition (C D E : Type) where
  name : String
  classes : List C
  exceptions : List E
  members : List (ModuleMember D)
  needsState : Bool

namespace HostModuleDefinition

def receiverState (receiver : Receiver) (subject : String) : Except String Bool :=
  match receiver with
  | .none => .ok false
  | .shared => .ok true
  | .exclusive =>
    .error (subject ++ " cannot take &mut self; a host module shares state through &self")

def rejectAsync (sig : Signature D) (subject : String) : Except String Unit :=
  if sig.asynchronous then .error (subject ++ " cannot be async") else .ok ()

/-- What a getter and a function ask of their callable. -/
def classifyCallable (options : ModuleItemOptions) (callable : Callable D) :
    Except String (ModuleMember D) :=
  if options.getter then
    if callable.asynchronous then .error "a #[guestpy(getter)] cannot be async"
    else do
      let _ ← receiverState callable.receiver "a getter"
      if callable.usesArgs then .error "a #[guestpy(getter)] cannot accept guest arguments"
      else return .getter callable
  else if callable.receiver = .exclusive then
    .error ("\na #[guestpy(function)] cannot take &mut self;\n" ++
      "share state through &self and interior mutability\n")
  else if callable.asynchronous ∧ callable.parameters.any Parameter.isEnter = true then
    .error "an async module function cannot take a #[guestpy(enter)] parameter"
  else .ok (.function callable)

def classifyMethod (renameAll : Option (String → String)) (sig : Signature D)
    (options : ModuleItemOptions) : Except String (ModuleMember D) :=
  if options.roleCount = 0 then .error "an exported host module member requires a role"
  else if 1 < options.roleCount then .error "a host module member may declare only one role"
  else if options.init then do
    rejectAsync sig "an init hook"
    let shared ← receiverState (← Receiver.of sig) "an init hook"
    if 1 < sig.inputs.length then .error "an init hook takes at most the enter reference"
    else return .init sig.ident shared (sig.inputs.length == 1)
  else if options.object then do
    rejectAsync sig "an object hook"
    let shared ← receiverState (← Receiver.of sig) "an object hook"
    return .object sig.ident (member sig.ident options.name renameAll) shared
  else if options.constant then
    .error "the constant role applies to an associated const, not a function"
  else do
    let callable ← Callable.parse sig (member sig.ident options.name renameAll)
    callable.rejectThis "a module function"
    classifyCallable options callable

def classifyItem (renameAll : Option (String → String)) (members : List (ModuleMember D)) :
    ImplItem D ModuleItemOptions → Except String (List (ModuleMember D))
  | .method sig (some options) => do
    return members ++ [← classifyMethod renameAll sig options]
  | .const ident (some options) =>
    if options.roleCount ≠ 1 || !options.constant then
      .error "an exported associated const requires exactly the constant role"
    else .ok (members ++ [.constant ident (member ident options.name renameAll)])
  | _ => .ok members

/-- `target` is the name of the type that the block is for. -/
def fromImpl (options : ModuleOptions C E) (target : String)
    (items : List (ImplItem D ModuleItemOptions)) : Except String (HostModuleDefinition C D E) := do
  let members ← items.foldlM (classifyItem options.renameAll) []
  if 1 < (members.filter ModuleMember.isInit).length then
    .error "a host module may declare only one init hook"
  else
    return ⟨options.name.getD target, options.classes, options.exceptions, members,
      members.any ModuleMember.isStateful⟩

end HostModuleDefinition

/-! ## The generated code -/

/-- What `require` is called for: a type of a context parameter, or the state of the module. -/
inductive Required (D : Type) where
  | context (type : D)
  | ownState

/-- The calls on the `ModuleSpec`. -/
inductive ModuleCall (C D E : Type) where
  | require (required : Required D)
  | function (name : String) (closure : Closure D)
  | asyncFunction (name : String) (closure : Closure D)
  | getter (name : String) (closure : Closure D)
  | init (closure : Closure D)
  | object (name : String) (closure : Closure D)
  | constant (name ident : String)
  | exceptionType (exception : E)
  | «class» (payload : C)
  | state

/-- `state_resolution`, where the state is resolved from a variable. -/
def stateResolution (shared : Bool) (from' : Variable) : Option Variable :=
  if shared then some from' else none

/-- The target of `invoke`. -/
def invokeTarget (shared : Bool) : Option Variable := if shared then some .state else none

namespace Callable

variable (c : Callable D)

def isShared : Bool := c.receiver == .shared

/-- A function with state names its first parameter `__guestpy_enter` anyway. -/
def moduleEnter : Variable := if c.isShared then .enter else c.enterIdent

/-- The closure of a function. -/
def functionClosure : Closure D where
  ident := c.ident
  parameters := [c.moduleEnter, c.argsIdent]
  state := stateResolution c.isShared c.moduleEnter
  context := c.contextSetup c.moduleEnter
  setup := c.argumentSetup
  finish := some c.argsIdent
  target := invokeTarget c.isShared
  arguments := c.argumentBindings.map .bound

/-- The closure of a getter, which does not bind its arguments. -/
def getterClosure : Option (Closure D) := do
  return {
    ident := c.ident
    parameters := [c.moduleEnter]
    state := stateResolution c.isShared c.moduleEnter
    context := c.contextSetup c.moduleEnter
    setup := []
    finish := none
    target := invokeTarget c.isShared
    arguments := ← c.accessorExpressions }

end Callable

def initClosure (ident : String) (shared takesEnter : Bool) : Closure D :=
  let parameter := if takesEnter || shared then .enter else .ignoredEnter
  { ident
    parameters := [parameter]
    state := stateResolution shared parameter
    context := none
    setup := []
    finish := none
    target := invokeTarget shared
    arguments := if takesEnter then [.enter] else [] }

/-- The closure of an object hook runs at once. It captures the receiver of `module`, if there
is one. -/
def objectClosure (ident : String) (shared needsState : Bool) : Closure D where
  ident := ident
  parameters := [.namespace]
  captures := if needsState then [.self] else []
  state := none
  context := none
  setup := []
  finish := none
  target := if shared then some .self else none
  arguments := [.bound .namespace]

/-- `ModuleMember::registration`, in a definition with state or without. -/
def ModuleMember.registration (needsState : Bool) : ModuleMember D → Option (ModuleCall C D E)
  | function callable =>
    if callable.asynchronous then some (.asyncFunction callable.name callable.functionClosure)
    else some (.function callable.name callable.functionClosure)
  | getter callable => do return .getter callable.name (← callable.getterClosure)
  | init ident shared takesEnter => some (.init (initClosure ident shared takesEnter))
  | object ident name shared => some (.object name (objectClosure ident shared needsState))
  | constant ident name => some (.constant name ident)

namespace HostModuleDefinition

variable [DecidableEq D] (definition : HostModuleDefinition C D E)

def contextTypes : List D :=
  (definition.members.flatMap ModuleMember.contextTypes).foldl
    (fun types type => if type ∈ types then types else types ++ [type]) []

/-- The calls of the function `module`, on a new `ModuleSpec`. -/
def render : Option (List (ModuleCall C D E)) := do
  let registrations ← definition.members.mapM (ModuleMember.registration definition.needsState)
  return definition.contextTypes.map (fun type => .require (.context type)) ++
    registrations ++
    definition.exceptions.map .exceptionType ++
    definition.classes.map .class ++
    if definition.needsState then [.require .ownState, .state] else []

end HostModuleDefinition

/-! ## What the roles ask for -/

/-- The code for the role can set up the arguments of the member. -/
def ModuleMember.Accepted : ModuleMember D → Prop
  | function callable => callable.usesThis = false
  | getter callable => callable.usesThis = false ∧ callable.usesArgs = false
  | _ => True

/-- The closure of a call. -/
def ModuleCall.closure : ModuleCall C D E → Option (Closure D)
  | function _ closure => some closure
  | asyncFunction _ closure => some closure
  | getter _ closure => some closure
  | init closure => some closure
  | object _ closure => some closure
  | _ => none

/-- A closure is scoped, and the calls require what it resolves and provide its state. -/
structure Furnished (calls : List (ModuleCall C D E)) (closure : Closure D) : Prop where
  bound : closure.Scoped
  required : ∀ type ∈ closure.contextTypes, .require (.context type) ∈ calls
  state : closure.state ≠ none → .require .ownState ∈ calls ∧ .state ∈ calls

namespace HostModuleDefinition

open Results (bind_eq_ok)

theorem accepted_classifyCallable {options : ModuleItemOptions} {callable : Callable D}
    {m : ModuleMember D} (hthis : callable.usesThis = false)
    (h : classifyCallable options callable = .ok m) : m.Accepted := by
  unfold classifyCallable at h
  split at h
  · split at h
    · cases h
    · obtain ⟨-, -, h⟩ := bind_eq_ok.mp h
      split at h
      · cases h
      · rename_i hargs
        cases h
        exact ⟨hthis, Bool.eq_false_of_not_eq_true hargs⟩
  split at h
  · cases h
  split at h
  · cases h
  · cases h
    exact hthis

theorem accepted_classifyMethod {renameAll : Option (String → String)} {sig : Signature D}
    {options : ModuleItemOptions} {m : ModuleMember D}
    (h : classifyMethod renameAll sig options = .ok m) : m.Accepted := by
  unfold classifyMethod at h
  split at h
  · cases h
  split at h
  · cases h
  split at h
  · obtain ⟨-, -, h⟩ := bind_eq_ok.mp h
    obtain ⟨receiver, -, h⟩ := bind_eq_ok.mp h
    obtain ⟨shared, -, h⟩ := bind_eq_ok.mp h
    split at h
    · cases h
    · cases h
      trivial
  split at h
  · obtain ⟨-, -, h⟩ := bind_eq_ok.mp h
    obtain ⟨receiver, -, h⟩ := bind_eq_ok.mp h
    obtain ⟨shared, -, h⟩ := bind_eq_ok.mp h
    cases h
    trivial
  split at h
  · cases h
  · obtain ⟨callable, -, h⟩ := bind_eq_ok.mp h
    obtain ⟨_, hthis, h⟩ := bind_eq_ok.mp h
    exact accepted_classifyCallable (HostClassDefinition.rejectThis_eq_ok hthis) h

theorem accepted_foldlM {renameAll : Option (String → String)}
    {items : List (ImplItem D ModuleItemOptions)} {members members' : List (ModuleMember D)}
    (hmembers : ∀ m ∈ members, m.Accepted)
    (h : items.foldlM (classifyItem renameAll) members = .ok members') :
    ∀ m ∈ members', m.Accepted := by
  induction items generalizing members with
  | nil =>
    cases h
    exact hmembers
  | cons item items ih =>
    rw [List.foldlM_cons] at h
    obtain ⟨members₁, hitem, h⟩ := bind_eq_ok.mp h
    have hadd : ∀ {m : ModuleMember D}, m.Accepted → ∀ m' ∈ members ++ [m], m'.Accepted := by
      intro m hm m' hm'
      rcases List.mem_append.mp hm' with hm' | hm'
      · exact hmembers m' hm'
      · rw [List.mem_singleton.mp hm']
        exact hm
    refine ih ?_ h
    cases item with
    | method sig options =>
      cases options with
      | none =>
        cases hitem
        exact hmembers
      | some options =>
        obtain ⟨m, hm, heq⟩ := bind_eq_ok.mp hitem
        cases heq
        exact hadd (accepted_classifyMethod hm)
    | const ident options =>
      cases options with
      | none =>
        cases hitem
        exact hmembers
      | some options =>
        change (if _ then _ else _) = _ at hitem
        split at hitem
        · cases hitem
        · cases hitem
          exact hadd trivial
    | other =>
      cases hitem
      exact hmembers

end HostModuleDefinition

/-! ## Scopes of the generated closures -/

theorem stateResolution_eq {shared : Bool} {x y : Variable}
    (h : stateResolution shared x = some y) : shared = true ∧ y = x := by
  unfold stateResolution at h
  cases shared with
  | false => cases h
  | true => exact ⟨rfl, (Option.some.inj h).symm⟩

/-- The state is there for the call if it is resolved. -/
theorem mem_of_invokeTarget {shared : Bool} {x y : Variable} {l : List Variable}
    (h : invokeTarget shared = some y) :
    y ∈ ((stateResolution shared x).map fun _ => Variable.state).toList ++ l := by
  cases shared with
  | false => cases h
  | true =>
    cases h
    exact List.mem_cons_self

namespace Callable

variable {c : Callable D}

theorem moduleEnter_eq (h : c.usesEnter = true) : c.moduleEnter = .enter := by
  unfold moduleEnter
  rw [enterIdent_eq h]
  exact ite_self _

/-- The parameters of a closure, its state and its context provide for the arguments. -/
theorem provides_module (hthis : c.usesThis = false) {parameters : List Variable}
    (henter : c.moduleEnter ∈ parameters) :
    Provides (((c.contextSetup c.moduleEnter).map fun _ => Variable.context).toList ++
      ((stateResolution c.isShared c.moduleEnter).map fun _ => Variable.state).toList ++
        parameters) c where
  enter h := List.mem_append_right _ (moduleEnter_eq h ▸ henter)
  receiver h := by
    rw [hthis] at h
    cases h
  context h := by
    unfold contextSetup
    rw [if_pos h]
    exact List.mem_cons_self

theorem scoped_functionClosure (hthis : c.usesThis = false) : c.functionClosure.Scoped where
  state x h := by
    rw [(stateResolution_eq h).2]
    exact List.mem_cons_self
  context x h := by
    rw [contextSetup_eq h]
    exact List.mem_cons_self
  setup := scoped_setup (provides_module hthis List.mem_cons_self) fun h => by
    refine List.mem_append_right _ ?_
    rw [← argsIdent_eq h]
    exact List.mem_cons_of_mem _ List.mem_cons_self
  finish x h := by
    cases h
    exact List.mem_cons_of_mem _ List.mem_cons_self
  target x h := by
    refine List.mem_append_right _ ?_
    unfold Closure.scope
    rw [List.append_assoc]
    exact List.mem_append_right _ (mem_of_invokeTarget h)
  arguments e he := mem_argumentSetup_of_bound he

theorem scoped_getterClosure (hthis : c.usesThis = false) (hargs : c.usesArgs = false) :
    ∃ closure, c.getterClosure = some closure ∧ closure.Scoped ∧
      closure.state = stateResolution c.isShared c.moduleEnter ∧
        ∀ type ∈ closure.contextTypes, type ∈ c.contextTypes := by
  obtain ⟨expressions, hexpressions, -, huses⟩ :=
    scoped_accessors (provides_module hthis (List.mem_singleton_self c.moduleEnter))
      (isNonPlainValue_of_usesArgs hargs) fun h => by
        rw [hargs] at h
        cases h
  refine ⟨_, by
    unfold getterClosure
    rw [hexpressions]
    rfl, ?_, rfl, fun type htype => ?_⟩
  · constructor
    · intro x h
      rw [(stateResolution_eq h).2]
      exact List.mem_cons_self
    · intro x h
      rw [contextSetup_eq h]
      exact List.mem_cons_self
    · trivial
    · exact fun _ h => nomatch h
    · intro x h
      refine List.mem_append_right _ ?_
      unfold Closure.scope
      rw [List.append_assoc]
      exact List.mem_append_right _ (mem_of_invokeTarget h)
    · intro e he x hx
      exact List.mem_append_left _ ((huses e he).1 x hx)
  · obtain ⟨e, he, hcontext⟩ := List.mem_filterMap.mp htype
    exact (huses e he).2 type hcontext

end Callable

theorem scoped_initClosure (ident : String) (shared takesEnter : Bool) :
    (initClosure ident shared takesEnter : Closure D).Scoped where
  state x h := by
    rw [(stateResolution_eq h).2]
    exact List.mem_cons_self
  context _ h := nomatch h
  setup := trivial
  finish _ h := nomatch h
  target x h := List.mem_append_right _ (mem_of_invokeTarget h)
  arguments e he x hx := by
    cases takesEnter with
    | false => cases he
    | true =>
      rw [List.mem_singleton.mp he] at hx
      rw [List.mem_singleton.mp hx]
      refine List.mem_append_left _ (List.mem_append_right _ ?_)
      exact List.mem_cons_self

theorem scoped_objectClosure (ident : String) {shared needsState : Bool}
    (h : shared = true → needsState = true) :
    (objectClosure ident shared needsState : Closure D).Scoped where
  state _ h := nomatch h
  context _ h := nomatch h
  setup := trivial
  finish _ h := nomatch h
  target x hx := by
    cases shared with
    | false => cases hx
    | true =>
      cases hx
      rw [h rfl]
      exact List.mem_cons_self
  arguments e he x hx := by
    rw [List.mem_singleton.mp he] at hx
    rw [List.mem_singleton.mp hx]
    exact List.mem_cons_self

/-! ## The generated `module` -/

/-- The closure of a member has what the member asks for, and a state only where the definition
has one. -/
theorem closesOver_module {m : ModuleMember D} (hm : m.Accepted) {needsState : Bool}
    (hstate : m.isStateful = true → needsState = true) :
    ∃ call : ModuleCall C D E, m.registration needsState = some call ∧
      ∀ closure, call.closure = some closure →
        ClosesOver m.contextTypes closure ∧ (closure.state ≠ none → needsState = true) := by
  have hresolved : ∀ {shared : Bool} {x : Variable}, (shared = true → needsState = true) →
      stateResolution shared x ≠ none → needsState = true := by
    intro shared x hshared hne
    cases shared with
    | false => exact absurd rfl hne
    | true => exact hshared rfl
  cases m with
  | function callable =>
    have hcloses : ClosesOver callable.contextTypes callable.functionClosure := by
      refine ⟨Callable.scoped_functionClosure hm, fun type htype => ?_⟩
      obtain ⟨e, he, hcontext⟩ := Callable.mem_contextTypes_of_bound rfl htype
      exact Callable.mem_contextTypes_of_setup he hcontext
    cases hasync : callable.asynchronous with
    | false =>
      refine ⟨.function callable.name callable.functionClosure, ?_, fun closure h => ?_⟩
      · simp only [ModuleMember.registration, hasync, Bool.false_eq_true, if_false]
      · cases h
        exact ⟨hcloses, hresolved hstate⟩
    | true =>
      refine ⟨.asyncFunction callable.name callable.functionClosure, ?_, fun closure h => ?_⟩
      · simp only [ModuleMember.registration, hasync, if_true]
      · cases h
        exact ⟨hcloses, hresolved hstate⟩
  | getter callable =>
    obtain ⟨closure, hclosure, hscoped, heq, htypes⟩ :=
      Callable.scoped_getterClosure hm.1 hm.2
    refine ⟨.getter callable.name closure, ?_, fun closure' h => ?_⟩
    · simp only [ModuleMember.registration, hclosure]
      rfl
    · cases h
      refine ⟨⟨hscoped, htypes⟩, fun hne => ?_⟩
      rw [heq] at hne
      exact hresolved hstate hne
  | init ident shared takesEnter =>
    refine ⟨_, rfl, fun closure h => ?_⟩
    cases h
    refine ⟨⟨scoped_initClosure ident shared takesEnter, fun type htype => ?_⟩, hresolved hstate⟩
    obtain ⟨e, he, hcontext⟩ := List.mem_filterMap.mp htype
    cases takesEnter with
    | false => cases he
    | true =>
      rw [List.mem_singleton.mp he] at hcontext
      cases hcontext
  | object ident name shared =>
    refine ⟨_, rfl, fun closure h => ?_⟩
    cases h
    refine ⟨⟨scoped_objectClosure ident hstate, fun type htype => ?_⟩, fun h => absurd rfl h⟩
    obtain ⟨e, he, hcontext⟩ := List.mem_filterMap.mp htype
    rw [List.mem_singleton.mp he] at hcontext
    cases hcontext
  | constant ident name =>
    refine ⟨_, rfl, fun closure h => ?_⟩
    cases h

theorem closesOver_modules {members : List (ModuleMember D)} (h : ∀ m ∈ members, m.Accepted)
    {needsState : Bool} (hstate : ∀ m ∈ members, m.isStateful = true → needsState = true) :
    ∃ calls : List (ModuleCall C D E),
      members.mapM (ModuleMember.registration needsState) = some calls ∧
        ∀ call ∈ calls, ∀ closure, call.closure = some closure →
          ClosesOver (members.flatMap ModuleMember.contextTypes) closure ∧
            (closure.state ≠ none → needsState = true) := by
  induction members with
  | nil => exact ⟨[], rfl, fun _ hcall => absurd hcall List.not_mem_nil⟩
  | cons m members ih =>
    obtain ⟨call, hcall, hcloses⟩ := closesOver_module (C := C) (E := E)
      (h m List.mem_cons_self) (hstate m List.mem_cons_self)
    obtain ⟨calls, hcalls, hall⟩ := ih (fun m' hm' => h m' (List.mem_cons_of_mem _ hm'))
      fun m' hm' => hstate m' (List.mem_cons_of_mem _ hm')
    rw [List.flatMap_cons]
    refine ⟨call :: calls, ?_, fun call' hcall' closure hclosure => ?_⟩
    · rw [List.mapM_cons, hcall, hcalls]
      rfl
    · rcases List.mem_cons.mp hcall' with rfl | hcall'
      · obtain ⟨hthis, hneeds⟩ := hcloses closure hclosure
        exact ⟨hthis.mono (List.subset_append_left _ _), hneeds⟩
      · obtain ⟨hthis, hneeds⟩ := hall call' hcall' closure hclosure
        exact ⟨hthis.mono (List.subset_append_right _ _), hneeds⟩

/-- **The macro generates code for every block that it accepts.** It uses no variable before it is
bound, requires what it resolves, and hands the state over where a function needs it. -/
theorem furnished_closures [DecidableEq D] {options : ModuleOptions C E} {target : String}
    {items : List (ImplItem D ModuleItemOptions)} {definition : HostModuleDefinition C D E}
    (h : HostModuleDefinition.fromImpl options target items = .ok definition) :
    ∃ calls, definition.render = some calls ∧
      ∀ call ∈ calls, ∀ closure, call.closure = some closure → Furnished calls closure := by
  obtain ⟨members, hmembers, hdefinition⟩ := Results.bind_eq_ok.mp h
  split at hdefinition
  · cases hdefinition
  cases hdefinition
  have haccepted := HostModuleDefinition.accepted_foldlM
    (fun _ hm => absurd hm List.not_mem_nil) hmembers
  obtain ⟨registrations, hregistrations, hall⟩ := closesOver_modules (C := C) (E := E) haccepted
    fun m hm hstateful => List.any_eq_true.mpr ⟨m, hm, hstateful⟩
  refine ⟨_, by
    unfold HostModuleDefinition.render
    rw [hregistrations]
    rfl, fun call hcall closure hclosure => ?_⟩
  have hregistered : call ∈ registrations := by
    simp only [List.mem_append] at hcall
    rcases hcall with (((hcall | hcall) | hcall) | hcall) | hcall
    · obtain ⟨type, -, rfl⟩ := List.mem_map.mp hcall
      cases hclosure
    · exact hcall
    · obtain ⟨e, -, rfl⟩ := List.mem_map.mp hcall
      cases hclosure
    · obtain ⟨c, -, rfl⟩ := List.mem_map.mp hcall
      cases hclosure
    · split at hcall
      · rcases List.mem_cons.mp hcall with rfl | hcall
        · cases hclosure
        · cases List.mem_singleton.mp hcall
          cases hclosure
      · cases hcall
  obtain ⟨hcloses, hneeds⟩ := hall call hregistered closure hclosure
  refine ⟨hcloses.bound, fun type htype => ?_, fun hstate => ?_⟩
  · simp only [List.mem_append]
    exact Or.inl (Or.inl (Or.inl (Or.inl (List.mem_map_of_mem
      (mem_foldl_distinct.mpr (Or.inr (hcloses.contextTypes type htype)))))))
  · simp only [List.mem_append]
    rw [if_pos (hneeds hstate)]
    exact ⟨Or.inr List.mem_cons_self, Or.inr (List.mem_cons_of_mem _ List.mem_cons_self)⟩

/-- A clock, with a function that needs its state and one that needs the state of another type. -/
def clockItems : List (ImplItem String ModuleItemOptions) :=
  let zone : Typed String := ⟨"zone".toList, { context := true }, "Zone", .plain "Zone"⟩
  [.method ⟨"now", false, false, false, some (.reference false), [], true, false⟩
      (some { function := true }),
    .method ⟨"zone", false, false, false, none, [zone], true, false⟩ (some { getter := true }),
    .method ⟨"start", false, false, false, some (.reference false), [], true, false⟩
      (some { init := true })]

def clockDefinition : Except String (HostModuleDefinition Nat String Nat) :=
  HostModuleDefinition.fromImpl ⟨some "clock", none, [], []⟩ "Clock" clockItems

theorem furnished_closures_clock :
    ∃ definition, clockDefinition = .ok definition ∧
      ∃ calls, definition.render = some calls ∧
        ∀ call ∈ calls, ∀ closure, call.closure = some closure → Furnished calls closure := by
  have hok : clockDefinition.toOption.isSome = true := rfl
  rcases h : clockDefinition with e | definition
  · rw [h] at hok
    cases hok
  · exact ⟨definition, rfl, furnished_closures h⟩

end GuestPy.Macros
