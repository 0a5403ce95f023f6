import GuestPy.Host.Building
import GuestPy.Marshal.Args

/-!
# Host callables and the code that is generated for them

A method of an `impl` block becomes a closure that takes its arguments apart and calls the method.

* `Callable.parse` reads a signature.
* `Closure` is the generated code, as far as it concerns variables, and `Closure.Scoped` says that
  it uses no variable before it is bound.
* `scoped_setup` and `scoped_accessors` are the two ways to set the arguments of a call up.
-/

namespace GuestPy.Macros

open Marshal (Parameter ParameterRole Typed)

variable {D : Type}

/-! ## Signatures -/

/-- A receiver, as it is written. -/
inductive SelfArgument where
  | reference («mutable» : Bool)
  | value

inductive Receiver where
  | none
  | shared
  | exclusive
  deriving DecidableEq

/-- A method of the `impl` block. -/
structure Signature (D : Type) where
  ident : String
  isUnsafe : Bool
  hasTypeParameter : Bool
  variadic : Bool
  receiver : Option SelfArgument
  inputs : List (Typed D)
  returnsResult : Bool
  asynchronous : Bool

def Receiver.of (sig : Signature D) : Except String Receiver :=
  match sig.receiver with
  | Option.none => .ok .none
  | some (.reference true) => .ok .exclusive
  | some (.reference false) => .ok .shared
  | some .value => .error "an exported host method must borrow its receiver (&self or &mut self)"

structure Callable (D : Type) where
  ident : String
  name : String
  receiver : Receiver
  asynchronous : Bool
  parameters : List (Parameter D)

namespace Callable

def validateSignature (sig : Signature D) : Except String Unit :=
  if sig.isUnsafe then .error "unsafe host callables are not supported"
  else if sig.hasTypeParameter then
    .error ("\nan exported host callable cannot declare type or const parameters;\n" ++
      "name the backend with `backend = <name>` on the attribute instead\n")
  else if sig.variadic then .error "variadic host callables are not supported"
  else .ok ()

/-- `ResultType::validate`. -/
def validateResult (sig : Signature D) : Except String Unit :=
  if sig.returnsResult then .ok ()
  else .error "an exported host callable must return Result<R, E>"

def parse (sig : Signature D) (name : String) : Except String (Callable D) := do
  validateSignature sig
  let receiver ← Receiver.of sig
  let parameters ← Parameter.parseAll sig.inputs
  validateResult sig
  return ⟨sig.ident, name, receiver, sig.asynchronous, parameters⟩

end Callable

end GuestPy.Macros

namespace GuestPy.Marshal.Parameter

variable {D : Type}

def consumesArg (p : Parameter D) : Bool :=
  match p.role with
  | .enter | .this _ _ | .context _ => false
  | _ => true

def isContext (p : Parameter D) : Bool :=
  match p.role with
  | .context _ => true
  | _ => false

def isEnter (p : Parameter D) : Bool :=
  match p.role with
  | .enter => true
  | _ => false

def isThis (p : Parameter D) : Bool :=
  match p.role with
  | .this _ _ => true
  | _ => false

def isNonPlainValue (p : Parameter D) : Bool :=
  match p.role with
  | .positional _ _ | .rest _ | .borrow _ _ | .keyword _ _ => true
  | _ => false

def contextType (p : Parameter D) : Option D :=
  match p.role with
  | .context valueType => some valueType
  | _ => none

end GuestPy.Marshal.Parameter

namespace GuestPy.Macros

open Marshal (Parameter ParameterRole Typed)

variable {D : Type}

namespace Callable

def usesArgs (c : Callable D) : Bool := c.parameters.any Parameter.consumesArg

def usesContext (c : Callable D) : Bool := c.parameters.any Parameter.isContext

def usesEnter (c : Callable D) : Bool :=
  c.usesArgs || c.usesContext || c.parameters.any Parameter.isEnter

def usesThis (c : Callable D) : Bool := c.parameters.any Parameter.isThis

def contextTypes (c : Callable D) : List D := c.parameters.filterMap Parameter.contextType

def rejectThis (c : Callable D) (subject : String) : Except String Unit :=
  if c.usesThis then
    .error (subject ++ " has no receiver for a #[guestpy(this)] parameter")
  else .ok ()

end Callable

/-! ## Generated code -/

/-- The variables of the generated code: `__guestpy_enter`, `_enter`, `__guestpy_args`, `_args`,
`__guestpy_receiver`, `__guestpy_value`, `__guestpy_context`, `__guestpy_state`, `__guestpy_ns`,
`self`, and `__guestpy_arg0`, `__guestpy_arg1` and so on. -/
inductive Variable where
  | enter
  | ignoredEnter
  | args
  | ignoredArgs
  | receiver
  | value
  | context
  | state
  | namespace
  | self
  | argument (index : Nat)
  deriving DecidableEq

/-- What an argument of a call is made from. An access is an expression of `Marshal`. -/
inductive Expression (D : Type) where
  | access (parameter : Parameter D)
  | enter
  | resolveReceiver (valueType : D) (borrowed : Bool)
  | resolveContext (valueType : D)
  | value
  | bound (x : Variable)

def Expression.uses : Expression D → List Variable
  | access _ => [.args, .enter]
  | enter => [.enter]
  | resolveReceiver _ _ => [.receiver]
  | resolveContext _ => [.context]
  | value => [.value]
  | bound x => [x]

/-- The type that is resolved from the context. -/
def Expression.contextType : Expression D → Option D
  | resolveContext valueType => some valueType
  | _ => none

/-- `Parameter::expression`. -/
def expression (p : Parameter D) : Expression D :=
  match p.role with
  | .enter => .enter
  | .this valueType borrowed => .resolveReceiver valueType borrowed
  | .context valueType => .resolveContext valueType
  | _ => .access p

/-- `Parameter::accessor_expression`. Without a value, it is `unreachable!()`. -/
def accessorExpression (p : Parameter D) : Option (Expression D) :=
  match p.role with
  | .value _ _ => some .value
  | .enter => some .enter
  | .this valueType borrowed => some (.resolveReceiver valueType borrowed)
  | .context valueType => some (.resolveContext valueType)
  | .positional _ _ | .keyword _ _ | .rest _ | .borrow _ _ => none

/-- A closure: its parameters, what it captures, what it resolves the state and the context from,
the arguments that it binds, what `finish` is called on, and the call with its target and
arguments. -/
structure Closure (D : Type) where
  ident : String
  parameters : List Variable
  captures : List Variable := []
  state : Option Variable
  context : Option Variable
  setup : List (Variable × Expression D)
  finish : Option Variable
  target : Option Variable
  arguments : List (Expression D)

/-- Each expression uses variables of the scope, and binds one more. -/
def ScopedSetup : List Variable → List (Variable × Expression D) → Prop
  | _, [] => True
  | scope, (x, e) :: rest => (∀ y ∈ e.uses, y ∈ scope) ∧ ScopedSetup (x :: scope) rest

namespace Closure

/-- What is bound before the arguments are set up. -/
def scope (c : Closure D) : List Variable :=
  (c.context.map fun _ => .context).toList ++ (c.state.map fun _ => .state).toList ++ c.parameters

/-- The types that are resolved from the context. -/
def contextTypes (c : Closure D) : List D :=
  (c.setup.map Prod.snd ++ c.arguments).filterMap Expression.contextType

/-- No variable is used before it is bound. -/
structure Scoped (c : Closure D) : Prop where
  state : ∀ x, c.state = some x → x ∈ c.parameters
  context : ∀ x, c.context = some x → x ∈ c.parameters
  setup : ScopedSetup c.scope c.setup
  finish : ∀ x, c.finish = some x → x ∈ c.parameters
  target : ∀ x, c.target = some x → x ∈ c.captures ++ c.scope
  arguments : ∀ e ∈ c.arguments, ∀ x ∈ e.uses, x ∈ c.scope ++ c.setup.map Prod.fst

end Closure

namespace Callable

def enterIdent (c : Callable D) : Variable := if c.usesEnter then .enter else .ignoredEnter

def argsIdent (c : Callable D) : Variable := if c.usesArgs then .args else .ignoredArgs

/-- `context_setup`, where the context is made from a variable. -/
def contextSetup (c : Callable D) (from' : Variable) : Option Variable :=
  if c.usesContext then some from' else none

def argumentBindings (c : Callable D) : List Variable :=
  (List.range c.parameters.length).map Variable.argument

/-- The bindings of `argument_setup`, before the call of `finish`. -/
def argumentSetup (c : Callable D) : List (Variable × Expression D) :=
  c.argumentBindings.zip (c.parameters.map expression)

def accessorExpressions (c : Callable D) : Option (List (Expression D)) :=
  c.parameters.mapM accessorExpression

def accessorSetup (c : Callable D) : Option (List (Variable × Expression D)) := do
  return c.argumentBindings.zip (← c.accessorExpressions)

end Callable

/-- `Receiver::call_target`. -/
def Receiver.callTarget : Receiver → Option Variable
  | none => Option.none
  | shared | exclusive => some .receiver

/-! ## Variables of the arguments -/

theorem scopedSetup_zip {scope bindings : List Variable} {expressions : List (Expression D)}
    (h : ∀ e ∈ expressions, ∀ x ∈ e.uses, x ∈ scope) :
    ScopedSetup scope (bindings.zip expressions) := by
  induction expressions generalizing scope bindings with
  | nil =>
    rw [List.zip_nil_right]
    trivial
  | cons e expressions ih =>
    cases bindings with
    | nil => trivial
    | cons x bindings =>
      refine ⟨h e List.mem_cons_self, ih fun e' he' y hy => ?_⟩
      exact List.mem_cons_of_mem _ (h e' (List.mem_cons_of_mem _ he') y hy)

/-- The variables that the arguments of the callable may use are in the scope. -/
structure Provides (scope : List Variable) (c : Callable D) : Prop where
  enter : c.usesEnter = true → .enter ∈ scope
  receiver : c.usesThis = true → .receiver ∈ scope
  context : c.usesContext = true → .context ∈ scope

namespace Callable

variable {c : Callable D} {scope : List Variable}

theorem usesEnter_of_consumesArg {p : Parameter D} (hp : p ∈ c.parameters)
    (h : p.consumesArg = true) : c.usesArgs = true ∧ c.usesEnter = true := by
  have hargs : c.usesArgs = true := List.any_eq_true.mpr ⟨p, hp, h⟩
  refine ⟨hargs, ?_⟩
  unfold usesEnter
  rw [hargs]
  rfl

theorem contextType_expression {p : Parameter D} (hp : p ∈ c.parameters) {type : D}
    (h : (expression p).contextType = some type) : type ∈ c.contextTypes := by
  refine List.mem_filterMap.mpr ⟨p, hp, ?_⟩
  cases hrole : p.role <;> simp only [expression, hrole, Expression.contextType] at h <;> cases h
  simp only [Parameter.contextType, hrole]

/-- A callable gets the types that it has as context parameters. -/
theorem mem_contextTypes_of_setup {e : Expression D} (he : e ∈ c.argumentSetup.map Prod.snd)
    {type : D} (h : e.contextType = some type) : type ∈ c.contextTypes := by
  unfold argumentSetup at he
  rw [List.map_snd_zip (by simp [argumentBindings])] at he
  obtain ⟨p, hp, rfl⟩ := List.mem_map.mp he
  exact contextType_expression hp h

theorem uses_expression {p : Parameter D} (hscope : Provides scope c) (hp : p ∈ c.parameters)
    (hargs : p.consumesArg = true → .args ∈ scope) : ∀ x ∈ (expression p).uses, x ∈ scope := by
  have haccess : p.consumesArg = true → ∀ x ∈ (Expression.access p).uses, x ∈ scope := by
    intro hconsumes x hx
    rcases List.mem_cons.mp hx with rfl | hx
    · exact hargs hconsumes
    · rw [List.mem_singleton.mp hx]
      exact hscope.enter (usesEnter_of_consumesArg hp hconsumes).2
  cases hrole : p.role with
  | enter =>
    have henter : p.isEnter = true := by simp only [Parameter.isEnter, hrole]
    intro x hx
    simp only [expression, hrole, Expression.uses, List.mem_singleton] at hx
    subst hx
    refine hscope.enter ?_
    unfold usesEnter
    rw [List.any_eq_true.mpr ⟨p, hp, henter⟩, Bool.or_true]
  | this valueType borrowed =>
    have hthis : p.isThis = true := by simp only [Parameter.isThis, hrole]
    intro x hx
    simp only [expression, hrole, Expression.uses, List.mem_singleton] at hx
    subst hx
    exact hscope.receiver (List.any_eq_true.mpr ⟨p, hp, hthis⟩)
  | context valueType =>
    have hcontext : p.isContext = true := by simp only [Parameter.isContext, hrole]
    intro x hx
    simp only [expression, hrole, Expression.uses, List.mem_singleton] at hx
    subst hx
    exact hscope.context (List.any_eq_true.mpr ⟨p, hp, hcontext⟩)
  | _ =>
    have heq : expression p = .access p := by simp only [expression, hrole]
    rw [heq]
    exact haccess (by simp only [Parameter.consumesArg, hrole])

/-- **The arguments of a call**, which are taken from what the guest has given. -/
theorem scoped_setup (hscope : Provides scope c) (hargs : c.usesArgs = true → .args ∈ scope) :
    ScopedSetup scope c.argumentSetup := by
  refine scopedSetup_zip fun e he => ?_
  obtain ⟨p, hp, rfl⟩ := List.mem_map.mp he
  exact uses_expression hscope hp fun h => hargs (usesEnter_of_consumesArg hp h).1

/-- **The arguments of an accessor**, which gets at most a value. -/
theorem scoped_accessors (hscope : Provides scope c)
    (hplain : ∀ p ∈ c.parameters, p.isNonPlainValue = false)
    (hvalue : c.usesArgs = true → .value ∈ scope) :
    ∃ expressions, c.accessorExpressions = some expressions ∧
      expressions.length = c.parameters.length ∧
      ∀ e ∈ expressions, (∀ x ∈ e.uses, x ∈ scope) ∧
        ∀ type, e.contextType = some type → type ∈ c.contextTypes := by
  have hone : ∀ p ∈ c.parameters, ∃ e, accessorExpression p = some e ∧
      (∀ x ∈ e.uses, x ∈ scope) ∧
        ∀ type, e.contextType = some type → type ∈ c.contextTypes := by
    intro p hp
    have hplain := hplain p hp
    cases hrole : p.role with
    | value descriptor «optional» =>
      refine ⟨.value, by simp only [accessorExpression, hrole], fun x hx => ?_, nofun⟩
      rw [List.mem_singleton.mp hx]
      exact hvalue (usesEnter_of_consumesArg hp (by simp only [Parameter.consumesArg, hrole])).1
    | enter =>
      refine ⟨expression p, by simp only [accessorExpression, expression, hrole],
        uses_expression hscope hp ?_, fun _ => contextType_expression hp⟩
      simp only [Parameter.consumesArg, hrole, Bool.false_eq_true, false_implies]
    | this valueType borrowed =>
      refine ⟨expression p, by simp only [accessorExpression, expression, hrole],
        uses_expression hscope hp ?_, fun _ => contextType_expression hp⟩
      simp only [Parameter.consumesArg, hrole, Bool.false_eq_true, false_implies]
    | context valueType =>
      refine ⟨expression p, by simp only [accessorExpression, expression, hrole],
        uses_expression hscope hp ?_, fun _ => contextType_expression hp⟩
      simp only [Parameter.consumesArg, hrole, Bool.false_eq_true, false_implies]
    | _ => simp only [Parameter.isNonPlainValue, hrole, Bool.true_eq_false] at hplain
  unfold accessorExpressions
  generalize c.parameters = ps at hone ⊢
  induction ps with
  | nil => exact ⟨[], rfl, rfl, nofun⟩
  | cons p ps ih =>
    obtain ⟨e, he, huses⟩ := hone p List.mem_cons_self
    obtain ⟨expressions, hexpressions, hlength, hall⟩ :=
      ih fun p' hp' => hone p' (List.mem_cons_of_mem _ hp')
    refine ⟨e :: expressions, ?_, by rw [List.length_cons, List.length_cons, hlength], ?_⟩
    · rw [List.mapM_cons, he, hexpressions]
      rfl
    · intro e' he'
      rcases List.mem_cons.mp he' with rfl | he'
      · exact huses
      · exact hall e' he'

end Callable

end GuestPy.Macros
