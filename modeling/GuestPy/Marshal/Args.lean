import GuestPy.Library.Results
import GuestPy.Marshal.Objects

/-!
# Arguments of host callables

The parameters that the macro finds in a signature, and the accesses it generates for them.

* `Parameter.parseAll` gives each parameter its role and its place among the positional ones.
* `Args` is what a call was given. Each access marks what it takes, and `finish` refuses a call
  that has something left.

Values are of any type `V`, types of parameters of any type `D`, and what they are converted to
is of any type `W`.
-/

namespace GuestPy.Marshal

variable {V D W : Type}

/-! ## Parameters -/

/-- The type of a parameter, as far as the macro looks at it. -/
inductive TypeShape (D : Type) where
  | plain (type : D)
  | option (inner : D)
  | vec (inner : D)
  | ref (target : D)
  | refMut (target : D)

/-- Where the value of a parameter comes from: the arguments of the call, or what surrounds it. -/
inductive ParameterRole (D : Type) where
  | value (descriptor : D) («optional» : Bool)
  | positional (descriptor : D) («optional» : Bool)
  | keyword (descriptor : D) («optional» : Bool)
  | rest (descriptor : D)
  | borrow (valueType : D) («mutable» : Bool)
  | enter
  | this (valueType : D) (borrowed : Bool)
  | context (valueType : D)

/-- The options of a `guestpy` attribute. -/
structure ParameterOptions where
  positional : Bool := false
  kw : Bool := false
  rest : Bool := false
  borrow : Bool := false
  borrowMut : Bool := false
  enter : Bool := false
  this : Bool := false
  context : Bool := false

/-- The roles that the attribute asks for. -/
def ParameterOptions.roleCount (options : ParameterOptions) : Nat :=
  ([options.positional, options.kw, options.rest, options.borrow, options.borrowMut,
    options.enter, options.this, options.context].filter id).length

/-- A typed argument of a signature. `type` is the type as it is written. -/
structure Typed (D : Type) where
  name : Str
  options : ParameterOptions
  type : D
  shape : TypeShape D

/-- A parameter with its role. `guestIndex` is its place among the positional ones. -/
structure Parameter (D : Type) where
  name : Str
  guestIndex : Nat
  role : ParameterRole D

namespace TypeShape

/-- The type of a `this` parameter, and whether it is taken by reference. -/
def thisTarget (shape : TypeShape D) (type : D) : Except String (D × Bool) :=
  match shape with
  | .refMut _ => .error "a #[guestpy(this)] parameter must have type T or &T"
  | .ref target => .ok (target, true)
  | _ => .ok (type, false)

/-- The type that a borrowed parameter refers to. -/
def referenceTarget (shape : TypeShape D) («mutable» : Bool) : Except String D :=
  match shape, «mutable» with
  | .ref target, false => .ok target
  | .refMut target, true => .ok target
  | _, true => .error "a #[guestpy(borrow_mut)] parameter must have type &mut T"
  | _, false => .error "a #[guestpy(borrow)] parameter must have type &T"

end TypeShape

namespace Parameter

/-- The role of a plain, positional or keyword parameter, which an `Option` makes optional. -/
def optionalRole (role : D → Bool → ParameterRole D) (typed : Typed D) : ParameterRole D :=
  match typed.shape with
  | .option inner => role inner true
  | _ => role typed.type false

/-- The role of a parameter. Without an option it is taken by position or by its name. -/
def roleOf (typed : Typed D) : Except String (ParameterRole D) :=
  if typed.options.this then do
    let (valueType, borrowed) ← typed.shape.thisTarget typed.type
    return .this valueType borrowed
  else if typed.options.enter then .ok .enter
  else if typed.options.context then .ok (.context typed.type)
  else if typed.options.borrow then do
    return .borrow (← typed.shape.referenceTarget false) false
  else if typed.options.borrowMut then do
    return .borrow (← typed.shape.referenceTarget true) true
  else if typed.options.rest then
    match typed.shape with
    | .vec inner => .ok (.rest inner)
    | _ => .error "a #[guestpy(rest)] parameter must have type Vec<T>"
  else if typed.options.positional then .ok (optionalRole .positional typed)
  else if typed.options.kw then .ok (optionalRole .keyword typed)
  else .ok (optionalRole .value typed)

/-- The parameter, if it does not ask for two roles. -/
def new (typed : Typed D) (guestIndex : Nat) : Except String (Parameter D) :=
  if 1 < typed.options.roleCount then
    .error ("a host parameter may declare only one of positional, kw, rest, borrow, borrow_mut, " ++
      "enter, this, context")
  else do
    return { name := typed.name, guestIndex := guestIndex, role := ← roleOf typed }

/-- Does it take a positional argument, or all that are left? -/
def consumesPositional (p : Parameter D) : Bool :=
  match p.role with
  | .value _ _ => true
  | .positional _ _ => true
  | .rest _ => true
  | .borrow _ _ => true
  | _ => false

/-- Can it not be given by its name? -/
def isPositionalOnly (p : Parameter D) : Bool :=
  match p.role with
  | .positional _ _ => true
  | _ => false

/-- Can it be given either way? -/
def isPositionalOrKeyword (p : Parameter D) : Bool :=
  match p.role with
  | .value _ _ => true
  | _ => false

/-- Does it take all that are left? -/
def isRest (p : Parameter D) : Bool :=
  match p.role with
  | .rest _ => true
  | _ => false

/-- The first loop of `parse_all`. -/
def number : List (Typed D) → Nat → Except String (List (Parameter D))
  | [], _ => .ok []
  | typed :: inputs, positional => do
    let parameter ← new typed positional
    let parameters ←
      number inputs (if parameter.consumesPositional then positional + 1 else positional)
    return parameter :: parameters

/-- The parameters of a callable, in an order that calls can fill. -/
def parseAll (inputs : List (Typed D)) : Except String (List (Parameter D)) := do
  let parameters ← number inputs 0
  if (parameters.dropWhile fun p => !p.isPositionalOrKeyword).any isPositionalOnly then
    .error "a positional-only parameter cannot follow a positional-or-keyword parameter"
  else if 1 < (parameters.filter isRest).length then
    .error "a host callable may have only one rest parameter"
  else
    match parameters.findIdx? isRest with
    | some position =>
      if position + 1 ≠ parameters.length then
        .error "a rest parameter must be the last parameter"
      else .ok parameters
    | none => .ok parameters

end Parameter

/-! ## Arguments -/

/-- How an access finds its argument. -/
inductive Argument where
  | positional (index : Nat)
  | named (index : Nat) (name : Str)
  | keyword (name : Str)

/-- What a call was given, and what of it has been taken. -/
structure Args (V : Type) where
  positional : List V
  keyword : List (Str × V)
  consumedPositional : List Bool
  consumedKeyword : List Bool

namespace Args

/-- The arguments of a call. Nothing has been taken. -/
def new (positional : List V) (keyword : List (Str × V)) : Args V where
  positional := positional
  keyword := keyword
  consumedPositional := List.replicate positional.length false
  consumedKeyword := List.replicate keyword.length false

/-- Takes a positional argument. -/
def takePositional (args : Args V) (index : Nat) : Option V × Args V :=
  match args.positional[index]? with
  | some value =>
    (some value, { args with consumedPositional := args.consumedPositional.set index true })
  | none => (none, args)

/-- Takes the first argument of the name. -/
def takeKeyword (args : Args V) (name : Str) : Option V × Args V :=
  match args.keyword.findIdx? fun entry => entry.1 == name with
  | some index =>
    (args.keyword[index]?.map Prod.snd,
      { args with consumedKeyword := args.consumedKeyword.set index true })
  | none => (none, args)

/-- Takes an argument. A named one is looked for among the positional ones first. -/
def value (args : Args V) : Argument → Option V × Args V
  | .positional index => args.takePositional index
  | .named index name =>
    match args.takePositional index with
    | (some value, args) => (some value, args)
    | (none, args) => args.takeKeyword name
  | .keyword name => args.takeKeyword name

/-- Takes all positional arguments from a place on. -/
def restValues (args : Args V) (index : Nat) : List V × Args V :=
  if index ≤ args.positional.length then
    (args.positional.drop index,
      { args with
        consumedPositional := args.consumedPositional.take index ++
          (args.consumedPositional.drop index).map fun _ => true })
  else ([], args)

/-- Refuses what has not been taken, positional arguments first. -/
def finish (args : Args V) : Except Err Unit :=
  if args.consumedPositional.any (!·) then
    .error (.conversion (s!"expected at most {(args.consumedPositional.filter id).length} " ++
      s!"positional arguments, got {args.positional.length}"))
  else
    match (args.keyword.zip args.consumedKeyword).find? fun entry => !entry.2 with
    | some ((name, _), _) =>
      .error (.conversion s!"unexpected keyword argument '{String.ofList name}'")
    | none => .ok ()

end Args

/-! ## Accesses -/

/-- How values are converted, and what the receiver and the context are resolved to. -/
structure Conversions (V D W : Type) where
  isNone : V → Bool
  fromGuest : D → V → Except Err W
  fromGuestRef : D → V → Except Err W
  fromGuestMut : D → V → Except Err W
  enter : W
  receiver : D → Except Err W
  context : D → Except Err W

/-- What a parameter receives. -/
inductive Received (W : Type) where
  | value (value : W)
  | optional (value : Option W)
  | rest (values : List W)
  deriving DecidableEq

namespace Conversions

variable (c : Conversions V D W)

/-- `Option::<T>::from_guest`. -/
def fromOption (descriptor : D) (value : V) : Except Err (Option W) :=
  if c.isNone value then .ok none
  else do return some (← c.fromGuest descriptor value)

/-- `required`, `required_positional`, `required_keyword`, `borrow` and `borrow_mut`: the
argument has to be there. -/
def required (convert : V → Except Err W) (message : String) (args : Args V)
    (argument : Argument) : Except Err (Received W × Args V) :=
  match args.value argument with
  | (some value, args) => do return (.value (← convert value), args)
  | (none, _) => .error (.conversion message)

/-- `optional`, `optional_positional` and `optional_keyword`. -/
def optional (descriptor : D) (args : Args V) (argument : Argument) :
    Except Err (Received W × Args V) :=
  match args.value argument with
  | (some value, args) => do return (.optional (← c.fromOption descriptor value), args)
  | (none, args) => .ok (.optional none, args)

/-- Converts the values in order, up to the first that cannot be converted. -/
def collectRest (descriptor : D) : List V → Except Err (List W)
  | [] => .ok []
  | value :: values => do
    let value ← c.fromGuest descriptor value
    return value :: (← collectRest descriptor values)

/-- What a rest parameter receives. -/
def rest (descriptor : D) (args : Args V) (index : Nat) : Except Err (Received W × Args V) := do
  let (values, args) := args.restValues index
  return (.rest (← c.collectRest descriptor values), args)

/-- The access that the macro generates for a parameter. -/
def expression (p : Parameter D) (args : Args V) : Except Err (Received W × Args V) :=
  let name := String.ofList p.name
  match p.role with
  | .value descriptor false =>
    required (c.fromGuest descriptor) s!"missing required argument '{name}'" args
      (.named p.guestIndex p.name)
  | .value descriptor true => c.optional descriptor args (.named p.guestIndex p.name)
  | .positional descriptor false =>
    required (c.fromGuest descriptor) s!"missing required positional argument '{name}'" args
      (.positional p.guestIndex)
  | .positional descriptor true => c.optional descriptor args (.positional p.guestIndex)
  | .keyword descriptor false =>
    required (c.fromGuest descriptor) s!"missing required keyword argument '{name}'" args
      (.keyword p.name)
  | .keyword descriptor true => c.optional descriptor args (.keyword p.name)
  | .rest descriptor => c.rest descriptor args p.guestIndex
  | .borrow valueType false =>
    required (c.fromGuestRef valueType) s!"missing required positional argument '{name}'" args
      (.positional p.guestIndex)
  | .borrow valueType true =>
    required (c.fromGuestMut valueType) s!"missing required positional argument '{name}'" args
      (.positional p.guestIndex)
  | .enter => .ok (.value c.enter, args)
  | .this valueType _ => do return (.value (← c.receiver valueType), args)
  | .context valueType => do return (.value (← c.context valueType), args)

/-- The accesses in the order of the parameters. -/
def expressions : List (Parameter D) → Args V → Except Err (List (Received W) × Args V)
  | [], args => .ok ([], args)
  | p :: ps, args => do
    let (received, args) ← c.expression p args
    let (receiveds, args) ← expressions ps args
    return (received :: receiveds, args)

/-- `argument_setup`: every access, and then `finish`. -/
def argumentSetup (ps : List (Parameter D)) (args : Args V) : Except Err (List (Received W)) := do
  let (receiveds, args) ← c.expressions ps args
  args.finish
  return receiveds

end Conversions

end GuestPy.Marshal
