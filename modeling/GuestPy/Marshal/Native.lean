import GuestPy.Library.Results
import GuestPy.Library.Search
import GuestPy.Marshal.Objects

/-!
# Native conversions

`FromGuest` and `ToGuest` for the types of the standard library, for `Iterable` and `Mapping`,
and for the unions that the derive macro implements them for.

Code of the guest runs only where a value of a class of its own is iterated, or looked up, by
`Iterable` and `Mapping`. It may change any state, and it may raise an exception.
-/

namespace GuestPy.Marshal

variable {F σ : Type}

/-! ## Types and values -/

/-- Types with native conversions. `map` is `HashMap` and `BTreeMap`, and `set` is `HashSet` and
`BTreeSet`, which are converted alike. There are none for integers of 128 bits. -/
inductive Native where
  | unit
  | bool
  | int (k : IntType) (narrow : k.isNarrow = true)
  | f32
  | f64
  | char
  | string
  | bytes
  | option (t : Native)
  | tuple (ts : List Native)
  | vec (t : Native)
  | array (t : Native) (length : Nat)
  | map (key value : Native)
  | set (t : Native)
  | iterable (t : Native)
  | mapping (key value : Native)
  | union (ts : List Native)

/-- A map and a set are what is inserted into them, in order. -/
inductive Value (F : Type) where
  | unit
  | bool (b : Bool)
  | int (n : Int)
  | float (x : F)
  | char (c : Char)
  | str (s : Str)
  | bytes (b : List UInt8)
  | none
  | some (v : Value F)
  | tuple (vs : List (Value F))
  | list (vs : List (Value F))
  | map (es : List (Value F × Value F))
  | set (vs : List (Value F))
  | variant (index : Nat) (v : Value F)

/-! ## Descriptions -/

namespace Expected

def push (names : List String) (name : String) : List String :=
  if name ∈ names then names else names ++ [name]

def display (names : List String) : String :=
  match names.getLast? with
  | none => "nothing"
  | some last =>
    match names.dropLast with
    | [] => last
    | rest => ", ".intercalate rest ++ " or " ++ last

end Expected

mutual

def Native.describe : Native → List String → List String
  | .unit, names => Expected.push names "None"
  | .bool, names => Expected.push names "bool"
  | .int _ _, names => Expected.push names "int"
  | .f32, names => Expected.push names "float"
  | .f64, names => Expected.push names "float"
  | .char, names => Expected.push names "str"
  | .string, names => Expected.push names "str"
  | .bytes, names => Expected.push names "bytes"
  | .option t, names => Expected.push (t.describe names) "None"
  | .tuple _, names => Expected.push names "tuple"
  | .vec _, names => Expected.push (Expected.push names "list") "tuple"
  | .array _ _, names => Expected.push names "list"
  | .map _ _, names => Expected.push names "dict"
  | .set _, names => Expected.push names "set"
  | .iterable _, names => Expected.push names "iterable"
  | .mapping _ _, names => Expected.push names "Mapping"
  | .union ts, names => describeAll ts names

def describeAll : List Native → List String → List String
  | [], names => names
  | t :: ts, names => describeAll ts (t.describe names)

end

def Native.mismatch (t : Native) (o : Obj F) : Err :=
  .conversion s!"expected {Expected.display (t.describe [])}, got {o.typeName}"

def isConversion : Err → Bool
  | .conversion _ => true
  | _ => false

/-! ## Code of the guest -/

/-- What values of the classes of the guest do. Exceptions go by the names of their types. An
iteration may go on for `fuel` steps. -/
structure Code (σ F : Type) where
  fuel : Nat
  hasAttr : Nat → String → σ → Bool × σ
  iter : Nat → Host σ String Nat
  next : Nat → Host σ String (Option (Obj F))
  keys : Nat → Host σ String (Obj F)
  getItem : Nat → Obj F → Host σ String (Obj F)
  chars : Nat → List (Obj F)

/-- An exception that code of the guest raised. -/
def raised {α : Type} (m : Host σ String α) : Host σ Err α := fun s =>
  match m s with
  | (.ok a, s') => (.ok a, s')
  | (.err typeName, s') => (.err (.guest ⟨typeName, true⟩), s')
  | (.panic, s') => (.panic, s')
  | (.stuck, s') => (.stuck, s')

/-- An iterator: over the elements of a builtin, or one of the guest. -/
inductive Iterator (F : Type) where
  | items (xs : List (Obj F))
  | own (id : Nat)

namespace Code

variable (code : Code σ F)

def attr (id : Nat) (name : String) : Host σ Err Bool := fun s =>
  (.ok (code.hasAttr id name s).1, (code.hasAttr id name s).2)

/-- `BackendValues::is_iterable`. -/
def isIterable : Obj F → Host σ Err Bool
  | .none => pure false
  | .bool _ => pure false
  | .int _ => pure false
  | .float _ => pure false
  | .other _ id => code.attr id "__iter__"
  | _ => pure true

/-- `BackendValues::iter`. -/
def iterator : Obj F → Host σ Err (Iterator F)
  | .list xs => pure (.items xs)
  | .tuple xs => pure (.items xs)
  | .set xs => pure (.items xs)
  | .dict ps => pure (.items (ps.map Prod.fst))
  | .str s => pure (.items (s.map fun c => .str [c]))
  | .bytes b => pure (.items (b.map fun x => .int x.toNat))
  | .illFormed id => pure (.items (code.chars id))
  | .other _ id => do return .own (← raised (code.iter id))
  | _ => Host.throw (Obj.raise "TypeError")

/-- `while let Some(value) = B::next(...)? { ... }`. -/
def drain {β : Type} (f : Obj F → Host σ Err β) : Iterator F → Host σ Err (List β)
  | .items xs => eachItem f xs
  | .own id => eachNext Host.stuck (raised (code.next id)) f code.fuel

/-- `Mapping::accepts`. -/
def accepts : Obj F → Host σ Err Bool
  | .dict _ => pure true
  | .other _ id => do
    if ← code.attr id "keys" then code.attr id "__getitem__" else return false
  | _ => pure false

end Code

/-! ## From guests -/

section FromGuest

variable [Floats F] (engine : Engine) (code : Code σ F)

/-- The macros `signed_int` and `unsigned_int`. -/
def intFromGuest (k : IntType) (mismatch : Err) (o : Obj F) : Host σ Err (Value F) :=
  if !o.isInt then Host.throw mismatch
  else if k.signed then do
    let n ← Host.ofExcept o.asI64
    if k.fits n then return .int n
    else Host.throw (.conversion s!"{n} does not fit in {k.name}")
  else
    match o.asU64 with
    | .error _ =>
      Host.throw (.conversion "a negative int cannot be converted to an unsigned integer")
    | .ok n =>
      if k.fits n then pure (.int n)
      else Host.throw (.conversion s!"{n} does not fit in {k.name}")

/-- `f32` and `f64`, which also take integers. -/
def floatFromGuest (ofFloat : F → F) (ofInt : Int → F) (mismatch : Err) (o : Obj F) :
    Host σ Err (Value F) :=
  if o.isFloat then do return .float (ofFloat (← Host.ofExcept o.asF64))
  else if o.isInt then do return .float (ofInt (← Host.ofExcept o.asI64))
  else Host.throw mismatch

def charFromGuest (mismatch : Err) (o : Obj F) : Host σ Err (Value F) :=
  if !o.isStr then Host.throw mismatch
  else do
    match ← Host.ofExcept (o.asStr engine) with
    | [c] => return .char c
    | _ => Host.throw (.conversion "expected a single-character str")

/-- The entry of a key of a dictionary, which is converted before its value. -/
def pairOf {M : Type → Type} [Monad M] {α β γ δ : Type} (key : α → M γ) (value : β → M δ)
    (p : α × β) : M (γ × δ) := do
  let k ← key p.1
  let v ← value p.2
  return (k, v)

/-- The same for a key whose value has to be asked for. -/
def itemOf {M : Type → Type} [Monad M] {α β γ δ : Type} (getItem : α → M β) (key : α → M γ)
    (value : β → M δ) (x : α) : M (γ × δ) := do
  let k ← key x
  let item ← getItem x
  let v ← value item
  return (k, v)

mutual

def fromGuest : Native → Obj F → Host σ Err (Value F)
  | .unit, o => if !o.isNone then Host.throw (Native.unit.mismatch o) else pure .unit
  | .bool, o =>
    if !o.isBool then Host.throw (Native.bool.mismatch o)
    else do return .bool (← Host.ofExcept o.asBool)
  | .int k narrow, o => intFromGuest k ((Native.int k narrow).mismatch o) o
  | .f32, o => floatFromGuest Floats.single Floats.singleOfInt (Native.f32.mismatch o) o
  | .f64, o => floatFromGuest id Floats.ofInt (Native.f64.mismatch o) o
  | .char, o => charFromGuest engine (Native.char.mismatch o) o
  | .string, o =>
    if !o.isStr then Host.throw (Native.string.mismatch o)
    else do return .str (← Host.ofExcept (o.asStr engine))
  | .bytes, o =>
    if !o.isBytes then Host.throw (Native.bytes.mismatch o)
    else do return .bytes (← Host.ofExcept o.asBytes)
  | .option t, o =>
    if o.isNone then pure .none else do return .some (← fromGuest t o)
  | .tuple ts, o =>
    match o with
    | .tuple xs =>
      if xs.length ≠ ts.length then
        Host.throw (.conversion "tuple has an unexpected length")
      else do return .tuple (← fromGuestAll ts xs)
    | _ => Host.throw ((Native.tuple ts).mismatch o)
  | .vec t, o =>
    match o with
    | .list xs => do return .list (← eachItem (fromGuest t) xs)
    | .tuple xs => do return .list (← eachItem (fromGuest t) xs)
    | _ => Host.throw ((Native.vec t).mismatch o)
  | .array t length, o =>
    match o with
    | .list xs =>
      if xs.length ≠ length then
        Host.throw (.conversion s!"expected a list of length {length}")
      else do return .list (← eachItem (fromGuest t) xs)
    | _ => Host.throw ((Native.array t length).mismatch o)
  | .map key value, o =>
    match o with
    | .dict ps => do return .map (← eachItem (pairOf (fromGuest key) (fromGuest value)) ps)
    | _ => Host.throw ((Native.map key value).mismatch o)
  | .set t, o =>
    match o with
    | .set xs => do return .set (← eachItem (fromGuest t) xs)
    | _ => Host.throw ((Native.set t).mismatch o)
  | .iterable t, o => do
    if ← code.isIterable o then
      let iterator ← code.iterator o
      return .list (← code.drain (fromGuest t) iterator)
    else Host.throw ((Native.iterable t).mismatch o)
  | .mapping key value, o => do
    if ← code.accepts o then
      match o with
      | .dict ps => return .map (← eachItem (pairOf (fromGuest key) (fromGuest value)) ps)
      | .other _ id =>
        let keys ← raised (code.keys id)
        let iterator ← code.iterator keys
        return .map (← code.drain (itemOf (fun x => raised (code.getItem id x)) (fromGuest key)
          (fromGuest value)) iterator)
      | _ => Host.throw ((Native.mapping key value).mismatch o)
    else Host.throw ((Native.mapping key value).mismatch o)
  | .union ts, o => attempts ts 0 ((Native.union ts).mismatch o) o

/-- The elements of a tuple by their indices. -/
def fromGuestAll : List Native → List (Obj F) → Host σ Err (List (Value F))
  | t :: ts, x :: xs => do
    let v ← fromGuest t x
    let vs ← fromGuestAll ts xs
    return v :: vs
  | _, _ => pure []

/-- One attempt after another. A failure that is not a mismatch is returned. -/
def attempts : List Native → Nat → Err → Obj F → Host σ Err (Value F)
  | [], _, mismatch, _ => Host.throw mismatch
  | t :: ts, index, mismatch, o =>
    Host.orNext isConversion (do return .variant index (← fromGuest t o))
      (attempts ts (index + 1) mismatch o)

end

end FromGuest

/-! ## To guests -/

namespace Obj

variable [Floats F]

def addAll : List (Obj F) → List (Obj F) → Except Err (List (Obj F))
  | xs, [] => .ok xs
  | xs, x :: rest =>
    if x.hashable then addAll (if xs.any (·.eqv x) then xs else xs ++ [x]) rest
    else .error (raise "TypeError")

end Obj

section ToGuest

variable [Floats F]

mutual

def toGuest : Value F → Except Err (Obj F)
  | .unit => .ok .none
  | .bool b => .ok (.bool b)
  | .int n => .ok (.int n)
  | .float x => .ok (.float x)
  | .char c => .ok (.str [c])
  | .str s => .ok (.str s)
  | .bytes b => .ok (.bytes b)
  | .none => .ok .none
  | .some v => toGuest v
  | .tuple vs => do return .tuple (← toGuestAll vs)
  | .list vs => do return .list (← toGuestAll vs)
  | .map es => do dict (← toGuestEntries es)
  | .set vs => do return .set (← Obj.addAll [] (← toGuestAll vs))
  | .variant _ v => toGuest v

def toGuestAll : List (Value F) → Except Err (List (Obj F))
  | [] => .ok []
  | v :: vs => do
    let o ← toGuest v
    let os ← toGuestAll vs
    return o :: os

def toGuestEntries : List (Value F × Value F) → Except Err (List (Obj F × Obj F))
  | [] => .ok []
  | (key, value) :: es => do
    let k ← toGuest key
    let v ← toGuest value
    let ps ← toGuestEntries es
    return (k, v) :: ps

end

end ToGuest

end GuestPy.Marshal
