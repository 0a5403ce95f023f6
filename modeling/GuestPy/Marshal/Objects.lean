import GuestPy.Errors
import GuestPy.Imports.Name

/-!
# Python values

The values that hosts and guests exchange, as `BackendValues` looks at them.

* An `Obj` is a value together with what is in it. Values of classes that guest code defines
  are numbers; what they do when they are asked is up to the code of the guest.
* `Obj.eqv` is Python's `==` on what may be a key, and `dict` builds a dictionary entry by
  entry, so that a later entry replaces an earlier one with an equal key.
* `asI64` and `asU64` read an integer that has any number of digits into a 64-bit one.
-/

namespace GuestPy.Marshal

/-! ## Numbers -/

/-- 64-bit floating-point numbers, as far as conversions look at them: `single` rounds to an
`f32`, `ofInt` and `singleOfInt` are `as f64` and `as f32`, and the two comparisons are Python's
`==`. -/
class Floats (F : Type) where
  single : F → F
  ofInt : Int → F
  singleOfInt : Int → F
  beq : F → F → Bool
  eqInt : F → Int → Bool

/-- Whole numbers that are small enough to be floats. -/
instance wholeFloats : Floats Int where
  single x := x
  ofInt n := n
  singleOfInt n := n
  beq x y := x == y
  eqInt x n := x == n

/-- The integer types of Rust. -/
inductive IntType where
  | i8 | i16 | i32 | i64 | i128 | isize
  | u8 | u16 | u32 | u64 | u128 | usize
  deriving DecidableEq

namespace IntType

def signed : IntType → Bool
  | i8 | i16 | i32 | i64 | i128 | isize => true
  | _ => false

def bits : IntType → Nat
  | i8 | u8 => 8
  | i16 | u16 => 16
  | i32 | u32 => 32
  | i64 | u64 | isize | usize => 64
  | i128 | u128 => 128

def name : IntType → String
  | i8 => "i8"
  | i16 => "i16"
  | i32 => "i32"
  | i64 => "i64"
  | i128 => "i128"
  | isize => "isize"
  | u8 => "u8"
  | u16 => "u16"
  | u32 => "u32"
  | u64 => "u64"
  | u128 => "u128"
  | usize => "usize"

/-- Is the number in the range of the type? -/
def fits (k : IntType) (n : Int) : Bool :=
  if k.signed then decide (-2 ^ (k.bits - 1) ≤ n) && decide (n < 2 ^ (k.bits - 1))
  else decide (0 ≤ n) && decide (n < 2 ^ k.bits)

/-- Is the type one of those that hold at most 64 bits? -/
def isNarrow (k : IntType) : Bool := decide (k.bits ≤ 64)

theorem fits_i64_of_signed {k : IntType} {n : Int} (hk : k.isNarrow = true)
    (hsigned : k.signed = true) (h : k.fits n = true) : i64.fits n = true := by
  cases k <;> first
    | exact absurd hsigned (by decide)
    | exact absurd hk (by decide)
    | (norm_num [fits, signed, bits] at h ⊢; omega)

theorem fits_u64_of_unsigned {k : IntType} {n : Int} (hk : k.isNarrow = true)
    (hsigned : k.signed = false) (h : k.fits n = true) : u64.fits n = true := by
  cases k <;> first
    | exact absurd hsigned (by decide)
    | exact absurd hk (by decide)
    | (norm_num [fits, signed, bits] at h ⊢; omega)

end IntType

/-! ## Values -/

/-- A Python value. An integer may be of a class below `int`, `illFormed` is a string with a
lone surrogate, which has no UTF-8 text, and `other` is any value of another class. -/
inductive Obj (F : Type) where
  | none
  | bool (b : Bool)
  | int (n : Int)
  | float (x : F)
  | str (s : Str)
  | illFormed (id : Nat)
  | bytes (b : List UInt8)
  | list (xs : List (Obj F))
  | tuple (xs : List (Obj F))
  | set (xs : List (Obj F))
  | dict (ps : List (Obj F × Obj F))
  | other (typeName : String) (id : Nat)

/-- An exception of the interpreter. `byCode` says whether code of the guest raised it. -/
structure Exc where
  typeName : String
  byCode : Bool
  deriving DecidableEq

abbrev Err := Error Exc

namespace Obj

variable {F : Type}

def typeName : Obj F → String
  | none => "NoneType"
  | bool _ => "bool"
  | int _ => "int"
  | float _ => "float"
  | str _ => "str"
  | illFormed _ => "str"
  | bytes _ => "bytes"
  | list _ => "list"
  | tuple _ => "tuple"
  | set _ => "set"
  | dict _ => "dict"
  | other typeName _ => typeName

def isNone : Obj F → Bool
  | none => true
  | _ => false

def isBool : Obj F → Bool
  | bool _ => true
  | _ => false

/-- `bool` is a class below `int`. -/
def isInt : Obj F → Bool
  | bool _ => true
  | int _ => true
  | _ => false

def isFloat : Obj F → Bool
  | float _ => true
  | _ => false

def isStr : Obj F → Bool
  | str _ => true
  | illFormed _ => true
  | _ => false

def isBytes : Obj F → Bool
  | bytes _ => true
  | _ => false

def isList : Obj F → Bool
  | list _ => true
  | _ => false

def isTuple : Obj F → Bool
  | tuple _ => true
  | _ => false

def isSet : Obj F → Bool
  | set _ => true
  | _ => false

def isDict : Obj F → Bool
  | dict _ => true
  | _ => false

/-! ### Reading scalars -/

def raise (typeName : String) : Err := .guest ⟨typeName, false⟩

/-- The integer that a value stands for as an index. -/
def index : Obj F → Option Int
  | bool b => some (if b then 1 else 0)
  | int n => some n
  | _ => .none

/-- Reads an integer of the type `k`. The interpreter raises an exception where it does not
fit. -/
def extract (k : IntType) (o : Obj F) : Except Err Int :=
  match o.index with
  | some n => if k.fits n then .ok n else .error (raise "OverflowError")
  | .none => .error (raise "TypeError")

def asI64 (o : Obj F) : Except Err Int := o.extract .i64

def asU64 (o : Obj F) : Except Err Int := o.extract .u64

def asBool : Obj F → Except Err Bool
  | bool b => .ok b
  | _ => .error (raise "TypeError")

def asF64 : Obj F → Except Err F
  | float x => .ok x
  | _ => .error (raise "TypeError")

def asBytes : Obj F → Except Err (List UInt8)
  | bytes b => .ok b
  | o => .error (.conversion ("expected bytes, got " ++ o.typeName))

end Obj

/-- The interpreters that run guests. They differ in how they refuse a string without text. -/
inductive Engine where
  | cpython
  | rustPython
  deriving DecidableEq

def Obj.asStr {F : Type} (engine : Engine) : Obj F → Except Err Str
  | .str s => .ok s
  | .illFormed _ =>
    match engine with
    | .cpython => .error (Obj.raise "UnicodeEncodeError")
    | .rustPython => .error (.conversion "str is not valid UTF-8")
  | o => .error (.conversion ("expected str, got " ++ o.typeName))

/-! ## Keys -/

namespace Obj

variable {F : Type}

mutual

/-- May the value be a key? -/
def hashable : Obj F → Bool
  | list _ => false
  | set _ => false
  | dict _ => false
  | tuple xs => hashableAll xs
  | _ => true

def hashableAll : List (Obj F) → Bool
  | [] => true
  | x :: xs => x.hashable && hashableAll xs

end

variable [Floats F]

mutual

/-- Python's `==`, for keys. Numbers of different classes may be equal. -/
def eqv : Obj F → Obj F → Bool
  | none, none => true
  | bool a, o => o.eqInt (if a then 1 else 0)
  | int n, o => o.eqInt n
  | float x, float y => Floats.beq x y
  | float x, bool b => Floats.eqInt x (if b then 1 else 0)
  | float x, int n => Floats.eqInt x n
  | str s, str s' => s == s'
  | illFormed id, illFormed id' => id == id'
  | bytes b, bytes b' => b == b'
  | tuple xs, tuple ys => eqvAll xs ys
  | other _ id, other _ id' => id == id'
  | _, _ => false

def eqInt : Obj F → Int → Bool
  | bool b, n => (if b then 1 else 0) == n
  | int m, n => m == n
  | float x, n => Floats.eqInt x n
  | _, _ => false

def eqvAll : List (Obj F) → List (Obj F) → Bool
  | [], [] => true
  | x :: xs, y :: ys => x.eqv y && eqvAll xs ys
  | _, _ => false

end

/-! ### Dictionaries -/

def insert (key value : Obj F) : List (Obj F × Obj F) → List (Obj F × Obj F)
  | [] => [(key, value)]
  | p :: ps => if p.1.eqv key then (p.1, value) :: ps else p :: insert key value ps

def insertAll : List (Obj F × Obj F) → List (Obj F × Obj F) →
    Except Err (List (Obj F × Obj F))
  | ps, [] => .ok ps
  | ps, (key, value) :: rest =>
    if key.hashable then insertAll (insert key value ps) rest
    else .error (raise "TypeError")

end Obj

/-- `BackendValues::dict`. -/
def dict {F : Type} [Floats F] (pairs : List (Obj F × Obj F)) : Except Err (Obj F) :=
  match Obj.insertAll [] pairs with
  | .ok ps => .ok (.dict ps)
  | .error e => .error e

/-- No key is equal to a later one. -/
def DistinctKeys {F : Type} [Floats F] (keys : List (Obj F)) : Prop :=
  keys.Pairwise fun a b => a.eqv b = false

theorem Obj.insert_of_new {F : Type} [Floats F] {key value : Obj F} {ps : List (Obj F × Obj F)}
    (h : ∀ p ∈ ps, p.1.eqv key = false) : Obj.insert key value ps = ps ++ [(key, value)] := by
  induction ps with
  | nil => rfl
  | cons p ps ih =>
    have hp := h p List.mem_cons_self
    have hps := ih fun q hq => h q (List.mem_cons_of_mem _ hq)
    simp [Obj.insert, hp, hps]

theorem Obj.insertAll_distinct {F : Type} [Floats F] {ps pairs qs : List (Obj F × Obj F)}
    (hd : DistinctKeys ((ps ++ pairs).map Prod.fst)) (h : insertAll ps pairs = .ok qs) :
    qs = ps ++ pairs := by
  induction pairs generalizing ps with
  | nil =>
    cases h
    simp
  | cons p pairs ih =>
    obtain ⟨key, value⟩ := p
    have hnew : ∀ p ∈ ps, p.1.eqv key = false := by
      intro p hp
      simp only [DistinctKeys, List.map_append, List.map_cons, List.pairwise_append] at hd
      exact hd.2.2 p.1 (List.mem_map_of_mem hp) key List.mem_cons_self
    rw [insertAll, insert_of_new hnew] at h
    split at h
    · have := ih (by simpa using hd) h
      simpa using this
    · cases h

/-- A dictionary with no two equal keys keeps its entries and their order. -/
theorem dict_distinct {F : Type} [Floats F] {pairs : List (Obj F × Obj F)} {o : Obj F}
    (hd : DistinctKeys (pairs.map Prod.fst)) (h : dict pairs = .ok o) : o = .dict pairs := by
  unfold dict at h
  split at h
  · rename_i ps hps
    cases h
    rw [Obj.insertAll_distinct (by simpa using hd) hps]
    simp
  · cases h

/-! ## Iteration -/

/-- What an iteration gives step by step: an element, with what `get_item` answers for it, or
an exception. -/
abbrev Steps (F : Type) := List (Except Err (Obj F × Except Err (Obj F)))

/-- What values with code or text of their own do when they are iterated. -/
structure Own (F : Type) where
  chars : Nat → Steps F
  iterate : Nat → Except Err (Steps F)

/-- No such value can be iterated. -/
def inert {F : Type} : Own F where
  chars _ := []
  iterate _ := .error (Obj.raise "TypeError")

namespace Obj

variable {F : Type}

/-- `get_item` for an index, which may count from the end. -/
def item (xs : List (Obj F)) (key : Obj F) : Except Err (Obj F) :=
  match key.index with
  | some n =>
    match xs[(if n < 0 then n + xs.length else n).toNat]? with
    | some x => if n < -xs.length then .error (raise "IndexError") else .ok x
    | .none => .error (raise "IndexError")
  | .none => .error (raise "TypeError")

def items (xs : List (Obj F)) : Steps F := xs.map fun x => .ok (x, item xs x)

/-- `BackendValues::iter`. A key that comes from a dictionary finds its own entry there. -/
def iter (own : Own F) : Obj F → Except Err (Steps F)
  | list xs => .ok (items xs)
  | tuple xs => .ok (items xs)
  | set xs => .ok (xs.map fun x => .ok (x, .error (raise "TypeError")))
  | dict ps => .ok (ps.map fun p => .ok (p.1, .ok p.2))
  | str s => .ok (s.map fun c => .ok (str [c], .error (raise "TypeError")))
  | bytes b => .ok (items (b.map fun x => int x.toNat))
  | illFormed id => .ok (own.chars id)
  | other _ id => own.iterate id
  | _ => .error (raise "TypeError")

end Obj

end GuestPy.Marshal
