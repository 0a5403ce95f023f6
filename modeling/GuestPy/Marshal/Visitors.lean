import GuestPy.Marshal.Serde

/-!
# Visitors

What a Rust type asks the `Deserializer` for, and what its visitor does with the answer.

The implementations of `Deserialize` for the types of the standard library, and the ones that
the derive macro writes, are not part of the bridge. They are a parameter `S`, which gives the
visitor of a type when the seeds of the types within it are known. `standard` does what they
document, and `S` is `Documented` if its visitors give the same values and fail on the same.
-/

namespace GuestPy.Marshal

open Results Deserializer

variable {F : Type}

/-! ## Types -/

mutual

/-- Rust types. An array is a tuple of as many equal types, and an enum lists its variants. -/
inductive Ty where
  | unit
  | bool
  | int (k : IntType)
  | f32
  | f64
  | char
  | string
  | bytes
  | option (t : Ty)
  | unitStruct
  | newtypeStruct (t : Ty)
  | seq (t : Ty)
  | tuple (ts : List Ty)
  | tupleStruct (ts : List Ty)
  | map (key value : Ty)
  | struct (fields : List (Str × Ty))
  | enum (variants : List (Str × Shape))

inductive Shape where
  | unit
  | newtype (t : Ty)
  | tuple (ts : List Ty)
  | struct (fields : List (Str × Ty))

end

/-- How a value of a type is deserialised, and what a field of the type is when it is
missing. -/
structure Seed (F : Type) where
  deserialize : Obj F → Except Err (Data F)
  absent : Option (Data F)

inductive VariantSeed (F : Type) where
  | unit
  | newtype (seed : Seed F)
  | tuple (seeds : List (Seed F))
  | struct (fields : List (Str × Seed F))

/-- A type with the seeds of the types within it. -/
inductive Head (F : Type) where
  | unit
  | bool
  | int (k : IntType)
  | f32
  | f64
  | char
  | string
  | bytes
  | option (seed : Seed F)
  | unitStruct
  | newtypeStruct (seed : Seed F)
  | seq (seed : Seed F)
  | tuple (seeds : List (Seed F))
  | tupleStruct (seeds : List (Seed F))
  | map (key value : Seed F)
  | struct (fields : List (Str × Seed F))
  | enum (variants : List (Str × VariantSeed F))

/-! ## What serde documents -/

section Standard

def refused {α : Type} : Except Err α := .error (.conversion "invalid type")

/-- The visitor whose methods are all the default ones. -/
def refusing {α : Type} : Visitor F α where
  visitUnit := refused
  visitBool _ := refused
  visitI64 _ := refused
  visitU64 _ := refused
  visitF64 _ := refused
  visitString _ := refused
  visitByteBuf _ := refused
  visitNone := refused
  visitSome _ := refused
  visitNewtypeStruct _ := refused
  visitSeq _ := refused
  visitMap _ := refused
  visitEnum _ := refused

def utf8 (s : Str) : List UInt8 := (String.ofList s).toUTF8.data.toList

def ofUtf8 (b : List UInt8) : Except Err Str :=
  match String.fromUTF8? ⟨b.toArray⟩ with
  | some s => .ok s.toList
  | none => .error (.conversion "invalid value")

/-- A name, given as text, as bytes or as a position. -/
def named (names : List Str) : Visitor F (Option Nat) :=
  { refusing with
    visitString := fun s => .ok (names.idxOf? s)
    visitByteBuf := fun b => .ok (names.findIdx? (utf8 · == b))
    visitU64 := fun n => .ok (if n.toNat < names.length then some n.toNat else none) }

variable (engine : Engine) (own : Own F)

/-- `deserialize_identifier` of a field or a variant. -/
def identify (names : List Str) (key : Obj F) : Except Err (Option Nat) :=
  deserializeAny engine own (named names) key

mutual

/-- `IgnoredAny`, which goes through the whole value. -/
def ignored : Obj F → Except Err Unit
  | .list xs => ignoredAll xs
  | .tuple xs => ignoredAll xs
  | .set xs => ignoredAll xs
  | .dict ps => ignoredEntries ps
  | .int n => do
    let _ ← if IntType.i64.fits n then .ok n else Obj.asU64 (.int n : Obj F)
  | .illFormed id => do
    let _ ← Obj.asStr engine (.illFormed id : Obj F)
  | .other typeName _ =>
    .error (.conversion ("cannot deserialize a Python value of type " ++ typeName))
  | _ => .ok ()

def ignoredAll : List (Obj F) → Except Err Unit
  | [] => .ok ()
  | x :: xs => do
    ignored x
    ignoredAll xs

def ignoredEntries : List (Obj F × Obj F) → Except Err Unit
  | [] => .ok ()
  | (key, value) :: ps => do
    ignored key
    ignored value
    ignoredEntries ps

end

def ofInt (k : IntType) (n : Int) : Except Err (Data F) :=
  if k.fits n then .ok (.int k n) else .error (.conversion "invalid value")

/-- Every element, to the end. -/
def collect (seed : Seed F) : SeqAccess F → Except Err (List (Data F))
  | [] => .ok []
  | step :: rest => do
    match ← SeqAccess.nextElementSeed seed.deserialize (step :: rest) with
    | (none, _) => return []
    | (some value, _) => return value :: (← collect seed rest)

/-- One element for each seed. What is left after the last one is not looked at. -/
def each : List (Seed F) → SeqAccess F → Except Err (List (Data F))
  | [], _ => .ok []
  | seed :: seeds, access => do
    match ← access.nextElementSeed seed.deserialize with
    | (none, _) => .error (.conversion "invalid length")
    | (some value, rest) => return value :: (← each seeds rest)

def collectEntries (key value : Seed F) : Steps F → Except Err (List (Data F × Data F))
  | [] => .ok []
  | step :: rest => do
    match ← MapAccess.nextKeySeed key.deserialize { iterator := step :: rest } with
    | (none, _) => return []
    | (some k, access) =>
      let (v, _) ← access.nextValueSeed value.deserialize
      return (k, v) :: (← collectEntries key value rest)

/-- The fields that the entries give, in the places of the fields. -/
def collectFields (fields : List (Str × Seed F)) :
    List (Option (Data F)) → Steps F → Except Err (List (Option (Data F)))
  | slots, [] => .ok slots
  | slots, step :: rest => do
    match ← MapAccess.nextKeySeed (identify engine own (fields.map Prod.fst))
      { iterator := step :: rest } with
    | (none, _) => return slots
    | (some position, access) =>
      match position.bind fun i => (fields[i]?).map fun field => (i, field.2) with
      | none =>
        let _ ← access.nextValueSeed (ignored engine)
        collectFields fields slots rest
      | some (i, seed) =>
        if (slots[i]?.join).isSome then .error (.conversion "duplicate field")
        else
          let (value, _) ← access.nextValueSeed seed.deserialize
          collectFields fields (slots.set i (some value)) rest

/-- The value of each field, or what the field is when it is missing. -/
def settle : List (Str × Seed F) → List (Option (Data F)) → Except Err (List (Str × Data F))
  | (name, seed) :: fields, slot :: slots => do
    match slot.or seed.absent with
    | some value => return (name, value) :: (← settle fields slots)
    | none => .error (.conversion "missing field")
  | _, _ => .ok []

/-- The visitor of a type with positions. -/
def positional (seeds : List (Seed F)) : Visitor F (List (Data F)) :=
  { refusing with visitSeq := each seeds }

/-- The visitor of a type with named fields. -/
def fielded (fields : List (Str × Seed F)) : Visitor F (List (Str × Data F)) :=
  { refusing with
    visitSeq := fun access => do
      return (fields.map Prod.fst).zip (← each (fields.map Prod.snd) access)
    visitMap := fun access => do
      settle fields
        (← collectFields engine own fields (fields.map fun _ => none) access.iterator) }

def visitVariant (access : EnumAccess F) (variant : Str) :
    VariantSeed F → Except Err (Data F)
  | .unit => do
    access.unitVariant
    return .unitVariant variant
  | .newtype seed => do
    return .newtypeVariant variant (← access.newtypeVariantSeed seed.deserialize)
  | .tuple seeds => do
    return .tupleVariant variant (← access.tupleVariant own (positional seeds))
  | .struct fields => do
    return .structVariant variant (← access.structVariant own (fielded engine own fields))

/-- What the standard library and the derive macro document. -/
def standard [Floats F] : Head F → Visitor F (Data F)
  | .unit => { refusing with visitUnit := .ok .unit }
  | .bool => { refusing with visitBool := fun b => .ok (.bool b) }
  | .int k => { refusing with visitI64 := ofInt k, visitU64 := ofInt k }
  | .f32 =>
    { refusing with
      visitF64 := fun x => .ok (.f32 (Floats.single x))
      visitI64 := fun n => .ok (.f32 (Floats.singleOfInt n))
      visitU64 := fun n => .ok (.f32 (Floats.singleOfInt n)) }
  | .f64 =>
    { refusing with
      visitF64 := fun x => .ok (.f64 x)
      visitI64 := fun n => .ok (.f64 (Floats.ofInt n))
      visitU64 := fun n => .ok (.f64 (Floats.ofInt n)) }
  | .char =>
    { refusing with
      visitString := fun s =>
        match s with
        | [c] => .ok (.char c)
        | _ => .error (.conversion "invalid value") }
  | .string =>
    { refusing with
      visitString := fun s => .ok (.string s)
      visitByteBuf := fun b => do return .string (← ofUtf8 b) }
  | .bytes => { refusing with visitByteBuf := fun b => .ok (.bytes b) }
  | .option seed =>
    { refusing with
      visitUnit := .ok .none
      visitNone := .ok .none
      visitSome := fun value => do return .some (← seed.deserialize value) }
  | .unitStruct => { refusing with visitUnit := .ok .unitStruct }
  | .newtypeStruct seed =>
    { refusing with
      visitNewtypeStruct := fun value => do return .newtypeStruct (← seed.deserialize value)
      visitSeq := fun access => do
        match ← access.nextElementSeed seed.deserialize with
        | (none, _) => .error (.conversion "invalid length")
        | (some value, _) => return .newtypeStruct value }
  | .seq seed => { refusing with visitSeq := fun access => do return .seq (← collect seed access) }
  | .tuple seeds =>
    { refusing with
      visitSeq := fun access => do return .tuple (← (positional seeds).visitSeq access) }
  | .tupleStruct seeds =>
    { refusing with
      visitSeq := fun access => do return .tupleStruct (← (positional seeds).visitSeq access) }
  | .map key value =>
    { refusing with
      visitMap := fun access => do return .map (← collectEntries key value access.iterator) }
  | .struct fields =>
    { refusing with
      visitSeq := fun access => do
        return .struct (← (fielded engine own fields).visitSeq access)
      visitMap := fun access => do
        return .struct (← (fielded engine own fields).visitMap access) }
  | .enum variants =>
    { refusing with
      visitEnum := fun access => do
        let position ← access.variantSeed (identify engine own (variants.map Prod.fst))
        match position.bind fun i => variants[i]? with
        | some (variant, shape) => visitVariant engine own access variant shape
        | none => .error (.conversion "unknown variant") }

end Standard

/-! ## Deserialising -/

/-- The two visitors give the same values and fail on the same. -/
structure Visitor.Same {α : Type} (v w : Visitor F α) : Prop where
  visitUnit : SameResult v.visitUnit w.visitUnit
  visitBool : ∀ b, SameResult (v.visitBool b) (w.visitBool b)
  visitI64 : ∀ n, SameResult (v.visitI64 n) (w.visitI64 n)
  visitU64 : ∀ n, SameResult (v.visitU64 n) (w.visitU64 n)
  visitF64 : ∀ x, SameResult (v.visitF64 x) (w.visitF64 x)
  visitString : ∀ s, SameResult (v.visitString s) (w.visitString s)
  visitByteBuf : ∀ b, SameResult (v.visitByteBuf b) (w.visitByteBuf b)
  visitNone : SameResult v.visitNone w.visitNone
  visitSome : ∀ o, SameResult (v.visitSome o) (w.visitSome o)
  visitNewtypeStruct : ∀ o, SameResult (v.visitNewtypeStruct o) (w.visitNewtypeStruct o)
  visitSeq : ∀ access, SameResult (v.visitSeq access) (w.visitSeq access)
  visitMap : ∀ access, SameResult (v.visitMap access) (w.visitMap access)
  visitEnum : ∀ access, SameResult (v.visitEnum access) (w.visitEnum access)

/-- The implementations of `Deserialize`: the visitor of each type. -/
abbrev Impls (F : Type) := Head F → Visitor F (Data F)

section Deserialize

variable (engine : Engine) (own : Own F) (S : Impls F)

def Impls.Documented [Floats F] : Prop := ∀ head, (S head).Same (standard engine own head)

theorem Visitor.same_refl {α : Type} (v : Visitor F α) : v.Same v where
  visitUnit _ := Iff.rfl
  visitBool _ _ := Iff.rfl
  visitI64 _ _ := Iff.rfl
  visitU64 _ _ := Iff.rfl
  visitF64 _ _ := Iff.rfl
  visitString _ _ := Iff.rfl
  visitByteBuf _ _ := Iff.rfl
  visitNone _ := Iff.rfl
  visitSome _ _ := Iff.rfl
  visitNewtypeStruct _ _ := Iff.rfl
  visitSeq _ _ := Iff.rfl
  visitMap _ _ := Iff.rfl
  visitEnum _ _ := Iff.rfl

theorem standard_documented [Floats F] :
    Impls.Documented engine own (standard engine own) :=
  fun head => (standard engine own head).same_refl

/-- The method of the `Deserializer` that a type calls. -/
def Head.ask (visitor : Visitor F (Data F)) : Head F → Obj F → Except Err (Data F)
  | .option _ => deserializeOption visitor
  | .newtypeStruct _ => deserializeNewtypeStruct visitor
  | .enum _ => deserializeEnum own visitor
  | _ => deserializeAny engine own visitor

/-- A missing field is `None` if it is an option. -/
def Head.absent : Head F → Option (Data F)
  | .option _ => some .none
  | _ => none

def Head.seed (head : Head F) : Seed F where
  deserialize := head.ask engine own (S head)
  absent := head.absent

mutual

def Ty.head : Ty → Head F
  | .unit => .unit
  | .bool => .bool
  | .int k => .int k
  | .f32 => .f32
  | .f64 => .f64
  | .char => .char
  | .string => .string
  | .bytes => .bytes
  | .option t => .option (t.head.seed engine own S)
  | .unitStruct => .unitStruct
  | .newtypeStruct t => .newtypeStruct (t.head.seed engine own S)
  | .seq t => .seq (t.head.seed engine own S)
  | .tuple ts => .tuple (seeds ts)
  | .tupleStruct ts => .tupleStruct (seeds ts)
  | .map key value => .map (key.head.seed engine own S) (value.head.seed engine own S)
  | .struct fields => .struct (fieldSeeds fields)
  | .enum variants => .enum (variantSeeds variants)

def Shape.seed : Shape → VariantSeed F
  | .unit => .unit
  | .newtype t => .newtype (t.head.seed engine own S)
  | .tuple ts => .tuple (seeds ts)
  | .struct fields => .struct (fieldSeeds fields)

def seeds : List Ty → List (Seed F)
  | [] => []
  | t :: ts => t.head.seed engine own S :: seeds ts

def fieldSeeds : List (Str × Ty) → List (Str × Seed F)
  | [] => []
  | (name, t) :: fields => (name, t.head.seed engine own S) :: fieldSeeds fields

def variantSeeds : List (Str × Shape) → List (Str × VariantSeed F)
  | [] => []
  | (name, shape) :: variants => (name, shape.seed) :: variantSeeds variants

end

/-- `Deserialize::deserialize` of a type, with the `Deserializer` of a value. -/
def deserialize (t : Ty) (value : Obj F) : Except Err (Data F) :=
  ((t.head engine own S).seed engine own S).deserialize value

theorem seeds_eq (ts : List Ty) :
    seeds engine own S ts = ts.map fun t => (t.head engine own S).seed engine own S := by
  induction ts with
  | nil => rfl
  | cons t ts ih => simp [seeds, ih]

theorem fieldSeeds_eq (fields : List (Str × Ty)) :
    fieldSeeds engine own S fields =
      fields.map fun f => (f.1, (f.2.head engine own S).seed engine own S) := by
  induction fields with
  | nil => rfl
  | cons field fields ih => simp [fieldSeeds, ih]

theorem fieldSeeds_names (fields : List (Str × Ty)) :
    (fieldSeeds engine own S fields).map Prod.fst = fields.map Prod.fst := by
  simp [fieldSeeds_eq, Function.comp_def]

theorem variantSeeds_eq (variants : List (Str × Shape)) :
    variantSeeds engine own S variants =
      variants.map fun v => (v.1, v.2.seed engine own S) := by
  induction variants with
  | nil => rfl
  | cons variant variants ih => simp [variantSeeds, ih]

end Deserialize

end GuestPy.Marshal
