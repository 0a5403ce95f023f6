import GuestPy.Library.Results
import GuestPy.Marshal.Objects

/-!
# The serde bridge

Values of the serde data model, as guest objects.

* `serialize` makes the calls that a value of the data model makes of the `Serializer`.
* The `Deserializer` looks at a guest object and calls a method of a `Visitor`. Sequences,
  dictionaries and enums are handed to it as an access, from which it reads what is in them.

The length and the names that serde passes along, which the bridge does not read, are left out.
-/

namespace GuestPy.Marshal

variable {F : Type}

/-- The serde data model. An `f32` is kept as the `f64` it is converted to. -/
inductive Data (F : Type) where
  | unit
  | bool (b : Bool)
  | int (k : IntType) (n : Int)
  | f32 (x : F)
  | f64 (x : F)
  | char (c : Char)
  | string (s : Str)
  | bytes (b : List UInt8)
  | none
  | some (value : Data F)
  | unitStruct
  | newtypeStruct (value : Data F)
  | seq (values : List (Data F))
  | tuple (values : List (Data F))
  | tupleStruct (values : List (Data F))
  | map (entries : List (Data F × Data F))
  | struct (fields : List (Str × Data F))
  | unitVariant (variant : Str)
  | newtypeVariant (variant : Str) (value : Data F)
  | tupleVariant (variant : Str) (values : List (Data F))
  | structVariant (variant : Str) (fields : List (Str × Data F))

/-! ## The serializer -/

namespace Serializer

/-- An integer, if it has 64 bits at most. -/
def serializeInt (k : IntType) (n : Int) : Except Err (Obj F) :=
  if k.isNarrow then .ok (.int n)
  else .error (.conversion "128-bit integers are not supported by the Python value format")

/-- `SeqSerializer` and `TupleSerializer`. -/
structure SeqSerializer (F : Type) where
  items : List (Obj F) := []

/-- Adds an element, unless it cannot be serialised. -/
def SeqSerializer.serializeElement (s : SeqSerializer F) (value : Except Err (Obj F)) :
    Except Err (SeqSerializer F) := do
  let value ← value
  return { s with items := s.items ++ [value] }

/-- The entries so far, and the key whose value comes next. -/
structure MapSerializer (F : Type) where
  pairs : List (Obj F × Obj F) := []
  key : Option (Obj F) := .none

/-- Keeps the key of the next value. -/
def MapSerializer.serializeKey (s : MapSerializer F) (key : Except Err (Obj F)) :
    Except Err (MapSerializer F) := do
  let key ← key
  return { s with key := some key }

/-- The key is taken before the value is serialised. -/
def MapSerializer.serializeValue (s : MapSerializer F) (value : Except Err (Obj F)) :
    Except Err (MapSerializer F) :=
  match s.key with
  | .none => .error (.conversion "serialize_value called before serialize_key")
  | some key => do
    let value ← value
    return { pairs := s.pairs ++ [(key, value)], key := .none }

/-- `StructSerializer`. -/
structure StructSerializer (F : Type) where
  pairs : List (Obj F × Obj F) := []

/-- Adds a field under its name. -/
def StructSerializer.serializeField (s : StructSerializer F) (key : Str)
    (value : Except Err (Obj F)) : Except Err (StructSerializer F) := do
  let value ← value
  return { s with pairs := s.pairs ++ [(.str key, value)] }

end Serializer

section Serialize

open Serializer

variable [Floats F]

mutual

/-- `Serialize::serialize` with the `Serializer`. -/
def serialize : Data F → Except Err (Obj F)
  | .unit => .ok .none
  | .bool b => .ok (.bool b)
  | .int k n => serializeInt k n
  | .f32 x => .ok (.float x)
  | .f64 x => .ok (.float x)
  | .char c => .ok (.str [c])
  | .string s => .ok (.str s)
  | .bytes b => .ok (.bytes b)
  | .none => .ok .none
  | .some value => serialize value
  | .unitStruct => .ok .none
  | .newtypeStruct value => serialize value
  | .seq values => do return .list (← serializeElements {} values).items
  | .tuple values => do return .tuple (← serializeElements {} values).items
  | .tupleStruct values => do return .tuple (← serializeElements {} values).items
  | .map entries => do dict (← serializeEntries {} entries).pairs
  | .struct fields => do dict (← serializeFields {} fields).pairs
  | .unitVariant variant => .ok (.str variant)
  | .newtypeVariant variant value => do dict [(.str variant, ← serialize value)]
  | .tupleVariant variant values => do
    dict [(.str variant, .tuple (← serializeElements {} values).items)]
  | .structVariant variant fields => do
    let payload ← dict (← serializeFields {} fields).pairs
    dict [(.str variant, payload)]

/-- The elements of a sequence, in their order. -/
def serializeElements : SeqSerializer F → List (Data F) → Except Err (SeqSerializer F)
  | s, [] => .ok s
  | s, value :: values => do
    let s ← s.serializeElement (serialize value)
    serializeElements s values

/-- The entries of a map, in their order. -/
def serializeEntries : MapSerializer F → List (Data F × Data F) → Except Err (MapSerializer F)
  | s, [] => .ok s
  | s, (key, value) :: entries => do
    let s ← s.serializeKey (serialize key)
    let s ← s.serializeValue (serialize value)
    serializeEntries s entries

/-- The fields of a struct, in their order. -/
def serializeFields : StructSerializer F → List (Str × Data F) → Except Err (StructSerializer F)
  | s, [] => .ok s
  | s, (key, value) :: fields => do
    let s ← s.serializeField key (serialize value)
    serializeFields s fields

end

end Serialize

/-! ## The deserializer -/

/-- `SeqAccess`: what is left of the iteration. -/
abbrev SeqAccess (F : Type) := Steps F

/-- `MapAccess`: what is left of the iteration over the keys, and the value of the last key. -/
structure MapAccess (F : Type) where
  iterator : Steps F
  pending : Option (Obj F) := .none

/-- `EnumAccess`, and `VariantAccess` once the variant is known. -/
structure EnumAccess (F : Type) where
  variant : Obj F
  payload : Option (Obj F)

/-- A serde visitor. An option and a newtype are handed the value itself, for the type within
to be deserialised from. -/
structure Visitor (F α : Type) where
  visitUnit : Except Err α
  visitBool : Bool → Except Err α
  visitI64 : Int → Except Err α
  visitU64 : Int → Except Err α
  visitF64 : F → Except Err α
  visitString : Str → Except Err α
  visitByteBuf : List UInt8 → Except Err α
  visitNone : Except Err α
  visitSome : Obj F → Except Err α
  visitNewtypeStruct : Obj F → Except Err α
  visitSeq : SeqAccess F → Except Err α
  visitMap : MapAccess F → Except Err α
  visitEnum : EnumAccess F → Except Err α

namespace SeqAccess

/-- Begins to iterate over the elements. -/
def new (own : Own F) (value : Obj F) : Except Err (SeqAccess F) := value.iter own

/-- The next element, if there is one. -/
def nextElementSeed {α : Type} (seed : Obj F → Except Err α) :
    SeqAccess F → Except Err (Option α × SeqAccess F)
  | [] => .ok (.none, [])
  | step :: rest => do
    let (value, _) ← step
    let value ← seed value
    return (some value, rest)

end SeqAccess

namespace MapAccess

/-- Begins to iterate over the keys. -/
def new (own : Own F) (value : Obj F) : Except Err (MapAccess F) := do
  return { iterator := ← value.iter own }

/-- The next key, if there is one. Its value is looked up first. -/
def nextKeySeed {α : Type} (seed : Obj F → Except Err α) (access : MapAccess F) :
    Except Err (Option α × MapAccess F) :=
  match access.iterator with
  | [] => .ok (.none, access)
  | step :: rest => do
    let (key, item) ← step
    let item ← item
    let key ← seed key
    return (some key, { iterator := rest, pending := some item })

/-- The value of the last key. -/
def nextValueSeed {α : Type} (seed : Obj F → Except Err α) (access : MapAccess F) :
    Except Err (α × MapAccess F) :=
  match access.pending with
  | .none => .error (.conversion "next_value_seed called before next_key_seed")
  | some item => do
    let value ← seed item
    return (value, { access with pending := .none })

end MapAccess

namespace EnumAccess

/-- Which variant it is. -/
def variantSeed {α : Type} (seed : Obj F → Except Err α) (access : EnumAccess F) :
    Except Err α :=
  seed access.variant

/-- What the variant carries. -/
def getPayload (access : EnumAccess F) : Except Err (Obj F) :=
  match access.payload with
  | some payload => .ok payload
  | .none => .error (.conversion "expected a payload for the enum variant")

/-- A variant that carries nothing. -/
def unitVariant (access : EnumAccess F) : Except Err Unit :=
  match access.payload with
  | .none => .ok ()
  | some _ => .error (.conversion "expected a unit enum variant")

/-- A variant that carries one value. -/
def newtypeVariantSeed {α : Type} (seed : Obj F → Except Err α) (access : EnumAccess F) :
    Except Err α := do
  seed (← access.getPayload)

/-- A variant that carries a sequence. -/
def tupleVariant {α : Type} (own : Own F) (visitor : Visitor F α) (access : EnumAccess F) :
    Except Err α := do
  visitor.visitSeq (← SeqAccess.new own (← access.getPayload))

/-- A variant that carries fields. -/
def structVariant {α : Type} (own : Own F) (visitor : Visitor F α) (access : EnumAccess F) :
    Except Err α := do
  visitor.visitMap (← MapAccess.new own (← access.getPayload))

end EnumAccess

namespace Deserializer

variable {α : Type}

/-- Calls the method for the kind of value that the object is. -/
def deserializeAny (engine : Engine) (own : Own F) (visitor : Visitor F α) (value : Obj F) :
    Except Err α :=
  if value.isNone then visitor.visitUnit
  else if value.isBool then do visitor.visitBool (← value.asBool)
  else if value.isInt then
    match value.asI64 with
    | .ok n => visitor.visitI64 n
    | .error _ => do visitor.visitU64 (← value.asU64)
  else if value.isFloat then do visitor.visitF64 (← value.asF64)
  else if value.isStr then do visitor.visitString (← value.asStr engine)
  else if value.isBytes then do visitor.visitByteBuf (← value.asBytes)
  else if value.isList || value.isTuple || value.isSet then do
    visitor.visitSeq (← SeqAccess.new own value)
  else if value.isDict then do visitor.visitMap (← MapAccess.new own value)
  else .error (.conversion ("cannot deserialize a Python value of type " ++ value.typeName))

/-- `None`, or the value itself. -/
def deserializeOption (visitor : Visitor F α) (value : Obj F) : Except Err α :=
  if value.isNone then visitor.visitNone else visitor.visitSome value

/-- The value itself. -/
def deserializeNewtypeStruct (visitor : Visitor F α) (value : Obj F) : Except Err α :=
  visitor.visitNewtypeStruct value

/-- A text is a variant that carries nothing, a dictionary of one entry one that does. -/
def deserializeEnum (own : Own F) (visitor : Visitor F α) (value : Obj F) : Except Err α :=
  if value.isStr then visitor.visitEnum { variant := value, payload := .none }
  else if !value.isDict then
    .error (.conversion ("expected str or dict, got " ++ value.typeName))
  else do
    match ← value.iter own with
    | [] => .error (.conversion "expected a single-key dict for an enum variant")
    | first :: rest =>
      let (variant, item) ← first
      match rest with
      | [] => visitor.visitEnum { variant := variant, payload := some (← item) }
      | second :: _ =>
        let _ ← second
        .error (.conversion "expected exactly one key for an enum variant")

end Deserializer

end GuestPy.Marshal
