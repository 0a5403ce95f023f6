import GuestPy.Marshal.Visitors

/-!
# Serialising and deserialising again

A value of a type that is serialised and deserialised at the type is the value it was, if no
`Some` in it becomes `None` and no map in it has two keys that are equal in Python.

* `serializeElements_ok`, `serializeEntries_ok` and `serializeFields_ok` say what the compound
  serialisers collect.
* A seed `Restores` a value if it deserialises what the value is serialised to. There is a lemma
  for each shape of a type, and `HasType.restores` puts them together along the type.
-/

namespace GuestPy.Marshal

open Results Serializer Deserializer

variable {F : Type}

/-! ## Values of a type -/

section Types

variable [Floats F]

mutual

/-- Values of a type. The names of the fields of a struct, and of the variants of an enum, are
distinct. -/
def HasType : Ty → Data F → Prop
  | .unit, .unit => True
  | .bool, .bool _ => True
  | .int k, .int k' n => k' = k ∧ k.fits n = true
  | .f32, .f32 x => Floats.single x = x
  | .f64, .f64 _ => True
  | .char, .char _ => True
  | .string, .string _ => True
  | .bytes, .bytes _ => True
  | .option _, .none => True
  | .option t, .some d => HasType t d
  | .unitStruct, .unitStruct => True
  | .newtypeStruct t, .newtypeStruct d => HasType t d
  | .seq t, .seq ds => ∀ d ∈ ds, HasType t d
  | .tuple ts, .tuple ds => HaveTypes ts ds
  | .tupleStruct ts, .tupleStruct ds => HaveTypes ts ds
  | .map key value, .map es => ∀ e ∈ es, HasType key e.1 ∧ HasType value e.2
  | .struct fields, .struct ds => (fields.map Prod.fst).Nodup ∧ FieldsHaveTypes fields ds
  | .enum variants, d => (variants.map Prod.fst).Nodup ∧ OneHasType variants d
  | _, _ => False

def HaveTypes : List Ty → List (Data F) → Prop
  | [], [] => True
  | t :: ts, d :: ds => HasType t d ∧ HaveTypes ts ds
  | _, _ => False

def FieldsHaveTypes : List (Str × Ty) → List (Str × Data F) → Prop
  | [], [] => True
  | (name, t) :: fields, (name', d) :: ds =>
    name' = name ∧ HasType t d ∧ FieldsHaveTypes fields ds
  | _, _ => False

def Shape.HasType (name : Str) : Shape → Data F → Prop
  | .unit, .unitVariant variant => variant = name
  | .newtype t, .newtypeVariant variant d => variant = name ∧ Marshal.HasType t d
  | .tuple ts, .tupleVariant variant ds => variant = name ∧ HaveTypes ts ds
  | .struct fields, .structVariant variant ds =>
    variant = name ∧ (fields.map Prod.fst).Nodup ∧ FieldsHaveTypes fields ds
  | _, _ => False

def OneHasType : List (Str × Shape) → Data F → Prop
  | [], _ => False
  | (name, shape) :: variants, d => shape.HasType name d ∨ OneHasType variants d

end

mutual

/-- No `Some` becomes `None`, and no map has equal keys. -/
def Lossless : Data F → Prop
  | .some d => serialize d ≠ .ok .none ∧ Lossless d
  | .newtypeStruct d => Lossless d
  | .seq ds => AllLossless ds
  | .tuple ds => AllLossless ds
  | .tupleStruct ds => AllLossless ds
  | .map es =>
    (∀ s, serializeEntries {} es = .ok s → DistinctKeys (s.pairs.map Prod.fst)) ∧
      EntriesLossless es
  | .struct fields => FieldsLossless fields
  | .newtypeVariant _ d => Lossless d
  | .tupleVariant _ ds => AllLossless ds
  | .structVariant _ fields => FieldsLossless fields
  | _ => True

def AllLossless : List (Data F) → Prop
  | [] => True
  | d :: ds => Lossless d ∧ AllLossless ds

def EntriesLossless : List (Data F × Data F) → Prop
  | [] => True
  | (key, value) :: es => Lossless key ∧ Lossless value ∧ EntriesLossless es

def FieldsLossless : List (Str × Data F) → Prop
  | [] => True
  | (_, d) :: fields => Lossless d ∧ FieldsLossless fields

end

theorem AllLossless.mem {ds : List (Data F)} (h : AllLossless ds) {d : Data F} (hd : d ∈ ds) :
    Lossless d := by
  induction ds with
  | nil => cases hd
  | cons d' ds ih =>
    obtain ⟨hd', hds⟩ := h
    rcases List.mem_cons.mp hd with rfl | hd
    · exact hd'
    · exact ih hds hd

theorem EntriesLossless.mem {es : List (Data F × Data F)} (h : EntriesLossless es)
    {e : Data F × Data F} (he : e ∈ es) : Lossless e.1 ∧ Lossless e.2 := by
  induction es with
  | nil => cases he
  | cons e' es ih =>
    obtain ⟨hkey, hvalue, hes⟩ := h
    rcases List.mem_cons.mp he with rfl | he
    · exact ⟨hkey, hvalue⟩
    · exact ih hes he

end Types

/-! ## What is serialised -/

section Serialized

variable [Floats F]

/-- The object is what the value is serialised to. -/
def Becomes (d : Data F) (o : Obj F) : Prop := serialize d = .ok o

theorem serializeElements_ok {ds : List (Data F)} {s s' : SeqSerializer F}
    (h : serializeElements s ds = .ok s') :
    ∃ os, s'.items = s.items ++ os ∧ List.Forall₂ Becomes ds os := by
  induction ds generalizing s with
  | nil =>
    cases h
    exact ⟨[], by simp, .nil⟩
  | cons d ds ih =>
    obtain ⟨s₁, hs₁, h⟩ := bind_eq_ok.mp h
    obtain ⟨o, ho, hs₁⟩ := bind_eq_ok.mp hs₁
    cases hs₁
    obtain ⟨os, hos, hall⟩ := ih h
    exact ⟨o :: os, by simpa using hos, .cons ho hall⟩

theorem serializeEntries_ok {es : List (Data F × Data F)} {s s' : MapSerializer F}
    (h : serializeEntries s es = .ok s') :
    ∃ ps, s'.pairs = s.pairs ++ ps ∧
      List.Forall₂ (fun e p => Becomes e.1 p.1 ∧ Becomes e.2 p.2) es ps := by
  induction es generalizing s with
  | nil =>
    cases h
    exact ⟨[], by simp, .nil⟩
  | cons e es ih =>
    obtain ⟨s₁, hs₁, h⟩ := bind_eq_ok.mp h
    obtain ⟨key, hkey, hs₁⟩ := bind_eq_ok.mp hs₁
    cases hs₁
    obtain ⟨s₂, hs₂, h⟩ := bind_eq_ok.mp h
    obtain ⟨value, hvalue, hs₂⟩ := bind_eq_ok.mp hs₂
    cases hs₂
    obtain ⟨ps, hps, hall⟩ := ih h
    exact ⟨(key, value) :: ps, by simpa using hps, .cons ⟨hkey, hvalue⟩ hall⟩

theorem serializeFields_ok {fields : List (Str × Data F)} {s s' : StructSerializer F}
    (h : serializeFields s fields = .ok s') :
    ∃ ps, s'.pairs = s.pairs ++ ps ∧
      List.Forall₂ (fun field p => p.1 = .str field.1 ∧ Becomes field.2 p.2) fields ps := by
  induction fields generalizing s with
  | nil =>
    cases h
    exact ⟨[], by simp, .nil⟩
  | cons field fields ih =>
    obtain ⟨s₁, hs₁, h⟩ := bind_eq_ok.mp h
    obtain ⟨o, ho, hs₁⟩ := bind_eq_ok.mp hs₁
    cases hs₁
    obtain ⟨ps, hps, hall⟩ := ih h
    exact ⟨(.str field.1, o) :: ps, by simpa using hps, .cons ⟨rfl, ho⟩ hall⟩

theorem distinctKeys_of_names {fields : List (Str × Data F)} {ps : List (Obj F × Obj F)}
    (hn : (fields.map Prod.fst).Nodup)
    (h : List.Forall₂ (fun field p => p.1 = .str field.1 ∧ Becomes field.2 p.2) fields ps) :
    DistinctKeys (ps.map Prod.fst) := by
  have hkeys : ps.map Prod.fst = (fields.map Prod.fst).map Obj.str := by
    clear hn
    induction h with
    | nil => rfl
    | cons hp _ ih => simp [hp.1, ih]
  rw [DistinctKeys, hkeys, List.pairwise_map]
  refine hn.imp ?_
  intro a b hab
  simpa [Obj.eqv] using hab

end Serialized

/-! ## What visitors read -/

section Visitors

variable [Floats F] {engine : Engine} {own : Own F} {S : Impls F}

/-- The seed gives the value back. -/
def Restores (seed : Seed F) (d : Data F) : Prop :=
  ∀ o, Becomes d o → seed.deserialize o = .ok d

theorem collect_ok {seed : Seed F} {ds : List (Data F)} {os : List (Obj F)}
    (g : Obj F → Except Err (Obj F)) (h : List.Forall₂ Becomes ds os)
    (hr : ∀ d ∈ ds, Restores seed d) :
    collect seed (os.map fun o => .ok (o, g o)) = .ok ds := by
  induction h with
  | nil => rfl
  | @cons d o ds os ho _ ih =>
    have hd := hr d List.mem_cons_self o ho
    have hds := ih fun d' hd' => hr d' (List.mem_cons_of_mem _ hd')
    simp [collect, SeqAccess.nextElementSeed, hd, hds, pure_eq_ok]

theorem each_ok {seeds : List (Seed F)} {ds : List (Data F)} {os : List (Obj F)}
    (g : Obj F → Except Err (Obj F)) (h : List.Forall₂ Becomes ds os)
    (hr : List.Forall₂ Restores seeds ds) :
    each seeds (os.map fun o => .ok (o, g o)) = .ok ds := by
  induction hr generalizing os with
  | nil => rfl
  | @cons seed d seeds ds hd _ ih =>
    cases h with
    | @cons _ o _ os ho hos =>
      have hd := hd o ho
      have hds := ih hos
      simp [each, SeqAccess.nextElementSeed, hd, hds, pure_eq_ok]

theorem collectEntries_ok {key value : Seed F} {es : List (Data F × Data F)}
    {ps : List (Obj F × Obj F)}
    (h : List.Forall₂ (fun e p => Becomes e.1 p.1 ∧ Becomes e.2 p.2) es ps)
    (hr : ∀ e ∈ es, Restores key e.1 ∧ Restores value e.2) :
    collectEntries key value (ps.map fun p => .ok (p.1, .ok p.2)) = .ok es := by
  induction h with
  | nil => rfl
  | @cons e p es ps hp _ ih =>
    have hkey := (hr e List.mem_cons_self).1 p.1 hp.1
    have hvalue := (hr e List.mem_cons_self).2 p.2 hp.2
    have hes := ih fun e' he' => hr e' (List.mem_cons_of_mem _ he')
    simp [collectEntries, MapAccess.nextKeySeed, MapAccess.nextValueSeed, hkey, hvalue, hes,
      pure_eq_ok]

omit [Floats F] in
theorem identify_str (names : List Str) (name : Str) :
    identify engine own names (.str name) = .ok (names.idxOf? name) := by
  simp [identify, deserializeAny, named, Obj.isNone, Obj.isBool, Obj.isInt, Obj.isFloat,
    Obj.isStr, Obj.asStr]

theorem idxOf?_append_cons {name : Str} {before after : List Str} (h : name ∉ before) :
    (before ++ name :: after).idxOf? name = some before.length := by
  induction before with
  | nil => simp [List.idxOf?_cons]
  | cons x before ih =>
    have hx : (x == name) = false := by
      simp only [beq_eq_false_iff_ne]
      rintro rfl
      exact h List.mem_cons_self
    have hrest := ih fun hmem => h (List.mem_cons_of_mem _ hmem)
    simp [List.idxOf?_cons, hx, hrest]

/-- A field and its seed, with a field of that name and its value. -/
def FieldRestores (field : Str × Seed F) (value : Str × Data F) : Prop :=
  value.1 = field.1 ∧ Restores field.2 value.2

theorem names_eq {fields : List (Str × Seed F)} {ds : List (Str × Data F)}
    (hr : List.Forall₂ FieldRestores fields ds) : ds.map Prod.fst = fields.map Prod.fst := by
  induction hr with
  | nil => rfl
  | cons hd _ ih => simp [hd.1, ih]

theorem collectFields_ok (before : List (Str × Seed F)) (slots : List (Option (Data F)))
    {fields after : List (Str × Seed F)} {ds : List (Str × Data F)} {ps : List (Obj F × Obj F)}
    (hfields : fields = before ++ after) (hn : (fields.map Prod.fst).Nodup)
    (hslots : slots.length = before.length)
    (hr : List.Forall₂ FieldRestores after ds)
    (h : List.Forall₂ (fun field p => p.1 = .str field.1 ∧ Becomes field.2 p.2) ds ps) :
    collectFields engine own fields (slots ++ after.map fun _ => none)
        (ps.map fun p => .ok (p.1, .ok p.2)) =
      .ok (slots ++ ds.map fun d => some d.2) := by
  induction hr generalizing before slots ps with
  | nil =>
    cases h
    simp [collectFields]
  | @cons field d after ds hd _ ih =>
    cases h with
    | @cons _ p _ ps hp hps =>
      obtain ⟨hname, hrestores⟩ := hd
      have hvalue := hrestores p.2 hp.2
      have hnew : field.1 ∉ before.map Prod.fst := by
        intro hmem
        rw [hfields, List.map_append, List.nodup_append] at hn
        exact hn.2.2 _ hmem field.1 (by simp) rfl
      have hkey : identify engine own (fields.map Prod.fst) p.1 = .ok (some before.length) := by
        rw [hp.1, hname, identify_str, hfields, List.map_append, List.map_cons,
          idxOf?_append_cons hnew, List.length_map]
      have hfield : fields[before.length]? = some field := by simp [hfields]
      have hrest := ih (before ++ [field]) (slots ++ [some d.2]) (by simp [hfields])
        (by simp [hslots]) hps
      have hfree : ((slots ++ none :: after.map fun _ => none)[before.length]?.join).isSome =
          false := by
        simp [← hslots]
      have hset : (slots ++ none :: after.map fun _ => none).set before.length (some d.2) =
          slots ++ some d.2 :: after.map fun _ => none := by
        simp [← hslots]
      simp only [List.map_cons, collectFields, MapAccess.nextKeySeed, ok_bind, hkey, pure_eq_ok,
        Option.bind_some, hfield, Option.map_some, hfree, Bool.false_eq_true, if_false,
        MapAccess.nextValueSeed, hvalue, hset]
      simpa using hrest

theorem settle_ok {fields : List (Str × Seed F)} {ds : List (Str × Data F)}
    (hr : List.Forall₂ FieldRestores fields ds) :
    settle fields (ds.map fun d => some d.2) = .ok ds := by
  induction hr with
  | nil => rfl
  | @cons field d fields ds hd _ ih =>
    have hpair : (field.1, d.2) = d := by rw [← hd.1]
    simp [settle, ih, hpair, pure_eq_ok]

theorem fielded_ok {fields : List (Str × Seed F)} {ds : List (Str × Data F)}
    {ps : List (Obj F × Obj F)} (hn : (fields.map Prod.fst).Nodup)
    (hr : List.Forall₂ FieldRestores fields ds)
    (h : List.Forall₂ (fun field p => p.1 = .str field.1 ∧ Becomes field.2 p.2) ds ps) :
    (fielded engine own fields).visitMap { iterator := ps.map fun p => .ok (p.1, .ok p.2) } =
      .ok ds := by
  have hcollect : collectFields engine own fields (fields.map fun _ => none)
      (ps.map fun p => .ok (p.1, .ok p.2)) = .ok (ds.map fun d => some d.2) := by
    simpa using collectFields_ok [] [] rfl hn rfl hr h
  simp only [fielded, hcollect, ok_bind, settle_ok hr]

end Visitors

/-! ## One shape at a time -/

section Shapes

variable [Floats F] {engine : Engine} {own : Own F} {S : Impls F}

theorem restores_unit (hS : S.Documented engine own) :
    Restores (Head.unit.seed engine own S) .unit := by
  intro o h
  cases h
  exact ((hS .unit).visitUnit _).mpr rfl

theorem restores_bool (hS : S.Documented engine own) (b : Bool) :
    Restores (Head.bool.seed engine own S) (.bool b) := by
  intro o h
  cases h
  exact ((hS .bool).visitBool b _).mpr rfl

/-- An integer that is too large to be read as an `i64` is of an unsigned type. -/
theorem restores_int (hS : S.Documented engine own) {k : IntType} {n : Int}
    (hfits : k.fits n = true) : Restores ((Head.int k).seed engine own S) (.int k n) := by
  intro o h
  have hvalue : ofInt (F := F) k n = .ok (.int k n) := by simp [ofInt, hfits]
  have h : serializeInt k n = .ok o := h
  unfold serializeInt at h
  split at h
  · rename_i hnarrow
    cases h
    by_cases hi : IntType.i64.fits n = true
    · have hread : (Obj.int n : Obj F).asI64 = .ok n := by simp [Obj.asI64, Obj.extract, Obj.index, hi]
      have hvisit := ((hS (.int k)).visitI64 n _).mpr hvalue
      simpa [Head.seed, Head.ask, deserializeAny, Obj.isNone, Obj.isBool, Obj.isInt, hread]
        using hvisit
    · have hsigned : k.signed = false := by
        by_contra hs
        exact hi (IntType.fits_i64_of_signed hnarrow (by simpa using hs) hfits)
      have hu := IntType.fits_u64_of_unsigned hnarrow hsigned hfits
      have hread : (Obj.int n : Obj F).asI64 = .error (Obj.raise "OverflowError") := by
        simp [Obj.asI64, Obj.extract, Obj.index, hi]
      have hread' : (Obj.int n : Obj F).asU64 = .ok n := by
        simp [Obj.asU64, Obj.extract, Obj.index, hu]
      have hvisit := ((hS (.int k)).visitU64 n _).mpr hvalue
      simpa [Head.seed, Head.ask, deserializeAny, Obj.isNone, Obj.isBool, Obj.isInt, hread,
        hread'] using hvisit
  · cases h

theorem restores_f32 (hS : S.Documented engine own) {x : F} (hx : Floats.single x = x) :
    Restores (Head.f32.seed engine own S) (.f32 x) := by
  intro o h
  cases h
  refine ((hS .f32).visitF64 x _).mpr ?_
  simp [standard, hx]

theorem restores_f64 (hS : S.Documented engine own) (x : F) :
    Restores (Head.f64.seed engine own S) (.f64 x) := by
  intro o h
  cases h
  exact ((hS .f64).visitF64 x _).mpr rfl

theorem restores_char (hS : S.Documented engine own) (c : Char) :
    Restores (Head.char.seed engine own S) (.char c) := by
  intro o h
  cases h
  exact ((hS .char).visitString [c] _).mpr rfl

theorem restores_string (hS : S.Documented engine own) (s : Str) :
    Restores (Head.string.seed engine own S) (.string s) := by
  intro o h
  cases h
  exact ((hS .string).visitString s _).mpr rfl

theorem restores_bytes (hS : S.Documented engine own) (b : List UInt8) :
    Restores (Head.bytes.seed engine own S) (.bytes b) := by
  intro o h
  cases h
  exact ((hS .bytes).visitByteBuf b _).mpr rfl

theorem restores_none (hS : S.Documented engine own) (seed : Seed F) :
    Restores ((Head.option seed).seed engine own S) .none := by
  intro o h
  cases h
  exact ((hS (.option seed)).visitNone _).mpr rfl

/-- What a payload becomes is not `None`, so it is looked at. -/
theorem restores_some (hS : S.Documented engine own) {seed : Seed F} {d : Data F}
    (hr : Restores seed d) (hd : serialize d ≠ .ok .none) :
    Restores ((Head.option seed).seed engine own S) (.some d) := by
  intro o h
  have ho : Becomes d o := h
  have hnone : o.isNone = false := by
    cases o <;> first | rfl | exact absurd ho hd
  have hvisit := ((hS (.option seed)).visitSome o (.some d)).mpr (by
    simp [standard, hr o ho, pure_eq_ok])
  simpa [Head.seed, Head.ask, deserializeOption, hnone] using hvisit

theorem restores_unitStruct (hS : S.Documented engine own) :
    Restores (Head.unitStruct.seed engine own S) .unitStruct := by
  intro o h
  cases h
  exact ((hS .unitStruct).visitUnit _).mpr rfl

theorem restores_newtypeStruct (hS : S.Documented engine own) {seed : Seed F} {d : Data F}
    (hr : Restores seed d) :
    Restores ((Head.newtypeStruct seed).seed engine own S) (.newtypeStruct d) := by
  intro o h
  have ho : Becomes d o := h
  refine ((hS (.newtypeStruct seed)).visitNewtypeStruct o _).mpr ?_
  simp [standard, hr o ho, pure_eq_ok]

theorem restores_seq (hS : S.Documented engine own) {seed : Seed F} {ds : List (Data F)}
    (hr : ∀ d ∈ ds, Restores seed d) :
    Restores ((Head.seq seed).seed engine own S) (.seq ds) := by
  intro o h
  obtain ⟨s, hs, ho⟩ := bind_eq_ok.mp h
  obtain ⟨os, hos, hall⟩ := serializeElements_ok hs
  cases ho
  refine ((hS (.seq seed)).visitSeq _ _).mpr ?_
  simp only [List.nil_append] at hos
  simp [standard, hos, Obj.items, collect_ok _ hall hr, pure_eq_ok]

theorem restores_tuple (hS : S.Documented engine own) {seeds : List (Seed F)}
    {ds : List (Data F)} (hr : List.Forall₂ Restores seeds ds) :
    Restores ((Head.tuple seeds).seed engine own S) (.tuple ds) := by
  intro o h
  obtain ⟨s, hs, ho⟩ := bind_eq_ok.mp h
  obtain ⟨os, hos, hall⟩ := serializeElements_ok hs
  cases ho
  refine ((hS (.tuple seeds)).visitSeq _ _).mpr ?_
  simp only [List.nil_append] at hos
  simp [standard, positional, hos, Obj.items, each_ok _ hall hr, pure_eq_ok]

theorem restores_tupleStruct (hS : S.Documented engine own) {seeds : List (Seed F)}
    {ds : List (Data F)} (hr : List.Forall₂ Restores seeds ds) :
    Restores ((Head.tupleStruct seeds).seed engine own S) (.tupleStruct ds) := by
  intro o h
  obtain ⟨s, hs, ho⟩ := bind_eq_ok.mp h
  obtain ⟨os, hos, hall⟩ := serializeElements_ok hs
  cases ho
  refine ((hS (.tupleStruct seeds)).visitSeq _ _).mpr ?_
  simp only [List.nil_append] at hos
  simp [standard, positional, hos, Obj.items, each_ok _ hall hr, pure_eq_ok]

theorem restores_map (hS : S.Documented engine own) {key value : Seed F}
    {es : List (Data F × Data F)} (hr : ∀ e ∈ es, Restores key e.1 ∧ Restores value e.2)
    (hd : ∀ s, serializeEntries {} es = .ok s → DistinctKeys (s.pairs.map Prod.fst)) :
    Restores ((Head.map key value).seed engine own S) (.map es) := by
  intro o h
  obtain ⟨s, hs, ho⟩ := bind_eq_ok.mp h
  obtain ⟨ps, hps, hall⟩ := serializeEntries_ok hs
  have ho := dict_distinct (hd s hs) ho
  subst ho
  refine ((hS (.map key value)).visitMap _ _).mpr ?_
  simp only [List.nil_append] at hps
  simp [standard, hps, collectEntries_ok hall hr, pure_eq_ok]

theorem restores_struct (hS : S.Documented engine own) {fields : List (Str × Seed F)}
    {ds : List (Str × Data F)} (hn : (fields.map Prod.fst).Nodup)
    (hr : List.Forall₂ FieldRestores fields ds) :
    Restores ((Head.struct fields).seed engine own S) (.struct ds) := by
  intro o h
  obtain ⟨s, hs, ho⟩ := bind_eq_ok.mp h
  obtain ⟨ps, hps, hall⟩ := serializeFields_ok hs
  simp only [List.nil_append] at hps
  have ho := dict_distinct (hps ▸ distinctKeys_of_names (names_eq hr ▸ hn) hall) ho
  subst ho
  refine ((hS (.struct fields)).visitMap _ _).mpr ?_
  simp only [standard, hps, fielded_ok hn hr hall, ok_bind, pure_eq_ok]

/-- What a variant is serialised to is taken for that variant, and its payload is read back. -/
def VariantRestores (engine : Engine) (own : Own F) (name : Str) (seed : VariantSeed F)
    (d : Data F) : Prop :=
  ∀ o, Becomes d o → ∃ access : EnumAccess F,
    (∀ v : Visitor F (Data F), deserializeEnum own v o = v.visitEnum access) ∧
      access.variant = .str name ∧ visitVariant engine own access name seed = .ok d

theorem restores_unitVariant (name : Str) :
    VariantRestores engine own name .unit (.unitVariant name) := by
  intro o h
  cases h
  exact ⟨{ variant := .str name, payload := none }, fun _ => rfl, rfl, rfl⟩

/-- A dictionary with the name of the variant as its only key. -/
theorem tagged {name : Str} {payload o : Obj F} (h : dict [(.str name, payload)] = .ok o)
    (v : Visitor F (Data F)) :
    deserializeEnum own v o = v.visitEnum { variant := .str name, payload := some payload } := by
  have ho := dict_distinct (by simp [DistinctKeys]) h
  subst ho
  rfl

theorem restores_newtypeVariant (name : Str) {seed : Seed F} {d : Data F}
    (hr : Restores seed d) :
    VariantRestores engine own name (.newtype seed) (.newtypeVariant name d) := by
  intro o h
  obtain ⟨payload, hpayload, ho⟩ := bind_eq_ok.mp h
  refine ⟨_, tagged ho, rfl, ?_⟩
  have hvalue := hr payload hpayload
  simp [visitVariant, EnumAccess.newtypeVariantSeed, EnumAccess.getPayload, hvalue, pure_eq_ok]

theorem restores_tupleVariant (name : Str) {seeds : List (Seed F)} {ds : List (Data F)}
    (hr : List.Forall₂ Restores seeds ds) :
    VariantRestores engine own name (.tuple seeds) (.tupleVariant name ds) := by
  intro o h
  obtain ⟨s, hs, ho⟩ := bind_eq_ok.mp h
  obtain ⟨os, hos, hall⟩ := serializeElements_ok hs
  refine ⟨_, tagged ho, rfl, ?_⟩
  simp only [List.nil_append] at hos
  simp [visitVariant, EnumAccess.tupleVariant, EnumAccess.getPayload, SeqAccess.new, Obj.iter,
    Obj.items, positional, hos, each_ok _ hall hr, pure_eq_ok]

theorem restores_structVariant (name : Str) {fields : List (Str × Seed F)}
    {ds : List (Str × Data F)} (hn : (fields.map Prod.fst).Nodup)
    (hr : List.Forall₂ FieldRestores fields ds) :
    VariantRestores engine own name (.struct fields) (.structVariant name ds) := by
  intro o h
  obtain ⟨s, hs, ho⟩ := bind_eq_ok.mp h
  obtain ⟨payload, hpayload, ho⟩ := bind_eq_ok.mp ho
  obtain ⟨ps, hps, hall⟩ := serializeFields_ok hs
  simp only [List.nil_append] at hps
  have hdict := dict_distinct (hps ▸ distinctKeys_of_names (names_eq hr ▸ hn) hall) hpayload
  refine ⟨_, tagged ho, rfl, ?_⟩
  simp only [visitVariant, EnumAccess.structVariant, EnumAccess.getPayload, MapAccess.new, hdict,
    Obj.iter, ok_bind, pure_eq_ok, hps, fielded_ok hn hr hall]

theorem restores_enum (hS : S.Documented engine own) {variants : List (Str × VariantSeed F)}
    {before after : List (Str × VariantSeed F)} {name : Str} {seed : VariantSeed F} {d : Data F}
    (hvariants : variants = before ++ (name, seed) :: after)
    (hn : (variants.map Prod.fst).Nodup) (hr : VariantRestores engine own name seed d) :
    Restores ((Head.enum variants).seed engine own S) d := by
  intro o h
  obtain ⟨access, hask, hkey, hvisit⟩ := hr o h
  have hnew : name ∉ before.map Prod.fst := by
    intro hmem
    rw [hvariants, List.map_append, List.nodup_append] at hn
    exact hn.2.2 _ hmem name (by simp) rfl
  have hposition : access.variantSeed (identify engine own (variants.map Prod.fst)) =
      .ok (some before.length) := by
    rw [EnumAccess.variantSeed, hkey, identify_str, hvariants, List.map_append, List.map_cons,
      idxOf?_append_cons hnew, List.length_map]
  have hvariant : variants[before.length]? = some (name, seed) := by simp [hvariants]
  have hvalue : (standard engine own (.enum variants)).visitEnum access = .ok d := by
    simp [standard, hposition, hvariant, hvisit]
  have hsame := ((hS (.enum variants)).visitEnum access d).mpr hvalue
  simpa [Head.seed, Head.ask, hask] using hsame

end Shapes

/-! ## Along the type -/

section Along

variable [Floats F] {engine : Engine} {own : Own F} {S : Impls F}

mutual

theorem HasType.restores (hS : S.Documented engine own) :
    ∀ {t : Ty} {d : Data F}, HasType t d → Lossless d →
      Restores ((t.head engine own S).seed engine own S) d
  | .unit, .unit, _, _ => restores_unit hS
  | .bool, .bool b, _, _ => restores_bool hS b
  | .int _, .int _ _, ⟨rfl, hfits⟩, _ => restores_int hS hfits
  | .f32, .f32 _, hx, _ => restores_f32 hS hx
  | .f64, .f64 x, _, _ => restores_f64 hS x
  | .char, .char c, _, _ => restores_char hS c
  | .string, .string s, _, _ => restores_string hS s
  | .bytes, .bytes b, _, _ => restores_bytes hS b
  | .option _, .none, _, _ => restores_none hS _
  | .option _, .some _, ht, ⟨hne, hl⟩ => restores_some hS (HasType.restores hS ht hl) hne
  | .unitStruct, .unitStruct, _, _ => restores_unitStruct hS
  | .newtypeStruct _, .newtypeStruct _, ht, hl =>
    restores_newtypeStruct hS (HasType.restores hS ht hl)
  | .seq _, .seq _, ht, hl =>
    restores_seq hS fun d hd => HasType.restores hS (ht d hd) (hl.mem hd)
  | .tuple _, .tuple _, ht, hl => restores_tuple hS (HaveTypes.restore hS ht hl)
  | .tupleStruct _, .tupleStruct _, ht, hl => restores_tupleStruct hS (HaveTypes.restore hS ht hl)
  | .map _ _, .map _, ht, ⟨hd, hl⟩ =>
    restores_map hS
      (fun e he => ⟨HasType.restores hS (ht e he).1 (hl.mem he).1,
        HasType.restores hS (ht e he).2 (hl.mem he).2⟩) hd
  | .struct fields, .struct _, ⟨hn, ht⟩, hl =>
    restores_struct hS (by rwa [fieldSeeds_names]) (FieldsHaveTypes.restore hS ht hl)
  | .enum variants, d, ⟨hn, ht⟩, hl => by
    obtain ⟨before, name, shape, after, hvariants, hr⟩ := OneHasType.restores hS ht hl
    have hseeds : variantSeeds engine own S variants =
        variantSeeds engine own S before ++
          (name, shape.seed engine own S) :: variantSeeds engine own S after := by
      simp [variantSeeds_eq, hvariants]
    refine restores_enum hS hseeds ?_ hr
    · simpa [Ty.head, variantSeeds_eq, Function.comp_def] using hn

theorem HaveTypes.restore (hS : S.Documented engine own) :
    ∀ {ts : List Ty} {ds : List (Data F)}, HaveTypes ts ds → AllLossless ds →
      List.Forall₂ Restores (seeds engine own S ts) ds
  | [], [], _, _ => .nil
  | _ :: _, _ :: _, ⟨ht, hts⟩, ⟨hl, hls⟩ =>
    .cons (HasType.restores hS ht hl) (HaveTypes.restore hS hts hls)

theorem FieldsHaveTypes.restore (hS : S.Documented engine own) :
    ∀ {fields : List (Str × Ty)} {ds : List (Str × Data F)}, FieldsHaveTypes fields ds →
      FieldsLossless ds → List.Forall₂ FieldRestores (fieldSeeds engine own S fields) ds
  | [], [], _, _ => .nil
  | (_, _) :: _, (_, _) :: _, ⟨hname, ht, hts⟩, ⟨hl, hls⟩ =>
    .cons ⟨hname, HasType.restores hS ht hl⟩ (FieldsHaveTypes.restore hS hts hls)

theorem Shape.HasType.restores (hS : S.Documented engine own) {name : Str} :
    ∀ {shape : Shape} {d : Data F}, shape.HasType name d → Lossless d →
      VariantRestores engine own name (shape.seed engine own S) d
  | .unit, .unitVariant _, rfl, _ => restores_unitVariant _
  | .newtype _, .newtypeVariant _ _, ⟨rfl, ht⟩, hl =>
    restores_newtypeVariant _ (HasType.restores hS ht hl)
  | .tuple _, .tupleVariant _ _, ⟨rfl, ht⟩, hl =>
    restores_tupleVariant _ (HaveTypes.restore hS ht hl)
  | .struct _, .structVariant _ _, ⟨rfl, hn, ht⟩, hl =>
    restores_structVariant _ (by rwa [fieldSeeds_names]) (FieldsHaveTypes.restore hS ht hl)

theorem OneHasType.restores (hS : S.Documented engine own) :
    ∀ {variants : List (Str × Shape)} {d : Data F}, OneHasType variants d → Lossless d →
      ∃ before name shape after, variants = before ++ (name, shape) :: after ∧
        VariantRestores engine own name (shape.seed engine own S) d
  | (name, shape) :: variants, d, ht, hl => by
    rcases ht with ht | ht
    · exact ⟨[], name, shape, variants, rfl, Shape.HasType.restores hS ht hl⟩
    · obtain ⟨before, name', shape', after, rfl, hr⟩ := OneHasType.restores hS ht hl
      exact ⟨(name, shape) :: before, name', shape', after, rfl, hr⟩

end

/-- Serialising a value and deserialising what comes out at the same type gives the value. -/
theorem deserialize_serialize (hS : S.Documented engine own) {t : Ty} {d : Data F} {o : Obj F}
    (ht : HasType t d) (hl : Lossless d) (h : serialize d = .ok o) :
    deserialize engine own S t o = .ok d :=
  HasType.restores hS ht hl o h

theorem deserialize_serialize_struct :
    deserialize .cpython inert (standard .cpython (inert (F := Int)))
        (.struct [(['a'], .option (.int .u64)), (['b'], .tuple [.enum [(['U'], .unit),
          (['P'], .tuple [.f32, .string])], .seq .f64])])
        (.dict [(.str ['a'], .int (2 ^ 63)), (.str ['b'],
          .tuple [.dict [(.str ['P'], .tuple [.float 5, .str ['x']])], .list []])]) =
      .ok (.struct [(['a'], .some (.int .u64 (2 ^ 63))),
        (['b'], .tuple [.tupleVariant ['P'] [.f32 5, .string ['x']], .seq []])]) :=
  deserialize_serialize (standard_documented _ _)
    ⟨by decide, rfl, ⟨rfl, by decide⟩, rfl,
      ⟨⟨by decide, .inr (.inl ⟨rfl, rfl, trivial, trivial⟩)⟩, nofun, trivial⟩, trivial⟩
    ⟨⟨nofun, trivial⟩, ⟨⟨trivial, trivial, trivial⟩, trivial, trivial⟩, trivial⟩
    rfl

end Along

end GuestPy.Marshal
