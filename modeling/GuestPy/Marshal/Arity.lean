import GuestPy.Marshal.Visitors

/-!
# Sequences that are too long

A tuple, a tuple struct, an array or a tuple variant of `n` elements is deserialised from the
first `n` elements of a sequence, and the `Deserializer` does not look whether there are more.

* `Reads` says which values are deserialised on the way, and at which types, and `Takes` which
  sequences are taken for how many elements.
* A value that is reached from one that is accepted is accepted itself (`accepted_of_reads`), and
  it is not too short (`Takes.long_enough`). So every sequence is of the right length exactly if
  none is too long (`exact_iff_atMost`).
-/

namespace GuestPy.Marshal

open Results Deserializer

variable {F : Type}

/-! ## What is deserialised on the way -/

section Reads

variable (engine : Engine) (own : Own F)

/-- The elements of a list, a tuple or a set. -/
def Obj.elements : Obj F → Option (List (Obj F))
  | .list xs => .some xs
  | .tuple xs => .some xs
  | .set xs => .some xs
  | _ => .none

/-- The key names the entry. -/
def Names {β : Type} (entries : List (Str × β)) (key : Obj F) (b : β) : Prop :=
  ∃ i name, identify engine own (entries.map Prod.fst) key = .ok (some i) ∧
    entries[i]? = some (name, b)

/-- To deserialise the first value at the first type, the second is deserialised at the
second. -/
inductive Reads : Ty × Obj F → Ty × Obj F → Prop where
  | some {t : Ty} {o : Obj F} (ho : o.isNone = false) : Reads (.option t, o) (t, o)
  | newtype {t : Ty} {o : Obj F} : Reads (.newtypeStruct t, o) (t, o)
  | element {t : Ty} {o x : Obj F} {r : Except Err (Obj F)} {steps : Steps F}
    (hsteps : o.iter own = .ok steps) (hx : .ok (x, r) ∈ steps) : Reads (.seq t, o) (t, x)
  | tuple {ts : List Ty} {t : Ty} {o x : Obj F} {r : Except Err (Obj F)} {steps : Steps F} {i : Nat}
    (hsteps : o.iter own = .ok steps) (hx : steps[i]? = some (.ok (x, r)))
    (ht : ts[i]? = some t) : Reads (.tuple ts, o) (t, x)
  | tupleStruct {ts : List Ty} {t : Ty} {o x : Obj F} {r : Except Err (Obj F)} {steps : Steps F}
    {i : Nat} (hsteps : o.iter own = .ok steps) (hx : steps[i]? = some (.ok (x, r)))
    (ht : ts[i]? = some t) : Reads (.tupleStruct ts, o) (t, x)
  | key {k v : Ty} {o x : Obj F} {r : Except Err (Obj F)} {steps : Steps F}
    (hsteps : o.iter own = .ok steps) (hx : .ok (x, r) ∈ steps) : Reads (.map k v, o) (k, x)
  | value {k v : Ty} {o x y : Obj F} {steps : Steps F}
    (hsteps : o.iter own = .ok steps) (hx : .ok (x, .ok y) ∈ steps) : Reads (.map k v, o) (v, y)
  | position {fields : List (Str × Ty)} {name : Str} {t : Ty} {o x : Obj F}
    {r : Except Err (Obj F)} {steps : Steps F} {i : Nat} {xs : List (Obj F)}
    (ho : o.elements = some xs) (hsteps : o.iter own = .ok steps)
    (hx : steps[i]? = some (.ok (x, r))) (ht : fields[i]? = some (name, t)) :
    Reads (.struct fields, o) (t, x)
  | field {fields : List (Str × Ty)} {t : Ty} {x y : Obj F} {ps : List (Obj F × Obj F)}
    (hx : (x, y) ∈ ps) (ht : Names engine own fields x t) :
    Reads (.struct fields, .dict ps) (t, y)
  | newtypeVariant {variants : List (Str × Shape)} {t : Ty} {key o : Obj F}
    (ht : Names engine own variants key (.newtype t)) :
    Reads (.enum variants, .dict [(key, o)]) (t, o)
  | tupleVariant {variants : List (Str × Shape)} {ts : List Ty} {t : Ty} {key o x : Obj F}
    {r : Except Err (Obj F)} {steps : Steps F} {i : Nat}
    (hv : Names engine own variants key (.tuple ts)) (hsteps : o.iter own = .ok steps)
    (hx : steps[i]? = some (.ok (x, r))) (ht : ts[i]? = some t) :
    Reads (.enum variants, .dict [(key, o)]) (t, x)
  | structVariant {variants : List (Str × Shape)} {fields : List (Str × Ty)} {t : Ty}
    {key o x y : Obj F} {steps : Steps F}
    (hv : Names engine own variants key (.struct fields)) (hsteps : o.iter own = .ok steps)
    (hx : .ok (x, .ok y) ∈ steps) (ht : Names engine own fields x t) :
    Reads (.enum variants, .dict [(key, o)]) (t, y)

/-- To deserialise the value at the type, a sequence is taken for `n` elements. -/
inductive Takes : Ty × Obj F → List (Obj F) → Nat → Prop where
  | tuple {ts : List Ty} {o : Obj F} {xs : List (Obj F)} (ho : o.elements = some xs) :
    Takes (.tuple ts, o) xs ts.length
  | tupleStruct {ts : List Ty} {o : Obj F} {xs : List (Obj F)} (ho : o.elements = some xs) :
    Takes (.tupleStruct ts, o) xs ts.length
  | tupleVariant {variants : List (Str × Shape)} {ts : List Ty} {key o : Obj F}
    {xs : List (Obj F)} (hv : Names engine own variants key (.tuple ts))
    (ho : o.elements = some xs) : Takes (.enum variants, .dict [(key, o)]) xs ts.length

/-- Whenever a sequence is taken for `n` elements on the way, its length is in relation to `n`. -/
def Lengths (rel : Nat → Nat → Prop) (t : Ty) (o : Obj F) : Prop :=
  ∀ p, Relation.ReflTransGen (Reads engine own) (t, o) p →
    ∀ xs n, Takes engine own p xs n → rel xs.length n

/-- Every sequence has as many elements as its type. -/
def Exact (t : Ty) (o : Obj F) : Prop := Lengths engine own (fun len n => len = n) t o

/-- No sequence has more elements than its type. -/
def AtMost (t : Ty) (o : Obj F) : Prop := Lengths engine own (fun len n => len ≤ n) t o

end Reads

/-! ## What visitors have looked at -/

section Inversion

variable {engine : Engine} {own : Own F}

theorem collect_elements {seed : Seed F} {steps : Steps F} {ds : List (Data F)}
    (h : collect seed steps = .ok ds) {x : Obj F} {r : Except Err (Obj F)}
    (hx : .ok (x, r) ∈ steps) : ∃ d, seed.deserialize x = .ok d := by
  induction steps generalizing ds with
  | nil => cases hx
  | cons step steps ih =>
    obtain ⟨next, hnext, h⟩ := bind_eq_ok.mp h
    obtain ⟨⟨x', r'⟩, hstep, hnext⟩ := bind_eq_ok.mp hnext
    obtain ⟨d, hd, hnext⟩ := bind_eq_ok.mp hnext
    cases hnext
    obtain ⟨ds', hds', h⟩ := bind_eq_ok.mp h
    rcases List.mem_cons.mp hx with hx | hx
    · rw [hstep] at hx
      cases hx
      exact ⟨d, hd⟩
    · exact ih hds' hx

theorem each_elements {seeds : List (Seed F)} {steps : Steps F} {ds : List (Data F)}
    (h : each seeds steps = .ok ds) {x : Obj F} {r : Except Err (Obj F)} {i : Nat} {seed : Seed F}
    (hx : steps[i]? = some (.ok (x, r))) (hseed : seeds[i]? = some seed) :
    ∃ d, seed.deserialize x = .ok d := by
  induction seeds generalizing steps ds i with
  | nil => simp at hseed
  | cons seed' seeds ih =>
    obtain ⟨next, hnext, h⟩ := bind_eq_ok.mp h
    cases steps with
    | nil =>
      cases hnext
      cases h
    | cons step steps =>
      obtain ⟨⟨x', r'⟩, hstep, hnext⟩ := bind_eq_ok.mp hnext
      obtain ⟨d, hd, hnext⟩ := bind_eq_ok.mp hnext
      cases hnext
      obtain ⟨ds', hds', h⟩ := bind_eq_ok.mp h
      cases i with
      | zero =>
        simp only [List.getElem?_cons_zero, Option.some.injEq] at hx hseed
        rw [hstep] at hx
        cases hx
        exact ⟨d, hseed ▸ hd⟩
      | succ i => exact ih hds' (by simpa using hx) (by simpa using hseed)

/-- A sequence that is accepted is not too short. -/
theorem each_length {seeds : List (Seed F)} {steps : Steps F} {ds : List (Data F)}
    (h : each seeds steps = .ok ds) : seeds.length ≤ steps.length := by
  induction seeds generalizing steps ds with
  | nil => simp
  | cons seed seeds ih =>
    obtain ⟨next, hnext, h⟩ := bind_eq_ok.mp h
    cases steps with
    | nil =>
      cases hnext
      cases h
    | cons step steps =>
      obtain ⟨⟨x', r'⟩, hstep, hnext⟩ := bind_eq_ok.mp hnext
      obtain ⟨d, hd, hnext⟩ := bind_eq_ok.mp hnext
      cases hnext
      obtain ⟨ds', hds', h⟩ := bind_eq_ok.mp h
      have := ih hds'
      simp only [List.length_cons]
      omega

theorem collectEntries_elements {key value : Seed F} {steps : Steps F}
    {es : List (Data F × Data F)} (h : collectEntries key value steps = .ok es) {x : Obj F}
    {r : Except Err (Obj F)} (hx : .ok (x, r) ∈ steps) :
    (∃ d, key.deserialize x = .ok d) ∧ ∃ y, r = .ok y ∧ ∃ d, value.deserialize y = .ok d := by
  induction steps generalizing es with
  | nil => cases hx
  | cons step steps ih =>
    obtain ⟨next, hnext, h⟩ := bind_eq_ok.mp h
    obtain ⟨⟨x', r'⟩, hstep, hnext⟩ := bind_eq_ok.mp hnext
    obtain ⟨y, hy, hnext⟩ := bind_eq_ok.mp hnext
    obtain ⟨k, hk, hnext⟩ := bind_eq_ok.mp hnext
    cases hnext
    obtain ⟨v, hv, h⟩ := bind_eq_ok.mp h
    obtain ⟨v', hv', hv⟩ := bind_eq_ok.mp hv
    obtain ⟨es', hes', h⟩ := bind_eq_ok.mp h
    rcases List.mem_cons.mp hx with hx | hx
    · rw [hstep] at hx
      cases hx
      exact ⟨⟨k, hk⟩, y, hy, v', hv'⟩
    · exact ih hes' hx

theorem collectFields_elements {fields : List (Str × Seed F)} {steps : Steps F}
    {slots slots' : List (Option (Data F))}
    (h : collectFields engine own fields slots steps = .ok slots') {x y : Obj F}
    (hx : .ok (x, .ok y) ∈ steps) {seed : Seed F} (hseed : Names engine own fields x seed) :
    ∃ d, seed.deserialize y = .ok d := by
  induction steps generalizing slots with
  | nil => cases hx
  | cons step steps ih =>
    obtain ⟨next, hnext, h⟩ := bind_eq_ok.mp h
    obtain ⟨⟨x', r'⟩, hstep, hnext⟩ := bind_eq_ok.mp hnext
    obtain ⟨y', hy', hnext⟩ := bind_eq_ok.mp hnext
    obtain ⟨position, hposition, hnext⟩ := bind_eq_ok.mp hnext
    cases hnext
    rcases List.mem_cons.mp hx with hx | hx
    · rw [hstep] at hx
      cases hx
      cases hy'
      obtain ⟨i, name, hi, hfield⟩ := hseed
      rw [hposition] at hi
      cases hi
      simp only [Option.bind_some, hfield, Option.map_some] at h
      split at h
      · cases h
      · obtain ⟨⟨d, _⟩, hd, _⟩ := bind_eq_ok.mp h
        obtain ⟨d', hd', _⟩ := bind_eq_ok.mp hd
        exact ⟨d', hd'⟩
    · dsimp only at h
      split at h
      · obtain ⟨_, _, h⟩ := bind_eq_ok.mp h
        exact ih h hx
      · split at h
        · cases h
        · obtain ⟨_, _, h⟩ := bind_eq_ok.mp h
          exact ih h hx

end Inversion

/-! ## Which method was called -/

section Methods

variable {engine : Engine} {own : Own F} {α : Type}

/-- A method for values without parts gives the result. -/
def Scalar (v : Visitor F α) (d : α) : Prop :=
  v.visitUnit = .ok d ∨ (∃ b, v.visitBool b = .ok d) ∨ (∃ n, v.visitI64 n = .ok d) ∨
    (∃ n, v.visitU64 n = .ok d) ∨ (∃ x, v.visitF64 x = .ok d) ∨
    (∃ s, v.visitString s = .ok d) ∨ ∃ b, v.visitByteBuf b = .ok d

theorem iter_elements {o : Obj F} {xs : List (Obj F)} (h : o.elements = some xs) :
    ∃ steps, o.iter own = .ok steps ∧ steps.length = xs.length := by
  cases o <;> cases h <;> exact ⟨_, rfl, by simp [Obj.items]⟩

theorem deserializeAny_elements {v : Visitor F α} {o : Obj F} {xs : List (Obj F)}
    {steps : Steps F} (h : o.elements = some xs) (hsteps : o.iter own = .ok steps) :
    deserializeAny engine own v o = v.visitSeq steps := by
  cases o <;> cases h <;> cases hsteps <;> rfl

theorem deserializeAny_dict (v : Visitor F α) (ps : List (Obj F × Obj F)) :
    deserializeAny engine own v (.dict ps) =
      v.visitMap { iterator := ps.map fun p => .ok (p.1, .ok p.2) } := rfl

theorem deserializeEnum_dict (v : Visitor F α) (key item : Obj F) :
    deserializeEnum own v (.dict [(key, item)]) =
      v.visitEnum { variant := key, payload := some item } := rfl

theorem deserializeAny_ok {v : Visitor F α} {o : Obj F} {d : α}
    (h : deserializeAny engine own v o = .ok d) :
    (∃ xs, o.elements = some xs) ∨ (∃ ps, o = .dict ps) ∨ Scalar v d := by
  cases o with
  | none => exact .inr (.inr (.inl h))
  | bool b => exact .inr (.inr (.inr (.inl ⟨b, h⟩)))
  | int n =>
    simp only [deserializeAny, Obj.isNone, Obj.isBool, Obj.isInt, Bool.false_eq_true, if_false,
      if_true] at h
    split at h
    · exact .inr (.inr (.inr (.inr (.inl ⟨_, h⟩))))
    · obtain ⟨n', _, h⟩ := bind_eq_ok.mp h
      exact .inr (.inr (.inr (.inr (.inr (.inl ⟨n', h⟩)))))
  | float x => exact .inr (.inr (.inr (.inr (.inr (.inr (.inl ⟨x, h⟩))))))
  | str s => exact .inr (.inr (.inr (.inr (.inr (.inr (.inr (.inl ⟨s, h⟩)))))))
  | illFormed id =>
    cases engine
    · cases h
    · cases h
  | bytes b => exact .inr (.inr (.inr (.inr (.inr (.inr (.inr (.inr ⟨b, h⟩)))))))
  | list xs => exact .inl ⟨xs, rfl⟩
  | tuple xs => exact .inl ⟨xs, rfl⟩
  | set xs => exact .inl ⟨xs, rfl⟩
  | dict ps => exact .inr (.inl ⟨ps, rfl⟩)
  | other typeName id => cases h

theorem deserializeAny_same {v w : Visitor F α} (h : v.Same w) (o : Obj F) :
    SameResult (deserializeAny engine own v o) (deserializeAny engine own w o) := by
  intro d
  cases o with
  | none => exact h.visitUnit d
  | bool b => exact h.visitBool b d
  | int n =>
    simp only [deserializeAny, Obj.isNone, Obj.isBool, Obj.isInt, Bool.false_eq_true, if_false,
      if_true]
    split
    · exact h.visitI64 _ d
    · cases (Obj.int n : Obj F).asU64 with
      | ok n' => exact h.visitU64 n' d
      | error e => exact Iff.rfl
  | float x => exact h.visitF64 x d
  | str s => exact h.visitString s d
  | illFormed id =>
    cases engine
    · exact Iff.rfl
    · exact Iff.rfl
  | bytes b => exact h.visitByteBuf b d
  | list xs => exact h.visitSeq _ d
  | tuple xs => exact h.visitSeq _ d
  | set xs => exact h.visitSeq _ d
  | dict ps => exact h.visitMap _ d
  | other typeName id => exact Iff.rfl

theorem deserializeOption_same {v w : Visitor F α} (h : v.Same w) (o : Obj F) :
    SameResult (deserializeOption v o) (deserializeOption w o) := by
  unfold deserializeOption
  split
  · exact h.visitNone
  · exact h.visitSome o

theorem deserializeEnum_same {v w : Visitor F α} (h : v.Same w) (o : Obj F) :
    SameResult (deserializeEnum own v o) (deserializeEnum own w o) := by
  intro d
  cases o with
  | str s => exact h.visitEnum _ d
  | illFormed id => exact h.visitEnum _ d
  | dict ps =>
    match ps with
    | [] => exact Iff.rfl
    | [p] => exact h.visitEnum _ d
    | _ :: _ :: _ => exact Iff.rfl
  | _ => exact Iff.rfl

theorem ask_same {v w : Visitor F (Data F)} (h : v.Same w) (head : Head F) (o : Obj F) :
    SameResult (head.ask engine own v o) (head.ask engine own w o) := by
  cases head with
  | option seed => exact deserializeOption_same h o
  | newtypeStruct seed => exact h.visitNewtypeStruct o
  | enum variants => exact deserializeEnum_same h o
  | _ => exact deserializeAny_same h o

variable {S : Impls F}

/-- Visitors that refuse everything but sequences. -/
def Head.IsSequence : Head F → Prop
  | .seq _ => True
  | .tuple _ => True
  | .tupleStruct _ => True
  | _ => False

section Sequences

variable [Floats F]

theorem not_scalar_of_isSequence {head : Head F} (h : head.IsSequence) (d : Data F) :
    ¬ Scalar (standard engine own head) d := by
  cases head with
  | seq seed => simp [Scalar, standard, refusing, refused]
  | tuple seeds => simp [Scalar, standard, refusing, refused]
  | tupleStruct seeds => simp [Scalar, standard, refusing, refused]
  | _ => cases h

theorem not_map_of_isSequence {head : Head F} (h : head.IsSequence) (access : MapAccess F)
    (d : Data F) : (standard engine own head).visitMap access ≠ .ok d := by
  cases head with
  | seq seed => exact nofun
  | tuple seeds => exact nofun
  | tupleStruct seeds => exact nofun
  | _ => cases h

theorem not_scalar_map {key value : Seed F} (d : Data F) :
    ¬ Scalar (standard engine own (.map key value)) d := by
  simp [Scalar, standard, refusing, refused]

theorem visitSeq_of_ok {head : Head F} (hhead : head.IsSequence) {o : Obj F} {d : Data F}
    {steps : Steps F} (h : deserializeAny engine own (standard engine own head) o = .ok d)
    (hsteps : o.iter own = .ok steps) : (standard engine own head).visitSeq steps = .ok d := by
  rcases deserializeAny_ok h with ⟨xs, ho⟩ | ⟨ps, rfl⟩ | hscalar
  · rwa [deserializeAny_elements ho hsteps] at h
  · exact absurd h (not_map_of_isSequence hhead _ d)
  · exact absurd hscalar (not_scalar_of_isSequence hhead d)

end Sequences

theorem fielded_elements {fields : List (Str × Seed F)} {access : MapAccess F}
    {ds : List (Str × Data F)} (h : (fielded engine own fields).visitMap access = .ok ds)
    {x y : Obj F} (hx : .ok (x, .ok y) ∈ access.iterator) {seed : Seed F}
    (hseed : Names engine own fields x seed) : ∃ d, seed.deserialize y = .ok d := by
  obtain ⟨slots, hslots, -⟩ := bind_eq_ok.mp h
  exact collectFields_elements hslots hx hseed

theorem names_field {fields : List (Str × Ty)} {key : Obj F} {t : Ty}
    (h : Names engine own fields key t) :
    Names engine own (fieldSeeds engine own S fields) key
      ((t.head engine own S).seed engine own S) := by
  obtain ⟨i, name, hi, hfield⟩ := h
  exact ⟨i, name, by rwa [fieldSeeds_names], by simp [fieldSeeds_eq, hfield]⟩

theorem seed_of_position {ts : List Ty} {t : Ty} {i : Nat} (ht : ts[i]? = some t) :
    (seeds engine own S ts)[i]? = some ((t.head engine own S).seed engine own S) := by
  simp [seeds_eq, ht]

/-- What is accepted is accepted by the visitor that serde documents. -/
theorem deserialize_eq_ok [Floats F] (hS : S.Documented engine own) {t : Ty} {o : Obj F}
    {d : Data F} :
    deserialize engine own S t o = .ok d ↔
      (t.head engine own S).ask engine own (standard engine own (t.head engine own S)) o = .ok d :=
  ask_same (hS _) _ o d

end Methods

/-! ## Along the way -/

section Along

variable [Floats F] {engine : Engine} {own : Own F} {S : Impls F}

/-- The value is deserialised at the type. -/
def Accepted (engine : Engine) (own : Own F) (S : Impls F) (p : Ty × Obj F) : Prop :=
  ∃ d, deserialize engine own S p.1 p.2 = .ok d

theorem accepted_option (hS : S.Documented engine own) {t : Ty} {o : Obj F}
    (ho : o.isNone = false) (h : Accepted engine own S (.option t, o)) :
    Accepted engine own S (t, o) := by
  obtain ⟨d, h⟩ := h
  have h : deserializeOption
      (standard engine own (.option ((t.head engine own S).seed engine own S))) o = .ok d :=
    (deserialize_eq_ok hS).mp h
  simp only [deserializeOption, ho, Bool.false_eq_true, if_false] at h
  obtain ⟨d', hd', -⟩ := bind_eq_ok.mp h
  exact ⟨d', hd'⟩

theorem accepted_newtype (hS : S.Documented engine own) {t : Ty} {o : Obj F}
    (h : Accepted engine own S (.newtypeStruct t, o)) : Accepted engine own S (t, o) := by
  obtain ⟨d, h⟩ := h
  obtain ⟨d', hd', -⟩ := bind_eq_ok.mp ((deserialize_eq_ok hS).mp h)
  exact ⟨d', hd'⟩

theorem seq_elements (hS : S.Documented engine own) {t : Ty} {o : Obj F} {steps : Steps F}
    (h : Accepted engine own S (.seq t, o)) (hsteps : o.iter own = .ok steps) :
    ∃ ds, collect ((t.head engine own S).seed engine own S) steps = .ok ds := by
  obtain ⟨d, h⟩ := h
  have hv : (standard engine own
      (.seq ((t.head engine own S).seed engine own S))).visitSeq steps = .ok d :=
    visitSeq_of_ok (by trivial) ((deserialize_eq_ok hS).mp h) hsteps
  obtain ⟨ds, hds, -⟩ := bind_eq_ok.mp hv
  exact ⟨ds, hds⟩

theorem tuple_elements (hS : S.Documented engine own) {ts : List Ty} {o : Obj F}
    {steps : Steps F} (h : Accepted engine own S (.tuple ts, o))
    (hsteps : o.iter own = .ok steps) : ∃ ds, each (seeds engine own S ts) steps = .ok ds := by
  obtain ⟨d, h⟩ := h
  have hv : (standard engine own (.tuple (seeds engine own S ts))).visitSeq steps = .ok d :=
    visitSeq_of_ok (by trivial) ((deserialize_eq_ok hS).mp h) hsteps
  obtain ⟨ds, hds, -⟩ := bind_eq_ok.mp hv
  exact ⟨ds, hds⟩

theorem tupleStruct_elements (hS : S.Documented engine own) {ts : List Ty} {o : Obj F}
    {steps : Steps F} (h : Accepted engine own S (.tupleStruct ts, o))
    (hsteps : o.iter own = .ok steps) : ∃ ds, each (seeds engine own S ts) steps = .ok ds := by
  obtain ⟨d, h⟩ := h
  have hv : (standard engine own (.tupleStruct (seeds engine own S ts))).visitSeq steps = .ok d :=
    visitSeq_of_ok (by trivial) ((deserialize_eq_ok hS).mp h) hsteps
  obtain ⟨ds, hds, -⟩ := bind_eq_ok.mp hv
  exact ⟨ds, hds⟩

theorem map_elements (hS : S.Documented engine own) {k v : Ty} {o : Obj F} {steps : Steps F}
    (h : Accepted engine own S (.map k v, o)) (hsteps : o.iter own = .ok steps) :
    ∃ es, collectEntries ((k.head engine own S).seed engine own S)
      ((v.head engine own S).seed engine own S) steps = .ok es := by
  obtain ⟨d, h⟩ := h
  have h := (deserialize_eq_ok hS).mp h
  rcases deserializeAny_ok h with ⟨xs, ho⟩ | ⟨ps, rfl⟩ | hscalar
  · have hv := (deserializeAny_elements ho hsteps).symm.trans h
    cases hv
  · cases hsteps
    obtain ⟨es, hes, -⟩ := bind_eq_ok.mp ((deserializeAny_dict _ ps).symm.trans h)
    exact ⟨es, hes⟩
  · exact absurd hscalar (not_scalar_map d)

theorem struct_positions (hS : S.Documented engine own) {fields : List (Str × Ty)} {o : Obj F}
    {xs : List (Obj F)} {steps : Steps F} (h : Accepted engine own S (.struct fields, o))
    (ho : o.elements = some xs) (hsteps : o.iter own = .ok steps) :
    ∃ ds, each ((fieldSeeds engine own S fields).map Prod.snd) steps = .ok ds := by
  obtain ⟨d, h⟩ := h
  have h := (deserialize_eq_ok hS).mp h
  have hv := (deserializeAny_elements ho hsteps).symm.trans h
  obtain ⟨ds, hds, -⟩ := bind_eq_ok.mp hv
  obtain ⟨ds', hds', -⟩ := bind_eq_ok.mp hds
  exact ⟨ds', hds'⟩

theorem struct_fields (hS : S.Documented engine own) {fields : List (Str × Ty)}
    {ps : List (Obj F × Obj F)} (h : Accepted engine own S (.struct fields, .dict ps))
    {x y : Obj F} (hx : (x, y) ∈ ps) {t : Ty} (ht : Names engine own fields x t) :
    Accepted engine own S (t, y) := by
  obtain ⟨d, h⟩ := h
  have h := (deserialize_eq_ok hS).mp h
  obtain ⟨ds, hds, -⟩ := bind_eq_ok.mp ((deserializeAny_dict _ ps).symm.trans h)
  exact fielded_elements hds (List.mem_map.mpr ⟨_, hx, rfl⟩) (names_field ht)

/-- The variant of an enum that is given as a dictionary. -/
theorem enum_payload (hS : S.Documented engine own) {variants : List (Str × Shape)}
    {key o : Obj F} (h : Accepted engine own S (.enum variants, .dict [(key, o)]))
    {shape : Shape} (hv : Names engine own variants key shape) :
    ∃ name d, visitVariant engine own { variant := key, payload := some o } name
      (shape.seed engine own S) = .ok d := by
  obtain ⟨d, h⟩ := h
  have h := (deserialize_eq_ok hS).mp h
  obtain ⟨i, name, hi, hvariant⟩ := hv
  obtain ⟨position, hposition, h⟩ := bind_eq_ok.mp ((deserializeEnum_dict _ key o).symm.trans h)
  have hnames : (variantSeeds engine own S variants).map Prod.fst = variants.map Prod.fst := by
    simp [variantSeeds_eq, Function.comp_def]
  rw [EnumAccess.variantSeed, hnames, hi] at hposition
  cases hposition
  have hseed : (variantSeeds engine own S variants)[i]? =
      some (name, shape.seed engine own S) := by
    simp [variantSeeds_eq, hvariant]
  simp only [Option.bind_some, hseed] at h
  exact ⟨name, d, h⟩

theorem tupleVariant_elements (hS : S.Documented engine own) {variants : List (Str × Shape)}
    {key o : Obj F} (h : Accepted engine own S (.enum variants, .dict [(key, o)]))
    {ts : List Ty} (hv : Names engine own variants key (.tuple ts)) {steps : Steps F}
    (hsteps : o.iter own = .ok steps) :
    ∃ ds, each (seeds engine own S ts) steps = .ok ds := by
  obtain ⟨name, d, h⟩ := enum_payload hS h hv
  obtain ⟨ds, hds, -⟩ := bind_eq_ok.mp h
  simp only [EnumAccess.tupleVariant, EnumAccess.getPayload, SeqAccess.new, hsteps, ok_bind] at hds
  exact ⟨ds, hds⟩

/-- What is deserialised on the way to an accepted value is accepted. -/
theorem accepted_of_reads (hS : S.Documented engine own) {p q : Ty × Obj F}
    (hr : Reads engine own p q) (h : Accepted engine own S p) : Accepted engine own S q := by
  cases hr with
  | some ho => exact accepted_option hS ho h
  | newtype => exact accepted_newtype hS h
  | element hsteps hx =>
    obtain ⟨ds, hds⟩ := seq_elements hS h hsteps
    exact collect_elements hds hx
  | tuple hsteps hx ht =>
    obtain ⟨ds, hds⟩ := tuple_elements hS h hsteps
    exact each_elements hds hx (seed_of_position ht)
  | tupleStruct hsteps hx ht =>
    obtain ⟨ds, hds⟩ := tupleStruct_elements hS h hsteps
    exact each_elements hds hx (seed_of_position ht)
  | key hsteps hx =>
    obtain ⟨es, hes⟩ := map_elements hS h hsteps
    exact (collectEntries_elements hes hx).1
  | value hsteps hx =>
    obtain ⟨es, hes⟩ := map_elements hS h hsteps
    obtain ⟨-, y, hy, hd⟩ := collectEntries_elements hes hx
    cases hy
    exact hd
  | position ho hsteps hx ht =>
    obtain ⟨ds, hds⟩ := struct_positions hS h ho hsteps
    exact each_elements hds hx (by simp [fieldSeeds_eq, ht])
  | field hx ht => exact struct_fields hS h hx ht
  | newtypeVariant ht =>
    obtain ⟨name, d, h⟩ := enum_payload hS h ht
    obtain ⟨d', hd', -⟩ := bind_eq_ok.mp h
    exact ⟨d', hd'⟩
  | tupleVariant hv hsteps hx ht =>
    obtain ⟨ds, hds⟩ := tupleVariant_elements hS h hv hsteps
    exact each_elements hds hx (seed_of_position ht)
  | structVariant hv hsteps hx ht =>
    obtain ⟨name, d, h⟩ := enum_payload hS h hv
    obtain ⟨ds, hds, -⟩ := bind_eq_ok.mp h
    simp only [EnumAccess.structVariant, EnumAccess.getPayload, MapAccess.new, hsteps, ok_bind,
      pure_eq_ok] at hds
    exact fielded_elements hds hx (names_field ht)

omit [Floats F] in
theorem length_of_each {ts : List Ty} {o : Obj F} {xs : List (Obj F)}
    (ho : o.elements = some xs)
    (h : ∀ steps, o.iter own = .ok steps → ∃ ds, each (seeds engine own S ts) steps = .ok ds) :
    ts.length ≤ xs.length := by
  obtain ⟨steps, hsteps, hlength⟩ : ∃ steps, o.iter own = .ok steps ∧ steps.length = xs.length :=
    iter_elements ho
  obtain ⟨ds, hds⟩ := h steps hsteps
  have hle := each_length hds
  simp only [seeds_eq, List.length_map] at hle
  omega

/-- A sequence that is taken for `n` elements has as many. -/
theorem Takes.long_enough (hS : S.Documented engine own) {p : Ty × Obj F} {xs : List (Obj F)}
    {n : Nat} (ht : Takes engine own p xs n) (h : Accepted engine own S p) : n ≤ xs.length := by
  cases ht with
  | tuple ho => exact length_of_each ho fun _ hsteps => tuple_elements hS h hsteps
  | tupleStruct ho => exact length_of_each ho fun _ hsteps => tupleStruct_elements hS h hsteps
  | tupleVariant hv ho => exact length_of_each ho fun _ hsteps => tupleVariant_elements hS h hv hsteps

theorem accepted_along (hS : S.Documented engine own) {p q : Ty × Obj F}
    (hr : Relation.ReflTransGen (Reads engine own) p q) (h : Accepted engine own S p) :
    Accepted engine own S q := by
  induction hr with
  | refl => exact h
  | tail _ hstep ih => exact accepted_of_reads hS hstep ih

/-- An accepted value is exact unless a sequence in it is too long. -/
theorem exact_iff_atMost (hS : S.Documented engine own) {t : Ty} {o : Obj F} {d : Data F}
    (h : deserialize engine own S t o = .ok d) :
    Exact engine own t o ↔ AtMost engine own t o := by
  constructor
  · intro hexact p hp xs n htakes
    exact (hexact p hp xs n htakes).le
  · intro hmost p hp xs n htakes
    have hlong := htakes.long_enough hS (accepted_along hS hp ⟨d, h⟩)
    exact Nat.le_antisymm (hmost p hp xs n htakes) hlong

theorem exact_iff_atMost_pair :
    Exact .cpython inert (.tuple [.int .i64, .string]) (.list [.int 1, .str ['a'], .none] : Obj Int) ↔
      AtMost .cpython inert (.tuple [.int .i64, .string])
        (.list [.int 1, .str ['a'], .none] : Obj Int) :=
  exact_iff_atMost (standard_documented .cpython inert) (d := .tuple [.int .i64 1, .string ['a']])
    rfl

/-- Two integers are deserialised from a list of three, and the third is dropped. -/
theorem accepts_too_long :
    ¬ ∀ S : Impls Int, S.Documented .cpython inert → ∀ (t : Ty) (o : Obj Int) (d : Data Int),
      deserialize .cpython inert S t o = .ok d → Exact .cpython inert t o := by
  intro h
  have hexact := h (standard .cpython inert) (standard_documented _ _)
    (.tuple [.int .i64, .int .i64]) (.list [.int 1, .int 2, .int 3])
    (.tuple [.int .i64 1, .int .i64 2]) rfl
  have hlength := hexact _ .refl _ _ (.tuple rfl)
  exact absurd hlength (by simp)

end Along

end GuestPy.Marshal
