import GuestPy.Host.Specified
import GuestPy.Library.Writes

/-!
# The attributes of a host class

The members of a class are written into its namespace in the order in which they are declared,
then come the names that every class has, and the statics are set on the class at the end. The
accessors of one name share a property, which stands where the first of them was declared.

* `Declared.meaning` reads the calls of `build` as Python reads the body of a class, where an
  accessor goes on with the property that its name stands for.
* `attribute_eq_attributes_iff`: the two agree on a name just if no accessor of it comes before and
  another one after the last member that it was given otherwise.
-/

namespace GuestPy.Building

open Exceptions (Err)

variable {C R F : Type}

/-! ## What a class has under a name -/

inductive Attribute (F : Type) where
  | method (function : F)
  | asyncMethod (name : MemberName) (function : F)
  | classMethod (function : F)
  | staticMethod (function : F)
  | property (accessors : Accessors F)
  | constant (value : F)
  | generic
  | doc (text : Option String)
  | module
  | new
  | init (construct : Option F)
  | «static» (member : NamespaceMember F)

/-- A property is made with the accessors that its slot has in the end. -/
def Member.realise (slots : List (Accessors F)) : Member F → Attribute F
  | method function => .method function
  | asyncMethod name function => .asyncMethod name function
  | classMethod function => .classMethod function
  | staticMethod function => .staticMethod function
  | property slot => .property (slots[slot]?.getD .new)
  | constant value => .constant value
  | generic => .generic

namespace ClassBody

/-- The members, as `realise` writes them into the namespace. -/
def memberWrites (body : ClassBody C R F) : List (String × Attribute F) :=
  body.members.map fun m => (m.1.asStr, m.2.realise body.slots)

/-- What every class has. -/
def ownWrites (body : ClassBody C R F) : List (String × Attribute F) :=
  [("__doc__", .doc body.doc), ("__module__", .module), ("__new__", .new),
    ("__init__", .init body.init)]

/-- What is set on the class. -/
def staticWrites (body : ClassBody C R F) : List (String × Attribute F) :=
  body.statics.map fun m => (m.1, .static m.2)

/-- All that `ClassRealiser::realise` writes, in its order. -/
def writes (body : ClassBody C R F) : List (String × Attribute F) :=
  body.memberWrites ++ body.ownWrites ++ body.staticWrites

def «attribute» (body : ClassBody C R F) (name : String) : Option (Attribute F) :=
  lastWrite body.writes name

end ClassBody

/-! ## The body of a class, read as Python reads it -/

namespace Call

/-- What a call declares under a name, unless it is an accessor. -/
def binding : Call C R F → Option (String × Attribute F)
  | method name function => some (name.asStr, .method function)
  | asyncMethod name function => some (name.asStr, .asyncMethod name function)
  | dunderMethod name asynchronous function =>
    match Dunder.fromStr name with
    | .ok d => some (d.name,
        if asynchronous then .asyncMethod (.dunder d) function else .method function)
    | .error _ => none
  | classMethod name function => some (name, .classMethod function)
  | staticMethod name function => some (name, .staticMethod function)
  | constant name value => some (name, .constant value)
  | generic => some ("__class_getitem__", .generic)
  | _ => none

/-- What an accessor does to the property of its name. -/
def accessor : Call C R F → Option (String × (Accessors F → Accessors F))
  | getter name get => some (name, fun a => a.setGet get)
  | setter name set => some (name, fun a => a.setSet set)
  | deleter name del => some (name, fun a => a.setDel del)
  | property name get set => some (name, fun a => (a.setGet get).setSet set)
  | _ => none

def Binds (name : String) (call : Call C R F) : Prop := ∃ a, call.binding = some (name, a)

def Accesses (name : String) (call : Call C R F) : Prop := ∃ f, call.accessor = some (name, f)

end Call

namespace Declared

/-- The property that a name stands for. -/
def propertyOf : Option (Attribute F) → Accessors F
  | some (.property a) => a
  | _ => .new

def declare (names : String → Option (Attribute F)) (call : Call C R F) :
    String → Option (Attribute F) :=
  match call.binding, call.accessor with
  | some (name, a), _ => Function.update names name (some a)
  | none, some (name, f) =>
    Function.update names name (some (.property (f (propertyOf (names name)))))
  | none, none => names

def meaning (calls : List (Call C R F)) : String → Option (Attribute F) :=
  calls.foldl declare fun _ => none

/-- An accessor of the name comes before its last other declaration, and another one after it. -/
def Split (name : String) (calls : List (Call C R F)) : Prop :=
  ∃ before call after, calls = before ++ call :: after ∧ call.Binds name ∧
    (∃ c ∈ before, c.Accesses name) ∧ (∃ c ∈ after, c.Accesses name) ∧
      ∀ c ∈ after, ¬ c.Binds name

end Declared

/-! ## One name among the calls -/

namespace Declared

section

variable {name : String} {calls : List (Call C R F)} {call : Call C R F}

def Accessed (name : String) (calls : List (Call C R F)) : Prop := ∃ c ∈ calls, c.Accesses name

/-- An accessor of the name comes before its last other declaration. -/
def Buried (name : String) (calls : List (Call C R F)) : Prop :=
  ∃ before call after, calls = before ++ call :: after ∧ call.Binds name ∧
    Accessed name before ∧ ∀ c ∈ after, ¬ c.Binds name

theorem not_accesses_of_binds {name name' : String} (h : call.Binds name) :
    ¬ call.Accesses name' := by
  obtain ⟨a, ha⟩ := h
  rintro ⟨f, hf⟩
  cases call <;> first | (cases hf; done) | cases ha

theorem accessed_append : Accessed name (calls ++ [call]) ↔
    Accessed name calls ∨ call.Accesses name := by
  simp only [Accessed, List.mem_append, List.mem_singleton, or_and_right, exists_or,
    exists_eq_left]

theorem buried_append : Buried name (calls ++ [call]) ↔
    call.Binds name ∧ Accessed name calls ∨ ¬ call.Binds name ∧ Buried name calls := by
  constructor
  · rintro ⟨before, bound, after, heq, hbinds, haccessed, hafter⟩
    rcases List.eq_nil_or_concat after with rfl | ⟨rest, last, rfl⟩
    · obtain ⟨rfl, hlast⟩ := List.append_inj' heq rfl
      cases hlast
      exact Or.inl ⟨hbinds, haccessed⟩
    · rw [List.concat_eq_append] at heq hafter
      rw [← List.cons_append, ← List.append_assoc] at heq
      obtain ⟨rfl, hlast⟩ := List.append_inj' heq rfl
      cases hlast
      refine Or.inr ⟨hafter _ (List.mem_append_right _ (List.mem_singleton_self _)), ?_⟩
      exact ⟨before, bound, rest, rfl, hbinds, haccessed,
        fun c hc => hafter c (List.mem_append_left _ hc)⟩
  · rintro (⟨hbinds, haccessed⟩ | ⟨hbinds, before, bound, after, rfl, hbound, haccessed, hafter⟩)
    · exact ⟨calls, call, [], rfl, hbinds, haccessed, nofun⟩
    · refine ⟨before, bound, after ++ [call], by simp, hbound, haccessed, fun c hc => ?_⟩
      rcases List.mem_append.mp hc with hc | hc
      · exact hafter c hc
      · rw [List.mem_singleton.mp hc]
        exact hbinds

theorem Split.buried (h : Split name calls) : Buried name calls := by
  obtain ⟨before, bound, after, heq, hbinds, haccessed, -, hafter⟩ := h
  exact ⟨before, bound, after, heq, hbinds, haccessed, hafter⟩

theorem split_append : Split name (calls ++ [call]) ↔
    ¬ call.Binds name ∧ (call.Accesses name ∧ Buried name calls ∨ Split name calls) := by
  constructor
  · rintro ⟨before, bound, after, heq, hbinds, haccessed, hagain, hafter⟩
    rcases List.eq_nil_or_concat after with rfl | ⟨rest, last, rfl⟩
    · obtain ⟨c, hc, -⟩ := hagain
      cases hc
    · rw [List.concat_eq_append] at heq hafter hagain
      rw [← List.cons_append, ← List.append_assoc] at heq
      obtain ⟨rfl, hlast⟩ := List.append_inj' heq rfl
      cases hlast
      have hrest : ∀ c ∈ rest, ¬ c.Binds name := fun c hc => hafter c (List.mem_append_left _ hc)
      refine ⟨hafter _ (List.mem_append_right _ (List.mem_singleton_self _)), ?_⟩
      rcases accessed_append.mp hagain with hagain | hagain
      · exact Or.inr ⟨before, bound, rest, rfl, hbinds, haccessed, hagain, hrest⟩
      · exact Or.inl ⟨hagain, before, bound, rest, rfl, hbinds, haccessed, hrest⟩
  · have hmore : ∀ {after : List (Call C R F)}, ¬ call.Binds name →
        (∀ c ∈ after, ¬ c.Binds name) → ∀ c ∈ after ++ [call], ¬ c.Binds name := by
      intro after hbinds hafter c hc
      rcases List.mem_append.mp hc with hc | hc
      · exact hafter c hc
      · rw [List.mem_singleton.mp hc]
        exact hbinds
    rintro ⟨hbinds, ⟨haccesses, before, bound, after, rfl, hbound, haccessed, hafter⟩ |
      ⟨before, bound, after, rfl, hbound, haccessed, hagain, hafter⟩⟩
    · exact ⟨before, bound, after ++ [call], by simp, hbound, haccessed,
        accessed_append.mpr (Or.inr haccesses), hmore hbinds hafter⟩
    · exact ⟨before, bound, after ++ [call], by simp, hbound, haccessed,
        accessed_append.mpr (Or.inl hagain), hmore hbinds hafter⟩

end

end Declared

/-! ## One name in the builder -/

namespace ClassBuilder

section

variable {b : ClassBuilder C R F} {call : Call C R F} {spec : C → ClassSpec C R F}

/-- What was pushed last under a name. -/
def last (b : ClassBuilder C R F) (name : String) : Option (Member F) :=
  lastWrite (b.body.members.map fun m => (m.1.asStr, m.2)) name

theorem lastWrite_memberWrites (name : String) :
    lastWrite b.body.memberWrites name = (b.last name).map (Member.realise b.body.slots) := by
  unfold last ClassBody.memberWrites
  rw [← lastWrite_map, List.map_map]
  rfl

/-- Slots are handed out one by one, and each stays with its name. -/
structure Slotted (b : ClassBuilder C R F) : Prop where
  lt : ∀ name slot, b.properties name = some slot → slot < b.body.slots.length
  unique : ∀ name name' slot, b.properties name = some slot → b.properties name' = some slot →
    name = name'
  own : ∀ name slot, b.last name = some (.property slot) → b.properties name = some slot

/-- What a call does that declares something under a name. -/
theorem applyWith_binding (b : ClassBuilder C R F) (spec : C → ClassSpec C R F) {name : String}
    {a : Attribute F} (h : call.binding = some (name, a)) :
    ∃ m : Member F, (∀ slots, m.realise slots = a) ∧ (∀ slot, m ≠ .property slot) ∧
      (∀ n, (b.applyWith spec call).last n = if name = n then some m else b.last n) ∧
      (b.applyWith spec call).body.slots = b.body.slots ∧
      (b.applyWith spec call).properties = b.properties := by
  have hpush : ∀ (nm : MemberName) (m : Member F) (n : String),
      (b.push nm m).last n = if nm.asStr = n then some m else b.last n := by
    intro nm m n
    unfold last push
    rw [List.map_append, List.map_singleton, lastWrite_concat]
  have hasync : ∀ (nm : MemberName) (m : Member F),
      (∀ n, (b.pushAsync nm m).last n = if nm.asStr = n then some m else b.last n) ∧
        (b.pushAsync nm m).body.slots = b.body.slots ∧
        (b.pushAsync nm m).properties = b.properties := by
    intro nm m
    rw [pushAsync_eq]
    exact ⟨hpush nm m, rfl, rfl⟩
  cases call with
  | method nm function =>
    cases h
    exact ⟨.method function, fun _ => rfl, fun _ => (by rintro ⟨⟩), hpush _ _, rfl, rfl⟩
  | asyncMethod nm function =>
    cases h
    exact ⟨.asyncMethod nm function, fun _ => rfl, fun _ => (by rintro ⟨⟩), hasync _ _⟩
  | dunderMethod text asynchronous function =>
    simp only [Call.binding] at h
    cases hd : Dunder.fromStr text with
    | error e =>
      rw [hd] at h
      cases h
    | ok d =>
      rw [hd] at h
      cases h
      have heq : b.applyWith spec (.dunderMethod text asynchronous function) =
          if asynchronous then b.asyncMethod (.dunder d) function
          else b.method (.dunder d) function := by
        simp only [applyWith, apply, hd]
      rw [heq]
      cases asynchronous with
      | false => exact ⟨.method function, fun _ => rfl, fun _ => (by rintro ⟨⟩), hpush _ _, rfl, rfl⟩
      | true =>
        exact ⟨.asyncMethod (.dunder d) function, fun _ => rfl, fun _ => (by rintro ⟨⟩),
          hasync (.dunder d) _⟩
  | classMethod nm function =>
    cases h
    refine ⟨.classMethod function, fun _ => rfl, fun _ => (by rintro ⟨⟩), fun n => ?_, rfl, rfl⟩
    exact (hpush _ _ n).trans (by rw [MemberName.asStr_ofStr])
  | staticMethod nm function =>
    cases h
    refine ⟨.staticMethod function, fun _ => rfl, fun _ => (by rintro ⟨⟩), fun n => ?_, rfl, rfl⟩
    exact (hpush _ _ n).trans (by rw [MemberName.asStr_ofStr])
  | constant nm value =>
    cases h
    refine ⟨.constant value, fun _ => rfl, fun _ => (by rintro ⟨⟩), fun n => ?_, rfl, rfl⟩
    exact (hpush _ _ n).trans (by rw [MemberName.asStr_ofStr])
  | generic =>
    cases h
    refine ⟨.generic, fun _ => rfl, fun _ => (by rintro ⟨⟩), fun n => ?_, rfl, rfl⟩
    exact (hpush _ _ n).trans (by rw [MemberName.asStr_ofStr])
  | _ => cases h

/-- What an accessor does. -/
theorem applyWith_accessor {name : String} {f : Accessors F → Accessors F}
    (h : call.accessor = some (name, f)) : b.applyWith spec call = b.access name f := by
  cases call with
  | getter nm get =>
    cases h
    rfl
  | setter nm set =>
    cases h
    rfl
  | deleter nm del =>
    cases h
    rfl
  | property nm get set =>
    cases h
    change (b.access name fun a => a.setGet get).access name (fun a => a.setSet set) = _
    unfold access propertySlot
    cases hslot : b.properties name with
    | some slot => simp [hslot, List.modify_modify_eq, Function.comp_def]
    | none => simp [push, List.modify_modify_eq, Function.comp_def]
  | _ => cases h

/-- What any other call leaves alone. -/
theorem applyWith_other (b : ClassBuilder C R F) (spec : C → ClassSpec C R F)
    (hbinding : call.binding = none) (haccessor : call.accessor = none) :
    (b.applyWith spec call).last = b.last ∧
      (b.applyWith spec call).body.slots = b.body.slots ∧
      (b.applyWith spec call).properties = b.properties := by
  cases call with
  | dunderMethod text asynchronous function =>
    simp only [Call.binding] at hbinding
    cases hd : Dunder.fromStr text with
    | error e => simp only [applyWith, apply, hd, and_self]
    | ok d =>
      rw [hd] at hbinding
      cases hbinding
  | require _ => exact ⟨rfl, rfl, rfl⟩
  | constructor _ => exact ⟨rfl, rfl, rfl⟩
  | statics _ => exact ⟨rfl, rfl, rfl⟩
  | base _ => exact ⟨rfl, rfl, rfl⟩
  | importedBase _ _ => exact ⟨rfl, rfl, rfl⟩
  | getter _ _ => cases haccessor
  | setter _ _ => cases haccessor
  | deleter _ _ => cases haccessor
  | property _ _ _ => cases haccessor
  | _ => cases hbinding

theorem access_of_some {name : String} {slot : Nat} (h : b.properties name = some slot)
    (f : Accessors F → Accessors F) :
    (b.access name f).properties = b.properties ∧ (b.access name f).last = b.last ∧
      (b.access name f).body.slots = b.body.slots.modify slot f := by
  unfold access propertySlot last
  rw [h]
  exact ⟨rfl, rfl, rfl⟩

theorem access_of_none {name : String} (h : b.properties name = none)
    (f : Accessors F → Accessors F) :
    (b.access name f).properties =
        Function.update b.properties name (some b.body.slots.length) ∧
      (∀ n, (b.access name f).last n =
        if name = n then some (.property b.body.slots.length) else b.last n) ∧
      (b.access name f).body.slots = b.body.slots ++ [f .new] := by
  unfold access propertySlot
  rw [h]
  refine ⟨rfl, fun n => ?_, ?_⟩
  · unfold last push
    rw [List.map_append, List.map_singleton, lastWrite_concat, MemberName.asStr_ofStr]
  · change (b.body.slots ++ [Accessors.new]).modify b.body.slots.length f = _
    refine List.ext_getElem? fun i => ?_
    rw [List.getElem?_modify]
    rcases Nat.lt_trichotomy i b.body.slots.length with hi | rfl | hi
    · simp [hi, Nat.ne_of_gt hi, List.getElem?_append_left hi]
    · simp
    · have hnone : ∀ a : Accessors F, [a][i - b.body.slots.length]? = none := fun a =>
        List.getElem?_eq_none (Nat.sub_pos_of_lt hi)
      simp [Nat.ne_of_lt hi, List.getElem?_append_right (Nat.le_of_lt hi), hnone]

theorem slotted_access (h : Slotted b) (name : String) (f : Accessors F → Accessors F) :
    Slotted (b.access name f) := by
  cases hslot : b.properties name with
  | some slot =>
    obtain ⟨hproperties, hlast, hslots⟩ := access_of_some hslot f
    constructor
    · intro n k hk
      rw [hslots, List.length_modify]
      exact h.lt n k (hproperties ▸ hk)
    · intro n n' k hk hk'
      exact h.unique n n' k (hproperties ▸ hk) (hproperties ▸ hk')
    · intro n k hk
      rw [hproperties]
      exact h.own n k (hlast ▸ hk)
  | none =>
    obtain ⟨hproperties, hlast, hslots⟩ := access_of_none hslot f
    have hcases : ∀ n k, (b.access name f).properties n = some k →
        n = name ∧ k = b.body.slots.length ∨ n ≠ name ∧ b.properties n = some k := by
      intro n k hk
      rw [hproperties] at hk
      by_cases hn : n = name
      · subst hn
        rw [Function.update_self] at hk
        exact Or.inl ⟨rfl, (Option.some.inj hk).symm⟩
      · rw [Function.update_of_ne hn] at hk
        exact Or.inr ⟨hn, hk⟩
    constructor
    · intro n k hk
      rw [hslots, List.length_append, List.length_singleton]
      rcases hcases n k hk with ⟨-, rfl⟩ | ⟨-, hk⟩
      · exact Nat.lt_succ_self _
      · exact Nat.lt_succ_of_lt (h.lt n k hk)
    · intro n n' k hk hk'
      rcases hcases n k hk with ⟨rfl, rfl⟩ | ⟨-, hold⟩
      · rcases hcases n' _ hk' with ⟨rfl, -⟩ | ⟨-, hold'⟩
        · rfl
        · exact absurd (h.lt n' _ hold') (Nat.lt_irrefl _)
      · rcases hcases n' k hk' with ⟨-, rfl⟩ | ⟨-, hold'⟩
        · exact absurd (h.lt n _ hold) (Nat.lt_irrefl _)
        · exact h.unique n n' k hold hold'
    · intro n k hk
      rw [hlast] at hk
      rw [hproperties]
      by_cases hn : name = n
      · subst hn
        rw [if_pos rfl] at hk
        rw [Function.update_self]
        cases hk
        rfl
      · rw [if_neg hn] at hk
        rw [Function.update_of_ne (Ne.symm hn)]
        exact h.own n k hk

theorem slotted_applyWith (h : Slotted b) (call : Call C R F) :
    Slotted (b.applyWith spec call) := by
  cases hbinding : call.binding with
  | some w =>
    obtain ⟨name, a⟩ := w
    obtain ⟨m, -, hm, hlast, hslots, hproperties⟩ :=
      applyWith_binding b spec hbinding
    constructor
    · intro n k hk
      rw [hslots]
      exact h.lt n k (hproperties ▸ hk)
    · intro n n' k hk hk'
      exact h.unique n n' k (hproperties ▸ hk) (hproperties ▸ hk')
    · intro n k hk
      rw [hproperties]
      rw [hlast] at hk
      split at hk
      · exact absurd (Option.some.inj hk) (hm k)
      · exact h.own n k hk
  | none =>
    cases haccessor : call.accessor with
    | some w =>
      obtain ⟨name, f⟩ := w
      rw [applyWith_accessor haccessor]
      exact slotted_access h name f
    | none =>
      obtain ⟨hlast, hslots, hproperties⟩ :=
        applyWith_other b spec hbinding haccessor
      constructor
      · intro n k hk
        rw [hslots]
        exact h.lt n k (hproperties ▸ hk)
      · intro n n' k hk hk'
        exact h.unique n n' k (hproperties ▸ hk) (hproperties ▸ hk')
      · intro n k hk
        rw [hproperties]
        exact h.own n k (hlast ▸ hk)

end

end ClassBuilder

/-! ## The builder and the body of the class -/

namespace Declared

section

variable {name : String} {calls : List (Call C R F)} {call : Call C R F}
  {b : ClassBuilder C R F} {spec : C → ClassSpec C R F} {names : String → Option (Attribute F)}

def IsPlain (m : Member F) : Prop := ∀ slot, m ≠ .property slot

theorem realise_eq {m : Member F} (hm : IsPlain m) (slots slots' : List (Accessors F)) :
    m.realise slots = m.realise slots' := by
  cases m with
  | property slot => exact absurd rfl (hm slot)
  | _ => rfl

theorem realise_ne {m : Member F} (hm : IsPlain m) (slots : List (Accessors F))
    (a : Accessors F) : m.realise slots ≠ .property a := by
  cases m with
  | property slot => exact absurd rfl (hm slot)
  | _ => nofun

/-- Where the builder and the body of the class are with a name. -/
inductive Phase (name : String) (calls : List (Call C R F)) (b : ClassBuilder C R F)
    (declared : Option (Attribute F)) : Prop
  | fresh : ¬ Accessed name calls → b.properties name = none →
    (∀ m, b.last name = some m → IsPlain m) →
    declared = (b.last name).map (Member.realise b.body.slots) → Phase name calls b declared
  | shown (slot : Nat) (a : Accessors F) : Accessed name calls → ¬ Buried name calls →
    b.properties name = some slot → b.last name = some (.property slot) →
    b.body.slots[slot]? = some a → declared = some (.property a) → Phase name calls b declared
  | hidden (slot : Nat) (m : Member F) : Accessed name calls → Buried name calls →
    ¬ Split name calls → b.properties name = some slot → b.last name = some m → IsPlain m →
    declared = some (m.realise b.body.slots) → Phase name calls b declared
  | split (slot : Nat) (m : Member F) (a : Accessors F) : Accessed name calls →
    Split name calls → b.properties name = some slot → b.last name = some m → IsPlain m →
    declared = some (.property a) → Phase name calls b declared

theorem Buried.accessed (h : Buried name calls) : Accessed name calls := by
  obtain ⟨before, bound, after, rfl, -, ⟨c, hc, haccesses⟩, -⟩ := h
  exact ⟨c, List.mem_append_left _ hc, haccesses⟩

/-- A call that is about another name. -/
theorem Phase.other {declared : Option (Attribute F)} {b' : ClassBuilder C R F}
    (h : Phase name calls b declared) (hbinds : ¬ call.Binds name)
    (haccesses : ¬ call.Accesses name) (hproperties : b'.properties name = b.properties name)
    (hlast : b'.last name = b.last name)
    (hslots : ∀ slot, b.properties name = some slot →
      b'.body.slots[slot]? = b.body.slots[slot]?) :
    Phase name (calls ++ [call]) b' declared := by
  have haccessed : Accessed name (calls ++ [call]) ↔ Accessed name calls := by
    rw [accessed_append]
    exact or_iff_left haccesses
  have hburied : Buried name (calls ++ [call]) ↔ Buried name calls := by
    rw [buried_append]
    simp [hbinds]
  have hsplit : Split name (calls ++ [call]) ↔ Split name calls := by
    rw [split_append]
    simp [hbinds, haccesses]
  cases h with
  | fresh hfresh hnone hplain hdeclared =>
    refine .fresh (haccessed.not.mpr hfresh) (hproperties.trans hnone)
      (fun m hm => hplain m (hlast ▸ hm)) ?_
    rw [hdeclared, hlast]
    cases hm : b.last name with
    | none => rfl
    | some m => exact congrArg some (realise_eq (hplain m hm) _ _)
  | shown slot a hin hnot hslot hown ha hdeclared =>
    exact .shown slot a (haccessed.mpr hin) (hburied.not.mpr hnot) (hproperties.trans hslot)
      (hlast.trans hown) ((hslots slot hslot).trans ha) hdeclared
  | hidden slot m hin hbur hnot hslot hm hplain hdeclared =>
    refine .hidden slot m (haccessed.mpr hin) (hburied.mpr hbur) (hsplit.not.mpr hnot)
      (hproperties.trans hslot) (hlast.trans hm) hplain ?_
    rw [hdeclared, realise_eq hplain]
  | split slot m a hin hsp hslot hm hplain hdeclared =>
    exact .split slot m a (haccessed.mpr hin) (hsplit.mpr hsp) (hproperties.trans hslot)
      (hlast.trans hm) hplain hdeclared

/-- A call that declares something else under the name. -/
theorem Phase.binds {declared : Option (Attribute F)} {b' : ClassBuilder C R F} {m : Member F}
    (h : Phase name calls b declared) (hbinds : call.Binds name)
    (hproperties : b'.properties name = b.properties name) (hlast : b'.last name = some m)
    (hm : IsPlain m) : Phase name (calls ++ [call]) b' (some (m.realise b'.body.slots)) := by
  have haccessed : Accessed name (calls ++ [call]) ↔ Accessed name calls := by
    rw [accessed_append]
    exact or_iff_left (not_accesses_of_binds hbinds)
  have hnot : ¬ Split name (calls ++ [call]) := fun hsplit => (split_append.mp hsplit).1 hbinds
  have hafter : ∀ slot, Accessed name calls → b.properties name = some slot →
      Phase name (calls ++ [call]) b' (some (m.realise b'.body.slots)) := fun slot hin hslot =>
    .hidden slot m (haccessed.mpr hin) (buried_append.mpr (Or.inl ⟨hbinds, hin⟩)) hnot
      (hproperties.trans hslot) hlast hm rfl
  cases h with
  | fresh hfresh hnone hplain hdeclared =>
    refine .fresh (haccessed.not.mpr hfresh) (hproperties.trans hnone) (fun m' hm' => ?_) ?_
    · cases hlast.symm.trans hm'
      exact hm
    · rw [hlast]
      rfl
  | shown slot a hin _ hslot _ _ _ => exact hafter slot hin hslot
  | hidden slot m hin _ _ hslot _ _ _ => exact hafter slot hin hslot
  | split slot m a hin _ hslot _ _ _ => exact hafter slot hin hslot

/-- An accessor of the name. -/
theorem Phase.accesses {declared : Option (Attribute F)} {f : Accessors F → Accessors F}
    (h : Phase name calls b declared) (hbinds : ¬ call.Binds name)
    (haccesses : call.Accesses name) :
    Phase name (calls ++ [call]) (b.access name f)
      (some (.property (f (propertyOf declared)))) := by
  have haccessed : Accessed name (calls ++ [call]) := accessed_append.mpr (Or.inr haccesses)
  have hburied : Buried name (calls ++ [call]) ↔ Buried name calls := by
    rw [buried_append]
    simp [hbinds]
  cases h with
  | fresh hfresh hnone hplain hdeclared =>
    obtain ⟨hproperties, hlast, hslots⟩ := ClassBuilder.access_of_none hnone f
    have hnew : propertyOf declared = Accessors.new := by
      rw [hdeclared]
      cases hm : b.last name with
      | none => rfl
      | some m =>
        have hne := realise_ne (hplain m hm) b.body.slots
        rw [Option.map_some]
        generalize m.realise b.body.slots = x at hne
        cases x with
        | property a => exact absurd rfl (hne a)
        | _ => rfl
    rw [hnew]
    refine .shown b.body.slots.length (f .new) haccessed (fun hbur => hfresh
      (hburied.mp hbur).accessed) ?_ ?_ ?_ rfl
    · rw [hproperties, Function.update_self]
    · rw [hlast, if_pos rfl]
    · rw [hslots, List.getElem?_concat_length]
  | shown slot a hin hnot hslot hown ha hdeclared =>
    obtain ⟨hproperties, hlast, hslots⟩ := ClassBuilder.access_of_some hslot f
    rw [hdeclared]
    refine .shown slot (f a) haccessed (hburied.not.mpr hnot) ((congrFun hproperties _).trans hslot)
      ((congrFun hlast _).trans hown) ?_ rfl
    rw [hslots, List.getElem?_modify_eq, ha]
    rfl
  | hidden slot m hin hbur _ hslot hm hplain _ =>
    obtain ⟨hproperties, hlast, -⟩ := ClassBuilder.access_of_some hslot f
    exact .split slot m _ haccessed (split_append.mpr ⟨hbinds, Or.inl ⟨haccesses, hbur⟩⟩)
      ((congrFun hproperties _).trans hslot) ((congrFun hlast _).trans hm) hplain rfl
  | split slot m a hin hsp hslot hm hplain _ =>
    obtain ⟨hproperties, hlast, -⟩ := ClassBuilder.access_of_some hslot f
    exact .split slot m _ haccessed (split_append.mpr ⟨hbinds, Or.inr hsp⟩)
      ((congrFun hproperties _).trans hslot) ((congrFun hlast _).trans hm) hplain rfl

/-- Wherever the calls have got to, the slots are in order and each name is in a phase. -/
theorem phase_foldl (program : Program C R F) (spec : C → ClassSpec C R F) (c : C)
    (calls : List (Call C R F)) :
    ClassBuilder.Slotted (calls.foldl (ClassBuilder.applyWith spec) (.new program c)) ∧
      ∀ name, Phase name calls
        (calls.foldl (ClassBuilder.applyWith spec) (.new program c)) (meaning calls name) := by
  induction calls using List.reverseRecOn with
  | nil =>
    refine ⟨⟨nofun, nofun, nofun⟩, fun name => .fresh ?_ rfl nofun rfl⟩
    rintro ⟨c, hc, -⟩
    cases hc
  | append_singleton calls call ih =>
    obtain ⟨hslotted, hphase⟩ := ih
    unfold meaning at hphase ⊢
    rw [List.foldl_append, List.foldl_append, List.foldl_cons, List.foldl_nil, List.foldl_cons,
      List.foldl_nil]
    generalize calls.foldl (ClassBuilder.applyWith spec) (.new program c) = b at hslotted hphase ⊢
    generalize calls.foldl declare (fun _ => none) = names at hphase ⊢
    refine ⟨ClassBuilder.slotted_applyWith hslotted call, fun name => ?_⟩
    cases hbinding : call.binding with
    | some w =>
      obtain ⟨n, a⟩ := w
      obtain ⟨m, ha, hm, hlast, hslots, hproperties⟩ :=
        ClassBuilder.applyWith_binding b spec hbinding
      have hdeclare : declare names call = Function.update names n (some a) := by
        simp only [declare, hbinding]
      rw [hdeclare]
      by_cases hn : name = n
      · subst hn
        rw [Function.update_self, ← ha (b.applyWith spec call).body.slots]
        exact (hphase name).binds ⟨a, hbinding⟩ (congrFun hproperties name)
          (by rw [hlast, if_pos rfl]) hm
      · rw [Function.update_of_ne hn]
        refine (hphase name).other ?_ (not_accesses_of_binds ⟨a, hbinding⟩)
          (congrFun hproperties name) (by rw [hlast, if_neg (Ne.symm hn)]) fun slot _ => by
            rw [hslots]
        rintro ⟨a', ha'⟩
        cases hbinding.symm.trans ha'
        exact hn rfl
    | none =>
      have hbinds : ∀ n, ¬ call.Binds n := by
        rintro n ⟨a, ha⟩
        cases hbinding.symm.trans ha
      cases haccessor : call.accessor with
      | some w =>
        obtain ⟨n, f⟩ := w
        rw [ClassBuilder.applyWith_accessor haccessor]
        have hdeclare : declare names call =
            Function.update names n (some (.property (f (propertyOf (names n))))) := by
          simp only [declare, hbinding, haccessor]
        rw [hdeclare]
        by_cases hn : name = n
        · subst hn
          rw [Function.update_self]
          exact (hphase name).accesses (hbinds name) ⟨f, haccessor⟩
        · rw [Function.update_of_ne hn]
          have haccesses : ¬ call.Accesses name := by
            rintro ⟨f', hf'⟩
            cases haccessor.symm.trans hf'
            exact hn rfl
          cases hslot : b.properties n with
          | some slot =>
            obtain ⟨hproperties, hlast, hslots⟩ := ClassBuilder.access_of_some hslot f
            refine (hphase name).other (hbinds name) haccesses (congrFun hproperties name)
              (congrFun hlast name) fun slot' hslot' => ?_
            have hne : slot ≠ slot' := fun heq =>
              hn (hslotted.unique name n slot' hslot' (heq ▸ hslot))
            rw [hslots, List.getElem?_modify_ne _ _ hne]
          | none =>
            obtain ⟨hproperties, hlast, hslots⟩ := ClassBuilder.access_of_none hslot f
            refine (hphase name).other (hbinds name) haccesses ?_ ?_ fun slot' hslot' => ?_
            · rw [hproperties, Function.update_of_ne hn]
            · rw [hlast, if_neg (Ne.symm hn)]
            · rw [hslots, List.getElem?_append_left (hslotted.lt name slot' hslot')]
      | none =>
        obtain ⟨hlast, hslots, hproperties⟩ :=
          ClassBuilder.applyWith_other b spec hbinding haccessor
        have hdeclare : declare names call = names := by
          simp only [declare, hbinding, haccessor]
        rw [hdeclare]
        refine (hphase name).other (hbinds name) ?_ (congrFun hproperties name)
          (congrFun hlast name) fun slot _ => by rw [hslots]
        rintro ⟨f, hf⟩
        cases haccessor.symm.trans hf

theorem Phase.visible_eq_iff {declared : Option (Attribute F)}
    (h : Phase name calls b declared) :
    lastWrite b.body.memberWrites name = declared ↔ ¬ Split name calls := by
  rw [ClassBuilder.lastWrite_memberWrites]
  cases h with
  | fresh hfresh _ _ hdeclared =>
    exact ⟨fun _ hsplit => hfresh hsplit.buried.accessed, fun _ => hdeclared.symm⟩
  | shown slot a _ hnot _ hown ha hdeclared =>
    refine ⟨fun _ hsplit => hnot hsplit.buried, fun _ => ?_⟩
    rw [hown, hdeclared, Option.map_some]
    simp only [Member.realise, ha, Option.getD_some]
  | hidden slot m _ _ hnot _ hm _ hdeclared =>
    refine ⟨fun _ => hnot, fun _ => ?_⟩
    rw [hm, hdeclared, Option.map_some]
  | split slot m a _ hsp _ hm hplain hdeclared =>
    refine ⟨fun heq => ?_, fun hnot => absurd hsp hnot⟩
    rw [hm, hdeclared, Option.map_some] at heq
    exact absurd (Option.some.inj heq) (realise_ne hplain _ a)

end

end Declared

/-! ## What every class has, and its statics -/

namespace Declared

/-- What is written after the members, whatever their names are. -/
def fixed (program : Program C R F) (c : C) : List (String × Attribute F) :=
  [("__doc__", .doc (program.doc c)), ("__module__", .module), ("__new__", .new),
    ("__init__", .init ((program.build c).filterMap Call.construct).getLast?)] ++
  ((program.build c).flatMap Call.staticMembers).map fun m => (m.1, .static m.2)

/-- The attributes of the class, where its body is read as Python reads it. -/
def attributes (program : Program C R F) (c : C) (name : String) : Option (Attribute F) :=
  (lastWrite (fixed program c) name).or (meaning (program.build c) name)

theorem fixed_foldl (spec : C → ClassSpec C R F) (program : Program C R F) (c : C)
    (calls : List (Call C R F)) :
    (calls.foldl (ClassBuilder.applyWith spec) (.new program c)).body.doc = program.doc c ∧
      (calls.foldl (ClassBuilder.applyWith spec) (.new program c)).body.init =
        (calls.filterMap Call.construct).getLast? ∧
      (calls.foldl (ClassBuilder.applyWith spec) (.new program c)).body.statics =
        calls.flatMap Call.staticMembers := by
  induction calls using List.reverseRecOn with
  | nil => exact ⟨rfl, rfl, rfl⟩
  | append_singleton calls call ih =>
    obtain ⟨hdoc, hinit, hstatics⟩ := ih
    rw [List.foldl_append, List.foldl_cons, List.foldl_nil]
    generalize calls.foldl (ClassBuilder.applyWith spec) (.new program c) = b
      at hdoc hinit hstatics ⊢
    have hcarries := ClassBuilder.carries_applyWith spec b call
    refine ⟨hcarries.doc.trans hdoc, ?_, ?_⟩
    · rw [hcarries.init, hinit, List.filterMap_append]
      cases hconstruct : call.construct with
      | none => simp [hconstruct]
      | some construct => simp [hconstruct]
    · rw [hcarries.statics, hstatics, List.flatMap_append, List.flatMap_singleton]

/-- **The attributes of a class are those of its body, exactly where no property is split.** -/
theorem attribute_eq_attributes_iff [DecidableEq C] {program : Program C R F} {c : C}
    (h : Buildable program c) (name : String) :
    (specify program c).body.attribute name = attributes program c name ↔
      (∃ w ∈ fixed program c, w.1 = name) ∨ ¬ Split name (program.build c) := by
  have hbody : (specify program c).body = (built program c).body :=
    congrArg ClassSpec.body (specify_eq h).2
  obtain ⟨hdoc, hinit, hstatics⟩ := fixed_foldl (specify program) program c (program.build c)
  have hfixed : (built program c).body.ownWrites ++ (built program c).body.staticWrites =
      fixed program c := by
    unfold ClassBody.ownWrites ClassBody.staticWrites fixed
    rw [← hdoc, ← hinit, ← hstatics]
    rfl
  have hattribute : (specify program c).body.attribute name =
      (lastWrite (fixed program c) name).or
        (lastWrite (built program c).body.memberWrites name) := by
    rw [hbody, ← hfixed]
    unfold ClassBody.attribute ClassBody.writes
    rw [List.append_assoc, lastWrite_append]
  have hphase := ((phase_foldl program (specify program) c (program.build c)).2
    name).visible_eq_iff
  rw [hattribute]
  unfold attributes
  cases hlast : lastWrite (fixed program c) name with
  | some a =>
    refine ⟨fun _ => Or.inl ⟨(name, a), mem_of_lastWrite_eq_some hlast, rfl⟩, fun _ => ?_⟩
    rw [Option.some_or, Option.some_or]
  | none =>
    rw [Option.none_or, Option.none_or]
    refine hphase.trans ⟨Or.inr, ?_⟩
    rintro (⟨w, hw, hname⟩ | hnot)
    · exact absurd hname (lastWrite_eq_none_iff.mp hlast w hw)
    · exact hnot

/-- A getter, a method of the same name, and then the setter. -/
def pointProgram : Program Nat Unit Nat where
  name _ := "Point"
  doc _ := none
  build
    | 0 => [.getter "x" 1, .method (.named "x") 2, .setter "x" 3]
    | _ => []
  classes := []
  closed c d h := by
    cases c with
    | zero => simp at h
    | succ c => cases h

theorem buildable_point : Buildable pointProgram 0 := by
  refine .mk (fun call hcall => ?_) fun d hcd => nomatch pointProgram.closed 0 d hcd
  fin_cases hcall <;> exact ⟨trivial, nofun⟩

/-- The setter is declared for a property that the class does not have any more. -/
theorem attribute_ne_attributes_of_point :
    (specify pointProgram 0).body.attribute "x" ≠ attributes pointProgram 0 "x" := by
  rw [ne_eq, attribute_eq_attributes_iff buildable_point]
  rintro (⟨w, hw, hname⟩ | hnot)
  · fin_cases hw <;> simp at hname
  · refine hnot ⟨[.getter "x" 1], .method (.named "x") 2, [.setter "x" 3], rfl, ⟨_, rfl⟩,
      ⟨_, List.mem_singleton_self _, _, rfl⟩, ⟨_, List.mem_singleton_self _, _, rfl⟩, ?_⟩
    intro call hcall
    rw [List.mem_singleton.mp hcall]
    rintro ⟨a, ha⟩
    cases ha

end Declared

end GuestPy.Building
