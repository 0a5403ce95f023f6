import GuestPy.Exceptions.Realising
import GuestPy.Library.Answers

/-!
# Requests for an exception class

An exception is realised after its base, which may be registered as well, under a name or as a
type of the host program. Nothing keeps a chain of such references from coming back to where it
began. Creating a class runs no guest code here: the hooks that a base written in Python may have,
such as `__init_subclass__`, are left out.

* `builtin_cases`, `exceptionClass_cases`, `create_cases` and `host_cases` say all that a step of a
  realisation can do.
* `Declared` says that a class has the bases that the specifications declare.
* `requested_host`: a request leaves a sound interpreter sound, and a class that it returns is kept.
* `exists_host_ne_stuck` and `host_stuck`: it comes to an end just if the chain of references does.
-/

namespace GuestPy.Exceptions

open Host

variable {types : TypeId → HostException}

/-! ## What a realisation does -/

/-- Objects may have been made, and nothing else has happened. -/
structure Quiet (i i' : Interpreter types) : Prop where
  cache : i'.cache = i.cache
  builtins : i'.builtins = i.builtins
  next : i.heap.next ≤ i'.heap.next
  objects : ∀ x, x < i.heap.next → i'.heap.objects x = i.heap.objects x

namespace Quiet

variable {i i' i'' : Interpreter types}

theorem refl (i : Interpreter types) : Quiet i i := ⟨rfl, rfl, le_refl _, fun _ _ => rfl⟩

theorem trans (h : Quiet i i') (h' : Quiet i' i'') : Quiet i i'' where
  cache := h'.cache.trans h.cache
  builtins := h'.builtins.trans h.builtins
  next := h.next.trans h'.next
  objects x hx := (h'.objects x (hx.trans_le h.next)).trans (h.objects x hx)

end Quiet

namespace ExceptionRealiser

open Interpreter

variable {i i' : Interpreter types}

theorem quiet_allocate (o : ObjectId → Object) (i : Interpreter types) :
    Quiet i (i.withHeap fun h => (h.allocate o).2) where
  cache := rfl
  builtins := rfl
  next := Nat.le_succ _
  objects _ hx := Function.update_of_ne (Nat.ne_of_lt hx) _ _

theorem allocate_eq (o : ObjectId → Object) (i : Interpreter types) :
    allocate o i = (.ok i.heap.next, i.withHeap fun h => (h.allocate o).2) := rfl

theorem builtin_cases {name : Str} {o : Outcome Err ObjectId} (h : builtin name i = (o, i')) :
    Quiet i i' ∧ ((∃ c, o = .ok c ∧ i.builtins name = some c) ∨ ∃ e, o = .err e) := by
  unfold builtin at h
  rw [get_bind] at h
  cases hname : i.builtins name with
  | some c =>
    rw [hname] at h
    cases h
    exact ⟨.refl i, Or.inl ⟨c, rfl, rfl⟩⟩
  | none =>
    rw [hname] at h
    cases h
    exact ⟨quiet_allocate _ i, Or.inr ⟨_, rfl⟩⟩

theorem settles_builtin (name : Str) :
    Settles (builtin name : Host (Interpreter types) Err ObjectId) := by
  intro i
  rcases h : builtin name i with ⟨o, i'⟩
  obtain ⟨-, ⟨c, hc, -⟩ | he⟩ := builtin_cases h
  · exact Or.inl ⟨c, hc⟩
  · exact Or.inr he

theorem exceptionClass_cases {cls : ExceptionClass} {value : ObjectId} {o : Outcome Err ObjectId}
    (h : exceptionClass cls value i = (o, i')) :
    Quiet i i' ∧ (o = .ok value ∨ ∃ e, o = .err e) := by
  rcases (settles_builtin _).bind_cases h with ⟨base, i₁, hbase, hrest⟩ | ⟨e, hbase, rfl⟩
  · have hquiet := (builtin_cases hbase).1
    rw [get_bind] at hrest
    split at hrest
    · cases hrest
      exact ⟨hquiet, Or.inl rfl⟩
    · cases hrest
      exact ⟨hquiet, Or.inr ⟨_, rfl⟩⟩
  · exact ⟨(builtin_cases hbase).1, Or.inr ⟨e, rfl⟩⟩

theorem settles_exceptionClass (cls : ExceptionClass) (value : ObjectId) :
    Settles (exceptionClass cls value : Host (Interpreter types) Err ObjectId) := by
  intro i
  rcases h : exceptionClass cls value i with ⟨o, i'⟩
  obtain ⟨-, hok | he⟩ := exceptionClass_cases h
  · exact Or.inl ⟨value, hok⟩
  · exact Or.inr he

/-- The object is a new class with one base, with the names that the specification gives it. -/
structure Created (module name : Str) (base : ObjectId) (i i' : Interpreter types)
    (c : ObjectId) : Prop where
  fresh : i.heap.next ≤ c
  allocated : c < i'.heap.next
  mro : (i'.heap.objects c).mro = c :: (i.heap.objects base).mro
  listed : (i'.heap.objects c).listed = c :: (i.heap.objects base).mro
  module : (i'.heap.objects c).module = some module
  qualname : (i'.heap.objects c).qualname = some name

theorem create_cases {module name : Str} {base : ObjectId} {o : Outcome Err ObjectId}
    (hbase : base < i.heap.next) (h : create module name base i = (o, i')) :
    Quiet i i' ∧ ((∃ c, o = .ok c ∧ Created module name base i i' c) ∨ ∃ e, o = .err e) := by
  rcases (settles_builtin _).bind_cases h with ⟨metaclass, i₁, hmeta, hrest⟩ | ⟨e, hmeta, rfl⟩
  · have hquiet := (builtin_cases hmeta).1
    have hmro : (i₁.heap.objects base).mro = (i.heap.objects base).mro := by
      rw [hquiet.objects base hbase]
    rw [get_bind, allocate_eq] at hrest
    cases hrest
    have hobject : ((i₁.withHeap fun h => (h.allocate (subclass i₁.heap (some module) name metaclass
        base)).2).heap.objects i₁.heap.next) =
          subclass i₁.heap (some module) name metaclass base i₁.heap.next :=
      Function.update_self ..
    refine ⟨hquiet.trans (quiet_allocate _ i₁), Or.inl ⟨_, rfl, ?_⟩⟩
    exact
      { fresh := hquiet.next
        allocated := Nat.lt_succ_self _
        mro := by rw [hobject, ← hmro]; rfl
        listed := by rw [hobject, ← hmro]; rfl
        module := by rw [hobject]; rfl
        qualname := by rw [hobject]; rfl }
  · exact ⟨(builtin_cases hmeta).1, Or.inr ⟨e, rfl⟩⟩

theorem settles_create (module name : Str) (base : ObjectId) :
    Settles (create module name base : Host (Interpreter types) Err ObjectId) := by
  intro i
  have hrest : ∀ metaclass, Settles (do
      let i ← Host.get
      allocate (subclass i.heap (some module) name metaclass base) :
        Host (Interpreter types) Err ObjectId) := fun metaclass i => Or.inl ⟨_, rfl⟩
  rcases (settles_builtin _).bind_cases (f := fun metaclass => do
      let i ← Host.get
      allocate (subclass i.heap (some module) name metaclass base)) (s := i) rfl with
    ⟨metaclass, i₁, -, h⟩ | ⟨e, -, h⟩
  · have := hrest metaclass i₁
    rw [h] at this
    exact this
  · exact Or.inr ⟨e, h⟩

/-- The class of a specification, once its base is known. -/
theorem realise_cases {host : ExceptionKey → Host (Interpreter types) Err ObjectId}
    {key : ExceptionKey} {spec : ExceptionSpec types} {o : Outcome Err ObjectId}
    (h : realise host key spec i = (o, i')) {ob : Outcome Err ObjectId} {i₁ : Interpreter types}
    (hbase : baseOf host spec i = (ob, i₁)) (hvalid : ∀ b, ob = .ok b → b < i₁.heap.next) :
    ((∀ b, ob ≠ .ok b) ∧ i' = i₁ ∧ (∀ c, o ≠ .ok c) ∧ (o = .panic → ob = .panic) ∧
        (o = .stuck ↔ ob = .stuck)) ∨
      ∃ b, ob = .ok b ∧ ((∃ e, o = .err e) ∧ Quiet i₁ i' ∨
        ∃ c i₂, o = .ok c ∧ Quiet i₁ i₂ ∧ Created spec.module spec.name b i₁ i₂ c ∧
          i' = { i₂ with cache := i₂.cache.setRealisedException key c }) := by
  unfold realise at h
  rcases bind_cases h with ⟨b, i₂, hb, hrest⟩ | ⟨e, hb, rfl⟩ | ⟨hb, rfl⟩ | ⟨hb, rfl⟩
  · rw [hbase] at hb
    cases hb
    have hlt : b < i₁.heap.next := hvalid b rfl
    refine Or.inr ⟨b, rfl, ?_⟩
    rcases (settles_exceptionClass _ _).bind_cases hrest with ⟨v, i₂, hv, hnext⟩ | ⟨e, hv, rfl⟩
    · obtain ⟨hquiet, hvalue⟩ := exceptionClass_cases hv
      have hvb : v = b := by
        rcases hvalue with hvalue | ⟨e, hvalue⟩
        · cases hvalue
          rfl
        · cases hvalue
      subst hvb
      rcases (settles_create _ _ _).bind_cases hnext with ⟨c, i₃, hc, hlast⟩ | ⟨e, hc, rfl⟩
      · obtain ⟨hquiet', hcreated⟩ := create_cases (hlt.trans_le hquiet.next) hc
        rcases hcreated with ⟨c', hok, hcreated⟩ | ⟨e, he⟩
        · cases hok
          cases hlast
          have hsame : (i₂.heap.objects v).mro = (i₁.heap.objects v).mro := by
            rw [hquiet.objects v hlt]
          refine Or.inr ⟨c, i₃, rfl, hquiet.trans hquiet', ?_, rfl⟩
          exact
            { fresh := hquiet.next.trans hcreated.fresh
              allocated := hcreated.allocated
              mro := hsame ▸ hcreated.mro
              listed := hsame ▸ hcreated.listed
              module := hcreated.module
              qualname := hcreated.qualname }
        · cases he
      · exact Or.inl ⟨⟨e, rfl⟩, hquiet.trans (create_cases (hlt.trans_le hquiet.next) hc).1⟩
    · exact Or.inl ⟨⟨e, rfl⟩, (exceptionClass_cases hv).1⟩
  · rw [hbase] at hb
    cases hb
    exact Or.inl ⟨nofun, rfl, nofun, nofun, nofun, nofun⟩
  · rw [hbase] at hb
    cases hb
    exact Or.inl ⟨nofun, rfl, nofun, fun _ => rfl, nofun, nofun⟩
  · rw [hbase] at hb
    cases hb
    exact Or.inl ⟨nofun, rfl, nofun, nofun, fun _ => rfl, fun _ => rfl⟩

/-- What a request does, by what is known of the key. -/
theorem host_cases {depth : Nat} {key : ExceptionKey} {o : Outcome Err ObjectId}
    (h : host (depth + 1) key i = (o, i')) :
    (∃ c, i.cache.realisedException key = some c ∧ o = .ok c ∧ i' = i) ∨
      (i.cache.exceptionSpec key = none ∧ (∃ e, o = .err e) ∧ i' = i) ∨
      ∃ spec, i.cache.exceptionSpec key = some spec ∧ i.cache.realisedException key = none ∧
        realise (host depth) key spec i = (o, i') := by
  unfold host at h
  rw [get_bind] at h
  cases hrealised : i.cache.realisedException key with
  | some c =>
    rw [hrealised] at h
    cases h
    exact Or.inl ⟨c, rfl, rfl, rfl⟩
  | none =>
    rw [hrealised] at h
    cases hspec : i.cache.exceptionSpec key with
    | none =>
      simp only [hspec] at h
      cases h
      exact Or.inr (Or.inl ⟨rfl, ⟨_, rfl⟩, rfl⟩)
    | some spec =>
      simp only [hspec] at h
      exact Or.inr (Or.inr ⟨spec, rfl, rfl, h⟩)

end ExceptionRealiser

/-! ## References -/

namespace ExceptionKey

/-- The class that the key is the key of. -/
def «class» : ExceptionKey → ExceptionClass
  | named module name => .host module name
  | typed id name => .typed id name

end ExceptionKey

theorem ExceptionClass.eq_class {cls : ExceptionClass} {key : ExceptionKey}
    (h : cls.key = some key) : cls = key.class := by
  cases cls <;> cases h <;> rfl

theorem ExceptionKey.key_class (key : ExceptionKey) : key.class.key = some key := by
  cases key <;> rfl

namespace Interned

variable {K V : Type} [DecidableEq K] {i : Interned K V} {key key' : K}

theorem entry_setRealised {x : ObjectId} :
    (i.setRealised key x).entry key' =
      if key' = key then (i.entry key').map fun e => { e with realised := some x }
      else i.entry key' := by
  ext e
  rw [entry_eq_some_iff, mem_setRealised]
  split
  · next h =>
    subst h
    simp only [ne_eq, not_true, false_and, false_or, true_and, Option.map_eq_some_iff,
      entry_eq_some_iff]
    exact exists_congr fun _ => and_congr_right fun _ => eq_comm
  · next h => simp [entry_eq_some_iff, h]

end Interned

namespace RealisationCache

/-- The base of the registered exception `key` is the one with the key `base`. -/
def RefersTo (c : RealisationCache types) (key base : ExceptionKey) : Prop :=
  ∃ spec, c.exceptionSpec key = some spec ∧ spec.base.key = some base

/-- The chain of references that starts at the key comes to an end. -/
def ChainEnds (c : RealisationCache types) (key : ExceptionKey) : Prop :=
  Acc (fun base key => c.RefersTo key base) key

/-- The references from `key` lead to `key'`. -/
def LeadsTo (c : RealisationCache types) : ExceptionKey → ExceptionKey → Prop :=
  Relation.ReflTransGen c.RefersTo

variable {c c' : RealisationCache types} {key key' base : ExceptionKey}

theorem not_of_acc {α : Type} {r : α → α → Prop} {a : α} (h : Acc r a) : ¬ r a a := by
  induction h with
  | intro a _ ih => exact fun hloop => ih a hloop hloop

/-- A chain that ends does not come back. -/
theorem ChainEnds.not_leadsTo (h : c.ChainEnds key) (href : c.RefersTo key base) :
    ¬ c.LeadsTo base key := by
  intro hback
  have hloop : Relation.TransGen c.RefersTo key key := .head' href hback
  exact not_of_acc h.transGen (Relation.transGen_swap.mpr hloop)

theorem RefersTo.unique {base' : ExceptionKey} (h : c.RefersTo key base)
    (h' : c.RefersTo key base') : base' = base := by
  obtain ⟨spec, hspec, hbase⟩ := h
  obtain ⟨spec', hspec', hbase'⟩ := h'
  cases hspec.symm.trans hspec'
  exact Option.some.inj (hbase'.symm.trans hbase)

theorem refersTo_congr (h : c'.exceptionSpec = c.exceptionSpec) : c'.RefersTo = c.RefersTo := by
  unfold RefersTo
  rw [h]

theorem chainEnds_of_refersTo (href : c.RefersTo key base) (h : c.ChainEnds base) :
    c.ChainEnds key := by
  refine Acc.intro _ fun base' href' => ?_
  rw [href.unique href']
  exact h

theorem chainEnds_of_forall_not (h : ∀ base, ¬ c.RefersTo key base) : c.ChainEnds key :=
  Acc.intro _ fun base href => absurd href (h base)

theorem exceptionSpec_setRealised {x : ObjectId} :
    (c.setRealisedException key x).exceptionSpec key' = c.exceptionSpec key' := by
  change ((c.exceptions.setRealised key x).entry key').map InternedEntry.spec = _
  rw [Interned.entry_setRealised]
  split
  · next h =>
    subst h
    rw [Option.map_map]
    rfl
  · rfl

theorem realised_setRealised_of_ne {x : ObjectId} (hne : key' ≠ key) :
    (c.setRealisedException key x).realisedException key' = c.realisedException key' := by
  change ((c.exceptions.setRealised key x).entry key').bind InternedEntry.realised = _
  rw [Interned.entry_setRealised, if_neg hne]
  rfl

theorem realised_setRealised_self {x : ObjectId} {spec : ExceptionSpec types}
    (h : c.exceptionSpec key = some spec) :
    (c.setRealisedException key x).realisedException key = some x := by
  obtain ⟨e, he, -⟩ := Option.map_eq_some_iff.mp h
  change ((c.exceptions.setRealised key x).entry key).bind InternedEntry.realised = _
  rw [Interned.entry_setRealised_self he]
  rfl

/-- Registered specifications stay, and so do the classes that realise them. -/
structure Extends (c c' : RealisationCache types) : Prop where
  specs : ∀ key spec, c.exceptionSpec key = some spec → c'.exceptionSpec key = some spec
  realised : ∀ key x, c.realisedException key = some x → c'.realisedException key = some x

theorem Extends.of_eq (h : c' = c) : Extends c c' := by
  subst h
  exact ⟨fun _ _ h => h, fun _ _ h => h⟩

theorem Extends.trans {c'' : RealisationCache types} (h : Extends c c') (h' : Extends c' c'') :
    Extends c c'' where
  specs key spec hspec := h'.specs key spec (h.specs key spec hspec)
  realised key x hx := h'.realised key x (h.realised key x hx)

end RealisationCache

/-! ## The bases that are declared -/

/-- The class has the bases that the specifications declare. A builtin is what the dictionary of
builtins had at some time. -/
inductive Declared (past : List (Str → Option ObjectId)) (i : Interpreter types) :
    ExceptionClass → ObjectId → Prop
  | builtin {builtins : Str → Option ObjectId} {name : Str} {c : ObjectId} :
    builtins ∈ past → builtins name = some c → Declared past i (.builtin name) c
  | registered {key : ExceptionKey} {spec : ExceptionSpec types} {c b : ObjectId} :
    i.cache.exceptionSpec key = some spec → i.cache.realisedException key = some c →
    (i.heap.objects c).mro = c :: (i.heap.objects b).mro → Declared past i spec.base b →
    Declared past i key.class c

/-- What is known of an interpreter between two requests. -/
structure Sound (past : List (Str → Option ObjectId)) (i : Interpreter types) : Prop where
  current : i.builtins ∈ past
  valid : ∀ builtins ∈ past, ∀ name c, builtins name = some c → c < i.heap.next
  allocated : ∀ key c, i.cache.realisedException key = some c → c < i.heap.next
  realised : ∀ key c, i.cache.realisedException key = some c → Declared past i key.class c

/-- Objects keep their method resolution order. -/
structure Grown (i i' : Interpreter types) : Prop where
  cache : i.cache.Extends i'.cache
  next : i.heap.next ≤ i'.heap.next
  mro : ∀ x, x < i.heap.next → (i'.heap.objects x).mro = (i.heap.objects x).mro

section

variable {past past' : List (Str → Option ObjectId)} {i i' i'' : Interpreter types}

namespace Grown

theorem trans (h : Grown i i') (h' : Grown i' i'') : Grown i i'' where
  cache := h.cache.trans h'.cache
  next := h.next.trans h'.next
  mro x hx := (h'.mro x (hx.trans_le h.next)).trans (h.mro x hx)

theorem of_quiet (h : Quiet i i') : Grown i i' where
  cache := .of_eq h.cache
  next := h.next
  mro x hx := by rw [h.objects x hx]

end Grown

theorem Declared.lt {cls : ExceptionClass} {c : ObjectId} (hsound : Sound past i)
    (h : Declared past i cls c) : c < i.heap.next := by
  cases h with
  | builtin hmem hname => exact hsound.valid _ hmem _ _ hname
  | registered _ hrealised _ _ => exact hsound.allocated _ _ hrealised

/-- Declared bases stay declared. -/
theorem Declared.mono {cls : ExceptionClass} {c : ObjectId} (hsound : Sound past i)
    (hgrown : Grown i i') (hpast : past ⊆ past') (h : Declared past i cls c) :
    Declared past' i' cls c := by
  induction h with
  | builtin hmem hname => exact .builtin (hpast hmem) hname
  | @registered key spec c b hspec hrealised hmro hbase ih =>
    refine .registered (hgrown.cache.specs _ _ hspec) (hgrown.cache.realised _ _ hrealised) ?_ ih
    rw [hgrown.mro c (hsound.allocated _ _ hrealised), hgrown.mro b (hbase.lt hsound), hmro]

/-- The references of a realised exception come to an end. -/
theorem Declared.chainEnds {cls : ExceptionClass} {c : ObjectId} (h : Declared past i cls c) :
    ∀ key, cls.key = some key → i.cache.ChainEnds key := by
  induction h with
  | builtin _ _ => exact nofun
  | @registered key' spec c b hspec _ _ _ ih =>
    intro key hkey
    obtain rfl : key' = key := by
      rw [key'.key_class] at hkey
      exact Option.some.inj hkey
    refine Acc.intro _ ?_
    rintro base ⟨spec', hspec', hbase⟩
    cases hspec.symm.trans hspec'
    exact ih base hbase

theorem Sound.chainEnds {key : ExceptionKey} {c : ObjectId} (h : Sound past i)
    (hrealised : i.cache.realisedException key = some c) : i.cache.ChainEnds key :=
  (h.realised key c hrealised).chainEnds key key.key_class

theorem Sound.of_grown (h : Sound past i) (hgrown : Grown i i') (hbuiltins : i'.builtins ∈ past)
    (hrealised : ∀ key c, i'.cache.realisedException key = some c →
      i.cache.realisedException key = some c) : Sound past i' where
  current := hbuiltins
  valid b hb name c hc := (h.valid b hb name c hc).trans_le hgrown.next
  allocated key c hc := (h.allocated key c (hrealised key c hc)).trans_le hgrown.next
  realised key c hc := (h.realised key c (hrealised key c hc)).mono h hgrown (List.Subset.refl _)

theorem Sound.of_quiet (h : Sound past i) (hquiet : Quiet i i') : Sound past i' := by
  refine h.of_grown (.of_quiet hquiet) ?_ fun key c hc => ?_
  · rw [hquiet.builtins]
    exact h.current
  · rw [← hquiet.cache]
    exact hc

/-- What a computation does to a sound interpreter that realises nothing but the exceptions in
`reach`. -/
structure Realises (past : List (Str → Option ObjectId)) (reach : ExceptionKey → Prop)
    (i i' : Interpreter types) : Prop where
  sound : Sound past i'
  grown : Grown i i'
  builtins : i'.builtins = i.builtins
  specs : i'.cache.exceptionSpec = i.cache.exceptionSpec
  within : ∀ key c, i'.cache.realisedException key = some c →
    i.cache.realisedException key = some c ∨ reach key

namespace Realises

variable {reach reach' : ExceptionKey → Prop}

theorem of_quiet (h : Sound past i) (hquiet : Quiet i i') : Realises past reach i i' where
  sound := h.of_quiet hquiet
  grown := .of_quiet hquiet
  builtins := hquiet.builtins
  specs := by rw [hquiet.cache]
  within key c hc := Or.inl (by rw [← hquiet.cache]; exact hc)

theorem trans (h : Realises past reach i i') (h' : Realises past reach i' i'') :
    Realises past reach i i'' where
  sound := h'.sound
  grown := h.grown.trans h'.grown
  builtins := h'.builtins.trans h.builtins
  specs := h'.specs.trans h.specs
  within key c hc := by
    rcases h'.within key c hc with hc | hreach
    · exact h.within key c hc
    · exact Or.inr hreach

theorem mono (h : Realises past reach i i') (hreach : ∀ key, reach key → reach' key) :
    Realises past reach' i i' :=
  { h with within := fun key c hc => (h.within key c hc).imp_right (hreach key) }

end Realises

namespace ExceptionRealiser

/-- The class that has been created is kept. -/
theorem realises_setRealised {key : ExceptionKey} {spec : ExceptionSpec types} {b c : ObjectId}
    {i₁ i₂ : Interpreter types} (hsound : Sound past i₁) (hquiet : Quiet i₁ i₂)
    (hspec : i₁.cache.exceptionSpec key = some spec)
    (hnone : i₁.cache.realisedException key = none) (hb : Declared past i₁ spec.base b)
    (hc : Created spec.module spec.name b i₁ i₂ c) :
    Realises past (· = key) i₁ { i₂ with cache := i₂.cache.setRealisedException key c } ∧
      (i₂.cache.setRealisedException key c).realisedException key = some c := by
  have hsound₂ : Sound past i₂ := hsound.of_quiet hquiet
  have hself : (i₂.cache.setRealisedException key c).realisedException key = some c :=
    RealisationCache.realised_setRealised_self (by rw [hquiet.cache, hspec])
  have hother : ∀ key', key' ≠ key →
      (i₂.cache.setRealisedException key c).realisedException key' =
        i₂.cache.realisedException key' := fun key' hne =>
    RealisationCache.realised_setRealised_of_ne hne
  have hgrown : Grown i₂ { i₂ with cache := i₂.cache.setRealisedException key c } := by
    refine ⟨⟨fun key' spec' h => ?_, fun key' x hx => ?_⟩, le_refl _, fun _ _ => rfl⟩
    · rw [RealisationCache.exceptionSpec_setRealised]
      exact h
    · have hne : key' ≠ key := by
        rintro rfl
        rw [hquiet.cache, hnone] at hx
        cases hx
      rw [hother key' hne]
      exact hx
  have hgrown₁ := (Grown.of_quiet hquiet).trans hgrown
  have hdeclared : Declared past { i₂ with cache := i₂.cache.setRealisedException key c }
      key.class c := by
    have hbase := hb.mono hsound hgrown₁ fun _ h => h
    refine .registered ?_ hself ?_ hbase
    · rw [RealisationCache.exceptionSpec_setRealised, hquiet.cache, hspec]
    · rw [hgrown₁.mro b (hb.lt hsound)]
      exact hc.mro
  refine ⟨⟨⟨hsound₂.current, hsound₂.valid, fun key' x hx => ?_, fun key' x hx => ?_⟩, hgrown₁,
    hquiet.builtins, ?_, fun key' x hx => ?_⟩, hself⟩
  · by_cases hne : key' = key
    · subst hne
      cases hself.symm.trans hx
      exact hc.allocated
    · exact hsound₂.allocated key' x ((hother key' hne).symm.trans hx)
  · by_cases hne : key' = key
    · subst hne
      cases hself.symm.trans hx
      exact hdeclared
    · have hx₂ := (hother key' hne).symm.trans hx
      exact (hsound₂.realised key' x hx₂).mono hsound₂ hgrown fun _ h => h
  · funext key'
    rw [RealisationCache.exceptionSpec_setRealised, hquiet.cache]
  · by_cases hne : key' = key
    · exact Or.inr hne
    · refine Or.inl ?_
      rw [← hquiet.cache]
      exact (hother key' hne).symm.trans hx

/-- What a request does, and what it says. -/
structure Requested (past : List (Str → Option ObjectId)) (key : ExceptionKey)
    (i : Interpreter types) (o : Outcome Err ObjectId) (i' : Interpreter types) : Prop where
  realises : Realises past (i.cache.LeadsTo key) i i'
  answer : ∀ c, o = .ok c → i'.cache.realisedException key = some c
  decided : o ≠ .panic

theorem baseOf_cases {host : ExceptionKey → Host (Interpreter types) Err ObjectId}
    (hhost : ∀ key o i', host key i = (o, i') → Requested past key i o i')
    {spec : ExceptionSpec types} {o : Outcome Err ObjectId} (hsound : Sound past i)
    (h : baseOf host spec i = (o, i')) :
    Realises past (fun key' => ∃ base, spec.base.key = some base ∧ i.cache.LeadsTo base key')
        i i' ∧
      (∀ b, o = .ok b → Declared past i' spec.base b) ∧ o ≠ .panic := by
  unfold baseOf at h
  cases hbase : spec.base.key with
  | some base =>
    rw [hbase] at h
    obtain ⟨hrealises, hanswer, hdecided⟩ := hhost base o i' h
    refine ⟨hrealises.mono fun key' hkey' => ⟨base, rfl, hkey'⟩, fun b hb => ?_, hdecided⟩
    rw [ExceptionClass.eq_class hbase]
    exact hrealises.sound.realised base b (hanswer b hb)
  | none =>
    rw [hbase] at h
    cases hname : spec.base with
    | builtin name =>
      rw [hname] at h
      obtain ⟨hquiet, ⟨c, rfl, hc⟩ | ⟨e, rfl⟩⟩ := builtin_cases h
      · refine ⟨.of_quiet hsound hquiet, fun b hb => ?_, nofun⟩
        cases hb
        exact .builtin hsound.current hc
      · exact ⟨.of_quiet hsound hquiet, nofun, nofun⟩
    | guest module qualname =>
      rw [hname] at h
      cases h
      exact ⟨.of_quiet hsound (.refl _), nofun, nofun⟩
    | host module name =>
      rw [hname] at hbase
      cases hbase
    | typed id name =>
      rw [hname] at hbase
      cases hbase

theorem requested_host (depth : Nat) {key : ExceptionKey} {o : Outcome Err ObjectId}
    (hsound : Sound past i) (h : host depth key i = (o, i')) : Requested past key i o i' := by
  induction depth generalizing key i o i' with
  | zero =>
    cases h
    exact ⟨.of_quiet hsound (.refl _), nofun, nofun⟩
  | succ depth ih =>
    rcases host_cases h with ⟨c, hc, rfl, rfl⟩ | ⟨-, ⟨e, rfl⟩, rfl⟩ | ⟨spec, hspec, hnone, h⟩
    · refine ⟨.of_quiet hsound (.refl _), fun c' hc' => ?_, nofun⟩
      cases hc'
      exact hc
    · exact ⟨.of_quiet hsound (.refl _), nofun, nofun⟩
    · rcases hbase : baseOf (host depth) spec i with ⟨ob, i₁⟩
      obtain ⟨hrealises, hdeclared, hdecided⟩ :=
        baseOf_cases (fun key o i' hhost => ih hsound hhost) hsound hbase
      have hbefore : Realises past (i.cache.LeadsTo key) i i₁ := by
        refine hrealises.mono fun key' ⟨base, hkey, hlead⟩ => ?_
        exact .head ⟨spec, hspec, hkey⟩ hlead
      have hvalid : ∀ b, ob = .ok b → b < i₁.heap.next := fun b hb =>
        (hdeclared b hb).lt hrealises.sound
      rcases realise_cases h hbase hvalid with ⟨-, rfl, hno, hpanic, -⟩ | ⟨b, rfl, hend⟩
      · exact ⟨hbefore, fun c hc => absurd hc (hno c), fun hp => hdecided (hpanic hp)⟩
      · rcases hend with ⟨⟨e, rfl⟩, hquiet⟩ | ⟨c, i₂, rfl, hquiet, hcreated, rfl⟩
        · exact ⟨hbefore.trans (.of_quiet hrealises.sound hquiet), nofun, nofun⟩
        · -- while its base was realised, the exception was not: its chain ends
          have hstill : i₁.cache.realisedException key = none := by
            cases hnow : i₁.cache.realisedException key with
            | none => rfl
            | some x =>
              exfalso
              rcases hrealises.within key x hnow with hx | ⟨base, hkey, hback⟩
              · rw [hnone] at hx
                cases hx
              · have hrefers := RealisationCache.refersTo_congr hrealises.specs
                have href : i₁.cache.RefersTo key base := by
                  rw [hrefers]
                  exact ⟨spec, hspec, hkey⟩
                refine (hrealises.sound.chainEnds hnow).not_leadsTo href ?_
                unfold RealisationCache.LeadsTo
                rw [hrefers]
                exact hback
          obtain ⟨hkept, hself⟩ := realises_setRealised hrealises.sound hquiet
            (by rw [hrealises.specs, hspec]) hstill (hdeclared b rfl) hcreated
          refine ⟨hbefore.trans (hkept.mono ?_), fun c' hc' => ?_, nofun⟩
          · rintro _ rfl
            exact .refl
          · cases hc'
            exact hself

/-- A realisation gets stuck just if that of its base does. -/
theorem realise_stuck_iff {host : ExceptionKey → Host (Interpreter types) Err ObjectId}
    (hhost : ∀ key o i', host key i = (o, i') → Requested past key i o i')
    {key : ExceptionKey} {spec : ExceptionSpec types} (hsound : Sound past i) :
    (realise host key spec i).1 = .stuck ↔ (baseOf host spec i).1 = .stuck := by
  rcases hbase : baseOf host spec i with ⟨ob, i₁⟩
  rcases h : realise host key spec i with ⟨o, i'⟩
  obtain ⟨hrealises, hdeclared, -⟩ := baseOf_cases hhost hsound hbase
  have hvalid : ∀ b, ob = .ok b → b < i₁.heap.next := fun b hb =>
    (hdeclared b hb).lt hrealises.sound
  rcases realise_cases h hbase hvalid with ⟨-, -, -, -, hstuck⟩ | ⟨b, rfl, hend⟩
  · exact hstuck
  · rcases hend with ⟨⟨e, rfl⟩, -⟩ | ⟨c, i₂, rfl, -⟩
    · exact ⟨nofun, nofun⟩
    · exact ⟨nofun, nofun⟩

/-- What a base without a key does is decided at once. -/
theorem baseOf_not_stuck {host : ExceptionKey → Host (Interpreter types) Err ObjectId}
    {spec : ExceptionSpec types} (h : spec.base.key = none) : (baseOf host spec i).1 ≠ .stuck := by
  unfold baseOf
  rw [h]
  cases spec.base with
  | builtin name =>
    change (builtin name i).1 ≠ .stuck
    rcases settles_builtin name i with ⟨c, hc⟩ | ⟨e, he⟩
    · rw [hc]
      nofun
    · rw [he]
      nofun
  | host module name => nofun
  | guest module qualname => nofun
  | typed id name => nofun

/-- It realises nothing. -/
theorem quiet_baseOf {host : ExceptionKey → Host (Interpreter types) Err ObjectId}
    {spec : ExceptionSpec types} {o : Outcome Err ObjectId} (hkey : spec.base.key = none)
    (h : baseOf host spec i = (o, i')) : Quiet i i' := by
  unfold baseOf at h
  rw [hkey] at h
  cases hbase : spec.base with
  | builtin name =>
    rw [hbase] at h
    exact (builtin_cases h).1
  | guest module qualname =>
    rw [hbase] at h
    cases h
    exact .refl _
  | host module name =>
    rw [hbase] at hkey
    cases hkey
  | typed id name =>
    rw [hbase] at hkey
    cases hkey

theorem baseOf_of_key {host : ExceptionKey → Host (Interpreter types) Err ObjectId}
    {spec : ExceptionSpec types} {base : ExceptionKey} (h : spec.base.key = some base) :
    baseOf host spec = host base := by
  unfold baseOf
  rw [h]

/-- A request for a chain that ends does so. -/
theorem exists_host_ne_stuck (hsound : Sound past i) {key : ExceptionKey}
    (h : i.cache.ChainEnds key) : ∃ depth, (host depth key i).1 ≠ .stuck := by
  induction h with
  | intro key _ ih =>
    have hfirst : ∀ depth spec, i.cache.exceptionSpec key = some spec →
        (baseOf (host depth) spec i).1 ≠ .stuck → (host (depth + 1) key i).1 ≠ .stuck := by
      intro depth spec hspec hbase
      rcases h : host (depth + 1) key i with ⟨o, i'⟩
      rcases host_cases h with ⟨c, -, rfl, -⟩ | ⟨-, ⟨e, rfl⟩, -⟩ | ⟨spec', hspec', -, h'⟩
      · nofun
      · nofun
      · cases hspec.symm.trans hspec'
        intro hstuck
        have hrealise : (realise (host depth) key spec i).1 = .stuck :=
          (congrArg Prod.fst h').trans hstuck
        rw [realise_stuck_iff (fun _ _ _ hk => requested_host depth hsound hk) hsound] at hrealise
        exact hbase hrealise
    cases hspec : i.cache.exceptionSpec key with
    | none =>
      refine ⟨1, ?_⟩
      rcases h : host 1 key i with ⟨o, i'⟩
      rcases host_cases h with ⟨c, -, rfl, -⟩ | ⟨-, ⟨e, rfl⟩, -⟩ | ⟨spec', hspec', -⟩
      · nofun
      · nofun
      · rw [hspec] at hspec'
        cases hspec'
    | some spec =>
      cases hbase : spec.base.key with
      | none => exact ⟨1, hfirst 0 spec hspec (baseOf_not_stuck hbase)⟩
      | some base =>
        obtain ⟨depth, hdepth⟩ := ih base ⟨spec, hspec, hbase⟩
        refine ⟨depth + 1, hfirst depth spec hspec ?_⟩
        rw [baseOf_of_key hbase]
        exact hdepth

/-- A request for a chain that does not end gets nowhere. -/
theorem host_stuck (hsound : Sound past i) {key : ExceptionKey} (h : ¬ i.cache.ChainEnds key)
    (depth : Nat) : (host depth key i).1 = .stuck := by
  induction depth generalizing key with
  | zero => rfl
  | succ depth ih =>
    rcases hhost : host (depth + 1) key i with ⟨o, i'⟩
    rcases host_cases hhost with ⟨c, hc, -⟩ | ⟨hspec, -⟩ | ⟨spec, hspec, -, hrealise⟩
    · exact absurd (hsound.chainEnds hc) h
    · refine absurd (RealisationCache.chainEnds_of_forall_not fun base => ?_) h
      rintro ⟨spec, hspec', -⟩
      rw [hspec] at hspec'
      cases hspec'
    · have hstuck : (realise (host depth) key spec i).1 = .stuck := by
        rw [realise_stuck_iff (fun _ _ _ hk => requested_host depth hsound hk) hsound]
        cases hbase : spec.base.key with
        | some base =>
          rw [baseOf_of_key hbase]
          refine ih fun hends => h ?_
          exact RealisationCache.chainEnds_of_refersTo ⟨spec, hspec, hbase⟩ hends
        | none =>
          refine absurd (RealisationCache.chainEnds_of_forall_not ?_) h
          rintro base ⟨spec', hspec', hbase'⟩
          cases hspec.symm.trans hspec'
          rw [hbase] at hbase'
          cases hbase'
      rw [hrealise] at hstuck
      exact hstuck

end ExceptionRealiser

end

end GuestPy.Exceptions
