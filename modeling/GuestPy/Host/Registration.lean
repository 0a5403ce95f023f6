import GuestPy.Host.Class
import GuestPy.Exceptions.Requests

/-!
# Registering host classes

A module of the host registers classes, and a runtime keeps the first specification that it meets
for each payload type. The bases of a class are registered along with it.

* `ModuleSpec.class` builds the specification of a class anew, and notes the module on it. Nothing
  notes a module on its bases.
* `catalog` is what a runtime keeps of its modules. `Realised` says what the `__module__` of the
  classes may be that guests have asked for.
* `independent_iff`: the order of the registrations does not matter just if no registered class is
  a base of another one, and none is registered under two names of modules.
-/

namespace GuestPy.Registration

open Classes (ClassBases)
open Exceptions (Interned)

/-! ## Specifications -/

/-- The classes of the host program. A class is built from its payload type, and so are its
bases. -/
structure Program where
  of : Nat → Classes.ClassSpec
  payload_of : ∀ p, (of p).payload = p
  lineage_of : ∀ p, ∀ s ∈ (of p).hostLineage, s = of s.payload

def bases : Classes.ClassSpec → ClassBases
  | .mk _ _ bases _ _ => bases

/-- A specification, with the module that is noted on it. -/
structure ClassSpec where
  spec : Classes.ClassSpec
  module : Option Str

namespace ClassSpec

/-- `ClassSpec::of`. -/
def of (program : Program) (p : Nat) : ClassSpec := ⟨program.of p, none⟩

def payload (s : ClassSpec) : Nat := s.spec.payload

/-- The first module stays. -/
def setModule (s : ClassSpec) (module : Str) : ClassSpec :=
  { s with module := some (s.module.getD module) }

/-- `host_lineage`. The bases have been built by `of`. -/
def hostLineage (s : ClassSpec) : List ClassSpec :=
  s :: (bases s.spec).hostLineage.map fun base => ⟨base, none⟩

/-- `module_name`, as it becomes the `__module__` of the class. -/
def moduleName (s : ClassSpec) : Str := s.module.getD []

end ClassSpec

structure ModuleSpec where
  name : Str
  classes : List ClassSpec

namespace ModuleSpec

def new (name : Str) : ModuleSpec := ⟨name, []⟩

/-- `ModuleSpec::class`. -/
def «class» (program : Program) (m : ModuleSpec) (p : Nat) : ModuleSpec :=
  { m with classes := m.classes ++ [(ClassSpec.of program p).setModule m.name] }

end ModuleSpec

/-- A module, and the payload types that it registers, in order. -/
structure Registrations where
  name : Str
  classes : List Nat

def Registrations.module (program : Program) (r : Registrations) : ModuleSpec :=
  r.classes.foldl (ModuleSpec.class program) (.new r.name)

/-! ## The catalog of a runtime -/

def absorbClass (classes : Interned Nat ClassSpec) (s : ClassSpec) : Interned Nat ClassSpec :=
  s.hostLineage.foldl (fun classes s =>
    if classes.contains s.payload then classes else classes.intern s.payload s) classes

/-- `absorb`, for the classes of a module. -/
def absorb (classes : Interned Nat ClassSpec) (m : ModuleSpec) : Interned Nat ClassSpec :=
  m.classes.foldl absorbClass classes

def catalog (program : Program) (rs : List Registrations) : Interned Nat ClassSpec :=
  (rs.map (Registrations.module program)).foldl absorb .new

/-! ### Realised classes -/

/-- A specification that a class may be made from: one that a module registers, or a base. -/
def Asked (program : Program) (rs : List Registrations) (s : ClassSpec) : Prop :=
  ∃ r ∈ rs, ∃ c ∈ (r.module program).classes, s ∈ c.hostLineage

/-- The `__module__` of each class that has been made. A class is made from the specification that
was asked for first. -/
inductive Realised (program : Program) (rs : List Registrations) : (Nat → Option Str) → Prop
  | none : Realised program rs fun _ => none
  | make {made : Nat → Option Str} {s : ClassSpec} : Realised program rs made →
    Asked program rs s → (catalog program rs).contains s.payload = true → made s.payload = none →
    Realised program rs (Function.update made s.payload (some s.moduleName))

/-! ## Orders -/

/-- The same calls in another order, and the modules, too. -/
def Reordered (rs rs' : List Registrations) : Prop :=
  ∃ rs₁, List.Forall₂ (fun r r' => r'.name = r.name ∧ r.classes.Perm r'.classes) rs rs₁ ∧
    rs₁.Perm rs'

/-- Whatever the order, the catalog is the same, a registered class has the name of its module,
and a class is made with the module that is in the catalog. -/
structure Independent (program : Program) (rs : List Registrations) : Prop where
  same : ∀ rs', Reordered rs rs' → ∀ p,
    (catalog program rs').spec p = (catalog program rs).spec p
  named : ∀ rs', Reordered rs rs' → ∀ r ∈ rs, ∀ p ∈ r.classes,
    ∃ s, (catalog program rs').spec p = some s ∧ s.module = some r.name
  realised : ∀ rs' made, Reordered rs rs' → Realised program rs' made →
    ∀ p module, made p = some module →
      ∃ s, (catalog program rs').spec p = some s ∧ module = s.moduleName

/-- No registered class is a base of another one, and none is registered under two names. -/
structure Separate (program : Program) (rs : List Registrations) : Prop where
  bases : ∀ r ∈ rs, ∀ p ∈ r.classes, ∀ r' ∈ rs, ∀ q ∈ r'.classes,
    ∀ s ∈ (bases (program.of q)).hostLineage, s.payload ≠ p
  names : ∀ r ∈ rs, ∀ r' ∈ rs, ∀ p ∈ r.classes, p ∈ r'.classes → r'.name = r.name

/-! ## What is interned -/

section

variable {program : Program} {rs rs' : List Registrations}

theorem classes_module (r : Registrations) :
    (r.module program).classes = r.classes.map fun p => ⟨program.of p, some r.name⟩ := by
  have hfold : ∀ (ps : List Nat) (m : ModuleSpec),
      (ps.foldl (ModuleSpec.class program) m).classes =
        m.classes ++ ps.map fun p => ⟨program.of p, some m.name⟩ := by
    intro ps
    induction ps with
    | nil => exact fun m => (List.append_nil _).symm
    | cons p ps ih =>
      intro m
      rw [List.foldl_cons, ih]
      simp [ModuleSpec.class, ClassSpec.of, ClassSpec.setModule]
  exact hfold r.classes (.new r.name)

/-- All specifications that are met, in order. -/
def met (program : Program) (rs : List Registrations) : List ClassSpec :=
  rs.flatMap fun r => r.classes.flatMap fun p =>
    ClassSpec.hostLineage ⟨program.of p, some r.name⟩

theorem met_cons (r : Registrations) (rs : List Registrations) :
    met program (r :: rs) = (r.classes.flatMap fun p =>
      ClassSpec.hostLineage ⟨program.of p, some r.name⟩) ++ met program rs := rfl

theorem mem_met {e : ClassSpec} :
    e ∈ met program rs ↔ ∃ r ∈ rs, ∃ p ∈ r.classes, e = ⟨program.of p, some r.name⟩ ∨
      ∃ s ∈ (bases (program.of p)).hostLineage, e = ⟨s, none⟩ := by
  simp only [met, List.mem_flatMap, ClassSpec.hostLineage, List.mem_cons, List.mem_map, eq_comm]

theorem asked_iff {e : ClassSpec} : Asked program rs e ↔ e ∈ met program rs := by
  simp only [Asked, met, List.mem_flatMap, classes_module, List.mem_map,
    exists_exists_and_eq_and]

/-- Interning does not replace. -/
theorem spec_intern {K V : Type} [DecidableEq K] (i : Interned K V) (key key' : K) (v : V) :
    (i.intern key v).spec key' =
      (i.spec key').or (if key = key' then some v else none) := by
  cases hkey : i.entry key' with
  | some e =>
    have hentry : (i.intern key v).entry key' = some e := Interned.entry_intern hkey
    unfold Interned.spec
    rw [hentry, hkey]
    rfl
  | none =>
    have hspec : i.spec key' = none := by
      unfold Interned.spec
      rw [hkey]
      rfl
    rw [hspec, Option.none_or]
    by_cases hk : key = key'
    · subst hk
      have hentry : (i.intern key v).entry key = some ⟨v, none⟩ := by
        rw [Interned.entry_eq_some_iff, Interned.mem_intern]
        exact Or.inr ⟨hkey, rfl⟩
      unfold Interned.spec
      rw [hentry, if_pos rfl]
      rfl
    · have hentry : (i.intern key v).entry key' = none := by
        rw [Option.eq_none_iff_forall_not_mem]
        intro e he
        rcases Interned.mem_intern.mp (Interned.entry_eq_some_iff.mp he) with hmem | ⟨-, heq⟩
        · rw [Interned.entry_eq_some_iff.mpr hmem] at hkey
          cases hkey
        · exact hk (congrArg Prod.fst heq).symm
      unfold Interned.spec
      rw [hentry, if_neg hk]
      rfl

theorem spec_foldl (l : List ClassSpec) (i : Interned Nat ClassSpec) (p : Nat) :
    (l.foldl (fun classes s => if classes.contains s.payload then classes
      else classes.intern s.payload s) i).spec p =
      (i.spec p).or (l.find? fun s => s.payload == p) := by
  induction l generalizing i with
  | nil => exact (Option.or_none ..).symm
  | cons s l ih =>
    have hstep : (if i.contains s.payload then i else i.intern s.payload s).spec p =
        (i.spec p).or (if s.payload = p then some s else none) := by
      split
      · next hcontains =>
        by_cases hp : s.payload = p
        · subst hp
          obtain ⟨e, he⟩ := Option.isSome_iff_exists.mp hcontains
          have hspec : i.spec s.payload = some e.spec :=
            congrArg (Option.map Exceptions.InternedEntry.spec) he
          rw [hspec]
          rfl
        · rw [if_neg hp, Option.or_none]
      · exact spec_intern i s.payload p s
    rw [List.foldl_cons, ih, hstep, Option.or_assoc, List.find?_cons]
    by_cases hp : s.payload = p
    · simp [hp]
    · rw [if_neg hp, Option.none_or, beq_eq_false_iff_ne.mpr hp]

/-- **First met, first kept.** -/
theorem spec_catalog (p : Nat) :
    (catalog program rs).spec p = (met program rs).find? fun s => s.payload == p := by
  have hclasses : ∀ (cs : List ClassSpec) (i : Interned Nat ClassSpec),
      (cs.foldl absorbClass i).spec p =
        (i.spec p).or ((cs.flatMap ClassSpec.hostLineage).find? fun s => s.payload == p) := by
    intro cs
    induction cs with
    | nil => exact fun i => (Option.or_none ..).symm
    | cons c cs ih =>
      intro i
      rw [List.foldl_cons, ih, absorbClass, spec_foldl, Option.or_assoc, List.flatMap_cons,
        List.find?_append]
  have hmodules : ∀ (rs : List Registrations) (i : Interned Nat ClassSpec),
      ((rs.map (Registrations.module program)).foldl absorb i).spec p =
        (i.spec p).or ((met program rs).find? fun s => s.payload == p) := by
    intro rs
    induction rs with
    | nil => exact fun i => (Option.or_none ..).symm
    | cons r rs ih =>
      intro i
      rw [List.map_cons, List.foldl_cons, ih, absorb, hclasses, Option.or_assoc, met_cons,
        List.find?_append, classes_module, List.flatMap_map]
  exact (hmodules rs .new).trans (Option.none_or ..)

/-! ## Where registrations are separate -/

theorem registers_reordered {n : Str} {p : Nat} (h : Reordered rs rs') :
    (∃ r ∈ rs', r.name = n ∧ p ∈ r.classes) ↔ ∃ r ∈ rs, r.name = n ∧ p ∈ r.classes := by
  obtain ⟨rs₁, hmodules, hperm⟩ := h
  have hfirst : (∃ r ∈ rs', r.name = n ∧ p ∈ r.classes) ↔
      ∃ r ∈ rs₁, r.name = n ∧ p ∈ r.classes := by
    constructor
    · rintro ⟨r, hr, h⟩
      exact ⟨r, hperm.mem_iff.mpr hr, h⟩
    · rintro ⟨r, hr, h⟩
      exact ⟨r, hperm.mem_iff.mp hr, h⟩
  rw [hfirst]
  clear hfirst hperm
  induction hmodules with
  | nil => exact Iff.rfl
  | @cons r r' rs rs₁ hr _ ih =>
    simp only [List.exists_mem_cons_iff, ih, hr.1, hr.2.mem_iff]

theorem mem_met_reordered {e : ClassSpec} (h : Reordered rs rs') :
    e ∈ met program rs' ↔ e ∈ met program rs := by
  have hexpand : ∀ rs, e ∈ met program rs ↔ ∃ n p, (∃ r ∈ rs, r.name = n ∧ p ∈ r.classes) ∧
      (e = ⟨program.of p, some n⟩ ∨
        ∃ s ∈ (bases (program.of p)).hostLineage, e = ⟨s, none⟩) := by
    intro rs
    rw [mem_met]
    constructor
    · rintro ⟨r, hr, p, hp, he⟩
      exact ⟨r.name, p, ⟨r, hr, rfl, hp⟩, he⟩
    · rintro ⟨n, p, ⟨r, hr, rfl, hp⟩, he⟩
      exact ⟨r, hr, p, hp, he⟩
  rw [hexpand, hexpand]
  simp only [registers_reordered h]

theorem hostLineage_eq (s : Classes.ClassSpec) : s.hostLineage = s :: (bases s).hostLineage := by
  cases s with
  | mk payload name bases members statics => rw [Classes.ClassSpec.hostLineage, Registration.bases]

/-- What is met was built from its payload type. -/
theorem spec_of_mem_met {e : ClassSpec} (h : e ∈ met program rs) :
    e.spec = program.of e.payload := by
  obtain ⟨r, -, p, -, rfl | ⟨s, hs, rfl⟩⟩ := mem_met.mp h
  · exact congrArg program.of (program.payload_of p).symm
  · refine program.lineage_of p s ?_
    rw [hostLineage_eq]
    exact List.mem_cons_of_mem _ hs

/-- Separate registrations meet each payload type with one module. -/
theorem Separate.unique (h : Separate program rs) {e e' : ClassSpec} (he : e ∈ met program rs)
    (he' : e' ∈ met program rs) (hp : e.payload = e'.payload) : e = e' := by
  have hspec : e.spec = e'.spec := by rw [spec_of_mem_met he, spec_of_mem_met he', hp]
  have hmodule : e.module = e'.module := by
    obtain ⟨r, hr, p, hpr, rfl | ⟨s, hs, rfl⟩⟩ := mem_met.mp he
    · obtain ⟨r', hr', q, hqr, rfl | ⟨s', hs', rfl⟩⟩ := mem_met.mp he'
      · have hpq : p = q := by
          rw [← program.payload_of p, ← program.payload_of q]
          exact hp
        subst hpq
        exact congrArg some (h.names r' hr' r hr p hqr hpr)
      · refine absurd ?_ (h.bases r hr p hpr r' hr' q hqr s' hs')
        rw [← program.payload_of p]
        exact hp.symm
    · obtain ⟨r', hr', q, hqr, rfl | ⟨s', hs', rfl⟩⟩ := mem_met.mp he'
      · refine absurd ?_ (h.bases r' hr' q hqr r hr p hpr s hs)
        rw [← program.payload_of q]
        exact hp
      · rfl
  obtain ⟨spec, module⟩ := e
  obtain ⟨spec', module'⟩ := e'
  cases hspec
  cases hmodule
  rfl

theorem Separate.spec_eq_some_iff (h : Separate program rs) (hre : Reordered rs rs') {p : Nat}
    {e : ClassSpec} :
    (catalog program rs').spec p = some e ↔ e ∈ met program rs ∧ e.payload = p := by
  rw [spec_catalog]
  constructor
  · intro hfind
    have hp := List.find?_some hfind
    exact ⟨(mem_met_reordered hre).mp (List.mem_of_find?_eq_some hfind), beq_iff_eq.mp hp⟩
  · rintro ⟨he, rfl⟩
    cases hfind : (met program rs').find? fun s => s.payload == e.payload with
    | some e' =>
      have he' := (mem_met_reordered hre).mp (List.mem_of_find?_eq_some hfind)
      have hp := List.find?_some hfind
      rw [h.unique he' he (beq_iff_eq.mp hp)]
    | none =>
      have hnot := List.find?_eq_none.mp hfind e ((mem_met_reordered hre).mpr he)
      exact absurd (beq_self_eq_true e.payload) hnot

theorem Reordered.refl (rs : List Registrations) : Reordered rs rs :=
  ⟨rs, List.forall₂_same.mpr fun _ _ => ⟨rfl, List.Perm.refl _⟩, List.Perm.refl rs⟩

theorem Separate.independent (h : Separate program rs) : Independent program rs where
  same rs' hre p := by
    ext e
    rw [h.spec_eq_some_iff hre, h.spec_eq_some_iff (.refl rs)]
  named rs' hre r hr p hp := by
    refine ⟨⟨program.of p, some r.name⟩, ?_, rfl⟩
    rw [h.spec_eq_some_iff hre]
    exact ⟨mem_met.mpr ⟨r, hr, p, hp, Or.inl rfl⟩, program.payload_of p⟩
  realised rs' made hre hmade := by
    induction hmade with
    | none => exact nofun
    | @make made s _ hasked _ _ ih =>
      intro p module hp
      by_cases hs : p = s.payload
      · subst hs
        rw [Function.update_self] at hp
        cases hp
        refine ⟨s, ?_, rfl⟩
        rw [h.spec_eq_some_iff hre]
        exact ⟨(mem_met_reordered hre).mp (asked_iff.mp hasked), rfl⟩
      · rw [Function.update_of_ne hs] at hp
        exact ih p module hp

/-! ## Where they are not -/

mutual

theorem sizeOf_of_mem_lineage {s : Classes.ClassSpec} :
    ∀ (t : Classes.ClassSpec), s ∈ t.hostLineage → sizeOf s ≤ sizeOf t
  | .mk payload name bases members statics, h => by
    rw [Classes.ClassSpec.hostLineage] at h
    rcases List.mem_cons.mp h with rfl | h
    · exact le_refl _
    · have hlt := sizeOf_of_mem_bases bases h
      simp only [Classes.ClassSpec.mk.sizeOf_spec]
      omega

theorem sizeOf_of_mem_bases {s : Classes.ClassSpec} :
    ∀ (bs : ClassBases), s ∈ bs.hostLineage → sizeOf s < sizeOf bs
  | .nil, h => by
    rw [ClassBases.hostLineage] at h
    cases h
  | .host base rest, h => by
    rw [ClassBases.hostLineage] at h
    simp only [ClassBases.host.sizeOf_spec]
    rcases List.mem_append.mp h with h | h
    · have hle := sizeOf_of_mem_lineage base h
      omega
    · have hlt := sizeOf_of_mem_bases rest h
      omega
  | .imported module qualname rest, h => by
    rw [ClassBases.hostLineage] at h
    have hlt := sizeOf_of_mem_bases rest h
    simp only [ClassBases.imported.sizeOf_spec]
    omega

end

/-- No class is its own base. -/
theorem payload_ne_of_base {q : Nat} {s : Classes.ClassSpec}
    (hs : s ∈ (bases (program.of q)).hostLineage) : s.payload ≠ q := by
  rintro rfl
  have heq : s = program.of s.payload := by
    refine program.lineage_of s.payload s ?_
    rw [hostLineage_eq]
    exact List.mem_cons_of_mem _ hs
  have hlt := sizeOf_of_mem_bases _ hs
  have hle : sizeOf (bases (program.of s.payload)) < sizeOf (program.of s.payload) := by
    cases program.of s.payload with
    | mk payload name bases members statics =>
      simp only [Registration.bases, Classes.ClassSpec.mk.sizeOf_spec]
      omega
  rw [← heq] at hlt hle
  omega

/-- Some order begins with a given registration. -/
theorem exists_reordered {r : Registrations} {q : Nat} (hr : r ∈ rs) (hq : q ∈ r.classes) :
    ∃ ps rest, Reordered rs (⟨r.name, q :: ps⟩ :: rest) := by
  obtain ⟨before, after, rfl⟩ := List.append_of_mem hr
  refine ⟨r.classes.erase q, before ++ after,
    before ++ ⟨r.name, q :: r.classes.erase q⟩ :: after, ?_, List.perm_middle⟩
  have hsame : ∀ l : List Registrations, List.Forall₂
      (fun r r' => r'.name = r.name ∧ r.classes.Perm r'.classes) l l := fun l =>
    List.forall₂_same.mpr fun _ _ => ⟨rfl, List.Perm.refl _⟩
  exact List.rel_append (hsame before) (.cons ⟨rfl, List.perm_cons_erase hq⟩ (hsame after))

theorem Independent.separate (h : Independent program rs) : Separate program rs where
  bases r hr p hp r' hr' q hq s hs hsp := by
    -- the class that has the other as its base comes first
    obtain ⟨ps, rest, hre⟩ := exists_reordered hr' hq
    obtain ⟨e, he, hmodule⟩ := h.named _ hre r hr p hp
    rw [spec_catalog, met_cons, List.flatMap_cons, List.append_assoc, List.find?_append] at he
    have hfirst : ∃ b, (ClassSpec.hostLineage ⟨program.of q, some r'.name⟩).find?
        (fun s => s.payload == p) = some ⟨b, none⟩ := by
      have hq : (ClassSpec.payload ⟨program.of q, some r'.name⟩ == p) = false := by
        refine beq_eq_false_iff_ne.mpr fun heq => payload_ne_of_base hs ?_
        rw [hsp, ← heq]
        exact program.payload_of q
      unfold ClassSpec.hostLineage
      rw [List.find?_cons, hq]
      cases hfind : ((bases (program.of q)).hostLineage.map fun base => (⟨base, none⟩ : ClassSpec))
        |>.find? fun s => s.payload == p with
      | some b =>
        obtain ⟨b, -, rfl⟩ := List.mem_map.mp (List.mem_of_find?_eq_some hfind)
        exact ⟨b, rfl⟩
      | none =>
        have hnot := List.find?_eq_none.mp hfind ⟨s, none⟩ (List.mem_map.mpr ⟨s, hs, rfl⟩)
        exact absurd (beq_iff_eq.mpr hsp) hnot
    obtain ⟨b, hb⟩ := hfirst
    rw [hb] at he
    cases he
    cases hmodule
  names r hr r' hr' p hp hp' := by
    obtain ⟨e, he, hmodule⟩ := h.named rs (.refl rs) r hr p hp
    obtain ⟨e', he', hmodule'⟩ := h.named rs (.refl rs) r' hr' p hp'
    cases he.symm.trans he'
    exact Option.some.inj (hmodule'.symm.trans hmodule)

/-- **Registrations in any order come to the same just if they are separate.** -/
theorem independent_iff (program : Program) (rs : List Registrations) :
    Independent program rs ↔ Separate program rs :=
  ⟨Independent.separate, Separate.independent⟩

/-! ### A class and its base -/

/-- The class 1 has the class 0 as its base. -/
def derivedSpec : Nat → Classes.ClassSpec
  | 1 => .mk 1 "Derived" (.host (.mk 0 "Base" .nil .nil .nil) .nil) .nil .nil
  | p => .mk p "Base" .nil .nil .nil

theorem eq_derivedSpec_base {s : Classes.ClassSpec} (h : s = .mk 0 "Base" .nil .nil .nil) :
    s = derivedSpec s.payload := by
  subst h
  rfl

def derived : Program where
  of := derivedSpec
  payload_of p := by
    match p with
    | 0 => rfl
    | 1 => rfl
    | p + 2 => rfl
  lineage_of p s hs := by
    match p with
    | 0 => exact eq_derivedSpec_base (List.mem_singleton.mp hs)
    | 1 =>
      rcases List.mem_cons.mp hs with rfl | hs
      · rfl
      · exact eq_derivedSpec_base (List.mem_singleton.mp hs)
    | p + 2 =>
      rw [List.mem_singleton.mp hs]
      rfl

theorem not_independent_of_derived_first :
    ¬ ∀ (program : Program) (rs : List Registrations), Independent program rs := by
  intro h
  have hnamed := (h derived [⟨"shapes".toList, [1, 0]⟩]).named _ (.refl _) _
    (List.mem_singleton_self _) 0 (by decide)
  obtain ⟨e, he, hmodule⟩ := hnamed
  rw [spec_catalog] at he
  cases he
  cases hmodule

end

end GuestPy.Registration
