import GuestPy.Host.Building

/-!
# The specification of a host class

* `specify` is the specification of a class that can be built: it does not depend on the thread or
  on what is being built (`specify_eq`).
* `registered` is what a runtime gets to see of a program whose classes can all be built.
* `independent_registered_iff`: its modules may register their classes in any order just if no
  registered class extends another one, as its calls of `base` say.
-/

namespace GuestPy.Building

open Exceptions (Err)

variable {C R F : Type}

namespace Call

def construct : Call C R F → Option F
  | constructor construct => some construct
  | _ => none

def staticMembers : Call C R F → Namespace F
  | statics members => members
  | _ => []

def newBases (spec : C → ClassSpec C R F) : Call C R F → List (ClassBase C R F)
  | base d => [.host (spec d)]
  | importedBase module qualname => [.imported module qualname]
  | _ => []

def required : Call C R F → List R
  | require requirements => requirements
  | _ => []

/-- It is about a member. -/
def IsMember : Call C R F → Prop
  | require _ | constructor _ | statics _ | base _ | importedBase _ _ => False
  | _ => True

end Call

/-! ## The specification of a class -/

namespace ClassBuilder

/-- One call, with the specifications of the bases. -/
def applyWith (spec : C → ClassSpec C R F) (b : ClassBuilder C R F) (call : Call C R F) :
    ClassBuilder C R F :=
  match call with
  | .base d => { b with bases := b.bases ++ [.host (spec d)] }
  | call => b.apply call

theorem applyWith_of_ne_base {spec : C → ClassSpec C R F} {b : ClassBuilder C R F}
    {call : Call C R F} (h : ∀ d, call ≠ .base d) : b.applyWith spec call = b.apply call := by
  cases call with
  | base d => exact absurd rfl (h d)
  | _ => rfl

/-- What a call does to the specification apart from its members. -/
structure Carries (spec : C → ClassSpec C R F) (call : Call C R F) (b b' : ClassBuilder C R F) :
    Prop where
  name : b'.body.name = b.body.name
  doc : b'.body.doc = b.body.doc
  payload : b'.body.payload = b.body.payload
  init : b'.body.init = call.construct.or b.body.init
  statics : b'.body.statics = b.body.statics ++ call.staticMembers
  bases : b'.bases = b.bases ++ call.newBases spec
  requirements : b'.body.requirements = b.body.requirements ++ call.required

/-- A builder that differs in its members only. -/
structure SameRest (b b' : ClassBuilder C R F) : Prop where
  name : b'.body.name = b.body.name
  doc : b'.body.doc = b.body.doc
  payload : b'.body.payload = b.body.payload
  init : b'.body.init = b.body.init
  statics : b'.body.statics = b.body.statics
  bases : b'.bases = b.bases
  requirements : b'.body.requirements = b.body.requirements

theorem SameRest.carries {spec : C → ClassSpec C R F} {call : Call C R F}
    {b b' : ClassBuilder C R F} (h : SameRest b b') (hcall : call.IsMember) :
    Carries spec call b b' := by
  have hquiet : call.construct = none ∧ call.staticMembers = [] ∧ call.newBases spec = [] ∧
      call.required = [] := by
    cases call with
    | require _ => cases hcall
    | constructor _ => cases hcall
    | statics _ => cases hcall
    | base _ => cases hcall
    | importedBase _ _ => cases hcall
    | _ => exact ⟨rfl, rfl, rfl, rfl⟩
  obtain ⟨hconstruct, hstatics, hbases, hrequired⟩ := hquiet
  refine ⟨h.name, h.doc, h.payload, ?_, ?_, ?_, ?_⟩
  · rw [hconstruct, Option.none_or, h.init]
  · rw [hstatics, List.append_nil, h.statics]
  · rw [hbases, List.append_nil, h.bases]
  · rw [hrequired, List.append_nil, h.requirements]

theorem sameRest_access (b : ClassBuilder C R F) (name : String)
    (f : Accessors F → Accessors F) : SameRest b (b.access name f) := by
  unfold access propertySlot
  cases b.properties name with
  | some slot => exact ⟨rfl, rfl, rfl, rfl, rfl, rfl, rfl⟩
  | none => exact ⟨rfl, rfl, rfl, rfl, rfl, rfl, rfl⟩

theorem sameRest_pushAsync (b : ClassBuilder C R F) (name : MemberName) (member : Member F) :
    SameRest b (b.pushAsync name member) := by
  rw [pushAsync_eq]
  exact ⟨rfl, rfl, rfl, rfl, rfl, rfl, rfl⟩

theorem carries_applyWith (spec : C → ClassSpec C R F) (b : ClassBuilder C R F)
    (call : Call C R F) : Carries spec call b (b.applyWith spec call) := by
  have hpush : ∀ name member, SameRest b (b.push name member) := fun _ _ =>
    ⟨rfl, rfl, rfl, rfl, rfl, rfl, rfl⟩
  have hnothing : ∀ {α : Type} (l : List α), l = l ++ [] := fun l => (List.append_nil l).symm
  cases call with
  | require requirements => exact ⟨rfl, rfl, rfl, rfl, hnothing _, hnothing _, rfl⟩
  | constructor construct => exact ⟨rfl, rfl, rfl, rfl, hnothing _, hnothing _, hnothing _⟩
  | method name function => exact (hpush ..).carries trivial
  | asyncMethod name function =>
    have hrest : SameRest b (b.asyncMethod name function) := sameRest_pushAsync ..
    exact hrest.carries trivial
  | dunderMethod text asynchronous function =>
    cases hd : Dunder.fromStr text with
    | error e =>
      have heq : b.applyWith spec (.dunderMethod text asynchronous function) = b := by
        simp only [applyWith, apply, hd]
      rw [heq]
      have hrest : SameRest b b := ⟨rfl, rfl, rfl, rfl, rfl, rfl, rfl⟩
      exact hrest.carries trivial
    | ok d =>
      have heq : b.applyWith spec (.dunderMethod text asynchronous function) =
          if asynchronous then b.asyncMethod (.dunder d) function
          else b.method (.dunder d) function := by
        simp only [applyWith, apply, hd]
      rw [heq]
      cases asynchronous with
      | true =>
        have hrest : SameRest b (b.asyncMethod (.dunder d) function) := sameRest_pushAsync ..
        exact hrest.carries trivial
      | false => exact (hpush ..).carries trivial
  | classMethod name function => exact (hpush ..).carries trivial
  | staticMethod name function => exact (hpush ..).carries trivial
  | getter name get => exact (sameRest_access ..).carries trivial
  | setter name set => exact (sameRest_access ..).carries trivial
  | deleter name del => exact (sameRest_access ..).carries trivial
  | property name get set =>
    have h := sameRest_access b name fun a => a.setGet get
    have h' := sameRest_access (b.getter name get) name fun a => a.setSet set
    have hrest : SameRest b (b.property name get set) :=
      ⟨h'.name.trans h.name, h'.doc.trans h.doc, h'.payload.trans h.payload,
        h'.init.trans h.init, h'.statics.trans h.statics, h'.bases.trans h.bases,
        h'.requirements.trans h.requirements⟩
    exact hrest.carries trivial
  | constant name value => exact (hpush ..).carries trivial
  | statics members => exact ⟨rfl, rfl, rfl, rfl, rfl, hnothing _, hnothing _⟩
  | generic => exact (hpush ..).carries trivial
  | base d => exact ⟨rfl, rfl, rfl, rfl, hnothing _, rfl, hnothing _⟩
  | importedBase module qualname => exact ⟨rfl, rfl, rfl, rfl, hnothing _, rfl, hnothing _⟩

variable {program : Program C R F} {of : C → Build C (ClassSpec C R F)} {t t' : Thread C}
  {spec : C → ClassSpec C R F}

theorem performAll_eq {calls : List (Call C R F)} {b b' : ClassBuilder C R F}
    (hof : ∀ d o t₁ t₂, of d t₁ = (o, t₂) → Answer program t₁ d o t₂)
    (hbases : ∀ d, .base d ∈ calls → Buildable program d ∧
      ∀ t₁ s t₂, of d t₁ = (.ok s, t₂) → s = spec d)
    (h : b.performAll of calls t = (.ok b', t')) : b' = calls.foldl (applyWith spec) b := by
  induction calls generalizing b t with
  | nil =>
    cases h
    rfl
  | cons call calls ih =>
    obtain ⟨b₁, t₁, hb₁, hafter⟩ := Host.bind_eq_ok.mp h
    have hstep : b₁ = b.applyWith spec call := by
      by_cases hbase : ∃ d, call = .base d
      · obtain ⟨d, rfl⟩ := hbase
        obtain ⟨hbuildable, hspec⟩ := hbases d List.mem_cons_self
        have heq : b.base of d t = (.ok b₁, t₁) := hb₁
        rw [base_eq] at heq
        rcases hd : of d t with ⟨o, t₂⟩
        rw [hd] at heq
        cases o with
        | ok s =>
          cases heq
          rw [hspec t s t₁ hd]
          rfl
        | err e =>
          cases hof d _ t t₂ hd with
          | refused _ _ _ hrefused => exact absurd hrefused hbuildable.not_refused
        | panic => cases heq
        | stuck => cases heq
      · by_cases hknown : call.Known
        · have hne : ∀ d, call ≠ .base d := fun d hd => hbase ⟨d, hd⟩
          rw [perform_of_known hknown hne] at hb₁
          cases hb₁
          exact (applyWith_of_ne_base hne).symm
        · obtain ⟨name, asynchronous, function, rfl, hperform⟩ :=
            perform_of_not_known of b hknown
          rw [hperform, panic_eq] at hb₁
          cases hb₁
    subst hstep
    exact ih (fun d hd => hbases d (List.mem_cons_of_mem _ hd)) hafter

/-- What is required by calls is required in the end. -/
theorem requirements_foldl (spec : C → ClassSpec C R F) (calls : List (Call C R F))
    (b : ClassBuilder C R F) :
    (calls.foldl (applyWith spec) b).body.requirements =
      b.body.requirements ++ calls.flatMap Call.required := by
  induction calls generalizing b with
  | nil => exact (List.append_nil _).symm
  | cons call calls ih =>
    rw [List.foldl_cons, ih, (carries_applyWith spec b call).requirements, List.append_assoc,
      List.flatMap_cons]

end ClassBuilder

section

variable [DecidableEq C] (program : Program C R F)

/-- The specification of a class that can be built. -/
def specify (c : C) : ClassSpec C R F :=
  match specOf program c ⟨[], []⟩ with
  | (.ok spec, _) => spec
  | _ => ⟨(ClassBuilder.new program c).body, []⟩

/-- The builder at the end of the `build` of a class. -/
def built (c : C) : ClassBuilder C R F :=
  (program.build c).foldl (ClassBuilder.applyWith (specify program)) (ClassBuilder.new program c)

variable {program}

theorem eq_of_of_eq_ok {fuel : Nat} {c : C} {t t' : Thread C} {spec : ClassSpec C R F}
    {specs : C → ClassSpec C R F}
    (hspecs : ∀ d, Extends program c d → Buildable program d ∧
      ∀ fuel t s t', ClassSpec.of program fuel d t = (.ok s, t') → s = specs d)
    (h : ClassSpec.of program fuel c t = (.ok spec, t')) :
    spec = ⟨((program.build c).foldl (ClassBuilder.applyWith specs)
        (ClassBuilder.new program c)).body,
      ((program.build c).foldl (ClassBuilder.applyWith specs)
        (ClassBuilder.new program c)).bases⟩ := by
  cases fuel with
  | zero => cases h
  | succ fuel =>
    by_cases hc : c ∈ t.building
    · rw [of_of_mem hc] at h
      cases h
    rw [of_of_not_mem hc] at h
    obtain ⟨b, t₁, hb, hafter⟩ := Host.bind_eq_ok.mp h
    have hfold : b = (program.build c).foldl (ClassBuilder.applyWith specs) (.new program c) :=
      ClassBuilder.performAll_eq (fun d o t₁ t₂ hd => answer_of hd)
        (fun d hd => ⟨(hspecs d hd).1, fun t₁ s t₂ hs => (hspecs d hd).2 fuel t₁ s t₂ hs⟩) hb
    rw [Host.modify_bind] at hafter
    rw [← hfold]
    unfold ClassBuilder.finish at hafter
    cases herror : b.error with
    | none =>
      rw [herror] at hafter
      cases hafter
      rfl
    | some e =>
      rw [herror] at hafter
      cases hafter

/-- **A class has one specification**, whenever it is built and whatever is being built then. -/
theorem specify_eq {c : C} (h : Buildable program c) :
    (∀ fuel t s t', ClassSpec.of program fuel c t = (.ok s, t') → s = specify program c) ∧
      specify program c = ⟨(built program c).body, (built program c).bases⟩ := by
  induction h with
  | @mk c hcalls hbases ih =>
    have hone : ∀ fuel t s t', ClassSpec.of program fuel c t = (.ok s, t') →
        s = ⟨(built program c).body, (built program c).bases⟩ :=
      fun fuel t s t' hs => eq_of_of_eq_ok (fun d hcd => ⟨hbases d hcd, (ih d hcd).1⟩) hs
    obtain ⟨spec, hspec⟩ := (settled_after program [] c).built.mpr (.mk hcalls hbases)
    have hfirst : specify program c = spec := by
      unfold specify
      rw [show specOf program c ⟨[], []⟩ = (.ok spec, ⟨[], []⟩) from hspec]
    have heq : specify program c = ⟨(built program c).body, (built program c).bases⟩ :=
      hfirst.trans (hone _ _ _ _ hspec)
    exact ⟨fun fuel t s t' hs => (hone fuel t s t' hs).trans heq.symm, heq⟩

end

/-! ## The program that a runtime registers -/

section

variable {slots : List (Accessors F)}

mutual

def NamespaceMember.declaration : NamespaceMember F → Classes.Declaration
  | .constant _ => .value
  | .function _ => .function
  | .asyncFunction _ => .function
  | .getter _ => .property true false false
  | .property _ _ => .property true true false
  | .object members => .object (namespaceDeclarations members)

def namespaceDeclarations : Namespace F → Classes.Namespace
  | [] => .nil
  | (name, member) :: rest => .cons name member.declaration (namespaceDeclarations rest)

end

def Member.declaration (slots : List (Accessors F)) : Member F → Classes.Declaration
  | method _ => .method
  | asyncMethod _ _ => .method
  | classMethod _ => .classMethod
  | staticMethod _ => .staticMethod
  | property slot =>
    let a := slots[slot]?.getD .new
    .property a.get.isSome a.set.isSome a.del.isSome
  | constant _ => .value
  | generic => .classMethod

def memberDeclarations (slots : List (Accessors F)) :
    List (MemberName × Member F) → Classes.Namespace
  | [] => .nil
  | (name, member) :: rest =>
    .cons name.asStr (member.declaration slots) (memberDeclarations slots rest)

mutual

/-- What realising a class goes by. -/
def ClassSpec.declared : ClassSpec Nat R F → Classes.ClassSpec
  | .mk body bases => .mk body.payload body.name (declaredBases bases)
      (memberDeclarations body.slots body.members) (namespaceDeclarations body.statics)

def declaredBases : List (ClassBase Nat R F) → Classes.ClassBases
  | [] => .nil
  | .host spec :: rest => .host spec.declared (declaredBases rest)
  | .imported module qualname :: rest => .imported module qualname (declaredBases rest)

end

theorem mem_hostLineage_declaredBases {s : Classes.ClassSpec} {bases : List (ClassBase Nat R F)}
    (h : s ∈ (declaredBases bases).hostLineage) :
    ∃ spec, .host spec ∈ bases ∧ s ∈ spec.declared.hostLineage := by
  induction bases with
  | nil => cases h
  | cons base bases ih =>
    cases base with
    | host spec =>
      rcases List.mem_append.mp h with h | h
      · exact ⟨spec, List.mem_cons_self, h⟩
      · obtain ⟨spec', hmem, hs⟩ := ih h
        exact ⟨spec', List.mem_cons_of_mem _ hmem, hs⟩
    | imported module qualname =>
      obtain ⟨spec', hmem, hs⟩ := ih h
      exact ⟨spec', List.mem_cons_of_mem _ hmem, hs⟩

theorem hostLineage_subset_declaredBases {spec : ClassSpec Nat R F}
    {bases : List (ClassBase Nat R F)} (h : .host spec ∈ bases) {s : Classes.ClassSpec}
    (hs : s ∈ spec.declared.hostLineage) : s ∈ (declaredBases bases).hostLineage := by
  induction bases with
  | nil => cases h
  | cons base bases ih =>
    rcases List.mem_cons.mp h with rfl | hrest
    · exact List.mem_append_left _ hs
    · cases base with
      | host spec' => exact List.mem_append_right _ (ih hrest)
      | imported module qualname => exact ih hrest

variable {program : Program Nat R F}

theorem payload_built (c : Nat) : (built program c).body.payload = c := by
  unfold built
  generalize program.build c = calls
  induction calls using List.reverseRecOn with
  | nil => rfl
  | append_singleton calls call ih =>
    rw [List.foldl_append, List.foldl_cons, List.foldl_nil]
    exact (ClassBuilder.carries_applyWith _ _ call).payload.trans ih

theorem host_mem_built {c : Nat} {spec : ClassSpec Nat R F}
    (h : .host spec ∈ (built program c).bases) :
    ∃ d, Extends program c d ∧ spec = specify program d := by
  unfold built at h
  unfold Extends
  generalize program.build c = calls at h ⊢
  induction calls using List.reverseRecOn with
  | nil => cases h
  | append_singleton calls call ih =>
    rw [List.foldl_append, List.foldl_cons, List.foldl_nil,
      (ClassBuilder.carries_applyWith _ _ call).bases] at h
    rcases List.mem_append.mp h with h | h
    · obtain ⟨d, hd, heq⟩ := ih h
      exact ⟨d, List.mem_append_left _ hd, heq⟩
    · cases call with
      | base d =>
        cases List.mem_singleton.mp h
        exact ⟨d, List.mem_append_right _ (List.mem_singleton_self _), rfl⟩
      | importedBase module qualname => cases List.mem_singleton.mp h
      | _ => cases h

theorem host_mem_built_of_extends {c d : Nat} (h : Extends program c d) :
    .host (specify program d) ∈ (built program c).bases := by
  unfold Extends at h
  unfold built
  generalize program.build c = calls at h ⊢
  induction calls using List.reverseRecOn with
  | nil => cases h
  | append_singleton calls call ih =>
    rw [List.foldl_append, List.foldl_cons, List.foldl_nil,
      (ClassBuilder.carries_applyWith _ _ call).bases]
    rcases List.mem_append.mp h with h | h
    · exact List.mem_append_left _ (ih h)
    · cases List.mem_singleton.mp h
      exact List.mem_append_right _ (List.mem_singleton_self _)

theorem declared_specify {c : Nat} (h : Buildable program c) :
    (specify program c).declared =
      .mk c (built program c).body.name (declaredBases (built program c).bases)
        (memberDeclarations (built program c).body.slots (built program c).body.members)
        (namespaceDeclarations (built program c).body.statics) := by
  rw [(specify_eq h).2, ClassSpec.declared, payload_built]

theorem lineage_specify {c : Nat} (h : Buildable program c) {s : Classes.ClassSpec}
    (hs : s ∈ (specify program c).declared.hostLineage) :
    s = (specify program s.payload).declared := by
  induction h with
  | @mk c hcalls hbases ih =>
    have heq := declared_specify (Buildable.mk hcalls hbases)
    have hpayload : (specify program c).declared.payload = c := by
      rw [heq]
      rfl
    rw [Registration.hostLineage_eq] at hs
    rcases List.mem_cons.mp hs with rfl | hs
    · rw [hpayload]
    · rw [heq] at hs
      obtain ⟨spec, hmem, hs⟩ := mem_hostLineage_declaredBases hs
      obtain ⟨d, hcd, rfl⟩ := host_mem_built hmem
      exact ih d hcd hs

/-- The classes that a class is built on are those that it extends, and those that they extend. -/
theorem exists_mem_bases_iff {c d : Nat} (h : Buildable program c) :
    (∃ s ∈ (Registration.bases (specify program c).declared).hostLineage, s.payload = d) ↔
      Relation.TransGen (Extends program) c d := by
  have hbases : ∀ {c}, Buildable program c →
      Registration.bases (specify program c).declared =
        declaredBases (built program c).bases := fun h => by rw [declared_specify h]; rfl
  have hpayload : ∀ {c}, Buildable program c → (specify program c).declared.payload = c :=
    fun h => by rw [declared_specify h]; rfl
  constructor
  · rintro ⟨s, hs, rfl⟩
    induction h with
    | @mk c hcalls hbelow ih =>
      rw [hbases (.mk hcalls hbelow)] at hs
      obtain ⟨spec, hmem, hs⟩ := mem_hostLineage_declaredBases hs
      obtain ⟨d, hcd, rfl⟩ := host_mem_built hmem
      rw [Registration.hostLineage_eq] at hs
      rcases List.mem_cons.mp hs with rfl | hs
      · rw [hpayload (hbelow d hcd)]
        exact .single hcd
      · exact .head hcd (ih d hcd hs)
  · intro hcd
    induction hcd using Relation.TransGen.head_induction_on with
    | @single c hcd =>
      refine ⟨(specify program d).declared, ?_, hpayload (h.of_extends hcd)⟩
      rw [hbases h]
      refine hostLineage_subset_declaredBases (host_mem_built_of_extends hcd) ?_
      rw [Registration.hostLineage_eq]
      exact List.mem_cons_self
    | @head c e hce _ ih =>
      obtain ⟨s, hs, hpayload⟩ := ih (h.of_extends hce)
      refine ⟨s, ?_, hpayload⟩
      rw [hbases h]
      refine hostLineage_subset_declaredBases (host_mem_built_of_extends hce) ?_
      rw [Registration.hostLineage_eq]
      exact List.mem_cons_of_mem _ hs

/-- **The classes of a program that can all be built**, as a runtime registers them. -/
def registered (program : Program Nat R F) (h : ∀ c, Buildable program c) :
    Registration.Program where
  of c := (specify program c).declared
  payload_of c := by
    rw [declared_specify (h c)]
    rfl
  lineage_of c _ hs := lineage_specify (h c) hs

/-- **The order of the registrations of built classes does not matter** just if no registered class
extends another one, and none is registered under two names. -/
theorem independent_registered_iff (program : Program Nat R F) (h : ∀ c, Buildable program c)
    (rs : List Registration.Registrations) :
    Registration.Independent (registered program h) rs ↔
      (∀ r ∈ rs, ∀ p ∈ r.classes, ∀ r' ∈ rs, ∀ q ∈ r'.classes,
        ¬ Relation.TransGen (Extends program) q p) ∧
      ∀ r ∈ rs, ∀ r' ∈ rs, ∀ p ∈ r.classes, p ∈ r'.classes → r'.name = r.name := by
  rw [Registration.independent_iff]
  constructor
  · rintro ⟨hbases, hnames⟩
    refine ⟨fun r hr p hp r' hr' q hq hqp => ?_, hnames⟩
    obtain ⟨s, hs, hpayload⟩ := (exists_mem_bases_iff (h q)).mpr hqp
    exact hbases r hr p hp r' hr' q hq s hs hpayload
  · rintro ⟨hbases, hnames⟩
    refine ⟨fun r hr p hp r' hr' q hq s hs hpayload => ?_, hnames⟩
    exact hbases r hr p hp r' hr' q hq ((exists_mem_bases_iff (h q)).mp ⟨s, hs, hpayload⟩)

end

end GuestPy.Building
