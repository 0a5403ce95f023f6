import GuestPy.Host.Builder
import GuestPy.Library.Lockstep

/-!
# When a host class can be built

Building a class builds its host bases, and theirs. A panic in one of them leaves the classes
whose `build` was running on the list of the thread.

* `Sound` says of a class that no `build` below it can panic, and `Buildable` that none refuses a
  member besides.
* `Stranded` says what a panic leaves behind, and what it says.
* `settled_after`: whatever panicked before on the thread, a class is built just if it is sound.
  What is left on the list hits classes only that cannot be built anyway.
-/

namespace GuestPy.Building

open Exceptions (Err)
open Host (bind_cases)

variable {C R F : Type}

/-! ## Calls -/

namespace Call

/-- The name can be looked up, if it has to be. -/
def Known : Call C R F → Prop
  | dunderMethod name _ _ => ∃ d, Dunder.fromStr name = .ok d
  | _ => True

/-- The dunder that is declared as asynchronous. -/
def asyncDunder : Call C R F → Option Dunder
  | asyncMethod (.dunder d) _ => some d
  | dunderMethod name true _ => (Dunder.fromStr name).toOption
  | _ => none

def Awaitable (call : Call C R F) : Prop :=
  ∀ d, call.asyncDunder = some d → d.acceptsAwaitable = true

end Call

namespace ClassBuilder

/-- `perform` without the bases, and for a name that can be looked up. -/
def apply (b : ClassBuilder C R F) : Call C R F → ClassBuilder C R F
  | .require requirements => b.require requirements
  | .constructor construct => b.constructor construct
  | .method name function => b.method name function
  | .asyncMethod name function => b.asyncMethod name function
  | .dunderMethod name asynchronous function =>
    match Dunder.fromStr name with
    | .ok d => if asynchronous then b.asyncMethod (.dunder d) function
      else b.method (.dunder d) function
    | .error _ => b
  | .classMethod name function => b.classMethod name function
  | .staticMethod name function => b.staticMethod name function
  | .getter name get => b.getter name get
  | .setter name set => b.setter name set
  | .deleter name del => b.deleter name del
  | .property name get set => b.property name get set
  | .constant name value => b.constant name value
  | .statics members => b.statics members
  | .generic => b.generic
  | .base _ => b
  | .importedBase module qualname => b.importedBase module qualname

variable {of : C → Build C (ClassSpec C R F)} {b : ClassBuilder C R F} {call : Call C R F}

theorem perform_of_known (hknown : call.Known) (hbase : ∀ d, call ≠ .base d) :
    b.perform of call = pure (b.apply call) := by
  cases call with
  | dunderMethod name asynchronous function =>
    obtain ⟨d, hd⟩ := hknown
    simp only [perform, dunderMethod, apply, hd]
  | base d => exact absurd rfl (hbase d)
  | _ => rfl

theorem perform_of_not_known (of : C → Build C (ClassSpec C R F)) (b : ClassBuilder C R F)
    (h : ¬ call.Known) :
    ∃ name asynchronous function, call = .dunderMethod name asynchronous function ∧
      b.perform of call = panic (.unknownDunder name) := by
  cases call with
  | dunderMethod name asynchronous function =>
    refine ⟨name, asynchronous, function, rfl, ?_⟩
    cases hd : Dunder.fromStr name with
    | ok d => exact absurd ⟨d, hd⟩ h
    | error e => simp only [perform, dunderMethod, hd]
  | _ => exact absurd trivial h

@[simp] theorem error_access (name : String) (f : Accessors F → Accessors F) :
    (b.access name f).error = b.error := by
  unfold access propertySlot
  cases b.properties name <;> rfl

@[simp] theorem name_access (name : String) (f : Accessors F → Accessors F) :
    (b.access name f).body.name = b.body.name := by
  unfold access propertySlot
  cases b.properties name <;> rfl

theorem pushAsync_eq (name : MemberName) (member : Member F) :
    b.pushAsync name member =
      { b.push name member with
        error := b.error.or (match name with
          | .dunder d => if d.acceptsAwaitable then none else some (unawaitable b.body.name d)
          | .named _ => none) } := by
  unfold pushAsync push reject
  cases name with
  | named name => simp
  | dunder d =>
    by_cases hd : d.acceptsAwaitable = true
    · simp [hd]
    · simp [hd, Option.or_some]

/-- What a call is refused with. -/
def refusal (name : String) (call : Call C R F) : Option Err :=
  call.asyncDunder.bind fun d => if d.acceptsAwaitable then none else some (unawaitable name d)

theorem error_apply : (b.apply call).error = b.error.or (refusal b.body.name call) := by
  cases call with
  | asyncMethod name function =>
    rw [apply, asyncMethod, pushAsync_eq]
    cases name <;> rfl
  | dunderMethod name asynchronous function =>
    cases hd : Dunder.fromStr name with
    | ok d =>
      cases asynchronous with
      | true =>
        simp only [apply, hd, if_true, asyncMethod, pushAsync_eq, refusal, Call.asyncDunder,
          Except.toOption, Option.bind_some]
      | false => simp [apply, hd, method, push, refusal, Call.asyncDunder]
    | error e =>
      cases asynchronous <;> simp [apply, hd, refusal, Call.asyncDunder, Except.toOption]
  | getter name get => simp [apply, getter, refusal, Call.asyncDunder]
  | setter name set => simp [apply, setter, refusal, Call.asyncDunder]
  | deleter name del => simp [apply, deleter, refusal, Call.asyncDunder]
  | property name get set => simp [apply, property, getter, setter, refusal, Call.asyncDunder]
  | _ => exact (Option.or_none ..).symm

theorem name_apply : (b.apply call).body.name = b.body.name := by
  cases call with
  | asyncMethod name function =>
    rw [apply, asyncMethod, pushAsync_eq]
    rfl
  | dunderMethod name asynchronous function =>
    cases hd : Dunder.fromStr name with
    | ok d =>
      cases asynchronous with
      | true =>
        simp only [apply, hd, if_true, asyncMethod, pushAsync_eq]
        rfl
      | false =>
        simp only [apply, hd]
        rfl
    | error e => simp only [apply, hd]
  | getter name get => exact name_access ..
  | setter name set => exact name_access ..
  | deleter name del => exact name_access ..
  | property name get set => exact (name_access ..).trans (name_access ..)
  | _ => rfl

theorem refusal_eq_none {name : String} : refusal name call = none ↔ call.Awaitable := by
  unfold refusal Call.Awaitable
  cases call.asyncDunder with
  | none => simp
  | some d => cases hd : d.acceptsAwaitable <;> simp [hd]

theorem refusal_eq_some {name : String} {e : Err} (h : refusal name call = some e) :
    ∃ d, call.asyncDunder = some d ∧ d.acceptsAwaitable = false ∧ e = unawaitable name d := by
  unfold refusal at h
  cases hasync : call.asyncDunder with
  | none =>
    rw [hasync] at h
    cases h
  | some d =>
    rw [hasync, Option.bind_some] at h
    cases hd : d.acceptsAwaitable with
    | true =>
      rw [hd] at h
      cases h
    | false =>
      rw [hd] at h
      cases h
      exact ⟨d, rfl, hd, rfl⟩

end ClassBuilder

/-! ## Classes that can be built -/

section

variable (program : Program C R F)

def Extends (c d : C) : Prop := .base d ∈ program.build c

/-- No `build` of the class or below it panics. -/
inductive Sound : C → Prop
  | mk {c : C} : (∀ call ∈ program.build c, call.Known) →
    (∀ d, Extends program c d → Sound d) → Sound c

/-- No `build` of the class or below it panics or refuses a member. -/
inductive Buildable : C → Prop
  | mk {c : C} : (∀ call ∈ program.build c, call.Known ∧ call.Awaitable) →
    (∀ d, Extends program c d → Buildable d) → Buildable c

/-- The class, or a class below it, declares a method as asynchronous that may not be. -/
inductive Refused : C → Err → Prop
  | here {c : C} {call : Call C R F} {d : Dunder} : call ∈ program.build c →
    call.asyncDunder = some d → d.acceptsAwaitable = false →
    Refused c (ClassBuilder.unawaitable (program.name c) d)
  | base {c d : C} {e : Err} : Extends program c d → Refused d e → Refused c e

/-- Building the class panics while the classes of the list are being built. The path is what it
leaves on the list. -/
inductive Stranded : List C → C → List C → Panic C → Prop
  | cycle {building : List C} {c : C} : c ∈ building → Stranded building c [] (.cycle c)
  | unknown {building : List C} {c : C} {name : String} {asynchronous : Bool} {function : F} :
    c ∉ building → .dunderMethod name asynchronous function ∈ program.build c →
    (∀ d, Dunder.fromStr name ≠ .ok d) → Stranded building c [c] (.unknownDunder name)
  | base {building path : List C} {c d : C} {p : Panic C} : c ∉ building →
    Extends program c d → Stranded (building ++ [c]) d path p → Stranded building c (c :: path) p

/-- No class of the list is below the class. -/
def Clear (building : List C) (c : C) : Prop :=
  ∀ d, Relation.ReflTransGen (Extends program) c d → d ∉ building

end

variable {program : Program C R F}

theorem Sound.of_extends {c d : C} (h : Sound program c) (hcd : Extends program c d) :
    Sound program d := by
  cases h with
  | mk _ hbases => exact hbases d hcd

theorem Buildable.of_extends {c d : C} (h : Buildable program c) (hcd : Extends program c d) :
    Buildable program d := by
  cases h with
  | mk _ hbelow => exact hbelow d hcd

theorem Buildable.sound {c : C} (h : Buildable program c) : Sound program c := by
  induction h with
  | mk hcalls _ ih => exact .mk (fun call hcall => (hcalls call hcall).1) ih

theorem Buildable.not_refused {c : C} (h : Buildable program c) {e : Err} :
    ¬ Refused program c e := by
  intro hrefused
  induction hrefused with
  | here hcall hasync hd =>
    cases h with
    | mk hcalls _ =>
      have haccepts := (hcalls _ hcall).2 _ hasync
      rw [hd] at haccepts
      cases haccepts
  | base hcd _ ih => exact ih (h.of_extends hcd)

/-- A sound class is not among the classes below it. -/
theorem Sound.not_transGen {c : C} (h : Sound program c) :
    ¬ Relation.TransGen (Extends program) c c := by
  induction h with
  | mk _ _ ih =>
    intro hcycle
    obtain ⟨d, hcd, hdc⟩ := Relation.TransGen.head'_iff.mp hcycle
    exact ih d hcd (Relation.TransGen.tail'_iff.mpr ⟨_, hdc, hcd⟩)

theorem Sound.of_reflTransGen {c d : C} (h : Sound program c)
    (hcd : Relation.ReflTransGen (Extends program) c d) : Sound program d := by
  induction hcd with
  | refl => exact h
  | tail _ hde ih => exact ih.of_extends hde

theorem Clear.of_extends {building : List C} {c d : C} (h : Clear program building c)
    (hsound : Sound program c) (hcd : Extends program c d) :
    Clear program (building ++ [c]) d := by
  intro e hde he
  rcases List.mem_append.mp he with he | he
  · exact h e (.head hcd hde) he
  · rw [List.mem_singleton.mp he] at hde
    exact hsound.not_transGen (Relation.TransGen.head'_iff.mpr ⟨d, hcd, hde⟩)

theorem Clear.of_bases {building : List C} {c : C} (hc : c ∉ building)
    (h : ∀ d, Extends program c d → Clear program (building ++ [c]) d) :
    Clear program building c := by
  intro e hce
  rcases Relation.ReflTransGen.cases_head hce with rfl | ⟨d, hcd, hde⟩
  · exact hc
  · exact fun he => h d hcd e hde (List.mem_append_left _ he)

/-- A panic hits unsound classes only. -/
theorem Stranded.cases {building path : List C} {c : C} {p : Panic C}
    (h : Stranded program building c path p) : ¬ (Sound program c ∧ Clear program building c) := by
  induction h with
  | cycle hc => exact fun ⟨_, hclear⟩ => hclear _ .refl hc
  | unknown _ hcall hname =>
    rintro ⟨hsound, -⟩
    cases hsound with
    | mk hknown _ =>
      obtain ⟨d, hd⟩ := hknown _ hcall
      exact hname d hd
  | base _ hcd _ ih =>
    rintro ⟨hsound, hclear⟩
    exact ih ⟨hsound.of_extends hcd, hclear.of_extends hsound hcd⟩

/-! ## What building a class comes to -/

section

variable (program : Program C R F) (t : Thread C)

/-- What `of` answers in a thread, as far as it answers, and the thread that it leaves. -/
inductive Answer (c : C) : Outcome Err (ClassSpec C R F) → Thread C → Prop
  | built (spec : ClassSpec C R F) : Buildable program c → Clear program t.building c →
    Answer c (.ok spec) t
  | refused (e : Err) : Sound program c → Clear program t.building c → Refused program c e →
    Answer c (.err e) t
  | stranded {path : List C} {p : Panic C} : Stranded program t.building c path p →
    Answer c .panic ⟨t.building ++ path, t.panics ++ [p]⟩
  | stuck (t' : Thread C) : Answer c .stuck t'

/-- What is refused by some calls of the class, if anything is. -/
def Verdict (c : C) (calls : List (Call C R F)) : Option Err → Prop
  | none => (∀ call ∈ calls, call.Awaitable) ∧ ∀ d, .base d ∈ calls → Buildable program d
  | some e => Refused program c e

/-- One of the calls panics, while the classes of the list are being built. -/
inductive Stop (building : List C) (calls : List (Call C R F)) : List C → Panic C → Prop
  | unknown {name : String} {asynchronous : Bool} {function : F} :
    .dunderMethod name asynchronous function ∈ calls → (∀ d, Dunder.fromStr name ≠ .ok d) →
    Stop building calls [] (.unknownDunder name)
  | base {d : C} {path : List C} {p : Panic C} : .base d ∈ calls →
    Stranded program building d path p → Stop building calls path p

/-- What calls in the `build` of a class come to. -/
inductive Performed (c : C) (b : ClassBuilder C R F) (calls : List (Call C R F)) :
    Outcome Err (ClassBuilder C R F) → Thread C → Prop
  | passed (b' : ClassBuilder C R F) (r : Option Err) : (∀ call ∈ calls, call.Known) →
    (∀ d, .base d ∈ calls → Sound program d ∧ Clear program t.building d) →
    b'.body.name = b.body.name → b'.error = b.error.or r → Verdict program c calls r →
    Performed c b calls (.ok b') t
  | stopped {path : List C} {p : Panic C} : Stop program t.building calls path p →
    Performed c b calls .panic ⟨t.building ++ path, t.panics ++ [p]⟩
  | stuck (t' : Thread C) : Performed c b calls .stuck t'

end

section

variable {t t' t'' : Thread C} {c : C} {of : C → Build C (ClassSpec C R F)}
  {b b' : ClassBuilder C R F} {call : Call C R F} {calls : List (Call C R F)}

theorem panic_eq {A : Type} (p : Panic C) :
    (panic p : Build C A) t = (.panic, ⟨t.building, t.panics ++ [p]⟩) := rfl

theorem base_eq (d : C) : b.base of d t =
    match of d t with
    | (.ok spec, t') => (.ok { b with bases := b.bases ++ [.host spec] }, t')
    | (.err e, t') => (.ok (b.reject e), t')
    | (.panic, t') => (.panic, t')
    | (.stuck, t') => (.stuck, t') := by
  change Host.bind (Host.attempt (of d)) _ t = _
  unfold Host.bind Host.attempt
  rcases of d t with ⟨o, t'⟩
  cases o <;> rfl

theorem performed_base (hof : ∀ d o t', of d t = (o, t') → Answer program t d o t') {d : C}
    (hcall : .base d ∈ program.build c) {o : Outcome Err (ClassBuilder C R F)}
    (h : b.base of d t = (o, t')) : Performed program t c b [.base d] o t' := by
  have honly : ∀ {P : C → Prop}, P d → ∀ d', .base d' ∈ [(.base d : Call C R F)] → P d' := by
    intro P hP d' hmem
    cases List.mem_singleton.mp hmem
    exact hP
  have hknown : ∀ call ∈ [(.base d : Call C R F)], call.Known := by
    intro call hmem
    cases List.mem_singleton.mp hmem
    trivial
  have hawait : ∀ call ∈ [(.base d : Call C R F)], call.Awaitable := by
    intro call hmem
    cases List.mem_singleton.mp hmem
    nofun
  rw [base_eq] at h
  rcases hd : of d t with ⟨r, t₁⟩
  rw [hd] at h
  cases hof d r t₁ hd with
  | built spec hbuildable hclear =>
    cases h
    exact .passed _ none hknown (honly ⟨hbuildable.sound, hclear⟩) rfl (Option.or_none ..).symm
      ⟨hawait, honly hbuildable⟩
  | refused e hsound hclear hrefused =>
    cases h
    exact .passed _ (some e) hknown (honly ⟨hsound, hclear⟩) rfl rfl (.base hcall hrefused)
  | stranded hstranded =>
    cases h
    exact .stopped (.base List.mem_cons_self hstranded)
  | stuck _ =>
    cases h
    exact .stuck _

/-- One call, with the answers that bases give. -/
theorem performed_perform (hof : ∀ d o t', of d t = (o, t') → Answer program t d o t')
    (hname : b.body.name = program.name c) (hcall : call ∈ program.build c)
    {o : Outcome Err (ClassBuilder C R F)} (h : b.perform of call t = (o, t')) :
    Performed program t c b [call] o t' := by
  by_cases hbase : ∃ d, call = .base d
  · obtain ⟨d, rfl⟩ := hbase
    exact performed_base hof hcall h
  have hnot : ∀ d, call ≠ .base d := fun d hd => hbase ⟨d, hd⟩
  by_cases hknown : call.Known
  · rw [ClassBuilder.perform_of_known hknown hnot] at h
    cases h
    refine .passed _ (ClassBuilder.refusal b.body.name call) (fun call' hmem => ?_)
      (fun d hmem => absurd (List.mem_singleton.mp hmem).symm (hnot d)) ClassBuilder.name_apply
      ClassBuilder.error_apply ?_
    · rw [List.mem_singleton.mp hmem]
      exact hknown
    · cases hrefusal : ClassBuilder.refusal b.body.name call with
      | none =>
        refine ⟨fun call' hmem => ?_,
          fun d hmem => absurd (List.mem_singleton.mp hmem).symm (hnot d)⟩
        rw [List.mem_singleton.mp hmem]
        exact ClassBuilder.refusal_eq_none.mp hrefusal
      | some e =>
        obtain ⟨d, hasync, hd, rfl⟩ := ClassBuilder.refusal_eq_some hrefusal
        rw [hname]
        exact .here hcall hasync hd
  · obtain ⟨name, asynchronous, function, rfl, hperform⟩ :=
      ClassBuilder.perform_of_not_known of b hknown
    rw [hperform, panic_eq] at h
    cases h
    have hstop : Stop program t.building [.dunderMethod name asynchronous function] []
        (.unknownDunder name) :=
      .unknown List.mem_cons_self fun d hd => hknown ⟨d, hd⟩
    have hdone := Performed.stopped (c := c) (b := b) hstop
    rwa [List.append_nil] at hdone

theorem Stop.mono {building path : List C} {p : Panic C} {calls' : List (Call C R F)}
    (h : Stop program building calls path p) (hsub : calls ⊆ calls') :
    Stop program building calls' path p := by
  cases h with
  | unknown hcall hname => exact .unknown (hsub hcall) hname
  | base hcall hstranded => exact .base (hsub hcall) hstranded

theorem Verdict.cons {r r' : Option Err} (h : Verdict program c [call] r)
    (h' : Verdict program c calls r') : Verdict program c (call :: calls) (r.or r') := by
  cases r with
  | some e => exact h
  | none =>
    cases r' with
    | some e => exact h'
    | none =>
      refine ⟨fun call' hmem => ?_, fun d hmem => ?_⟩
      · rcases List.mem_cons.mp hmem with rfl | hmem
        · exact h.1 _ List.mem_cons_self
        · exact h'.1 _ hmem
      · rcases List.mem_cons.mp hmem with hd | hmem
        · exact h.2 d (List.mem_singleton.mpr hd)
        · exact h'.2 d hmem

theorem performed_performAll (hof : ∀ d o t', of d t = (o, t') → Answer program t d o t')
    (hname : b.body.name = program.name c) (hcalls : calls ⊆ program.build c)
    {o : Outcome Err (ClassBuilder C R F)} (h : b.performAll of calls t = (o, t')) :
    Performed program t c b calls o t' := by
  induction calls generalizing b o with
  | nil =>
    cases h
    exact .passed b none nofun nofun rfl (Option.or_none ..).symm ⟨nofun, nofun⟩
  | cons call calls ih =>
    obtain ⟨hcall, hrest⟩ := List.cons_subset.mp hcalls
    have htail : calls ⊆ call :: calls := List.subset_cons_self ..
    have hhead : [call] ⊆ call :: calls := List.cons_subset.mpr ⟨List.mem_cons_self, nofun⟩
    rcases bind_cases h with ⟨b₁, t₁, hb₁, hafter⟩ | ⟨e, herr, -⟩ | ⟨hpanic, rfl⟩ | ⟨hstuck, rfl⟩
    · cases performed_perform hof hname hcall hb₁ with
      | passed _ r hknown hsound hname₁ herror hverdict =>
        cases ih (hname₁.trans hname) hrest hafter with
        | passed b' r' hknown' hsound' hname' herror' hverdict' =>
          refine .passed b' (r.or r') (fun call' hmem => ?_) (fun d hmem => ?_)
            (hname'.trans hname₁) ?_ (hverdict.cons hverdict')
          · rcases List.mem_cons.mp hmem with rfl | hmem
            · exact hknown _ List.mem_cons_self
            · exact hknown' _ hmem
          · rcases List.mem_cons.mp hmem with hd | hmem
            · exact hsound d (List.mem_singleton.mpr hd)
            · exact hsound' d hmem
          · rw [herror', herror, Option.or_assoc]
        | stopped hstop => exact .stopped (hstop.mono htail)
        | stuck _ => exact .stuck _
    · cases performed_perform hof hname hcall herr
    · cases performed_perform hof hname hcall hpanic with
      | stopped hstop => exact .stopped (hstop.mono hhead)
    · exact .stuck _

theorem performAll_ne_stuck {of : C → Build C (ClassSpec C R F)} {c : C} {t : Thread C}
    {b : ClassBuilder C R F} {calls : List (Call C R F)}
    (hof : ∀ d o t', of d t = (o, t') → Answer program t d o t')
    (hname : b.body.name = program.name c) (hcalls : calls ⊆ program.build c)
    (hbases : ∀ d, .base d ∈ calls → (of d t).1 ≠ .stuck) :
    (b.performAll of calls t).1 ≠ .stuck := by
  induction calls generalizing b with
  | nil => nofun
  | cons call calls ih =>
    obtain ⟨hcall, hrest⟩ := List.cons_subset.mp hcalls
    rcases h : b.performAll of (call :: calls) t with ⟨o, t'⟩
    rcases bind_cases h with ⟨b₁, t₁, hb₁, hafter⟩ | ⟨e, -, rfl⟩ | ⟨-, rfl⟩ | ⟨hstuck, -⟩
    · cases performed_perform hof hname hcall hb₁ with
      | passed _ r hknown hsound hname₁ herror hverdict =>
        have hne := ih (hname₁.trans hname) hrest fun d hd => hbases d (List.mem_cons_of_mem _ hd)
        rwa [hafter] at hne
    · nofun
    · nofun
    · intro _
      by_cases hbase : ∃ d, call = .base d
      · obtain ⟨d, rfl⟩ := hbase
        have hne := hbases d List.mem_cons_self
        have heq : b.base of d t = (.stuck, t') := hstuck
        rw [base_eq] at heq
        rcases hd : of d t with ⟨r, t₁⟩
        rw [hd] at heq hne
        cases r with
        | stuck => exact hne rfl
        | _ => cases heq
      · by_cases hknown : call.Known
        · rw [ClassBuilder.perform_of_known hknown fun d hd => hbase ⟨d, hd⟩] at hstuck
          cases hstuck
        · obtain ⟨name, asynchronous, function, rfl, hperform⟩ :=
            ClassBuilder.perform_of_not_known of b hknown
          rw [hperform, panic_eq] at hstuck
          cases hstuck

end

/-! ## Building a class -/

section

variable [DecidableEq C] {fuel : Nat} {c : C} {t t' : Thread C}

theorem of_of_mem (h : c ∈ t.building) :
    ClassSpec.of program (fuel + 1) c t = (.panic, ⟨t.building, t.panics ++ [.cycle c]⟩) := by
  change (Host.get >>= _) t = _
  rw [Host.get_bind, if_pos h, panic_eq]

theorem of_of_not_mem (h : c ∉ t.building) :
    ClassSpec.of program (fuel + 1) c t =
      ((ClassBuilder.new program c).performAll (ClassSpec.of program fuel) (program.build c) >>=
        fun b => Host.modify (fun t => { t with building := t.building.dropLast }) >>=
          fun _ => Host.ofExcept b.finish) { t with building := t.building ++ [c] } := by
  change (Host.get >>= _) t = _
  rw [Host.get_bind, if_neg h, Host.modify_bind]

/-- **What `of` answers, and the thread that it leaves.** -/
theorem answer_of {o : Outcome Err (ClassSpec C R F)}
    (h : ClassSpec.of program fuel c t = (o, t')) : Answer program t c o t' := by
  induction fuel generalizing c t t' o with
  | zero =>
    cases h
    exact .stuck _
  | succ fuel ih =>
    by_cases hc : c ∈ t.building
    · rw [of_of_mem hc] at h
      cases h
      have hstranded : Stranded program t.building c [] (.cycle c) := .cycle hc
      have hdone : Answer program t c _ _ := .stranded hstranded
      rwa [List.append_nil] at hdone
    rw [of_of_not_mem hc] at h
    have hperformed : ∀ o t', ClassBuilder.performAll (ClassSpec.of program fuel)
        (ClassBuilder.new program c) (program.build c)
        { t with building := t.building ++ [c] } = (o, t') →
          Performed program { t with building := t.building ++ [c] } c (.new program c)
            (program.build c) o t' :=
      fun o t' h => performed_performAll (fun d o t' hd => ih hd) rfl (List.Subset.refl _) h
    rcases bind_cases h with ⟨b, t₁, hb, hafter⟩ | ⟨e, herr, -⟩ | ⟨hpanic, rfl⟩ | ⟨hstuck, rfl⟩
    · cases hperformed _ _ hb with
      | passed _ r hknown hbases hname herror hverdict =>
        have hclear := Clear.of_bases hc fun d hcd => (hbases d hcd).2
        rw [Host.modify_bind, List.dropLast_concat] at hafter
        have hr : b.error = r := herror.trans (Option.none_or ..)
        cases r with
        | none =>
          have hfinish : b.finish = .ok ⟨b.body, b.bases⟩ := by
            unfold ClassBuilder.finish
            rw [hr]
          rw [hfinish] at hafter
          cases hafter
          exact .built _
            (.mk (fun call hcall => ⟨hknown call hcall, hverdict.1 call hcall⟩) hverdict.2) hclear
        | some e =>
          have hfinish : b.finish = .error e := by
            unfold ClassBuilder.finish
            rw [hr]
          rw [hfinish] at hafter
          cases hafter
          exact .refused e (.mk hknown fun d hcd => (hbases d hcd).1) hclear hverdict
    · cases hperformed _ _ herr
    · cases hperformed _ _ hpanic with
      | stopped hstop =>
        cases hstop with
        | unknown hcall hname =>
          have hdone : Answer program t c _ _ := .stranded (Stranded.unknown hc hcall hname)
          rwa [List.append_nil]
        | base hcd hstranded =>
          rw [List.append_assoc]
          exact .stranded (.base hc hcd hstranded)
    · exact .stuck _

end

/-! ## Enough fuel -/

section

variable [DecidableEq C]

/-- The classes that are not being built. -/
def waiting (program : Program C R F) (building : List C) : List C :=
  program.classes.filter fun d => d ∉ building

theorem waiting_append_length_lt {building : List C} {c : C} (hc : c ∉ building)
    (hclass : c ∈ program.classes) :
    (waiting program (building ++ [c])).length < (waiting program building).length := by
  have hsub : waiting program (building ++ [c]) =
      (waiting program building).filter fun d => d ≠ c := by
    unfold waiting
    rw [List.filter_filter]
    refine List.filter_congr fun d _ => ?_
    simp [and_comm]
  rw [hsub]
  refine List.length_filter_lt_length_iff_exists.mpr ⟨c, ?_, by simp⟩
  exact List.mem_filter.mpr ⟨hclass, by simpa using hc⟩

/-- A class needs no more fuel than there are classes that can be built below it. -/
theorem of_ne_stuck {fuel : Nat} {c : C} {t : Thread C}
    (hfuel : c ∉ t.building → (waiting program (t.building ++ [c])).length < fuel) :
    (ClassSpec.of program (fuel + 1) c t).1 ≠ .stuck := by
  induction fuel generalizing c t with
  | zero =>
    by_cases hc : c ∈ t.building
    · rw [of_of_mem hc]
      nofun
    · exact absurd (hfuel hc) (Nat.not_lt_zero _)
  | succ fuel ih =>
    by_cases hc : c ∈ t.building
    · rw [of_of_mem hc]
      nofun
    rw [of_of_not_mem hc]
    refine Host.Settles.ne_stuck_of_bind (fun b => ?_) (performAll_ne_stuck (c := c)
      (fun d o t' hd => answer_of hd) rfl (List.Subset.refl _) fun d hcd => ih fun hd => ?_)
    · refine Host.Settles.bind (fun s => Or.inl ⟨(), rfl⟩) fun _ => ?_
      cases b.finish with
      | ok spec => exact Host.Settles.pure spec
      | error e => exact Host.Settles.throw e
    · have hlt := waiting_append_length_lt hd (program.closed c d hcd)
      have := hfuel hc
      exact Nat.lt_of_lt_of_le hlt (Nat.le_of_lt_succ this)

end

/-! ## Histories of a thread -/

/-- A panic on a list of classes that cannot be built says so of classes that cannot be built. -/
theorem Stranded.unsound {building path : List C} {c : C} {p : Panic C}
    (h : Stranded program building c path p) (hbuilding : ∀ d ∈ building, ¬ Sound program d) :
    ¬ Sound program c ∧ ∀ d ∈ path, ¬ Sound program d := by
  have hc : ∀ {building path c} {p : Panic C}, Stranded program building c path p →
      (∀ d ∈ building, ¬ Sound program d) → ¬ Sound program c := fun h hbuilding hsound =>
    h.cases ⟨hsound, fun d hcd hd => hbuilding d hd (hsound.of_reflTransGen hcd)⟩
  induction h with
  | cycle hmem => exact ⟨hbuilding _ hmem, nofun⟩
  | unknown hmem hcall hname =>
    have hthis := hc (.unknown hmem hcall hname) hbuilding
    refine ⟨hthis, fun d hd => ?_⟩
    rw [List.mem_singleton.mp hd]
    exact hthis
  | base hmem hcd hstranded ih =>
    have hthis := hc (.base hmem hcd hstranded) hbuilding
    refine ⟨hthis, fun d hd => ?_⟩
    rcases List.mem_cons.mp hd with rfl | hd
    · exact hthis
    · refine (ih fun e he => ?_).2 d hd
      rcases List.mem_append.mp he with he | he
      · exact hbuilding e he
      · rw [List.mem_singleton.mp he]
        exact hthis

section

variable [DecidableEq C] (program : Program C R F)

/-- `of` with fuel for every class. -/
def specOf (c : C) : Build C (ClassSpec C R F) :=
  ClassSpec.of program (program.classes.length + 2) c

/-- The thread after requests for classes, where the panics are caught. -/
def after (history : List C) : Thread C :=
  final (fun t c => specOf program c t) ⟨[], []⟩ history

/-- What comes of a request in a thread. -/
structure Settled (t : Thread C) (c : C) : Prop where
  built : (∃ spec, specOf program c t = (.ok spec, t)) ↔ Buildable program c
  refused : (∃ e, specOf program c t = (.err e, t) ∧ Refused program c e) ↔
    Sound program c ∧ ¬ Buildable program c
  panics : (∃ path p, specOf program c t = (.panic, ⟨t.building ++ path, t.panics ++ [p]⟩) ∧
    Stranded program t.building c path p) ↔ ¬ Sound program c
  /-- What it leaves on the list, or what was there before, is unsound. -/
  stranded : ∀ d ∈ (specOf program c t).2.building, ¬ Sound program d

variable {program}

theorem specOf_ne_stuck (program : Program C R F) (c : C) (t : Thread C) :
    (specOf program c t).1 ≠ .stuck := by
  refine of_ne_stuck fun _ => Nat.lt_succ_of_le ?_
  exact List.length_filter_le _ _

/-- A request puts only unsound classes on the list. -/
theorem unsound_step {t : Thread C} (ht : ∀ d ∈ t.building, ¬ Sound program d) (c : C) :
    ∀ d ∈ (specOf program c t).2.building, ¬ Sound program d := by
  rcases h : specOf program c t with ⟨o, t'⟩
  cases answer_of h with
  | built _ _ _ => exact ht
  | refused _ _ _ _ => exact ht
  | stranded hstranded =>
    intro d hd
    rcases List.mem_append.mp hd with hd | hd
    · exact ht d hd
    · exact (hstranded.unsound ht).2 d hd
  | stuck _ =>
    have hne := specOf_ne_stuck program c t
    rw [h] at hne
    exact absurd rfl hne

/-- All classes that panics have left on the list are unsound. -/
theorem not_sound_of_mem_after (program : Program C R F) (history : List C) :
    ∀ d ∈ (after program history).building, ¬ Sound program d :=
  invariant_final (P := fun t : Thread C => ∀ d ∈ t.building, ¬ Sound program d)
    (fun _ c ht => unsound_step ht c) (fun _ => List.not_mem_nil.elim) history

/-- **Panics do no harm to classes that can be built.** -/
theorem settled_after (program : Program C R F) (history : List C) (c : C) :
    Settled program (after program history) c := by
  have hleft := not_sound_of_mem_after program history
  generalize after program history = t at hleft ⊢
  have hstranded' := unsound_step hleft c
  rcases h : specOf program c t with ⟨o, t'⟩
  cases answer_of h with
  | built spec hbuildable hclear =>
    refine ⟨?_, ?_, ?_, hstranded'⟩
    · exact ⟨fun _ => hbuildable, fun _ => ⟨spec, h⟩⟩
    · constructor
      · rintro ⟨e, he, -⟩
        cases h.symm.trans he
      · exact fun hnot => absurd hbuildable hnot.2
    · constructor
      · rintro ⟨path, p, hp, -⟩
        cases h.symm.trans hp
      · exact fun hnot => absurd hbuildable.sound hnot
  | refused e hsound hclear hrefused =>
    refine ⟨?_, ?_, ?_, hstranded'⟩
    · constructor
      · rintro ⟨spec, hspec⟩
        cases h.symm.trans hspec
      · exact fun hbuildable => absurd hrefused hbuildable.not_refused
    · exact ⟨fun _ => ⟨hsound, fun hbuildable => hbuildable.not_refused hrefused⟩,
        fun _ => ⟨e, h, hrefused⟩⟩
    · constructor
      · rintro ⟨path, p, hp, -⟩
        cases h.symm.trans hp
      · exact fun hnot => absurd hsound hnot
  | stranded hstranded =>
    have hunsound := (hstranded.unsound hleft).1
    refine ⟨?_, ?_, ?_, hstranded'⟩
    · constructor
      · rintro ⟨spec, hspec⟩
        cases h.symm.trans hspec
      · exact fun hbuildable => absurd hbuildable.sound hunsound
    · constructor
      · rintro ⟨e, he, -⟩
        cases h.symm.trans he
      · exact fun hnot => absurd hnot.1 hunsound
    · exact ⟨fun _ => hunsound, fun _ => ⟨_, _, h, hstranded⟩⟩
  | stuck _ =>
    have hne := specOf_ne_stuck program c t
    rw [h] at hne
    exact absurd rfl hne

end

end GuestPy.Building
