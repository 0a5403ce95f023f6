import GuestPy.Guest.Building
import GuestPy.Library.Results

/-!
# The state of host modules

A module may be given a state, and what is called by a guest may ask for the state of its owner:
a function for that of its module, and a member of a class for that of the module which the class
is registered on. What they ask for is declared beforehand, and checked when a runtime or a guest
is built.

* `owningModule` looks the owner up among the bindings of a guest. A callable is wrapped for the
  guest that it was made for, and `fromBody` asks that guest, whichever guest calls.
* `Resolves` says that a declared state is found, and that it is the state of the module itself.
* `resolves_of_build`: in a guest that has been built, every declared state is found.
-/

namespace GuestPy.Contexts

open Building (GuestBuilder Requirement Runtime Shared)
open Exceptions (Err HostException)
open Owners (Live ModuleId)

/-- The type of a state. -/
abbrev StateType := Nat

/-- The states of the modules, and what the modules and the classes declare to need. -/
structure States where
  name : ModuleId → Str
  state : ModuleId → Option StateType
  typeName : StateType → String
  ofModule : ModuleId → List StateType
  ofClass : Nat → List StateType

inductive Owner where
  | class (payload : Nat)
  | module (name : Str)

namespace States

variable (states : States)

/-- `ModuleStateRequirement::missing`. -/
def missing (m : ModuleId) (type : StateType) : Err :=
  .unsupported ("module " ++ String.ofList (states.name m) ++ " has no state of type " ++
    states.typeName type)

/-- `ModuleStateRequirement::check`. -/
def check (type : StateType) : Requirement := fun m =>
  if states.state m = some type then .ok () else .error (states.missing m type)

end States

/-- `CallContext::owning_module`. -/
def owningModule (b : Owners.GuestBindings) (owner : Owner) : Except Err ModuleId :=
  let found := match owner with
    | .class payload => b.owners payload
    | .module name => b.specs name
  match found with
  | some m => .ok m
  | none => .error (.unexpected "the owner of a host callable is not registered")

/-- `ModuleState::from_context`. A state is known by the module that it was given to. -/
def fromContext (states : States) (b : Owners.GuestBindings) (owner : Owner) (type : StateType) :
    Except Err ModuleId := do
  let m ← owningModule b owner
  if states.state m = some type then return m else .error (states.missing m type)

/-- The guests of a runtime that are there, with what is bound to each. -/
abbrev Guests := GuestId → Option Owners.GuestBindings

/-- `ModuleState::from_context` in the body of a callable that `raw_body` has wrapped for
`maker`. -/
def fromBody (states : States) (guests : Guests) (maker : GuestId) (owner : Owner)
    (type : StateType) : Except Err ModuleId :=
  match guests maker with
  | none => .error .closed
  | some b => fromContext states b owner type

theorem fromBody_eq {states : States} {guests : Guests} {maker : GuestId}
    {b : Owners.GuestBindings} (h : guests maker = some b) (owner : Owner) (type : StateType) :
    fromBody states guests maker owner type = fromContext states b owner type := by
  unfold fromBody
  rw [h]

section

variable {types : TypeId → HostException}

/-- The requirements of a runtime are those that have been declared. -/
structure Declares (rt : Runtime types) (states : States) : Prop where
  name : ∀ m, states.name m = (rt.heap m).spec.name
  ofModule : ∀ m, (rt.heap m).requirements = (states.ofModule m).map states.check
  ofClass : ∀ p, rt.requirements p = (states.ofClass p).map states.check

/-- Each module that is bound, and each class of any module, finds the state that it declares. It
is the state of the module itself. -/
structure Resolves (ms : Owners.Modules) (states : States) (l : List ModuleId)
    (b : Owners.GuestBindings) : Prop where
  ofModule : ∀ m, Live ms l m → ∀ type ∈ states.ofModule m,
    fromContext states b (.module (ms.heap m).name) type = .ok m
  ofClass : ∀ m ∈ l, ∀ p, ms.declares m p = true → ∀ type ∈ states.ofClass p,
    fromContext states b (.class p) type = .ok m

variable {rt : Runtime types} {states : States} {b : GuestBuilder types}

theorem check_eq_ok {type : StateType} {m : ModuleId} :
    states.check type m = .ok () ↔ states.state m = some type := by
  unfold States.check
  split
  next h => exact ⟨fun _ => h, fun _ => rfl⟩
  next h => exact ⟨nofun, fun heq => absurd heq h⟩

/-- What has been validated has the states that it declares. -/
theorem validate_eq_ok (h : Declares rt states) {m : ModuleId} :
    rt.validate m = .ok () ↔ (∀ type ∈ states.ofModule m, states.state m = some type) ∧
      ∀ p, rt.owners.declares m p = true →
        ∀ type ∈ states.ofClass p, states.state m = some type := by
  unfold Runtime.validate
  rw [Results.bind_eq_ok, h.ofModule]
  have hmodule : ∀ u, (states.ofModule m |>.map states.check).forM
      (fun requirement => requirement m) = .ok u ↔
        ∀ type ∈ states.ofModule m, states.state m = some type := by
    rintro ⟨⟩
    rw [Results.forM_eq_ok, List.forall_mem_map]
    simp only [check_eq_ok]
  have hclasses : (rt.owners.lineage m).forM (fun c =>
      (rt.requirements c.payload).forM fun requirement => requirement m) = .ok () ↔
        ∀ p, rt.owners.declares m p = true →
          ∀ type ∈ states.ofClass p, states.state m = some type := by
    rw [Results.forM_eq_ok]
    simp only [h.ofClass, Results.forM_eq_ok, List.forall_mem_map, check_eq_ok,
      Owners.declares_iff]
    constructor
    · rintro hall p ⟨c, hc, rfl⟩
      exact hall c hc
    · exact fun hall c hc => hall c.payload ⟨c, hc, rfl⟩
  constructor
  · rintro ⟨u, hu, hrest⟩
    exact ⟨(hmodule u).mp hu, hclasses.mp hrest⟩
  · rintro ⟨hown, hrest⟩
    exact ⟨(), (hmodule ()).mpr hown, hclasses.mpr hrest⟩

/-- The state of an owner that has it. -/
theorem fromContext_eq_ok {bindings : Owners.GuestBindings} {owner : Owner} {type : StateType}
    {m : ModuleId} (howner : owningModule bindings owner = .ok m)
    (hstate : states.state m = some type) :
    fromContext states bindings owner type = .ok m := by
  unfold fromContext
  rw [howner, Results.ok_bind, if_pos hstate]
  rfl

/-- Where the modules have been validated and bound, states are found. -/
theorem resolves_of_new (h : Declares rt states) {runtime guest : List ModuleId}
    (hvalid : ∀ m ∈ runtime ++ guest, rt.validate m = .ok ()) {bindings : Owners.GuestBindings}
    (hnew : Owners.GuestBindings.new rt.owners runtime guest = .ok bindings) :
    Resolves rt.owners states (runtime ++ guest) bindings := by
  have hbound := Owners.bound_of_new hnew
  constructor
  · intro m hlive type htype
    have hspec : bindings.specs (rt.owners.heap m).name = some m :=
      (hbound.specs _ m).mpr ⟨hlive, rfl⟩
    refine fromContext_eq_ok ?_ (((validate_eq_ok h).mp (hvalid m hlive.mem)).1 type htype)
    simp only [owningModule, hspec]
  · intro m hm p hdeclares type htype
    have hrequires : rt.owners.requires p = true := by
      change (!(rt.requirements p).isEmpty) = true
      rw [h.ofClass]
      cases hp : states.ofClass p with
      | nil =>
        rw [hp] at htype
        cases htype
      | cons type' rest => rfl
    have howner : bindings.owners p = some m := by
      rw [hbound.owners]
      cases hfind : (runtime ++ guest).find? fun m => rt.owners.declares m p with
      | none => exact absurd hdeclares (List.find?_eq_none.mp hfind m hm)
      | some m' =>
        have hdeclares' := List.find?_some hfind
        by_contra hne
        refine (Owners.new_eq_ok_iff runtime guest).mp ⟨bindings, hnew⟩ ⟨p, hrequires, m', m, ?_,
          List.mem_of_find?_eq_some hfind, hm, hdeclares', hdeclares⟩
        exact fun heq => hne (congrArg some heq)
    refine fromContext_eq_ok ?_
      (((validate_eq_ok h).mp (hvalid m hm)).2 p hdeclares type htype)
    simp only [owningModule, howner]

/-- **A built guest finds every state that was declared.** -/
theorem resolves_of_build (h : Declares rt states)
    (hruntime : ∀ m ∈ rt.modules, rt.validate m = .ok ()) {s s' : Shared types} {g : GuestId}
    (hbuild : b.build rt s = (.ok g, s')) :
    ∃ bindings, Owners.GuestBindings.new rt.owners rt.modules b.modules = .ok bindings ∧
      Resolves rt.owners states (rt.modules ++ b.modules) bindings := by
  obtain ⟨g', s₁, hstart, -⟩ := Host.bind_eq_ok.mp hbuild
  rcases Host.ofExcept_bind_cases hstart with ⟨u, hcheck, hafter⟩ | ⟨e, -, herr, -⟩
  · obtain ⟨g'', s₂, -, hafter⟩ := Host.bind_eq_ok.mp hafter
    rw [Host.modify_bind] at hafter
    rcases Host.ofExcept_bind_cases hafter with ⟨u', hbindings, -⟩ | ⟨e, -, herr, -⟩
    · obtain ⟨bindings, hnew, -⟩ := Results.bind_eq_ok.mp hbindings
      obtain ⟨-, -, hguest⟩ := Results.bind_eq_ok.mp hcheck
      refine ⟨bindings, hnew, resolves_of_new h (fun m hm => ?_) hnew⟩
      rcases List.mem_append.mp hm with hm | hm
      · exact hruntime m hm
      · exact Results.forM_eq_ok.mp hguest m hm
    · cases herr
  · cases herr

end

end GuestPy.Contexts
