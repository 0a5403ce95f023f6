import GuestPy.Errors
import GuestPy.Library.Borrows
import GuestPy.Library.Lockstep

/-!
# Payloads of host objects

An object of a host class carries a Rust value, which host code borrows while it runs. Between
taking a borrow and dropping it the code may call into the guest, and the guest into other host
code, so that the steps on the store come in any order. Left out is what a payload does when it is
dropped, because `set_payload` replaces it: it finds its own object borrowed.

* `Backend` holds what the implementations of `BackendClasses` differ in. `RustPython.classes` and
  `CPython.classes` are the two there are.
* `perform` is one step. A run is a list of steps.
* `Sound` is the invariant of all runs: every flag counts the borrows that are out, and every
  borrow that is out finds a payload of its type.
-/

namespace GuestPy.Payloads

open Borrows

abbrev GuardId := Nat

abbrev Err := Error String

/-- What `alloc` is given as a class. -/
structure Class where
  name : String
  isType : Bool
  typeName : String
  /-- Whether it is a subclass of `_guestpy_object`. -/
  derives : Bool
  isType_of_derives : derives = true → isType = true

/-- A value of the interpreter. -/
inductive Value where
  | object (x : ObjectId)
  | foreign (className : String)

def typeMismatch (expected actual : String) : Err :=
  .conversion s!"expected {expected}, got {actual}"

def missingPayload (c : Class) : Err :=
  .conversion (s!"host class {c.name} has no payload; its __init__ was never called " ++
    "(did a subclass forget super().__init__()?)")

/-- The text of a `BorrowKind`. -/
def kindText : Kind → String
  | .shared => "shared"
  | .exclusive => "exclusive"

def borrowed (k : Kind) : Err := .borrow "host class" (kindText k)

/-! ## The two backends -/

/-- What the implementations of `BackendClasses` differ in, for payloads in `V` and objects that
are laid out as `O`. -/
structure Backend (O V : Type) where
  alloc : TypeId → Class → Except Err O
  of : TypeId → O → Bool
  mismatch : String → Err
  payload : TypeId → O → Option V
  setPayload : TypeId → V → O → O
  payload_setPayload : ∀ type v o, payload type (setPayload type v o) = some v

namespace RustPython

/-- A `HostObject<C>`, with `type` for the `C`. -/
structure HostObject (V : Type) where
  type : TypeId
  payload : Option V

variable {V : Type}

def classes : Backend (HostObject V) V where
  alloc type c := if c.isType then .ok ⟨type, none⟩ else .error (typeMismatch "type" c.typeName)
  of type o := o.type == type
  mismatch className := typeMismatch "host class instance" className
  payload _ o := o.payload
  setPayload _ v o := { o with payload := some v }
  payload_setPayload _ _ _ := rfl

end RustPython

namespace CPython

/-- A `HostObject`, whose payload is a `Box<dyn Any>`. -/
structure HostObject (V : Type) where
  payload : Option (TypeId × V)

variable {V : Type}

/-- `refusal` is the text of the `TypeError` of `_guestpy_object.__new__`. -/
def classes (refusal : Class → String) : Backend (HostObject V) V where
  alloc _ c := if c.derives then .ok ⟨none⟩ else .error (.guest (refusal c))
  of _ _ := true
  mismatch _ := typeMismatch "host class instance" "object"
  payload type o := o.payload.bind fun p => if p.1 = type then some p.2 else none
  setPayload type v _ := ⟨some (type, v)⟩
  payload_setPayload _ _ _ := if_pos rfl

end CPython

/-! ## The store -/

/-- A host object in the heap, under the flag of its `RefCell` or `PyRef`. -/
structure Cell (O : Type) where
  «class» : Class
  content : O
  flag : Flag

/-- A `Ref` or `RefMut` that has not been dropped. -/
structure Guard where
  object : ObjectId
  kind : Kind
  type : TypeId

structure Store (O : Type) where
  objects : ObjectId → Option (Cell O)
  nextObject : ObjectId
  guards : List (GuardId × Guard)
  nextGuard : GuardId

/-- One step of host code. `read`, `write` and `drop` go through a guard that it holds. -/
inductive Op (V : Type) where
  | alloc (type : TypeId) («class» : Class)
  | setPayload (type : TypeId) (instance_ : Value) (payload : V)
  | borrow (kind : Kind) (type : TypeId) (instance_ : Value)
  | read (g : GuardId)
  | write (g : GuardId) (payload : V)
  | drop (g : GuardId)

/-- What a step gives. `absent` is for steps that no Rust program can write: through a guard that
has been dropped, a write through a shared guard, or with an object that does not exist. -/
inductive Reply (V : Type) where
  | object (x : ObjectId)
  | guard (g : GuardId)
  | payload (v : V)
  | done
  | error (e : Err)
  | panic
  | absent

variable {O V : Type}

namespace Store

def new : Store O := ⟨fun _ => none, 0, [], 0⟩

def set (x : ObjectId) (cell : Cell O) (s : Store O) : Store O :=
  { s with objects := Function.update s.objects x (some cell) }

def add (cell : Cell O) (s : Store O) : Store O :=
  { s.set s.nextObject cell with nextObject := s.nextObject + 1 }

def guard (s : Store O) (g : GuardId) : Option Guard := s.guards.lookup g

/-- The guards of an object. -/
def guardsOf (s : Store O) (x : ObjectId) : List (GuardId × Guard) :=
  s.guards.filter fun p => p.2.object == x

/-- What is borrowed from an object. -/
def kindsOf (s : Store O) (x : ObjectId) : List Kind := (s.guardsOf x).map fun p => p.2.kind

def hold (gd : Guard) (s : Store O) : Store O :=
  { s with guards := (s.nextGuard, gd) :: s.guards, nextGuard := s.nextGuard + 1 }

def letGo (g : GuardId) (s : Store O) : Store O :=
  { s with guards := s.guards.eraseP fun p => p.1 == g }

end Store

open Store

/-- What a value is found to be. -/
inductive Instance (O : Type) where
  | here (x : ObjectId) (cell : Cell O)
  | mismatch (e : Err)
  | absent

variable (B : Backend O V)

/-- `HostObject::of`. -/
def Backend.find (type : TypeId) (s : Store O) : Value → Instance O
  | .foreign className => .mismatch (B.mismatch className)
  | .object x =>
    match s.objects x with
    | none => .absent
    | some cell =>
      if B.of type cell.content then .here x cell else .mismatch (B.mismatch cell.class.name)

/-- `alloc`. -/
def Backend.performAlloc (type : TypeId) (c : Class) (s : Store O) : Reply V × Store O :=
  match B.alloc type c with
  | .error e => (.error e, s)
  | .ok content => (.object s.nextObject, s.add ⟨c, content, .unused⟩)

/-- `set_payload`. The exclusive borrow ends with the statement. The payload that was there is
dropped before that, and what its `Drop` does is left out. -/
def Backend.performSet (type : TypeId) (instance_ : Value) (v : V) (s : Store O) :
    Reply V × Store O :=
  match B.find type s instance_ with
  | .absent => (.absent, s)
  | .mismatch e => (.error e, s)
  | .here x cell =>
    match cell.flag.take .exclusive with
    | none => (.error (borrowed .exclusive), s)
    | some _ => (.done, s.set x { cell with content := B.setPayload type v cell.content })

/-- `borrow` and `borrow_mut`. -/
def Backend.performBorrow (k : Kind) (type : TypeId) (instance_ : Value) (s : Store O) :
    Reply V × Store O :=
  match B.find type s instance_ with
  | .absent => (.absent, s)
  | .mismatch e => (.error e, s)
  | .here x cell =>
    match cell.flag.take k with
    | none => (.error (borrowed k), s)
    | some flag =>
      match B.payload type cell.content with
      | none => (.error (missingPayload cell.class), s)
      | some _ => (.guard s.nextGuard, (s.set x { cell with flag := flag }).hold ⟨x, k, type⟩)

/-- The payload that a guard refers to. -/
def Backend.through (s : Store O) (gd : Guard) : Option V :=
  (s.objects gd.object).bind fun cell => B.payload gd.type cell.content

/-- `Deref` of a guard, which expects a payload of its type. -/
def Backend.performRead (g : GuardId) (s : Store O) : Reply V × Store O :=
  match s.guard g with
  | none => (.absent, s)
  | some gd =>
    match B.through s gd with
    | none => (.panic, s)
    | some v => (.payload v, s)

/-- An assignment through `DerefMut` of an exclusive guard. -/
def Backend.performWrite (g : GuardId) (v : V) (s : Store O) : Reply V × Store O :=
  match s.guard g with
  | none => (.absent, s)
  | some gd =>
    if gd.kind = .exclusive then
      match s.objects gd.object, B.through s gd with
      | some cell, some _ =>
        (.done, s.set gd.object { cell with content := B.setPayload gd.type v cell.content })
      | _, _ => (.panic, s)
    else (.absent, s)

/-- `Drop` of a guard. -/
def Store.performDrop (g : GuardId) (s : Store O) : Reply V × Store O :=
  match s.guard g with
  | none => (.absent, s)
  | some gd =>
    match s.objects gd.object with
    | none => (.panic, s)
    | some cell => (.done, (s.set gd.object { cell with flag := cell.flag.give }).letGo g)

def Backend.perform (s : Store O) : Op V → Reply V × Store O
  | .alloc type c => B.performAlloc type c s
  | .setPayload type instance_ v => B.performSet type instance_ v s
  | .borrow k type instance_ => B.performBorrow k type instance_ s
  | .read g => B.performRead g s
  | .write g v => B.performWrite g v s
  | .drop g => s.performDrop g

/-! ## Simplification -/

section Fields

variable (s : Store O) (x y : ObjectId) (cell : Cell O) (gd : Guard) (g : GuardId)

@[simp] theorem set_guards : (s.set x cell).guards = s.guards := rfl

@[simp] theorem set_nextGuard : (s.set x cell).nextGuard = s.nextGuard := rfl

@[simp] theorem set_nextObject : (s.set x cell).nextObject = s.nextObject := rfl

@[simp] theorem set_objects_same : (s.set x cell).objects x = some cell := by simp [Store.set]

theorem set_objects_of_ne {x y : ObjectId} (h : y ≠ x) :
    (s.set x cell).objects y = s.objects y := by simp [Store.set, h]

@[simp] theorem hold_objects : (s.hold gd).objects = s.objects := rfl

@[simp] theorem letGo_objects : (s.letGo g).objects = s.objects := rfl

theorem kindsOf_eq_of_guards {s s' : Store O} (h : s'.guards = s.guards) :
    s'.kindsOf x = s.kindsOf x := by simp only [Store.kindsOf, Store.guardsOf, h]

theorem kindsOf_hold :
    (s.hold gd).kindsOf x = if gd.object = x then gd.kind :: s.kindsOf x else s.kindsOf x := by
  by_cases h : gd.object = x <;>
    simp [Store.kindsOf, Store.guardsOf, Store.hold, h]

end Fields

/-! ## The invariant -/

structure Sound (s : Store O) : Prop where
  fresh : ∀ x, s.nextObject ≤ x → s.objects x = none
  ids : ∀ p ∈ s.guards, p.1 < s.nextGuard
  flags : ∀ x cell, s.objects x = some cell → cell.flag.Counts (s.kindsOf x)
  live : ∀ p ∈ s.guards, (B.through s p.2).isSome

/-- What a step does to a store in which no guard dangles. -/
inductive Step (s : Store O) : Op V → Reply V → Store O → Prop
  | stay {op : Op V} {r : Reply V} (hr : r ≠ .panic)
      (hop : ∀ g v gd, op = .write g v → s.guard g = some gd → gd.kind ≠ .exclusive) :
      Step s op r s
  | alloc (type : TypeId) (c : Class) (o : O) :
      Step s (.alloc type c) (.object s.nextObject) (s.add ⟨c, o, .unused⟩)
  | set {type : TypeId} {x : ObjectId} {cell : Cell O} {flag : Flag} (v : V)
      (hx : s.objects x = some cell) (hflag : cell.flag.take .exclusive = some flag) :
      Step s (.setPayload type (.object x) v) .done
        (s.set x { cell with content := B.setPayload type v cell.content })
  | borrow {k : Kind} {type : TypeId} {x : ObjectId} {cell : Cell O} {flag : Flag}
      (hx : s.objects x = some cell) (hflag : cell.flag.take k = some flag)
      (hv : (B.payload type cell.content).isSome) :
      Step s (.borrow k type (.object x)) (.guard s.nextGuard)
        ((s.set x { cell with flag := flag }).hold ⟨x, k, type⟩)
  | write {g : GuardId} {gd : Guard} {cell : Cell O} (v : V) (hg : s.guard g = some gd)
      (hk : gd.kind = .exclusive) (hx : s.objects gd.object = some cell) :
      Step s (.write g v) .done
        (s.set gd.object { cell with content := B.setPayload gd.type v cell.content })
  | drop {g : GuardId} {gd : Guard} {cell : Cell O} (hg : s.guard g = some gd)
      (hx : s.objects gd.object = some cell) :
      Step s (.drop g) .done ((s.set gd.object { cell with flag := cell.flag.give }).letGo g)

variable {B} {s : Store O}

theorem sound_new : Sound B (Store.new : Store O) where
  fresh _ _ := rfl
  ids := nofun
  flags := nofun
  live := nofun

/-- Where a guard stands among those that are held. -/
theorem guard_split {g : GuardId} {gd : Guard} (h : s.guard g = some gd) :
    ∃ before after, s.guards = before ++ (g, gd) :: after ∧
      (s.letGo g).guards = before ++ after := by
  obtain ⟨before, after, hguards, hbefore⟩ := List.lookup_eq_some_iff.mp h
  refine ⟨before, after, hguards, ?_⟩
  change s.guards.eraseP _ = before ++ after
  have hne : ∀ p ∈ before, ¬ (p.1 == g) = true := by
    intro p hp heq
    exact bne_iff_ne.mp (hbefore p hp) (beq_iff_eq.mp heq).symm
  rw [hguards, List.eraseP_append_right _ hne]
  exact congrArg (before ++ ·) (List.eraseP_cons_of_pos (beq_self_eq_true g))

theorem mem_of_guard {g : GuardId} {gd : Guard} (h : s.guard g = some gd) :
    (g, gd) ∈ s.guards := by
  obtain ⟨before, after, hguards, -⟩ := guard_split h
  simp [hguards]

theorem through_isSome (h : Sound B s) {g : GuardId} {gd : Guard} (hg : s.guard g = some gd) :
    ∃ v, B.through s gd = some v :=
  Option.isSome_iff_exists.mp (h.live _ (mem_of_guard hg))

/-- A guard keeps its object alive. -/
theorem object_of_guard (h : Sound B s) {g : GuardId} {gd : Guard} (hg : s.guard g = some gd) :
    ∃ cell, s.objects gd.object = some cell := by
  obtain ⟨v, hv⟩ := through_isSome h hg
  obtain ⟨cell, hcell, -⟩ := Option.bind_eq_some_iff.mp hv
  exact ⟨cell, hcell⟩

theorem find_eq_here {type : TypeId} {instance_ : Value} {x : ObjectId} {cell : Cell O}
    (h : B.find type s instance_ = .here x cell) :
    instance_ = .object x ∧ s.objects x = some cell := by
  cases instance_ with
  | foreign className => cases h
  | object y =>
    simp only [Backend.find] at h
    split at h
    · cases h
    · next hy =>
      split at h
      · cases h
        exact ⟨rfl, hy⟩
      · cases h

/-- **One step.** -/
theorem step_perform (h : Sound B s) (op : Op V) :
    Step B s op (B.perform s op).1 (B.perform s op).2 := by
  cases op with
  | alloc type c =>
    simp only [Backend.perform, Backend.performAlloc]
    split
    · exact .stay nofun nofun
    · exact .alloc type c _
  | setPayload type instance_ v =>
    simp only [Backend.perform, Backend.performSet]
    split
    · exact .stay nofun nofun
    · exact .stay nofun nofun
    · next hfind =>
      obtain ⟨rfl, hx⟩ := find_eq_here hfind
      split
      · exact .stay nofun nofun
      · next hflag => exact .set v hx hflag
  | borrow k type instance_ =>
    simp only [Backend.perform, Backend.performBorrow]
    split
    · exact .stay nofun nofun
    · exact .stay nofun nofun
    · next hfind =>
      obtain ⟨rfl, hx⟩ := find_eq_here hfind
      split
      · exact .stay nofun nofun
      · next hflag =>
        split
        · exact .stay nofun nofun
        · next hv => exact .borrow hx hflag (Option.isSome_of_eq_some hv)
  | read g =>
    simp only [Backend.perform, Backend.performRead]
    split
    · exact .stay nofun nofun
    · next hg =>
      obtain ⟨v, hv⟩ := through_isSome h hg
      rw [hv]
      exact .stay nofun nofun
  | write g v =>
    simp only [Backend.perform, Backend.performWrite]
    split
    · next hg =>
      refine .stay nofun fun g' v' gd hop hgd => ?_
      cases hop
      rw [hg] at hgd
      cases hgd
    · next gd hg =>
      obtain ⟨old, hold⟩ := through_isSome h hg
      obtain ⟨cell, hcell⟩ := object_of_guard h hg
      split
      · next hk =>
        rw [hold, hcell]
        exact .write v hg hk hcell
      · next hk =>
        refine .stay nofun fun g' v' gd' hop hgd => ?_
        cases hop
        rw [hg] at hgd
        cases hgd
        exact hk
  | drop g =>
    simp only [Backend.perform, Store.performDrop]
    split
    · exact .stay nofun nofun
    · next gd hg =>
      obtain ⟨cell, hcell⟩ := object_of_guard h hg
      rw [hcell]
      exact .drop hg hcell

end GuestPy.Payloads
