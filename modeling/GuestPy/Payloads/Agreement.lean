import GuestPy.Payloads.Borrowing

/-!
# The two backends

RustPython allocates an object for one payload type and finds no other payload in it. CPython
allocates every object alike and looks at the type of the payload when it is borrowed.

`answers_eq_iff_fits` says exactly which runs of host code cannot tell the two apart: those that
only use each object at the payload type it is allocated with, and only allocate subclasses of
`_guestpy_object`.
-/

namespace GuestPy.Payloads

open Borrows Store

variable {V : Type}

/-! ## Reading one store as the other -/

/-- A host object of RustPython, as CPython keeps it. -/
def image (o : RustPython.HostObject V) : CPython.HostObject V :=
  ⟨o.payload.map fun v => (o.type, v)⟩

def imageCell (cell : Cell (RustPython.HostObject V)) : Cell (CPython.HostObject V) :=
  ⟨cell.class, image cell.content, cell.flag⟩

def imageStore (s : Store (RustPython.HostObject V)) : Store (CPython.HostObject V) :=
  ⟨fun x => (s.objects x).map imageCell, s.nextObject, s.guards, s.nextGuard⟩

/-- Every guard has the type that its object is allocated with. -/
def Typed (s : Store (RustPython.HostObject V)) : Prop :=
  ∀ p ∈ s.guards, ∀ cell, s.objects p.2.object = some cell → cell.content.type = p.2.type

/-! ## Steps that fit -/

/-- A value that both backends find to be the same at a payload type. -/
def FitsValue (s : Store (RustPython.HostObject V)) (type : TypeId) : Value → Prop
  | .foreign className => className = "object"
  | .object x => ∀ cell, s.objects x = some cell → cell.content.type = type

def Fits (s : Store (RustPython.HostObject V)) : Op V → Prop
  | .alloc _ c => c.derives = true
  | .setPayload type instance_ _ => FitsValue s type instance_
  | .borrow _ type instance_ => FitsValue s type instance_
  | _ => True

section Image

variable {s : Store (RustPython.HostObject V)} {x : ObjectId}
  {cell : Cell (RustPython.HostObject V)}

theorem imageStore_objects : (imageStore s).objects x = (s.objects x).map imageCell := rfl

theorem imageStore_set (s : Store (RustPython.HostObject V)) (x : ObjectId)
    (cell : Cell (RustPython.HostObject V)) :
    imageStore (s.set x cell) = (imageStore s).set x (imageCell cell) := by
  unfold imageStore Store.set
  simp only [Store.mk.injEq, and_true]
  funext y
  by_cases hyx : y = x
  · subst hyx
    simp
  · simp [Function.update_of_ne hyx]

theorem imageStore_add (s : Store (RustPython.HostObject V))
    (cell : Cell (RustPython.HostObject V)) :
    imageStore (s.add cell) = (imageStore s).add (imageCell cell) := by
  have hset := imageStore_set s s.nextObject cell
  exact congrArg (fun t => { t with nextObject := s.nextObject + 1 }) hset

theorem payload_image {type : TypeId} (h : cell.content.type = type) (refusal : Class → String) :
    (CPython.classes refusal).payload type (image cell.content) = cell.content.payload := by
  subst h
  simp only [CPython.classes, image]
  cases cell.content.payload <;> simp

theorem payload_image_of_ne {type : TypeId} (h : cell.content.type ≠ type)
    (refusal : Class → String) :
    (CPython.classes refusal).payload type (image cell.content) = none := by
  simp only [CPython.classes, image]
  cases cell.content.payload <;> simp [h]

/-- Setting the payload at the type of the object. -/
theorem imageCell_setPayload {type : TypeId} (h : cell.content.type = type)
    (refusal : Class → String) (v : V) :
    imageCell { cell with content := RustPython.classes.setPayload type v cell.content } =
      { imageCell cell with
        content := (CPython.classes refusal).setPayload type v (image cell.content) } := by
  subst h
  rfl

theorem typed_set (cell' : Cell (RustPython.HostObject V)) (h : Typed s)
    (hx : s.objects x = some cell) (htype : cell'.content.type = cell.content.type) :
    Typed (s.set x cell') := by
  intro p hp cell₁ hcell₁
  by_cases hpx : p.2.object = x
  · subst hpx
    rw [set_objects_same] at hcell₁
    cases hcell₁
    rw [htype]
    exact h p hp cell hx
  · rw [set_objects_of_ne _ _ hpx] at hcell₁
    exact h p hp cell₁ hcell₁

end Image

/-! ## One step of both -/

/-- The answer and the next store of a step of RustPython, as CPython would have them. -/
structure Same (r : Reply V × Store (RustPython.HostObject V))
    (r' : Reply V × Store (CPython.HostObject V)) : Prop where
  reply : r.1 = r'.1
  store : r'.2 = imageStore r.2
  typed : Typed r.2

section Steps

variable {s : Store (RustPython.HostObject V)} (refusal : Class → String)

theorem same_stay (h : Typed s) (r : Reply V) : Same (r, s) (r, imageStore s) := ⟨rfl, rfl, h⟩

theorem same_alloc (hs : Sound RustPython.classes s) (h : Typed s) {type : TypeId} {c : Class}
    (hc : c.derives = true) :
    Same (RustPython.classes.performAlloc type c s)
      ((CPython.classes refusal).performAlloc type c (imageStore s)) := by
  have hisType := c.isType_of_derives hc
  simp only [Backend.performAlloc, RustPython.classes, CPython.classes, hisType, hc, if_true]
  refine ⟨rfl, ?_, ?_⟩
  · exact (imageStore_add s ⟨c, ⟨type, none⟩, .unused⟩).symm
  · intro p hp cell hcell
    have hne := object_ne_of_none hs (hs.fresh _ (Nat.le_refl _)) hp
    change (s.set s.nextObject _).objects p.2.object = some cell at hcell
    rw [set_objects_of_ne _ _ hne] at hcell
    exact h p hp cell hcell

/-- What the two backends find, where the value fits. -/
theorem find_of_fits {type : TypeId} {instance_ : Value} (hfits : FitsValue s type instance_) :
    (∃ e, RustPython.classes.find type s instance_ = .mismatch e ∧
        (CPython.classes refusal).find type (imageStore s) instance_ = .mismatch e) ∨
      (RustPython.classes.find type s instance_ = .absent ∧
        (CPython.classes refusal).find type (imageStore s) instance_ = .absent) ∨
      ∃ x cell, s.objects x = some cell ∧ cell.content.type = type ∧
        RustPython.classes.find type s instance_ = .here x cell ∧
        (CPython.classes refusal).find type (imageStore s) instance_ =
          .here x (imageCell cell) := by
  cases instance_ with
  | foreign className =>
    cases show className = "object" from hfits
    exact .inl ⟨_, rfl, rfl⟩
  | object x =>
    cases hx : s.objects x with
    | none =>
      refine .inr (.inl ⟨?_, ?_⟩)
      · simp only [Backend.find, hx]
      · simp only [Backend.find, imageStore_objects, hx, Option.map_none]
    | some cell =>
      have htype : cell.content.type = type := hfits cell hx
      refine .inr (.inr ⟨x, cell, hx, htype, ?_, ?_⟩)
      · simp [Backend.find, hx, RustPython.classes, htype]
      · simp [Backend.find, imageStore_objects, hx, CPython.classes]

theorem same_set (h : Typed s) {type : TypeId} {instance_ : Value} (v : V)
    (hfits : FitsValue s type instance_) :
    Same (RustPython.classes.performSet type instance_ v s)
      ((CPython.classes refusal).performSet type instance_ v (imageStore s)) := by
  unfold Backend.performSet
  rcases find_of_fits refusal hfits with ⟨e, hr, hc⟩ | ⟨hr, hc⟩ | ⟨x, cell, hx, htype, hr, hc⟩
  · rw [hr, hc]
    exact same_stay h _
  · rw [hr, hc]
    exact same_stay h _
  · have hflag : (imageCell cell).flag = cell.flag := rfl
    simp only [hr, hc, hflag]
    cases cell.flag.take .exclusive with
    | none => exact same_stay h _
    | some flag =>
      refine ⟨rfl, ?_, typed_set _ h hx rfl⟩
      simp only [imageStore_set, imageCell_setPayload htype refusal v]
      rfl

theorem same_borrow (h : Typed s) {k : Kind} {type : TypeId} {instance_ : Value}
    (hfits : FitsValue s type instance_) :
    Same (RustPython.classes.performBorrow k type instance_ s)
      ((CPython.classes refusal).performBorrow k type instance_ (imageStore s)) := by
  unfold Backend.performBorrow
  rcases find_of_fits refusal hfits with ⟨e, hr, hc⟩ | ⟨hr, hc⟩ | ⟨x, cell, hx, htype, hr, hc⟩
  · rw [hr, hc]
    exact same_stay h _
  · rw [hr, hc]
    exact same_stay h _
  · have hflag : (imageCell cell).flag = cell.flag := rfl
    simp only [hr, hc, hflag]
    cases cell.flag.take k with
    | none => exact same_stay h _
    | some flag =>
      have hpayload : (CPython.classes refusal).payload type (imageCell cell).content =
          RustPython.classes.payload type cell.content := payload_image htype refusal
      simp only [hpayload]
      cases RustPython.classes.payload type cell.content with
      | none => exact same_stay h _
      | some v =>
        refine ⟨rfl, ?_, ?_⟩
        · exact (congrArg (Store.hold ⟨x, k, type⟩)
            (imageStore_set s x { cell with flag := flag })).symm
        · intro p hp cell' hcell'
          rcases List.mem_cons.mp hp with rfl | hp
          · rw [hold_objects, set_objects_same] at hcell'
            cases hcell'
            exact htype
          · exact typed_set { cell with flag := flag } h hx rfl p hp cell' hcell'

/-- What is seen through a guard. -/
theorem through_image (hs : Sound RustPython.classes s) (h : Typed s) {g : GuardId} {gd : Guard}
    (hg : s.guard g = some gd) :
    (CPython.classes refusal).through (imageStore s) gd = RustPython.classes.through s gd := by
  obtain ⟨cell, hcell⟩ := object_of_guard hs hg
  have htype := h _ (mem_of_guard hg) cell hcell
  simp only [Backend.through, imageStore_objects, hcell, Option.map_some, Option.bind_some]
  exact payload_image htype refusal

theorem same_read (hs : Sound RustPython.classes s) (h : Typed s) (g : GuardId) :
    Same (RustPython.classes.performRead g s)
      ((CPython.classes refusal).performRead g (imageStore s)) := by
  unfold Backend.performRead
  rw [show (imageStore s).guard g = s.guard g from rfl]
  cases hg : s.guard g with
  | none => exact same_stay h _
  | some gd =>
    obtain ⟨v, hv⟩ := through_isSome hs hg
    simp only [through_image refusal hs h hg, hv]
    exact same_stay h _

theorem same_write (hs : Sound RustPython.classes s) (h : Typed s) (g : GuardId) (v : V) :
    Same (RustPython.classes.performWrite g v s)
      ((CPython.classes refusal).performWrite g v (imageStore s)) := by
  unfold Backend.performWrite
  rw [show (imageStore s).guard g = s.guard g from rfl]
  cases hg : s.guard g with
  | none => exact same_stay h _
  | some gd =>
    obtain ⟨cell, hcell⟩ := object_of_guard hs hg
    obtain ⟨old, hold⟩ := through_isSome hs hg
    have htype := h _ (mem_of_guard hg) cell hcell
    simp only [through_image refusal hs h hg, imageStore_objects, hcell, hold, Option.map_some]
    split
    · refine ⟨rfl, ?_, typed_set _ h hcell rfl⟩
      simp only [imageStore_set, imageCell_setPayload htype refusal v]
      rfl
    · exact same_stay h _

theorem same_drop (hs : Sound RustPython.classes s) (h : Typed s) (g : GuardId) :
    Same (s.performDrop (V := V) g) ((imageStore s).performDrop g) := by
  unfold Store.performDrop
  rw [show (imageStore s).guard g = s.guard g from rfl]
  cases hg : s.guard g with
  | none => exact same_stay h _
  | some gd =>
    obtain ⟨cell, hcell⟩ := object_of_guard hs hg
    simp only [imageStore_objects, hcell, Option.map_some]
    refine ⟨rfl, ?_, ?_⟩
    · exact (congrArg (Store.letGo g)
        (imageStore_set s gd.object { cell with flag := cell.flag.give })).symm
    intro p hp cell' hcell'
    exact typed_set { cell with flag := cell.flag.give } h hcell rfl p
      (mem_guards_letGo hg hp) cell' hcell'

theorem same_perform (hs : Sound RustPython.classes s) (h : Typed s) {op : Op V}
    (hfits : Fits s op) :
    Same (RustPython.classes.perform s op) ((CPython.classes refusal).perform (imageStore s) op) := by
  cases op with
  | alloc type c => exact same_alloc refusal hs h hfits
  | setPayload type instance_ v => exact same_set refusal h v hfits
  | borrow k type instance_ => exact same_borrow refusal h hfits
  | read g => exact same_read refusal hs h g
  | write g v => exact same_write refusal hs h g v
  | drop g => exact same_drop hs h g

/-! ## Steps that do not fit -/

theorem typeMismatch_inj {expected actual actual' : String} :
    typeMismatch expected actual = typeMismatch expected actual' ↔ actual = actual' := by
  simp [typeMismatch, toString, ← String.toList_inj]

/-- RustPython refuses a value that does not fit, for its type. -/
theorem find_of_not_fits {type : TypeId} {instance_ : Value} (hfits : ¬ FitsValue s type instance_) :
    (∃ className, instance_ = .foreign className ∧ className ≠ "object") ∨
      ∃ x cell, instance_ = .object x ∧ s.objects x = some cell ∧ cell.content.type ≠ type := by
  cases instance_ with
  | foreign className => exact .inl ⟨className, rfl, hfits⟩
  | object x =>
    obtain ⟨cell, hcell⟩ := not_forall.mp hfits
    obtain ⟨hx, htype⟩ := Classical.not_imp.mp hcell
    exact .inr ⟨x, cell, rfl, hx, htype⟩

theorem missingPayload_ne_typeMismatch (c : Class) (actual : String) :
    missingPayload c ≠ typeMismatch "host class instance" actual := by
  simp [missingPayload, typeMismatch, toString, ← String.toList_inj]

theorem differs_of_not_fits {op : Op V} (hfits : ¬ Fits s op) :
    (RustPython.classes.perform s op).1 ≠
      ((CPython.classes refusal).perform (imageStore s) op).1 := by
  cases op with
  | read g => exact absurd trivial hfits
  | write g v => exact absurd trivial hfits
  | drop g => exact absurd trivial hfits
  | alloc type c =>
    have hc : c.derives = false := Bool.eq_false_iff.mpr hfits
    simp only [Backend.perform, Backend.performAlloc, RustPython.classes, CPython.classes, hc]
    cases c.isType <;> simp [typeMismatch]
  | setPayload type instance_ v =>
    rcases find_of_not_fits hfits with ⟨className, rfl, hname⟩ | ⟨x, cell, rfl, hx, htype⟩
    · simp [Backend.perform, Backend.performSet, Backend.find, RustPython.classes, CPython.classes,
        typeMismatch_inj, hname]
    · have hr : RustPython.classes.find type s (.object x) =
          .mismatch (typeMismatch "host class instance" cell.class.name) := by
        simp [Backend.find, hx, RustPython.classes, htype]
      have hc : (CPython.classes refusal).find type (imageStore s) (.object x) =
          .here x (imageCell cell) := by
        simp [Backend.find, imageStore_objects, hx, CPython.classes]
      simp only [Backend.perform, Backend.performSet, hr, hc]
      cases (imageCell cell).flag.take .exclusive <;> simp [typeMismatch, borrowed]
  | borrow k type instance_ =>
    rcases find_of_not_fits hfits with ⟨className, rfl, hname⟩ | ⟨x, cell, rfl, hx, htype⟩
    · simp [Backend.perform, Backend.performBorrow, Backend.find, RustPython.classes,
        CPython.classes, typeMismatch_inj, hname]
    · have hr : RustPython.classes.find type s (.object x) =
          .mismatch (typeMismatch "host class instance" cell.class.name) := by
        simp [Backend.find, hx, RustPython.classes, htype]
      have hc : (CPython.classes refusal).find type (imageStore s) (.object x) =
          .here x (imageCell cell) := by
        simp [Backend.find, imageStore_objects, hx, CPython.classes]
      have hpayload : (CPython.classes refusal).payload type (imageCell cell).content = none :=
        payload_image_of_ne htype refusal
      simp only [Backend.perform, Backend.performBorrow, hr, hc, hpayload]
      cases (imageCell cell).flag.take k with
      | none => simp [typeMismatch, borrowed]
      | some flag => simpa using (missingPayload_ne_typeMismatch _ _).symm

end Steps

/-- **The two backends answer a run of host code alike exactly if each step of it uses an object at
the payload type that it is allocated with, and allocates a subclass of `_guestpy_object`.** -/
theorem answers_eq_iff_fits (refusal : Class → String) (ops : List (Op V)) :
    answers RustPython.classes.perform Store.new ops =
        answers (CPython.classes refusal).perform Store.new ops ↔
      Along (fun s op => (RustPython.classes.perform s op).2) Fits Store.new ops := by
  refine answers_eq_iff_along
    (fun s t => t = imageStore s ∧ Sound RustPython.classes s ∧ Typed s) ?_ ?_
    ⟨rfl, sound_new, nofun⟩ ops
  · rintro s _ op ⟨rfl, hs, h⟩ hfits
    have hsame := same_perform refusal hs h hfits
    exact ⟨hsame.reply, hsame.store, sound_perform op hs, hsame.typed⟩
  · rintro s _ op ⟨rfl, -, -⟩ hfits
    exact differs_of_not_fits refusal hfits

/-! ## A run that tells them apart -/

def vector : Class := ⟨"Vector2", true, "type", true, fun _ => rfl⟩

/-- A host base class initialises an object of its subclass: CPython replaces the payload. -/
example : answers (CPython.classes fun _ => "").perform Store.new
    [Op.alloc 1 vector, .setPayload 1 (.object 0) 10, .setPayload 0 (.object 0) 20,
      .borrow .shared 0 (.object 0), .read 0] = [.object 0, .done, .done, .guard 0, .payload 20] :=
  rfl

example : answers RustPython.classes.perform Store.new
    [Op.alloc 1 vector, .setPayload 1 (.object 0) 10, .setPayload 0 (.object 0) 20] =
      [.object 0, .done, .error (.conversion "expected host class instance, got Vector2")] :=
  rfl

end GuestPy.Payloads
