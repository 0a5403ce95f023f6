import GuestPy.Errors
import GuestPy.Imports.Name

/-!
# Exception objects

The classes and objects of the interpreter, as far as a host looks at them when it is
handed an exception.

* An `Object` has a true class, and a class has a true method resolution order, itself
  first. `isInstance` goes by these.
* What guest code reads may differ: `__class__`, `__mro__`, `__module__` and `__qualname__`
  are attributes that guest code can define and assign.
* `GuestException.describe` reads an exception through its attributes, and
  `GuestException.matches` compares names only.
-/

namespace GuestPy.Exceptions

/-- An object, with what its attributes are read as. Its classes are objects, too. An attribute
that is missing, or is not a string where a string is asked for, is `none`.

* `reported` is `__class__`, and `listed` what an iteration over `__mro__` yields before it
  ends or fails.
* `text` is its `str`, and `label` the `str` of an attribute `name` other than `None`. -/
structure Object where
  «class» : ObjectId
  mro : List ObjectId
  reported : Option ObjectId
  listed : List ObjectId
  module : Option Str
  qualname : Option Str
  name : Option Str
  text : Option Str
  label : Option Str

structure Heap where
  objects : ObjectId → Object
  next : ObjectId

namespace Heap

def assign (h : Heap) (x : ObjectId) (f : Object → Object) : Heap :=
  { h with objects := Function.update h.objects x (f (h.objects x)) }

/-- A new object. -/
def allocate (h : Heap) (o : ObjectId → Object) : ObjectId × Heap :=
  (h.next, ⟨Function.update h.objects h.next (o h.next), h.next + 1⟩)

/-- `isinstance`, by the true class of the object. -/
def IsInstance (h : Heap) (x c : ObjectId) : Prop := c ∈ (h.objects (h.objects x).class).mro

instance (h : Heap) (x c : ObjectId) : Decidable (h.IsInstance x c) :=
  inferInstanceAs (Decidable (_ ∈ _))

/-- `"{__module__}.{__qualname__}"`, if both are strings. -/
def dotted (h : Heap) (c : ObjectId) : Option Str :=
  match (h.objects c).module, (h.objects c).qualname with
  | some module, some qualname => some (module ++ '.' :: qualname)
  | _, _ => none

/-- The classes that an object lists: its `__class__` and the classes after that in the
`__mro__`. -/
def listedClasses (h : Heap) (x : ObjectId) : List ObjectId :=
  match (h.objects x).reported with
  | some c => (h.objects c).listed
  | none => []

end Heap

/-- `guestpy_core::GuestException`. -/
structure GuestException where
  typeName : Str
  qualifiedName : Str
  message : Str
  name : Option Str
  mro : List Str
  typedMro : List TypeId
  traceback : Option Str
  object : Option ObjectId
  deriving DecidableEq

namespace GuestException

def typeNameOf (h : Heap) (x : ObjectId) : Str :=
  ((h.objects x).reported.bind fun c => (h.objects c).name).getD "Exception".toList

def describe (h : Heap) (x : ObjectId) (traceback : Option Str) : GuestException where
  typeName := typeNameOf h x
  qualifiedName := ((h.objects x).reported.bind h.dotted).getD (typeNameOf h x)
  message := (h.objects x).text.getD (typeNameOf h x)
  name := (h.objects x).label
  mro := (h.listedClasses x).filterMap h.dotted
  typedMro := []
  traceback := traceback
  object := some x

/-- Compares a name with each entry, and with what follows the entry's last dot. -/
def «matches» (e : GuestException) (name : Str) : Bool :=
  e.mro.any fun entry =>
    entry == name || (DottedName.rsplitOnce '.' entry).any fun split => split.2 == name

def identify (e : GuestException) (types : List TypeId) : GuestException :=
  { e with typedMro := types }

def matchesType (e : GuestException) (id : TypeId) : Bool := e.typedMro.contains id

end GuestException

/-! ## Names with a dot -/

/-- A name with a dot is only matched as a whole. -/
theorem GuestException.matches_iff_mem {e : GuestException} {name : Str} (h : '.' ∈ name) :
    e.matches name = true ↔ name ∈ e.mro := by
  unfold «matches»
  rw [List.any_eq_true]
  constructor
  · rintro ⟨entry, hentry, hor⟩
    rcases Bool.or_eq_true_iff.1 hor with heq | hbare
    · rw [← beq_iff_eq.1 heq]
      exact hentry
    · obtain ⟨split, hsplit, heq⟩ := (Option.any_eq_true _ _).1 hbare
      obtain ⟨before, bare⟩ := split
      have hname : bare = name := beq_iff_eq.1 heq
      have hdot : '.' ∉ bare := DottedName.not_mem_of_rsplitOnce hsplit
      rw [hname] at hdot
      exact absurd h hdot
  · intro hmem
    exact ⟨name, hmem, Bool.or_eq_true_iff.2 (Or.inl (beq_self_eq_true name))⟩

/-- A described exception matches a name with a dot just if one of the classes that the
object lists has that name. -/
theorem GuestException.describe_matches_iff {h : Heap} {x : ObjectId} {traceback : Option Str}
    {name : Str} (hdot : '.' ∈ name) :
    (describe h x traceback).matches name = true ↔
      ∃ c ∈ h.listedClasses x, h.dotted c = some name := by
  rw [matches_iff_mem hdot]
  exact List.mem_filterMap

/-- It matches a name without a dot just if one of the classes that the object lists has a name
that ends with it. -/
theorem GuestException.describe_matches_bare_iff {h : Heap} {x : ObjectId}
    {traceback : Option Str} {name : Str} (hdot : '.' ∉ name) :
    (describe h x traceback).matches name = true ↔
      ∃ c ∈ h.listedClasses x, ∃ before, h.dotted c = some (before ++ '.' :: name) := by
  unfold «matches»
  rw [List.any_eq_true]
  constructor
  · rintro ⟨entry, hentry, hor⟩
    obtain ⟨c, hc, hdotted⟩ := List.mem_filterMap.mp hentry
    rcases Bool.or_eq_true_iff.1 hor with heq | hbare
    · -- what is listed has a dot, so it is not the name itself
      rw [beq_iff_eq.1 heq] at hdotted
      unfold Heap.dotted at hdotted
      split at hdotted
      · cases hdotted
        simp at hdot
      · cases hdotted
    · obtain ⟨⟨before, bare⟩, hsplit, heq⟩ := (Option.any_eq_true _ _).1 hbare
      have hname : bare = name := beq_iff_eq.1 heq
      refine ⟨c, hc, before, ?_⟩
      rw [hdotted, DottedName.rsplitOnce_eq_some hsplit, hname]
  · rintro ⟨c, hc, before, hdotted⟩
    refine ⟨_, List.mem_filterMap.mpr ⟨c, hc, hdotted⟩, Bool.or_eq_true_iff.2 (Or.inr ?_)⟩
    rw [DottedName.rsplitOnce_append hdot]
    exact beq_self_eq_true name

end GuestPy.Exceptions
