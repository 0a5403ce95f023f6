import Mathlib

/-!
# Objects and errors

What all components share: the numbers by which objects and types are told apart, and the
failures of host operations. An exception of the interpreter keeps the value that was raised, of
a type that each component chooses.
-/

namespace GuestPy

/-- The number of an object of an interpreter. -/
abbrev ObjectId := Nat

/-- The number of a type of the host program, its `std::any::TypeId`. -/
abbrev TypeId := Nat

/-- `guestpy_core::Error`, with the source of an error left out, and without the exceptions
that have been asked for but not made yet. -/
inductive Error (Exception : Type) where
  | guest (exception : Exception)
  | engine (message : String)
  | conversion (message : String)
  | «import» (name message : String)
  | «attribute» (name : String)
  | bundle (path message : String)
  | ambiguousBundle (roots : Nat)
  | nameInUse (name : String)
  | borrow («class» kind : String)
  | unsupported (message : String)
  | host (message : String)
  | timeout
  | cancelled
  | interrupted
  | closed
  | stopIteration
  | stopAsyncIteration
  | io (message : String)
  | unexpected (message : String)
  deriving DecidableEq, Repr

end GuestPy
