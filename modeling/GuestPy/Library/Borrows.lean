import Mathlib

/-!
# Borrows that are checked at run time

A cell counts what is borrowed from it in a flag. A borrow that does not go with those that are
out is refused, and the flag stays as it is.

* `Flag.Counts` relates a flag to the borrows that are out.
* `take_eq_none_iff` says which borrows are refused, `counts_take` and `counts_give` that taking
  and giving back keep the count.
-/

namespace GuestPy.Borrows

inductive Kind where
  | shared
  | exclusive
  deriving DecidableEq, Repr

/-- Borrows that may be out of one cell at the same time. -/
def Compatible (ks : List Kind) : Prop := Kind.exclusive ∈ ks → ks = [.exclusive]

instance (ks : List Kind) : Decidable (Compatible ks) := inferInstanceAs (Decidable (_ → _))

inductive Flag where
  | readers (n : Nat)
  | writer
  deriving DecidableEq, Repr

namespace Flag

def unused : Flag := readers 0

def take : Kind → Flag → Option Flag
  | .shared, readers n => some (readers (n + 1))
  | .exclusive, readers 0 => some writer
  | _, _ => none

def give : Flag → Flag
  | readers n => readers (n - 1)
  | writer => unused

/-- The flag of a cell from which `ks` are borrowed. -/
def Counts : Flag → List Kind → Prop
  | readers n, ks => ks = List.replicate n .shared
  | writer, ks => ks = [.exclusive]

variable {f f' : Flag} {k : Kind} {ks ks' : List Kind}

theorem counts_unused : unused.Counts [] := rfl

theorem Counts.perm (h : f.Counts ks) (hp : ks.Perm ks') : f.Counts ks' := by
  cases f with
  | readers n => exact (List.perm_replicate.mp (hp.symm.trans (List.Perm.of_eq h)))
  | writer => exact List.perm_singleton.mp (hp.symm.trans (List.Perm.of_eq h))

theorem Counts.compatible (h : f.Counts ks) : Compatible ks := by
  intro hmem
  cases f with
  | readers n =>
    rw [show ks = List.replicate n .shared from h] at hmem
    cases List.eq_of_mem_replicate hmem
  | writer => exact h

/-- A borrow is refused exactly when it does not go with those that are out. -/
theorem take_eq_none_iff (h : f.Counts ks) : f.take k = none ↔ ¬ Compatible (k :: ks) := by
  cases f with
  | writer =>
    cases show ks = [.exclusive] from h
    cases k <;> simp [take, Compatible]
  | readers n =>
    cases show ks = List.replicate n .shared from h
    cases n <;> cases k <;> simp [take, Compatible, List.replicate_succ]

theorem counts_take (h : f.Counts ks) (hf : f.take k = some f') : f'.Counts (k :: ks) := by
  cases f with
  | writer => cases k <;> cases hf
  | readers n =>
    cases show ks = List.replicate n .shared from h
    cases k with
    | shared =>
      cases hf
      rfl
    | exclusive =>
      cases n with
      | zero =>
        cases hf
        rfl
      | succ n => cases hf

theorem counts_give (h : f.Counts (k :: ks)) : f.give.Counts ks := by
  cases f with
  | writer =>
    obtain ⟨-, rfl⟩ := List.cons_eq_cons.mp (show k :: ks = [.exclusive] from h)
    rfl
  | readers n =>
    cases n with
    | zero => cases show k :: ks = [] from h
    | succ n => exact (List.cons_eq_cons.mp (show k :: ks = _ :: _ from h)).2

end Flag

end GuestPy.Borrows
