import Mathlib

/-!
# The least element of a list

A pass over a list in a partial order that moves to each element below the one at hand.

* `foldl_lower_of_isLeast`: it ends in the least element, if there is one that is not above the
  start. The elements need not be comparable otherwise.
* `isLeast_of_cons`: where a pass starts at an element of the list, or above all of them, the start
  makes no difference to what is least.
-/

namespace GuestPy

variable {α : Type} [PartialOrder α]

/-- The second one, if it is below the first one. -/
def lower [DecidableLE α] (w c : α) : α := if c ≤ w then c else w

section

variable [DecidableLE α]

theorem lower_le (w c : α) : lower w c ≤ w := by
  unfold lower
  split
  · assumption
  · exact le_rfl

/-- What is below everything is reached, and then kept. -/
theorem foldl_lower_eq {l : List α} {w m : α} (hbelow : ∀ x ∈ l, m ≤ x) (hw : m ≤ w)
    (hm : w = m ∨ m ∈ l) : l.foldl lower w = m := by
  induction l generalizing w with
  | nil => exact hm.resolve_right List.not_mem_nil
  | cons c l ih =>
    have hc : m ≤ c := hbelow c List.mem_cons_self
    have hrest : ∀ x ∈ l, m ≤ x := fun x hx => hbelow x (List.mem_cons_of_mem _ hx)
    have hlower : m ≤ lower w c := by
      unfold lower
      split
      · exact hc
      · exact hw
    rw [List.foldl_cons]
    refine ih hrest hlower ?_
    rcases hm with rfl | hm
    · exact Or.inl (le_antisymm (lower_le _ c) hlower)
    · rcases List.mem_cons.mp hm with rfl | hm
      · exact Or.inl (if_pos hw)
      · exact Or.inr hm

/-- **The pass ends in the least element.** -/
theorem foldl_lower_of_isLeast {l : List α} {w m : α} (hm : IsLeast {x | x ∈ l} m) (hw : m ≤ w) :
    l.foldl lower w = m :=
  foldl_lower_eq (fun _ hx => hm.2 hx) hw (Or.inr hm.1)

theorem foldl_lower_mem (l : List α) (w : α) : l.foldl lower w = w ∨ l.foldl lower w ∈ l := by
  induction l generalizing w with
  | nil => exact Or.inl rfl
  | cons c l ih =>
    rw [List.foldl_cons]
    rcases ih (lower w c) with heq | hmem
    · rw [heq]
      unfold lower
      split
      · exact Or.inr List.mem_cons_self
      · exact Or.inl rfl
    · exact Or.inr (List.mem_cons_of_mem _ hmem)

end

/-- What is least together with a start that is above all elements, or one of them, is least
without it. -/
theorem isLeast_of_cons {l : List α} {w m : α} (hne : l ≠ []) (hw : w ∈ l ∨ ∀ x ∈ l, x ≤ w)
    (hm : IsLeast {x | x ∈ w :: l} m) : IsLeast {x | x ∈ l} m := by
  refine ⟨?_, fun x hx => hm.2 (List.mem_cons_of_mem _ hx)⟩
  rcases List.mem_cons.mp hm.1 with rfl | hmem
  · rcases hw with hw | hw
    · exact hw
    · obtain ⟨x, hx⟩ := List.exists_mem_of_ne_nil l hne
      have heq : x = m := le_antisymm (hw x hx) (hm.2 (List.mem_cons_of_mem _ hx))
      exact heq ▸ hx
  · exact hmem

end GuestPy
