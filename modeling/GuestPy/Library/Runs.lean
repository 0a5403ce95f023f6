import Mathlib

/-!
# Runs of a transition function

A run applies a step function to a list of actions. Two judgements are made about runs:
`Along C` says that every step taken meets the condition `C` on the state it is taken in,
`Throughout P` says that every state the run passes through satisfies `P`.

`throughout_iff_along` is the induction for an exact condition: where `C` decides whether one
step keeps `P`, `C` along the run decides whether the whole run keeps `P`.

`tally p` counts the actions of a run that meet a condition on what came before.
-/

namespace GuestPy

variable {S A : Type} (step : S → A → S)

/-- Every step of the run meets `C` in the state it is taken in. -/
def Along (C : S → A → Prop) : S → List A → Prop
  | _, [] => True
  | s, a :: as => C s a ∧ Along C (step s a) as

/-- Every state of the run satisfies `P`. -/
def Throughout (P : S → Prop) : S → List A → Prop
  | s, [] => P s
  | s, a :: as => P s ∧ Throughout P (step s a) as

variable {step} {P Q : S → Prop} {C : S → A → Prop}

theorem throughout_first {s : S} {as : List A} (h : Throughout step P s as) : P s := by
  cases as with
  | nil => exact h
  | cons a as => exact h.1

/-- **Exact runs.** Under an invariant `Q`, a condition that decides whether one step keeps
`P` decides, along a run, whether the run does. -/
theorem throughout_iff_along (hQ : ∀ s a, Q s → Q (step s a))
    (hstep : ∀ s a, Q s → P s → (P (step s a) ↔ C s a)) {s : S} {as : List A} (hq : Q s)
    (hs : P s) : Throughout step P s as ↔ Along step C s as := by
  induction as generalizing s with
  | nil => exact ⟨fun _ => trivial, fun _ => hs⟩
  | cons a as ih =>
    constructor
    · rintro ⟨-, h⟩
      have hP : P (step s a) := throughout_first h
      exact ⟨(hstep s a hq hs).1 hP, (ih (hQ s a hq) hP).1 h⟩
    · rintro ⟨hc, h⟩
      have hP : P (step s a) := (hstep s a hq hs).2 hc
      exact ⟨hs, (ih (hQ s a hq) hP).2 h⟩

/-! ## Counting -/

/-- How many actions meet `p`, given the actions before. -/
def tally (p : List A → A → Bool) (as : List A) : Nat :=
  (List.range as.length).countP fun n => as[n]?.any (p (as.take n))

theorem tally_concat (p : List A → A → Bool) (as : List A) (a : A) :
    tally p (as ++ [a]) = tally p as + if p as a then 1 else 0 := by
  unfold tally
  rw [List.length_append, List.length_singleton, List.range_succ, List.countP_append,
    List.countP_singleton]
  congr 1
  · apply List.countP_congr
    intro n hn
    have hlt : n < as.length := List.mem_range.1 hn
    rw [List.getElem?_append_left hlt, List.take_append_of_le_length (Nat.le_of_lt hlt)]
  · rw [List.getElem?_concat_length, List.take_left, Option.any_some]

end GuestPy
