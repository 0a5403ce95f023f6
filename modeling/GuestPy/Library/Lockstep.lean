import GuestPy.Library.Runs

/-!
# Machines in lockstep

Two machines take the same actions and answer each of them.

`answers_eq_iff_along` is the rule for when they cannot be told apart: where a condition on the
state and the action decides whether they answer one action alike, it decides along a run whether
they answer the whole run alike.
-/

namespace GuestPy

variable {S T A R : Type}

/-- What a machine answers to the actions of a run. -/
def answers (step : S → A → R × S) : S → List A → List R
  | _, [] => []
  | s, a :: as => (step s a).1 :: answers step (step s a).2 as

/-- Where a run ends. -/
def final (step : S → A → R × S) (s : S) (as : List A) : S :=
  as.foldl (fun s a => (step s a).2) s

@[simp] theorem final_nil (step : S → A → R × S) (s : S) : final step s [] = s := rfl

@[simp] theorem final_cons (step : S → A → R × S) (s : S) (a : A) (as : List A) :
    final step s (a :: as) = final step (step s a).2 as := rfl

theorem final_concat (step : S → A → R × S) (s : S) (as : List A) (a : A) :
    final step s (as ++ [a]) = (step (final step s as) a).2 := by
  unfold final
  rw [List.foldl_append]
  rfl

/-- **An invariant of every step holds where a run ends.** -/
theorem invariant_final {step : S → A → R × S} {P : S → Prop}
    (hstep : ∀ s a, P s → P (step s a).2) {s : S} (hs : P s) (as : List A) :
    P (final step s as) := by
  induction as generalizing s with
  | nil => exact hs
  | cons a as ih => exact ih (hstep s a hs)

/-- **What holds of each answer of a machine that keeps an invariant holds of all its answers.** -/
theorem forall_answers {step : S → A → R × S} {P : S → Prop} {Q : R → Prop}
    (hstep : ∀ s a, P s → P (step s a).2) (hans : ∀ s a, P s → Q (step s a).1) {s : S} (hs : P s)
    (as : List A) : ∀ r ∈ answers step s as, Q r := by
  induction as generalizing s with
  | nil => exact fun r hr => nomatch hr
  | cons a as ih =>
    intro r hr
    rcases List.mem_cons.mp hr with rfl | hr
    · exact hans s a hs
    · exact ih (hstep s a hs) r hr

/-- **Exact lockstep.** -/
theorem answers_eq_iff_along {step : S → A → R × S} {step' : T → A → R × T}
    (Rel : S → T → Prop) {C : S → A → Prop}
    (hsame : ∀ s t a, Rel s t → C s a →
      (step s a).1 = (step' t a).1 ∧ Rel (step s a).2 (step' t a).2)
    (hother : ∀ s t a, Rel s t → ¬ C s a → (step s a).1 ≠ (step' t a).1)
    {s : S} {t : T} (h : Rel s t) (as : List A) :
    answers step s as = answers step' t as ↔ Along (fun s a => (step s a).2) C s as := by
  induction as generalizing s t with
  | nil => exact ⟨fun _ => trivial, fun _ => rfl⟩
  | cons a as ih =>
    constructor
    · intro heq
      obtain ⟨hhead, htail⟩ := List.cons_eq_cons.mp heq
      have hC : C s a := Classical.byContradiction fun hC => hother s t a h hC hhead
      exact ⟨hC, (ih (hsame s t a h hC).2).mp htail⟩
    · rintro ⟨hC, has⟩
      obtain ⟨hhead, hrel⟩ := hsame s t a h hC
      exact List.cons_eq_cons.mpr ⟨hhead, (ih hrel).mpr has⟩

end GuestPy
