import Mathlib

/-!
# Host computations

A host computation takes a state and ends in one of four ways: with a value, with an
error, with a panic, or undecided because the fuel of the surrounding run is used up. It
leaves a state in every case, so what it did before it failed is not forgotten.

* `Host.guarded` runs a computation under a guard that is released however the
  computation ends, as a value with a destructor is.
* A `Discipline` is an invariant of the states together with a preorder along which they
  move. `Keeps D s m Q` is the judgement of this library: started in the state `s`, the
  computation `m` keeps the invariant and moves along the preorder, however it ends, and
  ends in `Q a` if it returns `a`. If it panics, it leaves a mark that the discipline names.
  There is one rule for each way to build a computation.
* `D.within F` is for the stretch of a computation that undoes part of what it did: it only has
  to stay in `F`.
* `Fails P m` says of a computation that all errors that it fails with are in `P`.
* `Ends D s m Q E S` says in addition that `m` ends in `E` if it fails, and in `S` if its fuel
  is used up.
* `Returns D F s m Q` is the judgement for a computation that may break a frame `F` while it runs,
  and mends it before it comes back to its caller.
-/

namespace GuestPy

/-- The four ways a host computation ends. -/
inductive Outcome (ε α : Type) where
  | ok (value : α)
  | err (error : ε)
  | panic
  | stuck

/-- What a caller sees of a computation that has ended. -/
inductive Reply (ε α : Type) where
  | ok (value : α)
  | err (error : ε)
  | panic

/-- A computation over a state `σ` that may fail with an error `ε`. -/
def Host (σ ε α : Type) : Type := σ → Outcome ε α × σ

namespace Host

variable {σ ε α β : Type}

def pure (a : α) : Host σ ε α := fun s => (.ok a, s)

def bind (m : Host σ ε α) (f : α → Host σ ε β) : Host σ ε β := fun s =>
  match m s with
  | (.ok a, s') => f a s'
  | (.err e, s') => (.err e, s')
  | (.panic, s') => (.panic, s')
  | (.stuck, s') => (.stuck, s')

instance : Monad (Host σ ε) where
  pure := pure
  bind := bind

def throw (e : ε) : Host σ ε α := fun s => (.err e, s)

/-- A failed assertion: the computation unwinds. -/
def panic : Host σ ε α := fun s => (.panic, s)

def stuck : Host σ ε α := fun s => (.stuck, s)

def get : Host σ ε σ := fun s => (.ok s, s)

def modify (f : σ → σ) : Host σ ε Unit := fun s => (.ok (), f s)

def ofExcept : Except ε α → Host σ ε α
  | .ok a => pure a
  | .error e => throw e

/-- Hands an error back as a value. A panic goes through. -/
def attempt (m : Host σ ε α) : Host σ ε (Except ε α) := fun s =>
  match m s with
  | (.ok a, s') => (.ok (.ok a), s')
  | (.err e, s') => (.ok (.error e), s')
  | (.panic, s') => (.panic, s')
  | (.stuck, s') => (.stuck, s')

/-- Hands an error or a panic back as a value. -/
def observe (m : Host σ ε α) : Host σ ε (Reply ε α) := fun s =>
  match m s with
  | (.ok a, s') => (.ok (.ok a), s')
  | (.err e, s') => (.ok (.err e), s')
  | (.panic, s') => (.ok .panic, s')
  | (.stuck, s') => (.stuck, s')

/-- Runs `m`, then `release`, whether `m` returned, failed or unwound. -/
def guarded (m : Host σ ε α) (release : σ → σ) : Host σ ε α := fun s =>
  ((m s).1, release (m s).2)

/-- Runs `m` between two updates, the second by what `m` returned. -/
def bracket (take : σ → σ) (m : Host σ ε α) (release : α → σ → σ) : Host σ ε α := fun s =>
  match m (take s) with
  | (.ok a, s') => (.ok a, release a s')
  | (.err e, s') => (.err e, s')
  | (.panic, s') => (.panic, s')
  | (.stuck, s') => (.stuck, s')

/-- Runs `f` on the elements of a list in order and stops at the first failure. -/
def forEach : List β → (β → Host σ ε Unit) → Host σ ε Unit
  | [], _ => pure ()
  | b :: bs, f => bind (f b) fun _ => forEach bs f

end Host

/-! ## Errors -/

/-- Wherever it is started, the computation fails with errors in `P` only. -/
def Fails {σ ε α : Type} (P : ε → Prop) (m : Host σ ε α) : Prop := ∀ s e, (m s).1 = .err e → P e

namespace Fails

variable {σ ε α β : Type} {P : ε → Prop}

theorem pure {a : α} : Fails P (Pure.pure a : Host σ ε α) := fun _ _ h => nomatch h

theorem throw {e : ε} (h : P e) : Fails P (Host.throw e : Host σ ε α) := by
  intro s e' he
  cases he
  exact h

theorem get : Fails P (Host.get : Host σ ε σ) := fun _ _ h => nomatch h

theorem modify {f : σ → σ} : Fails P (Host.modify f : Host σ ε Unit) := fun _ _ h => nomatch h

theorem bind {m : Host σ ε α} {f : α → Host σ ε β} (hm : Fails P m) (hf : ∀ a, Fails P (f a)) :
    Fails P (m >>= f) := by
  intro s e he
  change (Host.bind m f s).1 = .err e at he
  unfold Host.bind at he
  rcases hms : m s with ⟨o, s'⟩
  rw [hms] at he
  cases o with
  | ok a => exact hf a s' e he
  | err e' =>
    cases he
    exact hm s _ (by rw [hms])
  | panic => cases he
  | stuck => cases he

theorem attempt {m : Host σ ε α} : Fails P (Host.attempt m) := by
  intro s e he
  unfold Host.attempt at he
  rcases hms : m s with ⟨o, s'⟩
  rw [hms] at he
  cases o <;> cases he

theorem ite {c : Prop} [Decidable c] {m n : Host σ ε α} (hm : Fails P m) (hn : Fails P n) :
    Fails P (if c then m else n) := by
  split
  · exact hm
  · exact hn

end Fails

/-! ## Disciplines -/

/-- An invariant and a preorder of states, and what holds where a computation unwinds. -/
structure Discipline (σ : Type) where
  inv : σ → Prop
  future : σ → σ → Prop
  unwound : σ → Prop
  refl : ∀ s, future s s
  trans : ∀ {s s' s''}, future s s' → future s' s'' → future s s''

/-- Started in `s`, the computation keeps the discipline, and it ends in `Q a` if it
returns `a`. -/
def Keeps {σ ε α : Type} (D : Discipline σ) (s : σ) (m : Host σ ε α) (Q : α → σ → Prop) :
    Prop :=
  D.inv s → D.inv (m s).2 ∧ D.future s (m s).2 ∧ (∀ a, (m s).1 = .ok a → Q a (m s).2) ∧
    ((m s).1 = .panic → D.unwound (m s).2)

namespace Keeps

variable {σ ε α β : Type} {D : Discipline σ} {s : σ} {Q Q' : α → σ → Prop}
  {R : β → σ → Prop}

theorem pure {a : α} (h : Q a s) : Keeps D s (Pure.pure a : Host σ ε α) Q := by
  intro hs
  refine ⟨hs, D.refl s, fun b hb => ?_, nofun⟩
  cases hb
  exact h

theorem throw {e : ε} : Keeps D s (Host.throw e : Host σ ε α) Q :=
  fun hs => ⟨hs, D.refl s, nofun, nofun⟩

theorem panic (h : D.unwound s) : Keeps D s (Host.panic : Host σ ε α) Q :=
  fun hs => ⟨hs, D.refl s, nofun, fun _ => h⟩

theorem stuck : Keeps D s (Host.stuck : Host σ ε α) Q :=
  fun hs => ⟨hs, D.refl s, nofun, nofun⟩

theorem bind {m : Host σ ε α} {f : α → Host σ ε β} (hm : Keeps D s m Q)
    (hf : ∀ a s', D.future s s' → Q a s' → Keeps D s' (f a) R) : Keeps D s (m >>= f) R := by
  intro hs
  obtain ⟨hinv, hfut, hok, hpanic⟩ := hm hs
  change D.inv (Host.bind m f s).2 ∧ D.future s (Host.bind m f s).2 ∧
    (∀ b, (Host.bind m f s).1 = .ok b → R b (Host.bind m f s).2) ∧
      ((Host.bind m f s).1 = .panic → D.unwound (Host.bind m f s).2)
  unfold Host.bind
  rcases hms : m s with ⟨o, s'⟩
  rw [hms] at hinv hfut hok hpanic
  cases o with
  | ok a =>
    obtain ⟨hinv', hfut', hok', hpanic'⟩ := hf a s' hfut (hok a rfl) hinv
    exact ⟨hinv', D.trans hfut hfut', hok', hpanic'⟩
  | err e => exact ⟨hinv, hfut, nofun, nofun⟩
  | panic => exact ⟨hinv, hfut, nofun, fun _ => hpanic rfl⟩
  | stuck => exact ⟨hinv, hfut, nofun, nofun⟩

theorem mono {m : Host σ ε α} (h : Keeps D s m Q)
    (hQ : ∀ a s', D.future s s' → Q a s' → Q' a s') : Keeps D s m Q' := by
  intro hs
  obtain ⟨hinv, hfut, hok, hpanic⟩ := h hs
  exact ⟨hinv, hfut, fun a ha => hQ a _ hfut (hok a ha), hpanic⟩

/-- The invariant may be assumed where a computation starts. -/
theorem assume {m : Host σ ε α} (h : D.inv s → Keeps D s m Q) : Keeps D s m Q :=
  fun hs => h hs hs

/-- The invariant holds where a computation returns. -/
theorem inv {m : Host σ ε α} (h : Keeps D s m Q) :
    Keeps D s m fun a s' => Q a s' ∧ D.inv s' := by
  intro hs
  obtain ⟨hinv, hfut, hok, hpanic⟩ := h hs
  exact ⟨hinv, hfut, fun a ha => ⟨hok a ha, hinv⟩, hpanic⟩

/-- A computation of which it is known that it returns, and leaves the state alone. -/
theorem of_eq {m : Host σ ε α} {a : α} (h : m s = (.ok a, s)) (hq : Q a s) : Keeps D s m Q := by
  intro hs
  rw [h]
  refine ⟨hs, D.refl s, fun b hb => ?_, nofun⟩
  cases hb
  exact hq

/-- What is known of the result may be added. -/
theorem of_result {m : Host σ ε α} (h : Keeps D s m fun _ _ => True)
    (hQ : ∀ a s', m s = (.ok a, s') → Q a s') : Keeps D s m Q := by
  intro hs
  obtain ⟨hinv, hfut, -, hpanic⟩ := h hs
  exact ⟨hinv, hfut, fun a ha => hQ a _ (Prod.ext ha rfl), hpanic⟩

/-- The state is at hand. -/
theorem get {f : σ → Host σ ε β} (h : Keeps D s (f s) R) : Keeps D s (Host.get >>= f) R := h

theorem modify {f : σ → σ} {R : Unit → σ → Prop} (hinv : D.inv s → D.inv (f s))
    (hfut : D.future s (f s)) (h : R () (f s)) :
    Keeps D s (Host.modify f : Host σ ε Unit) R :=
  fun hs => ⟨hinv hs, hfut, fun _ _ => h, nofun⟩

theorem ofExcept {r : Except ε α} (h : ∀ a, r = .ok a → Q a s) :
    Keeps D s (Host.ofExcept r : Host σ ε α) Q := by
  cases r with
  | ok a => exact Keeps.pure (h a rfl)
  | error e => exact Keeps.throw

/-- An error that is handed back as a value is one that the computation fails with. -/
theorem attempt_fails {m : Host σ ε α} {P : ε → Prop} {R : Except ε α → σ → Prop}
    (hP : Fails P m) (hm : Keeps D s m fun a s' => R (.ok a) s')
    (he : ∀ e s', D.future s s' → P e → R (.error e) s') : Keeps D s (Host.attempt m) R := by
  intro hs
  obtain ⟨hinv, hfut, hok, hpanic⟩ := hm hs
  have hfails := hP s
  unfold Host.attempt
  rcases hms : m s with ⟨o, s'⟩
  rw [hms] at hinv hfut hok hpanic hfails
  cases o with
  | ok a =>
    refine ⟨hinv, hfut, fun b hb => ?_, nofun⟩
    cases hb
    exact hok a rfl
  | err e =>
    refine ⟨hinv, hfut, fun b hb => ?_, nofun⟩
    cases hb
    exact he e s' hfut (hfails e rfl)
  | panic => exact ⟨hinv, hfut, nofun, fun _ => hpanic rfl⟩
  | stuck => exact ⟨hinv, hfut, nofun, nofun⟩

theorem attempt {m : Host σ ε α} {R : Except ε α → σ → Prop}
    (hm : Keeps D s m fun a s' => R (.ok a) s') (he : ∀ e s', D.future s s' → R (.error e) s') :
    Keeps D s (Host.attempt m) R :=
  attempt_fails (P := fun _ => True) (fun _ _ _ => trivial) hm fun e s' hs _ => he e s' hs

theorem observe {m : Host σ ε α} (hm : Keeps D s m Q) :
    Keeps D s (Host.observe m) fun _ _ => True := by
  intro hs
  obtain ⟨hinv, hfut, -⟩ := hm hs
  unfold Host.observe
  rcases hms : m s with ⟨o, s'⟩
  rw [hms] at hinv hfut
  cases o <;> exact ⟨hinv, hfut, fun _ _ => trivial, nofun⟩

/-- A guarded computation may follow a discipline of its own, as long as the guard leads there
and the release leads back to the future of `s`. -/
theorem guarded_by {D' : Discipline σ} {m : Host σ ε α} {take release : σ → σ}
    (hinv : D.inv s → D'.inv (take s)) (hm : Keeps D' (take s) m Q)
    (hrelease : ∀ t, D'.inv t → D'.future (take s) t →
      D.inv (release t) ∧ D.future s (release t))
    (hok : ∀ a t, D'.inv t → D'.future (take s) t → Q a t → Q' a (release t))
    (hunwind : ∀ t, D'.unwound t → D.unwound (release t)) :
    Keeps D s (Host.bind (Host.modify take) fun _ => Host.guarded m release) Q' := by
  intro hs
  obtain ⟨hinv', hfut', hok', hpanic'⟩ := hm (hinv hs)
  obtain ⟨hi, hf⟩ := hrelease _ hinv' hfut'
  exact ⟨hi, hf, fun a ha => hok a _ hinv' hfut' (hok' a ha), fun h => hunwind _ (hpanic' h)⟩

/-- The guarded computation runs under a guard taken in `s`, so in another state `t`; the
release leads back to the future of `s`. -/
theorem guarded {t : σ} {m : Host σ ε α} {take release : σ → σ} (ht : t = take s)
    (hinv : D.inv s → D.inv t) (hm : Keeps D t m Q)
    (hrelease : ∀ t', D.inv t' → D.future t t' → D.inv (release t') ∧ D.future s (release t'))
    (hok : ∀ a t', D.future t t' → Q a t' → Q' a (release t'))
    (hunwind : ∀ t', D.unwound t' → D.unwound (release t')) :
    Keeps D s (Host.bind (Host.modify take) fun _ => Host.guarded m release) Q' := by
  subst ht
  exact guarded_by hinv hm hrelease (fun a t' _ ht' => hok a t' ht') hunwind

/-- A bracketed computation may own part of the state: what it keeps from others it gives back
in the release, which has to lead to the future of `s` only. -/
theorem bracket {m : Host σ ε α} {take : σ → σ} {release : α → σ → σ}
    (hinv : D.inv s → D.inv (take s)) (htake : D.inv s → D.future s (take s))
    (hm : Keeps D (take s) m Q)
    (hrelease : ∀ a t', D.inv t' → D.future (take s) t' → Q a t' →
      D.inv (release a t') ∧ D.future s (release a t') ∧ Q' a (release a t')) :
    Keeps D s (Host.bracket take m release) Q' := by
  intro hs
  obtain ⟨hi, hf, hok, hpanic⟩ := hm (hinv hs)
  unfold Host.bracket
  rcases hms : m (take s) with ⟨o, t'⟩
  rw [hms] at hi hf hok hpanic
  have hst : D.future s t' := D.trans (htake hs) hf
  cases o with
  | ok a =>
    obtain ⟨hi', hf', hq⟩ := hrelease a t' hi hf (hok a rfl)
    refine ⟨hi', hf', fun b hb => ?_, nofun⟩
    cases hb
    exact hq
  | err e => exact ⟨hi, hst, nofun, nofun⟩
  | panic => exact ⟨hi, hst, nofun, fun _ => hpanic rfl⟩
  | stuck => exact ⟨hi, hst, nofun, nofun⟩

theorem ite {c : Prop} [Decidable c] {m n : Host σ ε α} (hm : c → Keeps D s m Q)
    (hn : ¬ c → Keeps D s n Q) : Keeps D s (if c then m else n) Q := by
  by_cases h : c
  · rw [if_pos h]
    exact hm h
  · rw [if_neg h]
    exact hn h

/-- The loop rule: what holds before an iteration and stays true afterwards holds at the
end. -/
theorem forEach {bs : List β} {f : β → Host σ ε Unit} {J : σ → Prop} (hs : J s)
    (hf : ∀ b ∈ bs, ∀ s', J s' → Keeps D s' (f b) fun _ => J) :
    Keeps D s (Host.forEach bs f) fun _ => J := by
  induction bs generalizing s with
  | nil => exact Keeps.pure hs
  | cons b bs ih =>
    refine Keeps.bind (hf b List.mem_cons_self s hs) fun _ s' _ hs' => ?_
    exact ih hs' fun b' hb' => hf b' (List.mem_cons_of_mem _ hb')

end Keeps

/-! ## Moving within a set of states -/

/-- The discipline that stays within `F`, and may go back and forth there. -/
def Discipline.within {σ : Type} (D : Discipline σ) (F : σ → Prop) : Discipline σ where
  inv s := D.inv s ∧ F s
  future _ _ := True
  unwound := D.unwound
  refl _ := trivial
  trans _ _ := trivial

namespace Keeps

variable {σ ε α : Type} {D : Discipline σ} {s : σ} {m : Host σ ε α} {Q : α → σ → Prop}
  {F : σ → Prop}

/-- A computation that keeps the discipline stays within what is closed under its preorder. -/
theorem within (h : Keeps D s m Q) (hF : ∀ s', D.future s s' → F s → F s') :
    Keeps (D.within F) s m fun a s' => Q a s' ∧ D.future s s' := by
  rintro ⟨hs, hFs⟩
  obtain ⟨hinv, hfut, hok, hpanic⟩ := h hs
  exact ⟨⟨hinv, hF _ hfut hFs⟩, trivial, fun a ha => ⟨hok a ha, hfut⟩, hpanic⟩

/-- A computation that stays within the future of its start keeps the discipline. -/
theorem of_within (h : Keeps (D.within (D.future s)) s m Q) : Keeps D s m Q := by
  intro hs
  obtain ⟨⟨hinv, hfut⟩, -, hok, hpanic⟩ := h ⟨hs, D.refl s⟩
  exact ⟨hinv, hfut, hok, hpanic⟩

end Keeps

/-! ## Other ends -/

/-- As `Keeps`, and the computation ends in `E` if it fails, and in `S` if its fuel is used up. -/
def Ends {σ ε α : Type} (D : Discipline σ) (s : σ) (m : Host σ ε α) (Q : α → σ → Prop)
    (E S : σ → Prop) : Prop :=
  Keeps D s m Q ∧
    (D.inv s → (∀ e, (m s).1 = .err e → E (m s).2) ∧ ((m s).1 = .stuck → S (m s).2))

namespace Ends

variable {σ ε α β : Type} {D : Discipline σ} {s : σ} {m : Host σ ε α} {Q Q' : α → σ → Prop}
  {R : β → σ → Prop} {E E' S S' : σ → Prop}

theorem pure {a : α} (h : Q a s) : Ends D s (Pure.pure a : Host σ ε α) Q E S :=
  ⟨Keeps.pure h, fun _ => ⟨nofun, nofun⟩⟩

theorem throw {e : ε} (h : E s) : Ends D s (Host.throw e : Host σ ε α) Q E S :=
  ⟨Keeps.throw, fun _ => ⟨fun _ _ => h, nofun⟩⟩

theorem stuck (h : S s) : Ends D s (Host.stuck : Host σ ε α) Q E S :=
  ⟨Keeps.stuck, fun _ => ⟨nofun, fun _ => h⟩⟩

theorem bind {f : α → Host σ ε β} (hm : Ends D s m Q E S)
    (hf : ∀ a s', D.future s s' → Q a s' → Ends D s' (f a) R E S) :
    Ends D s (m >>= f) R E S := by
  refine ⟨Keeps.bind hm.1 fun a s' hs' hq => (hf a s' hs' hq).1, fun hs => ?_⟩
  obtain ⟨hinv, hfut, hok, -⟩ := hm.1 hs
  obtain ⟨herr, hstuck⟩ := hm.2 hs
  change (∀ e, (Host.bind m f s).1 = .err e → E (Host.bind m f s).2) ∧
    ((Host.bind m f s).1 = .stuck → S (Host.bind m f s).2)
  unfold Host.bind
  rcases hms : m s with ⟨o, s'⟩
  rw [hms] at hinv hfut hok herr hstuck
  cases o with
  | ok a => exact (hf a s' hfut (hok a rfl)).2 hinv
  | err e' => exact ⟨fun _ _ => herr e' rfl, nofun⟩
  | panic => exact ⟨nofun, nofun⟩
  | stuck => exact ⟨nofun, fun _ => hstuck rfl⟩

theorem mono (h : Ends D s m Q E S) (hQ : ∀ a s', D.future s s' → Q a s' → Q' a s')
    (hE : ∀ s', D.future s s' → E s' → E' s') (hS : ∀ s', D.future s s' → S s' → S' s') :
    Ends D s m Q' E' S' := by
  refine ⟨h.1.mono hQ, fun hs => ?_⟩
  obtain ⟨herr, hstuck⟩ := h.2 hs
  have hfut := (h.1 hs).2.1
  exact ⟨fun e he => hE _ hfut (herr e he), fun hm => hS _ hfut (hstuck hm)⟩

/-- The result and the state are those that the computation gives. -/
theorem result (h : Ends D s m Q E S) :
    Ends D s m (fun a s' => Q a s' ∧ m s = (.ok a, s')) E S := by
  refine ⟨fun hs => ?_, h.2⟩
  obtain ⟨hinv, hfut, hok, hpanic⟩ := h.1 hs
  exact ⟨hinv, hfut, fun a ha => ⟨hok a ha, Prod.ext ha rfl⟩, hpanic⟩

/-- The invariant may be assumed where a computation starts. -/
theorem assume (h : D.inv s → Ends D s m Q E S) : Ends D s m Q E S :=
  ⟨fun hs => (h hs).1 hs, fun hs => (h hs).2 hs⟩

theorem get {f : σ → Host σ ε β} (h : Ends D s (f s) R E S) :
    Ends D s (Host.get >>= f) R E S := h

theorem modify {f : σ → σ} {R : Unit → σ → Prop} (hinv : D.inv s → D.inv (f s))
    (hfut : D.future s (f s)) (h : R () (f s)) :
    Ends D s (Host.modify f : Host σ ε Unit) R E S :=
  ⟨Keeps.modify hinv hfut h, fun _ => ⟨nofun, nofun⟩⟩

theorem ofExcept {r : Except ε α} (hok : ∀ a, r = .ok a → Q a s) (herr : ∀ e, r = .error e → E s) :
    Ends D s (Host.ofExcept r : Host σ ε α) Q E S := by
  cases r with
  | ok a => exact Ends.pure (hok a rfl)
  | error e => exact Ends.throw (herr e rfl)

theorem attempt {R : Except ε α → σ → Prop}
    (hm : Ends D s m (fun a s' => R (.ok a) s') (fun s' => ∀ e, R (.error e) s') S) :
    Ends D s (Host.attempt m) R E S := by
  refine ⟨fun hs => ?_, fun hs => ?_⟩
  · obtain ⟨hinv, hfut, hok, hpanic⟩ := hm.1 hs
    obtain ⟨herr, -⟩ := hm.2 hs
    unfold Host.attempt
    rcases hms : m s with ⟨o, s'⟩
    rw [hms] at hinv hfut hok hpanic herr
    cases o with
    | ok a =>
      refine ⟨hinv, hfut, fun r hr => ?_, nofun⟩
      cases hr
      exact hok a rfl
    | err e =>
      refine ⟨hinv, hfut, fun r hr => ?_, nofun⟩
      cases hr
      exact herr e rfl e
    | panic => exact ⟨hinv, hfut, nofun, fun _ => hpanic rfl⟩
    | stuck => exact ⟨hinv, hfut, nofun, nofun⟩
  · obtain ⟨-, hstuck⟩ := hm.2 hs
    unfold Host.attempt
    rcases hms : m s with ⟨o, s'⟩
    rw [hms] at hstuck
    cases o with
    | stuck => exact ⟨nofun, fun _ => hstuck rfl⟩
    | _ => exact ⟨nofun, nofun⟩

theorem observe {R : Reply ε α → σ → Prop}
    (hm : Ends D s m (fun a s' => R (.ok a) s') (fun s' => ∀ e, R (.err e) s') S)
    (hpanic : ∀ s', D.future s s' → D.unwound s' → R .panic s') :
    Ends D s (Host.observe m) R E S := by
  refine ⟨fun hs => ?_, fun hs => ?_⟩
  · obtain ⟨hinv, hfut, hok, hunwound⟩ := hm.1 hs
    obtain ⟨herr, -⟩ := hm.2 hs
    unfold Host.observe
    rcases hms : m s with ⟨o, s'⟩
    rw [hms] at hinv hfut hok hunwound herr
    cases o with
    | ok a =>
      refine ⟨hinv, hfut, fun r hr => ?_, nofun⟩
      cases hr
      exact hok a rfl
    | err e =>
      refine ⟨hinv, hfut, fun r hr => ?_, nofun⟩
      cases hr
      exact herr e rfl e
    | panic =>
      refine ⟨hinv, hfut, fun r hr => ?_, nofun⟩
      cases hr
      exact hpanic s' hfut (hunwound rfl)
    | stuck => exact ⟨hinv, hfut, nofun, nofun⟩
  · obtain ⟨-, hstuck⟩ := hm.2 hs
    unfold Host.observe
    rcases hms : m s with ⟨o, s'⟩
    rw [hms] at hstuck
    cases o with
    | stuck => exact ⟨nofun, fun _ => hstuck rfl⟩
    | _ => exact ⟨nofun, nofun⟩

theorem ite {c : Prop} [Decidable c] {m n : Host σ ε α} (hm : c → Ends D s m Q E S)
    (hn : ¬ c → Ends D s n Q E S) : Ends D s (if c then m else n) Q E S := by
  by_cases h : c
  · rw [if_pos h]
    exact hm h
  · rw [if_neg h]
    exact hn h

/-- As for `Keeps`: the release has to lead from the other ends to the right ones, too. -/
theorem guarded {t : σ} {take release : σ → σ} {Q' : α → σ → Prop} (ht : t = take s)
    (hinv : D.inv s → D.inv t) (hm : Ends D t m Q E S)
    (hrelease : ∀ t', D.inv t' → D.future t t' → D.inv (release t') ∧ D.future s (release t'))
    (hok : ∀ a t', D.future t t' → Q a t' → Q' a (release t'))
    (hunwind : ∀ t', D.unwound t' → D.unwound (release t'))
    (hE : ∀ t', E t' → E' (release t')) (hS : ∀ t', S t' → S' (release t')) :
    Ends D s (Host.bind (Host.modify take) fun _ => Host.guarded m release) Q' E' S' := by
  refine ⟨Keeps.guarded ht hinv hm.1 hrelease hok hunwind, fun hs => ?_⟩
  subst ht
  obtain ⟨herr, hstuck⟩ := hm.2 (hinv hs)
  exact ⟨fun e he => hE _ (herr e he), fun h => hS _ (hstuck h)⟩

theorem of_keeps (h : Keeps D s m Q) (hE : ∀ s', E s') (hS : ∀ s', S s') : Ends D s m Q E S :=
  ⟨h, fun _ => ⟨fun _ _ => hE _, fun _ => hS _⟩⟩

/-- A computation that never fails ends in anything if it fails. -/
theorem of_fails (h : Ends D s m Q E S) (hfails : Fails (fun _ => False) m) :
    Ends D s m Q E' S :=
  ⟨h.1, fun hs => ⟨fun e he => (hfails s e he).elim, (h.2 hs).2⟩⟩

end Ends

/-! ## Coming back -/

/-- A relation between the state in which a computation is started and those in which it may
come back to its caller. It may be broken in between. -/
structure Framing (σ : Type) where
  rel : σ → σ → Prop
  refl : ∀ s, rel s s
  trans : ∀ {s s' s''}, rel s s' → rel s' s'' → rel s s''

def Discipline.frame {σ : Type} (D : Discipline σ) : Framing σ := ⟨D.future, D.refl, D.trans⟩

/-- Started in `s`, the computation keeps the discipline, it comes back along the frame with a
value or an error, and it ends in `Q a` if it returns `a`. -/
def Returns {σ ε α : Type} (D : Discipline σ) (F : Framing σ) (s : σ) (m : Host σ ε α)
    (Q : α → σ → Prop) : Prop :=
  Ends D s m (fun a s' => F.rel s s' ∧ Q a s') (F.rel s) fun _ => True

namespace Returns

variable {σ ε α β : Type} {D : Discipline σ} {F : Framing σ} {s : σ} {m : Host σ ε α}
  {Q Q' : α → σ → Prop} {R : β → σ → Prop}

/-- Where the frame is that of the discipline, nothing is broken in between. -/
theorem of_keeps (h : Keeps D s m Q) : Returns D D.frame s m Q :=
  ⟨h.mono fun _ _ hs hq => ⟨hs, hq⟩, fun hs => ⟨fun _ _ => (h hs).2.1, fun _ => trivial⟩⟩

theorem keeps (h : Returns D F s m Q) : Keeps D s m Q := h.1.mono fun _ _ _ hq => hq.2

theorem pure {a : α} (h : Q a s) : Returns D F s (Pure.pure a : Host σ ε α) Q :=
  Ends.pure ⟨F.refl s, h⟩

theorem throw {e : ε} : Returns D F s (Host.throw e : Host σ ε α) Q := Ends.throw (F.refl s)

theorem bind {f : α → Host σ ε β} (hm : Returns D F s m Q)
    (hf : ∀ a s', F.rel s s' → Q a s' → Returns D F s' (f a) R) :
    Returns D F s (m >>= f) R := by
  apply Ends.bind hm
  rintro a s' - ⟨hframe, hq⟩
  apply Ends.mono (hf a s' hframe hq)
  · exact fun _ _ _ hr => ⟨F.trans hframe hr.1, hr.2⟩
  · exact fun _ _ hframe' => F.trans hframe hframe'
  · exact fun _ _ _ => trivial

theorem mono (h : Returns D F s m Q) (hQ : ∀ a s', F.rel s s' → Q a s' → Q' a s') :
    Returns D F s m Q' :=
  Ends.mono h (fun a s' _ hq => ⟨hq.1, hQ a s' hq.1 hq.2⟩) (fun _ _ h => h) fun _ _ h => h

theorem get {f : σ → Host σ ε β} (h : Returns D F s (f s) R) :
    Returns D F s (Host.get >>= f) R := h

theorem modify {f : σ → σ} {R : Unit → σ → Prop} (hinv : D.inv s → D.inv (f s))
    (hfut : D.future s (f s)) (hframe : F.rel s (f s)) (h : R () (f s)) :
    Returns D F s (Host.modify f : Host σ ε Unit) R :=
  Ends.modify hinv hfut ⟨hframe, h⟩

theorem attempt {R : Except ε α → σ → Prop} (hm : Returns D F s m fun a s' => R (.ok a) s')
    (he : ∀ e s', F.rel s s' → R (.error e) s') : Returns D F s (Host.attempt m) R :=
  Ends.attempt (Ends.mono hm (fun _ _ _ h => h) (fun s' _ h e => ⟨h, he e s' h⟩)
    fun _ _ h => h)

theorem observe (hm : Returns D F s m Q) (hunwound : ∀ s, ¬ D.unwound s) :
    Returns D F s (Host.observe m) fun _ _ => True :=
  Ends.observe (Ends.mono hm (fun _ _ _ h => ⟨h.1, trivial⟩) (fun _ _ h _ => ⟨h, trivial⟩)
    fun _ _ h => h) fun s' _ h => (hunwound s' h).elim

theorem ofExcept {r : Except ε α} (h : ∀ a, r = .ok a → Q a s) :
    Returns D F s (Host.ofExcept r : Host σ ε α) Q :=
  Ends.ofExcept (fun a ha => ⟨F.refl s, h a ha⟩) fun _ _ => F.refl s

theorem ite {c : Prop} [Decidable c] {m n : Host σ ε α} (hm : c → Returns D F s m Q)
    (hn : ¬ c → Returns D F s n Q) : Returns D F s (if c then m else n) Q :=
  Ends.ite hm hn

end Returns

end GuestPy
