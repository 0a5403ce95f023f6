import GuestPy.Library.Host

/-!
# Computations that return

Facts about a single run of a host computation, for code whose behaviour depends on which of its
calls fail.

* `bind_cases` takes a run apart, and `bind_eq_ok` and `forEach_eq_ok` one that has returned.
  `Each` says that all calls of a loop return, one after another.
* `Settles m` says that the computation returns or fails, wherever it is started.
* `zoom` runs a computation on a part of the state.
* `Preserves f m` says that the computation leaves the part `f` of the state alone, however it
  ends. There is one rule for each way to build a computation.
* `Discipline.free` asks nothing of the states, for judgements about how a computation ends.
-/

namespace GuestPy

namespace Host

variable {σ τ ε α β : Type}

theorem bind_eq_ok {m : Host σ ε α} {f : α → Host σ ε β} {s s'' : σ} {b : β} :
    (m >>= f) s = (.ok b, s'') ↔ ∃ a s', m s = (.ok a, s') ∧ f a s' = (.ok b, s'') := by
  change Host.bind m f s = _ ↔ _
  unfold Host.bind
  rcases hm : m s with ⟨o, s'⟩
  cases o with
  | ok a =>
    constructor
    · exact fun h => ⟨a, s', rfl, h⟩
    · rintro ⟨a', s₁, heq, h⟩
      cases heq
      exact h
  | err e => exact ⟨nofun, fun ⟨_, _, heq, _⟩ => nomatch heq⟩
  | panic => exact ⟨nofun, fun ⟨_, _, heq, _⟩ => nomatch heq⟩
  | stuck => exact ⟨nofun, fun ⟨_, _, heq, _⟩ => nomatch heq⟩

/-- A computation and what comes after it: either the first returns, or the whole ends as it. -/
theorem bind_cases {m : Host σ ε α} {f : α → Host σ ε β} {s s'' : σ} {o : Outcome ε β}
    (h : (m >>= f) s = (o, s'')) :
    (∃ a s', m s = (.ok a, s') ∧ f a s' = (o, s'')) ∨ (∃ e, m s = (.err e, s'') ∧ o = .err e) ∨
      (m s = (.panic, s'') ∧ o = .panic) ∨ m s = (.stuck, s'') ∧ o = .stuck := by
  change Host.bind m f s = _ at h
  unfold Host.bind at h
  rcases hm : m s with ⟨r, s'⟩
  rw [hm] at h
  cases r with
  | ok a => exact Or.inl ⟨a, s', rfl, h⟩
  | err e =>
    cases h
    exact Or.inr (Or.inl ⟨e, rfl, rfl⟩)
  | panic =>
    cases h
    exact Or.inr (Or.inr (Or.inl ⟨rfl, rfl⟩))
  | stuck =>
    cases h
    exact Or.inr (Or.inr (Or.inr ⟨rfl, rfl⟩))

/-- The computation neither panics nor gets stuck. -/
def Settles (m : Host σ ε α) : Prop := ∀ s, (∃ a, (m s).1 = .ok a) ∨ ∃ e, (m s).1 = .err e

theorem Settles.bind_cases {m : Host σ ε α} {f : α → Host σ ε β} {s s'' : σ} {o : Outcome ε β}
    (hm : Settles m) (h : (m >>= f) s = (o, s'')) :
    (∃ a s', m s = (.ok a, s') ∧ f a s' = (o, s'')) ∨ ∃ e, m s = (.err e, s'') ∧ o = .err e := by
  have hs := hm s
  rcases Host.bind_cases h with hok | herr | ⟨hpanic, -⟩ | ⟨hstuck, -⟩
  · exact Or.inl hok
  · exact Or.inr herr
  · simp [hpanic] at hs
  · simp [hstuck] at hs

theorem ofExcept_bind_cases {r : Except ε α} {f : α → Host σ ε β} {s s' : σ} {o : Outcome ε β}
    (h : (ofExcept r >>= f) s = (o, s')) :
    (∃ a, r = .ok a ∧ f a s = (o, s')) ∨ ∃ e, r = .error e ∧ o = .err e ∧ s' = s := by
  cases r with
  | ok a => exact Or.inl ⟨a, rfl, h⟩
  | error e =>
    cases h
    exact Or.inr ⟨e, rfl, rfl, rfl⟩

theorem get_bind {f : σ → Host σ ε β} (s : σ) : (Host.get >>= f) s = f s s := rfl

theorem modify_bind {g : σ → σ} {f : Unit → Host σ ε β} (s : σ) :
    (Host.modify g >>= f) s = f () (g s) := rfl

/-- What comes after a computation that has not returned does not happen. -/
theorem bind_of_ne_ok {m : Host σ ε α} {f : α → Host σ ε β} {s : σ}
    (h : ∀ a, (m s).1 ≠ .ok a) :
    ((m >>= f) s).2 = (m s).2 ∧ ∀ b, ((m >>= f) s).1 ≠ .ok b := by
  change (Host.bind m f s).2 = _ ∧ ∀ b, (Host.bind m f s).1 ≠ _
  unfold Host.bind
  rcases hm : m s with ⟨o, s'⟩
  rw [hm] at h
  cases o with
  | ok a => exact absurd rfl (h a)
  | err e => exact ⟨rfl, nofun⟩
  | panic => exact ⟨rfl, nofun⟩
  | stuck => exact ⟨rfl, nofun⟩

/-- Another error in the place of the one that the computation fails with. -/
def mapErr {ε' : Type} (f : ε → ε') (m : Host σ ε α) : Host σ ε' α := fun s =>
  match m s with
  | (.ok a, s') => (.ok a, s')
  | (.err e, s') => (.err (f e), s')
  | (.panic, s') => (.panic, s')
  | (.stuck, s') => (.stuck, s')

theorem mapErr_eq_ok {ε' : Type} {f : ε → ε'} {m : Host σ ε α} {s s' : σ} {a : α} :
    mapErr f m s = (.ok a, s') ↔ m s = (.ok a, s') := by
  unfold mapErr
  rcases m s with ⟨o, t⟩
  cases o with
  | ok b =>
    constructor
    · intro h
      cases h
      rfl
    · intro h
      cases h
      rfl
  | err e => exact ⟨nofun, nofun⟩
  | panic => exact ⟨nofun, nofun⟩
  | stuck => exact ⟨nofun, nofun⟩

/-! ### Loops -/

/-- All calls of a loop return. -/
inductive Each (f : β → Host σ ε Unit) : List β → σ → σ → Prop
  | nil (s : σ) : Each f [] s s
  | cons {b : β} {bs : List β} {s s' s'' : σ} :
    f b s = (.ok (), s') → Each f bs s' s'' → Each f (b :: bs) s s''

theorem forEach_eq_ok {f : β → Host σ ε Unit} {bs : List β} {s s' : σ} :
    forEach bs f s = (.ok (), s') ↔ Each f bs s s' := by
  induction bs generalizing s with
  | nil =>
    constructor
    · intro h
      cases h
      exact .nil _
    · intro h
      cases h
      rfl
  | cons b bs ih =>
    have hcons : forEach (b :: bs) f s = (.ok (), s') ↔
        ∃ u s₁, f b s = (.ok u, s₁) ∧ forEach bs f s₁ = (.ok (), s') := bind_eq_ok
    rw [hcons]
    constructor
    · rintro ⟨u, s₁, hb, hrest⟩
      exact .cons hb (ih.mp hrest)
    · intro h
      cases h with
      | cons hb hrest => exact ⟨(), _, hb, ih.mpr hrest⟩

/-! ### Parts of the state -/

def zoom (part : σ → τ) (put : τ → σ → σ) (m : Host τ ε α) : Host σ ε α := fun s =>
  ((m (part s)).1, put (m (part s)).2 s)

theorem zoom_eq_ok {part : σ → τ} {put : τ → σ → σ} {m : Host τ ε α} {s s' : σ} {a : α} :
    zoom part put m s = (.ok a, s') ↔ ∃ t, m (part s) = (.ok a, t) ∧ s' = put t s := by
  unfold zoom
  rcases hm : m (part s) with ⟨o, t⟩
  rw [Prod.mk.injEq]
  constructor
  · rintro ⟨ho, rfl⟩
    exact ⟨t, by rw [← ho], rfl⟩
  · rintro ⟨t', heq, rfl⟩
    cases heq
    exact ⟨rfl, rfl⟩

end Host

/-- However it ends, the computation leaves the part `f` of the state alone. -/
def Preserves {σ ε α γ : Type} (f : σ → γ) (m : Host σ ε α) : Prop := ∀ s, f (m s).2 = f s

namespace Preserves

variable {σ τ ε α β γ : Type} {f : σ → γ}

theorem pure {a : α} : Preserves f (Pure.pure a : Host σ ε α) := fun _ => rfl

theorem throw {e : ε} : Preserves f (Host.throw e : Host σ ε α) := fun _ => rfl

theorem panic : Preserves f (Host.panic : Host σ ε α) := fun _ => rfl

theorem get : Preserves f (Host.get : Host σ ε σ) := fun _ => rfl

theorem modify {g : σ → σ} (h : ∀ s, f (g s) = f s) :
    Preserves f (Host.modify g : Host σ ε Unit) := h

theorem bind {m : Host σ ε α} {n : α → Host σ ε β} (hm : Preserves f m)
    (hn : ∀ a, Preserves f (n a)) : Preserves f (m >>= n) := by
  intro s
  change f (Host.bind m n s).2 = f s
  have hs := hm s
  unfold Host.bind
  rcases hms : m s with ⟨o, s'⟩
  rw [hms] at hs
  cases o with
  | ok a => exact (hn a s').trans hs
  | err e => exact hs
  | panic => exact hs
  | stuck => exact hs

theorem ofExcept (r : Except ε α) : Preserves f (Host.ofExcept r : Host σ ε α) := by
  cases r with
  | ok a => exact Preserves.pure
  | error e => exact Preserves.throw

theorem attempt {m : Host σ ε α} (hm : Preserves f m) : Preserves f (Host.attempt m) := by
  intro s
  have hs := hm s
  unfold Host.attempt
  rcases hms : m s with ⟨o, s'⟩
  rw [hms] at hs
  cases o with
  | ok a => exact hs
  | err e => exact hs
  | panic => exact hs
  | stuck => exact hs

theorem ite {c : Prop} [Decidable c] {m n : Host σ ε α} (hm : Preserves f m)
    (hn : Preserves f n) : Preserves f (if c then m else n) := by
  split
  · exact hm
  · exact hn

theorem forEach {n : β → Host σ ε Unit} (hn : ∀ b, Preserves f (n b)) (bs : List β) :
    Preserves f (Host.forEach bs n) := by
  induction bs with
  | nil => exact Preserves.pure
  | cons b bs ih => exact Preserves.bind (hn b) fun _ => ih

theorem zoom {part : σ → τ} {put : τ → σ → σ} {m : Host τ ε α}
    (h : ∀ t s, f (put t s) = f s) : Preserves f (Host.zoom part put m) :=
  fun s => h _ s

end Preserves

/-- Nothing is asked of the states. -/
def Discipline.free (σ : Type) : Discipline σ where
  inv _ := True
  future _ _ := True
  unwound _ := True
  refl _ := trivial
  trans _ _ := trivial

/-- What a computation preserves still holds where it returns or fails. -/
theorem Ends.of_preserves {σ ε α γ : Type} {f : σ → γ} {m : Host σ ε α} {P : σ → Prop} {s : σ}
    (hm : Preserves f m) (hP : ∀ s', f s' = f s → P s') :
    Ends (.free σ) s m (fun _ => P) P fun _ => True :=
  ⟨fun _ => ⟨trivial, trivial, fun _ _ => hP _ (hm s), fun _ => trivial⟩,
    fun _ => ⟨fun _ _ => hP _ (hm s), fun _ => trivial⟩⟩

end GuestPy
