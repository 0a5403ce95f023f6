import GuestPy.Library.Answers

/-!
# Computations with fuel

A run that gets stuck has used up its fuel. With more fuel it does the same, or it does more.

* `Below m n` says that `n` does what `m` does wherever `m` does not get stuck. There is one rule
  for each way to build a computation.
* `total` is a computation that is known to return or fail, and `collect` a loop that keeps what
  its calls return.
* `Delivers D s m Q E` says in addition to `Keeps` that `m` ends in `E e` if it fails with `e`.
-/

namespace GuestPy

namespace Host

variable {σ τ ε α β : Type}

theorem ne_stuck_of_ok {m : Host σ ε α} {s s' : σ} {a : α} (h : m s = (.ok a, s')) :
    (m s).1 ≠ .stuck := by
  rw [h]
  nofun

theorem ne_stuck_of_err {m : Host σ ε α} {s s' : σ} {e : ε} (h : m s = (.err e, s')) :
    (m s).1 ≠ .stuck := by
  rw [h]
  nofun

/-! ## More fuel -/

/-- Wherever `m` does not get stuck, `n` does the same. -/
def Below (m n : Host σ ε α) : Prop := ∀ s, (m s).1 ≠ .stuck → n s = m s

namespace Below

variable {m m' n : Host σ ε α} {f f' : α → Host σ ε β}

theorem refl (m : Host σ ε α) : Below m m := fun _ _ => rfl

theorem trans (h : Below m n) (h' : Below n m') : Below m m' := by
  intro s hs
  have hn := h s hs
  rw [← hn] at hs ⊢
  exact h' s hs

theorem stuck (m : Host σ ε α) : Below Host.stuck m := fun _ h => absurd rfl h

theorem bind (hm : Below m m') (hf : ∀ a, Below (f a) (f' a)) : Below (m >>= f) (m' >>= f') := by
  intro s hs
  change (Host.bind m f s).1 ≠ .stuck at hs
  change Host.bind m' f' s = Host.bind m f s
  have hms := hm s
  unfold Host.bind at hs ⊢
  rcases h : m s with ⟨o, s'⟩
  rw [h] at hs hms
  cases o with
  | ok a =>
    rw [hms nofun]
    exact hf a s' hs
  | err e => rw [hms nofun]
  | panic => rw [hms nofun]
  | stuck => exact absurd rfl hs

theorem get {f f' : σ → Host σ ε β} (hf : ∀ a, Below (f a) (f' a)) :
    Below (Host.get >>= f) (Host.get >>= f') :=
  bind (refl _) hf

theorem attempt (hm : Below m m') : Below (Host.attempt m) (Host.attempt m') := by
  intro s hs
  have hms := hm s
  unfold Host.attempt at hs ⊢
  rcases h : m s with ⟨o, s'⟩
  rw [h] at hs hms
  cases o with
  | ok a => rw [hms nofun]
  | err e => rw [hms nofun]
  | panic => rw [hms nofun]
  | stuck => exact absurd rfl hs

theorem mapErr {ε' : Type} {g : ε → ε'} (hm : Below m m') :
    Below (Host.mapErr g m) (Host.mapErr g m') := by
  intro s hs
  have hms := hm s
  unfold Host.mapErr at hs ⊢
  rcases h : m s with ⟨o, s'⟩
  rw [h] at hs hms
  cases o with
  | ok a => rw [hms nofun]
  | err e => rw [hms nofun]
  | panic => rw [hms nofun]
  | stuck => exact absurd rfl hs

theorem zoom {part : τ → σ} {put : σ → τ → τ} (hm : Below m m') :
    Below (Host.zoom part put m) (Host.zoom part put m') := by
  intro s hs
  have hms := hm (part s) hs
  unfold Host.zoom
  rw [hms]

/-- More fuel, step by step. -/
theorem of_le (run : Nat → Host σ ε α) (h : ∀ fuel, Below (run fuel) (run (fuel + 1)))
    {fuel fuel' : Nat} (hle : fuel ≤ fuel') : Below (run fuel) (run fuel') := by
  induction hle with
  | refl => exact refl _
  | step _ ih => exact ih.trans (h _)

/-- A run that has ended ends alike with more fuel. -/
theorem eq_of_le (run : Nat → Host σ ε α) (h : ∀ fuel, Below (run fuel) (run (fuel + 1)))
    {fuel fuel' : Nat} (hle : fuel ≤ fuel') {s s' : σ} {o : Outcome ε α}
    (hrun : run fuel s = (o, s')) (ho : o ≠ .stuck) : run fuel' s = (o, s') := by
  rw [of_le run h hle s (by rw [hrun]; exact ho), hrun]

/-- Two runs with enough fuel end alike. -/
theorem unique (run : Nat → Host σ ε α) (h : ∀ fuel, Below (run fuel) (run (fuel + 1)))
    {fuel fuel' : Nat} {s : σ} (hs : (run fuel s).1 ≠ .stuck) (hs' : (run fuel' s).1 ≠ .stuck) :
    run fuel s = run fuel' s := by
  have hmax := of_le run h (Nat.le_max_left fuel fuel') s hs
  have hmax' := of_le run h (Nat.le_max_right fuel fuel') s hs'
  exact hmax.symm.trans hmax'

end Below

/-! ## Computations that come to an end -/

/-- A computation that is known to return or fail. -/
def total (f : σ → Except ε α × σ) : Host σ ε α := fun s =>
  match f s with
  | (.ok a, s') => (.ok a, s')
  | (.error e, s') => (.err e, s')

theorem total_eq_ok {f : σ → Except ε α × σ} {s s' : σ} {a : α} :
    total f s = (.ok a, s') ↔ f s = (.ok a, s') := by
  unfold total
  rcases f s with ⟨r, t⟩
  cases r with
  | ok b =>
    constructor
    · intro h
      cases h
      rfl
    · intro h
      cases h
      rfl
  | error e => exact ⟨nofun, nofun⟩

theorem total_eq_err {f : σ → Except ε α × σ} {s s' : σ} {e : ε} :
    total f s = (.err e, s') ↔ f s = (.error e, s') := by
  unfold total
  rcases f s with ⟨r, t⟩
  cases r with
  | ok b => exact ⟨nofun, nofun⟩
  | error e' =>
    constructor
    · intro h
      cases h
      rfl
    · intro h
      cases h
      rfl

theorem settles_total (f : σ → Except ε α × σ) : Settles (total f) := by
  intro s
  unfold total
  rcases f s with ⟨r, t⟩
  cases r with
  | ok b => exact Or.inl ⟨b, rfl⟩
  | error e => exact Or.inr ⟨e, rfl⟩

namespace Settles

variable {m : Host σ ε α} {f : α → Host σ ε β}

theorem pure (a : α) : Settles (Pure.pure a : Host σ ε α) := fun _ => Or.inl ⟨a, rfl⟩

theorem throw (e : ε) : Settles (Host.throw e : Host σ ε α) := fun _ => Or.inr ⟨e, rfl⟩

theorem bind (hm : Settles m) (hf : ∀ a, Settles (f a)) : Settles (m >>= f) := by
  intro s
  rcases h : (m >>= f) s with ⟨o, s'⟩
  rcases hm.bind_cases h with ⟨a, s₁, -, hrest⟩ | ⟨e, -, rfl⟩
  · have hs := hf a s₁
    rw [hrest] at hs
    exact hs
  · exact Or.inr ⟨e, rfl⟩

/-- The two ways in which it ends. -/
theorem cases (hm : Settles m) (s : σ) :
    (∃ a s', m s = (.ok a, s')) ∨ ∃ e s', m s = (.err e, s') := by
  have hs := hm s
  rcases h : m s with ⟨o, s'⟩
  rw [h] at hs
  rcases hs with ⟨a, rfl⟩ | ⟨e, rfl⟩
  · exact Or.inl ⟨a, s', rfl⟩
  · exact Or.inr ⟨e, s', rfl⟩

end Settles

/-! ## Loops -/

/-- Runs `f` on the elements of a list in order, and stops at the first failure. -/
def collect (f : β → Host σ ε α) : List β → Host σ ε (List α)
  | [] => pure []
  | b :: bs => do
    let a ← f b
    let as ← collect f bs
    Pure.pure (a :: as)

/-- All calls of a loop return, and what they return. -/
inductive Collects (f : β → Host σ ε α) : List β → σ → List α → σ → Prop
  | nil (s : σ) : Collects f [] s [] s
  | cons {b : β} {bs : List β} {a : α} {as : List α} {s s' s'' : σ} :
    f b s = (.ok a, s') → Collects f bs s' as s'' → Collects f (b :: bs) s (a :: as) s''

theorem Collects.collect {f : β → Host σ ε α} {bs : List β} {as : List α} {s s' : σ}
    (h : Collects f bs s as s') : Host.collect f bs s = (.ok as, s') := by
  induction h with
  | nil s => rfl
  | cons hb _ ih => exact bind_eq_ok.mpr ⟨_, _, hb, bind_eq_ok.mpr ⟨_, _, ih, rfl⟩⟩

theorem bind_of_ok {m : Host σ ε α} {f : α → Host σ ε β} {s s' : σ} {a : α}
    (h : m s = (.ok a, s')) : (m >>= f) s = f a s' := by
  change Host.bind m f s = _
  unfold Host.bind
  rw [h]

theorem bind_of_err {m : Host σ ε α} {f : α → Host σ ε β} {s s' : σ} {e : ε}
    (h : m s = (.err e, s')) : (m >>= f) s = (.err e, s') := by
  change Host.bind m f s = _
  unfold Host.bind
  rw [h]

theorem attempt_of_ok {m : Host σ ε α} {s s' : σ} {a : α} (h : m s = (.ok a, s')) :
    attempt m s = (.ok (.ok a), s') := by
  unfold attempt
  rw [h]

theorem attempt_of_err {m : Host σ ε α} {s s' : σ} {e : ε} (h : m s = (.err e, s')) :
    attempt m s = (.ok (.error e), s') := by
  unfold attempt
  rw [h]

theorem attempt_of_stuck {m : Host σ ε α} {s s' : σ} (h : m s = (.stuck, s')) :
    attempt m s = (.stuck, s') := by
  unfold attempt
  rw [h]

theorem stuck_of_bind {m : Host σ ε α} {f : α → Host σ ε β} {s s' s'' : σ} {o : Outcome ε β}
    (hm : m s = (.stuck, s')) (h : (m >>= f) s = (o, s'')) : o = .stuck := by
  rcases bind_cases h with ⟨a, s₁, heq, -⟩ | ⟨e, heq, -⟩ | ⟨heq, -⟩ | ⟨-, rfl⟩
  · cases hm.symm.trans heq
  · cases hm.symm.trans heq
  · cases hm.symm.trans heq
  · rfl

theorem bind_stuck {m : Host σ ε α} {f : α → Host σ ε β} {s : σ} (hm : (m s).1 = .stuck) :
    ((m >>= f) s).1 = .stuck := by
  rcases h : m s with ⟨o, s'⟩
  rw [h] at hm
  subst hm
  rcases hbind : (m >>= f) s with ⟨o, s''⟩
  exact stuck_of_bind h hbind

theorem attempt_stuck {m : Host σ ε α} {s : σ} (hm : (m s).1 = .stuck) :
    (attempt m s).1 = .stuck := by
  rcases h : m s with ⟨o, s'⟩
  rw [h] at hm
  subst hm
  rw [attempt_of_stuck h]

theorem Settles.ne_stuck {m : Host σ ε α} (hm : Settles m) (s : σ) : (m s).1 ≠ .stuck := by
  rcases h : m s with ⟨o, s'⟩
  have hs := hm s
  rw [h] at hs
  rcases hs with ⟨a, rfl⟩ | ⟨e, rfl⟩
  · nofun
  · nofun

/-- What settles does not make a computation get stuck. -/
theorem Settles.ne_stuck_of_bind {m : Host σ ε α} {f : α → Host σ ε β} (hf : ∀ a, Settles (f a))
    {s : σ} (hm : (m s).1 ≠ .stuck) : ((m >>= f) s).1 ≠ .stuck := by
  rcases h : (m >>= f) s with ⟨o, s'⟩
  rcases Host.bind_cases h with ⟨a, s₁, -, hrest⟩ | ⟨e, -, rfl⟩ | ⟨-, rfl⟩ | ⟨hstuck, -⟩
  · have hne := (hf a).ne_stuck s₁
    rw [hrest] at hne
    exact hne
  · nofun
  · nofun
  · rw [hstuck] at hm
    exact absurd rfl hm

/-- A call fails, and those before it return. -/
theorem Collects.collect_err {f : β → Host σ ε α} {bs after : List β} {b : β} {as : List α} {e : ε}
    {s s' s'' : σ} (h : Collects f bs s as s') (hb : f b s' = (.err e, s'')) :
    Host.collect f (bs ++ b :: after) s = (.err e, s'') := by
  induction h with
  | nil s => exact bind_of_err hb
  | cons hfirst _ ih => exact (bind_of_ok hfirst).trans (bind_of_err (ih hb))

theorem settles_collect {f : β → Host σ ε α} (hf : ∀ b, Settles (f b)) (bs : List β) :
    Settles (collect f bs) := by
  induction bs with
  | nil => exact Settles.pure _
  | cons b bs ih => exact (hf b).bind fun _ => ih.bind fun _ => Settles.pure _

theorem collect_cases {f : β → Host σ ε α} (hf : ∀ b, Settles (f b)) {bs : List β} {s s' : σ}
    {o : Outcome ε (List α)} (h : collect f bs s = (o, s')) :
    (∃ as, o = .ok as ∧ Collects f bs s as s') ∨
      ∃ before b after as s₁ e, bs = before ++ b :: after ∧ Collects f before s as s₁ ∧
        f b s₁ = (.err e, s') ∧ o = .err e := by
  induction bs generalizing s o with
  | nil =>
    cases h
    exact Or.inl ⟨[], rfl, .nil _⟩
  | cons b bs ih =>
    rcases (hf b).bind_cases h with ⟨a, s₁, hb, hrest⟩ | ⟨e, hb, rfl⟩
    · rcases (settles_collect hf bs).bind_cases hrest with ⟨as, s₂, hbs, hlast⟩ | ⟨e, hbs, rfl⟩
      · cases hlast
        rcases ih hbs with ⟨as', hok, has⟩ | ⟨_, _, _, _, _, _, _, _, _, herr⟩
        · cases hok
          exact Or.inl ⟨a :: as, rfl, .cons hb has⟩
        · cases herr
      · rcases ih hbs with ⟨as, hok, -⟩ | ⟨before, b', after, as, s₃, e', rfl, has, hfail, herr⟩
        · cases hok
        · cases herr
          exact Or.inr ⟨b :: before, b', after, a :: as, s₃, e, rfl, .cons hb has, hfail, rfl⟩
    · exact Or.inr ⟨[], b, bs, [], s, e, rfl, .nil s, hb, rfl⟩

theorem settles_forEach {f : β → Host σ ε Unit} (hf : ∀ b, Settles (f b)) (bs : List β) :
    Settles (forEach bs f) := by
  induction bs with
  | nil => exact Settles.pure _
  | cons b bs ih => exact (hf b).bind fun _ => ih

theorem Each.forEach_err {f : β → Host σ ε Unit} {bs after : List β} {b : β} {e : ε}
    {s s' s'' : σ} (h : Each f bs s s') (hb : f b s' = (.err e, s'')) :
    forEach (bs ++ b :: after) f s = (.err e, s'') := by
  induction h with
  | nil s => exact bind_of_err hb
  | cons hfirst _ ih => exact (bind_of_ok hfirst).trans (ih hb)

theorem forEach_cases {f : β → Host σ ε Unit} (hf : ∀ b, Settles (f b)) {bs : List β} {s s' : σ}
    {o : Outcome ε Unit} (h : forEach bs f s = (o, s')) :
    (o = .ok () ∧ Each f bs s s') ∨
      ∃ before b after s₁ e, bs = before ++ b :: after ∧ Each f before s s₁ ∧
        f b s₁ = (.err e, s') ∧ o = .err e := by
  induction bs generalizing s with
  | nil =>
    cases h
    exact Or.inl ⟨rfl, .nil _⟩
  | cons b bs ih =>
    have h' : (f b >>= fun _ => forEach bs f) s = (o, s') := h
    rcases (hf b).bind_cases h' with ⟨u, s₁, hb, hrest⟩ | ⟨e, hb, rfl⟩
    · rcases ih hrest with ⟨rfl, hall⟩ | ⟨before, b', after, s₂, e, rfl, hall, hfail, rfl⟩
      · exact Or.inl ⟨rfl, .cons hb hall⟩
      · exact Or.inr ⟨b :: before, b', after, s₂, e, rfl, .cons hb hall, hfail, rfl⟩
    · exact Or.inr ⟨[], b, bs, s, e, rfl, .nil s, hb, rfl⟩

end Host

/-! ## Errors and where they leave the state -/

/-- Started in `s`, the computation keeps the discipline, it ends in `Q a` if it returns `a`, and
in `E e` if it fails with `e`. -/
def Delivers {σ ε α : Type} (D : Discipline σ) (s : σ) (m : Host σ ε α) (Q : α → σ → Prop)
    (E : ε → σ → Prop) : Prop :=
  Keeps D s m Q ∧ (D.inv s → ∀ e, (m s).1 = .err e → E e (m s).2)

namespace Delivers

variable {σ τ ε α β : Type} {D : Discipline σ} {s : σ} {m : Host σ ε α} {Q Q' : α → σ → Prop}
  {R : β → σ → Prop} {E E' : ε → σ → Prop}

theorem pure {a : α} (h : Q a s) : Delivers D s (Pure.pure a : Host σ ε α) Q E :=
  ⟨Keeps.pure h, fun _ => nofun⟩

theorem throw {e : ε} (h : E e s) : Delivers D s (Host.throw e : Host σ ε α) Q E := by
  refine ⟨Keeps.throw, fun _ e' he => ?_⟩
  cases he
  exact h

theorem stuck : Delivers D s (Host.stuck : Host σ ε α) Q E := ⟨Keeps.stuck, fun _ => nofun⟩

theorem bind {f : α → Host σ ε β} (hm : Delivers D s m Q E)
    (hf : ∀ a s', D.future s s' → Q a s' → Delivers D s' (f a) R E) :
    Delivers D s (m >>= f) R E := by
  refine ⟨Keeps.bind hm.1 fun a s' hs' hq => (hf a s' hs' hq).1, fun hs e he => ?_⟩
  obtain ⟨hinv, hfut, hok, -⟩ := hm.1 hs
  have herr := hm.2 hs
  change (Host.bind m f s).1 = .err e at he
  change E e (Host.bind m f s).2
  unfold Host.bind at he ⊢
  rcases hms : m s with ⟨o, s'⟩
  rw [hms] at hinv hfut hok herr he
  cases o with
  | ok a => exact (hf a s' hfut (hok a rfl)).2 hinv e he
  | err e' =>
    cases he
    exact herr e rfl
  | panic => cases he
  | stuck => cases he

theorem get {f : σ → Host σ ε β} (h : Delivers D s (f s) R E) :
    Delivers D s (Host.get >>= f) R E := h

theorem assume {m : Host σ ε α} (h : D.inv s → Delivers D s m Q E) : Delivers D s m Q E :=
  ⟨Keeps.assume fun hs => (h hs).1, fun hs => (h hs).2 hs⟩

theorem modify {f : σ → σ} {R : Unit → σ → Prop} (hinv : D.inv s → D.inv (f s))
    (hfut : D.future s (f s)) (h : R () (f s)) :
    Delivers D s (Host.modify f : Host σ ε Unit) R E :=
  ⟨Keeps.modify hinv hfut h, fun _ => nofun⟩

theorem mono (h : Delivers D s m Q E) (hQ : ∀ a s', D.future s s' → Q a s' → Q' a s')
    (hE : ∀ e s', D.future s s' → E e s' → E' e s') : Delivers D s m Q' E' :=
  ⟨h.1.mono hQ, fun hs e he => hE e _ (h.1 hs).2.1 (h.2 hs e he)⟩

/-- What is returned is what the computation returns. -/
theorem run (h : Delivers D s m Q E) :
    Delivers D s m (fun a s' => Q a s' ∧ m s = (.ok a, s')) E := by
  refine ⟨fun hs => ?_, h.2⟩
  obtain ⟨hinv, hfut, hok, hpanic⟩ := h.1 hs
  exact ⟨hinv, hfut, fun a ha => ⟨hok a ha, Prod.ext ha rfl⟩, hpanic⟩

theorem of_eq_ok (h : Delivers D s m Q E) (hs : D.inv s) {a : α} {s' : σ}
    (hm : m s = (.ok a, s')) : Q a s' := by
  have hq := (h.1 hs).2.2.1 a
  rw [hm] at hq
  exact hq rfl

/-- A computation that is known to return fails in no way. -/
theorem of_returns (h : Delivers D s m Q E) (hm : D.inv s → ∃ a s', m s = (.ok a, s')) :
    Delivers D s m Q E' := by
  refine ⟨h.1, fun hs e he => ?_⟩
  obtain ⟨a, s', heq⟩ := hm hs
  rw [heq] at he
  cases he

theorem ite {c : Prop} [Decidable c] {m n : Host σ ε α} (hm : c → Delivers D s m Q E)
    (hn : ¬ c → Delivers D s n Q E) : Delivers D s (if c then m else n) Q E := by
  by_cases h : c
  · rw [if_pos h]
    exact hm h
  · rw [if_neg h]
    exact hn h

theorem attempt {R : Except ε α → σ → Prop}
    (hm : Delivers D s m (fun a => R (.ok a)) fun e => R (.error e)) :
    Delivers D s (Host.attempt m) R E := by
  refine ⟨fun hs => ?_, fun hs e he => ?_⟩
  · obtain ⟨hinv, hfut, hok, hpanic⟩ := hm.1 hs
    have herr := hm.2 hs
    unfold Host.attempt
    rcases hms : m s with ⟨o, s'⟩
    rw [hms] at hinv hfut hok hpanic herr
    cases o with
    | ok a =>
      refine ⟨hinv, hfut, fun r hr => ?_, nofun⟩
      cases hr
      exact hok a rfl
    | err e =>
      refine ⟨hinv, hfut, fun r hr => ?_, nofun⟩
      cases hr
      exact herr e rfl
    | panic => exact ⟨hinv, hfut, nofun, fun _ => hpanic rfl⟩
    | stuck => exact ⟨hinv, hfut, nofun, nofun⟩
  · unfold Host.attempt at he
    rcases hms : m s with ⟨o, s'⟩
    rw [hms] at he
    cases o <;> cases he

/-- The loop rule: what holds before an iteration and stays true afterwards holds at the end. -/
theorem forEach {f : β → Host σ ε Unit} {J : σ → Prop} {bs : List β} (hs : J s)
    (hf : ∀ b s', J s' → Delivers D s' (f b) (fun _ => J) E) :
    Delivers D s (Host.forEach bs f) (fun _ => J) E := by
  induction bs generalizing s with
  | nil => exact pure hs
  | cons b bs ih => exact bind (hf b s hs) fun _ s' _ hs' => ih hs'

theorem collect {f : β → Host σ ε α} {J : σ → Prop} {bs : List β} (hs : J s)
    (hf : ∀ b s', J s' → Delivers D s' (f b) (fun _ => J) E) :
    Delivers D s (Host.collect f bs) (fun _ => J) E := by
  induction bs generalizing s with
  | nil => exact pure hs
  | cons b bs ih =>
    refine bind (hf b s hs) fun a s' _ hs' => ?_
    exact bind (ih hs') fun as s'' _ hs'' => pure hs''

theorem total {f : σ → Except ε α × σ} (hinv : D.inv s → D.inv (f s).2)
    (hfut : D.inv s → D.future s (f s).2) (hQ : D.inv s → ∀ a, (f s).1 = .ok a → Q a (f s).2)
    (hE : D.inv s → ∀ e, (f s).1 = .error e → E e (f s).2) :
    Delivers D s (Host.total f) Q E := by
  refine ⟨fun hs => ?_, fun hs e he => ?_⟩
  · have hok := hQ hs
    have hi := hinv hs
    have hf := hfut hs
    unfold Host.total
    rcases hr : f s with ⟨r, s'⟩
    rw [hr] at hok hi hf
    cases r with
    | ok a =>
      refine ⟨hi, hf, fun b hb => ?_, nofun⟩
      cases hb
      exact hok a rfl
    | error e => exact ⟨hi, hf, nofun, nofun⟩
  · have herr := hE hs
    unfold Host.total at he ⊢
    rcases hr : f s with ⟨r, s'⟩
    rw [hr] at herr he
    cases r with
    | ok a => cases he
    | error e' =>
      cases he
      exact herr e rfl

theorem mapErr {ε' : Type} {g : ε → ε'} {E' : ε' → σ → Prop}
    (hm : Delivers D s m Q fun e => E' (g e)) : Delivers D s (Host.mapErr g m) Q E' := by
  refine ⟨fun hs => ?_, fun hs e he => ?_⟩
  · obtain ⟨hinv, hfut, hok, hpanic⟩ := hm.1 hs
    unfold Host.mapErr
    rcases hms : m s with ⟨o, s'⟩
    rw [hms] at hinv hfut hok hpanic
    cases o with
    | ok a =>
      refine ⟨hinv, hfut, fun b hb => ?_, nofun⟩
      cases hb
      exact hok a rfl
    | err e => exact ⟨hinv, hfut, nofun, nofun⟩
    | panic => exact ⟨hinv, hfut, nofun, fun _ => hpanic rfl⟩
    | stuck => exact ⟨hinv, hfut, nofun, nofun⟩
  · have herr := hm.2 hs
    unfold Host.mapErr at he ⊢
    rcases hms : m s with ⟨o, s'⟩
    rw [hms] at herr he
    cases o with
    | err e' =>
      cases he
      exact herr e' rfl
    | ok a => cases he
    | panic => cases he
    | stuck => cases he

/-- A computation on a part of the state follows a discipline of its own there. -/
theorem zoom {D' : Discipline τ} {t : τ} {part : τ → σ} {put : σ → τ → τ} {Q' : α → τ → Prop}
    {E' : ε → τ → Prop} (hm : Delivers D (part t) m Q E) (hinv : D'.inv t → D.inv (part t))
    (hback : ∀ s', D.inv s' → D.future (part t) s' → D'.inv (put s' t) ∧ D'.future t (put s' t))
    (hQ : ∀ a s', Q a s' → Q' a (put s' t)) (hE : ∀ e s', E e s' → E' e (put s' t))
    (hunwound : ∀ s', D.unwound s' → D'.unwound (put s' t)) :
    Delivers D' t (Host.zoom part put m) Q' E' := by
  refine ⟨fun ht => ?_, fun ht e he => ?_⟩
  · obtain ⟨hi, hf, hok, hpanic⟩ := hm.1 (hinv ht)
    obtain ⟨hi', hf'⟩ := hback _ hi hf
    exact ⟨hi', hf', fun a ha => hQ a _ (hok a ha), fun h => hunwound _ (hpanic h)⟩
  · exact hE e _ (hm.2 (hinv ht) e he)

end Delivers

end GuestPy
