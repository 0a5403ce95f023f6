import GuestPy.Library.Host

/-!
# Searches

A search tries one way after another. A way that does not fit is given up for the next one, and
a way that raises an error ends the search.

* `Search` keeps the two apart by their type, and has a mark that it sets where it should be
  noticed that it went on.
* `Host.orNext` tells them apart by a test of the error, as code does that has one type of errors.
* `Sim` relates code to the search it should carry out. As long as the mark is not set, they agree.
  Where it is set, the code has failed with an error that the search does not know, a slip. There
  is one rule for each way to build the two.
-/

namespace GuestPy

/-- Why a search has no result. -/
inductive Refusal (ε : Type) where
  | unfit
  | raised (error : ε)

abbrev Search (σ ε α : Type) := Host (σ × Bool) (Refusal ε) α

namespace Search

variable {σ ε α : Type}

def unfit : Search σ ε α := Host.throw .unfit

/-- Goes on where it should be noticed. -/
def mark : Search σ ε Unit := Host.modify fun s => (s.1, true)

/-- A computation whose errors end the search. -/
def lift (m : Host σ ε α) : Search σ ε α := fun s =>
  match m s.1 with
  | (.ok a, s') => (.ok a, (s', s.2))
  | (.err e, s') => (.err (.raised e), (s', s.2))
  | (.panic, s') => (.panic, (s', s.2))
  | (.stuck, s') => (.stuck, (s', s.2))

def orNext (first next : Search σ ε α) : Search σ ε α := fun s =>
  match first s with
  | (.err .unfit, s') => next s'
  | r => r

/-- The mark stays where it is set. -/
def Sticky (r : Search σ ε α) : Prop := ∀ s, (r (s, true)).2.2 = true

theorem Sticky.bind {β : Type} {r : Search σ ε α} {g : α → Search σ ε β} (hr : r.Sticky)
    (hg : ∀ a, (g a).Sticky) : Sticky (r >>= g) := by
  intro s
  have hmark := hr s
  change (Host.bind r g (s, true)).2.2 = true
  unfold Host.bind
  generalize r (s, true) = x at hmark
  obtain ⟨o, s', b⟩ := x
  cases hmark
  cases o with
  | ok a => exact hg a s'
  | _ => rfl

theorem Sticky.orNext {r r' : Search σ ε α} (hr : r.Sticky) (hr' : r'.Sticky) :
    (r.orNext r').Sticky := by
  intro s
  have hmark := hr s
  unfold Search.orNext
  generalize r (s, true) = x at hmark
  obtain ⟨o, s', b⟩ := x
  cases hmark
  split
  · next heq =>
    cases heq
    exact hr' s'
  · rfl

/-- If no mark is set in the end, then none has been set by the first part. -/
theorem unmarked_of_bind {β : Type} {r : Search σ ε α} {g : α → Search σ ε β}
    (hg : ∀ a, (g a).Sticky) {x : σ × Bool} (h : ((r >>= g) x).2.2 = false) :
    (r x).2.2 = false := by
  change (Host.bind r g x).2.2 = false at h
  unfold Host.bind at h
  generalize r x = y at h ⊢
  obtain ⟨o, s, b⟩ := y
  cases o with
  | ok a =>
    cases b with
    | false => rfl
    | true => exact absurd h (by rw [hg a s]; nofun)
  | _ => exact h

theorem unmarked_of_orNext {r r' : Search σ ε α} (hr' : r'.Sticky) {x : σ × Bool}
    (h : (r.orNext r' x).2.2 = false) : (r x).2.2 = false := by
  unfold Search.orNext at h
  generalize r x = y at h ⊢
  obtain ⟨o, s, b⟩ := y
  split at h
  · next heq =>
    cases heq
    cases b with
    | false => rfl
    | true => exact absurd h (by rw [hr' s]; nofun)
  · exact h

end Search

/-- Goes on to `next` if the error of `first` passes the test. -/
def Host.orNext {σ ε α : Type} (mismatch : ε → Bool) (first next : Host σ ε α) :
    Host σ ε α := fun s =>
  match first s with
  | (.err e, s') => if mismatch e then next s' else (.err e, s')
  | r => r

section Lists

variable {M : Type → Type} [Monad M] {α β : Type}

def eachItem (f : α → M β) : List α → M (List β)
  | [] => pure []
  | a :: as => do
    let b ← f a
    let bs ← eachItem f as
    return b :: bs

/-- As long as `next` gives something, for `fuel` times at most. -/
def eachNext (stuck : M (List β)) (next : M (Option α)) (f : α → M β) : Nat → M (List β)
  | 0 => stuck
  | fuel + 1 => do
    match ← next with
    | none => return []
    | some a =>
      let b ← f a
      let bs ← eachNext stuck next f fuel
      return b :: bs

end Lists

/-! ## Agreement -/

section Sim

variable {σ ε α β : Type} (mismatch : ε → Bool) (Slip : ε → Prop)

/-- The same end in the same state. An error that says that something does not fit passes the
test, and one that was raised does not. -/
def Agrees (c : Outcome ε α × σ) (r : Outcome (Refusal ε) α × (σ × Bool)) : Prop :=
  c.2 = r.2.1 ∧
    match c.1, r.1 with
    | .ok a, .ok b => a = b
    | .err e, .err .unfit => mismatch e = true
    | .err e, .err (.raised e') => e = e' ∧ mismatch e = false ∧ ¬ Slip e
    | .panic, .panic => True
    | .stuck, .stuck => True
    | _, _ => False

structure Sim (c : Host σ ε α) (r : Search σ ε α) : Prop where
  sticky : ∀ s, (r (s, true)).2.2 = true
  agrees : ∀ s, (r (s, false)).2.2 = false → Agrees mismatch Slip (c s) (r (s, false))
  slips : ∀ s, (r (s, false)).2.2 = true → ∃ e, (c s).1 = .err e ∧ mismatch e = false ∧ Slip e

variable {mismatch Slip}

/-- The ends that agree. -/
inductive SameEnd (mismatch : ε → Bool) (Slip : ε → Prop) :
    Outcome ε α → Outcome (Refusal ε) α → Prop
  | ok (a : α) : SameEnd mismatch Slip (.ok a) (.ok a)
  | unfit {e : ε} : mismatch e = true → SameEnd mismatch Slip (.err e) (.err .unfit)
  | raised {e : ε} : mismatch e = false → ¬ Slip e → SameEnd mismatch Slip (.err e) (.err (.raised e))
  | panic : SameEnd mismatch Slip .panic .panic
  | stuck : SameEnd mismatch Slip .stuck .stuck

theorem Agrees.sameEnd {c : Outcome ε α × σ} {r : Outcome (Refusal ε) α × (σ × Bool)}
    (h : Agrees mismatch Slip c r) : c.2 = r.2.1 ∧ SameEnd mismatch Slip c.1 r.1 := by
  obtain ⟨o, s⟩ := c
  obtain ⟨o', s', b⟩ := r
  obtain ⟨hstate, hend⟩ := h
  refine ⟨hstate, ?_⟩
  dsimp only at hend
  split at hend
  · cases hend
    exact .ok _
  · exact .unfit hend
  · obtain ⟨rfl, he, hslip⟩ := hend
    exact .raised he hslip
  · exact .panic
  · exact .stuck
  · cases hend

/-- A slip is not what the search ends in. -/
theorem Sim.agrees_iff {c : Host σ ε α} {r : Search σ ε α} (h : Sim mismatch Slip c r) (s : σ) :
    Agrees mismatch Slip (c s) (r (s, false)) ↔ (r (s, false)).2.2 = false := by
  constructor
  · intro hagrees
    by_contra hmark
    obtain ⟨e, he, hmismatch, hslip⟩ := h.slips s (by simpa using hmark)
    have hends := hagrees.sameEnd.2
    rw [he] at hends
    generalize (r (s, false)).1 = o at hends
    cases hends with
    | unfit hfit => exact Bool.false_ne_true (hmismatch.symm.trans hfit)
    | raised _ hno => exact hno hslip
  · exact h.agrees s

namespace Sim

theorem pure (a : α) : Sim mismatch Slip (Pure.pure a : Host σ ε α) (Pure.pure a) where
  sticky _ := rfl
  agrees _ _ := ⟨rfl, rfl⟩
  slips _ h := nomatch h

theorem unfit {e : ε} (he : mismatch e = true) :
    Sim mismatch Slip (Host.throw e : Host σ ε α) Search.unfit where
  sticky _ := rfl
  agrees _ _ := ⟨rfl, he⟩
  slips _ h := nomatch h

theorem slip {e : ε} (he : mismatch e = false) (hs : Slip e) :
    Sim mismatch Slip (Host.throw e : Host σ ε α) (Search.mark >>= fun _ => Search.unfit) where
  sticky _ := rfl
  agrees _ h := nomatch h
  slips _ _ := ⟨e, rfl, he, hs⟩

theorem stuck : Sim mismatch Slip (Host.stuck : Host σ ε α) Host.stuck where
  sticky _ := rfl
  agrees _ _ := ⟨rfl, trivial⟩
  slips _ h := nomatch h

theorem lift {m : Host σ ε α} (hm : Fails (fun e => mismatch e = false ∧ ¬ Slip e) m) :
    Sim mismatch Slip m (Search.lift m) where
  sticky s := by
    unfold Search.lift
    split <;> rfl
  agrees s _ := by
    unfold Search.lift
    cases hms : m s with
    | mk o s' =>
      cases o with
      | ok a => exact ⟨rfl, rfl⟩
      | err e => exact ⟨rfl, rfl, hm s e (by rw [hms])⟩
      | panic => exact ⟨rfl, trivial⟩
      | stuck => exact ⟨rfl, trivial⟩
  slips s h := by
    unfold Search.lift at h
    split at h <;> cases h

section Bind

variable {c : Host σ ε α} {r : Search σ ε α} {f : α → Host σ ε β} {g : α → Search σ ε β} {s : σ}

theorem agrees_bind (h : Sim mismatch Slip c r) (hf : ∀ a, Sim mismatch Slip (f a) (g a))
    (hmark : ((r >>= g) (s, false)).2.2 = false) :
    Agrees mismatch Slip ((c >>= f) s) ((r >>= g) (s, false)) := by
  have hfirst := Search.unmarked_of_bind (fun a => (hf a).sticky) hmark
  obtain ⟨hstate, hends⟩ := (h.agrees s hfirst).sameEnd
  change (Host.bind r g (s, false)).2.2 = false at hmark
  change Agrees mismatch Slip (Host.bind c f s) (Host.bind r g (s, false))
  unfold Host.bind at hmark ⊢
  generalize c s = x at hstate hends ⊢
  generalize r (s, false) = y at hfirst hstate hends hmark ⊢
  obtain ⟨o, s'⟩ := x
  obtain ⟨o', t, b⟩ := y
  cases hstate
  cases hfirst
  cases hends with
  | ok a => exact (hf a).agrees s' hmark
  | unfit he => exact ⟨rfl, he⟩
  | raised he hslip => exact ⟨rfl, rfl, he, hslip⟩
  | panic => exact ⟨rfl, trivial⟩
  | stuck => exact ⟨rfl, trivial⟩

theorem slips_bind (h : Sim mismatch Slip c r) (hf : ∀ a, Sim mismatch Slip (f a) (g a))
    (hmark : ((r >>= g) (s, false)).2.2 = true) :
    ∃ e, ((c >>= f) s).1 = .err e ∧ mismatch e = false ∧ Slip e := by
  change (Host.bind r g (s, false)).2.2 = true at hmark
  change ∃ e, (Host.bind c f s).1 = .err e ∧ _
  unfold Host.bind at hmark ⊢
  cases hfirst : (r (s, false)).2.2 with
  | true =>
    -- the first part has slipped, and its error ends the code
    obtain ⟨e, he, hslip⟩ := h.slips s hfirst
    refine ⟨e, ?_, hslip⟩
    generalize c s = x at he
    obtain ⟨o, s'⟩ := x
    cases he
    rfl
  | false =>
    obtain ⟨hstate, hends⟩ := (h.agrees s hfirst).sameEnd
    generalize c s = x at hstate hends ⊢
    generalize r (s, false) = y at hfirst hstate hends hmark
    obtain ⟨o, s'⟩ := x
    obtain ⟨o', t, b⟩ := y
    cases hstate
    cases hfirst
    cases hends with
    | ok a => exact (hf a).slips s' hmark
    | _ => cases hmark

theorem bind (h : Sim mismatch Slip c r) (hf : ∀ a, Sim mismatch Slip (f a) (g a)) :
    Sim mismatch Slip (c >>= f) (r >>= g) where
  sticky := Search.Sticky.bind h.sticky fun a => (hf a).sticky
  agrees _ := agrees_bind h hf
  slips _ := slips_bind h hf

end Bind

section OrNext

variable {c c' : Host σ ε α} {r r' : Search σ ε α} {s : σ}

theorem agrees_orNext (h : Sim mismatch Slip c r) (h' : Sim mismatch Slip c' r')
    (hmark : (r.orNext r' (s, false)).2.2 = false) :
    Agrees mismatch Slip (c.orNext mismatch c' s) (r.orNext r' (s, false)) := by
  have hfirst := Search.unmarked_of_orNext h'.sticky hmark
  obtain ⟨hstate, hends⟩ := (h.agrees s hfirst).sameEnd
  unfold Search.orNext Host.orNext at *
  generalize c s = x at hstate hends ⊢
  generalize r (s, false) = y at hfirst hstate hends hmark ⊢
  obtain ⟨o, s'⟩ := x
  obtain ⟨o', t, b⟩ := y
  cases hstate
  cases hfirst
  cases hends with
  | ok a => exact ⟨rfl, rfl⟩
  | unfit he =>
    simp only [he, if_true]
    exact h'.agrees s' hmark
  | raised he hslip =>
    simp only [he, Bool.false_eq_true, if_false]
    exact ⟨rfl, rfl, he, hslip⟩
  | panic => exact ⟨rfl, trivial⟩
  | stuck => exact ⟨rfl, trivial⟩

theorem slips_orNext (h : Sim mismatch Slip c r) (h' : Sim mismatch Slip c' r')
    (hmark : (r.orNext r' (s, false)).2.2 = true) :
    ∃ e, (c.orNext mismatch c' s).1 = .err e ∧ mismatch e = false ∧ Slip e := by
  unfold Search.orNext at hmark
  unfold Host.orNext
  cases hfirst : (r (s, false)).2.2 with
  | true =>
    obtain ⟨e, he, hmismatch, hslip⟩ := h.slips s hfirst
    refine ⟨e, ?_, hmismatch, hslip⟩
    generalize c s = x at he
    obtain ⟨o, s'⟩ := x
    cases he
    simp [hmismatch]
  | false =>
    obtain ⟨hstate, hends⟩ := (h.agrees s hfirst).sameEnd
    generalize c s = x at hstate hends ⊢
    generalize r (s, false) = y at hfirst hstate hends hmark
    obtain ⟨o, s'⟩ := x
    obtain ⟨o', t, b⟩ := y
    cases hstate
    cases hfirst
    cases hends with
    | unfit he =>
      simp only [he, if_true]
      exact h'.slips s' hmark
    | _ => cases hmark

/-- The code and the search go on together, and stop together. -/
theorem orNext (h : Sim mismatch Slip c r) (h' : Sim mismatch Slip c' r') :
    Sim mismatch Slip (Host.orNext mismatch c c') (Search.orNext r r') where
  sticky := Search.Sticky.orNext h.sticky h'.sticky
  agrees _ := agrees_orNext h h'
  slips _ := slips_orNext h h'

end OrNext

theorem eachItem {f : α → Host σ ε β} {g : α → Search σ ε β}
    (hf : ∀ a, Sim mismatch Slip (f a) (g a)) (as : List α) :
    Sim mismatch Slip (GuestPy.eachItem f as) (GuestPy.eachItem g as) := by
  induction as with
  | nil => exact Sim.pure []
  | cons a as ih => exact (hf a).bind fun b => ih.bind fun bs => Sim.pure (b :: bs)

theorem eachNext {next : Host σ ε (Option α)} {next' : Search σ ε (Option α)}
    {f : α → Host σ ε β} {g : α → Search σ ε β} (hnext : Sim mismatch Slip next next')
    (hf : ∀ a, Sim mismatch Slip (f a) (g a)) (fuel : Nat) :
    Sim mismatch Slip (GuestPy.eachNext Host.stuck next f fuel)
      (GuestPy.eachNext Host.stuck next' g fuel) := by
  induction fuel with
  | zero => exact Sim.stuck
  | succ fuel ih =>
    refine hnext.bind fun a => ?_
    cases a with
    | none => exact Sim.pure []
    | some a => exact (hf a).bind fun b => ih.bind fun bs => Sim.pure (b :: bs)

end Sim

end Sim

end GuestPy
