import GuestPy.Library.Host

/-!
# Open systems

A system performs operations on a state. While it does, it calls out to an environment,
and the environment may perform further operations before it answers.

* `Prog` is what an environment does on a call: it issues operations, sees what became of
  each, and ends with an answer.
* `System.perform` runs an operation against an environment, which chooses its program
  from the whole state. Fuel bounds how deep operations nest.
* `run_answers` and `callout_answers` say that a program, or a call, comes to one of its answers
  if the operations that it performs come to an end.
* `System.keeps_perform` is the rule of this library: if every operation keeps a
  discipline provided the calls it makes do, then it does so against every environment, at
  every nesting. `System.returns_perform` is the same for operations that come back along a
  frame.
-/

namespace GuestPy

/-- A program that issues operations and sees their replies. -/
inductive Prog (Op ρ α : Type) where
  | ret (a : α)
  | call (op : Op) (next : ρ → Prog Op ρ α)

variable {σ ε Op ρ Call Answer α : Type}

/-- However its operations turn out, the program ends in `P`. -/
def Prog.Answers (P : α → Prop) : Prog Op ρ α → Prop
  | .ret a => P a
  | .call _ next => ∀ r, (next r).Answers P

def Prog.run (perform : Op → Host σ ε ρ) : Prog Op (Reply ε ρ) α → Host σ ε α
  | .ret a => Host.pure a
  | .call op next => Host.bind (Host.observe (perform op)) fun r => (next r).run perform

/-- The environment of a system: what it does on a call, given the state it is called in. -/
abbrev Environment (σ ε Op ρ Call Answer : Type) : Type :=
  σ → Call → Prog Op (Reply ε ρ) (Except ε Answer)

/-- A system: how an operation is performed, given a way to call out, and what a call
itself does to the state. -/
structure System (σ ε Op ρ Call Answer : Type) where
  body : (Call → Host σ ε Answer) → Op → Host σ ε ρ
  tick : σ → σ

namespace System

variable (S : System σ ε Op ρ Call Answer) (env : Environment σ ε Op ρ Call Answer)

/-- A call: the environment answers it, with `perform` at hand. -/
def callout (perform : Op → Host σ ε ρ) (c : Call) : Host σ ε Answer := do
  let s ← Host.get
  Host.modify S.tick
  let answer ← (env s c).run perform
  Host.ofExcept answer

def perform : Nat → Op → Host σ ε ρ
  | 0, _ => Host.stuck
  | fuel + 1, op => S.body (S.callout env (perform fuel)) op

variable {S env} {D : Discipline σ}

theorem keeps_run {perform : Op → Host σ ε ρ} {P : ρ → σ → Prop}
    (h : ∀ op s, Keeps D s (perform op) P)
    (p : Prog Op (Reply ε ρ) α) (s : σ) : Keeps D s (p.run perform) fun _ _ => True := by
  induction p generalizing s with
  | ret a => exact Keeps.pure trivial
  | call op next ih => exact Keeps.bind (Keeps.observe (h op s)) fun r s' _ _ => ih r s'

theorem keeps_callout {perform : Op → Host σ ε ρ} {P : ρ → σ → Prop}
    (htick : ∀ s, D.inv s → D.inv (S.tick s)) (hfut : ∀ s, D.future s (S.tick s))
    (h : ∀ op s, Keeps D s (perform op) P) (c : Call) (s : σ) :
    Keeps D s (S.callout env perform c) fun _ _ => True := by
  refine Keeps.get (Keeps.bind (Keeps.modify (R := fun _ _ => True) (htick s) (hfut s) trivial)
    fun _ s' _ _ => ?_)
  refine Keeps.bind (keeps_run h (env s c) s') fun answer s' _ _ => ?_
  exact Keeps.ofExcept fun _ _ => trivial

/-- **Open systems keep a discipline that each operation keeps when its calls do.** -/
theorem keeps_perform (htick : ∀ s, D.inv s → D.inv (S.tick s))
    (hfut : ∀ s, D.future s (S.tick s))
    (hbody : ∀ callout : Call → Host σ ε Answer,
      (∀ c s, Keeps D s (callout c) fun _ _ => True) →
        ∀ op s, Keeps D s (S.body callout op) fun _ _ => True)
    (fuel : Nat) (op : Op) (s : σ) : Keeps D s (S.perform env fuel op) fun _ _ => True := by
  induction fuel generalizing op s with
  | zero => exact Keeps.stuck
  | succ fuel ih => exact hbody _ (fun c s => keeps_callout htick hfut ih c s) op s

/-! ### Operations that come to an end -/

/-- The operations of a list, one after another, and what became of each. -/
def replies (perform : Op → Host σ ε ρ) : List Op → Host σ ε (List (Reply ε ρ))
  | [] => Host.pure []
  | op :: ops => Host.bind (Host.observe (perform op)) fun r =>
      Host.bind (replies perform ops) fun rs => Host.pure (r :: rs)

theorem bind_of_ok {β : Type} {m : Host σ ε α} {f : α → Host σ ε β} {s s' : σ} {a : α}
    (h : m s = (.ok a, s')) : Host.bind m f s = f a s' := by
  unfold Host.bind
  rw [h]

theorem observe_guarded (m : Host σ ε α) (release : σ → σ) (s : σ) :
    Host.observe (Host.guarded m release) s =
      ((Host.observe m s).1, release (Host.observe m s).2) := by
  unfold Host.observe Host.guarded
  rcases m s with ⟨o, s'⟩
  cases o <;> rfl

theorem observe_bind_of_ok {β : Type} {m : Host σ ε α} {f : α → Host σ ε β} {s s' : σ} {a : α}
    (h : m s = (.ok a, s')) : Host.observe (m >>= f) s = Host.observe (f a) s' := by
  change Host.observe (Host.bind m f) s = _
  unfold Host.observe
  rw [bind_of_ok h]

theorem replies_cons {perform : Op → Host σ ε ρ} {op : Op} {ops : List Op} {s s₁ s' : σ}
    {r : Reply ε ρ} {rs : List (Reply ε ρ)} (hop : Host.observe (perform op) s = (.ok r, s₁))
    (hops : replies perform ops s₁ = (.ok rs, s')) :
    replies perform (op :: ops) s = (.ok (r :: rs), s') :=
  (bind_of_ok hop).trans (bind_of_ok hops)

/-- A program comes to one of its answers, if its operations come to an end. -/
theorem run_answers {perform : Op → Host σ ε ρ} {I : σ → Prop} {P : α → Prop}
    (h : ∀ op s, I s → (perform op s).1 ≠ .stuck ∧ I (perform op s).2)
    {p : Prog Op (Reply ε ρ) α} (hp : p.Answers P) {s : σ} (hs : I s) :
    ∃ a s', P a ∧ I s' ∧ p.run perform s = (.ok a, s') := by
  induction p generalizing s with
  | ret a => exact ⟨a, s, hp, hs, rfl⟩
  | call op next ih =>
    obtain ⟨hstuck, hI⟩ := h op s hs
    rcases hrun : perform op s with ⟨o, s'⟩
    rw [hrun] at hstuck hI
    have hobserve : ∃ r, Host.observe (perform op) s = (.ok r, s') := by
      unfold Host.observe
      rw [hrun]
      cases o with
      | ok a => exact ⟨.ok a, rfl⟩
      | err e => exact ⟨.err e, rfl⟩
      | panic => exact ⟨.panic, rfl⟩
      | stuck => exact absurd rfl hstuck
    obtain ⟨r, hr⟩ := hobserve
    obtain ⟨a, s'', ha, hs'', hnext⟩ := ih r (hp r) hI
    exact ⟨a, s'', ha, hs'', (bind_of_ok hr).trans hnext⟩

/-- So does a call. -/
theorem callout_answers {perform : Op → Host σ ε ρ} {I : σ → Prop} {P : Except ε Answer → Prop}
    (htick : ∀ s, I s → I (S.tick s))
    (h : ∀ op s, I s → (perform op s).1 ≠ .stuck ∧ I (perform op s).2) {c : Call} {s : σ}
    (hc : (env s c).Answers P) (hs : I s) :
    ∃ a s', P a ∧ I s' ∧ S.callout env perform c s = Host.ofExcept a s' := by
  obtain ⟨a, s', ha, hs', hrun⟩ := run_answers h hc (htick s hs)
  exact ⟨a, s', ha, hs', bind_of_ok hrun⟩

/-! ### Operations that mend what they break -/

section Framed

variable {F : Framing σ} (hunwound : ∀ s, ¬ D.unwound s)

include hunwound

theorem returns_run {perform : Op → Host σ ε ρ}
    (h : ∀ op s, Returns D F s (perform op) fun _ _ => True)
    (p : Prog Op (Reply ε ρ) α) (s : σ) : Returns D F s (p.run perform) fun _ _ => True := by
  induction p generalizing s with
  | ret a => exact Returns.pure trivial
  | call op next ih =>
    exact Returns.bind (Returns.observe (h op s) hunwound) fun r s' _ _ => ih r s'

theorem returns_callout {perform : Op → Host σ ε ρ}
    (htick : ∀ s, D.inv s → D.inv (S.tick s)) (hfut : ∀ s, D.future s (S.tick s))
    (hframe : ∀ s, F.rel s (S.tick s))
    (h : ∀ op s, Returns D F s (perform op) fun _ _ => True) (c : Call) (s : σ) :
    Returns D F s (S.callout env perform c) fun _ _ => True := by
  apply Returns.get
  apply Returns.bind (Returns.modify (R := fun _ _ => True) (htick s) (hfut s) (hframe s) trivial)
  intro _ s' _ _
  apply Returns.bind (returns_run hunwound h (env s c) s')
  exact fun _ _ _ _ => Returns.ofExcept fun _ _ => trivial

/-- **An open system whose operations come back along a frame, provided the calls they make
do, comes back along it against every environment, at every nesting.** -/
theorem returns_perform (htick : ∀ s, D.inv s → D.inv (S.tick s))
    (hfut : ∀ s, D.future s (S.tick s)) (hframe : ∀ s, F.rel s (S.tick s))
    (hbody : ∀ callout : Call → Host σ ε Answer,
      (∀ c s, Returns D F s (callout c) fun _ _ => True) →
        ∀ op s, Returns D F s (S.body callout op) fun _ _ => True)
    (fuel : Nat) (op : Op) (s : σ) :
    Returns D F s (S.perform env fuel op) fun _ _ => True := by
  induction fuel generalizing op s with
  | zero => exact Ends.stuck trivial
  | succ fuel ih =>
    exact hbody _ (fun c s => returns_callout hunwound htick hfut hframe ih c s) op s

end Framed

end System

end GuestPy
