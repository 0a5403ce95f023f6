import GuestPy.Driver.History

/-!
# Drivers keep their discipline

One lemma for each function of the slot, the host futures and the event loop.
Each keeps the invariant if the code it calls does, and says what its callers need.

* `safe_withDriver`: whatever runs while the driver is borrowed, the driver is still there
  when the borrow ends.
* `PendingHostFutures.safe_publish`: what `publish` records of a batch is lawful.
-/

namespace GuestPy.Driver

open PendingHostFutures (python)
open AsyncDriverSlot

variable {α : Type} {w : World}

/-! ## Recording -/

theorem safe_log {e : Event} (he : e.Lawful w.events) :
    Safe w (Host.modify (World.log e)) fun _ w' => w' = w.log e :=
  Keeps.modify (inv_log he) (later_log e) rfl

/-- A failed assertion that is explained. -/
theorem safe_panicBecause {cause : Cause} {Q : α → World → Prop}
    (h : (Event.panicked cause).Lawful w.events) : Safe w (panicBecause cause) Q := by
  apply Keeps.bind (safe_log h)
  rintro _ _ _ rfl
  exact Keeps.panic ⟨cause, List.mem_cons_self⟩

/-! ## The slot -/

theorem safe_isInitialized (hu : Unlocked w) :
    Safe w isInitialized fun b w' => w' = w ∧ b = w.driver.isSome := by
  apply Keeps.get
  apply Keeps.ite
  · exact fun hw => safe_panicBecause (Or.inl (hu hw))
  · exact fun _ => Keeps.pure ⟨rfl, rfl⟩

theorem safe_expectDriver (hu : Unlocked w) (hf : Filled w) :
    Safe w expectDriver fun _ w' => w' = w := by
  apply Keeps.bind (safe_isInitialized hu)
  rintro b _ _ ⟨rfl, hb⟩
  apply Keeps.ite
  · exact fun _ => Keeps.pure rfl
  · intro hne
    apply safe_panicBecause
    rcases hf with hf | hf
    · exact absurd (hb.trans hf) hne
    · exact hf

/-- The driver is still there when it has been used. -/
theorem safe_withDriver {m : Host World Err α} {Q : α → World → Prop} (hu : Unlocked w)
    (hf : Filled w) (hm : w.driver.isSome = true → Safe w.borrow m Q)
    (hQ : ∀ a w', Q a w' → Q a w'.unborrow) :
    Safe w (withDriver m) fun a w' => Q a w' ∧ w'.driver.isSome = true := by
  apply Keeps.get
  apply Keeps.ite
  · exact fun hw => safe_panicBecause (Or.inl (hu hw))
  · intro _
    apply Keeps.ite
    · intro hd
      refine Keeps.guarded rfl (inv_borrow hd) (Keeps.inv (hm hd)) ?_ ?_ fun _ h => h
      · exact fun t ht hlater => ⟨inv_unborrow ht, hlater.unborrow⟩
      · rintro a t hlater ⟨ha, ht⟩
        have hborrows : t.borrows = w.borrows + 1 := hlater.borrows
        exact ⟨hQ a t ha, ht.borrowed (by omega)⟩
    · intro hd
      apply safe_panicBecause
      rcases hf with hf | hf
      · exact absurd hf hd
      · exact hf

theorem safe_attempt {m : Host World Err α} (hm : Safe w m fun _ _ => True) :
    Safe w (Host.attempt m) fun _ _ => True :=
  Keeps.attempt hm fun _ _ _ => trivial

/-! ## Setting results

What `publish` does with a batch, along any frame in which a result may be set and stays set. -/

namespace PendingHostFutures

structure Resolves (D : Discipline World) (F : Framing World) : Prop where
  inv : ∀ {w x}, w.futures x = .pending → D.inv w → D.inv (w.resolve x)
  future : ∀ w x, D.future w (w.resolve x)
  frame : ∀ w x, F.rel w (w.resolve x)
  done : ∀ {w w'} x, F.rel w w' → w.futures x ≠ .pending → w'.futures x ≠ .pending

section Resolving

variable {D : Discipline World} {F : Framing World} (hD : Resolves D F)
  {callout : Call → Host World Err Answer}
  (hcall : ∀ c w, Returns D F w (callout c) fun _ _ => True)

include hcall

theorem returns_python (what : String) : Returns D F w (python callout what) fun _ _ => True :=
  Returns.bind (hcall _ w) fun _ _ _ _ => Returns.pure trivial

include hD

theorem returns_set (x : Nat) :
    Returns D F w (set callout x) fun _ w' => w'.futures x ≠ .pending := by
  apply Returns.get
  apply Returns.ite
  · intro hx
    have hdone : (w.resolve x).futures x ≠ .pending := by
      show Function.update w.futures x .done x ≠ .pending
      rw [Function.update_self]
      decide
    apply Returns.bind (Returns.modify (R := fun _ w1 => w1.futures x ≠ .pending)
      (hD.inv hx) (hD.future w x) (hD.frame w x) hdone)
    intro _ w1 _ h1
    exact (returns_python hcall _).mono fun _ _ h2 _ => hD.done x h2 h1
  · exact fun _ => Returns.throw

theorem returns_deliver (c : Completed) :
    Returns D F w (deliver callout c) fun _ w' => w'.futures c.future ≠ .pending := by
  unfold deliver
  split
  · apply Returns.bind (returns_python hcall _)
    intro _ w1 _ _
    apply Returns.bind (hcall _ w1)
    intro _ w2 _ _
    apply Returns.bind (returns_python hcall _)
    exact fun _ _ _ _ => returns_set hD hcall c.future
  · apply Returns.bind (returns_python hcall _)
    intro _ w1 _ _
    apply Returns.bind (Returns.attempt (R := fun _ _ => True) (hcall _ w1)
      fun _ _ _ => trivial)
    intro _ w2 _ _
    apply Returns.bind (returns_python hcall _)
    exact fun _ _ _ _ => returns_set hD hcall c.future

/-- An entry on which no step fails is done. -/
theorem returns_publishEntry (c : Completed) :
    Returns D F w (publishEntry callout c) fun _ w' => w'.futures c.future ≠ .pending := by
  apply Returns.bind (returns_python hcall _)
  intro _ w1 _ _
  apply Returns.get
  apply Returns.ite
  · intro hc
    apply Returns.pure
    rw [hc]
    decide
  · exact fun _ => returns_deliver hD hcall c

theorem returns_publishEntries (batch : List Completed) :
    Returns D F w (publishEntries callout batch) fun r w' =>
      r.1 ++ r.2.1 = batch ∧ ∀ c ∈ r.1, w'.futures c.future ≠ .pending := by
  induction batch generalizing w with
  | nil => exact Returns.pure ⟨rfl, fun _ hc => nomatch hc⟩
  | cons c rest ih =>
    apply Returns.bind (Returns.attempt
      (R := fun r w1 => (∃ u, r = .ok u) → w1.futures c.future ≠ .pending)
      ((returns_publishEntry hD hcall c).mono fun _ _ _ hdone _ => hdone)
      fun e _ _ ⟨_, he⟩ => nomatch he)
    intro r w1 _ hdone
    cases r with
    | error e => exact Returns.pure ⟨rfl, fun _ hc => nomatch hc⟩
    | ok u =>
      apply Returns.bind ih
      rintro ⟨handled, left, failed⟩ w2 h2 ⟨hsplit, hhandled⟩
      apply Returns.pure
      refine ⟨congrArg (c :: ·) hsplit, ?_⟩
      intro c' hc'
      rcases List.mem_cons.1 hc' with rfl | hc'
      · exact hD.done _ h2 (hdone ⟨u, rfl⟩)
      · exact hhandled c' hc'

end Resolving

end PendingHostFutures

section Calls

variable {callout : Call → Host World Err Answer}
  (hcall : ∀ c w, Safe w (callout c) fun _ _ => True)

include hcall

theorem safe_python (what : String) : Safe w (python callout what) fun _ _ => True :=
  Keeps.bind (hcall _ w) fun _ _ _ _ => Keeps.pure trivial

theorem safe_assign (hu : Unlocked w) (hb : w.borrows = 0) :
    Safe w (assign callout) fun _ w' => w'.driver.isSome = true := by
  apply Keeps.get
  apply Keeps.ite
  · intro h
    apply safe_panicBecause
    rcases h with h | h
    · exact absurd hb h
    · exact Or.inl (hu h)
  · intro h
    have hw : w.writing = false := by
      by_contra hne
      exact h (Or.inr (Bool.not_eq_false _ ▸ hne))
    apply Keeps.ite
    · intro _
      refine Keeps.guarded rfl inv_startWriting (Q := fun _ _ => True) ?_ ?_ ?_ fun _ h => h
      · exact Keeps.bind (safe_attempt (hcall _ _)) fun _ _ _ _ => Keeps.pure trivial
      · exact fun t ht hlater => ⟨inv_install ht, hlater.install hw⟩
      · exact fun _ _ _ _ => rfl
    · exact fun _ => Keeps.modify inv_install (later_install hw) rfl

/-- There is a driver once it has been ensured. -/
theorem safe_ensure (hu : Unlocked w) :
    Safe w (ensure callout) fun _ w' => w'.driver.isSome = true := by
  apply Keeps.assume
  intro hw
  apply Keeps.bind (safe_isInitialized hu)
  rintro b _ _ ⟨rfl, hb⟩
  apply Keeps.ite
  · exact fun h => Keeps.pure (hb.symm.trans h)
  · intro h
    apply Keeps.bind (hcall _ _)
    intro _ w' hlater _
    apply safe_assign hcall (hu.later hlater)
    rw [hlater.borrows]
    by_contra hne
    exact h (hb.trans (hw.borrowed hne))

omit hcall in
theorem inUse_of_open (h : Inv w) {i : Nat} {o : Operation} (ho : w.operations i = some o)
    (hopen : o.stage.isOpen = true) : w.inUse = true := by
  apply List.any_eq_true.2
  refine ⟨i, List.mem_range.2 (h.started i o ho), ?_⟩
  rw [ho]
  exact hopen

/-- Taking the driver while it is borrowed fails, and taking it while it is in use is noted. -/
theorem safe_take (hu : Unlocked w) : Safe w (take callout) fun _ _ => True := by
  apply Keeps.assume
  intro hw
  apply Keeps.get
  apply Keeps.bind (safe_log (e := .taking _ _) trivial)
  rintro _ _ _ rfl
  apply Keeps.ite
  · intro h
    apply safe_panicBecause
    rcases h with h | h
    · refine Or.inr ⟨w.inUse, ?_⟩
      rw [show decide (w.borrows ≠ 0) = true from decide_eq_true h]
      exact List.mem_cons_self
    · exact Or.inl (List.mem_cons_of_mem _ (hu h))
  · intro h
    have hb : w.borrows = 0 := by
      by_contra hne
      exact h (Or.inl hne)
    apply Keeps.bind (Keeps.modify (R := fun _ _ => True) ?_ ?_ trivial)
    · intro _ _ _ _
      exact Keeps.bind (safe_attempt (hcall _ _)) fun _ _ _ _ => Keeps.pure trivial
    · apply inv_vacate (w := w.log _) hb
      intro i o ho hopen
      refine Or.inr ⟨decide (w.borrows ≠ 0), ?_⟩
      rw [inUse_of_open hw ho hopen]
      exact List.mem_cons_self
    · exact later_vacate

/-! ## Host futures -/

namespace PendingHostFutures

theorem safe_register : Safe w (register callout) fun _ _ => True := by
  apply Keeps.bind (safe_python hcall _)
  intro _ w' _ _
  apply Keeps.get
  apply Keeps.bind (Keeps.modify (R := fun _ _ => True) inv_register later_register trivial)
  exact fun _ _ _ _ => Keeps.pure trivial

/-- From `w` to `w'`, the sweep `n` with the waker `cx` has gone on. -/
structure Sweeping (n : Nat) (cx : Waker) (w w' : World) : Prop where
  swept : SweptWith w' n cx
  sweepAt : w'.ledger.sweepAt n = w.ledger.sweepAt n
  flying : w.ledger.flying <:+ w'.ledger.flying
  polled : ∀ x, PolledSince w n x → PolledSince w' n x

omit hcall in
theorem Sweeping.trans {n : Nat} {cx : Waker} {w w' w'' : World} (h : Sweeping n cx w w')
    (h' : Sweeping n cx w' w'') : Sweeping n cx w w'' where
  swept := h'.swept
  sweepAt := h'.sweepAt.trans h.sweepAt
  flying := h.flying.trans h'.flying
  polled x hx := h'.polled x (h.polled x hx)

omit hcall in
theorem Sweeping.of_later {n : Nat} {cx : Waker} {w w' : World} (hn : SweptWith w n cx)
    (h : Later w w') : Sweeping n cx w w' where
  swept := hn.later h
  sweepAt := h.sweepAt n hn.begun
  flying := h.flying
  polled _ hx := hx.later (Nat.le_of_lt hn.begun) h

/-- While a sweep is going on, the state stays in the future of `t`, where it began. -/
abbrev Stays {α : Type} (t w : World) (m : Host World Err α) (Q : α → World → Prop) : Prop :=
  Keeps (discipline.within (Later t)) w m Q

variable {t : World}

omit hcall in
theorem stays_modify {f : World → World} (hinv : Inv w → Inv (f w))
    (hlater : Later t w → Later t (f w)) :
    Stays t w (Host.modify f) fun _ w' => w' = f w :=
  Keeps.modify (fun h => ⟨hinv h.1, hlater h.2⟩) trivial rfl

theorem stays_pollHost {x n : Nat} {cx : Waker} (ht : t.ledger.sweeps ≤ n)
    (hn : SweptWith w n cx) :
    Stays t w (pollHost callout x cx n) fun _ w' => Sweeping n cx w w' ∧ PolledSince w' n x := by
  apply Keeps.bind (stays_modify (inv_give · hn) (·.give x cx ht))
  rintro _ _ - rfl
  have hgive : Sweeping n cx w (w.give x cx n) :=
    ⟨⟨hn.begun, hn.waker⟩, rfl, List.suffix_refl _, fun _ hy => hy.give x cx⟩
  apply Keeps.bind ((safe_attempt (hcall _ _)).within fun _ h h' => h'.trans h)
  rintro r w2 - ⟨-, h2⟩
  have hcalled : Sweeping n cx (w.give x cx n) w2 := .of_later hgive.swept h2
  have hx : PolledSince w2 n x := hcalled.polled x (polledSince_give x n cx)
  cases r <;> exact Keeps.pure ⟨hgive.trans hcalled, hx⟩

/-- Whatever the polls of a batch do, each is given the waker of the sweep. -/
theorem stays_pollEntries {n : Nat} {cx : Waker} (batch : List Nat) (ht : t.ledger.sweeps ≤ n)
    (hn : SweptWith w n cx) :
    Stays t w (pollEntries callout cx n batch) fun r w' =>
      Sweeping n cx w w' ∧ (∀ x ∈ batch, PolledSince w' n x) ∧ (∀ x ∈ r.1, x ∈ batch) ∧
        r.1.length + r.2.length = batch.length := by
  induction batch generalizing w with
  | nil =>
    exact Keeps.pure ⟨.of_later hn (Later.refl w), fun _ hx => (List.not_mem_nil hx).elim,
      fun _ hx => hx, rfl⟩
  | cons x rest ih =>
    apply Keeps.bind (stays_pollHost hcall ht hn)
    rintro r w1 - ⟨h1, hx⟩
    cases r with
    | none =>
      apply Keeps.bind (ih h1.swept)
      rintro ⟨entries, ready⟩ w2 - ⟨h2, hrest, hsub, hlength⟩
      refine Keeps.pure ⟨h1.trans h2, ?_, ?_, ?_⟩
      · exact List.forall_mem_cons.2 ⟨h2.polled x hx, hrest⟩
      · exact List.forall_mem_cons.2
          ⟨List.mem_cons_self, fun y hy => List.mem_cons_of_mem _ (hsub y hy)⟩
      · simp only [List.length_cons] at hlength ⊢
        omega
    | some outcome =>
      apply Keeps.bind (stays_modify (inv_finish x) (·.trans (later_finish x)))
      rintro _ _ - rfl
      have hfinish : Sweeping n cx w1 (w1.finish x) := .of_later h1.swept (later_finish x)
      apply Keeps.bind (ih hfinish.swept)
      rintro ⟨entries, ready⟩ w3 - ⟨h3, hrest, hsub, hlength⟩
      refine Keeps.pure ⟨(h1.trans hfinish).trans h3, ?_, ?_, ?_⟩
      · exact List.forall_mem_cons.2 ⟨h3.polled x (hfinish.polled x hx), hrest⟩
      · exact fun y hy => List.mem_cons_of_mem _ (hsub y hy)
      · simp only [List.length_cons] at hlength ⊢
        omega

/-- A sweep has polled what it found in the queue. -/
theorem safe_pollAll (cx : Waker) :
    Safe w (pollAll callout cx) fun n w' => Polled w' n cx := by
  apply Keeps.of_within
  apply Keeps.get
  apply Keeps.bind (stays_modify (inv_takeEntries cx) (·.trans (later_takeEntries cx)))
  rintro _ _ - rfl
  apply Keeps.bind (stays_pollEntries hcall w.pending.entries (Nat.le_refl _)
    (sweptWith_takeEntries cx))
  rintro ⟨entries, ready⟩ w2 - ⟨h2, hbatch, hsub, hlength⟩
  apply Keeps.assume
  rintro ⟨-, hlater⟩
  have hsettle : Later w (w2.settle entries ready) := hlater.settle h2.flying hsub hlength
  apply Keeps.bind (stays_modify (inv_settle entries ready) fun _ => hsettle)
  rintro _ _ - rfl
  have hbegun := h2.sweepAt.trans (sweepAt_takeEntries cx)
  refine Keeps.pure { h2.swept with registered := ?_, polled := ?_ }
  · show (w2.ledger.sweepAt w.ledger.sweeps).registered ≤ _
    rw [hbegun]
    exact hsettle.registered
  · show ∀ x ∈ _, x < (w2.ledger.sweepAt w.ledger.sweeps).registered →
      x ∉ (w2.ledger.sweepAt w.ledger.sweeps).out → _
    rw [hbegun]
    intro x hx hlt hout
    obtain ⟨hbefore, -⟩ := List.mem_filter.1 (hsettle.outstanding x hlt hx)
    exact hbatch x ((List.mem_append.1 hbefore).resolve_right hout)

/-! ### Publishing -/

omit hcall in
theorem resolves_discipline : Resolves discipline discipline.frame where
  inv := inv_resolve
  future _ := later_resolve
  frame _ := later_resolve
  done h hw := hw.futures h

omit hcall in
/-- An entry that was drained has left the queue for good. -/
theorem not_queued (h : Inv w) {c : Completed} (hc : w.ledger.drained c.ticket = true) :
    (w.fate c).queued = false := by
  show (w.pending.ready.any fun c' => c'.ticket == c.ticket) = false
  rw [List.any_eq_false]
  intro c' hc' hsame
  have hnot := (h.ticketed.queued c' hc').2
  rw [beq_iff_eq.1 hsame, hc] at hnot
  cases hnot

theorem safe_publish : Safe w (publish callout) fun _ _ => True := by
  apply Keeps.get
  apply Keeps.bind (Keeps.modify
    (R := fun _ w1 => ∀ c ∈ w.pending.ready, w1.ledger.drained c.ticket = true)
    inv_drainReady later_drainReady fun _ hc => drained_drainReady hc)
  intro _ w1 _ hdrained
  have hentries := returns_publishEntries (w := w1) resolves_discipline
    (fun c w => Returns.of_keeps (hcall c w)) w.pending.ready
  apply Keeps.bind hentries.keeps.inv
  rintro ⟨handled, left, failed⟩ w2 h2 ⟨⟨hsplit, hhandled⟩, hw2⟩
  have hlawful : (Event.published (handled.map w2.fate) (left.map w2.fate)).Lawful w2.events := by
    constructor
    · intro f hf
      obtain ⟨c, hc, rfl⟩ := List.mem_map.1 hf
      exact decide_eq_true (hhandled c hc)
    · intro f hf
      rw [← List.map_append] at hf
      obtain ⟨c, hc, rfl⟩ := List.mem_map.1 hf
      have hbatch : c ∈ w.pending.ready := hsplit ▸ hc
      exact ⟨not_queued hw2 (h2.drained _ (hdrained c hbatch)), (hw2.resolved c.future).1⟩
  apply Keeps.bind (Keeps.modify (R := fun _ _ => True) (inv_endPublish hlawful)
    (later_endPublish handled left) trivial)
  intro _ w3 _ _
  cases failed with
  | none => exact Keeps.pure trivial
  | some e => exact Keeps.throw

end PendingHostFutures

/-! ## The event loop -/

namespace EventLoop

theorem safe_setup (started : Bool) : Safe w (setup callout started) fun _ _ => True := by
  apply Keeps.ite
  · exact fun _ => safe_python hcall _
  · intro _
    apply Keeps.bind (safe_python hcall _)
    intro _ _ _ _
    exact Keeps.modify (inv_setStarted true) (later_withLoop _) trivial

omit hcall in
/-- The conversion of a number fails only on one that was recorded and is no duration. -/
theorem safe_progress {x : Option Number}
    (hx : ∀ y, x = some y → .recorded (some y) ∈ w.events) :
    Safe w (progress x) fun _ _ => True := by
  cases x with
  | none => exact Keeps.pure trivial
  | some y =>
    apply Keeps.ite
    · exact fun _ => Keeps.pure trivial
    · intro hpos
      split
      · exact Keeps.pure trivial
      · next hnone =>
        apply safe_panicBecause
        exact ⟨y, hx y rfl, Bool.not_eq_true _ ▸ hpos, Number.toDuration_eq_none_iff.1 hnone⟩

theorem safe_step : Safe w (step callout) fun _ _ => True := by
  apply Keeps.get
  apply Keeps.bind (safe_setup hcall _)
  intro _ w1 _ _
  apply Keeps.bind (Keeps.modify (R := fun _ _ => True) inv_clearTimeout (later_withLoop _)
    trivial)
  intro _ w2 _ _
  apply Keeps.bind (Keeps.inv (hcall _ w2))
  rintro _ w3 _ ⟨-, hw3⟩
  apply Keeps.get
  exact safe_progress hw3.timeout

end EventLoop

theorem AsyncRuntime.safe_advance : Safe w (AsyncRuntime.advance callout) fun _ _ => True := by
  apply Keeps.bind (PendingHostFutures.safe_publish hcall)
  intro _ w1 _ _
  apply Keeps.bind (EventLoop.safe_step hcall)
  intro progress w2 _ _
  apply Keeps.get
  split
  · exact Keeps.ite (fun _ => Keeps.pure trivial) fun _ => Keeps.pure trivial
  · exact Keeps.pure trivial

end Calls

end GuestPy.Driver
