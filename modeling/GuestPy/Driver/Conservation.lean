import GuestPy.Driver.Scheduler

/-!
# Host futures are conserved

Each operation of the scheduler keeps the invariant, and mends what it breaks before it comes
back.

* `ends_pollEntries` is the loop of `poll_all`: whatever runs in between, the batch is split into
  what is still pending, in its order, and what has completed.
* `conserves_of_failsOnDone`: nothing is lost in a run in which no step of `publish` fails while
  an asyncio future that is left is still pending.
* `not_conserves_of_failed_conversion` is a run that loses a host future.
-/

namespace GuestPy.Driver

open PendingHostFutures

namespace Scheduler

/-! ## Operations mend what they break -/

section Calls

variable {w : World} {callout : Call → Host World Err Answer}
  (hcall : ∀ c w, Returns discipline (mended []) w (callout c) fun _ _ => True)

theorem Mended.of_nil {out : List Nat} {w' : World} (h : Mended [] w w') : Mended out w w' :=
  { h with finished := fun x hx _ => h.finished x hx List.not_mem_nil }

theorem mended_setFuture (x : Nat) (state : FutureState) :
    Mended [] w (w.setFuture x state) := by
  have hfutures := (later_setFuture (w := w) x state).futures
  unfold World.setFuture at hfutures ⊢
  split
  · next hx =>
    rw [if_pos hx] at hfutures
    exact ⟨rfl, rfl, fun _ _ _ => rfl, hfutures⟩
  · exact (mended []).refl w

theorem conserving_setFuture (x : Nat) (state : FutureState) (h : Conserving w) :
    Conserving (w.setFuture x state) := by
  unfold World.setFuture
  split
  · exact { h with }
  · exact h

theorem resolves_discipline : Resolves discipline (mended []) where
  inv _ h := { h with }
  future _ _ := trivial
  frame w x := ⟨rfl, rfl, fun _ _ _ => rfl, (later_resolve (w := w) x).futures⟩
  done x h hx := h.futures x hx

include hcall

theorem returns_inspected (c : Call) :
    Returns discipline (mended []) w (inspected callout c) fun _ _ => True := by
  have hinspect : Mended [] w w.inspect := ⟨rfl, rfl, fun _ _ _ => rfl, fun _ h => h⟩
  apply Returns.bind (Returns.modify (R := fun _ _ => True) conserving_inspect trivial hinspect
    trivial)
  exact fun _ w1 _ _ => hcall c w1

theorem returns_register :
    Returns discipline (mended []) w (register (inspected callout)) fun _ _ => True := by
  apply Returns.bind (returns_python (fun c _ => returns_inspected hcall c) _)
  intro _ w1 _ _
  apply Returns.get
  have hregister : Mended [] w1 w1.register := ⟨rfl, rfl, fun _ _ _ => rfl, fun _ h => h⟩
  apply Returns.bind (Returns.modify (R := fun _ _ => True) conserving_register trivial hregister
    trivial)
  exact fun _ _ _ _ => Returns.pure trivial

theorem ends_pollHost {x n : Nat} {cx : Waker} (hx : w.ledger.finished x = false) :
    Ends discipline w (pollHost (inspected callout) x cx n) (fun _ w' => Mended [] w w')
      (fun _ => False) fun _ => True := by
  have hgive : Mended [] w (w.give x cx n) := ⟨rfl, rfl, fun _ _ _ => rfl, fun _ h => h⟩
  apply Ends.bind (Ends.modify (R := fun _ w1 => Mended [] w w1) (conserving_give hx) trivial
    hgive)
  intro _ w1 _ h1
  apply Ends.bind (Ends.attempt (R := fun _ w2 => Mended [] w1 w2)
    (Ends.mono (returns_inspected hcall _) (fun _ _ _ h => h.1) (fun _ _ h _ => h)
      fun _ _ h => h))
  intro r w2 _ h2
  have hw2 : Mended [] w w2 := (mended []).trans h1 h2
  cases r <;> exact Ends.pure hw2

/-- The polls of a batch finish host futures of the batch only. -/
theorem ends_pollEntries {n : Nat} {cx : Waker} (batch : List Nat) (hnodup : batch.Nodup)
    (hflying : ∀ x ∈ batch, x ∈ w.ledger.flying)
    (hunfinished : ∀ x ∈ batch, w.ledger.finished x = false) :
    Ends discipline w (pollEntries (inspected callout) cx n batch)
      (fun r w' => Mended batch w w' ∧ (r.1 ++ r.2.map Prod.fst).Perm batch ∧
        r.1.Sublist batch ∧ ∀ x ∈ r.1, w'.ledger.finished x = false)
      (fun _ => False) fun _ => True := by
  induction batch generalizing w with
  | nil =>
    exact Ends.pure ⟨(mended []).refl w, List.Perm.nil, List.Sublist.slnil,
      fun _ hx => (List.not_mem_nil hx).elim⟩
  | cons x rest ih =>
    obtain ⟨hx, hrest⟩ := List.nodup_cons.1 hnodup
    apply Ends.bind (ends_pollHost hcall (hunfinished x List.mem_cons_self))
    intro r w1 _ h1
    have hin : ∀ y ∈ x :: rest, y ∈ w1.ledger.flying := by
      rw [h1.flying]
      exact hflying
    have hout : ∀ y ∈ x :: rest, w1.ledger.finished y = false := fun y hy =>
      (h1.finished y (hflying y hy) List.not_mem_nil).trans (hunfinished y hy)
    have hgrow : ∀ {w2 w3 : World}, Mended rest w2 w3 → Mended (x :: rest) w2 w3 := by
      intro w2 w3 h
      exact { h with finished := fun y hy hne => h.finished y hy (List.not_mem_of_not_mem_cons hne) }
    cases r with
    | none =>
      apply Ends.bind (ih hrest (fun y hy => hin y (List.mem_cons_of_mem _ hy))
        fun y hy => hout y (List.mem_cons_of_mem _ hy))
      rintro ⟨entries, ready⟩ w2 _ ⟨h2, hperm, hsub, hleft⟩
      refine Ends.pure ⟨(mended _).trans h1.of_nil (hgrow h2), hperm.cons x, hsub.cons_cons x, ?_⟩
      intro y hy
      rcases List.mem_cons.1 hy with rfl | hy
      · exact (h2.finished y (hin y List.mem_cons_self) hx).trans (hout y List.mem_cons_self)
      · exact hleft y hy
    | some outcome =>
      have hfinish : Mended (x :: rest) w1 (w1.finish x) :=
        { (mended []).refl w1 with
          finished := fun y _ hne => by
            have hyx : y ≠ x := fun h => hne (List.mem_cons.2 (Or.inl h))
            exact Function.update_of_ne hyx .. }
      apply Ends.bind (Ends.modify (R := fun _ w2 => w2 = w1.finish x)
        (conserving_finish (hin x List.mem_cons_self)) trivial rfl)
      rintro _ _ _ rfl
      have hrest2 : ∀ y ∈ rest, (w1.finish x).ledger.finished y = false := by
        intro y hy
        have hne : y ≠ x := fun h => hx (h ▸ hy)
        exact (Function.update_of_ne hne ..).trans (hout y (List.mem_cons_of_mem _ hy))
      apply Ends.bind (ih (w := w1.finish x) hrest
        (fun y hy => hin y (List.mem_cons_of_mem _ hy)) hrest2)
      rintro ⟨entries, ready⟩ w3 _ ⟨h3, hperm, hsub, hleft⟩
      have hw3 : Mended (x :: rest) w w3 :=
        (mended _).trans ((mended _).trans h1.of_nil hfinish) (hgrow h3)
      exact Ends.pure ⟨hw3, List.perm_middle.trans (hperm.cons x), hsub.cons x, hleft⟩

theorem ends_pollAll (cx : Waker) :
    Ends discipline w (pollAll (inspected callout) cx) (fun _ w' => Mended [] w w')
      (Mended [] w) fun _ => True := by
  apply Ends.assume
  intro hw
  apply Ends.get
  apply Ends.bind (Ends.modify (R := fun _ w1 => w1 = w.takeEntries cx)
    (conserving_takeEntries cx) trivial rfl)
  rintro _ _ _ rfl
  have hbatch : Ends discipline (w.takeEntries cx)
      (pollEntries (inspected callout) cx w.ledger.sweeps w.pending.entries) _ _ _ :=
    ends_pollEntries hcall w.pending.entries (hw.ordered.imp Nat.ne_of_lt)
      (fun x hx => List.mem_append_left _ hx) fun x hx => hw.unfinished x (Or.inl hx)
  apply Ends.bind (Ends.mono hbatch (fun _ _ _ h => h) (fun _ _ h => h.elim) fun _ _ h => h)
  rintro ⟨entries, ready⟩ w2 _ ⟨h2, hperm, hsub, hleft⟩
  have hsettle := fun hw2 : Conserving w2 => conserving_settle h2.flying hperm
    (hw.ordered.sublist hsub) (fun x hx y hy => hw.behind x hx y (hsub.subset hy)) hleft hw2
  have hmended : Conserving w2 → Mended [] w (w2.settle entries ready) := fun hw2 =>
    { flying := (hsettle hw2).2
      publishing := h2.publishing
      finished := fun x hx _ =>
        h2.finished x (List.mem_append_right _ hx) fun hin => not_flying hin hw hx
      futures := h2.futures }
  apply Ends.assume
  intro hw2
  apply Ends.bind (Ends.modify (R := fun _ w3 => Mended [] w w3) (fun h => (hsettle h).1) trivial
    (hmended hw2))
  exact fun _ _ _ h3 => Ends.pure h3

omit hcall in
theorem fails_publishEntries (callout : Call → Host World Err Answer) (batch : List Completed) :
    Fails (fun _ => False) (publishEntries callout batch) := by
  induction batch with
  | nil => exact Fails.pure
  | cons c rest ih =>
    refine Fails.bind Fails.attempt fun r => ?_
    cases r with
    | ok _ => exact Fails.bind ih fun _ => Fails.pure
    | error _ => exact Fails.pure

theorem ends_publish :
    Ends discipline w (publish (inspected callout)) (fun _ w' => Mended [] w w')
      (Mended [] w) fun _ => True := by
  apply Ends.get
  apply Ends.bind (Ends.modify (R := fun _ w1 => w1 = w.drainReady) conserving_drainReady trivial
    rfl)
  rintro _ _ _ rfl
  have hentries := returns_publishEntries (w := w.drainReady) resolves_discipline
    (fun c _ => returns_inspected hcall c) w.pending.ready
  apply Ends.bind (Ends.of_fails hentries (fails_publishEntries _ _))
  rintro ⟨handled, left, failed⟩ w2 _ ⟨h2, hsplit, hhandled⟩
  have hpublishing : w2.ledger.publishing =
      (handled ++ left).map Completed.future ++ w.ledger.publishing := by
    rw [h2.publishing]
    show w.pending.ready.map Completed.future ++ w.ledger.publishing = _
    exact congrArg (fun batch => batch.map Completed.future ++ w.ledger.publishing) hsplit.symm
  have hend := fun hw2 => conserving_endPublish (w := w2) hpublishing hhandled hw2
  apply Ends.assume
  intro hw2
  have hmended : Mended [] w (w2.endPublish handled left) :=
    { h2 with publishing := (hend hw2).2 }
  apply Ends.bind (Ends.modify (R := fun _ w3 => Mended [] w w3) (fun h => (hend h).1) trivial
    hmended)
  intro _ w3 _ h3
  cases failed with
  | none => exact Ends.pure h3
  | some e => exact Ends.throw h3

theorem returns_body (op : Op) :
    Returns discipline (mended []) w (body callout op) fun _ _ => True := by
  cases op with
  | register =>
    apply Returns.bind (returns_register hcall)
    exact fun _ _ _ _ => Returns.pure trivial
  | pollAll cx =>
    apply Returns.bind (Q := fun _ _ => True)
    · exact Ends.mono (ends_pollAll hcall cx) (fun _ _ _ h => ⟨h, trivial⟩) (fun _ _ h => h)
        fun _ _ h => h
    · exact fun _ _ _ _ => Returns.pure trivial
  | publish =>
    exact Ends.mono (ends_publish hcall) (fun _ _ _ h => ⟨h, trivial⟩) (fun _ _ h => h)
      fun _ _ h => h
  | setFuture x state =>
    exact Returns.modify (conserving_setFuture x state) trivial (mended_setFuture x state) trivial

theorem returns_performOp (op : Op) :
    Returns discipline (mended []) w (performOp callout op) fun _ _ => True := by
  apply Returns.bind (Returns.attempt (R := fun _ _ => True) (returns_body hcall op)
    fun _ _ _ => trivial)
  intro outcome w1 _ _
  have hinspect : Mended [] w1 w1.inspect := ⟨rfl, rfl, fun _ _ _ => rfl, fun _ h => h⟩
  apply Returns.bind (Returns.modify (R := fun _ _ => True) conserving_inspect trivial hinspect
    trivial)
  exact fun _ _ _ _ => Returns.ofExcept fun _ _ => trivial

end Calls

theorem conserving_new (guest : GuestId) (runtime : RuntimeInner) :
    Conserving (World.driven guest runtime) where
  present := rfl
  counted := rfl
  ordered := List.Pairwise.nil
  behind _ h := (List.not_mem_nil h).elim
  below _ h := (List.not_mem_nil h).elim
  unfinished _ _ := rfl
  placed _ := List.Perm.nil
  conserved _ _ h := (List.not_mem_nil h).elim

theorem conserving_tick {w : World} (h : Conserving w) : Conserving w.tick := { h with }

theorem mended_tick (w : World) : Mended [] w w.tick :=
  ⟨rfl, rfl, fun _ _ _ => rfl, fun _ h => h⟩

theorem conserving_run (guest : GuestId) (runtime : RuntimeInner) (code : Code) (fuel : Nat)
    (script : Script) : Conserving (runScript guest runtime code fuel script) := by
  have hperform : ∀ op w, Returns discipline (mended []) w (scheduler.perform code fuel op)
      fun _ _ => True :=
    System.returns_perform (S := scheduler) (fun _ h => h) (fun _ => conserving_tick)
      (fun _ => trivial) mended_tick (fun _ hcall op _ => returns_performOp hcall op) fuel
  have hrun := System.returns_run (fun _ h => h) hperform script (World.driven guest runtime)
  exact (hrun.keeps (conserving_new guest runtime)).1

/-! ## A host future that is lost -/

/-- Host futures complete when they are polled, with results that are converted so. -/
def completing (converted : Except Err Answer) : Code := fun _ call =>
  match call with
  | .pollHost .. => .ret (.ok { outcome := some (.ok 0), task := 0 })
  | .convert _ => .ret converted
  | _ => .ret (.ok default)

/-- One host future from its registration to its publication. -/
def onePublish : Script :=
  .call .register fun _ => .call (.pollAll .noop) fun _ => .call .publish fun _ => .ret ()

/-- **However registrations, polls and publishes nest, no host future is lost, polled again or
overtaken, and the counter is right, as long as no step of `publish` fails while one of those
that are left is still pending.** -/
theorem conserves_of_failsOnDone (guest : GuestId) (runtime : RuntimeInner) (code : Code)
    (fuel : Nat) (script : Script)
    (h : Every Event.FailsOnDone (runScript guest runtime code fuel script)) :
    Every Event.Conserves (runScript guest runtime code fuel script) :=
  (conserving_run guest runtime code fuel script).conserved h

/-- The first host future registers another from within its poll, polls it and publishes it. -/
def nesting : Code := fun w call =>
  match call with
  | .pollHost 0 cx =>
    if w.nextFuture = 2 then
      .call .register fun _ => .call (.pollAll cx) fun _ => .call .publish fun _ =>
        .ret (.ok { outcome := some (.ok 0), task := 0 })
    else
      .ret (.ok { outcome := none, task := 0 })
  | call => completing (.ok default) w call

/-- Two host futures, polled as one batch. -/
def twoRegistered : Script :=
  .call .register fun _ => .call .register fun _ => .call (.pollAll (.task 0)) fun _ =>
    .call .publish fun _ => .ret ()

theorem conserves_of_failsOnDone_nesting :
    Every Event.Conserves (runScript firstGuest .new nesting 3 twoRegistered) :=
  conserves_of_failsOnDone _ _ _ _ _ (by decide +kernel)

/-- Where its result has no guest value, it is in no place, and the queue is reported empty. -/
theorem not_conserves_of_failed_conversion :
    ¬ ∀ (guest : GuestId) (runtime : RuntimeInner) (code : Code) (fuel : Nat) (script : Script),
      Every Event.Conserves (runScript guest runtime code fuel script) := by
  intro h
  have hrun : Every Event.Conserves (runScript firstGuest .new
      (completing (.error (.conversion "out of range"))) 1 onePublish) := h _ _ _ _ _
  exact absurd hrun (by decide +kernel)

end Scheduler

end GuestPy.Driver
