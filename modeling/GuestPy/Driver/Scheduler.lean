import GuestPy.Driver.Publishing

/-!
# The scheduler of host futures

The queue of host futures by itself: registrations, polls of batches and publishes, each of
which may come while others are in progress, in any order and at any depth.

* A `Snapshot` is taken whenever other code gets to run, and `Conserved` says of it that no
  host future is missing, held twice or out of order, and that the counter is right.
* `Conserving` is the invariant behind it, and `mended` is what an operation restores before it
  comes back: the batches and the publishes that were in progress when it began.
-/

namespace GuestPy.Driver

open PendingHostFutures

namespace World

/-- Where the host futures are. -/
def snapshot (w : World) : Snapshot where
  registered := w.nextFuture
  entries := w.pending.entries
  flying := w.ledger.flying
  ready := w.pending.ready.map Completed.future
  publishing := w.ledger.publishing
  published := w.ledger.published
  polling := w.pending.polling
  isEmpty := w.pending.isEmpty

def inspect (w : World) : World := w.log (.inspected w.snapshot)

/-- A guest with a new driver. -/
def driven (guest : GuestId) (runtime : RuntimeInner) : World :=
  { World.new guest runtime with driver := some .new }

end World

namespace Scheduler

/-! ## The system -/

/-- What happens to the queue, and what guest code does to an asyncio future. -/
inductive Op where
  | register
  | pollAll (cx : Waker)
  | publish
  | setFuture (h : Nat) (state : FutureState)

variable (callout : Call → Host World Err Answer)

/-- Other code gets to run. -/
def inspected (c : Call) : Host World Err Answer := do
  Host.modify World.inspect
  callout c

def body : Op → Host World Err Unit
  | .register => do
    let _ ← register (inspected callout)
    pure ()
  | .pollAll cx => do
    let _ ← pollAll (inspected callout) cx
    pure ()
  | .publish => publish (inspected callout)
  | .setFuture h state => Host.modify (World.setFuture h state)

def performOp (op : Op) : Host World Err Unit := do
  let outcome ← Host.attempt (body callout op)
  Host.modify World.inspect
  Host.ofExcept outcome

/-- The queue of host futures, against any code that runs in between. -/
def scheduler : System World Err Op Unit Call Answer where
  body := performOp
  tick := World.tick

/-- What host futures, guest code and the interpreter do when they are called. -/
abbrev Code : Type := Environment World Err Op Unit Call Answer

/-- What the driver does to its queue, one operation after another. -/
abbrev Script : Type := Prog Op (Reply Err Unit) Unit

/-- A guest after a script, up to a depth of nesting. -/
def runScript (guest : GuestId) (runtime : RuntimeInner) (code : Code) (fuel : Nat)
    (script : Script) : World :=
  (script.run (scheduler.perform code fuel) (World.driven guest runtime)).2

end Scheduler

/-! ## Conservation -/

/-- Everywhere that a host future may be. -/
def Snapshot.places (s : Snapshot) : List Nat :=
  s.entries ++ s.flying ++ s.ready ++ (s.publishing ++ s.published)

/-- The counter counts what is out in a batch, each host future that was registered is in one
place, those to be polled are in the order of their registration, and the queue is reported
empty just if all are published or about to be. -/
structure Snapshot.Conserved (s : Snapshot) : Prop where
  counted : s.polling = s.flying.length
  placed : s.places.Perm (List.range s.registered)
  ordered : s.entries.Pairwise (· < ·)
  empty : s.isEmpty = true ↔ ∀ h < s.registered, h ∈ s.publishing ++ s.published

instance : DecidablePred Snapshot.Conserved := fun s =>
  decidable_of_iff
    (s.polling = s.flying.length ∧ s.places.Perm (List.range s.registered) ∧
      s.entries.Pairwise (· < ·) ∧
        (s.isEmpty = true ↔ ∀ h < s.registered, h ∈ s.publishing ++ s.published))
    ⟨fun h => ⟨h.1, h.2.1, h.2.2.1, h.2.2.2⟩, fun h => ⟨h.1, h.2, h.3, h.4⟩⟩

namespace Event

/-- No host future is polled that has completed, no more are counted back than are out, and
whenever other code gets to run, all are conserved. -/
def Conserves : Event → Prop
  | polled finished => finished = false
  | settled polling count => count ≤ polling
  | inspected s => s.Conserved
  | _ => True

instance : DecidablePred Conserves := fun e =>
  match e with
  | polled finished => inferInstanceAs (Decidable (finished = false))
  | settled polling count => inferInstanceAs (Decidable (count ≤ polling))
  | inspected s => inferInstanceAs (Decidable s.Conserved)
  | published .. | suspended .. | pended .. | completed .. | returned .. | began .. | closing ..
  | taking .. | recorded .. | timed .. | panicked .. => inferInstanceAs (Decidable True)

end Event

namespace Scheduler

/-- The invariant. Host futures are numbered as they are registered, and whatever is out in a
batch was registered before all that is to be polled. -/
structure Conserving (w : World) : Prop where
  present : w.driver.isSome = true
  counted : w.pending.polling = w.ledger.flying.length
  ordered : w.pending.entries.Pairwise (· < ·)
  behind : ∀ x ∈ w.ledger.flying, ∀ y ∈ w.pending.entries, x < y
  below : ∀ x ∈ w.pending.entries ++ w.ledger.flying, x < w.nextFuture
  unfinished : ∀ x, x ∈ w.pending.entries ∨ w.nextFuture ≤ x → w.ledger.finished x = false
  placed : Every Event.FailsOnDone w → w.snapshot.places.Perm (List.range w.nextFuture)
  conserved : Every Event.FailsOnDone w → Every Event.Conserves w

/-- What an operation leaves as it was: the batches that are out, the publishes in progress, and
what is out is not finished by others than those who poll it. -/
structure Mended (out : List Nat) (w w' : World) : Prop where
  flying : w'.ledger.flying = w.ledger.flying
  publishing : w'.ledger.publishing = w.ledger.publishing
  finished : ∀ x ∈ w.ledger.flying, x ∉ out → w'.ledger.finished x = w.ledger.finished x
  futures : ∀ x, w.futures x ≠ .pending → w'.futures x ≠ .pending

def discipline : Discipline World where
  inv := Conserving
  future _ _ := True
  unwound _ := False
  refl _ := trivial
  trans _ _ := trivial

/-- The frame of an operation that polls the batch `out` itself. -/
def mended (out : List Nat) : Framing World where
  rel := Mended out
  refl _ := ⟨rfl, rfl, fun _ _ _ => rfl, fun _ h => h⟩
  trans h h' :=
    { flying := h'.flying.trans h.flying
      publishing := h'.publishing.trans h.publishing
      finished := fun x hx hout =>
        (h'.finished x (h.flying ▸ hx) hout).trans (h.finished x hx hout)
      futures := fun x hx => h'.futures x (h.futures x hx) }

/-! ## Updates of the world -/

section Updates

variable {w : World}

theorem pending_withPending {f : PendingHostFutureState → PendingHostFutureState}
    (h : w.driver.isSome = true) : (w.withPending f).pending = f w.pending := by
  obtain ⟨d, hd⟩ := Option.isSome_iff_exists.1 h
  unfold World.pending World.withPending
  rw [hd]
  rfl

theorem every_of_log {P : Event → Prop} {e : Event} (h : Every P (w.log e)) : Every P w :=
  fun e' he' => h e' (List.mem_cons_of_mem _ he')

theorem every_log {P : Event → Prop} {e : Event} (he : P e) (h : Every P w) :
    Every P (w.log e) := by
  intro e' he'
  rcases List.mem_cons.1 he' with rfl | he'
  · exact he
  · exact h e' he'

/-- What the invariant says of a snapshot. -/
theorem Conserving.snapshot (h : Conserving w) (hdone : Every Event.FailsOnDone w) :
    w.snapshot.Conserved := by
  have hplaced := h.placed hdone
  have hlt : ∀ x ∈ w.snapshot.places, x < w.nextFuture := fun x hx =>
    List.mem_range.1 (hplaced.mem_iff.1 hx)
  have hnodup : w.snapshot.places.Nodup := hplaced.nodup_iff.2 List.nodup_range
  refine ⟨h.counted, hplaced, h.ordered, ?_⟩
  show (w.pending.entries.isEmpty && w.pending.polling == 0 && w.pending.ready.isEmpty) = true ↔ _
  rw [Bool.and_eq_true, Bool.and_eq_true, List.isEmpty_iff, beq_iff_eq, List.isEmpty_iff,
    h.counted, List.length_eq_zero_iff]
  constructor
  · rintro ⟨⟨hentries, hflying⟩, hready⟩ x hx
    have hmem : x ∈ w.snapshot.places := hplaced.mem_iff.2 (List.mem_range.2 hx)
    unfold Snapshot.places World.snapshot at hmem
    rw [hentries, hflying, hready] at hmem
    exact hmem
  · intro hall
    have hnone : ∀ x, x ∉ w.pending.entries ++ w.ledger.flying ++
        w.pending.ready.map Completed.future := by
      intro x hx
      have hregistered : x < w.nextFuture := hlt x (List.mem_append_left _ hx)
      exact (List.nodup_append.1 hnodup).2.2 x hx x (hall x hregistered) rfl
    have hnil := List.eq_nil_iff_forall_not_mem.2 hnone
    rw [List.append_eq_nil_iff, List.append_eq_nil_iff, List.map_eq_nil_iff] at hnil
    exact hnil

theorem conserving_log {e : Event}
    (he : Every Event.FailsOnDone w → e.Conserves) (h : Conserving w) : Conserving (w.log e) :=
  { h with
    placed := fun hdone => h.placed (every_of_log hdone)
    conserved := fun hdone =>
      every_log (he (every_of_log hdone)) (h.conserved (every_of_log hdone)) }

theorem conserving_inspect (h : Conserving w) : Conserving w.inspect :=
  conserving_log h.snapshot h

theorem conserving_register (h : Conserving w) : Conserving w.register := by
  have hpending : w.register.pending =
      { w.pending with entries := w.pending.entries ++ [w.nextFuture] } := by
    show (w.withPending fun s => { s with entries := s.entries ++ [w.nextFuture] }).pending = _
    exact pending_withPending h.present
  have hentries : ∀ x ∈ w.pending.entries, x < w.nextFuture := fun x hx =>
    h.below x (List.mem_append_left _ hx)
  have hflying : ∀ x ∈ w.ledger.flying, x < w.nextFuture := fun x hx =>
    h.below x (List.mem_append_right _ hx)
  constructor
  · exact Option.isSome_map.trans h.present
  · rw [hpending]
    exact h.counted
  · rw [hpending]
    apply List.pairwise_append.2
    refine ⟨h.ordered, List.pairwise_singleton _ _, ?_⟩
    intro x hx y hy
    rw [List.mem_singleton.1 hy]
    exact hentries x hx
  · rw [hpending]
    intro x hx y hy
    rcases List.mem_append.1 hy with hy | hy
    · exact h.behind x hx y hy
    · rw [List.mem_singleton.1 hy]
      exact hflying x hx
  · rw [hpending]
    intro x hx
    show x < w.nextFuture + 1
    simp only [List.mem_append, List.mem_singleton] at hx
    rcases hx with (hx | rfl) | hx
    · exact Nat.lt_succ_of_lt (hentries x hx)
    · exact Nat.lt_succ_self _
    · exact Nat.lt_succ_of_lt (hflying x hx)
  · rw [hpending]
    intro x hx
    apply h.unfinished
    rcases hx with hx | hx
    · rcases List.mem_append.1 hx with hx | hx
      · exact Or.inl hx
      · exact Or.inr (List.mem_singleton.1 hx).ge
    · exact Or.inr (Nat.le_of_succ_le hx)
  · intro hdone
    show Snapshot.places _ |>.Perm (List.range (w.nextFuture + 1))
    rw [List.range_succ]
    have hperm := (h.placed hdone).append_right [w.nextFuture]
    refine List.Perm.trans ?_ hperm
    unfold Snapshot.places World.snapshot
    rw [hpending]
    show List.Perm (_ ++ w.ledger.flying ++ _ ++ (w.ledger.publishing ++ w.ledger.published)) _
    apply List.perm_iff_count.2
    intro x
    simp only [List.count_append]
    omega
  · exact h.conserved

theorem conserving_takeEntries (cx : Waker) (h : Conserving w) :
    Conserving (w.takeEntries cx) := by
  have hpending : (w.takeEntries cx).pending =
      { w.pending with entries := [], polling := w.pending.polling + w.pending.entries.length } := by
    show (w.withPending fun s =>
      { s with entries := [], polling := s.polling + s.entries.length }).pending = _
    exact pending_withPending h.present
  constructor
  · exact Option.isSome_map.trans h.present
  · rw [hpending]
    show w.pending.polling + w.pending.entries.length =
      (w.pending.entries ++ w.ledger.flying).length
    rw [List.length_append, h.counted, Nat.add_comm]
  · rw [hpending]
    exact List.Pairwise.nil
  · rw [hpending]
    exact fun _ _ _ hy => (List.not_mem_nil hy).elim
  · rw [hpending]
    exact fun x hx => h.below x hx
  · rw [hpending]
    intro x hx
    rcases hx with hx | hx
    · cases hx
    · exact h.unfinished x (Or.inr hx)
  · intro hdone
    have hplaced := h.placed hdone
    unfold Snapshot.places World.snapshot at hplaced ⊢
    rw [hpending]
    exact hplaced
  · exact h.conserved

/-- The batch that is taken was registered after those that are out already. -/
theorem not_flying {x : Nat} (hx : x ∈ w.pending.entries) (h : Conserving w) :
    x ∉ w.ledger.flying :=
  fun hflying => Nat.lt_irrefl x (h.behind x hflying x hx)

theorem conserving_give {x n : Nat} {cx : Waker} (hx : w.ledger.finished x = false)
    (h : Conserving w) : Conserving (w.give x cx n) :=
  { conserving_log (e := .polled _) (fun _ => hx) h with }

theorem every_complete {P : Event → Prop} {p : CoroutineFuture → Bool}
    (h : Every P (w.complete p)) : Every P w :=
  fun e he => h e (List.mem_append_right _ he)

theorem conserves_complete {p : CoroutineFuture → Bool} (h : Every Event.Conserves w) :
    Every Event.Conserves (w.complete p) := by
  intro e he
  rcases List.mem_append.1 he with he | he
  · obtain ⟨i, -, hi⟩ := List.mem_filterMap.1 he
    split at hi
    · split at hi
      · cases hi
        trivial
      · cases hi
    · cases hi
  · exact h e he

/-- A host future that is out may finish. -/
theorem conserving_finish {x : Nat} (hx : x ∈ w.ledger.flying) (h : Conserving w) :
    Conserving (w.finish x) :=
  { h with
    unfinished := fun y hy => by
      have hne : y ≠ x := by
        rintro rfl
        rcases hy with hy | hy
        · exact not_flying (w := w) hy h hx
        · exact Nat.not_lt.2 hy (h.below y (List.mem_append_right _ hx))
      exact (Function.update_of_ne hne ..).trans (h.unfinished y hy)
    placed := fun hdone => h.placed (every_complete hdone)
    conserved := fun hdone => conserves_complete (h.conserved (every_complete hdone)) }

/-- The batch `batch` comes back: what is left of it was registered before what has been
registered since, and after what is still out. -/
theorem conserving_settle {batch out entries : List Nat} {ready : List (Nat × Except Err Nat)}
    (hflying : w.ledger.flying = batch ++ out)
    (hbatch : (entries ++ ready.map Prod.fst).Perm batch) (hordered : entries.Pairwise (· < ·))
    (hbehind : ∀ x ∈ out, ∀ y ∈ entries, x < y)
    (hunfinished : ∀ x ∈ entries, w.ledger.finished x = false) (h : Conserving w) :
    Conserving (w.settle entries ready) ∧ (w.settle entries ready).ledger.flying = out := by
  have hlength : entries.length + ready.length = batch.length := by
    have hlen := hbatch.length_eq
    rwa [List.length_append, List.length_map] at hlen
  have hout : (w.settle entries ready).ledger.flying = out := by
    show w.ledger.flying.drop (entries.length + ready.length) = out
    rw [hflying, hlength, List.drop_left]
  have hmem : ∀ x ∈ entries, x ∈ w.ledger.flying := by
    intro x hx
    rw [hflying]
    exact List.mem_append_left _ (hbatch.mem_iff.1 (List.mem_append_left _ hx))
  have hcount : entries.length + ready.length ≤ w.pending.polling := by
    rw [h.counted, hflying, hlength, List.length_append]
    exact Nat.le_add_right _ _
  have hpending : (w.settle entries ready).pending =
      { entries := entries ++ w.pending.entries
        polling := w.pending.polling - (entries.length + ready.length)
        ready := w.pending.ready ++ ready.zipIdx.map fun p =>
          ⟨w.ledger.tickets + p.2, p.1.1, p.1.2⟩ } := by
    show ((w.log (.settled w.pending.polling (entries.length + ready.length))).withPending
      fun s => PendingHostFutureState.mk (entries ++ s.entries)
        (s.polling - (entries.length + ready.length)) (s.ready ++ ready.zipIdx.map fun p =>
          ⟨w.ledger.tickets + p.2, p.1.1, p.1.2⟩)).pending = _
    exact pending_withPending h.present
  have hready : (w.settle entries ready).pending.ready.map Completed.future =
      w.pending.ready.map Completed.future ++ ready.map Prod.fst := by
    have hfst : ready.map Prod.fst = ready.zipIdx.map fun p => p.1.1 := by
      conv_lhs => rw [← List.zipIdx_map_fst 0 ready, List.map_map]
      rfl
    rw [hpending, List.map_append, List.map_map, hfst]
    rfl
  refine ⟨?_, hout⟩
  constructor
  · exact Option.isSome_map.trans h.present
  · rw [hpending, hout]
    show w.pending.polling - (entries.length + ready.length) = out.length
    rw [h.counted, hflying, List.length_append, hlength, Nat.add_sub_cancel_left]
  · rw [hpending]
    apply List.pairwise_append.2
    exact ⟨hordered, h.ordered, fun x hx y hy => h.behind x (hmem x hx) y hy⟩
  · rw [hpending, hout]
    intro x hx y hy
    rcases List.mem_append.1 hy with hy | hy
    · exact hbehind x hx y hy
    · exact h.behind x (hflying ▸ List.mem_append_right _ hx) y hy
  · rw [hpending, hout]
    intro x hx
    apply h.below
    simp only [List.mem_append] at hx ⊢
    rcases hx with (hx | hx) | hx
    · exact Or.inr (hmem x hx)
    · exact Or.inl hx
    · exact Or.inr (hflying ▸ List.mem_append_right _ hx)
  · rw [hpending]
    intro x hx
    rcases hx with hx | hx
    · rcases List.mem_append.1 hx with hx | hx
      · exact hunfinished x hx
      · exact h.unfinished x (Or.inl hx)
    · exact h.unfinished x (Or.inr hx)
  · intro hdone
    have hplaced := h.placed (every_of_log hdone)
    refine List.Perm.trans ?_ hplaced
    unfold Snapshot.places World.snapshot
    rw [hout, hready, hpending, hflying]
    show List.Perm (_ ++ (w.ledger.publishing ++ w.ledger.published)) _
    apply List.perm_iff_count.2
    intro x
    have hx := hbatch.count_eq x
    simp only [List.count_append] at hx ⊢
    omega
  · intro hdone
    exact every_log (e := .settled _ _) hcount (h.conserved (every_of_log hdone))

theorem conserving_drainReady (h : Conserving w) : Conserving w.drainReady := by
  have hpending : w.drainReady.pending = { w.pending with ready := [] } := by
    show (w.withPending fun s => { s with ready := [] }).pending = _
    exact pending_withPending h.present
  constructor
  · exact Option.isSome_map.trans h.present
  · rw [hpending]
    exact h.counted
  · rw [hpending]
    exact h.ordered
  · rw [hpending]
    exact h.behind
  · rw [hpending]
    exact h.below
  · rw [hpending]
    exact h.unfinished
  · intro hdone
    refine List.Perm.trans ?_ (h.placed hdone)
    unfold Snapshot.places World.snapshot
    rw [hpending]
    show List.Perm (w.pending.entries ++ w.ledger.flying ++ [] ++
      ((w.pending.ready.map Completed.future ++ w.ledger.publishing) ++ w.ledger.published)) _
    apply List.perm_iff_count.2
    intro x
    simp only [List.count_append, List.count_nil]
    omega
  · exact h.conserved

/-- A publish of the batch `handled ++ left` comes to its end. -/
theorem conserving_endPublish {handled left : List Completed} {out : List Nat}
    (hpublishing : w.ledger.publishing = (handled ++ left).map Completed.future ++ out)
    (hhandled : ∀ c ∈ handled, w.futures c.future ≠ .pending) (h : Conserving w) :
    Conserving (w.endPublish handled left) ∧
      (w.endPublish handled left).ledger.publishing = out := by
  have hout : (w.endPublish handled left).ledger.publishing = out := by
    show w.ledger.publishing.drop (handled.length + left.length) = out
    rw [hpublishing, ← List.length_append, ← List.length_map Completed.future, List.drop_left]
  have hlog : Conserving (w.log (.published (handled.map w.fate) (left.map w.fate))) :=
    conserving_log (fun _ => trivial) h
  refine ⟨{ hlog with placed := fun hdone => ?_ }, hout⟩
  have hleft : ∀ c ∈ left, w.futures c.future ≠ .pending := by
    intro c hc
    have hfate := hdone _ List.mem_cons_self (w.fate c) (List.mem_map_of_mem hc)
    exact of_decide_eq_true hfate
  have hall : ((handled ++ left).map Completed.future).filter
      (fun x => decide (w.futures x ≠ .pending)) = (handled ++ left).map Completed.future := by
    apply List.filter_eq_self.2
    intro x hx
    obtain ⟨c, hc, rfl⟩ := List.mem_map.1 hx
    rcases List.mem_append.1 hc with hc | hc
    · exact decide_eq_true (hhandled c hc)
    · exact decide_eq_true (hleft c hc)
  refine List.Perm.trans ?_ (h.placed (every_of_log hdone))
  unfold Snapshot.places World.snapshot
  show List.Perm (_ ++ ((w.endPublish handled left).ledger.publishing ++
    (((handled ++ left).map Completed.future).filter _ ++ w.ledger.published))) _
  rw [hout, hall, hpublishing]
  apply List.perm_iff_count.2
  intro x
  simp only [List.count_append]
  show w.pending.entries.count x + w.ledger.flying.count x +
    (w.pending.ready.map Completed.future).count x + _ = _
  omega

end Updates

end Scheduler

end GuestPy.Driver
