import GuestPy.Driver.Operations

/-!
# The history of a driver

What holds of a driver in every state of every run, and of every event that is recorded.

* `Event.Lawful` is the law of each kind of event, given all the events of the run.
* `Inv` is the invariant behind the laws, one structure for each part of the state.
* `Later` is what an operation guarantees to the code that it is called from: borrows are
  balanced, a call that is in a poll stays in it, what the ledger has noted stays noted, the
  batches that were out before are still out, and a host future is polled by new sweeps only.
-/

namespace GuestPy.Driver

/-! ## Laws -/

/-- The driver was taken while a call of `run_until_idle` or `close` counted on it. -/
def TakenInUse (events : List Event) : Prop := ∃ borrowed, .taking borrowed true ∈ events

/-- What explains that there is no driver where one is expected. -/
def AbsenceExplained (events : List Event) : Prop :=
  .closing false ∈ events ∨ TakenInUse events

/-- What the `i`th coroutine future waits for has completed, after a poll that found the loop
blocked or idle, and it had not been woken since. -/
def Missed (events : List Event) (i : Nat) : Prop :=
  ∃ progress, progress.isActive = false ∧ .completed i progress false ∈ events

/-- The sweep polled this host future, and none with another waker has begun since: the host
future had been registered when the sweep began, and was not out in another batch. -/
def OwnSweep.Covers (s : OwnSweep) (cx : Waker) (o : Outstanding) : Prop :=
  o.number < s.sweep.registered ∧ o.number ∉ s.sweep.out ∧ ∀ waker ∈ s.since, waker = cx

instance (s : OwnSweep) (cx : Waker) : DecidablePred (s.Covers cx) := fun o =>
  inferInstanceAs (Decidable
    (o.number < s.sweep.registered ∧ o.number ∉ s.sweep.out ∧ ∀ waker ∈ s.since, waker = cx))

/-- What is certain of a poll that ends in pending. Its task has been woken just if others have
woken it, or the branch does. `drive` polls the host futures with its own waker where the loop
is blocked, and only there. The host futures that are covered by such a sweep hold the waker. -/
structure LawfulSuspension (cx : Waker) (branch : Branch) (outside requested : Bool)
    (own : Option OwnSweep) (outstanding : List Outstanding) : Prop where
  woken : requested = true ↔ outside = true ∨ branch.wakes = true
  unswept : branch = .driveReady ∨ branch = .driveWaiting → own = none
  swept : branch = .driveBlocked → own.isSome = true
  held : ∀ s, own = some s → ∀ o ∈ outstanding, s.Covers cx o → o.held = some cx

namespace Event

/-- What each kind of event says for certain. -/
def Lawful (events : List Event) : Event → Prop
  | published handled unhandled =>
    (∀ f ∈ handled, f.done = true) ∧
      ∀ f ∈ handled ++ unhandled, f.queued = false ∧ f.resolutions ≤ 1
  | suspended cx branch outside requested own outstanding =>
    LawfulSuspension cx branch outside requested own outstanding
  | pended cx progress requested limits now older sleep =>
    match progress with
    | .ready => requested = true
    | .waiting _ =>
      requested = true ∨ ∀ limit ∈ limits,
        sleep.holdsBy cx (now + limit.asNanos + Timer.slack.asNanos) = true
    | _ => sleep = older
  | returned unserved => ∀ i ∈ unserved, Missed events i
  | panicked .absent => AbsenceExplained events
  | panicked .borrowed => .began true ∈ events ∨ ∃ inUse, .taking true inUse ∈ events
  | panicked .duration =>
    ∃ x, .recorded (some x) ∈ events ∧ x.nonpos = false ∧ x.isDuration = false
  | panicked .instant => .timed false ∈ events
  | _ => True

end Event

theorem AbsenceExplained.mono {events events' : List Event} (h : AbsenceExplained events)
    (hs : ∀ e ∈ events, e ∈ events') : AbsenceExplained events' := by
  rcases h with h | ⟨b, h⟩
  · exact Or.inl (hs _ h)
  · exact Or.inr ⟨b, hs _ h⟩

theorem Missed.mono {events events' : List Event} {i : Nat} (h : Missed events i)
    (hs : ∀ e ∈ events, e ∈ events') : Missed events' i := by
  obtain ⟨progress, hinactive, hmem⟩ := h
  exact ⟨progress, hinactive, hs _ hmem⟩

/-- Laws stay fulfilled as events are added. -/
theorem Event.Lawful.mono {events events' : List Event} {e : Event} (h : e.Lawful events)
    (hs : ∀ e ∈ events, e ∈ events') : e.Lawful events' := by
  cases e with
  | returned unserved => exact fun i hi => (h i hi).mono hs
  | panicked cause =>
    cases cause with
    | absent => exact AbsenceExplained.mono h hs
    | borrowed => exact h.elim (fun h => Or.inl (hs _ h)) fun ⟨o, h⟩ => Or.inr ⟨o, hs _ h⟩
    | duration =>
      obtain ⟨x, hx, hx'⟩ := h
      exact ⟨x, hs _ hx, hx'⟩
    | instant => exact hs _ h
  | polled _ => exact h
  | settled _ _ => exact h
  | inspected _ => exact h
  | published _ _ => exact h
  | suspended _ _ _ _ _ _ => exact h
  | pended _ _ _ _ _ _ _ => exact h
  | completed _ _ _ => exact h
  | began _ => exact h
  | closing _ => exact h
  | taking _ _ => exact h
  | recorded _ => exact h
  | timed _ => exact h

/-! ## The invariant -/

namespace Ledger

/-- A host future was last polled with the waker of the sweep that polled it. -/
def Swept (l : Ledger) : Prop :=
  ∀ h n, l.sweepOf h = some n → n < l.sweeps ∧ l.held h = some (l.sweepAt n).waker

/-- Tickets are given out once, and an entry that was drained is not in the queue. -/
structure Ticketed (l : Ledger) (ready : List Completed) : Prop where
  fresh : ∀ ticket, l.tickets ≤ ticket → l.drained ticket = false
  queued : ∀ c ∈ ready, c.ticket < l.tickets ∧ l.drained c.ticket = false

/-- A result is set at most once, and then the asyncio future is done. -/
def Resolved (l : Ledger) (futures : Nat → FutureState) : Prop :=
  ∀ h, l.resolutions h ≤ 1 ∧ (l.resolutions h ≠ 0 → futures h ≠ .pending)

end Ledger

/-- A pending future is woken or its timer is armed if its last poll found the loop active;
if it has nothing left to wait for, it is so too, or that is noted. -/
def Noted (w : World) (i : Nat) (c : CoroutineFuture) : Prop :=
  c.status = .pending →
    (c.progress.isActive = true → w.keepsWake c = true) ∧
      (c.completed = some true → w.keepsWake c = true) ∧
        (c.completed = some false → Missed w.events i)

/-- There is a driver, or its absence is explained. -/
def Filled (w : World) : Prop := w.driver.isSome = true ∨ AbsenceExplained w.events

structure Inv (w : World) : Prop where
  lawful : ∀ e ∈ w.events, e.Lawful w.events
  borrowed : w.borrows ≠ 0 → w.driver.isSome = true
  inUse : ∀ i o, w.operations i = some o → o.stage.isOpen = true → Filled w
  started : ∀ i o, w.operations i = some o → i < w.started
  timeout : ∀ x, w.timeout = some x → .recorded (some x) ∈ w.events
  swept : w.ledger.Swept
  ticketed : w.ledger.Ticketed w.pending.ready
  resolved : w.ledger.Resolved w.futures
  spawned : ∀ i c, w.coroutines i = some c → i < w.spawned
  noted : ∀ i c, w.coroutines i = some c → Noted w i c

/-- The call `i` is in a poll, and has its driver. -/
def Running (w : World) (i : Nat) : Prop := ∃ o, w.operations i = some o ∧ o.stage = .running

/-- What an operation guarantees to its caller. -/
structure Later (w w' : World) : Prop where
  events : w.events <:+ w'.events
  borrows : w'.borrows = w.borrows
  writing : w'.writing = w.writing
  wakes : w.wakes <:+ w'.wakes
  running : ∀ i, Running w i → Running w' i
  present : ∀ i, (w.operations i).isSome = true → (w'.operations i).isSome = true
  sweeps : w.ledger.sweeps ≤ w'.ledger.sweeps
  sweepAt : ∀ n, n < w.ledger.sweeps → w'.ledger.sweepAt n = w.ledger.sweepAt n
  sweepOf : ∀ h, w'.ledger.sweepOf h = w.ledger.sweepOf h ∨
    ∃ n, w.ledger.sweeps ≤ n ∧ w'.ledger.sweepOf h = some n
  flying : w.ledger.flying <:+ w'.ledger.flying
  registered : w.nextFuture ≤ w'.nextFuture
  outstanding : ∀ h, h < w.nextFuture → h ∈ w'.outstanding → h ∈ w.outstanding
  drained : ∀ ticket, w.ledger.drained ticket = true → w'.ledger.drained ticket = true
  futures : ∀ h, w.futures h ≠ .pending → w'.futures h ≠ .pending

theorem Later.refl (w : World) : Later w w where
  events := List.suffix_refl _
  borrows := rfl
  writing := rfl
  wakes := List.suffix_refl _
  running _ h := h
  present _ h := h
  sweeps := Nat.le_refl _
  sweepAt _ _ := rfl
  sweepOf _ := Or.inl rfl
  flying := List.suffix_refl _
  registered := Nat.le_refl _
  outstanding _ _ h := h
  drained _ h := h
  futures _ h := h

theorem Later.trans {w w' w'' : World} (h : Later w w') (h' : Later w' w'') : Later w w'' where
  events := h.events.trans h'.events
  borrows := h'.borrows.trans h.borrows
  writing := h'.writing.trans h.writing
  wakes := h.wakes.trans h'.wakes
  running i hi := h'.running i (h.running i hi)
  present i hi := h'.present i (h.present i hi)
  sweeps := Nat.le_trans h.sweeps h'.sweeps
  sweepAt n hn := (h'.sweepAt n (Nat.lt_of_lt_of_le hn h.sweeps)).trans (h.sweepAt n hn)
  sweepOf x := by
    rcases h'.sweepOf x with hx | ⟨n, hn, hx⟩
    · rw [hx]
      exact h.sweepOf x
    · exact Or.inr ⟨n, Nat.le_trans h.sweeps hn, hx⟩
  flying := h.flying.trans h'.flying
  registered := Nat.le_trans h.registered h'.registered
  outstanding x hx hx' :=
    h.outstanding x hx (h'.outstanding x (Nat.lt_of_lt_of_le hx h.registered) hx')
  drained ticket ht := h'.drained ticket (h.drained ticket ht)
  futures x hx := h'.futures x (h.futures x hx)

theorem Later.mem {w w' : World} (h : Later w w') {e : Event} (he : e ∈ w.events) :
    e ∈ w'.events := h.events.subset he

def discipline : Discipline World where
  inv := Inv
  future := Later
  unwound w := ∃ cause, .panicked cause ∈ w.events
  refl := Later.refl
  trans := Later.trans

abbrev Safe {α : Type} (w : World) (m : Host World Err α) (Q : α → World → Prop) : Prop :=
  Keeps discipline w m Q

/-! ## What stays true -/

section Stable

variable {w w' : World}

/-- The slot is not being written, unless the operation began while it was. -/
def Unlocked (w : World) : Prop := w.writing = true → .began true ∈ w.events

theorem Unlocked.later (h : Unlocked w) (hw : Later w w') : Unlocked w' := by
  intro hwriting
  rw [hw.writing] at hwriting
  exact hw.mem (h hwriting)

/-- `n` is a sweep that was made with `cx`. -/
structure SweptWith (w : World) (n : Nat) (cx : Waker) : Prop where
  begun : n < w.ledger.sweeps
  waker : (w.ledger.sweepAt n).waker = cx

theorem SweptWith.later {n : Nat} {cx : Waker} (h : SweptWith w n cx) (hw : Later w w') :
    SweptWith w' n cx where
  begun := Nat.lt_of_lt_of_le h.begun hw.sweeps
  waker := (congrArg Sweep.waker (hw.sweepAt n h.begun)).trans h.waker

/-- `x` was last polled by the sweep `n`, or by a later one. -/
def PolledSince (w : World) (n x : Nat) : Prop :=
  ∃ m, n ≤ m ∧ w.ledger.sweepOf x = some m

theorem PolledSince.later {n x : Nat} (h : PolledSince w n x) (hn : n ≤ w.ledger.sweeps)
    (hw : Later w w') : PolledSince w' n x := by
  obtain ⟨m, hm, hx⟩ := h
  rcases hw.sweepOf x with hx' | ⟨m', hm', hx'⟩
  · exact ⟨m, hm, hx'.trans hx⟩
  · exact ⟨m', hn.trans hm', hx'⟩

/-- `n` is a sweep that was made with `cx` and is over: what it found in the queue has been
polled. -/
structure Polled (w : World) (n : Nat) (cx : Waker) : Prop extends SweptWith w n cx where
  registered : (w.ledger.sweepAt n).registered ≤ w.nextFuture
  polled : ∀ x ∈ w.outstanding, x < (w.ledger.sweepAt n).registered →
    x ∉ (w.ledger.sweepAt n).out → PolledSince w n x

theorem Polled.later {n : Nat} {cx : Waker} (h : Polled w n cx) (hw : Later w w') :
    Polled w' n cx where
  toSweptWith := h.toSweptWith.later hw
  registered := by
    rw [hw.sweepAt n h.begun]
    exact h.registered.trans hw.registered
  polled := by
    rw [hw.sweepAt n h.begun]
    intro x hx hlt hout
    have hbefore : x ∈ w.outstanding := hw.outstanding x (Nat.lt_of_lt_of_le hlt h.registered) hx
    exact (h.polled x hbefore hlt hout).later (Nat.le_of_lt h.begun) hw

theorem wokenSince_mono {cx : Waker} {since : Nat} (hw : w.wakes <:+ w'.wakes)
    (h : w.wokenSince cx since = true) : w'.wokenSince cx since = true := by
  obtain ⟨more, hmore⟩ := hw
  unfold World.wokenSince at h ⊢
  rw [List.contains_iff_mem] at h ⊢
  have hlen : w'.wakes.length = more.length + w.wakes.length := by
    rw [← hmore, List.length_append]
  by_cases hle : since ≤ w.wakes.length
  · have hsplit : w'.wakes.length - since = more.length + (w.wakes.length - since) := by omega
    rw [hsplit, ← hmore, List.take_length_add_append]
    exact List.mem_append_right _ h
  · have hzero : w.wakes.length - since = 0 := by omega
    rw [hzero, List.take_zero] at h
    cases h

theorem wokenSince_wake {cx : Waker} {since : Nat} (h : since ≤ w.wakes.length) :
    (w.wake cx).wokenSince cx since = true := by
  have hlen : (w.wake cx).wakes.length - since = w.wakes.length - since + 1 := by
    have : (w.wake cx).wakes.length = w.wakes.length + 1 := rfl
    omega
  unfold World.wokenSince
  rw [hlen, List.contains_iff_mem]
  exact List.mem_cons_self

theorem keepsWake_mono {c : CoroutineFuture} (hw : w.wakes <:+ w'.wakes)
    (h : w.keepsWake c = true) : w'.keepsWake c = true := by
  unfold World.keepsWake at h ⊢
  rw [Bool.or_eq_true] at h ⊢
  exact h.imp_left (wokenSince_mono hw)

theorem Noted.mono {i : Nat} {c : CoroutineFuture} (h : Noted w i c)
    (hwakes : w.wakes <:+ w'.wakes) (hevents : ∀ e ∈ w.events, e ∈ w'.events) :
    Noted w' i c := by
  intro hpending
  obtain ⟨hactive, hkept, hmissed⟩ := h hpending
  exact ⟨fun hc => keepsWake_mono hwakes (hactive hc),
    fun hc => keepsWake_mono hwakes (hkept hc), fun hc => (hmissed hc).mono hevents⟩

theorem Filled.of_driver (h : Filled w) (hd : w'.driver.isSome = w.driver.isSome)
    (he : ∀ e ∈ w.events, e ∈ w'.events) : Filled w' := by
  rcases h with h | h
  · exact Or.inl (hd.trans h)
  · exact Or.inr (h.mono he)

end Stable

/-! ## Updates of the world -/

section Updates

variable {w : World}

theorem isSome_withPending (f : PendingHostFutureState → PendingHostFutureState) :
    (w.withPending f).driver.isSome = w.driver.isSome := Option.isSome_map

theorem isSome_withLoop (f : EventLoop → EventLoop) :
    (w.withLoop f).driver.isSome = w.driver.isSome := Option.isSome_map

theorem timeout_withPending (f : PendingHostFutureState → PendingHostFutureState) :
    (w.withPending f).timeout = w.timeout := by
  unfold World.timeout World.withPending
  cases w.driver <;> rfl

theorem ready_withPending {f : PendingHostFutureState → PendingHostFutureState} {c : Completed}
    (h : c ∈ (w.withPending f).pending.ready) : c ∈ (f w.pending).ready := by
  unfold World.pending World.withPending at *
  cases hd : w.driver with
  | none =>
    rw [hd] at h
    cases h
  | some d =>
    rw [hd] at h
    exact h

theorem entries_withPending {f : PendingHostFutureState → PendingHostFutureState} {x : Nat}
    (h : x ∈ (w.withPending f).pending.entries) : x ∈ (f w.pending).entries := by
  unfold World.pending World.withPending at *
  cases hd : w.driver with
  | none =>
    rw [hd] at h
    cases h
  | some d =>
    rw [hd] at h
    exact h

/-- What is pending was so before, if it had its place before. -/
theorem outstanding_of {w' : World} {x : Nat} (hx : x ∈ w'.outstanding)
    (hentries : x ∈ w'.pending.entries → x ∈ w.pending.entries ++ w.ledger.flying)
    (hflying : x ∈ w'.ledger.flying → x ∈ w.pending.entries ++ w.ledger.flying)
    (hfinished : w.ledger.finished x = true → w'.ledger.finished x = true) :
    x ∈ w.outstanding := by
  obtain ⟨hx, hleft⟩ := List.mem_filter.1 hx
  refine List.mem_filter.2 ⟨(List.mem_append.1 hx).elim hentries hflying, ?_⟩
  rw [Bool.not_eq_true'] at hleft ⊢
  by_contra hne
  rw [hfinished (Bool.not_eq_false _ ▸ hne)] at hleft
  cases hleft

theorem pending_withLoop (f : EventLoop → EventLoop) : (w.withLoop f).pending = w.pending := by
  unfold World.pending World.withLoop
  cases w.driver <;> rfl

/-- Recording an event. -/
theorem inv_log {e : Event} (he : e.Lawful w.events) (h : Inv w) : Inv (w.log e) := by
  have hmem : ∀ e' ∈ w.events, e' ∈ (w.log e).events := fun _ => List.mem_cons_of_mem _
  exact
    { h with
      lawful := fun e' he' => by
        rcases List.mem_cons.1 he' with rfl | he'
        · exact he.mono hmem
        · exact (h.lawful e' he').mono hmem
      inUse := fun i o ho hopen => (h.inUse i o ho hopen).of_driver rfl hmem
      timeout := fun x hx => hmem _ (h.timeout x hx)
      noted := fun i c hc => (h.noted i c hc).mono (List.suffix_refl _) hmem }

theorem later_log (e : Event) : Later w (w.log e) :=
  { Later.refl w with events := List.suffix_cons _ _ }

/-- The queue of host futures changes, and with it the tickets. -/
theorem inv_withPending {f : PendingHostFutureState → PendingHostFutureState}
    {g : Ledger → Ledger} (h : Inv w) (hswept : (g w.ledger).Swept)
    (hticketed : (g w.ledger).Ticketed (f w.pending).ready)
    (hresolutions : (g w.ledger).resolutions = w.ledger.resolutions) :
    Inv ((w.withPending f).withLedger g) :=
  { h with
    borrowed := fun hb => (isSome_withPending f).trans (h.borrowed hb)
    inUse := fun i o ho hopen =>
      (h.inUse i o ho hopen).of_driver (isSome_withPending f) fun _ he => he
    timeout := fun x hx => h.timeout x ((timeout_withPending f).symm.trans hx)
    swept := hswept
    ticketed :=
      { fresh := hticketed.fresh
        queued := fun c hc => hticketed.queued c (ready_withPending hc) }
    resolved := fun x => by
      show (g w.ledger).resolutions x ≤ 1 ∧ ((g w.ledger).resolutions x ≠ 0 → _)
      rw [hresolutions]
      exact h.resolved x }

theorem inv_takeEntries (cx : Waker) (h : Inv w) : Inv (w.takeEntries cx) := by
  apply inv_withPending h ?_ ⟨h.ticketed.fresh, h.ticketed.queued⟩ rfl
  intro x n hn
  obtain ⟨hlt, hheld⟩ := h.swept x n hn
  have hne : n ≠ w.ledger.sweeps := Nat.ne_of_lt hlt
  refine ⟨Nat.lt_succ_of_lt hlt, hheld.trans ?_⟩
  exact congrArg (fun sweep : Sweep => some sweep.waker) (Function.update_of_ne hne ..).symm

/-- Entries that are taken are still pending, and out in a batch. -/
theorem later_takeEntries (cx : Waker) : Later w (w.takeEntries cx) :=
  { Later.refl w with
    sweeps := Nat.le_succ _
    sweepAt := fun _ hn => Function.update_of_ne (Nat.ne_of_lt hn) ..
    flying := List.suffix_append _ _
    outstanding := fun x _ hx => by
      refine outstanding_of hx (fun hx => ?_) id id
      have hnil : x ∈ [] := entries_withPending (w := w) (f := fun s =>
        { s with entries := [], polling := s.polling + s.entries.length }) hx
      exact absurd hnil List.not_mem_nil }

theorem sweepAt_takeEntries (cx : Waker) :
    (w.takeEntries cx).ledger.sweepAt w.ledger.sweeps = ⟨cx, w.nextFuture, w.ledger.flying⟩ :=
  Function.update_self ..

theorem sweptWith_takeEntries (cx : Waker) :
    SweptWith (w.takeEntries cx) w.ledger.sweeps cx :=
  ⟨Nat.lt_succ_self _, congrArg Sweep.waker (sweepAt_takeEntries cx)⟩

theorem inv_give {x n : Nat} {cx : Waker} (h : Inv w) (hn : SweptWith w n cx) :
    Inv (w.give x cx n) :=
  { inv_log (e := .polled _) trivial h with
    swept := fun y m hm => by
      have hu : Function.update w.ledger.sweepOf x (some n) y = some m := hm
      show m < w.ledger.sweeps ∧
        Function.update w.ledger.held x (some cx) y = some (w.ledger.sweepAt m).waker
      by_cases hy : y = x
      · subst hy
        rw [Function.update_self] at hu ⊢
        cases hu
        exact ⟨hn.begun, congrArg some hn.waker.symm⟩
      · rw [Function.update_of_ne hy] at hu ⊢
        exact h.swept y m hu
    ticketed := ⟨h.ticketed.fresh, h.ticketed.queued⟩ }

/-- A sweep that began after `t` polls a host future. -/
theorem Later.give {t : World} (h : Later t w) (x : Nat) {n : Nat} (cx : Waker)
    (hn : t.ledger.sweeps ≤ n) : Later t (w.give x cx n) :=
  { h.trans (later_log (w := w) (.polled (w.ledger.finished x))) with
    sweepOf := fun y => by
      show Function.update w.ledger.sweepOf x (some n) y = _ ∨ ∃ m, _ ∧
        Function.update w.ledger.sweepOf x (some n) y = _
      by_cases hy : y = x
      · subst hy
        rw [Function.update_self]
        exact Or.inr ⟨n, hn, rfl⟩
      · rw [Function.update_of_ne hy]
        exact h.sweepOf y }

theorem polledSince_give (x n : Nat) (cx : Waker) : PolledSince (w.give x cx n) n x :=
  ⟨n, Nat.le_refl n, Function.update_self ..⟩

/-- Those that were polled before stay so. -/
theorem PolledSince.give {n y : Nat} (h : PolledSince w n y) (x : Nat) (cx : Waker) :
    PolledSince (w.give x cx n) n y := by
  by_cases hy : y = x
  · rw [hy]
    exact polledSince_give x n cx
  · obtain ⟨m, hm, hpolled⟩ := h
    exact ⟨m, hm, (Function.update_of_ne hy ..).trans hpolled⟩

theorem inv_settle (entries : List Nat) (ready : List (Nat × Except Err Nat)) (h : Inv w) :
    Inv (w.settle entries ready) := by
  apply inv_withPending (inv_log (e := .settled _ _) trivial h) (fun x n hn => h.swept x n hn)
    ⟨?_, ?_⟩ rfl
  · intro ticket hticket
    have hle : w.ledger.tickets + ready.length ≤ ticket := hticket
    exact h.ticketed.fresh ticket (by omega)
  · intro c hc
    rcases List.mem_append.1 hc with hc | hc
    · obtain ⟨hlt, hdrained⟩ := h.ticketed.queued c hc
      exact ⟨Nat.lt_of_lt_of_le hlt (Nat.le_add_right _ _), hdrained⟩
    · obtain ⟨⟨p, k⟩, hp, rfl⟩ := List.mem_map.1 hc
      have hk : k < ready.length := by simpa using List.snd_lt_of_mem_zipIdx hp
      exact ⟨Nat.add_lt_add_left hk _, h.ticketed.fresh _ (Nat.le_add_right _ _)⟩

/-- The batch of a sweep that began after `t` comes back. -/
theorem Later.settle {t : World} {batch entries : List Nat} {ready : List (Nat × Except Err Nat)}
    (h : Later t w) (hflying : batch ++ t.ledger.flying <:+ w.ledger.flying)
    (hentries : ∀ x ∈ entries, x ∈ batch) (hlength : entries.length + ready.length = batch.length) :
    Later t (w.settle entries ready) :=
  { h.trans (later_log (w := w) (.settled w.pending.polling (entries.length + ready.length))) with
    flying := by
      show t.ledger.flying <:+ w.ledger.flying.drop (entries.length + ready.length)
      obtain ⟨more, hmore⟩ := hflying
      have hle : batch.length ≤ (more ++ batch).length := by
        rw [List.length_append]
        omega
      rw [← hmore, hlength, ← List.append_assoc, List.drop_append_of_le_length hle]
      exact List.suffix_append _ _
    outstanding := fun x hx hx' => by
      apply h.outstanding x hx
      refine outstanding_of hx' (fun hx' => ?_)
        (fun hx' => List.mem_append_right _ (List.mem_of_mem_drop hx')) id
      have hmem : x ∈ entries ++ w.pending.entries :=
        entries_withPending (w := w.log _) (f := fun s =>
          { entries := entries ++ s.entries
            polling := s.polling - (entries.length + ready.length)
            ready := s.ready ++ ready.zipIdx.map fun p =>
              ⟨w.ledger.tickets + p.2, p.1.1, p.1.2⟩ }) hx'
      rcases List.mem_append.1 hmem with hmem | hmem
      · exact List.mem_append_right _ (hflying.subset (List.mem_append_left _ (hentries x hmem)))
      · exact List.mem_append_left _ hmem }

theorem inv_drainReady (h : Inv w) : Inv w.drainReady := by
  have hnone : ∀ c ∈ ([] : List Completed), c.ticket < w.ledger.tickets ∧
      w.drainReady.ledger.drained c.ticket = false := fun _ hc => (List.not_mem_nil hc).elim
  apply inv_withPending h (fun x n hn => h.swept x n hn) ⟨?_, hnone⟩ rfl
  intro ticket hticket
  show (w.ledger.drained ticket || w.pending.ready.any fun c => c.ticket == ticket) = false
  rw [h.ticketed.fresh ticket hticket, Bool.false_or, List.any_eq_false]
  intro c hc
  have hlt := (h.ticketed.queued c hc).1
  have hle : w.ledger.tickets ≤ ticket := hticket
  simp only [beq_iff_eq]
  omega

theorem later_drainReady : Later w w.drainReady :=
  { Later.refl w with
    drained := fun _ ht => Bool.or_eq_true _ _ ▸ Or.inl ht
    outstanding := fun _ _ hx =>
      outstanding_of hx
        (fun hx => List.mem_append_left _
          (entries_withPending (w := w) (f := fun s => { s with ready := [] }) hx))
        (List.mem_append_right _) id }

theorem drained_drainReady {c : Completed} (hc : c ∈ w.pending.ready) :
    w.drainReady.ledger.drained c.ticket = true := by
  show (w.ledger.drained c.ticket || w.pending.ready.any fun c' => c'.ticket == c.ticket) = true
  rw [Bool.or_eq_true, List.any_eq_true]
  exact Or.inr ⟨c, hc, beq_self_eq_true _⟩

theorem inv_register (h : Inv w) : Inv w.register := by
  have hinv : Inv ((w.withPending fun s =>
      { s with entries := s.entries ++ [w.nextFuture] }).withLedger id) :=
    inv_withPending h h.swept ⟨h.ticketed.fresh, h.ticketed.queued⟩ rfl
  exact { hinv with }

theorem later_register : Later w w.register :=
  { Later.refl w with
    registered := Nat.le_succ _
    outstanding := fun x hx hx' => by
      refine outstanding_of hx' (fun hx' => ?_) (List.mem_append_right _) id
      have hmem : x ∈ w.pending.entries ++ [w.nextFuture] := entries_withPending (w := w)
        (f := fun s => { s with entries := s.entries ++ [w.nextFuture] }) hx'
      rcases List.mem_append.1 hmem with hmem | hmem
      · exact List.mem_append_left _ hmem
      · exact absurd (List.mem_singleton.1 hmem) (Nat.ne_of_lt hx) }

theorem inv_resolve {x : Nat} (hx : w.futures x = .pending) (h : Inv w) : Inv (w.resolve x) :=
  { h with
    ticketed := ⟨h.ticketed.fresh, h.ticketed.queued⟩
    resolved := fun y => by
      show Function.update w.ledger.resolutions x (w.ledger.resolutions x + 1) y ≤ 1 ∧
        (Function.update w.ledger.resolutions x (w.ledger.resolutions x + 1) y ≠ 0 →
          Function.update w.futures x .done y ≠ .pending)
      by_cases hy : y = x
      · subst hy
        rw [Function.update_self, Function.update_self]
        have hzero : w.ledger.resolutions y = 0 := by
          by_contra hne
          exact (h.resolved y).2 hne hx
        exact ⟨by omega, fun _ => by decide⟩
      · rw [Function.update_of_ne hy, Function.update_of_ne hy]
        exact h.resolved y }

theorem later_resolve (x : Nat) : Later w (w.resolve x) :=
  { Later.refl w with
    futures := fun y hy => by
      show Function.update w.futures x .done y ≠ .pending
      by_cases hyx : y = x
      · subst hyx
        rw [Function.update_self]
        decide
      · rw [Function.update_of_ne hyx]
        exact hy }

theorem inv_wake (cx : Waker) (h : Inv w) : Inv (w.wake cx) :=
  { h with noted := fun i c hc => (h.noted i c hc).mono (List.suffix_cons _ _) fun _ he => he }

theorem later_wake (cx : Waker) : Later w (w.wake cx) :=
  { Later.refl w with wakes := List.suffix_cons _ _ }

theorem inv_withRuntime (f : RuntimeInner → RuntimeInner) (h : Inv w) : Inv (w.withRuntime f) :=
  { h with }

theorem later_withRuntime (f : RuntimeInner → RuntimeInner) : Later w (w.withRuntime f) :=
  { Later.refl w with }

theorem inv_endPublish {handled left : List Completed}
    (he : (Event.published (handled.map w.fate) (left.map w.fate)).Lawful w.events)
    (h : Inv w) : Inv (w.endPublish handled left) :=
  { inv_log he h with ticketed := ⟨h.ticketed.fresh, h.ticketed.queued⟩ }

theorem later_endPublish (handled left : List Completed) : Later w (w.endPublish handled left) :=
  { later_log (w := w) (.published _ _) with }

/-! ### The slot -/

theorem inv_borrow (hd : w.driver.isSome = true) (h : Inv w) : Inv w.borrow :=
  { h with borrowed := fun _ => hd }

theorem inv_unborrow (h : Inv w) : Inv w.unborrow :=
  { h with borrowed := fun hb => h.borrowed fun hzero => hb (by
      show w.borrows - 1 = 0
      omega) }

/-- A borrow that is given back leaves nothing behind. -/
theorem Later.unborrow {t : World} (h : Later w.borrow t) : Later w t.unborrow :=
  { h with
    borrows := by
      have hb : t.borrows = w.borrows + 1 := h.borrows
      show t.borrows - 1 = w.borrows
      omega }

theorem Polled.unborrow {n : Nat} {cx : Waker} (h : Polled w n cx) : Polled w.unborrow n cx :=
  ⟨⟨h.begun, h.waker⟩, h.registered, h.polled⟩

theorem inv_install (h : Inv w) : Inv w.install :=
  { h with
    borrowed := fun _ => rfl
    inUse := fun _ _ _ _ => Or.inl rfl
    timeout := fun x hx => nomatch (show none = some x from hx)
    ticketed := ⟨h.ticketed.fresh, fun _ hc => (List.not_mem_nil hc).elim⟩ }

theorem later_install (hw : w.writing = false) : Later w w.install :=
  { Later.refl w with
    writing := hw.symm
    outstanding := fun _ _ hx => outstanding_of hx nofun (List.mem_append_right _) id }

theorem inv_startWriting (h : Inv w) : Inv w.startWriting := { h with }

theorem Later.install {t : World} (h : Later w.startWriting t) (hw : w.writing = false) :
    Later w t.install :=
  { h with
    writing := hw.symm
    outstanding := fun x hx hx' =>
      h.outstanding x hx (outstanding_of hx' nofun (List.mem_append_right _) id) }

/-- Emptying the slot. -/
theorem inv_vacate (hb : w.borrows = 0)
    (huse : ∀ i o, w.operations i = some o → o.stage.isOpen = true →
      AbsenceExplained w.events) (h : Inv w) : Inv w.vacate :=
  { h with
    borrowed := fun hne => absurd hb hne
    inUse := fun i o ho hopen => Or.inr (huse i o ho hopen)
    timeout := fun x hx => nomatch (show none = some x from hx)
    ticketed := ⟨h.ticketed.fresh, fun _ hc => (List.not_mem_nil hc).elim⟩ }

theorem later_vacate : Later w w.vacate :=
  { Later.refl w with
    outstanding := fun _ _ hx => outstanding_of hx nofun (List.mem_append_right _) id }

theorem inv_withLoop {f : EventLoop → EventLoop} (h : Inv w)
    (hf : ∀ x, (w.withLoop f).timeout = some x → .recorded (some x) ∈ w.events) :
    Inv (w.withLoop f) :=
  { h with
    borrowed := fun hb => (isSome_withLoop f).trans (h.borrowed hb)
    inUse := fun i o ho hopen =>
      (h.inUse i o ho hopen).of_driver (isSome_withLoop f) fun _ he => he
    timeout := hf
    ticketed := by
      rw [pending_withLoop]
      exact h.ticketed }

theorem later_withLoop (f : EventLoop → EventLoop) : Later w (w.withLoop f) :=
  { Later.refl w with
    outstanding := fun x _ hx => by
      unfold World.outstanding at hx ⊢
      rw [pending_withLoop] at hx
      exact hx }

theorem timeout_setTimeout {x y : Option Number} (h : (w.setTimeout x).timeout = y) :
    y = none ∨ y = x := by
  unfold World.timeout World.setTimeout World.withLoop at h
  cases hd : w.driver with
  | none =>
    rw [hd] at h
    exact Or.inl h.symm
  | some d =>
    rw [hd] at h
    exact Or.inr h.symm

theorem inv_clearTimeout (h : Inv w) : Inv (w.setTimeout none) :=
  inv_withLoop h fun _ hx => by rcases timeout_setTimeout hx with hx | hx <;> cases hx

theorem inv_setStarted (started : Bool) (h : Inv w) :
    Inv (w.withLoop fun l => { l with started }) :=
  inv_withLoop h fun x hx => h.timeout x <| by
    unfold World.timeout World.withLoop at *
    cases hd : w.driver with
    | none =>
      rw [hd] at hx
      cases hx
    | some d =>
      rw [hd] at hx
      exact hx

theorem inv_select (x : Option Number) (h : Inv w) : Inv (w.select x) := by
  have hlog : Inv (w.log (.recorded x)) := inv_log (e := .recorded x) trivial h
  have hloop : Inv ((w.log (.recorded x)).setTimeout x) := inv_withLoop hlog fun y hy => by
    rcases timeout_setTimeout hy with hy | hy
    · cases hy
    · rw [← hy]
      exact List.mem_cons_self
  exact hloop

/-! ### Futures that are polled from outside -/

theorem inv_setCoroutine {i : Nat} {f : CoroutineFuture → CoroutineFuture} (h : Inv w)
    (hf : ∀ c, Noted w i c → Noted w i (f c)) : Inv (w.setCoroutine i f) := by
  have hget : ∀ j c, (w.setCoroutine i f).coroutines j = some c →
      ∃ old, w.coroutines j = some old ∧ (c = old ∨ j = i ∧ c = f old) := by
    intro j c hc
    have hu : Function.update w.coroutines i ((w.coroutines i).map f) j = some c := hc
    by_cases hj : j = i
    · subst hj
      rw [Function.update_self, Option.map_eq_some_iff] at hu
      obtain ⟨old, hold, rfl⟩ := hu
      exact ⟨old, hold, Or.inr ⟨rfl, rfl⟩⟩
    · rw [Function.update_of_ne hj] at hu
      exact ⟨c, hu, Or.inl rfl⟩
  exact
    { h with
      spawned := fun j c hc => by
        obtain ⟨old, hold, -⟩ := hget j c hc
        exact h.spawned j old hold
      noted := fun j c hc => by
        obtain ⟨old, hold, rfl | ⟨rfl, rfl⟩⟩ := hget j c hc
        · exact h.noted j c hold
        · exact hf old (h.noted j old hold) }

theorem later_setCoroutine (i : Nat) (f : CoroutineFuture → CoroutineFuture) :
    Later w (w.setCoroutine i f) :=
  { Later.refl w with }

/-- What pending futures wait for completes: whether they are still woken is noted. -/
theorem inv_complete (p : CoroutineFuture → Bool) (h : Inv w) : Inv (w.complete p) := by
  have hmem : ∀ e ∈ w.events, e ∈ (w.complete p).events := fun _ => List.mem_append_right _
  have hnew : ∀ e ∈ (w.complete p).events,
      e ∈ w.events ∨ ∃ i progress woken, e = .completed i progress woken := by
    intro e he
    rcases List.mem_append.1 he with he | he
    · obtain ⟨i, -, hi⟩ := List.mem_filterMap.1 he
      split at hi
      · split at hi
        · cases hi
          exact Or.inr ⟨_, _, _, rfl⟩
        · cases hi
      · cases hi
    · exact Or.inl he
  exact
    { h with
      lawful := fun e he => by
        rcases hnew e he with he | ⟨i, progress, woken, rfl⟩
        · exact (h.lawful e he).mono hmem
        · trivial
      inUse := fun i o ho hopen => (h.inUse i o ho hopen).of_driver rfl hmem
      timeout := fun x hx => hmem _ (h.timeout x hx)
      spawned := fun i c hc => by
        obtain ⟨old, hold, -⟩ := Option.map_eq_some_iff.1 hc
        exact h.spawned i old hold
      noted := fun i c hc => by
        obtain ⟨old, hold, rfl⟩ := Option.map_eq_some_iff.1 hc
        by_cases ha : World.affected p old = true
        · rw [if_pos ha]
          intro hpending
          obtain ⟨hactive, -, -⟩ := h.noted i old hold hpending
          refine ⟨hactive, ?_, ?_⟩
          · intro hk
            rcases Bool.or_eq_true .. ▸ Option.some.inj hk with hk | hk
            · exact hactive hk
            · show (w.wokenSince old.waker old.since || _) = true
              rw [hk, Bool.true_or]
          · intro hk
            obtain ⟨hinactive, hunwoken⟩ := Bool.or_eq_false_iff.1 (Option.some.inj hk)
            refine ⟨old.progress, hinactive, List.mem_append_left _ ?_⟩
            apply List.mem_filterMap.2
            refine ⟨i, List.mem_range.2 (h.spawned i old hold), ?_⟩
            rw [hold]
            simp only [ha, if_true]
            rw [hunwoken]
        · rw [if_neg ha]
          exact (h.noted i old hold).mono (List.suffix_refl _) hmem }

theorem later_complete (p : CoroutineFuture → Bool) : Later w (w.complete p) :=
  { Later.refl w with events := List.suffix_append _ _ }

theorem inv_finish (x : Nat) (h : Inv w) : Inv (w.finish x) :=
  { inv_complete (fun c => w.awaits.any fun p => p.2 == x && c.task == some p.1) h with
    ticketed := ⟨h.ticketed.fresh, h.ticketed.queued⟩ }

theorem later_finish (x : Nat) : Later w (w.finish x) :=
  { later_complete (w := w)
      (fun c => w.awaits.any fun p => p.2 == x && c.task == some p.1) with
    outstanding := fun y _ hy => by
      refine outstanding_of hy (List.mem_append_left _) (List.mem_append_right _) fun hfinished => ?_
      show Function.update w.ledger.finished x true y = true
      by_cases hyx : y = x
      · rw [hyx, Function.update_self]
      · rwa [Function.update_of_ne hyx] }

theorem inv_setOperation {i : Nat} {f : Operation → Operation} (h : Inv w)
    (hf : ∀ o, w.operations i = some o → (f o).stage.isOpen = true →
      o.stage.isOpen = true ∨ Filled w) : Inv (w.setOperation i f) := by
  have hget : ∀ j o, (w.setOperation i f).operations j = some o →
      ∃ old, w.operations j = some old ∧ (o = old ∨ j = i ∧ o = f old) := by
    intro j o ho
    have hu : Function.update w.operations i ((w.operations i).map f) j = some o := ho
    by_cases hj : j = i
    · subst hj
      rw [Function.update_self, Option.map_eq_some_iff] at hu
      obtain ⟨old, hold, rfl⟩ := hu
      exact ⟨old, hold, Or.inr ⟨rfl, rfl⟩⟩
    · rw [Function.update_of_ne hj] at hu
      exact ⟨o, hu, Or.inl rfl⟩
  exact
    { h with
      inUse := fun j o ho hopen => by
        obtain ⟨old, hold, rfl | ⟨rfl, rfl⟩⟩ := hget j o ho
        · exact h.inUse j o hold hopen
        · rcases hf old hold hopen with hopen | hfilled
          · exact h.inUse j old hold hopen
          · exact hfilled
      started := fun j o ho => by
        obtain ⟨old, hold, -⟩ := hget j o ho
        exact h.started j old hold }

theorem present_setOperation (i j : Nat) (f : Operation → Operation) :
    ((w.setOperation i f).operations j).isSome = (w.operations j).isSome := by
  show (Function.update w.operations i ((w.operations i).map f) j).isSome = _
  by_cases hj : j = i
  · subst hj
    rw [Function.update_self, Option.isSome_map]
  · rw [Function.update_of_ne hj]

/-- Calls that are in a poll stay in it where their stage is not written. -/
theorem later_setOperation {i : Nat} {f : Operation → Operation}
    (hf : ∀ o, w.operations i = some o → o.stage = .running → (f o).stage = .running) :
    Later w (w.setOperation i f) :=
  { Later.refl w with
    running := fun j ⟨o, ho, hrunning⟩ => by
      by_cases hj : j = i
      · subst hj
        refine ⟨f o, ?_, hf o ho hrunning⟩
        show Function.update w.operations j ((w.operations j).map f) j = some (f o)
        rw [Function.update_self, ho]
        rfl
      · exact ⟨o, (Function.update_of_ne hj ..).trans ho, hrunning⟩
    present := fun j hj => (present_setOperation i j f).trans hj }

/-- A call that was not in a poll may be left in any stage. -/
theorem Later.setOperation {t : World} {i : Nat} {f : Operation → Operation} (h : Later w t)
    (hi : ¬ Running w i) : Later w (t.setOperation i f) :=
  { h with
    running := by
      intro j hj
      have hne : j ≠ i := by
        rintro rfl
        exact hi hj
      obtain ⟨o, ho, hrunning⟩ := h.running j hj
      exact ⟨o, (Function.update_of_ne hne ..).trans ho, hrunning⟩
    present := fun j hj => (present_setOperation i j f).trans (h.present j hj) }

theorem inv_abandon (i : Nat) (h : Inv w) : Inv (w.abandon i) := by
  unfold World.abandon
  split
  · exact h
  · exact h
  · exact inv_setOperation h fun _ _ hopen => nomatch hopen

theorem later_abandon (i : Nat) : Later w (w.abandon i) := by
  unfold World.abandon
  split
  · exact Later.refl w
  · exact Later.refl w
  · next hrunning =>
    apply (Later.refl w).setOperation
    rintro ⟨o, ho, hstage⟩
    apply hrunning
    rw [ho, Option.map_some, hstage]

/-- A call in its poll can count on a driver. -/
theorem Running.filled {i : Nat} (hr : Running w i) (h : Inv w) : Filled w := by
  obtain ⟨o, ho, hrunning⟩ := hr
  exact h.inUse i o ho (by rw [hrunning]; rfl)

theorem inv_spawn (h : Inv w) : Inv w.spawn := by
  have hget : ∀ i c, w.spawn.coroutines i = some c →
      i = w.spawned ∧ c = .new ∨ w.coroutines i = some c := by
    intro i c hc
    have hu : Function.update w.coroutines w.spawned (some .new) i = some c := hc
    by_cases hi : i = w.spawned
    · subst hi
      rw [Function.update_self] at hu
      exact Or.inl ⟨rfl, (Option.some.inj hu).symm⟩
    · rw [Function.update_of_ne hi] at hu
      exact Or.inr hu
  exact
    { h with
      spawned := fun i c hc => by
        rcases hget i c hc with ⟨rfl, -⟩ | hc
        · exact Nat.lt_succ_self _
        · exact Nat.lt_succ_of_lt (h.spawned i c hc)
      noted := fun i c hc => by
        rcases hget i c hc with ⟨-, rfl⟩ | hc
        · intro hp
          cases hp
        · exact h.noted i c hc }

theorem inv_dropCoroutine (i : Nat) (h : Inv w) : Inv (w.dropCoroutine i) := by
  unfold World.dropCoroutine
  split
  · exact h
  · split
    · exact h
    · have hget : ∀ j c, Function.update w.coroutines i none j = some c →
          w.coroutines j = some c := by
        intro j c hc
        by_cases hj : j = i
        · rw [hj, Function.update_self] at hc
          cases hc
        · rwa [Function.update_of_ne hj] at hc
      exact
        { h with
          spawned := fun j c hc => h.spawned j c (hget j c hc)
          noted := fun j c hc => h.noted j c (hget j c hc) }

theorem later_dropCoroutine (i : Nat) : Later w (w.dropCoroutine i) := by
  unfold World.dropCoroutine
  split
  · exact Later.refl w
  · split
    · exact Later.refl w
    · exact { Later.refl w with }

theorem inv_start (closing : Bool) (h : Inv w) : Inv (w.start closing) := by
  have hget : ∀ i o, (w.start closing).operations i = some o →
      (i = w.started ∧ o.stage = .start) ∨ w.operations i = some o := by
    intro i o ho
    have hu : Function.update w.operations w.started (some ⟨closing, none, .new, .start⟩) i
        = some o := ho
    by_cases hi : i = w.started
    · subst hi
      rw [Function.update_self] at hu
      cases hu
      exact Or.inl ⟨rfl, rfl⟩
    · rw [Function.update_of_ne hi] at hu
      exact Or.inr hu
  exact
    { h with
      inUse := fun i o ho hopen => by
        rcases hget i o ho with ⟨-, hstage⟩ | ho
        · rw [hstage] at hopen
          cases hopen
        · exact h.inUse i o ho hopen
      started := fun i o ho => by
        rcases hget i o ho with ⟨rfl, -⟩ | ho
        · exact Nat.lt_succ_self _
        · exact Nat.lt_succ_of_lt (h.started i o ho) }

theorem later_start (closing : Bool) (h : Inv w) : Later w (w.start closing) := by
  have hkeep : ∀ i o, w.operations i = some o → (w.start closing).operations i = some o := by
    intro i o ho
    have hi : i ≠ w.started := Nat.ne_of_lt (h.started i o ho)
    exact (Function.update_of_ne hi ..).trans ho
  exact
    { Later.refl w with
      running := fun i ⟨o, ho, hrunning⟩ => ⟨o, hkeep i o ho, hrunning⟩
      present := fun i hi => by
        obtain ⟨o, ho⟩ := Option.isSome_iff_exists.1 hi
        exact Option.isSome_iff_exists.2 ⟨o, hkeep i o ho⟩ }

theorem inv_finishTask (task : Nat) (h : Inv w) : Inv (w.finishTask task) :=
  { inv_complete (fun c => c.task == some task) h with }

theorem later_finishTask (task : Nat) : Later w (w.finishTask task) :=
  { later_complete (w := w) (fun c => c.task == some task) with }

/-- An asyncio future that is done stays done. -/
theorem later_setFuture (x : Nat) (state : FutureState) : Later w (w.setFuture x state) := by
  unfold World.setFuture
  split
  · next hx =>
    exact
      { Later.refl w with
        futures := fun y hy => by
          have hyx : y ≠ x := by
            rintro rfl
            exact hy hx.2
          exact fun hp => hy ((Function.update_of_ne hyx ..).symm.trans hp) }
  · exact Later.refl w

theorem inv_setFuture (x : Nat) (state : FutureState) (h : Inv w) :
    Inv (w.setFuture x state) := by
  have hlater : Later w (w.setFuture x state) := later_setFuture x state
  unfold World.setFuture at hlater ⊢
  split
  · next hx =>
    rw [if_pos hx] at hlater
    exact
      { h with
        resolved := fun y => ⟨(h.resolved y).1, fun hne =>
          hlater.futures y ((h.resolved y).2 hne)⟩ }
  · exact h

end Updates

end GuestPy.Driver
