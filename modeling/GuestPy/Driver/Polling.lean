import GuestPy.Driver.Keeping

/-!
# Polls keep the discipline

The entries into a guest, one step of its driver, and the polls of futures that drive
coroutines.

* `Suspending` says of a poll that ends in pending what makes its record lawful: its branch, and
  its own last sweep, which has polled what it found.
* `Arranged` says how a poll of a coroutine future is left: it may end so, and what it records
  of its timer will be lawful.
-/

namespace GuestPy.Driver

open PendingHostFutures (python)
open AsyncDriverSlot

variable {α : Type} {w : World}

/-! ## Entering -/

section Entering

variable {Q : α → World → Prop} {m : Host World Err α}
  (hm : ∀ f, Safe (w.withRuntime f) m Q) (hQ : ∀ a w' f, Q a w' → Q a (World.withRuntime f w'))

include hm hQ

theorem safe_underToken (g : GuestId) (r : RuntimeInner) : Safe w (underToken g r m) Q :=
  Keeps.guarded rfl (inv_withRuntime _) (hm _)
    (fun _ ht hlater => ⟨inv_withRuntime _ ht,
      (later_withRuntime _).trans (hlater.trans (later_withRuntime _))⟩)
    (fun a t _ ha => hQ a t _ ha) fun _ h => h

theorem safe_withToken (activation : Activation) : Safe w (withToken activation m) Q := by
  apply Keeps.get
  split
  · exact Keeps.throw
  · split
    · exact Keeps.throw
    · exact safe_underToken hm hQ _ _

theorem safe_enter (activation : Activation) : Safe w (enter activation m) Q := by
  apply Keeps.get
  split
  · exact Keeps.throw
  · refine Keeps.ite (fun _ => Keeps.throw) fun _ => Keeps.ite (fun _ => ?_) fun _ => ?_
    · exact hm id
    · exact safe_withToken hm hQ activation

end Entering

section Calls

variable {callout : Call → Host World Err Answer}
  (hcall : ∀ c w, Safe w (callout c) fun _ _ => True)

include hcall

/-! ## One step of the driver -/

theorem safe_advanceEntered (hu : Unlocked w) (hf : Filled w) :
    Safe w (advanceEntered callout) fun _ _ => True := by
  apply Keeps.bind (safe_expectDriver hu hf)
  rintro _ _ _ rfl
  apply Keeps.bind (safe_attempt ((safe_withDriver hu hf
    (fun _ => AsyncRuntime.safe_advance hcall) fun _ _ _ => trivial).mono fun _ _ _ _ => trivial))
  intro advanced w1 _ _
  apply Keeps.bind (safe_attempt (safe_python hcall _))
  intro restored w2 _ _
  apply Keeps.bind (Keeps.ofExcept (Q := fun _ _ => True) fun _ _ => trivial)
  intro progress w3 _ _
  apply Keeps.bind (Keeps.ofExcept (Q := fun _ _ => True) fun _ _ => trivial)
  exact fun _ _ _ _ => Keeps.pure trivial

theorem safe_advanceWith (activation : Activation) (hu : Unlocked w) (hf : Filled w) :
    Safe w (advanceWith callout activation) fun _ _ => True := by
  refine safe_withToken (fun f => ?_) (fun _ _ _ h => h) activation
  have hu' : Unlocked (w.withRuntime f) := hu
  have hf' : Filled (w.withRuntime f) := hf
  apply Keeps.bind (safe_expectDriver hu' hf')
  rintro _ _ _ rfl
  have hpoll : Safe (w.withRuntime f).borrow (PendingHostFutures.pollAll callout .noop)
      fun _ _ => True :=
    (PendingHostFutures.safe_pollAll hcall .noop).mono fun _ _ _ _ => trivial
  apply Keeps.bind (safe_withDriver hu' hf' (fun _ => hpoll) fun _ _ _ => trivial)
  rintro _ w1 h1 ⟨-, hd⟩
  have hu1 : Unlocked w1 := hu'.later h1
  have hentered : ∀ f, Safe (w1.withRuntime f) (advanceEntered callout) fun _ _ => True :=
    fun f => safe_advanceEntered hcall (w := w1.withRuntime f) hu1 (Or.inl hd)
  exact safe_enter hentered (fun _ _ _ h => h) activation

theorem safe_advance (hu : Unlocked w) : Safe w (advance callout) fun _ _ => True := by
  apply Keeps.bind (safe_enter (Q := fun _ w' => w'.driver.isSome = true)
    (fun f => safe_ensure hcall (w := w.withRuntime f) hu) (fun _ _ _ h => h) _)
  intro _ w1 h1 hd
  apply Keeps.bind (safe_advanceWith hcall _ (hu.later h1) (Or.inl hd))
  exact fun _ _ _ _ => Keeps.pure trivial

/-! ## Timers -/

omit hcall in
/-- A poll of a timer only takes note of itself. -/
theorem safe_pollTimer (t : Timer) (d : Duration) (cx : Waker) :
    Safe w (pollTimer t d cx) fun p w' =>
      w' = w.log (.timed (t.fits w.runtime.now d)) ∧
        (p.2 = false →
          p.1.holdsBy cx (w.runtime.now + d.asNanos + Timer.slack.asNanos) = true) := by
  apply Keeps.get
  apply Keeps.bind (safe_log (e := .timed _) trivial)
  rintro _ _ _ rfl
  rcases hpoll : t.pollAfter w.runtime.now d cx with _ | ⟨t', ready⟩
  · apply safe_panicBecause
    show Event.timed false ∈ Event.timed (t.fits w.runtime.now d) :: w.events
    rw [Timer.pollAfter_eq_none hpoll]
    exact List.mem_cons_self
  · apply Keeps.pure
    refine ⟨rfl, ?_⟩
    rintro rfl
    exact Timer.pollAfter_pending hpoll

/-! ## Suspensions -/

/-- A poll may end in pending in `branch`, with `own` as its last sweep with its own waker. -/
structure Suspending (w : World) (cx : Waker) (since : Nat) (branch : Branch) (own : Option Nat) :
    Prop where
  woken : branch.wakes = true → w.wokenSince cx since = true
  unswept : branch = .driveReady ∨ branch = .driveWaiting → own = none
  swept : branch = .driveBlocked → own.isSome = true
  polled : ∀ n, own = some n → Polled w n cx

omit hcall in
theorem requested_iff {cx : Waker} {since : Nat} {branch : Branch}
    (h : branch.wakes = true → w.wokenSince cx since = true) :
    w.wokenSince cx since = true ↔
      w.wokenOutside cx since branch = true ∨ branch.wakes = true := by
  unfold World.wokenOutside
  by_cases hwakes : branch.wakes = true
  · exact ⟨fun _ => Or.inr hwakes, fun _ => h hwakes⟩
  · rw [if_neg hwakes]
    exact ⟨Or.inl, fun h => h.resolve_right hwakes⟩

omit hcall in
/-- A host future that the sweep covers was polled by it, or by a later one with the same
waker. -/
theorem Suspending.held {cx : Waker} {since : Nat} {branch : Branch} {own : Option Nat} {n x : Nat}
    (hs : Suspending w cx since branch own) (h : Inv w) (hown : own = some n)
    (hx : x ∈ w.outstanding) (hcovers : (w.ownSweep n).Covers cx ⟨x, w.ledger.held x⟩) :
    w.ledger.held x = some cx := by
  have hpolled : Polled w n cx := hs.polled n hown
  obtain ⟨hregistered, hout, hsince⟩ := hcovers
  obtain ⟨m, hm, hsweep⟩ := hpolled.polled x hx hregistered hout
  obtain ⟨hlt, hheld⟩ := h.swept x m hsweep
  rw [hheld]
  rcases Nat.eq_or_lt_of_le hm with rfl | hlater
  · exact congrArg some hpolled.waker
  · apply congrArg some
    apply hsince
    apply List.mem_filterMap.2
    exact ⟨m, List.mem_range.2 hlt, if_pos hlater⟩

omit hcall in
/-- What is recorded of a suspension is lawful. -/
theorem Suspending.lawful {cx : Waker} {since : Nat} {branch : Branch} {own : Option Nat}
    (hs : Suspending w cx since branch own) (h : Inv w) :
    (Event.suspended cx branch (w.wokenOutside cx since branch) (w.wokenSince cx since)
      (own.map w.ownSweep) (w.outstanding.map fun x => ⟨x, w.ledger.held x⟩)).Lawful w.events where
  woken := requested_iff hs.woken
  unswept hbranch := by rw [hs.unswept hbranch, Option.map_none]
  swept hbranch := Option.isSome_map.trans (hs.swept hbranch)
  held := by
    intro s hown o ho hcovers
    obtain ⟨n, hn, rfl⟩ := Option.map_eq_some_iff.1 hown
    obtain ⟨x, hx, rfl⟩ := List.mem_map.1 ho
    exact hs.held h hn hx hcovers

/-! ## Coroutine futures -/

namespace Coroutine

omit hcall in
theorem safe_activate (i : Nat) (active : Bool) :
    Safe w (activate i active) fun _ _ => True := by
  apply Keeps.ite
  · exact fun _ => Keeps.pure trivial
  · intro _
    apply Keeps.get
    split
    · exact Keeps.throw
    · split
      · exact Keeps.throw
      · exact Keeps.modify (fun h => inv_setCoroutine (inv_withRuntime _ h) fun _ hc => hc)
          ((later_withRuntime _).trans (later_setCoroutine _ _)) trivial

theorem safe_sweep (cx : Waker) (hu : Unlocked w) :
    Safe w (sweep callout cx) fun own w' => ∀ n, own = some n → Polled w' n cx := by
  apply Keeps.bind (safe_isInitialized hu)
  rintro b _ _ ⟨rfl, hb⟩
  apply Keeps.ite
  · intro h
    apply Keeps.bind (safe_withDriver hu (Or.inl (hb.symm.trans h))
      (fun _ => PendingHostFutures.safe_pollAll hcall cx) fun _ _ h => h.unborrow)
    rintro n w1 _ ⟨hn, -⟩
    apply Keeps.pure
    intro n' hn'
    cases hn'
    exact hn
  · exact fun _ => Keeps.pure fun _ h => nomatch h

theorem safe_prepare (i : Nat) (task : Option Nat) (hu : Unlocked w) :
    Safe w (prepare callout i task) fun _ _ => True := by
  cases task with
  | some t => exact Keeps.pure trivial
  | none =>
    apply Keeps.bind (safe_ensure hcall hu)
    intro _ w1 h1 hd
    apply Keeps.bind (safe_withDriver (hu.later h1) (Or.inl hd) (fun _ => hcall _ _)
      fun _ _ _ => trivial)
    intro answer w2 _ _
    apply Keeps.bind (Keeps.modify (R := fun _ _ => True)
      (inv_setCoroutine (f := fun c => { c with task := some answer.task }) · fun _ hc => hc)
      (later_setCoroutine _ _) trivial)
    exact fun _ _ _ _ => Keeps.pure trivial

theorem safe_taskState (t : Nat) : Safe w (taskState callout t) fun _ _ => True := by
  apply Keeps.bind (safe_python hcall _)
  intro _ w1 _ _
  apply Keeps.get
  apply Keeps.ite
  · intro _
    apply Keeps.bind (safe_python hcall _)
    exact fun _ _ _ _ => Keeps.pure trivial
  · exact fun _ => Keeps.pure trivial

theorem safe_stepped (i : Nat) (task : Option Nat) (hu : Unlocked w) :
    Safe w (stepped callout i task) fun _ _ => True := by
  apply Keeps.bind (safe_prepare hcall i task hu)
  intro t w1 h1 _
  apply Keeps.bind (safe_ensure hcall (hu.later h1))
  intro _ w2 h2 hd
  apply Keeps.bind (safe_withDriver ((hu.later h1).later h2) (Or.inl hd)
    (fun _ => AsyncRuntime.safe_advance hcall) fun _ _ _ => trivial)
  intro progress w3 _ _
  apply Keeps.bind (safe_taskState hcall t)
  exact fun _ _ _ _ => Keeps.pure trivial

omit hcall in
theorem safe_classify (r : Except Err α) : Safe w (classify r) fun _ w' => w' = w := by
  apply Keeps.get
  split
  · exact Keeps.throw
  · exact Keeps.ofExcept fun _ _ => rfl

omit hcall in
theorem safe_checkAbort : Safe w checkAbort fun _ w' => w' = w := by
  apply Keeps.get
  split
  · exact Keeps.throw
  · exact Keeps.ite (fun _ => Keeps.throw) fun _ => Keeps.pure rfl

theorem safe_entered (i : Nat) (task : Option Nat) (hu : Unlocked w) :
    Safe w (entered callout i task) fun _ _ => True := by
  apply Keeps.bind (safe_attempt (safe_python hcall _))
  intro checked w1 h1 _
  apply Keeps.bind (safe_classify checked)
  rintro _ _ _ rfl
  apply Keeps.bind safe_checkAbort
  rintro _ _ _ rfl
  apply Keeps.bind (safe_attempt (safe_stepped hcall i task (hu.later h1)))
  intro stepped w2 _ _
  apply Keeps.bind (safe_attempt (safe_python hcall _))
  intro restored w3 _ _
  apply Keeps.bind (Keeps.ofExcept (Q := fun _ _ => True) fun _ _ => trivial)
  intro outcome w4 _ _
  apply Keeps.bind (Keeps.ofExcept (Q := fun _ _ => True) fun _ _ => trivial)
  exact fun _ _ _ _ => Keeps.pure trivial

omit hcall in
/-- A delay that is cut down to the limits is below each of them. -/
theorem clamp_le (limits : List Duration) (delay limit : Duration) (h : limit ∈ limits) :
    (clamp limits delay).asNanos ≤ limit.asNanos := by
  have hbelow : ∀ (limits : List Duration) (delay : Duration),
      (clamp limits delay).asNanos ≤ delay.asNanos := by
    intro limits
    induction limits with
    | nil => exact fun _ => Nat.le_refl _
    | cons l rest ih => exact fun delay => (ih (delay.min l)).trans (Duration.min_le_left ..)
  induction limits generalizing delay with
  | nil => cases h
  | cons l rest ih =>
    rcases List.mem_cons.1 h with rfl | h
    · exact (hbelow rest (delay.min limit)).trans (Duration.min_le_right ..)
    · exact ih (delay.min l) h

/-- How a poll is left: it may end in its branch, what is recorded of it will be lawful, and
after a poll that found the loop active its task is woken or the timer is armed. -/
structure Arranged (w : World) (cx : Waker) (since : Nat) (progress : Progress) (older : Timer)
    (left : Arrangement) : Prop where
  suspending : Suspending w cx since left.branch left.own
  lawful : (Event.pended cx progress (w.wokenSince cx since) w.limits w.runtime.now older
    left.sleep).Lawful w.events
  awake : progress.isActive = true → (w.wokenSince cx since || left.sleep.holds cx) = true

omit hcall in
/-- A loop that waits for a guest timer is polled again in time. -/
theorem safe_waitFor (cx : Waker) (since : Nat) (older : Timer) (delay : Duration)
    (hs : since ≤ w.wakes.length) :
    Safe w (waitFor cx older delay) fun p w' =>
      (p.2 = true → w'.wokenSince cx since = true) ∧
        (Event.pended cx (.waiting delay) (w'.wokenSince cx since) w'.limits w'.runtime.now
          older p.1).Lawful w'.events ∧ (w'.wokenSince cx since || p.1.holds cx) = true := by
  apply Keeps.get
  apply Keeps.bind (safe_pollTimer older (clamp w.limits delay) cx)
  rintro ⟨t, ready⟩ _ _ ⟨rfl, hdue⟩
  apply Keeps.ite
  · intro _
    apply Keeps.bind (Keeps.modify (R := fun _ w' => w'.wokenSince cx since = true)
      (inv_wake cx) (later_wake cx) (wokenSince_wake hs))
    exact fun _ _ _ hwoken =>
      Keeps.pure ⟨fun _ => hwoken, Or.inl hwoken, by rw [hwoken, Bool.true_or]⟩
  · intro hready
    have hdue := hdue (Bool.not_eq_true _ ▸ hready)
    apply Keeps.pure
    refine ⟨nofun, Or.inr ?_, by rw [Timer.holds_of_holdsBy hdue, Bool.or_true]⟩
    intro limit hlimit
    have hle : (clamp w.limits delay).asNanos ≤ limit.asNanos := clamp_le w.limits delay limit hlimit
    exact Timer.holdsBy_mono hdue (by
      show w.runtime.now + _ + _ ≤ w.runtime.now + _ + _
      omega)

theorem safe_waitForHost (cx : Waker) (since : Nat) (own : Option Nat) (hu : Unlocked w)
    (hs : since ≤ w.wakes.length) (hown : ∀ n, own = some n → Polled w n cx) :
    Safe w (waitForHost callout cx own) fun p w' =>
      (∀ n, p.1 = some n → Polled w' n cx) ∧ (p.2 = true → w'.wokenSince cx since = true) := by
  apply Keeps.bind (safe_isInitialized hu)
  rintro b _ _ ⟨rfl, hb⟩
  apply Keeps.ite
  · intro h
    have hsweep : ∀ {n : Nat} {w' : World}, Polled w' n cx →
        ∀ n', some n = some n' → Polled w' n' cx := by
      intro n w' hn n' hn'
      cases hn'
      exact hn
    refine (safe_withDriver (Q := fun (p : Option Nat × Bool) w' =>
      (∀ n, p.1 = some n → Polled w' n cx) ∧ (p.2 = true → w'.wokenSince cx since = true)) hu
      (Or.inl (hb.symm.trans h)) (fun _ => ?_)
      fun _ _ h => ⟨fun n hn => (h.1 n hn).unborrow, h.2⟩).mono fun _ _ _ h => h.1
    apply Keeps.bind (PendingHostFutures.safe_pollAll hcall cx)
    intro n w1 h1 hn
    have hs1 : since ≤ w1.wakes.length := hs.trans h1.wakes.length_le
    apply Keeps.get
    apply Keeps.ite
    · intro _
      apply Keeps.bind (Keeps.modify (R := fun _ w2 => Later w1 w2 ∧ w2.wokenSince cx since = true)
        (inv_wake cx) (later_wake cx) ⟨later_wake cx, wokenSince_wake hs1⟩)
      exact fun _ _ _ h2 => Keeps.pure ⟨hsweep (hn.later h2.1), fun _ => h2.2⟩
    · exact fun _ => Keeps.pure ⟨hsweep hn, nofun⟩
  · exact fun _ => Keeps.pure ⟨hown, nofun⟩

theorem safe_arrange (cx : Waker) (since : Nat) (older : Timer) (own : Option Nat)
    (progress : Progress) (hu : Unlocked w) (hs : since ≤ w.wakes.length)
    (hown : ∀ n, own = some n → Polled w n cx) :
    Safe w (arrange callout cx older own progress) fun left w' =>
      Arranged w' cx since progress older left := by
  have hstay : ∀ {w' : World}, Later w w' → ∀ n, own = some n → Polled w' n cx :=
    fun h n hn => (hown n hn).later h
  cases progress with
  | ready =>
    apply Keeps.bind (Keeps.modify (R := fun _ w' => Later w w' ∧ w'.wokenSince cx since = true)
      (inv_wake cx) (later_wake cx) ⟨later_wake cx, wokenSince_wake hs⟩)
    exact fun _ _ _ h => Keeps.pure
      ⟨⟨fun _ => h.2, nofun, nofun, hstay h.1⟩, h.2, fun _ => by rw [h.2, Bool.true_or]⟩
  | waiting delay =>
    apply Keeps.bind (safe_waitFor cx since older delay hs)
    exact fun _ _ h1 h => Keeps.pure ⟨⟨h.1, nofun, nofun, hstay h1⟩, h.2.1, fun _ => h.2.2⟩
  | blocked =>
    apply Keeps.bind (safe_waitForHost hcall cx since own hu hs hown)
    exact fun _ _ _ h => Keeps.pure ⟨⟨h.2, nofun, nofun, h.1⟩, rfl, nofun⟩
  | idle =>
    apply Keeps.bind (safe_waitForHost hcall cx since own hu hs hown)
    exact fun _ _ _ h => Keeps.pure ⟨⟨h.2, nofun, nofun, h.1⟩, rfl, nofun⟩

omit hcall in
theorem inv_pend {i : Nat} {cx : Waker} {since : Nat} {progress : Progress} {older : Timer}
    {left : Arrangement} (ha : Arranged w cx since progress older left) (h : Inv w) :
    Inv (w.pend i cx since left.branch left.own progress older left.sleep) := by
  have hsuspend : Inv (w.suspend cx since left.branch left.own) :=
    inv_log (ha.suspending.lawful h) h
  have hlog := inv_log (ha.lawful.mono fun _ he => List.mem_cons_of_mem _ he) hsuspend
  apply inv_setCoroutine (f := fun c =>
    { c with
      sleep := left.sleep, status := .pending, waker := cx, since, progress
      completed := none }) hlog
  intro c _ _
  exact ⟨ha.awake, nofun, nofun⟩

omit hcall in
theorem later_pend (i : Nat) (cx : Waker) (since : Nat) (branch : Branch) (own : Option Nat)
    (progress : Progress) (older sleep : Timer) :
    Later w (w.pend i cx since branch own progress older sleep) :=
  ((later_log _).trans (later_log _)).trans (later_setCoroutine _ _)

theorem safe_pollBody (i : Nat) (cx : Waker) (since : Nat) (c : CoroutineFuture)
    (hu : Unlocked w) (hs : since ≤ w.wakes.length) :
    Safe w (pollBody callout i cx since c) fun _ _ => True := by
  apply Keeps.bind (safe_activate i c.active)
  intro _ w1 h1 _
  apply Keeps.bind (safe_sweep hcall cx (hu.later h1))
  intro own w2 h2 hown
  have hu2 : Unlocked w2 := (hu.later h1).later h2
  apply Keeps.bind (safe_attempt (safe_entered hcall i c.task hu2))
  intro outcome w3 h3 _
  apply Keeps.bind (safe_classify outcome)
  rintro ⟨progress, done⟩ _ _ rfl
  apply Keeps.ite
  · intro _
    apply Keeps.bind (safe_python hcall _)
    exact fun _ _ _ _ => Keeps.pure trivial
  · intro _
    have hs3 : since ≤ _ := hs.trans ((h1.wakes.trans h2.wakes).trans h3.wakes).length_le
    apply Keeps.bind (safe_arrange hcall cx since c.sleep own progress (hu2.later h3) hs3
      fun n hn => (hown n hn).later h3)
    intro left w4 _ ha
    apply Keeps.bind (Keeps.modify (R := fun _ _ => True) (inv_pend ha)
      (later_pend i cx since left.branch left.own progress c.sleep left.sleep) trivial)
    exact fun _ _ _ _ => Keeps.pure trivial

omit hcall in
theorem safe_settle (i : Nat) :
    Safe w (Host.modify (World.setCoroutine i fun c => { c with status := .fresh }))
      fun _ _ => True :=
  Keeps.modify (inv_setCoroutine (f := fun c => { c with status := .fresh }) · fun _ _ hp => by
    cases hp) (later_setCoroutine _ _) trivial

theorem safe_poll (i : Nat) (cx : Waker) (hu : Unlocked w) :
    Safe w (poll callout i cx) fun _ _ => True := by
  apply Keeps.get
  split
  · exact Keeps.pure trivial
  · next c _ =>
    apply Keeps.ite
    · exact fun _ => Keeps.pure trivial
    · intro _
      apply Keeps.bind (Keeps.modify (R := fun _ w1 => w1.wakes = w.wakes)
        (inv_setCoroutine (f := fun c => { c with status := .polling }) · fun _ _ hp => by
          cases hp)
        (later_setCoroutine _ _) rfl)
      intro _ w1 h1 hwakes
      apply Keeps.bind (safe_attempt (safe_pollBody hcall i cx w.wakes.length c (hu.later h1)
        (hwakes ▸ Nat.le_refl _)))
      intro r w2 _ _
      split
      · exact Keeps.pure trivial
      · exact safe_settle i
      · apply Keeps.bind (safe_settle i)
        exact fun _ _ _ _ => Keeps.throw

end Coroutine

end Calls

end GuestPy.Driver
