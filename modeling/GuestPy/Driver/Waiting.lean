import GuestPy.Driver.Operations

/-!
# Waiting for a guest timer

`WaitTimer` is the future that `drive` waits on in its waiting branch. It polls its timer with the
same delay each time, and a timer takes a new sleep when the old one is over.

* `pollAfter_ready_iff` says when a poll of a timer is ready: only without a delay.
* `endsOnTime_iff` says for which polls a wait is ready from its end on, and not before.
* `resume_pending` and `resumeDrive_ready` say that `drive` stays in its waiting branch as long as
  the wait is pending, and no longer.
* `waitFor_wakes` says that a coroutine future is woken in time.
-/

namespace GuestPy.Driver

namespace Timer

/-! ## One poll -/

theorem eq_new_or_arm (t : Timer) : t = new ∨ ∃ s, t = arm s := by
  obtain ⟨sleep, deadline, agree⟩ := t
  cases sleep with
  | none =>
    cases agree
    exact .inl rfl
  | some s =>
    cases agree
    exact .inr ⟨s, rfl⟩

/-- A poll that takes a new sleep. -/
def pollFresh (now : Nat) (duration : Duration) (cx : Waker) : Timer × Bool :=
  if duration.asNanos = 0 then (new, true)
  else (arm ⟨now + duration.asNanos, some cx⟩, false)

theorem instantAdd_of_le {moment : Nat} {d : Duration} (h : moment + d.asNanos ≤ instantMax) :
    instantAdd moment d = some (moment + d.asNanos) :=
  if_pos h

theorem instantAdd_of_lt {moment : Nat} {d : Duration} (h : ¬ moment + d.asNanos ≤ instantMax) :
    instantAdd moment d = none :=
  if_neg h

theorem reuse_arm_over {s : Sleep} {now : Nat} (target : Nat) (h : s.due ≤ now) :
    (arm s).reuse now target = some none :=
  if_neg (Nat.not_lt.mpr h)

theorem reuse_arm {s : Sleep} {now target : Nat} (hnow : now < s.due)
    (hlimit : target + slack.asNanos ≤ instantMax) :
    (arm s).reuse now target =
      some (if s.due ≤ target + slack.asNanos then some s else none) := by
  unfold reuse arm
  dsimp only
  rw [if_pos hnow, instantAdd_of_le hlimit]

theorem reuse_arm_none {s : Sleep} {now target : Nat} (hnow : now < s.due)
    (hlimit : ¬ target + slack.asNanos ≤ instantMax) : (arm s).reuse now target = none := by
  unfold reuse arm
  dsimp only
  rw [if_pos hnow, instantAdd_of_lt hlimit]

theorem pollAfter_fresh {t : Timer} {now : Nat} {duration : Duration} (cx : Waker)
    (h : now + duration.asNanos ≤ instantMax)
    (hreuse : t.reuse now (now + duration.asNanos) = some none) :
    t.pollAfter now duration cx = some (pollFresh now duration cx) := by
  unfold pollAfter pollFresh
  rw [instantAdd_of_le h]
  dsimp only
  rw [hreuse]
  dsimp only [Option.getD_none]
  by_cases hzero : duration.asNanos = 0
  · rw [if_pos (by omega), if_pos hzero]
  · rw [if_neg (by omega), if_neg hzero]

theorem pollAfter_new {now : Nat} {duration : Duration} (cx : Waker)
    (h : now + duration.asNanos ≤ instantMax) :
    new.pollAfter now duration cx = some (pollFresh now duration cx) :=
  pollAfter_fresh cx h rfl

/-- A sleep that is over is replaced. -/
theorem pollAfter_arm_over {s : Sleep} {now : Nat} {duration : Duration} (cx : Waker)
    (h : now + duration.asNanos ≤ instantMax) (hover : s.due ≤ now) :
    (arm s).pollAfter now duration cx = some (pollFresh now duration cx) :=
  pollAfter_fresh cx h (reuse_arm_over _ hover)

/-- So is one that is due too late. -/
theorem pollAfter_arm_late {s : Sleep} {now : Nat} {duration : Duration} (cx : Waker)
    (h : now + duration.asNanos + slack.asNanos ≤ instantMax)
    (hlate : now + duration.asNanos + slack.asNanos < s.due) :
    (arm s).pollAfter now duration cx = some (pollFresh now duration cx) := by
  refine pollAfter_fresh cx (by omega) ?_
  rw [reuse_arm (by omega) h, if_neg (by omega)]

theorem pollAfter_arm_kept {s : Sleep} {now : Nat} {duration : Duration} (cx : Waker)
    (h : now + duration.asNanos + slack.asNanos ≤ instantMax) (hnow : now < s.due)
    (hkept : s.due ≤ now + duration.asNanos + slack.asNanos) :
    (arm s).pollAfter now duration cx = some (arm { s with waker := some cx }, false) := by
  have htarget : now + duration.asNanos ≤ instantMax := by omega
  unfold pollAfter
  rw [instantAdd_of_le htarget]
  dsimp only
  rw [reuse_arm hnow h, if_pos hkept]
  dsimp only [Option.getD_some]
  rw [if_neg (by omega)]

theorem pollAfter_none {t : Timer} {now : Nat} {duration : Duration} (cx : Waker)
    (h : ¬ now + duration.asNanos ≤ instantMax) : t.pollAfter now duration cx = none := by
  unfold pollAfter
  rw [instantAdd_of_lt h]

theorem pollAfter_arm_none {s : Sleep} {now : Nat} {duration : Duration} (cx : Waker)
    (h : ¬ now + duration.asNanos + slack.asNanos ≤ instantMax) (hnow : now < s.due) :
    (arm s).pollAfter now duration cx = none := by
  by_cases htarget : now + duration.asNanos ≤ instantMax
  · unfold pollAfter
    rw [instantAdd_of_le htarget]
    dsimp only
    rw [reuse_arm_none hnow h]
  · exact pollAfter_none cx htarget

theorem fits_new {now : Nat} {duration : Duration} :
    new.fits now duration = true ↔ now + duration.asNanos ≤ instantMax := by
  unfold fits new
  rw [Bool.and_true, decide_eq_true_eq]

theorem fits_arm {s : Sleep} {now : Nat} {duration : Duration} :
    (arm s).fits now duration = true ↔ now + duration.asNanos ≤ instantMax ∧
      (s.due ≤ now ∨ now + duration.asNanos + slack.asNanos ≤ instantMax) := by
  unfold fits arm
  rw [Bool.and_eq_true, Bool.or_eq_true, decide_eq_true_eq, decide_eq_true_eq, decide_eq_true_eq]

/-- A poll that is ready takes a new sleep, of no time. -/
theorem ready_iff_fresh {now : Nat} {duration : Duration} {cx : Waker} {t' : Timer} :
    pollFresh now duration cx = (t', true) ↔ duration.asNanos = 0 ∧ t' = new := by
  unfold pollFresh
  split
  · rename_i h
    simp [h, eq_comm]
  · rename_i h
    simp [h]

/-- Only a poll without a delay is ready, unless the timer keeps a sleep that is due soon. -/
theorem pollAfter_ready_iff {t t' : Timer} {now : Nat} {duration : Duration} {cx : Waker} :
    t.pollAfter now duration cx = some (t', true) ↔
      (duration.asNanos = 0 ∧ t.fits now duration = true ∧
        ∀ due, t.deadline = some due → due ≤ now ∨ now + slack.asNanos < due) ∧ t' = new := by
  rcases t.eq_new_or_arm with rfl | ⟨s, rfl⟩
  · rw [fits_new]
    by_cases htarget : now + duration.asNanos ≤ instantMax
    · rw [pollAfter_new cx htarget, Option.some.injEq, ready_iff_fresh]
      constructor
      · rintro ⟨hzero, rfl⟩
        exact ⟨⟨hzero, htarget, nofun⟩, rfl⟩
      · exact fun h => ⟨h.1.1, h.2⟩
    · rw [pollAfter_none cx htarget]
      exact ⟨nofun, fun h => absurd h.1.2.1 htarget⟩
  · rw [fits_arm]
    have hdeadline : (arm s).deadline = some s.due := rfl
    by_cases htarget : now + duration.asNanos ≤ instantMax
    · by_cases hover : s.due ≤ now
      · rw [pollAfter_arm_over cx htarget hover, Option.some.injEq, ready_iff_fresh]
        constructor
        · rintro ⟨hzero, rfl⟩
          refine ⟨⟨hzero, ⟨htarget, .inl hover⟩, fun due hdue => .inl ?_⟩, rfl⟩
          cases hdue
          exact hover
        · exact fun h => ⟨h.1.1, h.2⟩
      · by_cases hslack : now + duration.asNanos + slack.asNanos ≤ instantMax
        · by_cases hkept : s.due ≤ now + duration.asNanos + slack.asNanos
          · rw [pollAfter_arm_kept cx hslack (by omega) hkept]
            constructor
            · intro h
              cases h
            · rintro ⟨⟨hzero, -, hdue⟩, -⟩
              rcases hdue s.due hdeadline with hle | hlt <;> omega
          · rw [pollAfter_arm_late cx hslack (by omega), Option.some.injEq, ready_iff_fresh]
            constructor
            · rintro ⟨hzero, rfl⟩
              refine ⟨⟨hzero, ⟨htarget, .inr hslack⟩, fun due hdue => .inr ?_⟩, rfl⟩
              cases hdue
              omega
            · exact fun h => ⟨h.1.1, h.2⟩
        · rw [pollAfter_arm_none cx hslack (by omega)]
          constructor
          · exact nofun
          · rintro ⟨⟨-, ⟨-, hfits⟩, -⟩, -⟩
            rcases hfits with hle | hle
            · exact absurd hle hover
            · exact absurd hle hslack
    · rw [pollAfter_none cx htarget]
      exact ⟨nofun, fun h => absurd h.1.2.1.1 htarget⟩

end Timer

/-! ## Waits -/

structure WaitTimer where
  timer : Timer
  delay : Duration

/-- An instant, and the waker of the context of the poll. -/
abbrev Moment := Nat × Waker

namespace WaitTimer

def poll (w : WaitTimer) (now : Nat) (cx : Waker) : Option (WaitTimer × Bool) :=
  (w.timer.pollAfter now w.delay cx).map fun polled => ({ w with timer := polled.1 }, polled.2)

/-- Which of the polls are ready. One that panics is not, and leaves the timer as it is. -/
def ready : WaitTimer → List Moment → List Bool
  | _, [] => []
  | w, (now, cx) :: polls =>
    match w.poll now cx with
    | some (w', ready) => ready :: w'.ready polls
    | none => false :: w.ready polls

/-- The polls are ready from the first one plus the delay on, and not before. -/
def EndsOnTime (w : WaitTimer) (first : Moment) (polls : List Moment) : Prop :=
  w.ready (first :: polls) =
    (first :: polls).map fun p => decide (first.1 + w.delay.asNanos ≤ p.1)

/-- No poll comes when the wait should be over, or there is nothing to wait for and the timer
does not keep a sleep that is due soon. -/
def InTime (w : WaitTimer) (first : Moment) (polls : List Moment) : Prop :=
  (∀ p ∈ first :: polls, p.1 < first.1 + w.delay.asNanos) ∨
    w.delay.asNanos = 0 ∧ w.timer.fits first.1 w.delay = true ∧
      ∀ due, w.timer.deadline = some due → due ≤ first.1 ∨ first.1 + Timer.slack.asNanos < due

/-- Instants that do not decrease. -/
def Clock (polls : List Moment) : Prop :=
  polls.Pairwise (fun p p' => p.1 ≤ p'.1) ∧ ∀ p ∈ polls, p.1 ≤ instantMax

variable {w : WaitTimer}

theorem ready_of_delay (h : w.delay.asNanos ≠ 0) (polls : List Moment) :
    w.ready polls = polls.map fun _ => false := by
  induction polls generalizing w with
  | nil => rfl
  | cons p polls ih =>
    obtain ⟨now, cx⟩ := p
    simp only [ready, poll]
    cases hpoll : w.timer.pollAfter now w.delay cx with
    | none => simp [ih h]
    | some polled =>
      obtain ⟨t', ready⟩ := polled
      have hpending : ready = false := by
        cases ready with
        | true => exact absurd (Timer.pollAfter_ready_iff.mp hpoll).1.1 h
        | false => rfl
      have hrest := ih (w := { w with timer := t' }) h
      simp only [Option.map_some, hpending, List.map_cons, hrest]

/-- Without a delay an empty timer is always ready. -/
theorem ready_of_new {polls : List Moment} (h : w.delay.asNanos = 0) (hnew : w.timer = Timer.new)
    (hpolls : ∀ p ∈ polls, p.1 ≤ instantMax) : w.ready polls = polls.map fun _ => true := by
  induction polls with
  | nil => rfl
  | cons p polls ih =>
    obtain ⟨now, cx⟩ := p
    have hnow : now + w.delay.asNanos ≤ instantMax := by
      have hle : now ≤ instantMax := hpolls _ List.mem_cons_self
      omega
    have hpoll : w.poll now cx = some (w, true) := by
      rw [poll, hnew, Timer.pollAfter_new cx hnow, Timer.ready_iff_fresh.mpr ⟨h, rfl⟩, ← hnew]
      rfl
    simp only [ready, hpoll, List.map_cons, List.cons.injEq, true_and]
    exact ih fun p hp => hpolls p (List.mem_cons_of_mem _ hp)

theorem poll_of_delay {now : Nat} {cx : Waker} (h : w.delay.asNanos ≠ 0)
    (hclock : now + w.delay.asNanos + Timer.slack.asNanos ≤ instantMax) :
    ∃ w', w.poll now cx = some (w', false) := by
  cases hafter : w.timer.pollAfter now w.delay cx with
  | none =>
    have hfits := Timer.pollAfter_eq_none hafter
    have htarget : now + w.delay.asNanos ≤ instantMax := by omega
    unfold Timer.fits at hfits
    cases hdeadline : w.timer.deadline with
    | none => simp [hdeadline, htarget] at hfits
    | some due => simp [hdeadline, htarget, hclock] at hfits
  | some polled =>
    obtain ⟨t', ready⟩ := polled
    cases ready with
    | true => exact absurd (Timer.pollAfter_ready_iff.mp hafter).1.1 h
    | false =>
      refine ⟨{ w with timer := t' }, ?_⟩
      rw [poll, hafter]
      rfl

/-- A wait with a delay never ends. -/
theorem endsOnTime_iff (w : WaitTimer) {first : Moment} {polls : List Moment}
    (hclock : Clock (first :: polls)) : w.EndsOnTime first polls ↔ w.InTime first polls := by
  unfold EndsOnTime InTime
  by_cases hdelay : w.delay.asNanos = 0
  · have hdue : ∀ p ∈ first :: polls, decide (first.1 + w.delay.asNanos ≤ p.1) = true := by
      intro p hp
      rw [hdelay, decide_eq_true_eq]
      rcases List.mem_cons.mp hp with rfl | hp
      · omega
      · exact (List.pairwise_cons.mp hclock.1).1 p hp
    rw [List.map_congr_left hdue]
    obtain ⟨now, cx⟩ := first
    constructor
    · intro h
      simp only [ready, List.map_cons] at h
      cases hpoll : w.poll now cx with
      | none => simp [hpoll] at h
      | some polled =>
        obtain ⟨w', r⟩ := polled
        simp only [hpoll, List.cons.injEq] at h
        obtain ⟨⟨t', r'⟩, hafter, heq⟩ := Option.map_eq_some_iff.mp hpoll
        cases heq
        obtain ⟨rfl, -⟩ : r' = true ∧ _ := h
        exact .inr (Timer.pollAfter_ready_iff.mp hafter).1
    · rintro (hbefore | hsoon)
      · have hlt := hbefore _ List.mem_cons_self
        omega
      · have hafter : w.timer.pollAfter now w.delay cx = some (Timer.new, true) :=
          Timer.pollAfter_ready_iff.mpr ⟨hsoon, rfl⟩
        have hpoll : w.poll now cx = some ({ w with timer := Timer.new }, true) := by
          rw [poll, hafter]
          rfl
        have hrest := ready_of_new (w := { w with timer := Timer.new }) hdelay rfl
          fun p hp => hclock.2 p (List.mem_cons_of_mem (now, cx) hp)
        simp only [ready, hpoll, hrest, List.map_cons]
  · rw [ready_of_delay hdelay]
    have hbefore : ((first :: polls).map fun _ => false) =
        ((first :: polls).map fun p => decide (first.1 + w.delay.asNanos ≤ p.1)) ↔
          ∀ p ∈ first :: polls, p.1 < first.1 + w.delay.asNanos := by
      rw [List.map_inj_left]
      refine forall₂_congr fun p _ => ?_
      rw [eq_comm, decide_eq_false_iff_not]
      omega
    rw [hbefore]
    exact ⟨.inl, fun h => h.resolve_right fun hsoon => hdelay hsoon.1⟩

end WaitTimer

/-! ## Drives -/

section Drives

variable {callout : Call → Host World Err Answer} {w : World} {i : Nat} {o : Operation}
  {delay : Duration} {cx : Waker} {t : WaitTimer}

/-- The timer of a call, while `drive` waits for `delay`. -/
def Operation.wait (o : Operation) (delay : Duration) : WaitTimer := ⟨o.sleep, delay⟩

/-- What a poll of the wait does to the call. -/
def World.waited (i : Nat) (o : Operation) (delay : Duration) (t : WaitTimer) (w : World) :
    World :=
  (w.log (.timed (o.sleep.fits w.runtime.now delay))).setOperation i fun o =>
    { o with sleep := t.timer }

theorem pollWaiting_eq {ready : Bool} (hi : w.operations i = some o)
    (hpoll : (o.wait delay).poll w.runtime.now cx = some (t, ready)) :
    pollWaiting i cx delay w = (.ok ready, w.waited i o delay t) := by
  obtain ⟨⟨t', ready'⟩, hafter, heq⟩ := Option.map_eq_some_iff.mp hpoll
  cases heq
  have hafter' : o.sleep.pollAfter w.runtime.now delay cx = some (t', ready') := hafter
  simp only [pollWaiting, pollTimer, bind, pure, Host.bind, Host.pure, Host.get, Host.modify, hi,
    hafter']
  rfl

/-- While the wait is pending `drive` is suspended again. -/
theorem resumeDrive_pending {since rounds : Nat} {call : Operation}
    (hi : w.operations i = some o) (hstage : call.stage = .waiting delay)
    (hpoll : (o.wait delay).poll w.runtime.now cx = some (t, false)) :
    resumeDrive callout i cx since call rounds w =
      (.ok (.suspended (.waiting delay)),
        (w.waited i o delay t).suspend cx since .driveWaiting none) := by
  have hwait := pollWaiting_eq hi hpoll
  simp only [resumeDrive, hstage, bind, Host.bind, hwait]
  rfl

/-- Once it is ready `drive` goes on. -/
theorem resumeDrive_ready {since rounds : Nat} {call : Operation}
    (hi : w.operations i = some o) (hstage : call.stage = .waiting delay)
    (hpoll : (o.wait delay).poll w.runtime.now cx = some (t, true)) :
    resumeDrive callout i cx since call rounds w =
      (do
        spend i
        driveLoop callout i cx since call.activation rounds : Host World Err Turn)
        (w.waited i o delay t) := by
  have hwait := pollWaiting_eq hi hpoll
  simp only [resumeDrive, hstage, bind, Host.bind, hwait]
  rfl

/-- The call in a poll. -/
def World.enterPoll (i : Nat) (w : World) : World :=
  w.setOperation i fun o => { o with stage := o.stage.polled }

/-- A poll that leaves the call in its wait. -/
def World.keepWaiting (i : Nat) (cx : Waker) (o : Operation) (delay : Duration) (t : WaitTimer)
    (w : World) : World :=
  (((w.enterPoll i).waited i o delay t).suspend cx w.wakes.length .driveWaiting none).setOperation i
    fun o => { o with stage := .waiting delay }

/-- A poll of a call that waits drives nothing, as long as the wait is pending. -/
theorem resume_pending {rounds : Nat} (hi : w.operations i = some o)
    (hstage : o.stage = .waiting delay)
    (hpoll : (o.wait delay).poll w.runtime.now cx = some (t, false)) :
    resume callout i cx rounds w = (.ok (), w.keepWaiting i cx o delay t) := by
  have hrunning : (w.enterPoll i).operations i = some { o with stage := o.stage.polled } := by
    simp [World.enterPoll, World.setOperation, hi]
  have hdrive : resumeDrive callout i cx w.wakes.length o rounds (w.enterPoll i) = _ :=
    resumeDrive_pending hrunning hstage hpoll
  unfold World.enterPoll at hdrive
  simp only [resume, resumeFrom, resumeBody, bind, pure, Host.bind, Host.pure, Host.get, hi,
    hstage, Host.bracket, Host.attempt, hdrive]
  rfl

theorem operations_keepWaiting (hi : w.operations i = some o) (hstage : o.stage = .waiting delay) :
    (w.keepWaiting i cx o delay t).operations i = some { o with sleep := t.timer } := by
  simp [World.keepWaiting, World.enterPoll, World.waited, World.suspend, World.setOperation,
    World.log, hi, hstage]

/-- Time passes, and the call is polled, again and again. -/
def waitOut (callout : Call → Host World Err Answer) (i rounds : Nat) :
    List Moment → World → World
  | [], w => w
  | (nanos, cx) :: polls, w =>
    waitOut callout i rounds polls
      (resume callout i cx rounds (w.withRuntime fun r => r.step (.tick nanos))).2

/-- `drive` does not come out of its waiting branch. -/
theorem waitOut_stage {rounds : Nat} (hdelay : delay.asNanos ≠ 0) (polls : List Moment)
    (hi : w.operations i = some o) (hstage : o.stage = .waiting delay)
    (hclock : w.runtime.now + (polls.map Prod.fst).sum + delay.asNanos + Timer.slack.asNanos ≤
      instantMax) :
    ((waitOut callout i rounds polls w).operations i).map Operation.stage =
      some (.waiting delay) := by
  induction polls generalizing w o with
  | nil =>
    rw [waitOut, hi, ← hstage]
    rfl
  | cons p polls ih =>
    obtain ⟨nanos, cx⟩ := p
    rw [List.map_cons, List.sum_cons] at hclock
    have hpending : ∃ t, (o.wait delay).poll (w.runtime.now + nanos) cx = some (t, false) :=
      WaitTimer.poll_of_delay hdelay (by
        change w.runtime.now + nanos + delay.asNanos + Timer.slack.asNanos ≤ instantMax
        omega)
    obtain ⟨t, hpoll⟩ := hpending
    have hlater : (w.withRuntime fun r => r.step (.tick nanos)).operations i = some o := hi
    rw [waitOut, resume_pending hlater hstage hpoll]
    apply ih (operations_keepWaiting hlater hstage) hstage
    change w.runtime.now + nanos + (polls.map Prod.fst).sum + delay.asNanos +
      Timer.slack.asNanos ≤ instantMax
    omega

/-- A coroutine future that waits has been woken, or is woken in time. -/
theorem waitFor_wakes {w' : World} {sleep sleep' : Timer} {due : Bool}
    (h : Coroutine.waitFor cx sleep delay w = (.ok (sleep', due), w')) :
    w'.wakes = cx :: w.wakes ∨ sleep'.holdsBy cx
      (w.runtime.now + (Coroutine.clamp w.limits delay).asNanos + Timer.slack.asNanos) = true := by
  cases hpoll : sleep.pollAfter w.runtime.now (Coroutine.clamp w.limits delay) cx with
  | none =>
    simp [Coroutine.waitFor, pollTimer, panicBecause, bind, Host.bind, Host.get, Host.modify,
      Host.panic, hpoll] at h
  | some polled =>
    obtain ⟨t, ready⟩ := polled
    cases ready with
    | true =>
      simp [Coroutine.waitFor, pollTimer, bind, pure, Host.bind, Host.pure, Host.get, Host.modify,
        hpoll] at h
      left
      rw [← h.2]
      rfl
    | false =>
      simp [Coroutine.waitFor, pollTimer, bind, pure, Host.bind, Host.pure, Host.get, Host.modify,
        hpoll] at h
      right
      rw [← h.1.1]
      exact Timer.pollAfter_pending hpoll

end Drives

/-- **Waits end on time exactly if no poll comes when they are over, or there is nothing to wait
for.** What is pending keeps a sleep that is due in time, but `drive` goes on only once its wait
is ready, which one with a delay never is. -/
theorem waits_iff (wait : WaitTimer) (first : Moment) (polls : List Moment) :
    (WaitTimer.Clock (first :: polls) →
      (wait.EndsOnTime first polls ↔ wait.InTime first polls)) ∧
    (∀ (t t' : Timer) (now : Nat) (duration : Duration) (cx : Waker),
      t.pollAfter now duration cx = some (t', false) →
        t'.holdsBy cx (now + duration.asNanos + Timer.slack.asNanos) = true) ∧
    (∀ (callout : Call → Host World Err Answer) (w : World) (i rounds : Nat) (o : Operation)
      (delay : Duration) (cx : Waker) (t : WaitTimer),
      w.operations i = some o → o.stage = .waiting delay →
        ((o.wait delay).poll w.runtime.now cx = some (t, false) →
          resume callout i cx rounds w = (.ok (), w.keepWaiting i cx o delay t)) ∧
        ((o.wait delay).poll w.runtime.now cx = some (t, true) → ∀ since,
          resumeDrive callout i cx since o rounds w =
            (do
              spend i
              driveLoop callout i cx since o.activation rounds : Host World Err Turn)
              (w.waited i o delay t))) ∧
    (∀ (callout : Call → Host World Err Answer) (w : World) (i rounds : Nat) (o : Operation)
      (delay : Duration) (polls : List Moment),
      w.operations i = some o → o.stage = .waiting delay → delay.asNanos ≠ 0 →
      w.runtime.now + (polls.map Prod.fst).sum + delay.asNanos + Timer.slack.asNanos ≤
        instantMax →
      ((waitOut callout i rounds polls w).operations i).map Operation.stage =
        some (.waiting delay)) ∧
    (∀ (w w' : World) (sleep sleep' : Timer) (due : Bool) (delay : Duration) (cx : Waker),
      Coroutine.waitFor cx sleep delay w = (.ok (sleep', due), w') →
        w'.wakes = cx :: w.wakes ∨ sleep'.holdsBy cx (w.runtime.now +
          (Coroutine.clamp w.limits delay).asNanos + Timer.slack.asNanos) = true) := by
  refine ⟨wait.endsOnTime_iff, fun _ _ _ _ _ => Timer.pollAfter_pending, ?_, ?_,
    fun _ _ _ _ _ _ _ => waitFor_wakes⟩
  · intro callout w i rounds o delay cx t hi hstage
    constructor
    · intro hpoll
      exact resume_pending hi hstage hpoll
    · intro hpoll since
      exact resumeDrive_ready hi hstage hpoll
  · intro callout w i rounds o delay polls hi hstage hdelay hclock
    exact waitOut_stage hdelay polls hi hstage hclock

/-- The poll for which a wait of a millisecond is woken makes it wait for another one. -/
theorem waits_again :
    ¬ ∀ (w : WaitTimer) (first : Moment) (polls : List Moment), WaitTimer.Clock (first :: polls) →
      w.EndsOnTime first polls := by
  intro h
  have hclock : WaitTimer.Clock [(0, .task 0), (1000000, .task 0)] := by
    constructor
    · simp
    · simp [instantMax]
  have hends := h ⟨.new, .fromMillis 1⟩ _ _ hclock
  have hdelay : (Duration.fromMillis 1).asNanos ≠ 0 := by decide
  rw [WaitTimer.EndsOnTime, WaitTimer.ready_of_delay hdelay] at hends
  exact absurd hends (by decide)

end GuestPy.Driver
