import GuestPy.Policy

/-!
# Timers

A driver that waits for the next guest timer sleeps. What it sleeps for comes from the
selector of the event loop, as a floating-point number of seconds.

* `Duration.fromSecsF64` is the conversion of that number. It panics on what is not a
  duration.
* A `Timer` keeps its sleep between polls, and takes another one only where the old one is
  over or due too late. `pollAfter` is one poll of it.
* `pollAfter_pending` bounds when a timer that was left pending is due.
-/

namespace GuestPy.Driver

/-! ## Wakers -/

/-- Whom a poll asks to be woken: nobody, or a task. -/
inductive Waker where
  | noop
  | task (n : Nat)
  deriving DecidableEq

/-! ## Seconds -/

/-- A 64-bit floating-point number, as far as timeouts go. -/
inductive Number where
  | nan
  | infinite (negative : Bool)
  | finite (value : Rat)
  deriving DecidableEq

namespace Number

/-- `delay <= 0.0`, which a number that is not one fails. -/
def nonpos : Number → Bool
  | nan => false
  | infinite negative => negative
  | finite value => decide (value ≤ 0)

/-- Whole nanoseconds, the nearest ones, and the even ones of two that are as near. -/
def nanos (value : Rat) : Nat :=
  let scaled : Rat := value * 10 ^ 9
  let whole : Nat := scaled.floor.toNat
  let rest : Rat := scaled - whole
  if rest < 1 / 2 then whole
  else if 1 / 2 < rest then whole + 1
  else if whole % 2 = 0 then whole
  else whole + 1

/-- A number of seconds that a duration can hold. -/
def isDuration : Number → Bool
  | nan => false
  | infinite _ => false
  | finite value => decide (0 ≤ value) && decide (value < 2 ^ 64)

/-- `Duration::from_secs_f64`: `none` where it panics. -/
def toDuration : Number → Option Duration
  | finite value =>
    if (finite value).isDuration then some (.saturate (nanos value)) else none
  | _ => none

theorem toDuration_eq_none_iff {x : Number} : x.toDuration = none ↔ x.isDuration = false := by
  cases x with
  | nan => exact ⟨fun _ => rfl, fun _ => rfl⟩
  | infinite negative => exact ⟨fun _ => rfl, fun _ => rfl⟩
  | finite value =>
    unfold toDuration
    by_cases h : (finite value).isDuration = true
    · simp [h]
    · simp [h]

end Number

/-! ## Instants -/

/-- The last moment of the clock: an `Instant` counts seconds in 63 bits. -/
def instantMax : Nat := 2 ^ 63 * 10 ^ 9 - 1

/-- `Instant + Duration`: `none` where it panics. -/
def instantAdd (moment : Nat) (d : Duration) : Option Nat :=
  if moment + d.asNanos ≤ instantMax then some (moment + d.asNanos) else none

/-! ## Timers -/

/-- A sleep, with the waker that its last poll left behind. -/
structure Sleep where
  due : Nat
  waker : Option Waker

/-- A timer; `deadline` is when its sleep is due. -/
structure Timer where
  sleep : Option Sleep
  deadline : Option Nat
  agree : deadline = sleep.map Sleep.due

namespace Timer

def slack : Duration := .fromMillis 1

def new : Timer := ⟨none, none, rfl⟩

def arm (s : Sleep) : Timer := ⟨some s, some s.due, rfl⟩

/-- Is the timer armed, with a sleep of this waker? -/
def holds (t : Timer) (cx : Waker) : Bool := t.sleep.any fun s => s.waker == some cx

/-- Is a sleep of this waker due by `moment`? -/
def holdsBy (t : Timer) (cx : Waker) (moment : Nat) : Bool :=
  t.sleep.any fun s => s.waker == some cx && decide (s.due ≤ moment)

theorem holdsBy_mono {t : Timer} {cx : Waker} {moment later : Nat}
    (h : t.holdsBy cx moment = true) (hle : moment ≤ later) : t.holdsBy cx later = true := by
  unfold holdsBy at h ⊢
  rw [Option.any_eq_true] at h ⊢
  obtain ⟨s, hs, hdue⟩ := h
  rw [Bool.and_eq_true, decide_eq_true_eq] at hdue
  refine ⟨s, hs, ?_⟩
  rw [Bool.and_eq_true, decide_eq_true_eq]
  exact ⟨hdue.1, hdue.2.trans hle⟩

theorem holds_of_holdsBy {t : Timer} {cx : Waker} {moment : Nat}
    (h : t.holdsBy cx moment = true) : t.holds cx = true := by
  unfold holdsBy at h
  unfold holds
  rw [Option.any_eq_true] at h ⊢
  obtain ⟨s, hs, hdue⟩ := h
  exact ⟨s, hs, (Bool.and_eq_true .. ▸ hdue).1⟩

/-- The sleep that may be kept: one that is not over, and due early enough. The bound is
computed only for a sleep that is not over. -/
def reuse (t : Timer) (now target : Nat) : Option (Option Sleep) :=
  match t.sleep, t.deadline with
  | some s, some existing =>
    if now < existing then
      match instantAdd target slack with
      | some limit => some (if existing ≤ limit then some s else none)
      | none => none
    else
      some none
  | _, _ => some none

/-- `Timer::poll_after`: the timer left behind, and whether it is ready. `none` where the
arithmetic panics. -/
def pollAfter (t : Timer) (now : Nat) (duration : Duration) (cx : Waker) :
    Option (Timer × Bool) :=
  match instantAdd now duration with
  | none => none
  | some target =>
    match t.reuse now target with
    | none => none
    | some reused =>
      let s := reused.getD ⟨target, none⟩
      if s.due ≤ now then some (new, true)
      else some (arm { s with waker := some cx }, false)

/-- Does the arithmetic of a poll stay within the clock? -/
def fits (t : Timer) (now : Nat) (duration : Duration) : Bool :=
  decide (now + duration.asNanos ≤ instantMax) &&
    (match t.deadline with
    | some existing =>
      decide (existing ≤ now) ||
        decide (now + duration.asNanos + slack.asNanos ≤ instantMax)
    | none => true)

theorem reuse_eq_none {t : Timer} {now target : Nat} (h : t.reuse now target = none) :
    ∃ existing, t.deadline = some existing ∧ now < existing ∧
      instantMax < target + slack.asNanos := by
  unfold reuse at h
  split at h
  · next s existing _ hdeadline =>
    split at h
    · next hnow =>
      split at h
      · cases h
      · next hadd =>
        unfold instantAdd at hadd
        split at hadd
        · cases hadd
        · next hslack => exact ⟨existing, hdeadline, hnow, by omega⟩
    · cases h
  · cases h

/-- A sleep that is kept is due at most the slack after the target. -/
theorem reuse_due {t : Timer} {now target : Nat} {s : Sleep}
    (h : t.reuse now target = some (some s)) : s.due ≤ target + slack.asNanos := by
  unfold reuse at h
  split at h
  · next s' existing hsleep hdeadline =>
    have hagree := t.agree
    rw [hsleep, hdeadline] at hagree
    have hdue : existing = s'.due := Option.some.inj hagree
    split at h
    · split at h
      · next limit hadd =>
        unfold instantAdd at hadd
        split at hadd
        · cases hadd
          split at h
          · next hle =>
            cases h
            omega
          · cases h
        · cases hadd
      · cases h
    · cases h
  · cases h

theorem pollAfter_eq_none {t : Timer} {now : Nat} {duration : Duration} {cx : Waker}
    (h : t.pollAfter now duration cx = none) : t.fits now duration = false := by
  unfold pollAfter instantAdd at h
  unfold fits
  by_cases htarget : now + duration.asNanos ≤ instantMax
  · rw [if_pos htarget] at h
    cases hreuse : t.reuse now (now + duration.asNanos) with
    | none =>
      obtain ⟨existing, hdeadline, hnow, hslack⟩ := reuse_eq_none hreuse
      rw [hdeadline]
      have hover : ¬ existing ≤ now := by omega
      have hslack' : ¬ now + duration.asNanos + slack.asNanos ≤ instantMax := by omega
      simp only [hover, hslack', decide_false, Bool.or_false, Bool.and_false]
    | some reused =>
      simp only [hreuse] at h
      split at h <;> cases h
  · simp only [htarget, decide_false, Bool.false_and]

/-- A timer that is left pending holds the waker of the poll, and is due at most the slack
after the duration that was asked for. -/
theorem pollAfter_pending {t t' : Timer} {now : Nat} {duration : Duration} {cx : Waker}
    (h : t.pollAfter now duration cx = some (t', false)) :
    t'.holdsBy cx (now + duration.asNanos + slack.asNanos) = true := by
  unfold pollAfter instantAdd at h
  by_cases htarget : now + duration.asNanos ≤ instantMax
  · rw [if_pos htarget] at h
    cases hreuse : t.reuse now (now + duration.asNanos) with
    | none =>
      simp only [hreuse] at h
      cases h
    | some reused =>
      have hdue : (reused.getD ⟨now + duration.asNanos, none⟩).due ≤
          now + duration.asNanos + slack.asNanos := by
        cases reused with
        | none => exact Nat.le_add_right _ _
        | some s => exact reuse_due hreuse
      simp only [hreuse] at h
      split at h
      · cases h
      · cases h
        simp only [holdsBy, arm, Option.any_some, beq_self_eq_true, Bool.true_and,
          decide_eq_true_eq]
        exact hdue
  · rw [if_neg htarget] at h
    cases h

end Timer

end GuestPy.Driver
