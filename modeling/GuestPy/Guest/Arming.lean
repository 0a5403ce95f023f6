import GuestPy.Guest.Balance

/-!
# The deadline of nested activity

A guest becomes active at any depth, by operations and cleanups, while time passes and
cancellation is requested. Only an operation that finds it inactive arms its deadline.

* `step_cases` lists all that a change does to the depth and the deadline.
* `sound_run` is the invariant: the deadline is armed at depths above 0 only.
* `kept_run` and `remaining_run` say what becomes of a deadline while the guest stays active:
  nothing, so the time that remains goes down as time passes.
* `view_step` connects the activity of one guest to the runtime: what happens to a runtime
  changes the activity of each of its guests at most once.
-/

namespace GuestPy

/-! ## Deadlines -/

namespace Deadline

theorem isArmed_iff {d : Deadline} : d.isArmed = true ↔ d.at < u64Max := by
  have hle : d.at ≤ u64Max := d.bounded
  unfold isArmed
  rw [bne_iff_ne]
  omega

theorem isArmed_new : new.isArmed = false := by
  unfold isArmed new
  simp

theorem u64Max_le_maxNanos : u64Max ≤ Duration.maxNanos := by
  unfold u64Max Duration.maxNanos
  omega

/-- The sum saturates twice, as a duration and as a 64-bit number. -/
theorem at_arm (nanos : Nat) (budget : Duration) :
    (arm (.saturate nanos) budget).at = min (nanos + budget.asNanos) u64Max := by
  have hle := u64Max_le_maxNanos
  change min (min (min nanos Duration.maxNanos + budget.asNanos) Duration.maxNanos) u64Max = _
  omega

theorem remaining_eq {d : Deadline} {nanos : Nat} (h : nanos < 2 ^ 64) :
    d.remaining (.saturate nanos) =
      if d.isArmed then some (.saturate (d.at - nanos)) else none := by
  have hle := u64Max_le_maxNanos
  have hnanos : (Duration.saturate nanos).asNanos % 2 ^ 64 = nanos := by
    change min nanos Duration.maxNanos % 2 ^ 64 = nanos
    rw [Nat.min_eq_left (by unfold u64Max at hle; omega), Nat.mod_eq_of_lt h]
  rw [remaining, hnanos]

end Deadline

/-! ## One change -/

/-- The activity of a guest, and the nanoseconds since the base of its deadline. -/
structure TimedActivity where
  activity : GuestActivity
  nanos : Nat

/-- What happens to it. A request is what the cancellation signal answers from then on. -/
inductive Change where
  | begin (activation : Activation)
  | finish
  | request (answer : Bool)
  | pass (nanos : Nat)

namespace TimedActivity

/-- A guest that has just been built. -/
def new (policy : ExecutionPolicy) (timeout : Option Duration) : TimedActivity :=
  ⟨.new (policy.derive timeout), 0⟩

def elapsed (s : TimedActivity) : Duration := .saturate s.nanos

def depth (s : TimedActivity) : Nat := s.activity.depth

def policy (s : TimedActivity) : ExecutionPolicy := s.activity.policy

def armed (s : TimedActivity) : Bool := s.policy.deadline.isArmed

def remaining (s : TimedActivity) : Option Duration := s.policy.remaining s.elapsed

def begin (s : TimedActivity) (activation : Activation) : Except (Error Unit) GuestActivity :=
  s.activity.begin s.elapsed activation

/-- A change that fails leaves the activity as it is, a `finish` by its assertion. -/
def step (s : TimedActivity) : Change → TimedActivity
  | .begin activation =>
    match s.begin activation with
    | .ok activity => { s with activity }
    | .error _ => s
  | .finish =>
    match s.activity.finish with
    | some activity => { s with activity }
    | none => s
  | .request answer =>
    { s with
      activity.policy.cancellation := s.policy.cancellation.map fun _ => ⟨answer⟩ }
  | .pass nanos => { s with nanos := s.nanos + nanos }

def run (s : TimedActivity) (cs : List Change) : TimedActivity := cs.foldl step s

/-- The begins that have succeeded and are not finished yet, if there were `n` before. -/
def unfinished : Nat → TimedActivity → List Change → Nat
  | n, _, [] => n
  | n, s, c :: cs =>
    match c with
    | .begin activation =>
      match s.begin activation with
      | .ok _ => unfinished (n + 1) (s.step c) cs
      | .error _ => unfinished n (s.step c) cs
    | .finish => unfinished (n - 1) (s.step c) cs
    | _ => unfinished n (s.step c) cs

/-- The outermost activation of `s` is about to begin, as an operation that is not refused. -/
structure Opens (s : TimedActivity) (c : Change) : Prop where
  inactive : s.depth = 0
  operation : c = .begin .operation
  allowed : s.policy.isCancelled = false

/-- It is about to finish. -/
structure Closes (s : TimedActivity) (c : Change) : Prop where
  outermost : s.depth = 1
  finish : c = .finish

/-- The deadline that the outermost activation gets. -/
def opening (s : TimedActivity) : Deadline :=
  match s.policy.timeout with
  | some budget => if s.armed then s.policy.deadline else .arm s.elapsed budget
  | none => s.policy.deadline

structure Opened (s s' : TimedActivity) : Prop where
  depth : s'.depth = 1
  nanos : s'.nanos = s.nanos
  deadline : s'.policy.deadline = s.opening

structure Closed (s' : TimedActivity) : Prop where
  depth : s'.depth = 0
  armed : s'.armed = false

/-- The deadline stays, and so does an active guest. -/
structure Kept (s s' : TimedActivity) : Prop where
  deadline : s'.policy.deadline = s.policy.deadline
  active : 0 < s.depth → 0 < s'.depth
  nanos : s.nanos ≤ s'.nanos

variable {s : TimedActivity} {activation : Activation}

theorem policy_begin_eq (h : s.policy.isCancelled = false) :
    (s.policy.begin s.elapsed : Except (Error Unit) _) =
      .ok { s.policy with deadline := s.opening } := by
  unfold ExecutionPolicy.begin opening armed
  rw [if_neg (by rw [h]; decide)]
  cases htimeout : s.policy.timeout with
  | none => rfl
  | some budget =>
    dsimp only
    by_cases harmed : s.policy.deadline.isArmed = true
    · rw [if_pos harmed, if_pos harmed]
    · rw [if_neg harmed, if_neg harmed, htimeout]

theorem begin_outermost (hdepth : s.depth = 0) (h : s.policy.isCancelled = false) :
    s.begin .operation = .ok ⟨1, { s.policy with deadline := s.opening }⟩ := by
  have hactivity : s.activity.depth = 0 := hdepth
  have hpolicy : (s.activity.policy.begin s.elapsed : Except (Error Unit) _) =
    .ok { s.policy with deadline := s.opening } := policy_begin_eq h
  unfold begin GuestActivity.begin
  rw [if_pos ⟨hactivity, rfl⟩, hpolicy, hactivity]

theorem begin_cancelled (hdepth : s.depth = 0) (h : s.policy.isCancelled = true) :
    s.begin .operation = .error .cancelled := by
  have hactivity : s.activity.depth = 0 := hdepth
  have hcancelled : s.activity.policy.isCancelled = true := h
  unfold begin GuestActivity.begin ExecutionPolicy.begin
  rw [if_pos ⟨hactivity, rfl⟩, if_pos hcancelled]

theorem begin_inner (h : ¬ (s.depth = 0 ∧ activation = .operation)) :
    s.begin activation = .ok { s.activity with depth := s.depth + 1 } :=
  if_neg h

/-- Only a cancelled operation that would be the outermost activation is refused. -/
theorem begin_fails_iff :
    (∃ e, s.begin activation = .error e) ↔
      s.depth = 0 ∧ activation = .operation ∧ s.policy.isCancelled = true := by
  constructor
  · rintro ⟨e, he⟩
    by_cases h : s.depth = 0 ∧ activation = .operation
    · obtain ⟨hdepth, rfl⟩ := h
      cases hcancelled : s.policy.isCancelled with
      | true => exact ⟨hdepth, rfl, rfl⟩
      | false =>
        rw [begin_outermost hdepth hcancelled] at he
        cases he
    · rw [begin_inner h] at he
      cases he
  · rintro ⟨hdepth, rfl, hcancelled⟩
    exact ⟨_, begin_cancelled hdepth hcancelled⟩

theorem step_of_fails {e : Error Unit} (h : s.begin activation = .error e) :
    s.step (.begin activation) = s := by
  simp only [step, h]

/-- A change begins the outermost activation, finishes it, or keeps the deadline. -/
theorem step_cases (s : TimedActivity) (c : Change) :
    (s.Opens c ∧ s.Opened (s.step c)) ∨ (s.Closes c ∧ Closed (s.step c)) ∨
      (¬ s.Opens c ∧ ¬ s.Closes c ∧ s.Kept (s.step c)) := by
  cases c with
  | begin activation =>
    by_cases h : s.depth = 0 ∧ activation = .operation
    · obtain ⟨hdepth, rfl⟩ := h
      cases hcancelled : s.policy.isCancelled with
      | true =>
        right; right
        refine ⟨fun ho => ?_, nofun, ?_⟩
        · exact absurd ho.allowed (by rw [hcancelled]; decide)
        · rw [step_of_fails (begin_cancelled hdepth hcancelled)]
          exact ⟨rfl, id, Nat.le_refl _⟩
      | false =>
        left
        refine ⟨⟨hdepth, rfl, hcancelled⟩, ?_⟩
        simp only [step, begin_outermost hdepth hcancelled]
        exact ⟨rfl, rfl, rfl⟩
    · right; right
      refine ⟨fun ho => h ⟨ho.inactive, Change.begin.inj ho.operation⟩, nofun, ?_⟩
      simp only [step, begin_inner h]
      exact ⟨rfl, fun _ => Nat.succ_pos _, Nat.le_refl _⟩
  | finish =>
    rcases hdepth : s.depth with _ | _ | depth
    · right; right
      have hfinish : s.activity.finish = none := by
        rw [GuestActivity.finish, show s.activity.depth = 0 from hdepth]
      refine ⟨nofun, fun hc => ?_, ?_⟩
      · have hone := hc.outermost
        omega
      · simp only [step, hfinish]
        exact ⟨rfl, id, Nat.le_refl _⟩
    · right; left
      have hfinish : s.activity.finish = some ⟨0, s.policy.disarm⟩ := by
        rw [GuestActivity.finish, show s.activity.depth = 1 from hdepth]
        rfl
      refine ⟨⟨hdepth, rfl⟩, ?_⟩
      simp only [step, hfinish]
      exact ⟨rfl, Deadline.isArmed_new⟩
    · right; right
      have hfinish : s.activity.finish = some { s.activity with depth := depth + 1 } := by
        rw [GuestActivity.finish, show s.activity.depth = depth + 2 from hdepth]
      refine ⟨nofun, fun hc => ?_, ?_⟩
      · have hone := hc.outermost
        omega
      · simp only [step, hfinish]
        exact ⟨rfl, fun _ => Nat.succ_pos _, Nat.le_refl _⟩
  | request answer => exact .inr (.inr ⟨nofun, nofun, rfl, id, Nat.le_refl _⟩)
  | pass nanos => exact .inr (.inr ⟨nofun, nofun, rfl, id, Nat.le_add_right _ _⟩)

/-! ## The depth -/

theorem depth_begin {activity : GuestActivity} (h : s.begin activation = .ok activity) :
    (s.step (.begin activation)).depth = s.depth + 1 := by
  have hdepth : activity.depth = s.depth + 1 := GuestActivity.begin_depth h
  simp only [step, h]
  exact hdepth

theorem depth_finish : (s.step .finish).depth = s.depth - 1 := by
  rcases Nat.eq_zero_or_pos s.depth with hzero | hpos
  · have hfinish : s.activity.finish = none := by
      rw [GuestActivity.finish, show s.activity.depth = 0 from hzero]
    simp only [step, hfinish]
    omega
  · obtain ⟨activity, hfinish, hdepth⟩ := GuestActivity.finish_of_pos hpos
    simp only [step, hfinish]
    exact hdepth

theorem depth_run (s : TimedActivity) (cs : List Change) :
    (s.run cs).depth = unfinished s.depth s cs := by
  induction cs generalizing s with
  | nil => rfl
  | cons c cs ih =>
    have hrest : (s.run (c :: cs)).depth = unfinished (s.step c).depth (s.step c) cs :=
      ih (s.step c)
    rw [hrest]
    cases c with
    | begin activation =>
      cases h : s.begin activation with
      | ok activity => simp only [unfinished, h, depth_begin h]
      | error e => simp only [unfinished, h, step_of_fails h]
    | finish => simp only [unfinished, depth_finish]
    | request answer => rfl
    | pass nanos => rfl

/-! ## The deadline -/

theorem Kept.armed {s' : TimedActivity} (h : s.Kept s') : s'.armed = s.armed := by
  unfold TimedActivity.armed
  rw [h.deadline]

/-- The deadline is armed only while the guest is active. -/
def Sound (s : TimedActivity) : Prop := s.armed = true → 0 < s.depth

theorem sound_new (policy : ExecutionPolicy) (timeout : Option Duration) :
    (new policy timeout).Sound :=
  fun h => absurd (Deadline.isArmed_new.symm.trans h) (by decide)

theorem sound_step (hs : s.Sound) (c : Change) : (s.step c).Sound := by
  intro harmed
  rcases step_cases s c with ⟨-, h⟩ | ⟨-, h⟩ | ⟨-, -, h⟩
  · rw [h.depth]
    exact Nat.one_pos
  · rw [h.armed] at harmed
    cases harmed
  · rw [h.armed] at harmed
    exact h.active (hs harmed)

theorem sound_run (hs : s.Sound) (cs : List Change) : (s.run cs).Sound := by
  induction cs generalizing s with
  | nil => exact hs
  | cons c cs ih => exact ih (sound_step hs c)

/-- An armed deadline is disarmed exactly when the outermost activation finishes. -/
theorem disarmed_iff (hs : s.Sound) (harmed : s.armed = true) (c : Change) :
    (s.step c).armed = false ↔ s.Closes c := by
  have hpos : 0 < s.depth := hs harmed
  rcases step_cases s c with ⟨ho, -⟩ | ⟨hc, h⟩ | ⟨-, hc, h⟩
  · have hzero := ho.inactive
    omega
  · exact ⟨fun _ => hc, fun _ => h.armed⟩
  · constructor
    · intro hdisarmed
      rw [h.armed, harmed] at hdisarmed
      cases hdisarmed
    · exact fun hc' => absurd hc' hc

theorem at_opening {budget : Duration} (harmed : s.armed = false)
    (htimeout : s.policy.timeout = some budget) :
    s.opening.at = min (s.nanos + budget.asNanos) u64Max := by
  have hopening : s.opening = .arm s.elapsed budget := by
    simp only [opening, htimeout, harmed]
    rfl
  rw [hopening]
  exact Deadline.at_arm s.nanos budget

/-- A deadline is armed exactly when the outermost activation begins as an operation that has a
budget, unless the moment at which that runs out is too late for the clock. -/
theorem armed_iff (harmed : s.armed = false) (c : Change) :
    (s.step c).armed = true ↔ s.Opens c ∧
      ∃ budget, s.policy.timeout = some budget ∧ s.nanos + budget.asNanos < u64Max := by
  rcases step_cases s c with ⟨ho, h⟩ | ⟨hc, h⟩ | ⟨ho, -, h⟩
  · rw [TimedActivity.armed, h.deadline, Deadline.isArmed_iff]
    cases htimeout : s.policy.timeout with
    | none =>
      have hopening : s.opening = s.policy.deadline := by
        simp only [opening, htimeout]
      rw [hopening, ← Deadline.isArmed_iff]
      constructor
      · intro harmed'
        exact absurd harmed' (by rw [show s.policy.deadline.isArmed = false from harmed]; decide)
      · rintro ⟨-, budget, hbudget, -⟩
        cases hbudget
    | some budget =>
      rw [at_opening harmed htimeout]
      constructor
      · intro hlt
        exact ⟨ho, budget, rfl, by omega⟩
      · rintro ⟨-, budget', hbudget, hlt⟩
        cases hbudget
        omega
  · rw [h.armed]
    constructor
    · exact nofun
    · rintro ⟨ho, -⟩
      have hone := hc.outermost
      have hzero := ho.inactive
      omega
  · rw [h.armed, harmed]
    exact ⟨nofun, fun ho' => absurd ho'.1 ho⟩

/-! ## Active stretches -/

def Active (s : TimedActivity) : Prop := 0 < s.depth

/-- The guest is active at each moment of the run. -/
def StaysActive (s : TimedActivity) (cs : List Change) : Prop := Throughout step Active s cs

theorem Kept.refl (s : TimedActivity) : s.Kept s := ⟨rfl, id, Nat.le_refl _⟩

theorem Kept.trans {s' s'' : TimedActivity} (h : s.Kept s') (h' : s'.Kept s'') : s.Kept s'' where
  deadline := h'.deadline.trans h.deadline
  active hs := h'.active (h.active hs)
  nanos := h.nanos.trans h'.nanos

/-- Between two moments at which the guest is active, its outermost activation neither begins nor
finishes. -/
theorem kept_step {c : Change} (hs : s.Active) (hs' : (s.step c).Active) :
    s.Kept (s.step c) := by
  unfold Active at hs hs'
  rcases step_cases s c with ⟨ho, -⟩ | ⟨-, hc⟩ | ⟨-, -, hk⟩
  · have hzero := ho.inactive
    omega
  · have hzero := hc.depth
    omega
  · exact hk

theorem kept_run {cs : List Change} (h : s.StaysActive cs) : s.Kept (s.run cs) := by
  induction cs generalizing s with
  | nil => exact .refl s
  | cons c cs ih =>
    obtain ⟨hactive, hrest⟩ := h
    have hactive' : (s.step c).Active := throughout_first hrest
    exact (kept_step hactive hactive').trans (ih hrest)

/-- While the guest stays active, the time that remains goes down by the time that passes. -/
theorem remaining_run {cs : List Change} (h : s.StaysActive cs)
    (hclock : (s.run cs).nanos < 2 ^ 64) :
    (s.run cs).remaining = s.remaining.map fun left =>
      .saturate (left.asNanos - ((s.run cs).nanos - s.nanos)) := by
  have hkept := kept_run h
  have hnanos := hkept.nanos
  have hremaining : ∀ s' : TimedActivity, s'.nanos < 2 ^ 64 → s'.remaining =
      if s'.armed then some (.saturate (s'.policy.deadline.at - s'.nanos)) else none :=
    fun s' h' => Deadline.remaining_eq h'
  rw [hremaining _ hclock, hremaining s (by omega), hkept.armed, hkept.deadline]
  cases s.armed with
  | false => rfl
  | true =>
    have hmax := Deadline.u64Max_le_maxNanos
    have hat : s.policy.deadline.at ≤ u64Max := s.policy.deadline.bounded
    simp only [if_true, Option.map_some, Option.some.injEq]
    apply Duration.ext
    change min _ Duration.maxNanos = min (min _ Duration.maxNanos - _) Duration.maxNanos
    omega

/-! ## Runs -/

/-- What holds of an activity, whatever has happened to it. -/
structure Arming (s : TimedActivity) : Prop where
  refused : ∀ activation, (∃ e, s.begin activation = .error e) ↔
    s.depth = 0 ∧ activation = .operation ∧ s.policy.isCancelled = true
  unchanged : ∀ activation e, s.begin activation = .error e → s.step (.begin activation) = s
  active : s.armed = true → 0 < s.depth
  opened : ∀ c, s.armed = false → ((s.step c).armed = true ↔ s.Opens c ∧
    ∃ budget, s.policy.timeout = some budget ∧ s.nanos + budget.asNanos < u64Max)
  moment : ∀ c budget, s.Opens c → s.policy.timeout = some budget →
    (s.step c).policy.deadline.at = min (s.nanos + budget.asNanos) u64Max
  closed : ∀ c, s.armed = true → ((s.step c).armed = false ↔ s.Closes c)
  kept : ∀ cs, s.StaysActive cs → (s.run cs).policy.deadline = s.policy.deadline
  remaining : ∀ cs, s.StaysActive cs → (s.run cs).nanos < 2 ^ 64 →
    (s.run cs).remaining = s.remaining.map fun left =>
      .saturate (left.asNanos - ((s.run cs).nanos - s.nanos))

theorem arming (hs : s.Sound) : s.Arming where
  refused _ := begin_fails_iff
  unchanged _ _ := step_of_fails
  active := hs
  opened c harmed := armed_iff harmed c
  moment c budget ho htimeout := by
    have hzero := ho.inactive
    have harmed : s.armed = false := by
      by_contra harmed
      have hpos := hs (by rwa [Bool.not_eq_false] at harmed)
      omega
    rcases step_cases s c with ⟨-, h⟩ | ⟨hc, -⟩ | ⟨ho', -⟩
    · rw [h.deadline]
      exact at_opening harmed htimeout
    · have hone := hc.outermost
      omega
    · exact absurd ho ho'
  closed c harmed := disarmed_iff hs harmed c
  kept _ h := (kept_run h).deadline
  remaining _ h hclock := remaining_run h hclock

/-- **The deadline belongs to the outermost activation.** The depth counts the begins that are not
finished; the outermost one arms the deadline, its end disarms it, and in between nothing moves
it, so the time that remains goes down by the time that passes. -/
theorem arming_run (policy : ExecutionPolicy) (timeout : Option Duration) (cs : List Change) :
    ((new policy timeout).run cs).depth = unfinished 0 (new policy timeout) cs ∧
      ((new policy timeout).run cs).Arming :=
  ⟨depth_run _ cs, arming (sound_run (sound_new policy timeout) cs)⟩

end TimedActivity

/-! ## The guests of a runtime -/

namespace RuntimeInner

open TimedActivity

/-- The activity of a guest of the runtime. -/
def view (r : RuntimeInner) (g : GuestId) : Option TimedActivity :=
  (r.guests g).map fun inner => ⟨inner.activity, r.now - inner.base⟩

/-- One change of an activity, or none. -/
def Moves (s s' : TimedActivity) : Prop := s' = s ∨ ∃ c, s' = s.step c

section Views

variable {r r' : RuntimeInner} {g x : GuestId} {inner : GuestInner} {activation : Activation}
  {s : TimedActivity}

theorem view_of_guests (h : r.guests g = some inner) :
    r.view g = some ⟨inner.activity, r.now - inner.base⟩ := by
  rw [view, h]
  rfl

theorem view_set_self :
    (r.set g (some inner)).view g = some ⟨inner.activity, r.now - inner.base⟩ :=
  view_of_guests set_guests_self

theorem view_set_of_ne {i : Option GuestInner} (h : x ≠ g) : (r.set g i).view x = r.view x := by
  rw [view, set_guests_of_ne h]
  rfl

/-- What is left of a guest after a release it had before. -/
theorem view_release (h : (r.release g).view x = some s) : r.view x = some s := by
  unfold release at h
  split at h
  · split at h
    · by_cases hx : x = g
      · subst hx
        rw [view, set_guests_self] at h
        cases h
      · rwa [view_set_of_ne hx] at h
    · exact h
  · exact h

/-- A guest replaced by one whose activity has moved. -/
theorem moves_set {i : GuestInner} (hg : r.guests g = some inner)
    (hmoves : Moves ⟨inner.activity, r.now - inner.base⟩ ⟨i.activity, r.now - i.base⟩)
    (h : (r.set g (some i)).view x = some s) : ∃ s', r.view x = some s' ∧ Moves s' s := by
  by_cases hx : x = g
  · subst hx
    rw [view_set_self] at h
    cases h
    exact ⟨_, view_of_guests hg, hmoves⟩
  · rw [view_set_of_ne hx] at h
    exact ⟨s, h, .inl rfl⟩

theorem moves_update {f : GuestInner → GuestInner}
    (hf : ∀ inner, Moves ⟨inner.activity, r.now - inner.base⟩
      ⟨(f inner).activity, r.now - (f inner).base⟩)
    (h : (r.update g f).view x = some s) : ∃ s', r.view x = some s' ∧ Moves s' s := by
  unfold update at h
  cases hg : r.guests g with
  | none =>
    rw [hg] at h
    exact ⟨s, h, .inl rfl⟩
  | some inner =>
    rw [hg] at h
    exact moves_set hg (hf inner) h

theorem moves_new (hg : r.guests g = some inner)
    (hn : ActiveGuest.new r g inner activation = (.ok r' : Except (Error Unit) _))
    (h : r'.view x = some s) : ∃ s', r.view x = some s' ∧ Moves s' s := by
  unfold ActiveGuest.new at hn
  split at hn
  · next activity hbegin =>
    cases hn
    apply moves_set (i := { inner with activity }) hg _ h
    right
    refine ⟨.begin activation, ?_⟩
    have hbegin' : TimedActivity.begin ⟨inner.activity, r.now - inner.base⟩ activation =
      .ok activity := hbegin
    simp only [TimedActivity.step, hbegin']
  · cases hn

theorem moves_drop (hg : r.guests g = some inner) (hd : ActiveGuest.drop r g inner = some r')
    (h : r'.view x = some s) : ∃ s', r.view x = some s' ∧ Moves s' s := by
  unfold ActiveGuest.drop pop at hd
  split at hd
  · next popped activity hpop hfinish =>
    cases hd
    have hset := view_release h
    have hnow : popped.now = r.now ∧ popped.guests = r.guests := by
      split at hpop
      · cases hpop
      · cases hpop
        exact ⟨rfl, rfl⟩
    have hmoves : Moves ⟨inner.activity, popped.now - inner.base⟩
        ⟨activity, popped.now - inner.base⟩ := by
      right
      refine ⟨.finish, ?_⟩
      simp only [TimedActivity.step, hfinish]
    have hview : ∀ y, popped.view y = r.view y := by
      intro y
      rw [view, view, hnow.1, hnow.2]
    obtain ⟨s', hs', hmoves'⟩ := moves_set (i := { inner with activity })
      (show popped.guests g = some inner by rw [hnow.2, hg]) hmoves hset
    exact ⟨s', by rw [← hview, hs'], hmoves'⟩
  · cases hd

/-- **What happens to a runtime changes the activity of each of its guests at most once**, or
builds the guest. -/
theorem view_step (a : Action) (h : (r.step a).view x = some s) :
    (∃ s', r.view x = some s' ∧ Moves s' s) ∨
      ∃ policy, a = .build policy ∧ s = ⟨.new policy, 0⟩ := by
  have hsame : ∀ {s : TimedActivity}, r.view x = some s → ∃ s', r.view x = some s' ∧ Moves s' s :=
    fun h => ⟨_, h, .inl rfl⟩
  cases a with
  | build policy =>
    simp only [step, build, takeNextId] at h
    by_cases hn : r.nextId < u64Max
    · cases hid : GuestId.fromU64 r.nextId with
      | none =>
        simp only [hn, if_true, hid] at h
        exact .inl (hsame h)
      | some g =>
        simp only [hn, if_true, hid] at h
        by_cases hx : x = g
        · subst hx
          rw [view_set_self] at h
          cases h
          right
          exact ⟨policy, rfl, by rw [Nat.sub_self]⟩
        · rw [view_set_of_ne hx] at h
          exact .inl (hsame h)
    · simp only [hn, if_false] at h
      exact .inl (hsame h)
  | begin g activation =>
    left
    cases hg : r.guests g with
    | none =>
      simp only [step, hg] at h
      exact hsame h
    | some inner =>
      cases hn : (ActiveGuest.new r g inner activation : Except (Error Unit) _) with
      | error e =>
        simp only [step, hg, hn] at h
        exact hsame h
      | ok r' =>
        simp only [step, hg, hn] at h
        exact moves_new hg hn h
  | enter g activation =>
    left
    cases hg : r.guests g with
    | none =>
      simp only [step, hg] at h
      exact hsame h
    | some inner =>
      cases hn : (enterWith r g inner activation : Except (Error Unit) _) with
      | error e =>
        simp only [step, hg, hn] at h
        exact hsame h
      | ok r' =>
        simp only [step, hg, hn] at h
        unfold enterWith at hn
        split at hn
        · cases hn
        · split at hn
          · cases hn
            exact hsame h
          · exact moves_new hg hn h
  | drop g =>
    left
    by_cases ht : g ∈ r.tokens
    · cases hg : r.guests g with
      | none =>
        simp only [step, ht, if_true, hg] at h
        exact hsame h
      | some inner =>
        simp only [step, ht, if_true, hg] at h
        cases hdrop : ActiveGuest.drop r g inner with
        | none =>
          rw [hdrop] at h
          exact hsame h
        | some r' =>
          rw [hdrop] at h
          exact moves_drop hg hdrop h
    · simp only [step, ht, if_false] at h
      exact hsame h
  | clone g =>
    exact .inl (moves_update (f := fun inner => { inner with handles := inner.handles + 1 })
      (fun _ => .inl rfl) h)
  | forget g =>
    exact .inl (moves_update (f := fun inner => { inner with handles := inner.handles - 1 })
      (fun _ => .inl rfl) (view_release h))
  | close g =>
    exact .inl (moves_update (f := fun inner => { inner with closed := true })
      (fun _ => .inl rfl) h)
  | signal g answer => exact .inl (moves_update (fun _ => .inr ⟨.request answer, rfl⟩) h)
  | tick nanos =>
    left
    obtain ⟨inner, hg, rfl⟩ := Option.map_eq_some_iff.mp h
    have hpassed : ∃ passed, r.now + nanos - inner.base = r.now - inner.base + passed :=
      Nat.exists_eq_add_of_le (by omega)
    obtain ⟨passed, hpassed⟩ := hpassed
    refine ⟨_, view_of_guests hg, .inr ⟨.pass passed, ?_⟩⟩
    exact congrArg (TimedActivity.mk inner.activity) hpassed

end Views

/-- Guests are built with policies whose deadline has not been armed. -/
def BuildsFresh (_ : RuntimeInner) (a : Action) : Prop :=
  ∀ policy, a = .build policy → policy.deadline.isArmed = false

theorem sound_view {r : RuntimeInner} {as : List Action}
    (hr : ∀ g s, r.view g = some s → s.Sound) (h : Along step BuildsFresh r as) :
    ∀ g s, (as.foldl step r).view g = some s → s.Sound := by
  induction as generalizing r with
  | nil => exact hr
  | cons a as ih =>
    obtain ⟨hfresh, hrest⟩ := h
    refine ih (fun g s hs => ?_) hrest
    rcases view_step a hs with ⟨s', hs', rfl | ⟨c, rfl⟩⟩ | ⟨policy, rfl, rfl⟩
    · exact hr g _ hs'
    · exact sound_step (hr g s' hs') c
    · intro harmed
      exact absurd ((hfresh policy rfl).symm.trans harmed) (by decide)

/-- The guests of a runtime keep to the discipline of their deadlines. -/
theorem arming_view {as : List Action} (h : Along step BuildsFresh new as) {g : GuestId}
    {s : TimedActivity} (hs : (as.foldl step new).view g = some s) : s.Arming :=
  arming (sound_view (fun _ _ hs => by cases hs) h g s hs)

end RuntimeInner

end GuestPy
