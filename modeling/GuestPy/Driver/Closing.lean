import GuestPy.Driver.Operations
import GuestPy.Library.Answers

/-!
# Closing a driver

`close` of an active driver cancels the tasks of the loop, drives the loop within a budget, and
closes the coroutines of the tasks that are left. Only then is the driver taken away.

* `Tasks` is what the guest makes of it: its code runs in every call, and may fail, start tasks or
  go on after it has been cancelled.
* `close_eq_ok` says when the whole call returns without an error, and what it leaves.
* `close_leavesNothing_iff` says when it leaves nothing behind: the first call that fails ends it,
  with the other coroutines open and the driver in place, and a task started while coroutines are
  closed is not closed.
-/

namespace GuestPy.Driver

/-! ## The guest -/

/-- The tasks of a guest's loop, over its state. `rest` is what goes on while the drive is
suspended, if it comes back. Of `all_tasks` it is known that it lists the tasks of the loop that
are not finished. -/
structure Tasks (σ Ex Task Coro : Type) where
  unfinished : σ → List Task
  allTasks : Host σ (Error Ex) (List Task)
  cancel : Task → Host σ (Error Ex) Unit
  getCoro : Task → Host σ (Error Ex) Coro
  closeCoro : Coro → Host σ (Error Ex) Unit
  pollAllNow : σ → σ
  advance : Host σ (Error Ex) Progress
  setRunningLoop : Host σ (Error Ex) Unit
  rest : Progress → σ → Option σ
  clearContext : Host σ (Error Ex) Unit
  listed : ∀ s tasks s', allTasks s = (.ok tasks, s') → ∀ t, t ∈ tasks ↔ t ∈ unfinished s'

/-- A guest with its driver. `attempted` are the tasks whose coroutines it has been tried to
close. -/
structure Closing (σ Task : Type) where
  guest : σ
  closed : Bool
  driver : Bool
  attempted : List Task

variable {σ Ex Task Coro α : Type}

namespace Closing

/-- A guest whose driver is about to be closed. -/
def start (s : σ) (closed : Bool) : Closing σ Task := ⟨s, closed, true, []⟩

def withGuest (s : σ) (w : Closing σ Task) : Closing σ Task := { w with guest := s }

def attempt (t : Task) (w : Closing σ Task) : Closing σ Task :=
  { w with attempted := t :: w.attempted }

def take (w : Closing σ Task) : Closing σ Task := { w with driver := false }

def flags (w : Closing σ Task) : Bool × Bool := (w.closed, w.driver)

end Closing

namespace Tasks

open Closing

def onGuest (m : Host σ (Error Ex) α) : Host (Closing σ Task) (Error Ex) α :=
  Host.zoom Closing.guest withGuest m

def expectDriver : Host (Closing σ Task) (Error Ex) Unit := do
  let w ← Host.get
  if w.driver then pure () else Host.panic

def enterCleanup (m : Host (Closing σ Task) (Error Ex) α) :
    Host (Closing σ Task) (Error Ex) α := do
  let w ← Host.get
  if w.closed then Host.throw .closed else m

variable (G : Tasks σ Ex Task Coro)

/-! ## The phases -/

/-- `AsyncRuntime::cancel`. -/
def cancelTasks : Host (Closing σ Task) (Error Ex) Unit := do
  let tasks ← onGuest G.allTasks
  Host.forEach tasks fun t => onGuest (G.cancel t)

def closeTask (t : Task) : Host (Closing σ Task) (Error Ex) Unit := do
  let coroutine ← onGuest (G.getCoro t)
  Host.modify (Closing.attempt t)
  onGuest (G.closeCoro coroutine)

/-- `AsyncRuntime::close`. -/
def closeTasks : Host (Closing σ Task) (Error Ex) Unit := do
  let tasks ← onGuest G.allTasks
  Host.forEach tasks G.closeTask

def advanceEntered : Host σ (Error Ex) Progress := do
  let advanced ← Host.attempt G.advance
  let restored ← Host.attempt G.setRunningLoop
  let progress ← Host.ofExcept advanced
  Host.ofExcept restored
  pure progress

def advanceWith : Host (Closing σ Task) (Error Ex) Progress := do
  expectDriver
  onGuest (Host.modify G.pollAllNow)
  enterCleanup do
    expectDriver
    onGuest G.advanceEntered

/-- What happens between two polls of the drive. -/
def resting (progress : Progress) : Host σ (Error Ex) Unit := fun s =>
  match G.rest progress s with
  | some s' => (.ok (), s')
  | none => (.stuck, s)

/-- `drive`, with what is left of its budget. -/
def drive : Nat → Host (Closing σ Task) (Error Ex) Unit
  | 0 => pure ()
  | left + 1 => do
    let progress ← G.advanceWith
    match progress with
    | .idle => pure ()
    | progress => do
      onGuest (G.resting progress)
      drive left

/-- `ActiveAsyncDriver::close`, without what comes after its phases. -/
def phases : Host (Closing σ Task) (Error Ex) Unit := do
  enterCleanup do
    expectDriver
    G.cancelTasks
  G.drive closeDriveBudget
  enterCleanup do
    expectDriver
    G.closeTasks

/-- `ActiveAsyncDriver::close`. -/
def close : Host (Closing σ Task) (Error Ex) Unit := do
  G.phases
  Host.modify take

/-- `Guest::close`. -/
def guestClose : Host (Closing σ Task) (Error Ex) Unit := do
  let w ← Host.get
  if w.closed then
    pure ()
  else if w.driver then
    Host.throw (.unexpected "cannot close guest while its async driver is active")
  else do
    enterCleanup (onGuest G.clearContext)
    Host.modify fun w => { w with closed := true }

/-! ## What the guest does -/

/-- `cancel` and `close` of one task, as the guest sees them. -/
def closesTask (t : Task) : Host σ (Error Ex) Unit := do
  let coroutine ← G.getCoro t
  G.closeCoro coroutine

/-- No step of the drive fails before the loop is idle or the budget is spent. -/
inductive Drives : Nat → σ → σ → Prop
  | spent (s : σ) : Drives 0 s s
  | idle {left : Nat} {s s' : σ} :
    G.advanceEntered (G.pollAllNow s) = (.ok .idle, s') → Drives (left + 1) s s'
  | rest {left : Nat} {s s' s'' last : σ} {progress : Progress} :
    G.advanceEntered (G.pollAllNow s) = (.ok progress, s') → progress ≠ .idle →
      G.rest progress s' = some s'' → Drives left s'' last → Drives (left + 1) s last

/-- None of the calls that closing makes into the guest fails. At `s'` it has listed the tasks
`remaining`, and at `last` it has closed their coroutines. -/
def Answers (s : σ) (remaining : List Task) (s' last : σ) : Prop :=
  ∃ listed s₁ s₂ s₃, G.allTasks s = (.ok listed, s₁) ∧ Host.Each G.cancel listed s₁ s₂ ∧
    G.Drives closeDriveBudget s₂ s₃ ∧ G.allTasks s₃ = (.ok remaining, s') ∧
      Host.Each G.closesTask remaining s' last

/-! ## Runs that return -/

variable {G} {w w' : Closing σ Task}

theorem onGuest_eq_ok {m : Host σ (Error Ex) α} {a : α} :
    onGuest m w = (.ok a, w') ↔ ∃ s, m w.guest = (.ok a, s) ∧ w' = w.withGuest s :=
  Host.zoom_eq_ok

theorem expectDriver_eq_ok {u : Unit} :
    (expectDriver : Host (Closing σ Task) (Error Ex) Unit) w = (.ok u, w') ↔
      w.driver = true ∧ w' = w := by
  rw [expectDriver, Host.get_bind]
  cases hdriver : w.driver with
  | true =>
    constructor
    · intro h
      cases h
      exact ⟨rfl, rfl⟩
    · rintro ⟨-, rfl⟩
      rfl
  | false => exact ⟨nofun, fun h => nomatch h.1⟩

theorem enterCleanup_eq_ok {m : Host (Closing σ Task) (Error Ex) α} {a : α} :
    enterCleanup m w = (.ok a, w') ↔ w.closed = false ∧ m w = (.ok a, w') := by
  rw [enterCleanup, Host.get_bind]
  cases hclosed : w.closed with
  | true => exact ⟨nofun, fun h => nomatch h.1⟩
  | false => exact ⟨fun h => ⟨rfl, h⟩, fun h => h.2⟩

/-- With the driver in place, a phase is entered unless the guest is closed. -/
theorem phase_eq_ok {m : Host (Closing σ Task) (Error Ex) α} {a : α} (hdriver : w.driver = true) :
    enterCleanup (expectDriver >>= fun _ => m) w = (.ok a, w') ↔
      w.closed = false ∧ m w = (.ok a, w') := by
  rw [enterCleanup_eq_ok, Host.bind_eq_ok]
  constructor
  · rintro ⟨hclosed, u, w₁, hexpect, h⟩
    obtain ⟨-, rfl⟩ := expectDriver_eq_ok.mp hexpect
    exact ⟨hclosed, h⟩
  · rintro ⟨hclosed, h⟩
    exact ⟨hclosed, (), w, expectDriver_eq_ok.mpr ⟨hdriver, rfl⟩, h⟩

theorem each_onGuest {f : Task → Host σ (Error Ex) Unit} {tasks : List Task} :
    Host.Each (fun t => onGuest (f t)) tasks w w' ↔
      ∃ s, Host.Each f tasks w.guest s ∧ w' = w.withGuest s := by
  induction tasks generalizing w with
  | nil =>
    constructor
    · intro h
      cases h
      exact ⟨_, .nil _, rfl⟩
    · rintro ⟨s, h, rfl⟩
      cases h
      exact .nil _
  | cons t tasks ih =>
    constructor
    · intro h
      cases h with
      | cons ht hrest =>
        obtain ⟨s₁, hcall, rfl⟩ := onGuest_eq_ok.mp ht
        obtain ⟨s, heach, rfl⟩ := ih.mp hrest
        exact ⟨s, .cons hcall heach, rfl⟩
    · rintro ⟨s, h, rfl⟩
      cases h with
      | cons hcall heach =>
        exact .cons (onGuest_eq_ok.mpr ⟨_, hcall, rfl⟩) (ih.mpr ⟨s, heach, rfl⟩)

theorem cancelTasks_eq_ok :
    G.cancelTasks w = (.ok (), w') ↔ ∃ listed s₁ s₂, G.allTasks w.guest = (.ok listed, s₁) ∧
      Host.Each G.cancel listed s₁ s₂ ∧ w' = w.withGuest s₂ := by
  rw [cancelTasks, Host.bind_eq_ok]
  constructor
  · rintro ⟨listed, w₁, hlist, hcancel⟩
    obtain ⟨s₁, hall, rfl⟩ := onGuest_eq_ok.mp hlist
    obtain ⟨s₂, heach, rfl⟩ := each_onGuest.mp (Host.forEach_eq_ok.mp hcancel)
    exact ⟨listed, s₁, s₂, hall, heach, rfl⟩
  · rintro ⟨listed, s₁, s₂, hall, heach, rfl⟩
    refine ⟨listed, w.withGuest s₁, onGuest_eq_ok.mpr ⟨s₁, hall, rfl⟩, ?_⟩
    exact Host.forEach_eq_ok.mpr (each_onGuest.mpr ⟨s₂, heach, rfl⟩)

theorem closeTask_eq_ok {t : Task} :
    G.closeTask t w = (.ok (), w') ↔
      ∃ s, G.closesTask t w.guest = (.ok (), s) ∧ w' = (w.withGuest s).attempt t := by
  rw [closeTask, Host.bind_eq_ok]
  constructor
  · rintro ⟨coroutine, w₁, hget, hclose⟩
    obtain ⟨s₁, hcoro, rfl⟩ := onGuest_eq_ok.mp hget
    rw [Host.modify_bind] at hclose
    obtain ⟨s, hcall, rfl⟩ := onGuest_eq_ok.mp hclose
    exact ⟨s, Host.bind_eq_ok.mpr ⟨coroutine, s₁, hcoro, hcall⟩, rfl⟩
  · rintro ⟨s, h, rfl⟩
    obtain ⟨coroutine, s₁, hcoro, hcall⟩ := Host.bind_eq_ok.mp h
    refine ⟨coroutine, w.withGuest s₁, onGuest_eq_ok.mpr ⟨s₁, hcoro, rfl⟩, ?_⟩
    rw [Host.modify_bind]
    exact onGuest_eq_ok.mpr ⟨s, hcall, rfl⟩

/-- The guest with the coroutines of `tasks` closed. -/
def closedAll (tasks : List Task) (s : σ) (w : Closing σ Task) : Closing σ Task :=
  { w with guest := s, attempted := tasks.reverse ++ w.attempted }

theorem each_closeTask {tasks : List Task} :
    Host.Each G.closeTask tasks w w' ↔
      ∃ s, Host.Each G.closesTask tasks w.guest s ∧ w' = closedAll tasks s w := by
  induction tasks generalizing w with
  | nil =>
    constructor
    · intro h
      cases h
      exact ⟨_, .nil _, rfl⟩
    · rintro ⟨s, h, rfl⟩
      cases h
      exact .nil _
  | cons t tasks ih =>
    have hcons : ∀ s₁ s, closedAll tasks s ((w.withGuest s₁).attempt t) =
        closedAll (t :: tasks) s w := by
      intro s₁ s
      simp [closedAll, Closing.withGuest, Closing.attempt]
    constructor
    · intro h
      cases h with
      | cons ht hrest =>
        obtain ⟨s₁, hcall, rfl⟩ := closeTask_eq_ok.mp ht
        obtain ⟨s, heach, rfl⟩ := ih.mp hrest
        exact ⟨s, .cons hcall heach, hcons s₁ s⟩
    · rintro ⟨s, h, rfl⟩
      cases h with
      | cons hcall heach =>
        exact .cons (closeTask_eq_ok.mpr ⟨_, hcall, rfl⟩) (ih.mpr ⟨s, heach, (hcons _ s).symm⟩)

theorem closeTasks_eq_ok :
    G.closeTasks w = (.ok (), w') ↔ ∃ remaining s' last,
      G.allTasks w.guest = (.ok remaining, s') ∧ Host.Each G.closesTask remaining s' last ∧
        w' = closedAll remaining last w := by
  rw [closeTasks, Host.bind_eq_ok]
  constructor
  · rintro ⟨remaining, w₁, hlist, hclose⟩
    obtain ⟨s', hall, rfl⟩ := onGuest_eq_ok.mp hlist
    obtain ⟨last, heach, rfl⟩ := each_closeTask.mp (Host.forEach_eq_ok.mp hclose)
    exact ⟨remaining, s', last, hall, heach, rfl⟩
  · rintro ⟨remaining, s', last, hall, heach, rfl⟩
    refine ⟨remaining, w.withGuest s', onGuest_eq_ok.mpr ⟨s', hall, rfl⟩, ?_⟩
    exact Host.forEach_eq_ok.mpr (each_closeTask.mpr ⟨last, heach, rfl⟩)

theorem advanceWith_eq_ok {progress : Progress} (hdriver : w.driver = true)
    (hclosed : w.closed = false) :
    G.advanceWith w = (.ok progress, w') ↔
      ∃ s, G.advanceEntered (G.pollAllNow w.guest) = (.ok progress, s) ∧ w' = w.withGuest s := by
  rw [advanceWith, Host.bind_eq_ok]
  constructor
  · rintro ⟨u, w₁, hexpect, h⟩
    obtain ⟨-, rfl⟩ := expectDriver_eq_ok.mp hexpect
    obtain ⟨u', w₂, hpoll, hrest⟩ := Host.bind_eq_ok.mp h
    obtain ⟨s₁, hmodify, rfl⟩ := onGuest_eq_ok.mp hpoll
    cases hmodify
    obtain ⟨-, hadvance⟩ := (phase_eq_ok (w := w₁.withGuest (G.pollAllNow w₁.guest)) hdriver).mp hrest
    obtain ⟨s, hcall, rfl⟩ := onGuest_eq_ok.mp hadvance
    exact ⟨s, hcall, rfl⟩
  · rintro ⟨s, hcall, rfl⟩
    refine ⟨(), w, expectDriver_eq_ok.mpr ⟨hdriver, rfl⟩, ?_⟩
    refine Host.bind_eq_ok.mpr ⟨(), w.withGuest (G.pollAllNow w.guest), ?_, ?_⟩
    · exact onGuest_eq_ok.mpr ⟨_, rfl, rfl⟩
    · refine (phase_eq_ok (w := w.withGuest (G.pollAllNow w.guest)) hdriver).mpr ⟨hclosed, ?_⟩
      exact onGuest_eq_ok.mpr ⟨s, hcall, rfl⟩

theorem resting_eq_ok {progress : Progress} {s s' : σ} :
    G.resting progress s = (.ok (), s') ↔ G.rest progress s = some s' := by
  unfold resting
  cases G.rest progress s with
  | none => exact ⟨nofun, nofun⟩
  | some s'' =>
    constructor
    · intro h
      cases h
      rfl
    · intro h
      cases h
      rfl

theorem drive_idle {left : Nat} {w₁ : Closing σ Task} (h : G.advanceWith w = (.ok .idle, w₁)) :
    G.drive (left + 1) w = (.ok (), w₁) := by
  rw [drive, Host.bind_eq_ok]
  exact ⟨.idle, w₁, h, rfl⟩

theorem drive_rest {left : Nat} {w₁ : Closing σ Task} {progress : Progress}
    (h : G.advanceWith w = (.ok progress, w₁)) (hidle : progress ≠ .idle) :
    G.drive (left + 1) w = (.ok (), w') ↔
      ∃ s, G.rest progress w₁.guest = some s ∧ G.drive left (w₁.withGuest s) = (.ok (), w') := by
  have hstep : G.drive (left + 1) w =
      (onGuest (G.resting progress) >>= fun _ => G.drive left) w₁ := by
    rw [drive]
    change Host.bind G.advanceWith _ w = _
    unfold Host.bind
    rw [h]
    cases progress with
    | idle => exact absurd rfl hidle
    | ready => rfl
    | waiting delay => rfl
    | blocked => rfl
  rw [hstep, Host.bind_eq_ok]
  constructor
  · rintro ⟨u, w₂, hrest, hdrive⟩
    obtain ⟨s, hcall, rfl⟩ := onGuest_eq_ok.mp hrest
    exact ⟨s, resting_eq_ok.mp hcall, hdrive⟩
  · rintro ⟨s, hcall, hdrive⟩
    exact ⟨(), _, onGuest_eq_ok.mpr ⟨s, resting_eq_ok.mpr hcall, rfl⟩, hdrive⟩

theorem drive_eq_ok {left : Nat} (hdriver : w.driver = true) (hclosed : w.closed = false) :
    G.drive left w = (.ok (), w') ↔ ∃ s, G.Drives left w.guest s ∧ w' = w.withGuest s := by
  induction left generalizing w with
  | zero =>
    constructor
    · intro h
      cases h
      exact ⟨_, .spent _, rfl⟩
    · rintro ⟨s, h, rfl⟩
      cases h
      rfl
  | succ left ih =>
    constructor
    · intro h
      have hadvance : ∃ progress w₁, G.advanceWith w = (.ok progress, w₁) := by
        rw [drive, Host.bind_eq_ok] at h
        obtain ⟨progress, w₁, hadvance, -⟩ := h
        exact ⟨progress, w₁, hadvance⟩
      obtain ⟨progress, w₁, hadvance⟩ := hadvance
      obtain ⟨s₁, hcall, rfl⟩ := (advanceWith_eq_ok hdriver hclosed).mp hadvance
      by_cases hidle : progress = .idle
      · subst hidle
        rw [drive_idle hadvance] at h
        cases h
        exact ⟨s₁, .idle hcall, rfl⟩
      · obtain ⟨s₂, hrest, hdrive⟩ := (drive_rest hadvance hidle).mp h
        obtain ⟨s, hdrives, rfl⟩ := (ih (w := w.withGuest s₂) hdriver hclosed).mp hdrive
        exact ⟨s, .rest hcall hidle hrest hdrives, rfl⟩
    · rintro ⟨s, h, rfl⟩
      cases h with
      | idle hcall => exact drive_idle ((advanceWith_eq_ok hdriver hclosed).mpr ⟨s, hcall, rfl⟩)
      | @rest _ _ _ s₂ _ _ hcall hidle hrest hdrives =>
        have hadvance := (advanceWith_eq_ok hdriver hclosed).mpr ⟨_, hcall, rfl⟩
        rw [drive_rest hadvance hidle]
        exact ⟨s₂, hrest, (ih (w := w.withGuest s₂) hdriver hclosed).mpr ⟨s, hdrives, rfl⟩⟩

/-- The phases return exactly if the guest is not closed and answers all calls. -/
theorem phases_eq_ok (hdriver : w.driver = true) :
    G.phases w = (.ok (), w') ↔ w.closed = false ∧ ∃ remaining s' last,
      G.Answers w.guest remaining s' last ∧ w' = closedAll remaining last w := by
  rw [phases, Host.bind_eq_ok]
  constructor
  · rintro ⟨u, w₁, hcancel, h⟩
    obtain ⟨hclosed, hcancel⟩ := (phase_eq_ok hdriver).mp hcancel
    obtain ⟨listed, s₁, s₂, hall, heach, rfl⟩ := cancelTasks_eq_ok.mp hcancel
    obtain ⟨u', w₂, hdrive, h⟩ := Host.bind_eq_ok.mp h
    obtain ⟨s₃, hdrives, rfl⟩ := (drive_eq_ok (w := w.withGuest s₂) hdriver hclosed).mp hdrive
    obtain ⟨-, hclose⟩ := (phase_eq_ok (w := w.withGuest s₃) hdriver).mp h
    obtain ⟨remaining, s', last, hremaining, hcloses, rfl⟩ := closeTasks_eq_ok.mp hclose
    exact ⟨hclosed, remaining, s', last,
      ⟨listed, s₁, s₂, s₃, hall, heach, hdrives, hremaining, hcloses⟩, rfl⟩
  · rintro ⟨hclosed, remaining, s', last,
      ⟨listed, s₁, s₂, s₃, hall, heach, hdrives, hremaining, hcloses⟩, rfl⟩
    refine ⟨(), w.withGuest s₂, (phase_eq_ok hdriver).mpr ⟨hclosed, ?_⟩, ?_⟩
    · exact cancelTasks_eq_ok.mpr ⟨listed, s₁, s₂, hall, heach, rfl⟩
    · refine Host.bind_eq_ok.mpr ⟨(), w.withGuest s₃, ?_, ?_⟩
      · exact (drive_eq_ok (w := w.withGuest s₂) hdriver hclosed).mpr ⟨s₃, hdrives, rfl⟩
      · refine (phase_eq_ok (w := w.withGuest s₃) hdriver).mpr ⟨hclosed, ?_⟩
        exact closeTasks_eq_ok.mpr ⟨remaining, s', last, hremaining, hcloses, rfl⟩

theorem close_eq_ok (hdriver : w.driver = true) :
    G.close w = (.ok (), w') ↔ w.closed = false ∧ ∃ remaining s' last,
      G.Answers w.guest remaining s' last ∧ w' = (closedAll remaining last w).take := by
  rw [close, Host.bind_eq_ok]
  constructor
  · rintro ⟨u, w₁, hphases, htake⟩
    cases htake
    obtain ⟨hclosed, remaining, s', last, hanswers, rfl⟩ := (phases_eq_ok hdriver).mp hphases
    exact ⟨hclosed, remaining, s', last, hanswers, rfl⟩
  · rintro ⟨hclosed, remaining, s', last, hanswers, rfl⟩
    refine ⟨(), closedAll remaining last w, (phases_eq_ok hdriver).mpr ?_, rfl⟩
    exact ⟨hclosed, remaining, s', last, hanswers, rfl⟩

/-! ## Runs that do not return -/

theorem preserves_onGuest {m : Host σ (Error Ex) α} :
    Preserves (Closing.flags : Closing σ Task → Bool × Bool) (onGuest m) :=
  Preserves.zoom fun _ _ => rfl

theorem preserves_expectDriver :
    Preserves Closing.flags (expectDriver : Host (Closing σ Task) (Error Ex) Unit) :=
  Preserves.bind Preserves.get fun _ => Preserves.ite Preserves.pure Preserves.panic

theorem preserves_enterCleanup {m : Host (Closing σ Task) (Error Ex) α}
    (h : Preserves Closing.flags m) : Preserves Closing.flags (enterCleanup m) :=
  Preserves.bind Preserves.get fun _ => Preserves.ite Preserves.throw h

theorem preserves_drive (left : Nat) : Preserves Closing.flags (G.drive left) := by
  induction left with
  | zero => exact Preserves.pure
  | succ left ih =>
    have hadvance : Preserves Closing.flags G.advanceWith :=
      Preserves.bind preserves_expectDriver fun _ => Preserves.bind preserves_onGuest fun _ =>
        preserves_enterCleanup (Preserves.bind preserves_expectDriver fun _ => preserves_onGuest)
    refine Preserves.bind hadvance fun progress => ?_
    have hrest : Preserves Closing.flags
        (onGuest (G.resting progress) >>= fun _ => G.drive left) :=
      Preserves.bind preserves_onGuest fun _ => ih
    cases progress with
    | idle => exact Preserves.pure
    | ready => exact hrest
    | waiting delay => exact hrest
    | blocked => exact hrest

/-- Only the very end of a call takes the driver. -/
theorem preserves_phases : Preserves Closing.flags G.phases := by
  have hcancel : Preserves Closing.flags G.cancelTasks :=
    Preserves.bind preserves_onGuest fun tasks =>
      Preserves.forEach (fun _ => preserves_onGuest) tasks
  have htask : ∀ t, Preserves Closing.flags (G.closeTask t) := fun t =>
    Preserves.bind preserves_onGuest fun _ =>
      Preserves.bind (Preserves.modify fun _ => rfl) fun _ => preserves_onGuest
  have hclose : Preserves Closing.flags G.closeTasks :=
    Preserves.bind preserves_onGuest fun tasks => Preserves.forEach htask tasks
  refine Preserves.bind ?_ fun _ => Preserves.bind (preserves_drive _) fun _ => ?_
  · exact preserves_enterCleanup (Preserves.bind preserves_expectDriver fun _ => hcancel)
  · exact preserves_enterCleanup (Preserves.bind preserves_expectDriver fun _ => hclose)

/-- A call that does not return without an error leaves the driver in place. -/
theorem flags_close (h : ∀ u, (G.close w).1 ≠ .ok u) : (G.close w).2.flags = w.flags := by
  have hphases : ∀ u, (G.phases w).1 ≠ .ok u := by
    intro u hu
    have hclose : G.close w = (.ok (), (G.phases w).2.take) :=
      Host.bind_eq_ok.mpr ⟨u, (G.phases w).2, Prod.ext hu rfl, rfl⟩
    exact h () (by rw [hclose])
  rw [close, (Host.bind_of_ne_ok hphases).1]
  exact preserves_phases w

/-! ## What is left behind -/

variable (G)

/-- No task is left whose coroutine it has not been tried to close, and the driver is gone. -/
structure LeavesNothing (w : Closing σ Task) : Prop where
  attempted : ∀ t ∈ G.unfinished w.guest, t ∈ w.attempted
  released : w.driver = false

/-- The guest is not closed, and no call into it fails. -/
def Succeeds (w : Closing σ Task) : Prop :=
  w.closed = false ∧ ∃ remaining s' last, G.Answers w.guest remaining s' last

/-- In addition, closing coroutines leaves no task unfinished that was not so before. -/
def Cooperates (w : Closing σ Task) : Prop :=
  w.closed = false ∧ ∃ remaining s' last, G.Answers w.guest remaining s' last ∧
    ∀ t ∈ G.unfinished last, t ∈ G.unfinished s'

/-- The guest after `n` calls of `close`. -/
def retry (n : Nat) (w : Closing σ Task) : Closing σ Task := (fun w => (G.close w).2)^[n] w

variable {G}

theorem Answers.listed {s s' last : σ} {remaining : List Task} (h : G.Answers s remaining s' last)
    (t : Task) : t ∈ remaining ↔ t ∈ G.unfinished s' := by
  obtain ⟨_, _, _, _, -, -, -, hremaining, -⟩ := h
  exact G.listed _ _ _ hremaining t

theorem close_driver_iff (hdriver : w.driver = true) :
    (G.close w).2.driver = false ↔ G.Succeeds w := by
  constructor
  · intro h
    by_cases hok : ∃ u, (G.close w).1 = .ok u
    · obtain ⟨u, hu⟩ := hok
      have hclose : G.close w = (.ok (), (G.close w).2) := Prod.ext hu rfl
      obtain ⟨hclosed, remaining, s', last, hanswers, -⟩ := (close_eq_ok hdriver).mp hclose
      exact ⟨hclosed, remaining, s', last, hanswers⟩
    · have hflags := flags_close fun u hu => hok ⟨u, hu⟩
      have hkept : (G.close w).2.driver = w.driver := congrArg Prod.snd hflags
      rw [hkept, hdriver] at h
      cases h
  · rintro ⟨hclosed, remaining, s', last, hanswers⟩
    rw [(close_eq_ok hdriver).mpr ⟨hclosed, remaining, s', last, hanswers, rfl⟩]
    rfl

theorem leavesNothing_iff (hdriver : w.driver = true) (hattempted : w.attempted = []) :
    G.LeavesNothing (G.close w).2 ↔ G.Cooperates w := by
  constructor
  · intro h
    obtain ⟨hclosed, remaining, s', last, hanswers⟩ := (close_driver_iff hdriver).mp h.released
    refine ⟨hclosed, remaining, s', last, hanswers, fun t ht => ?_⟩
    have hclose := (close_eq_ok hdriver).mpr ⟨hclosed, remaining, s', last, hanswers, rfl⟩
    have htried := h.attempted t (by rw [hclose]; exact ht)
    rw [hclose] at htried
    change t ∈ remaining.reverse ++ w.attempted at htried
    rw [hattempted, List.append_nil, List.mem_reverse] at htried
    exact (hanswers.listed t).mp htried
  · rintro ⟨hclosed, remaining, s', last, hanswers, hold⟩
    rw [(close_eq_ok hdriver).mpr ⟨hclosed, remaining, s', last, hanswers, rfl⟩]
    refine ⟨fun t ht => ?_, rfl⟩
    change t ∈ remaining.reverse ++ w.attempted
    rw [hattempted, List.append_nil, List.mem_reverse]
    exact (hanswers.listed t).mpr (hold t ht)

theorem retry_succ (n : Nat) (w : Closing σ Task) :
    G.retry (n + 1) w = (G.close (G.retry n w)).2 :=
  Function.iterate_succ_apply' _ n w

/-- A driver that is gone does not come back. -/
theorem close_of_no_driver (hdriver : w.driver = false) : (G.close w).2.driver = false := by
  by_cases hok : ∃ u, (G.close w).1 = .ok u
  · obtain ⟨u, hu⟩ := hok
    have hclose : (G.phases >>= fun _ => Host.modify Closing.take) w = (.ok u, (G.close w).2) :=
      Prod.ext hu rfl
    obtain ⟨_, w₁, -, htake⟩ := Host.bind_eq_ok.mp hclose
    rw [← (Prod.mk.inj htake).2]
    rfl
  · have hflags := flags_close fun u hu => hok ⟨u, hu⟩
    exact (congrArg Prod.snd hflags).trans hdriver

/-- The driver stays as long as all calls of `close` fail. -/
theorem retry_driver_iff {n : Nat} (hdriver : w.driver = true) :
    (G.retry n w).driver = true ↔ ∀ k < n, ¬ G.Succeeds (G.retry k w) := by
  induction n with
  | zero => exact ⟨fun _ k hk => absurd hk (by omega), fun _ => hdriver⟩
  | succ n ih =>
    rw [retry_succ]
    cases hbefore : (G.retry n w).driver with
    | false =>
      rw [close_of_no_driver hbefore]
      refine ⟨nofun, fun h => ?_⟩
      rw [← hbefore, ih]
      exact fun k hk => h k (by omega)
    | true =>
      rw [← Bool.not_eq_false, close_driver_iff hbefore]
      constructor
      · intro hn k hk
        rcases Nat.lt_succ_iff_lt_or_eq.mp hk with hlt | rfl
        · exact ih.mp hbefore k hlt
        · exact hn
      · exact fun h => h n (by omega)

theorem retry_closed (n : Nat) (hdriver : (G.retry n w).driver = true) :
    (G.retry n w).closed = w.closed := by
  induction n with
  | zero => rfl
  | succ n ih =>
    rw [retry_succ] at hdriver ⊢
    have hbefore : (G.retry n w).driver = true := by
      by_contra hgone
      rw [close_of_no_driver (Bool.not_eq_true _ ▸ hgone)] at hdriver
      cases hdriver
    have hfails : ∀ u, (G.close (G.retry n w)).1 ≠ .ok u := by
      intro u hu
      have hclose : G.close (G.retry n w) = (.ok (), (G.close (G.retry n w)).2) := Prod.ext hu rfl
      obtain ⟨-, _, _, _, -, hw⟩ := (close_eq_ok hbefore).mp hclose
      rw [hw] at hdriver
      cases hdriver
    exact (congrArg Prod.fst (flags_close hfails)).trans (ih hbefore)

theorem guestClose_of_driver (hdriver : w.driver = true) (hclosed : w.closed = false) :
    G.guestClose w =
      (.err (.unexpected "cannot close guest while its async driver is active"), w) := by
  rw [guestClose, Host.get_bind, hclosed, hdriver]
  rfl

/-- **Closing a driver leaves nothing behind exactly if no call into the guest fails, and closing
coroutines starts no task that is left.** The driver stays as long as all calls of `close` fail,
and while it is there the guest cannot be closed either. -/
theorem close_leavesNothing_iff (G : Tasks σ Ex Task Coro) (s : σ) (closed : Bool) :
    (G.LeavesNothing (G.close (Closing.start s closed)).2 ↔
      G.Cooperates (Closing.start s closed)) ∧
    ∀ n, ((G.retry n (Closing.start s closed)).driver = true ↔
        ∀ k < n, ¬ G.Succeeds (G.retry k (Closing.start s closed))) ∧
      ((G.retry n (Closing.start s closed)).driver = true → closed = false →
        G.guestClose (G.retry n (Closing.start s closed)) =
          (.err (.unexpected "cannot close guest while its async driver is active"),
            G.retry n (Closing.start s closed))) := by
  refine ⟨leavesNothing_iff rfl rfl, fun n => ⟨retry_driver_iff rfl, ?_⟩⟩
  intro hdriver hclosed
  exact guestClose_of_driver hdriver ((retry_closed n hdriver).trans hclosed)

/-- Two tasks, of which the first awaits again when its coroutine is closed. -/
def stubborn : Tasks Unit String Nat Nat where
  unfinished _ := [0, 1]
  allTasks := pure [0, 1]
  cancel _ := pure ()
  getCoro t := pure t
  closeCoro coroutine :=
    if coroutine = 0 then Host.throw (.guest "coroutine ignored GeneratorExit") else pure ()
  pollAllNow := id
  advance := pure .idle
  setRunningLoop := pure ()
  rest _ s := some s
  clearContext := pure ()
  listed s tasks s' h t := by
    cases h
    exact Iff.rfl

/-- The coroutine of the second task is left open. -/
theorem second_left_open :
    ¬ ∀ (G : Tasks Unit String Nat Nat) (s : Unit) (e : Error String),
      (G.close (Closing.start s false)).1 = .err e →
        ∀ t ∈ G.unfinished (G.close (Closing.start s false)).2.guest,
          t ∈ (G.close (Closing.start s false)).2.attempted := by
  intro h
  have hsecond := h stubborn () (.guest "coroutine ignored GeneratorExit") rfl 1 (by decide)
  exact absurd hsecond (by decide)

end Tasks

end GuestPy.Driver
