import GuestPy.Errors
import GuestPy.Library.Lockstep

/-!
# Entering engines

Host code runs on threads. A thread is in an engine while a call of `enter` for it runs, and
calls of `enter` nest: guest code calls host code, which enters the same engine or another one.

* `ACTIVE_INTERRUPT` of a thread refers to the flag of the engine that was entered last. An
  `InterruptScope` puts back what was there, when a call returns or unwinds.
* `DEFERRED` of a thread holds what was released while the thread was in no engine. The next
  `enter` on it drops that, and finalizers run then.
* A request off the engines of RustPython also sends a user signal to the interpreter. Signals
  that have been sent wait until the interpreter looks for them, in a check or while it runs
  guest code; whether it does look is up to the interpreter.
* An event is taken by a thread. Threads take their events in any order, and share the flags
  of the engines and their signals. A thread that ends drops what is left in its `DEFERRED`
  outside of any engine; the end of a thread is not modelled.
-/

namespace GuestPy.Engines

abbrev EngineId := Nat
abbrev ThreadId := Nat

inductive Backend where
  | cpython
  | rustpython

/-! ## Threads -/

/-- What the interpreter finds when it looks at its signals: none, one of its own, or the next
user signal of its engine. -/
inductive Signal where
  | quiet
  | own
  | user
  deriving DecidableEq

inductive Event where
  | enter (e : EngineId)
  | collect
  | leave
  | release (o : ObjectId)
  /-- `queued` unless the queue of the pending calls is full, or the interpreter is gone. -/
  | request (e : EngineId) (queued : Bool)
  | reset (e : EngineId)
  | check (signal : Signal)
  /-- The interpreter looks at its signals while it runs guest code. -/
  | evaluate (signal : Signal)
  /-- The interpreter makes the pending call that is next. -/
  | pendingCall

structure InterruptScope where
  previous : Option EngineId

/-- A running call of `enter`, with what it has left to drop of the deferred objects. -/
structure Entry where
  interrupt : InterruptScope
  taken : List ObjectId

/-- The thread locals, and the calls of `enter` from the last one to the first. `dropped` records
each object that was dropped, with the engine that the thread was in. -/
structure Thread where
  activeInterrupt : Option EngineId
  deferred : List ObjectId
  entries : List Entry
  dropped : List (ObjectId × Option EngineId)

def Thread.new : Thread := ⟨none, [], [], []⟩

/-- `InterruptScope::new`. -/
def InterruptScope.new (e : EngineId) (t : Thread) : InterruptScope × Thread :=
  (⟨t.activeInterrupt⟩, { t with activeInterrupt := some e })

/-- `Drop` of the scope. -/
def InterruptScope.drop (scope : InterruptScope) (t : Thread) : Thread :=
  { t with activeInterrupt := scope.previous }

/-- `InterruptScope::take`, which swaps the flag. -/
def InterruptScope.take (t : Thread) (interrupt : EngineId → Bool) : Bool × (EngineId → Bool) :=
  match t.activeInterrupt with
  | none => (false, interrupt)
  | some e => (interrupt e, Function.update interrupt e false)

namespace Thread

variable (t : Thread)

/-- `current_vm_is_set`. -/
def currentVmIsSet : Bool := !t.entries.isEmpty

def drop (o : ObjectId) : Thread :=
  { t with dropped := t.dropped ++ [(o, t.activeInterrupt)] }

/-- The start of `enter`. RustPython takes the deferred objects out before it drops any of them. -/
def enter (backend : Backend) (e : EngineId) : Thread :=
  let (scope, t) := InterruptScope.new e t
  match backend with
  | .cpython => { t with entries := ⟨scope, []⟩ :: t.entries }
  | .rustpython => { t with deferred := [], entries := ⟨scope, t.deferred⟩ :: t.entries }

/-- The next of the deferred objects is dropped. -/
def collect : Thread :=
  match t.entries with
  | ⟨scope, o :: taken⟩ :: entries => { t with entries := ⟨scope, taken⟩ :: entries }.drop o
  | _ => t

/-- The end of `enter`. It returns with nothing left to drop, and where a finalizer panics
dropping goes on with the rest before the call unwinds. -/
def leave : Thread :=
  match t.entries with
  | [] => t
  | entry :: entries =>
    entry.interrupt.drop { entry.taken.foldl drop t with entries := entries }

/-- `release`. `Object` of CPython attaches to the interpreter to be dropped. -/
def release (backend : Backend) (o : ObjectId) : Thread :=
  match backend with
  | .cpython => t.drop o
  | .rustpython =>
    if t.currentVmIsSet then t.drop o else { t with deferred := t.deferred ++ [o] }

/-- What an event does to the thread that takes it. -/
def step (backend : Backend) (t : Thread) : Event → Thread
  | .enter e => t.enter backend e
  | .collect => t.collect
  | .leave => t.leave
  | .release o => t.release backend o
  | _ => t

end Thread

/-! ## Engines and threads -/

/-- The flags of the engines, how many user signals wait for each, the pending calls of CPython,
and the threads. -/
structure World where
  interrupt : EngineId → Bool
  userSignals : EngineId → Nat
  pendingCalls : List EngineId
  threads : ThreadId → Thread

def World.new : World := ⟨fun _ => false, fun _ => 0, [], fun _ => .new⟩

inductive Answer where
  | done
  | interrupted
  | keyboardInterrupt
  deriving DecidableEq

namespace World

variable (w : World)

def setThread (t : ThreadId) (thread : Thread) : World :=
  { w with threads := Function.update w.threads t thread }

/-- `request` of a handle. A user signal is sent unless the thread is in an engine. -/
def request (backend : Backend) (t : ThreadId) (e : EngineId) (queued : Bool) : World :=
  { w with
    interrupt := Function.update w.interrupt e true
    userSignals := match backend with
      | .cpython => w.userSignals
      | .rustpython =>
        if !(w.threads t).currentVmIsSet && queued then
          Function.update w.userSignals e (w.userSignals e + 1)
        else
          w.userSignals
    pendingCalls := match backend with
      | .cpython => if queued then w.pendingCalls ++ [e] else w.pendingCalls
      | .rustpython => w.pendingCalls }

def reset (e : EngineId) : World := { w with interrupt := Function.update w.interrupt e false }

/-- `check_signals` of the interpreter of `engine`: does it raise? A user signal is taken. -/
def checkSignals (engine : Option EngineId) : Signal → Bool × World
  | .quiet => (false, w)
  | .own => (true, w)
  | .user =>
    match engine with
    | none => (false, w)
    | some e =>
      match w.userSignals e with
      | 0 => (false, w)
      | n + 1 => (true, { w with userSignals := Function.update w.userSignals e n })

/-- `check`. Where the flag is set, the interpreter does not look at its signals. -/
def check (t : ThreadId) (signal : Signal) : Answer × World :=
  let (taken, interrupt) := InterruptScope.take (w.threads t) w.interrupt
  let w := { w with interrupt }
  if taken then
    (.interrupted, w)
  else
    let (raised, w) := w.checkSignals (w.threads t).activeInterrupt signal
    (if raised then .interrupted else .done, w)

/-- The interpreter runs guest code of the engine that was entered last. -/
def evaluate (t : ThreadId) (signal : Signal) : Answer × World :=
  let (raised, w) := w.checkSignals (w.threads t).activeInterrupt signal
  (if raised then .keyboardInterrupt else .done, w)

/-- `trampoline`. -/
def pendingCall : Answer × World :=
  match w.pendingCalls with
  | [] => (.done, w)
  | e :: rest =>
    (if w.interrupt e then .keyboardInterrupt else .done,
      { w with interrupt := Function.update w.interrupt e false, pendingCalls := rest })

/-- A thread takes an event. -/
def step (backend : Backend) : World → ThreadId × Event → Answer × World
  | w, (t, .request e queued) => (.done, w.request backend t e queued)
  | w, (_, .reset e) => (.done, w.reset e)
  | w, (t, .check signal) => w.check t signal
  | w, (t, .evaluate signal) => w.evaluate t signal
  | w, (_, .pendingCall) => w.pendingCall
  | w, (t, event) => (.done, w.setThread t ((w.threads t).step backend event))

/-- What events have come to. -/
def after (backend : Backend) (history : List (ThreadId × Event)) : World :=
  final (step backend) .new history

theorem after_concat (backend : Backend) (history : List (ThreadId × Event))
    (event : ThreadId × Event) :
    after backend (history ++ [event]) = ((after backend history).step backend event).2 :=
  final_concat ..

end World

/-! ## Where a thread is -/

/-- The events of a thread. -/
def own (t : ThreadId) (history : List (ThreadId × Event)) : List Event :=
  history.filterMap fun event => if event.1 = t then some event.2 else none

/-- The engines that a thread has entered and not left, the last one first. -/
def within (t : ThreadId) (history : List (ThreadId × Event)) : List EngineId :=
  (own t history).foldl (fun engines event => match event with
    | .enter e => e :: engines
    | .leave => engines.tail
    | _ => engines) []

section

variable {backend : Backend} {w : World} {t : ThreadId}

/-- The interpreter takes user signals only. -/
theorem checkSignals_eq (w : World) (engine : Option EngineId) (signal : Signal) :
    ∃ userSignals, (w.checkSignals engine signal).2 = { w with userSignals } := by
  unfold World.checkSignals
  split
  · exact ⟨_, rfl⟩
  · exact ⟨_, rfl⟩
  · split
    · exact ⟨_, rfl⟩
    · split
      · exact ⟨_, rfl⟩
      · exact ⟨_, rfl⟩

theorem threads_check (t' : ThreadId) (signal : Signal) :
    (w.check t' signal).2.threads = w.threads := by
  unfold World.check
  dsimp only
  split
  · rfl
  · obtain ⟨userSignals, hsignals⟩ := checkSignals_eq
      { w with interrupt := (InterruptScope.take (w.threads t') w.interrupt).2 }
      (w.threads t').activeInterrupt signal
    rw [hsignals]

theorem threads_evaluate (t' : ThreadId) (signal : Signal) :
    (w.evaluate t' signal).2.threads = w.threads := by
  obtain ⟨userSignals, hsignals⟩ := checkSignals_eq w (w.threads t').activeInterrupt signal
  unfold World.evaluate
  dsimp only
  rw [hsignals]

theorem threads_step (event : ThreadId × Event) :
    (w.step backend event).2.threads t =
      if event.1 = t then (w.threads t).step backend event.2 else w.threads t := by
  obtain ⟨t', event⟩ := event
  have hset : (w.setThread t' ((w.threads t').step backend event)).threads t =
      if t' = t then (w.threads t).step backend event else w.threads t := by
    by_cases ht : t' = t
    · subst ht
      rw [if_pos rfl]
      exact Function.update_self ..
    · rw [if_neg ht]
      exact Function.update_of_ne (Ne.symm ht) ..
  cases event with
  | request e queued => exact (ite_self _).symm
  | reset e => exact (ite_self _).symm
  | check signal => exact (congrFun (threads_check t' signal) t).trans (ite_self _).symm
  | evaluate signal => exact (congrFun (threads_evaluate t' signal) t).trans (ite_self _).symm
  | pendingCall =>
    refine Eq.trans ?_ (ite_self _).symm
    change w.pendingCall.2.threads t = _
    unfold World.pendingCall
    split <;> rfl
  | _ => exact hset

/-- A thread is what its own events have made of it. -/
theorem threads_final (history : List (ThreadId × Event)) :
    (final (World.step backend) w history).threads t =
      (own t history).foldl (Thread.step backend) (w.threads t) := by
  induction history generalizing w with
  | nil => rfl
  | cons event history ih =>
    rw [final_cons, ih, threads_step]
    unfold own
    rw [List.filterMap_cons]
    by_cases ht : event.1 = t <;> simp [ht]

theorem threads_after (history : List (ThreadId × Event)) :
    ((World.after backend history).threads t) =
      (own t history).foldl (Thread.step backend) .new :=
  threads_final history

end

/-! ## Scopes -/

/-- The slot refers to the last engine, and each scope to the one before it. -/
def Nested : List EngineId → Option EngineId → List Entry → Prop
  | [], active, [] => active = none
  | e :: engines, active, entry :: entries =>
    active = some e ∧ Nested engines entry.interrupt.previous entries
  | _, _, _ => False

namespace Nested

variable {engines : List EngineId} {active : Option EngineId} {entries : List Entry}

theorem head (h : Nested engines active entries) : active = engines.head? := by
  cases engines with
  | nil =>
    cases entries with
    | nil => exact h
    | cons entry entries => exact h.elim
  | cons e engines =>
    cases entries with
    | nil => exact h.elim
    | cons entry entries => exact h.1

/-- A thread is in no engine just if no call of `enter` runs. -/
theorem eq_nil_iff (h : Nested engines active entries) : entries = [] ↔ engines = [] := by
  cases engines with
  | nil =>
    cases entries with
    | nil => exact ⟨fun _ => rfl, fun _ => rfl⟩
    | cons entry entries => exact h.elim
  | cons e engines =>
    cases entries with
    | nil => exact h.elim
    | cons entry entries => exact ⟨nofun, nofun⟩

/-- What is left to drop does not matter. -/
theorem taken {scope : InterruptScope} {taken : List ObjectId} (taken' : List ObjectId)
    (h : Nested engines active (⟨scope, taken⟩ :: entries)) :
    Nested engines active (⟨scope, taken'⟩ :: entries) := by
  cases engines with
  | nil => exact h.elim
  | cons e engines => exact h

end Nested

section

variable {t : Thread}

theorem foldl_drop (os : List ObjectId) (t : Thread) :
    os.foldl Thread.drop t = { t with dropped := t.dropped ++ os.map (·, t.activeInterrupt) } := by
  induction os generalizing t with
  | nil => rw [List.map_nil, List.append_nil, List.foldl_nil]
  | cons o os ih =>
    rw [List.foldl_cons, ih]
    simp [Thread.drop]

theorem nested_step {engines : List EngineId} (backend : Backend)
    (h : Nested engines t.activeInterrupt t.entries) (event : Event) :
    Nested (match event with
        | .enter e => e :: engines
        | .leave => engines.tail
        | _ => engines)
      (t.step backend event).activeInterrupt (t.step backend event).entries := by
  cases event with
  | enter e => cases backend <;> exact ⟨rfl, h⟩
  | collect =>
    simp only [Thread.step, Thread.collect]
    split
    next scope o os entries heq =>
      rw [heq] at h
      exact h.taken os
    next => exact h
  | leave =>
    change Nested _ t.leave.activeInterrupt t.leave.entries
    unfold Thread.leave
    cases hentries : t.entries with
    | nil =>
      rw [hentries] at h
      have hengines : engines = [] := h.eq_nil_iff.mp rfl
      subst hengines
      change Nested [] t.activeInterrupt t.entries
      rwa [hentries]
    | cons entry entries =>
      rw [hentries] at h
      cases engines with
      | nil => exact h.elim
      | cons e engines => exact h.2
  | release o =>
    cases backend with
    | cpython => exact h
    | rustpython =>
      simp only [Thread.step, Thread.release]
      split <;> exact h
  | _ => exact h

/-- **Scopes put back what they replace**, however the calls of `enter` nest and end. -/
theorem nested_after (backend : Backend) (history : List (ThreadId × Event)) (t : ThreadId) :
    Nested (within t history) ((World.after backend history).threads t).activeInterrupt
      ((World.after backend history).threads t).entries := by
  rw [threads_after]
  unfold within
  generalize own t history = events
  induction events using List.reverseRecOn with
  | nil => rfl
  | append_singleton events event ih =>
    rw [List.foldl_append, List.foldl_append]
    exact nested_step backend ih event

end

end GuestPy.Engines
