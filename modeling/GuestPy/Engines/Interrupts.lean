import GuestPy.Engines.Entry

/-!
# Interrupting engines

A request may come from any thread at any time. It sets the flag of its engine, and the flag is
cleared where it is reset, by a check of a thread that is in the engine, and by a pending call.
A request off the engines of RustPython sends a user signal besides, which stays when the flag is
cleared. So one such request may stop two checks.

* `Requested` says of a history that an engine has been requested and nothing has cleared that.
* `sent` and `received` count the user signals of an engine.
* `delivered`: a check stops a thread just if the engine that the thread entered last is
  requested, or the interpreter finds a signal: one of its own, or a user signal that has been
  sent and not been received yet. By its flag no request stops two checks or pending calls, and
  no more user signals are received than have been sent.
-/

namespace GuestPy.Engines

variable {backend : Backend} {e : EngineId} {history : List (ThreadId × Event)}

/-- The pending calls that have not been made. -/
def waiting (backend : Backend) (history : List (ThreadId × Event)) : List EngineId :=
  history.foldl (fun calls event => match backend, event.2 with
    | .cpython, .request e true => calls ++ [e]
    | _, .pendingCall => calls.tail
    | _, _ => calls) []

/-- The engine whose requests end with an event. -/
def cleared (backend : Backend) (history : List (ThreadId × Event)) :
    ThreadId × Event → Option EngineId
  | (_, .reset e) => some e
  | (t, .check _) => (within t history).head?
  | (_, .pendingCall) => (waiting backend history).head?
  | _ => none

/-- There is a request that no later event clears. -/
def Requested (backend : Backend) (e : EngineId) (history : List (ThreadId × Event)) : Prop :=
  ∃ before t queued after, history = before ++ (t, .request e queued) :: after ∧
    ∀ passed event rest, after = passed ++ event :: rest →
      cleared backend (before ++ (t, .request e queued) :: passed) event ≠ some e

/-- What a thread is answered after a history. -/
def answer (backend : Backend) (history : List (ThreadId × Event)) (event : ThreadId × Event) :
    Answer :=
  ((World.after backend history).step backend event).1

/-- What the interpreter finds at an event. -/
def Event.signal : Event → Signal
  | check signal => signal
  | evaluate signal => signal
  | _ => .quiet

/-- The event, had the interpreter found nothing. -/
def Event.quiet : Event → Event
  | check _ => check .quiet
  | evaluate _ => evaluate .quiet
  | event => event

/-- An event takes a request of the engine by its flag: it stops without any signal. -/
def Stopped (backend : Backend) (e : EngineId) (history : List (ThreadId × Event))
    (event : ThreadId × Event) : Prop :=
  answer backend history (event.1, event.2.quiet) ≠ .done ∧ cleared backend history event = some e

/-- An event sends a user signal to the engine. -/
def sends (backend : Backend) (e : EngineId) (history : List (ThreadId × Event)) :
    ThreadId × Event → Bool
  | (t, .request e' queued) =>
    match backend with
    | .cpython => false
    | .rustpython => e' == e && queued && (within t history).isEmpty
  | _ => false

/-- An event receives a user signal of the engine: the interpreter finds one, and it stops what
would not have stopped without. -/
def receives (backend : Backend) (e : EngineId) (history : List (ThreadId × Event))
    (event : ThreadId × Event) : Bool :=
  event.2.signal == .user && (within event.1 history).head? == some e &&
    (answer backend history (event.1, event.2.quiet) == .done &&
      answer backend history event != .done)

def sent (backend : Backend) (e : EngineId) (history : List (ThreadId × Event)) : Nat :=
  tally (sends backend e) history

def received (backend : Backend) (e : EngineId) (history : List (ThreadId × Event)) : Nat :=
  tally (receives backend e) history

/-- What becomes of requests. -/
structure Delivered (backend : Backend) (history : List (ThreadId × Event)) : Prop where
  check : ∀ t signal,
    answer backend history (t, .check signal) = .interrupted ↔
      signal = .own ∨ ∃ e, (within t history).head? = some e ∧
        (Requested backend e history ∨
          signal = .user ∧ received backend e history < sent backend e history)
  evaluate : ∀ t signal,
    answer backend history (t, .evaluate signal) = .keyboardInterrupt ↔
      signal = .own ∨ ∃ e, (within t history).head? = some e ∧
        signal = .user ∧ received backend e history < sent backend e history
  pendingCall : ∀ t,
    answer backend history (t, .pendingCall) = .keyboardInterrupt ↔
      ∃ e, (waiting backend history).head? = some e ∧ Requested backend e history
  once : ∀ e before event passed event' rest,
    history = before ++ event :: (passed ++ event' :: rest) →
      Stopped backend e before event → Stopped backend e (before ++ event :: passed) event' →
        ∃ t queued, (t, .request e queued) ∈ passed
  signals : ∀ e, received backend e history ≤ sent backend e history

theorem waiting_concat (event : ThreadId × Event) :
    waiting backend (history ++ [event]) = match backend, event.2 with
      | .cpython, .request e true => waiting backend history ++ [e]
      | _, .pendingCall => (waiting backend history).tail
      | _, _ => waiting backend history := by
  unfold waiting
  rw [List.foldl_append]
  rfl

theorem requested_concat {event : ThreadId × Event} :
    Requested backend e (history ++ [event]) ↔
      (∃ t queued, event = (t, .request e queued)) ∨
        Requested backend e history ∧ cleared backend history event ≠ some e := by
  constructor
  · rintro ⟨before, t, queued, after, heq, hafter⟩
    rcases List.eq_nil_or_concat after with rfl | ⟨passed, last, rfl⟩
    · exact Or.inl ⟨t, queued, (List.append_inj' heq rfl).2 |> List.singleton_inj.mp⟩
    · rw [List.concat_eq_append] at heq hafter
      obtain ⟨rfl, hlast⟩ := List.append_inj' (heq.trans (by simp : _ =
        (before ++ (t, .request e queued) :: passed) ++ [last])) rfl
      cases hlast
      refine Or.inr ⟨⟨before, t, queued, passed, rfl, ?_⟩, hafter passed event [] rfl⟩
      rintro passed' event' rest rfl
      exact hafter passed' event' (rest ++ [event]) (by simp)
  · rintro (⟨t, queued, rfl⟩ | ⟨⟨before, t, queued, after, rfl, hafter⟩, hcleared⟩)
    · exact ⟨history, t, queued, [], rfl, fun passed event rest heq => by simp at heq⟩
    · refine ⟨before, t, queued, after ++ [event], by simp, fun passed event' rest heq => ?_⟩
      rcases List.eq_nil_or_concat rest with rfl | ⟨rest, last, rfl⟩
      · obtain ⟨rfl, hlast⟩ := List.append_inj' heq rfl
        cases hlast
        exact hcleared
      · rw [List.concat_eq_append, ← List.cons_append, ← List.append_assoc] at heq
        exact hafter passed event' rest (List.append_inj' heq rfl).1

section

variable {w : World}

/-- What a check or a pending call finds, and what it leaves. -/
theorem take_eq (h : (w.threads t).activeInterrupt = (within t history).head?) :
    InterruptScope.take (w.threads t) w.interrupt = match (within t history).head? with
      | none => (false, w.interrupt)
      | some e => (w.interrupt e, Function.update w.interrupt e false) := by
  cases hhead : (within t history).head? with
  | none => simp only [InterruptScope.take, h.trans hhead]
  | some e => simp only [InterruptScope.take, h.trans hhead]

/-- What the interpreter finds does not depend on the flags. -/
theorem checkSignals_withInterrupt (interrupt : EngineId → Bool) (engine : Option EngineId)
    (signal : Signal) :
    { w with interrupt }.checkSignals engine signal =
      ((w.checkSignals engine signal).1, { (w.checkSignals engine signal).2 with interrupt }) := by
  unfold World.checkSignals
  cases signal with
  | user =>
    cases engine with
    | none => rfl
    | some e =>
      dsimp only
      split <;> rfl
  | _ => rfl

/-- Where the flag is set a check stops, and else it does what the interpreter does. -/
theorem check_eq (t : ThreadId) (signal : Signal) :
    w.check t signal =
      let taken := InterruptScope.take (w.threads t) w.interrupt
      let signals := w.checkSignals (w.threads t).activeInterrupt signal
      (if taken.1 || signals.1 then .interrupted else .done,
        if taken.1 then { w with interrupt := taken.2 }
        else { signals.2 with interrupt := taken.2 }) := by
  unfold World.check
  dsimp only
  rw [checkSignals_withInterrupt]
  cases (InterruptScope.take (w.threads t) w.interrupt).1 <;> rfl

theorem check_frame (t : ThreadId) (signal : Signal) :
    (w.check t signal).2.interrupt = (InterruptScope.take (w.threads t) w.interrupt).2 ∧
      (w.check t signal).2.pendingCalls = w.pendingCalls := by
  obtain ⟨userSignals, hsignals⟩ := checkSignals_eq w (w.threads t).activeInterrupt signal
  rw [check_eq]
  dsimp only
  rw [hsignals]
  split <;> exact ⟨rfl, rfl⟩

theorem evaluate_frame (t : ThreadId) (signal : Signal) :
    (w.evaluate t signal).2.interrupt = w.interrupt ∧
      (w.evaluate t signal).2.pendingCalls = w.pendingCalls := by
  obtain ⟨userSignals, hsignals⟩ := checkSignals_eq w (w.threads t).activeInterrupt signal
  unfold World.evaluate
  dsimp only
  rw [hsignals]
  exact ⟨rfl, rfl⟩

/-- A flag that is written is set, and one that is cleared is not. -/
theorem interrupt_step (h : ∀ t, (w.threads t).activeInterrupt = (within t history).head?)
    (hcalls : w.pendingCalls = waiting backend history) (event : ThreadId × Event)
    (e : EngineId) :
    (w.step backend event).2.interrupt e = true ↔
      (∃ t queued, event = (t, .request e queued)) ∨
        w.interrupt e = true ∧ cleared backend history event ≠ some e := by
  have hclear : ∀ engine : Option EngineId,
      (match engine with
        | none => w.interrupt
        | some e' => Function.update w.interrupt e' false) e = true ↔
          w.interrupt e = true ∧ engine ≠ some e := by
    rintro (_ | e')
    · simp
    · by_cases he : e' = e
      · subst he
        simp
      · simp [he, Function.update_of_ne (Ne.symm he)]
  obtain ⟨t, event⟩ := event
  cases event with
  | request e' queued =>
    change Function.update w.interrupt e' true e = true ↔ _
    by_cases he : e' = e
    · subst he
      simp
    · simp [he, Function.update_of_ne (Ne.symm he), cleared]
  | reset e' =>
    refine (hclear (some e')).trans (Iff.symm (or_iff_right ?_))
    rintro ⟨t', queued, heq⟩
    cases heq
  | check signal =>
    refine Iff.trans ?_ ((hclear (within t history).head?).trans (Iff.symm (or_iff_right ?_)))
    · rw [show (w.step backend (t, .check signal)).2.interrupt = _ from (check_frame t signal).1,
        take_eq (h t)]
      cases (within t history).head? <;> rfl
    · rintro ⟨t', queued, heq⟩
      cases heq
  | evaluate signal =>
    rw [show (w.step backend (t, .evaluate signal)).2.interrupt = _ from
      (evaluate_frame t signal).1]
    refine Iff.symm ((or_iff_right ?_).trans (and_iff_left nofun))
    rintro ⟨t', queued, heq⟩
    cases heq
  | pendingCall =>
    refine Iff.trans ?_ ((hclear (waiting backend history).head?).trans (Iff.symm (or_iff_right ?_)))
    · change w.pendingCall.2.interrupt e = true ↔ _
      unfold World.pendingCall
      rw [hcalls]
      cases waiting backend history <;> rfl
    · rintro ⟨t', queued, heq⟩
      cases heq
  | _ =>
    refine Iff.symm ((or_iff_right ?_).trans (and_iff_left nofun))
    rintro ⟨t', queued, heq⟩
    cases heq

theorem pendingCalls_step (event : ThreadId × Event) :
    (w.step backend event).2.pendingCalls = match backend, event.2 with
      | .cpython, .request e true => w.pendingCalls ++ [e]
      | _, .pendingCall => w.pendingCalls.tail
      | _, _ => w.pendingCalls := by
  obtain ⟨t, event⟩ := event
  cases event with
  | request e queued => cases backend <;> cases queued <;> rfl
  | pendingCall =>
    change w.pendingCall.2.pendingCalls = _
    unfold World.pendingCall
    cases hcalls : w.pendingCalls with
    | nil => cases backend <;> exact hcalls
    | cons e rest => cases backend <;> rfl
  | check signal => cases backend <;> exact (check_frame t signal).2
  | evaluate signal => cases backend <;> exact (evaluate_frame t signal).2
  | _ => cases backend <;> rfl

end

/-- The slot of a thread refers to the engine that the thread entered last. -/
theorem activeInterrupt_after (backend : Backend) (history : List (ThreadId × Event))
    (t : ThreadId) :
    ((World.after backend history).threads t).activeInterrupt = (within t history).head? :=
  (nested_after backend history t).head

/-- **Flags are set just for the engines that are requested.** -/
theorem interrupt_after_iff (backend : Backend) (history : List (ThreadId × Event)) :
    (World.after backend history).pendingCalls = waiting backend history ∧
      ∀ e, (World.after backend history).interrupt e = true ↔ Requested backend e history := by
  induction history using List.reverseRecOn with
  | nil =>
    refine ⟨rfl, fun e => ⟨nofun, ?_⟩⟩
    rintro ⟨before, t, queued, after, heq, -⟩
    simp at heq
  | append_singleton history event ih =>
    obtain ⟨hcalls, hflags⟩ := ih
    rw [World.after_concat]
    refine ⟨?_, fun e => ?_⟩
    · rw [pendingCalls_step, waiting_concat, hcalls]
    · rw [interrupt_step (activeInterrupt_after backend history) hcalls, requested_concat, hflags]

/-! ## Signals -/

/-- The interpreter raises for a signal of its own, and for a user signal that waits. -/
theorem checkSignals_iff (w : World) (engine : Option EngineId) (signal : Signal) :
    (w.checkSignals engine signal).1 = true ↔
      signal = .own ∨ ∃ e, engine = some e ∧ signal = .user ∧ 0 < w.userSignals e := by
  unfold World.checkSignals
  cases signal with
  | quiet => simp
  | own => simp
  | user =>
    cases engine with
    | none => simp
    | some e =>
      dsimp only
      split <;> simp [*]

/-- It takes a user signal just if it raises for one. -/
theorem userSignals_checkSignals (w : World) (engine : Option EngineId) (signal : Signal)
    (e : EngineId) :
    (w.checkSignals engine signal).2.userSignals e +
        (if signal == .user && engine == some e && (w.checkSignals engine signal).1 then 1 else 0) =
      w.userSignals e := by
  unfold World.checkSignals
  cases signal with
  | quiet => rfl
  | own => rfl
  | user =>
    cases engine with
    | none => rfl
    | some e' =>
      rcases hleft : w.userSignals e' with _ | n
      · simp [hleft]
      · by_cases he : e' = e
        · subst he
          simp [hleft]
        · simp [hleft, he, Function.update_of_ne (Ne.symm he)]

theorem answer_check (history : List (ThreadId × Event)) (t : ThreadId) (signal : Signal) :
    answer backend history (t, .check signal) =
      if (InterruptScope.take ((World.after backend history).threads t)
          (World.after backend history).interrupt).1 ||
        ((World.after backend history).checkSignals (within t history).head? signal).1
      then .interrupted else .done := by
  change ((World.after backend history).check t signal).1 = _
  rw [check_eq, activeInterrupt_after backend history t]

theorem answer_evaluate (history : List (ThreadId × Event)) (t : ThreadId) (signal : Signal) :
    answer backend history (t, .evaluate signal) =
      if ((World.after backend history).checkSignals (within t history).head? signal).1
      then .keyboardInterrupt else .done := by
  change ((World.after backend history).evaluate t signal).1 = _
  unfold World.evaluate
  rw [activeInterrupt_after backend history t]

/-- A request adds the signal that it sends. -/
theorem userSignals_request (history : List (ThreadId × Event)) (t : ThreadId) (e' : EngineId)
    (queued : Bool) (e : EngineId) :
    ((World.after backend history).step backend (t, .request e' queued)).2.userSignals e =
      (World.after backend history).userSignals e +
        (if sends backend e history (t, .request e' queued) then 1 else 0) := by
  cases backend with
  | cpython => rfl
  | rustpython =>
    have hset : ((World.after .rustpython history).threads t).currentVmIsSet =
        !(within t history).isEmpty := by
      have hnil := (nested_after .rustpython history t).eq_nil_iff
      rw [Thread.currentVmIsSet, Bool.eq_iff_iff]
      simp [hnil]
    change (if _ then _ else _ : EngineId → Nat) e = _
    rw [hset]
    by_cases he : e' = e
    · subst he
      cases queued <;> cases hnil : (within t history).isEmpty <;> simp [sends, hnil]
    · cases queued <;> cases hnil : (within t history).isEmpty <;>
        simp [sends, he, Function.update_of_ne (Ne.symm he)]

/-- A check takes a signal only if the flag has not stopped it before. -/
theorem userSignals_check (history : List (ThreadId × Event)) (t : ThreadId) (signal : Signal)
    (e : EngineId) :
    ((World.after backend history).step backend (t, .check signal)).2.userSignals e +
        (if receives backend e history (t, .check signal) then 1 else 0) =
      (World.after backend history).userSignals e := by
  have hsignals := userSignals_checkSignals (World.after backend history)
    (within t history).head? signal e
  change ((World.after backend history).check t signal).2.userSignals e + _ = _
  simp only [receives, Event.quiet, Event.signal, answer_check]
  rw [check_eq, activeInterrupt_after backend history t]
  dsimp only
  cases (InterruptScope.take ((World.after backend history).threads t)
    (World.after backend history).interrupt).1 with
  | true => simp
  | false =>
    revert hsignals
    cases ((World.after backend history).checkSignals (within t history).head? signal).1 <;>
      simp [World.checkSignals]

theorem userSignals_evaluate (history : List (ThreadId × Event)) (t : ThreadId) (signal : Signal)
    (e : EngineId) :
    ((World.after backend history).step backend (t, .evaluate signal)).2.userSignals e +
        (if receives backend e history (t, .evaluate signal) then 1 else 0) =
      (World.after backend history).userSignals e := by
  have hsignals := userSignals_checkSignals (World.after backend history)
    (within t history).head? signal e
  change ((World.after backend history).evaluate t signal).2.userSignals e + _ = _
  simp only [receives, Event.quiet, Event.signal, answer_evaluate]
  unfold World.evaluate
  rw [activeInterrupt_after backend history t]
  revert hsignals
  cases ((World.after backend history).checkSignals (within t history).head? signal).1 <;>
    simp [World.checkSignals]

/-- What is sent and received at an event is what its queue gains and loses. -/
theorem userSignals_step (backend : Backend) (history : List (ThreadId × Event))
    (event : ThreadId × Event) (e : EngineId) :
    ((World.after backend history).step backend event).2.userSignals e +
        (if receives backend e history event then 1 else 0) =
      (World.after backend history).userSignals e +
        (if sends backend e history event then 1 else 0) := by
  obtain ⟨t, event⟩ := event
  cases event with
  | request e' queued => exact userSignals_request history t e' queued e
  | check signal => exact userSignals_check history t signal e
  | evaluate signal => exact userSignals_evaluate history t signal e
  | pendingCall =>
    change (World.after backend history).pendingCall.2.userSignals e + 0 = _ + 0
    unfold World.pendingCall
    split <;> rfl
  | _ => rfl

/-- **The user signals that wait are those sent and not received.** -/
theorem userSignals_after (backend : Backend) (history : List (ThreadId × Event)) (e : EngineId) :
    (World.after backend history).userSignals e + received backend e history =
      sent backend e history := by
  induction history using List.reverseRecOn with
  | nil => rfl
  | append_singleton history event ih =>
    have hstep := userSignals_step backend history event e
    unfold sent received at ih ⊢
    rw [World.after_concat, tally_concat, tally_concat]
    omega

/-! ## Delivery -/

/-- The flag that a check takes is that of the last engine. -/
theorem taken_iff (backend : Backend) (history : List (ThreadId × Event)) (t : ThreadId) :
    (InterruptScope.take ((World.after backend history).threads t)
        (World.after backend history).interrupt).1 = true ↔
      ∃ e, (within t history).head? = some e ∧ Requested backend e history := by
  rw [take_eq (activeInterrupt_after backend history t)]
  cases (within t history).head? with
  | none => simp
  | some e => simp [← (interrupt_after_iff backend history).2 e]

/-- The interpreter finds a user signal that has been sent and not received. -/
theorem raised_iff (backend : Backend) (history : List (ThreadId × Event)) (t : ThreadId)
    (signal : Signal) :
    ((World.after backend history).checkSignals (within t history).head? signal).1 = true ↔
      signal = .own ∨ ∃ e, (within t history).head? = some e ∧ signal = .user ∧
        received backend e history < sent backend e history := by
  have hwaits : ∀ e, 0 < (World.after backend history).userSignals e ↔
      received backend e history < sent backend e history := by
    intro e
    have hafter := userSignals_after backend history e
    omega
  rw [checkSignals_iff]
  simp only [hwaits]

/-- A check is stopped by a request for the last engine, or by a signal. -/
theorem check_iff (backend : Backend) (history : List (ThreadId × Event)) (t : ThreadId)
    (signal : Signal) :
    answer backend history (t, .check signal) = .interrupted ↔
      signal = .own ∨ ∃ e, (within t history).head? = some e ∧
        (Requested backend e history ∨
          signal = .user ∧ received backend e history < sent backend e history) := by
  have htaken := taken_iff backend history t
  have hraised := raised_iff backend history t signal
  rw [answer_check, ite_eq_left_iff]
  constructor
  · intro h
    by_cases hstop : ((InterruptScope.take ((World.after backend history).threads t)
        (World.after backend history).interrupt).1 ||
      ((World.after backend history).checkSignals (within t history).head? signal).1) = true
    · rcases Bool.or_eq_true .. ▸ hstop with hflag | hsignal
      · obtain ⟨e, he, hrequested⟩ := htaken.mp hflag
        exact Or.inr ⟨e, he, Or.inl hrequested⟩
      · rcases hraised.mp hsignal with hown | ⟨e, he, huser⟩
        · exact Or.inl hown
        · exact Or.inr ⟨e, he, Or.inr huser⟩
    · exact absurd (h hstop) nofun
  · intro h hstop
    rw [Bool.or_eq_true, not_or] at hstop
    rcases h with hown | ⟨e, he, hrequested | huser⟩
    · exact absurd (hraised.mpr (Or.inl hown)) hstop.2
    · exact absurd (htaken.mpr ⟨e, he, hrequested⟩) hstop.1
    · exact absurd (hraised.mpr (Or.inr ⟨e, he, huser⟩)) hstop.2

theorem evaluate_iff (backend : Backend) (history : List (ThreadId × Event)) (t : ThreadId)
    (signal : Signal) :
    answer backend history (t, .evaluate signal) = .keyboardInterrupt ↔
      signal = .own ∨ ∃ e, (within t history).head? = some e ∧ signal = .user ∧
        received backend e history < sent backend e history := by
  rw [← raised_iff backend history t signal, answer_evaluate]
  cases ((World.after backend history).checkSignals (within t history).head? signal).1 <;> simp

theorem pendingCall_iff (backend : Backend) (history : List (ThreadId × Event)) (t : ThreadId) :
    answer backend history (t, .pendingCall) = .keyboardInterrupt ↔
      ∃ e, (waiting backend history).head? = some e ∧ Requested backend e history := by
  change (World.after backend history).pendingCall.1 = .keyboardInterrupt ↔ _
  unfold World.pendingCall
  rw [(interrupt_after_iff backend history).1]
  cases waiting backend history with
  | nil => simp
  | cons e rest =>
    have hflag := (interrupt_after_iff backend history).2 e
    simp [← hflag]

/-- Only a request that is in force is taken. -/
theorem Stopped.requested {event : ThreadId × Event} (h : Stopped backend e history event) :
    Requested backend e history := by
  obtain ⟨t, event⟩ := event
  obtain ⟨hanswer, hcleared⟩ := h
  cases event with
  | check signal =>
    have hinterrupted : answer backend history (t, .check .quiet) = .interrupted := by
      change answer backend history (t, .check .quiet) ≠ .done at hanswer
      rw [answer_check] at hanswer ⊢
      exact (ite_eq_or_eq ..).resolve_right hanswer
    rcases (check_iff backend history t .quiet).mp hinterrupted with
      hown | ⟨e', he', hreq | ⟨huser, -⟩⟩
    · cases hown
    · cases he'.symm.trans hcleared
      exact hreq
    · cases huser
  | pendingCall =>
    have hraised : answer backend history (t, .pendingCall) = .keyboardInterrupt := by
      change (World.after backend history).pendingCall.1 ≠ .done at hanswer
      change (World.after backend history).pendingCall.1 = _
      unfold World.pendingCall at hanswer ⊢
      cases hcalls : (World.after backend history).pendingCalls with
      | nil =>
        rw [hcalls] at hanswer
        exact absurd rfl hanswer
      | cons e' rest =>
        rw [hcalls] at hanswer
        exact (ite_eq_or_eq ..).resolve_right hanswer
    obtain ⟨e', he', hreq⟩ := (pendingCall_iff backend history t).mp hraised
    cases he'.symm.trans hcleared
    exact hreq
  | reset e' => exact absurd rfl hanswer
  | _ => cases hcleared

/-- What has been taken has to be requested again. -/
theorem request_between {before passed : List (ThreadId × Event)} {event : ThreadId × Event}
    (hcleared : cleared backend before event = some e)
    (h : Requested backend e (before ++ event :: passed)) :
    ∃ t queued, (t, Event.request e queued) ∈ passed := by
  obtain ⟨before', t, queued, after, heq, hafter⟩ := h
  refine ⟨t, queued, ?_⟩
  have hne : event ≠ (t, .request e queued) := by
    rintro rfl
    cases hcleared
  rcases List.append_eq_append_iff.mp heq with ⟨c, rfl, hc⟩ | ⟨c, rfl, hc⟩
  · cases c with
    | nil => exact absurd (List.cons.inj hc).1 hne
    | cons first c =>
      rw [(List.cons.inj hc).2]
      exact List.mem_append_right _ List.mem_cons_self
  · cases c with
    | nil => exact absurd (List.cons.inj hc).1.symm hne
    | cons first c =>
      obtain ⟨rfl, rfl⟩ := List.cons.inj hc
      exact absurd hcleared (hafter c event passed rfl)

/-- **A request stops a thread that is in its engine, once by its flag and at most once more by
its user signal.** -/
theorem delivered (backend : Backend) (history : List (ThreadId × Event)) :
    Delivered backend history where
  check := check_iff backend history
  evaluate := evaluate_iff backend history
  pendingCall := pendingCall_iff backend history
  once _ _ _ _ _ _ _ hfirst hsecond := request_between hfirst.2 hsecond.requested
  signals e := by
    have hafter := userSignals_after backend history e
    omega

/-- A request off the engines of RustPython stops one check by its flag, and the next one by its
user signal. -/
example :
    answer .rustpython [(0, .request 0 true), (1, .enter 0)] (1, .check .quiet) = .interrupted ∧
      answer .rustpython [(0, .request 0 true), (1, .enter 0), (1, .check .quiet)]
        (1, .check .user) = .interrupted := by
  decide

end GuestPy.Engines
