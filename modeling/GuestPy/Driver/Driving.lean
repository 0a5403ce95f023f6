import GuestPy.Driver.Polling

/-!
# Driving keeps the discipline

The calls of `run_until_idle` and `close`, and from all operations the runs.

* A call that is in a poll owns its stage: nothing else writes it. So a call that has got its
  driver keeps it over whatever runs in between, unless the driver is taken, and then the
  absence is explained.
* `lawful_run`: the events of every run are lawful, whatever the code does that drivers run.
-/

namespace GuestPy.Driver

open PendingHostFutures (python)
open AsyncDriverSlot

variable {α : Type} {w : World}

/-! ## The stage of a call -/

theorem Running.later {w' : World} {i : Nat} (h : Running w i) (hw : Later w w') :
    Running w' i := hw.running i h

theorem running_setOperation {i : Nat} {f : Operation → Operation}
    (hi : (w.operations i).isSome = true)
    (hf : ∀ o, w.operations i = some o → (f o).stage = .running) :
    Running (w.setOperation i f) i := by
  obtain ⟨o, ho⟩ := Option.isSome_iff_exists.1 hi
  refine ⟨f o, ?_, hf o ho⟩
  show Function.update w.operations i ((w.operations i).map f) i = some (f o)
  rw [Function.update_self, ho]
  rfl

/-- The stages from which a call is polled. -/
def Suspended (stage : Stage) : Prop :=
  stage = .start ∨ stage.isOpen = true ∧ stage ≠ .running

theorem Suspended.polled {stage : Stage} (h : Suspended stage) :
    stage = .start ∧ stage.polled = .starting ∨
      stage ≠ .start ∧ stage.isOpen = true ∧ stage.polled = .running := by
  rcases h with rfl | ⟨hopen, -⟩
  · exact Or.inl ⟨rfl, rfl⟩
  · right
    cases stage with
    | start => cases hopen
    | starting => cases hopen
    | finished => cases hopen
    | running => exact ⟨nofun, rfl, rfl⟩
    | yielding => exact ⟨nofun, rfl, rfl⟩
    | blocked => exact ⟨nofun, rfl, rfl⟩
    | waiting delay => exact ⟨nofun, rfl, rfl⟩

/-- A call may be resumed from `stage`: it has not begun, or it is in its poll. -/
def Resumable (w : World) (i : Nat) (stage : Stage) : Prop :=
  match stage with
  | .start => (w.operations i).isSome = true
  | _ => Running w i

/-- A call that has got its driver goes on in its poll. -/
theorem safe_enterPoll {i : Nat} {f : Operation → Operation}
    (hi : (w.operations i).isSome = true) (hd : w.driver.isSome = true)
    (hf : ∀ o, (f o).stage = .running) :
    Safe w (Host.modify (World.setOperation i f)) fun _ w' => Running w' i :=
  Keeps.modify (inv_setOperation · fun _ _ _ => Or.inr (Or.inl hd))
    (later_setOperation fun o _ _ => hf o) (running_setOperation hi fun o _ => hf o)

section Calls

variable {callout : Call → Host World Err Answer}
  (hcall : ∀ c w, Safe w (callout c) fun _ _ => True)

/-! ## Suspensions -/

theorem safe_suspendAt {cx : Waker} {since : Nat} {branch : Branch} {own : Option Nat}
    (stage : Stage) (hs : Suspending w cx since branch own) :
    Safe w (suspendAt cx since branch own stage) fun _ _ => True := by
  apply Keeps.bind (Keeps.modify (R := fun _ _ => True) (fun h => inv_log (hs.lawful h) h)
    (later_log _) trivial)
  exact fun _ _ _ _ => Keeps.pure trivial

theorem suspending_ready {cx : Waker} {since : Nat} (hs : since ≤ w.wakes.length) :
    Suspending (w.wake cx) cx since .driveReady none :=
  ⟨fun _ => wokenSince_wake hs, fun _ => rfl, nofun, nofun⟩

theorem suspending_waiting (cx : Waker) (since : Nat) : Suspending w cx since .driveWaiting none :=
  ⟨nofun, fun _ => rfl, nofun, nofun⟩

theorem suspending_blocked {cx : Waker} {n : Nat} (since : Nat) (h : Polled w n cx) :
    Suspending w cx since .driveBlocked (some n) where
  woken := nofun
  unswept := nofun
  swept _ := rfl
  polled n' hn' := by
    cases hn'
    exact h

theorem safe_pollWaiting (i : Nat) (cx : Waker) (delay : Duration) :
    Safe w (pollWaiting i cx delay) fun _ _ => True := by
  apply Keeps.get
  split
  · exact Keeps.pure trivial
  · next o _ =>
    apply Keeps.bind (safe_pollTimer o.sleep delay cx)
    rintro ⟨sleep, ready⟩ w1 _ _
    apply Keeps.bind (Keeps.modify (R := fun _ _ => True)
      (inv_setOperation (f := fun o => { o with sleep }) · fun _ _ hopen => Or.inl hopen)
      (later_setOperation (f := fun o => { o with sleep }) fun _ _ hrunning => hrunning) trivial)
    exact fun _ _ _ _ => Keeps.pure trivial

theorem safe_spend (i : Nat) : Safe w (spend i) fun _ _ => True :=
  Keeps.modify (inv_setOperation (f := fun o =>
      { o with remaining := o.remaining.map fun left => left - 1 }) · fun _ _ hopen =>
        Or.inl hopen)
    (later_setOperation fun _ _ hrunning => hrunning) trivial

include hcall

theorem safe_pollBlocked (cx : Waker) (hu : Unlocked w) (hf : Filled w) :
    Safe w (pollBlocked callout cx) fun r w' => Polled w' r.2 cx := by
  have hpoll : Safe w.borrow (do
      let n ← PendingHostFutures.pollAll callout cx
      let w ← Host.get
      Pure.pure (w.pending.hasReady || w.pending.isEmpty, n))
      fun (r : Bool × Nat) w' => Polled w' r.2 cx := by
    apply Keeps.bind (PendingHostFutures.safe_pollAll hcall cx)
    intro n w1 _ hn
    apply Keeps.get
    exact Keeps.pure hn
  exact (safe_withDriver hu hf (fun _ => hpoll) fun _ _ h => h.unborrow).mono fun _ _ _ h => h.1

/-! ## The loop -/

/-- A call in its poll, at the point where it goes on driving. -/
theorem safe_driveLoop (i : Nat) (cx : Waker) (since : Nat) (activation : Activation)
    (rounds : Nat) (hr : Running w i) (hu : Unlocked w) (hs : since ≤ w.wakes.length) :
    Safe w (driveLoop callout i cx since activation rounds) fun _ _ => True := by
  induction rounds generalizing w with
  | zero => exact Keeps.stuck
  | succ rounds ih =>
    have hagain : ∀ {w' : World}, Later w w' → Safe w'
        (do spend i; driveLoop callout i cx since activation rounds) fun _ _ => True := by
      intro w' h
      apply Keeps.bind (safe_spend i)
      exact fun _ _ h' _ => ih ((hr.later h).later h') ((hu.later h).later h')
        (hs.trans (h.trans h').wakes.length_le)
    apply Keeps.get
    split
    · exact Keeps.pure trivial
    · apply Keeps.assume
      intro hw
      apply Keeps.bind (Keeps.inv (safe_advanceWith hcall activation hu (hr.filled hw)))
      rintro progress w1 h1 ⟨-, hw1⟩
      have hu1 : Unlocked w1 := hu.later h1
      have hf1 : Filled w1 := (hr.later h1).filled hw1
      cases progress with
      | idle => exact Keeps.pure trivial
      | ready =>
        have hs1 : since ≤ w1.wakes.length := hs.trans h1.wakes.length_le
        apply Keeps.bind (Keeps.modify (R := fun _ w2 => Suspending w2 cx since .driveReady none)
          (inv_wake cx) (later_wake cx) (suspending_ready hs1))
        exact fun _ _ _ h2 => safe_suspendAt _ h2
      | blocked =>
        apply Keeps.bind (safe_expectDriver hu1 hf1)
        rintro _ _ _ rfl
        apply Keeps.bind (safe_pollBlocked hcall cx hu1 hf1)
        rintro ⟨ready, n⟩ w2 h2 hn
        apply Keeps.ite
        · exact fun _ => hagain (h1.trans h2)
        · exact fun _ => safe_suspendAt _ (suspending_blocked since hn)
      | waiting delay =>
        apply Keeps.bind (safe_pollWaiting i cx delay)
        intro ready w2 h2 _
        apply Keeps.ite
        · exact fun _ => hagain (h1.trans h2)
        · exact fun _ => safe_suspendAt _ (suspending_waiting cx since)

/-! ## The beginning of a call -/

theorem safe_beginClose (i : Nat) (hi : (w.operations i).isSome = true) (hu : Unlocked w) :
    Safe w (beginClose callout i) fun _ w' => Running w' i := by
  have hcancel : ∀ f, Safe (w.withRuntime f)
      (do
        Host.modify fun w => w.log (.closing w.driver.isSome)
        withDriver (python callout "cancel")) fun _ w' => w'.driver.isSome = true := by
    intro f
    apply Keeps.bind (Keeps.modify (R := fun _ w1 => Filled w1)
      (inv_log (e := .closing w.driver.isSome) trivial) (later_log _) ?_)
    · intro _ w1 h1 hf
      have hu1 : Unlocked w1 := Unlocked.later (w := w.withRuntime f) hu h1
      exact (safe_withDriver (Q := fun _ _ => True) hu1 hf (fun _ => safe_python hcall _)
        fun _ _ _ => trivial).mono fun _ _ _ h => h.2
    · cases hd : w.driver.isSome with
      | true => exact Or.inl hd
      | false => exact Or.inr (Or.inl (hd ▸ List.mem_cons_self))
  apply Keeps.bind (safe_enter hcancel (fun _ _ _ h => h) _)
  intro _ w1 h1 hd
  exact safe_enterPoll (h1.present i hi) hd fun _ => rfl

theorem safe_beginRun (i : Nat) (hi : (w.operations i).isSome = true) (hu : Unlocked w) :
    Safe w (beginRun callout i) fun _ w' => Running w' i := by
  apply Keeps.bind (safe_enter (Q := fun _ w' => w'.driver.isSome = true)
    (fun f => safe_ensure hcall (w := w.withRuntime f) hu) (fun _ _ _ h => h) _)
  intro _ w1 h1 hd
  exact safe_enterPoll (h1.present i hi) hd fun _ => rfl

theorem safe_begin (i : Nat) (closing : Bool) (hi : (w.operations i).isSome = true)
    (hu : Unlocked w) : Safe w (begin callout i closing) fun _ w' => Running w' i :=
  Keeps.ite (fun _ => safe_beginClose hcall i hi hu) fun _ => safe_beginRun hcall i hi hu

/-! ## One poll of a call -/

/-- After its drive, a call is in its poll. -/
theorem safe_resumeDrive (i : Nat) (cx : Waker) (since : Nat) (o : Operation) (rounds : Nat)
    (hi : Resumable w i o.stage) (hu : Unlocked w) (hs : since ≤ w.wakes.length) :
    Safe w (resumeDrive callout i cx since o rounds) fun _ w' => Running w' i := by
  have hloop : ∀ {w' : World}, Running w' i → Later w w' →
      Safe w' (driveLoop callout i cx since o.activation rounds) fun _ w'' => Running w'' i :=
    fun hr h => (safe_driveLoop hcall i cx since o.activation rounds hr (hu.later h)
      (hs.trans h.wakes.length_le)).mono fun _ _ h' _ => hr.later h'
  have hagain : ∀ {w' : World}, Running w' i → Later w w' → Safe w'
      (do spend i; driveLoop callout i cx since o.activation rounds)
        fun _ w'' => Running w'' i := by
    intro w' hr h
    apply Keeps.bind (safe_spend i)
    exact fun _ _ h' _ => hloop (hr.later h') (h.trans h')
  have hsuspend : ∀ {w' : World} {branch : Branch} {own : Option Nat} (stage : Stage),
      Running w' i → Suspending w' cx since branch own →
        Safe w' (suspendAt cx since branch own stage) fun _ w'' => Running w'' i :=
    fun stage hr h => (safe_suspendAt stage h).mono fun _ _ h' _ => hr.later h'
  unfold resumeDrive
  split
  · next hstage =>
    rw [hstage] at hi
    apply Keeps.bind (safe_begin hcall i o.closing hi hu)
    exact fun _ _ h1 hr => hloop hr h1
  · next hstage =>
    rw [hstage] at hi
    have hr : Running w i := hi
    apply Keeps.assume
    intro hw
    apply Keeps.bind (safe_pollBlocked hcall cx hu (hr.filled hw))
    rintro ⟨ready, n⟩ w1 h1 hn
    apply Keeps.ite
    · exact fun _ => hagain (hr.later h1) h1
    · exact fun _ => hsuspend _ (hr.later h1) (suspending_blocked since hn)
  · next delay hstage =>
    rw [hstage] at hi
    have hr : Running w i := hi
    apply Keeps.bind (safe_pollWaiting i cx delay)
    intro ready w1 h1 _
    apply Keeps.ite
    · exact fun _ => hagain (hr.later h1) h1
    · exact fun _ => hsuspend _ (hr.later h1) (suspending_waiting cx since)
  · next hstart _ _ =>
    have hr : Running w i := by
      unfold Resumable at hi
      split at hi
      · next hstage => exact absurd hstage hstart
      · exact hi
    exact hagain hr (Later.refl w)

theorem safe_resumeBody (i : Nat) (cx : Waker) (since : Nat) (o : Operation) (rounds : Nat)
    (hi : Resumable w i o.stage) (hu : Unlocked w) (hs : since ≤ w.wakes.length) :
    Safe w (resumeBody callout i cx since o rounds) fun _ w' => Running w' i := by
  apply Keeps.bind (safe_resumeDrive hcall i cx since o rounds hi hu hs)
  intro turn w1 h1 hr
  cases turn with
  | suspended stage => exact Keeps.pure hr
  | ended =>
    apply Keeps.ite
    · intro _
      apply Keeps.assume
      intro hw1
      have hu1 : Unlocked w1 := hu.later h1
      have hf1 : Filled w1 := hr.filled hw1
      have hclose : ∀ f, Safe (w1.withRuntime f) (withDriver (python callout "close"))
          fun _ _ => True := fun f =>
        (safe_withDriver (Q := fun _ _ => True) (w := w1.withRuntime f) hu1 hf1
          (fun _ => safe_python hcall _) fun _ _ _ => trivial).mono fun _ _ _ _ => trivial
      apply Keeps.bind (safe_enter hclose (fun _ _ _ _ => trivial) _)
      exact fun _ _ h2 _ => Keeps.pure (hr.later h2)
    · exact fun _ => Keeps.pure hr

/-- While a call is polled it owns its stage; it is left in an open one only if it has got
its driver. -/
theorem safe_resumeFrom (i : Nat) (cx : Waker) (rounds : Nat) (o : Operation)
    (ho : w.operations i = some o) (hstage : Suspended o.stage) (hu : Unlocked w) :
    Safe w (resumeFrom callout i cx rounds o) fun _ _ => True := by
  have hsame : ∀ o', w.operations i = some o' → o' = o := by
    intro o' ho'
    rw [ho] at ho'
    exact (Option.some.inj ho').symm
  have hnot : ¬ Running w i := by
    rintro ⟨o', ho', hrunning⟩
    rw [hsame o' ho'] at hrunning
    rcases hstage with hstart | ⟨-, hne⟩
    · rw [hstart] at hrunning
      cases hrunning
    · exact hne hrunning
  have htake : Later w (w.setOperation i fun o => { o with stage := o.stage.polled }) :=
    (Later.refl w).setOperation hnot
  have hresumable : Resumable (w.setOperation i fun o => { o with stage := o.stage.polled }) i
      o.stage := by
    have hpresent : (w.operations i).isSome = true := Option.isSome_iff_exists.2 ⟨o, ho⟩
    unfold Resumable
    split
    · exact (present_setOperation i i _).trans hpresent
    · next hne =>
      apply running_setOperation hpresent
      intro o' ho'
      rw [hsame o' ho']
      rcases hstage.polled with ⟨hstart, -⟩ | ⟨-, -, hrunning⟩
      · exact absurd hstart hne
      · exact hrunning
  have hbody := Keeps.attempt
    (R := fun turn w' => (∃ t, turn = .ok t) → Running w' i)
    ((safe_resumeBody hcall i cx w.wakes.length o rounds hresumable (hu.later htake)
      (Nat.le_refl _)).mono fun _ _ _ hr _ => hr)
    fun _ _ _ ⟨_, ht⟩ => nomatch ht
  have hpoll : Safe w
      (Host.bracket (World.setOperation i fun o => { o with stage := o.stage.polled })
        (Host.attempt (resumeBody callout i cx w.wakes.length o rounds))
        fun turn => World.setOperation i fun o => { o with stage := Turn.stage turn })
      fun _ _ => True := by
    apply Keeps.bracket ?_ (fun _ => htake) hbody
    · intro turn t ht hlater hturn
      refine ⟨?_, (htake.trans hlater).setOperation hnot, trivial⟩
      apply inv_setOperation ht
      intro o' _ hopen
      right
      cases turn with
      | error e => cases hopen
      | ok turn => exact (hturn ⟨turn, rfl⟩).filled ht
    · intro h
      apply inv_setOperation h
      intro o' ho' hopen
      rw [hsame o' ho'] at hopen ⊢
      rcases hstage.polled with ⟨-, hstarting⟩ | ⟨-, hopen', -⟩
      · have : o.stage.polled.isOpen = true := hopen
        rw [hstarting] at this
        cases this
      · exact Or.inl hopen'
  apply Keeps.get
  apply Keeps.bind hpoll
  intro turn w1 h1 _
  split
  · exact Keeps.pure trivial
  · exact Keeps.ite (fun _ => safe_take hcall (hu.later h1)) fun _ => Keeps.pure trivial
  · exact Keeps.throw

theorem safe_resume (i : Nat) (cx : Waker) (rounds : Nat) (hu : Unlocked w) :
    Safe w (resume callout i cx rounds) fun _ _ => True := by
  apply Keeps.get
  split
  · exact Keeps.pure trivial
  · next o ho =>
    split
    · exact Keeps.pure trivial
    · exact Keeps.pure trivial
    · exact Keeps.pure trivial
    · next hstarting hrunning hfinished =>
      apply safe_resumeFrom hcall i cx rounds o ho ?_ hu
      cases hstage : o.stage with
      | start => exact Or.inl rfl
      | starting => exact absurd hstage hstarting
      | running => exact absurd hstage hrunning
      | yielding => exact Or.inr ⟨rfl, nofun⟩
      | blocked => exact Or.inr ⟨rfl, nofun⟩
      | waiting delay => exact Or.inr ⟨rfl, nofun⟩
      | finished => exact absurd hstage hfinished

/-! ## Operations -/

theorem safe_hostCall (hu : Unlocked w) : Safe w (hostCall callout) fun _ _ => True := by
  apply Keeps.bind (safe_ensure hcall hu)
  intro _ w1 h1 hd
  have hbody : Safe w1.borrow (do
      let _ ← callout .hostBody
      let _ ← PendingHostFutures.register callout
      pure ()) fun _ _ => True := by
    apply Keeps.bind (hcall _ _)
    intro _ w2 _ _
    apply Keeps.bind (PendingHostFutures.safe_register hcall)
    exact fun _ _ _ _ => Keeps.pure trivial
  exact (safe_withDriver (hu.later h1) (Or.inl hd) (fun _ => hbody) fun _ _ _ => trivial).mono
    fun _ _ _ _ => trivial

omit hcall in
/-- What is unserved was noted when its wait was over. -/
theorem lawful_returned (h : Inv w) : (Event.returned w.unserved).Lawful w.events := by
  intro i hi
  obtain ⟨-, hi⟩ := List.mem_filter.1 hi
  split at hi
  · next c hc =>
    rw [Bool.and_eq_true, Bool.and_eq_true, decide_eq_true_eq] at hi
    obtain ⟨⟨hpending, hcompleted⟩, hunserved⟩ := hi
    obtain ⟨-, hkept, hmissed⟩ := h.noted i c hc hpending
    obtain ⟨served, hserved⟩ := Option.isSome_iff_exists.1 hcompleted
    cases served with
    | true =>
      have hserves : w.serves c = true := by
        unfold World.serves
        rw [hkept hserved, Bool.true_or]
      rw [hserves] at hunserved
      cases hunserved
    | false => exact hmissed hserved
  · cases hi

omit hcall in
/-- From where an operation begins, the slot is not written but where that is noted. -/
theorem safe_operation {m : Host World Err Unit}
    (hm : ∀ w, Unlocked w → Safe w m fun _ _ => True) :
    Safe w (operation m) fun _ _ => True := by
  apply Keeps.bind (Keeps.modify (R := fun _ w1 => Unlocked w1)
    (inv_log (e := .began w.writing) trivial) (later_log _) ?_)
  · intro _ w1 _ hu
    apply Keeps.bind (safe_attempt (hm w1 hu))
    intro outcome w2 _ _
    apply Keeps.bind (Keeps.modify (R := fun _ _ => True)
      (fun h => inv_log (lawful_returned h) h) (later_log _) trivial)
    exact fun _ _ _ _ => Keeps.ofExcept fun _ _ => trivial
  · intro hw
    have hwriting : w.writing = true := hw
    rw [← hwriting]
    exact List.mem_cons_self

theorem safe_performOp (op : Op) : Safe w (performOp callout op) fun _ _ => True := by
  cases op with
  | activity a => exact Keeps.modify (inv_withRuntime _) (later_withRuntime _) trivial
  | advance => exact safe_operation fun _ hu => safe_advance hcall hu
  | spawn => exact Keeps.modify inv_spawn { Later.refl w with } trivial
  | poll i cx => exact safe_operation fun _ hu => Coroutine.safe_poll hcall i cx hu
  | drop i => exact Keeps.modify (inv_dropCoroutine i) (later_dropCoroutine i) trivial
  | start closing =>
    apply Keeps.assume
    intro h
    exact Keeps.modify (inv_start closing) (later_start closing h) trivial
  | resume i cx rounds => exact safe_operation fun _ hu => safe_resume hcall i cx rounds hu
  | abandon i => exact Keeps.modify (inv_abandon i) (later_abandon i) trivial
  | hostCall => exact safe_operation fun _ hu => safe_hostCall hcall hu
  | «await» task x => exact Keeps.modify (fun h => { h with }) { Later.refl w with } trivial
  | finishTask task => exact Keeps.modify (inv_finishTask task) (later_finishTask task) trivial
  | setFuture x state =>
    exact Keeps.modify (inv_setFuture x state) (later_setFuture x state) trivial
  | select x => exact Keeps.modify (inv_select x) ((later_withLoop _).trans (later_log _)) trivial
  | wake cx => exact Keeps.modify (inv_wake cx) (later_wake cx) trivial

end Calls

/-! ## Runs -/

/-- What other code does while the drivers call out. -/
abbrev Code : Type := Environment World Err Op Unit Call Answer

/-- What hosts do from the top, one operation after another. -/
abbrev Script : Type := Prog Op (Reply Err Unit) Unit

/-- A guest after a script, against given code, up to a depth of nesting. The guest and its
runtime may be in any state before. -/
def runScript (guest : GuestId) (runtime : RuntimeInner) (code : Code) (fuel : Nat)
    (script : Script) : World :=
  (script.run (drivers.perform code fuel) (World.new guest runtime)).2

/-- Every event of a run satisfies `P`. -/
def Every (P : Event → Prop) (w : World) : Prop := ∀ e ∈ w.events, P e

instance (P : Event → Prop) [DecidablePred P] (w : World) : Decidable (Every P w) :=
  inferInstanceAs (Decidable (∀ e ∈ w.events, P e))

theorem inv_new (guest : GuestId) (runtime : RuntimeInner) : Inv (World.new guest runtime) where
  lawful _ h := nomatch h
  borrowed h := absurd rfl h
  inUse _ _ h := nomatch h
  started _ _ h := nomatch h
  timeout _ h := nomatch h
  swept _ _ h := nomatch h
  ticketed := ⟨fun _ _ => rfl, fun _ h => nomatch h⟩
  resolved _ := ⟨Nat.zero_le _, fun h => absurd rfl h⟩
  spawned _ _ h := nomatch h
  noted _ _ h := nomatch h

theorem safe_perform (code : Code) (fuel : Nat) (op : Op) (w : World) :
    Safe w (drivers.perform code fuel op) fun _ _ => True :=
  System.keeps_perform (S := drivers) (D := discipline) (fun _ h => { h with })
    (fun w => { Later.refl w with }) (fun _ hcall op _ => safe_performOp hcall op) fuel op w

theorem inv_run (guest : GuestId) (runtime : RuntimeInner) (code : Code) (fuel : Nat)
    (script : Script) : Inv (runScript guest runtime code fuel script) :=
  (System.keeps_run (safe_perform code fuel) script _ (inv_new guest runtime)).1

/-- **The events of every run are lawful.** -/
theorem lawful_run (guest : GuestId) (runtime : RuntimeInner) (code : Code) (fuel : Nat)
    (script : Script) :
    Every (Event.Lawful (runScript guest runtime code fuel script).events)
      (runScript guest runtime code fuel script) :=
  (inv_run guest runtime code fuel script).lawful

/-! ## Scripts -/

def firstGuest : GuestId := ⟨1, Nat.one_ne_zero⟩

/-- The operations one after another, whatever becomes of each. -/
def inOrder : List Op → Prog Op (Reply Err Unit) α → Prog Op (Reply Err Unit) α
  | [], last => last
  | op :: rest, last => .call op fun _ => inOrder rest last

/-- A run in a new runtime, whose first guest is built with `policy`. -/
def runOps (policy : ExecutionPolicy) (code : Code) (ops : List Op) : World :=
  runScript firstGuest .new code 2 (inOrder (.activity (.build policy) :: ops) (.ret ()))

end GuestPy.Driver
