import GuestPy.Boundary.Keeping

/-!
# Polls, and whole runs

What the poll of a future records, and what all operations record along a run.

* `CoroutineFuture.safe_entered` says with which errors a poll leaves the interpreter.
* `safe_operation`: an operation that asks whether its guest is closed is refused on a guest
  that has been closed.
* `lawful_run`: everything that is recorded along a run is lawful.
-/

namespace GuestPy.Boundary

open Exceptions

variable {types : TypeId → HostException} {α : Type} {w : World types} {g : GuestId}

section Calls

variable {callout : Call → Host (World types) Err Answer}
  (hcall : ∀ c w, Safe w (callout c) fun _ _ => True)

namespace CoroutineFuture

/-! ## Polls -/

omit hcall in
theorem prepare_fails (i : Nat) (c : CoroutineFuture) : Fails Described (prepare callout i c) := by
  refine Fails.ite Fails.pure ?_
  refine Fails.bind ensureDriver_fails fun _ => Fails.bind (python_fails _ _) fun _ => ?_
  exact Fails.modify

omit hcall in
theorem taskState_fails (g : GuestId) : Fails Described (taskState callout g) := by
  refine Fails.bind (python_fails _ _) fun done => Fails.ite ?_ Fails.pure
  exact Fails.bind (python_fails _ _) fun _ => Fails.pure

omit hcall in
theorem stepped_fails (i : Nat) (c : CoroutineFuture) : Fails Described (stepped callout i c) := by
  refine Fails.bind (prepare_fails i c) fun _ => Fails.bind ensureDriver_fails fun _ => ?_
  exact Fails.bind (python_fails _ _) fun _ => taskState_fails _

/-- What is known of a turn when it ends. -/
def Turn.Told (w : World types) (g : GuestId) : Turn → Prop
  | stopped e => e = stopError (w.expired g) (w.cancelled g)
  | stepped r => ∀ e, r = .error e → Described e

include hcall

theorem safe_activate (i : Nat) (c : CoroutineFuture) :
    Safe w (activate callout i c) fun _ _ => True := by
  apply Keeps.get
  apply Keeps.ite
  · exact fun _ => Keeps.pure trivial
  · intro _
    split
    · exact Keeps.throw
    · next inner hget =>
      split
      · exact Keeps.throw
      · next r hnew =>
        have hr : StaysClosed w.runtime r := .begin (guests_of_get hget) hnew
        refine Keeps.bind (Keeps.modify (R := fun _ _ => True) ?_ ⟨hr, fun _ _ ho => ho⟩ trivial)
          fun _ w1 _ _ => ?_
        · intro hw
          have hactive : Inv (w.withRuntime fun _ => r) := inv_runtime hw hr
          exact inv_congr hactive rfl rfl rfl rfl
        · apply Keeps.bind (safe_attempt (hcall _ w1))
          exact fun _ _ _ _ => Keeps.pure trivial

theorem safe_prepare (i : Nat) (c : CoroutineFuture) :
    Safe w (prepare callout i c) fun _ _ => True := by
  apply Keeps.ite
  · exact fun _ => Keeps.pure trivial
  · intro _
    apply Keeps.bind (safe_ensureDriver hcall)
    intro _ w1 _ _
    apply Keeps.bind (safe_python hcall _ _)
    exact fun _ _ _ _ => safe_modify rfl rfl rfl rfl

theorem safe_taskState : Safe w (taskState callout g) fun _ _ => True := by
  apply Keeps.bind (safe_python hcall _ _)
  intro done w1 _ _
  apply Keeps.ite
  · intro _
    apply Keeps.bind (safe_python hcall _ _)
    exact fun _ _ _ _ => Keeps.pure trivial
  · exact fun _ => Keeps.pure trivial

theorem safe_stepped (i : Nat) (c : CoroutineFuture) :
    Safe w (stepped callout i c) fun _ _ => True := by
  apply Keeps.bind (safe_prepare hcall i c)
  intro _ w1 _ _
  apply Keeps.bind (safe_ensureDriver hcall)
  intro _ w2 _ _
  apply Keeps.bind (safe_python hcall _ _)
  exact fun _ _ _ _ => safe_taskState hcall

theorem safe_check : Safe w (check callout) fun _ _ => True := by
  apply Keeps.bind (safe_attempt (hcall _ w))
  intro answer w1 _ _
  split <;> exact Keeps.pure trivial

omit hcall in
/-- Code that fails with described exceptions only, with its error handed back. -/
theorem safe_described {m : Host (World types) Err α} (hfails : Fails Described m)
    (hm : Safe w m fun _ _ => True) :
    Safe w (Host.attempt m) fun r _ => ∀ e, r = .error e → Described e := by
  refine Keeps.attempt_fails hfails (hm.mono fun _ _ _ _ => nofun) fun e w' _ he e' h => ?_
  cases h
  exact he

/-- **How a poll leaves the interpreter.** A guest that has to stop does so with the error that
its policy gives for it. Otherwise only guest code fails. -/
theorem safe_entered (i : Nat) (c : CoroutineFuture) :
    Safe w (entered callout i c) fun turn w' => turn.Told w' c.guest := by
  apply Keeps.bind (safe_check hcall)
  intro interrupted w1 _ _
  apply Keeps.get
  split
  · next e he =>
    obtain ⟨inner, hinner, hstop⟩ := Option.bind_eq_some_iff.1 he
    refine Keeps.pure ?_
    change e = stopError (w1.expired c.guest) (w1.cancelled c.guest)
    unfold World.expired World.cancelled
    rw [hinner]
    exact mustStop_eq hstop
  · apply Keeps.bind (safe_described (stepped_fails i c) (safe_stepped hcall i c))
    intro stepped w2 _ hstepped
    apply Keeps.bind (safe_described (python_fails _ _) (safe_python hcall _ _))
    intro restored w3 _ hrestored
    split
    · next e =>
      refine Keeps.pure fun e' he' => hstepped e' ?_
      cases he'
      rfl
    · next e =>
      refine Keeps.pure fun e' he' => hrestored e' ?_
      cases he'
      rfl
    · exact Keeps.pure nofun

omit hcall in
theorem safe_finish {path : Path} {step noticed : Bool} {raw outcome : Except Err Unit}
    (h : (w.settled g path step noticed raw (handBack step outcome)).Lawful) :
    Safe w (finish g path step noticed raw outcome) fun _ _ => True := by
  apply Keeps.get
  apply Keeps.bind (safe_log h)
  exact fun _ _ _ _ => safe_ofExcept _

omit hcall in
theorem classifyBy_forget (expired cancelled : Bool) (r : Except Err α) :
    classifyBy expired cancelled (Result.forget r) =
      Result.forget (classifyBy expired cancelled r) := by
  cases r with
  | ok a => rfl
  | error e => cases e <;> rfl

omit hcall in
theorem forget_unit (r : Except Err Unit) : Result.forget r = r := by
  cases r <;> rfl

omit hcall in
/-- The record of a poll that fails. -/
theorem lawful_polled {turn : Turn} {e : Err} (hturn : turn.Told w g)
    (he : classify w g turn.result = .error e) (step : Bool) :
    (w.settled g .polled step turn.isStopped (Result.forget turn.result)
      (handBack step (.error e))).Lawful where
  outcome := by
    have hreturned : classifyBy (w.expired g) (w.cancelled g)
        (Result.forget (Result.forget turn.result)) = (.error e : Except Err Unit) := by
      rw [forget_unit, classifyBy_forget, ← classify_eq, he]
      rfl
    change Result.forget (handBack step (.error e)) = handBack step
      (classifyBy (w.expired g) (w.cancelled g) (Result.forget (Result.forget turn.result)))
    rw [hreturned, forget_unit]
  step := nofun
  noticed h := by
    cases turn with
    | stopped e' => exact ⟨rfl, congrArg Except.error hturn⟩
    | stepped r => cases h
  described _ h e' he' := by
    cases turn with
    | stopped e'' => cases h
    | stepped r =>
      cases r with
      | ok done => cases he'
      | error e'' =>
        cases he'
        exact hturn _ rfl
  exception := exception_of_known

omit hcall in
theorem lawful_extracted (g : GuestId) (step : Bool) (r : Except Err Unit) :
    (w.settled g .extracted step false r (handBack step r)).Lawful where
  outcome := by
    change Result.forget (handBack step r) = handBack step (Result.forget r)
    rw [forget_unit, forget_unit]
  step := nofun
  noticed := nofun
  described := nofun
  exception := exception_of_known

theorem safe_conclude (step : Bool) {turn : Turn} (hturn : turn.Told w g) :
    Safe w (conclude callout g step turn) fun _ _ => True := by
  apply Keeps.get
  split
  · next e he => exact safe_finish (lawful_polled hturn he step)
  · apply Keeps.bind (safe_attempt (safe_hostCode hcall _))
    intro extracted w1 _ _
    exact safe_finish (lawful_extracted g step extracted)
  · exact safe_pollHosts hcall

theorem safe_pollBody (i : Nat) (step : Bool) (c : CoroutineFuture) :
    Safe w (pollBody callout i step c) fun _ _ => True := by
  apply Keeps.bind (safe_activate hcall i c)
  intro _ w1 _ _
  apply Keeps.bind (safe_pollHosts hcall)
  intro _ w2 _ _
  apply Keeps.bind (safe_entered hcall i c)
  exact fun turn w3 _ hturn => safe_conclude hcall step hturn

theorem safe_poll (i : Nat) (step : Bool) (c : CoroutineFuture) :
    Safe w (poll callout i step c) fun _ _ => True := by
  apply Keeps.bind (safe_modify rfl rfl rfl rfl)
  intro _ w1 _ _
  apply Keeps.bind (safe_attempt (safe_pollBody hcall i step c))
  intro r w2 _ _
  apply Keeps.bind (safe_modify rfl rfl rfl rfl)
  exact fun _ _ _ _ => safe_ofExcept _

end CoroutineFuture

include hcall

theorem safe_startStep : Safe w (startStep callout g) fun _ _ => True := by
  apply Keeps.bind (safe_attempt (safe_enterWith fun _ => safe_python hcall g _))
  intro r w1 _ _
  split
  · exact safe_modify rfl rfl rfl rfl
  · exact safe_ofExcept _

/-! ## Operations -/

omit hcall in
/-- **A closed guest refuses.** An operation that asks whether its guest is closed does nothing
on one that has been closed. -/
theorem safe_operation {entry : Entry} {m : Host (World types) Err Unit}
    (hm : Safe w m fun _ _ => True)
    (hrefused : entry.asks = true → Closed w.runtime g → m w = (.err .closed, w)) :
    Safe w (operation entry g m) fun _ _ => True := by
  apply Keeps.assume
  intro hw
  apply Keeps.get
  have hobserve : Safe w (Host.observe m) fun reply w' =>
      w.shut g = true → entry.asks = true → reply = .err .closed ∧ w' = w := by
    by_cases hshut : w.shut g = true ∧ entry.asks = true
    · have hrun : m w = (.err .closed, w) := hrefused hshut.2 (hw.shut g hshut.1)
      refine Keeps.of_eq (a := .err .closed) ?_ fun _ _ => ⟨rfl, rfl⟩
      unfold Host.observe
      rw [hrun]
    · exact (Keeps.observe hm).mono fun _ _ _ _ h h' => absurd ⟨h, h'⟩ hshut
  apply Keeps.bind hobserve
  intro reply w1 _ hreply
  refine Keeps.bind (Keeps.modify (R := fun _ _ => True) (inv_log ?_) (later_congr rfl rfl) trivial)
    fun _ w2 _ _ => ?_
  · intro hshut hasks
    obtain ⟨rfl, rfl⟩ := hreply hshut hasks
    exact ⟨decide_eq_false (not_not_intro rfl), rfl⟩
  · cases reply with
    | ok a => exact Keeps.pure trivial
    | err e => exact Keeps.throw
    | panic => exact Keeps.panic trivial

omit hcall in
theorem safe_dropCoroutine (i : Nat) :
    Safe w (Host.modify (World.dropCoroutine i)) fun _ _ => True := by
  unfold World.dropCoroutine
  have hdrop : ∀ c : CoroutineFuture,
      StaysClosed w.runtime (if c.active then w.runtime.step (.drop c.guest) else w.runtime) := by
    intro c
    split
    · exact .step _ _
    · exact .refl _
  refine Keeps.modify (fun hw => ?_) ?_ trivial
  · split
    · exact hw
    · next c _ =>
      split
      · exact hw
      · have hruntime := inv_runtime hw (hdrop c)
        exact inv_congr hruntime rfl rfl rfl rfl
  · split
    · exact .refl _
    · next c _ =>
      split
      · exact .refl _
      · exact ⟨hdrop c, fun _ _ ho => ho⟩

omit hcall in
theorem startStep_closed (h : Closed w.runtime g) : startStep callout g w = (.err .closed, w) := by
  change Host.bind (Host.attempt (enterWith g .operation (python callout g "__anext__"))) _ w = _
  unfold Host.bind Host.attempt
  rw [enterWith_closed h]
  rfl

omit hcall in
theorem load_closed (h : Closed w.runtime g) (roots : Nat) :
    load callout g true roots w = (.err .closed, w) :=
  bind_closed (enterWith_closed h)

theorem safe_performOp (op : Op types) (w : World types) :
    Safe w (performOp callout op) fun _ _ => True := by
  cases op with
  | activity a => exact safe_withRuntime (.step _ a)
  | enter g =>
    exact safe_operation (safe_enterWith fun _ => safe_hostCode hcall _) fun _ =>
      enterWith_closed
  | exec g => exact safe_operation (safe_exec hcall) fun _ => enterWith_closed
  | eval g => exact safe_operation (safe_eval hcall) fun _ => enterWith_closed
  | «import» g => exact safe_operation (safe_import hcall) fun _ => enterWith_closed
  | load g rooted roots =>
    refine safe_operation (safe_load hcall rooted roots) fun hasks h => ?_
    obtain rfl : rooted = true := hasks
    exact load_closed h roots
  | advance g =>
    exact safe_operation (safe_advance hcall) fun _ h => bind_closed (enterWith_closed h)
  | runUntilIdle g =>
    exact safe_operation (safe_advance hcall) fun _ h => bind_closed (enterWith_closed h)
  | resume g activation blocked => exact safe_operation (safe_resume hcall activation blocked) nofun
  | cancelDriver g => exact safe_operation (safe_cancelDriver hcall) fun _ => enterWith_closed
  | dropDriver g =>
    exact safe_operation (safe_dropDriver hcall) fun _ h => bind_closed (enterWith_closed h)
  | scope g => exact safe_operation safe_scope fun _ => scope_closed
  | close g => exact safe_close hcall
  | spawn g => exact safe_modify rfl rfl rfl rfl
  | poll i step =>
    apply Keeps.get
    split
    · exact Keeps.pure trivial
    · next c _ =>
      apply Keeps.ite
      · exact fun _ => Keeps.pure trivial
      · exact fun _ => safe_operation (CoroutineFuture.safe_poll hcall i step c) nofun
  | drop i => exact safe_dropCoroutine i
  | startStep g => exact safe_operation (safe_startStep hcall) fun _ => startStep_closed
  | callback g => exact safe_operation (safe_callback hcall) nofun
  | within g =>
    apply Keeps.bind (safe_python hcall g _)
    exact fun _ _ _ _ => Keeps.pure trivial
  | hostCall g =>
    apply Keeps.bind (safe_ensureDriver hcall)
    exact fun _ _ _ _ => safe_hostCode hcall _
  | interrupt o => exact safe_modify rfl rfl rfl rfl
  | allocate o => exact safe_modify rfl rfl rfl rfl
  | assign x f => exact safe_modify rfl rfl rfl rfl
  | absorb spec =>
    exact Keeps.assume fun hw =>
      Keeps.modify (inv_absorb · spec) (later_absorb hw spec) trivial
  | realise depth key =>
    apply Keeps.bind (safe_onInterpreter fun k => ExceptionRealiser.keeps_host depth key _)
    exact fun _ _ _ _ => Keeps.pure trivial

end Calls

/-! ## Runs -/

/-- What other code does while guests are run. -/
abbrev Code (types : TypeId → HostException) : Type :=
  Environment (World types) Err (Op types) Unit Call Answer

/-- What hosts do from the top, one operation after another. -/
abbrev Script (types : TypeId → HostException) : Type := Prog (Op types) (Reply Err Unit) Unit

/-- A runtime without guests after a script, against given code, up to a depth of nesting. The
interpreter may be in any state before. -/
def runScript (interpreter : Interpreter types) (noneObject : ObjectId) (code : Code types)
    (fuel : Nat) (script : Script types) : World types :=
  (script.run ((boundary types).perform code fuel) (World.new interpreter noneObject)).2

/-- Every event of a run satisfies `P`. -/
def Every (P : Event → Prop) (w : World types) : Prop := ∀ e ∈ w.events, P e

instance (P : Event → Prop) [DecidablePred P] (w : World types) : Decidable (Every P w) :=
  inferInstanceAs (Decidable (∀ e ∈ w.events, P e))

theorem inv_new (interpreter : Interpreter types) (noneObject : ObjectId) :
    Inv (World.new interpreter noneObject) where
  lawful _ h := nomatch h
  known _ _ h := nomatch h
  shut _ h := nomatch h
  rooted k := by
    cases k <;> exact ⟨_, rfl, rfl⟩

theorem safe_perform (code : Code types) (fuel : Nat) (op : Op types) (w : World types) :
    Safe w ((boundary types).perform code fuel op) fun _ _ => True :=
  System.keeps_perform (S := boundary types) (D := discipline types)
    (fun _ h => inv_congr h rfl rfl rfl rfl) (fun _ => later_congr rfl rfl)
    (fun _ hcall op w => safe_performOp hcall op w) fuel op w

/-- **What is recorded along a run is lawful.** -/
theorem lawful_run (interpreter : Interpreter types) (noneObject : ObjectId) (code : Code types)
    (fuel : Nat) (script : Script types) :
    Every Event.Lawful (runScript interpreter noneObject code fuel script) :=
  (System.keeps_run (safe_perform code fuel) script _ (inv_new interpreter noneObject)).1.lawful

/-! ## Scripts -/

def firstGuest : GuestId := ⟨1, Nat.one_ne_zero⟩

/-- The operations one after another, whatever becomes of each. -/
def inOrder : List (Op types) → Script types
  | [] => .ret ()
  | op :: rest => .call op fun _ => inOrder rest

/-- A run in a new runtime, whose first guest is built with `policy`. -/
def runOps (policy : ExecutionPolicy) (code : Code types) (ops : List (Op types)) :
    World types :=
  runScript (.fresh types) 4 code 3 (inOrder (.activity (.build policy) :: ops))

/-- A program without typed exceptions. -/
def noTypes : TypeId → HostException := fun _ => ⟨[], .builtin []⟩

end GuestPy.Boundary
