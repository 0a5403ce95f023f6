import GuestPy.Boundary.History

/-!
# Operations keep the record

One lemma for each function of the boundary. Each keeps the invariant if the code it calls
does, and what it records is lawful.

* `CoroutineFuture.python_fails`: code of a guest fails with described exceptions only.
* `enterWith_closed`: nothing happens on a closed guest that is asked for.
* `lawful_run`: what is recorded along a run is lawful.
-/

namespace GuestPy.Boundary

open Exceptions

variable {types : TypeId → HostException} {α : Type} {w : World types} {g : GuestId}

/-! ## Recording -/

theorem safe_log {e : Event} (he : e.Lawful) : Safe w (Host.modify (World.log e)) fun _ _ => True :=
  Keeps.modify (inv_log he) (later_congr rfl rfl) trivial

/-- A change that neither records an event nor touches the runtime, its closed guests or its
classes. -/
theorem safe_modify {f : World types → World types} (hevents : (f w).events = w.events)
    (hruntime : (f w).runtime = w.runtime) (hshut : (f w).shut = w.shut)
    (hcache : (f w).interpreter.cache = w.interpreter.cache) :
    Safe w (Host.modify f) fun _ _ => True :=
  Keeps.modify (inv_congr · hevents hruntime hshut hcache) (later_congr hruntime hcache) trivial

/-- A change of the runtime that opens no guest. -/
theorem safe_withRuntime {f : RuntimeInner → RuntimeInner}
    (hf : StaysClosed w.runtime (f w.runtime)) :
    Safe w (Host.modify (World.withRuntime f)) fun _ _ => True :=
  Keeps.modify (inv_runtime · hf) (later_runtime hf) trivial

theorem safe_attempt {m : Host (World types) Err α} (hm : Safe w m fun _ _ => True) :
    Safe w (Host.attempt m) fun _ _ => True :=
  Keeps.attempt hm fun _ _ _ => trivial

theorem safe_ofExcept (r : Except Err α) : Safe w (Host.ofExcept r) fun _ _ => True :=
  Keeps.ofExcept fun _ _ => trivial

theorem objectOf_eq_some {r : Except Err α} {x : ObjectId} (h : World.objectOf r = some x) :
    ∃ e, r = .error (.guest e) ∧ e.object = some x := by
  obtain ⟨e, he, hx⟩ := Option.bind_eq_some_iff.1 h
  exact ⟨e, guestOf_eq_some.1 he, hx⟩

theorem typesOf_ne_nil {r : Except Err α} (h : w.typesOf r ≠ []) : ∃ e, r = .error (.guest e) := by
  unfold World.typesOf at h
  split at h
  · next e he => exact ⟨e, guestOf_eq_some.1 he⟩
  · exact absurd rfl h

/-- What is known of an error is known of an exception. -/
theorem exception_of_known {r : Except Err α}
    (h : w.isInterrupt r = true ∨ w.originOf r ≠ none ∨ w.typesOf r ≠ []) :
    ∃ e, Result.forget r = .error (.guest e) := by
  have hguest : ∃ e, r = .error (.guest e) := by
    rcases h with h | h | h
    · obtain ⟨x, hx, -⟩ := (Option.any_eq_true _ _).1 h
      obtain ⟨e, he, -⟩ := objectOf_eq_some hx
      exact ⟨e, he⟩
    · obtain ⟨k, hk⟩ := Option.ne_none_iff_exists'.1 h
      obtain ⟨x, hx, -⟩ := Option.bind_eq_some_iff.1 hk
      obtain ⟨e, he, -⟩ := objectOf_eq_some hx
      exact ⟨e, he⟩
    · exact typesOf_ne_nil h
  obtain ⟨e, rfl⟩ := hguest
  exact ⟨e, rfl⟩

/-! ## Entering -/

theorem guests_of_get {inner : GuestInner}
    (h : (w.runtime.get g : Except Err GuestInner) = .ok inner) :
    w.runtime.guests g = some inner := by
  unfold RuntimeInner.get at h
  split at h
  · next hg =>
    cases h
    exact hg
  · cases h

theorem safe_underToken {r : RuntimeInner} {m : Host (World types) Err α}
    (hr : StaysClosed w.runtime r) (hm : ∀ w, Safe w m fun _ _ => True) :
    Safe w (underToken g r m) fun _ _ => True := by
  refine Keeps.guarded (t := w.withRuntime fun _ => r) rfl (inv_runtime · hr) (hm _) ?_
    (fun _ _ _ _ => trivial) fun _ _ => trivial
  intro t ht hlater
  have hdrop : StaysClosed t.runtime (t.runtime.step (.drop g)) := .step _ _
  have htake : Later w (w.withRuntime fun _ => r) := later_runtime hr
  exact ⟨inv_runtime ht hdrop, (htake.trans hlater).trans (later_runtime hdrop)⟩

theorem safe_withToken {activation : Activation} {m : Host (World types) Err α}
    (hm : ∀ w, Safe w m fun _ _ => True) :
    Safe w (withToken g activation m) fun _ _ => True := by
  apply Keeps.get
  split
  · exact Keeps.throw
  · next inner hget =>
    split
    · exact Keeps.throw
    · next r hnew => exact safe_underToken (.begin (guests_of_get hget) hnew) hm

theorem resolveExceptionTypes_eq (e : Err) :
    resolveExceptionTypes w.interpreter.cache e =
      identifyError (w.typesOf (.error e : Except Err α)) e := by
  cases e <;> rfl

theorem lawful_entered (g : GuestId) (raw : Except Err α) :
    (w.settled g .entered false false raw
      (raw.mapError (resolveExceptionTypes w.interpreter.cache))).Lawful where
  outcome := by
    cases raw with
    | ok a => rfl
    | error e => exact congrArg Except.error (resolveExceptionTypes_eq e)
  step _ := rfl
  noticed := nofun
  described := nofun
  exception := exception_of_known

theorem safe_enterBackend {m : Host (World types) Err α} (hm : Safe w m fun _ _ => True) :
    Safe w (enterBackend g m) fun _ _ => True := by
  apply Keeps.bind (safe_attempt hm)
  intro raw w' _ _
  apply Keeps.get
  apply Keeps.bind (safe_log (lawful_entered g raw))
  exact fun _ _ _ _ => safe_ofExcept _

theorem safe_enterWith {activation : Activation} {m : Host (World types) Err α}
    (hm : ∀ w, Safe w m fun _ _ => True) :
    Safe w (enterWith g activation m) fun _ _ => True := by
  apply Keeps.get
  split
  · exact Keeps.throw
  · apply Keeps.ite
    · exact fun _ => Keeps.throw
    · intro _
      apply Keeps.ite
      · exact fun _ => safe_enterBackend (hm w)
      · exact fun _ => safe_withToken fun w => safe_enterBackend (hm w)

/-- **A closed guest is not entered.** -/
theorem enterWith_closed {activation : Activation} {m : Host (World types) Err α}
    (h : Closed w.runtime g) : enterWith g activation m w = (.err .closed, w) := by
  unfold enterWith
  rcases h.get with hget | ⟨inner, hget, hclosed⟩
  · simp [bind, Host.bind, Host.get, hget, Host.throw]
  · simp [bind, Host.bind, Host.get, hget, hclosed, Host.throw]

theorem scope_closed (h : Closed w.runtime g) :
    (scope g : Host (World types) Err Unit) w = (.err .closed, w) := by
  unfold scope
  rcases h.get with hget | ⟨inner, hget, hclosed⟩
  · simp [bind, Host.bind, Host.get, hget, Host.throw]
  · simp [bind, Host.bind, Host.get, hget, hclosed, Host.throw]

theorem bind_closed {β : Type} {m : Host (World types) Err α} {f : α → Host (World types) Err β}
    (h : m w = (.err .closed, w)) : (m >>= f) w = (.err .closed, w) := by
  change Host.bind m f w = _
  unfold Host.bind
  rw [h]

theorem safe_scope : Safe w (scope g) fun _ _ => True := by
  apply Keeps.get
  split
  · exact Keeps.throw
  · next inner hget =>
    apply Keeps.ite
    · exact fun _ => Keeps.throw
    · intro _
      split
      · exact Keeps.throw
      · next r hnew =>
        have hr : StaysClosed w.runtime r := .begin (guests_of_get hget) hnew
        exact safe_withRuntime hr

/-! ## Exceptions -/

theorem safe_onInterpreter {m : Host (Interpreter types) Err α}
    {Q : Fatal → α → Interpreter types → Prop}
    (hm : ∀ k : Fatal, Keeps (retaining types k.key) w.interpreter m (Q k)) :
    Safe w (onInterpreter m) fun a w' => ∀ k, Q k a w'.interpreter := by
  intro hw
  have hkeeps := fun k => hm k (hw.rooted k)
  refine ⟨⟨hw.lawful, hw.known, hw.shut, fun k => (hkeeps k).1⟩, ⟨.refl _, fun k => ?_⟩,
    fun a ha k => (hkeeps k).2.2.1 a ha, fun _ => trivial⟩
  exact (hkeeps k).2.1

/-- The class of a fatal error is the one that is kept for it. -/
theorem safe_classOf («class» : ExceptionClass) :
    Safe w (classOf «class») fun c w' => ∀ k : Fatal,
      «class».key = some k.key → w'.interpreter.cache.realisedException k.key = some c := by
  apply Keeps.get
  split
  · next key hkey =>
    apply Keeps.bind (safe_onInterpreter fun k => ExceptionRealiser.keeps_host _ key _)
    intro c w1 _ h1
    refine (safe_onInterpreter fun k =>
      ExceptionRealiser.keeps_exceptionClass «class» c).mono fun c' w2 _ h2 k hk => ?_
    obtain ⟨hcache, rfl⟩ := h2 k
    rw [hkey] at hk
    rw [hcache]
    exact h1 k (Option.some.inj hk)
  · next hnone =>
    apply Keeps.bind (safe_onInterpreter fun k => ExceptionRealiser.keeps_builtin _)
    intro c w1 _ _
    refine (safe_onInterpreter fun k =>
      ExceptionRealiser.keeps_exceptionClass «class» c).mono fun c' w2 _ _ k hk => ?_
    rw [hnone] at hk
    cases hk

theorem raisedClass_fatal {e : Err} {k : Fatal} (h : Fatal.of e = some k) :
    (raisedClass e).key = some k.key := by
  obtain rfl := Fatal.of_eq_some h
  cases k <;> rfl

/-- The object was made for the fatal error, and is of the class for it. -/
structure MadeFor (w : World types) (x : ObjectId) (k : Fatal) : Prop where
  origin : w.origins x = some k
  «class» : w.interpreter.cache.realisedException k.key =
    some (w.interpreter.heap.objects x).class

theorem MadeFor.isProper {x : ObjectId} {k : Fatal} (h : MadeFor w x k) : w.isProper x = true := by
  unfold World.isProper
  rw [h.origin]
  exact beq_iff_eq.2 h.class

section Calls

variable {callout : Call → Host (World types) Err Answer}
  (hcall : ∀ c w, Safe w (callout c) fun _ _ => True)

include hcall

theorem safe_construct (c : ObjectId) (text label : Option Str) :
    Safe w (construct callout c text label) fun x w' =>
      (w'.interpreter.heap.objects x).class = c := by
  apply Keeps.bind (safe_attempt (hcall _ w))
  intro answer w' _ _
  split
  · refine (safe_onInterpreter fun k => ExceptionRealiser.keeps_allocate _).mono
      fun x w2 _ h => ?_
    rw [(h .closed).2]
    rfl
  · exact Keeps.get Keeps.throw
  · exact Keeps.throw

/-- An exception that is made for a fatal error is marked with it, and of its class. -/
theorem safe_make (site : Site) (e : Err) :
    Safe w (make callout site e) fun x w' => ∀ k, Fatal.of e = some k → MadeFor w' x k := by
  apply Keeps.bind (safe_classOf _)
  intro c w1 _ hclass
  apply Keeps.bind (safe_construct hcall c _ _)
  intro x w2 hlater hx
  apply Keeps.ite
  · exact fun _ => Keeps.throw
  · intro _
    have hmark : ∀ k, Fatal.of e = some k → MadeFor (w2.mark x (Fatal.of e)) x k := by
      intro k hk
      have hkept := hlater.classes k c (hclass k (raisedClass_fatal hk))
      rw [hk]
      exact ⟨Function.update_self .., hx ▸ hkept⟩
    refine Keeps.bind (Keeps.modify (R := fun _ w' => w' = w2.mark x (Fatal.of e)) ?_ ?_ rfl) ?_
    · intro hw
      cases Fatal.of e with
      | none => exact hw
      | some k => exact inv_congr hw rfl rfl rfl rfl
    · cases Fatal.of e with
      | none => exact .refl _
      | some k => exact later_congr rfl rfl
    · rintro _ _ _ rfl
      exact Keeps.pure hmark

theorem safe_raiseValue (site : Site) (e : Err) :
    Safe w (raiseValue callout site e) fun x w' =>
      ∀ k, Fatal.of e = some k → MadeFor w' x k := by
  unfold raiseValue
  split
  · next x hx =>
    obtain ⟨exception, he, -⟩ := objectOf_eq_some hx
    cases he
    exact Keeps.pure nofun
  · exact safe_make hcall site e

theorem safe_fallback : Safe w (fallback callout) fun _ _ => True := by
  refine Keeps.bind (safe_attempt (Keeps.bind (safe_classOf _) fun c _ _ _ =>
    (safe_construct hcall c _ _).mono fun _ _ _ _ => trivial)) fun made w' _ _ => Keeps.get ?_
  split
  · exact Keeps.pure trivial
  · exact Keeps.pure trivial

omit hcall in
/-- The object of a guest exception is handed over as it is. -/
theorem raiseValue_of_object {site : Site} {e : Err} {x : ObjectId}
    (h : World.objectOf (.error e : Except Err Unit) = some x) :
    raiseValue callout site e = pure x := by
  unfold raiseValue
  rw [h]

theorem safe_convert (site : Site) (e : Err) :
    Safe w (convert callout site e) fun p w' =>
      (∀ x, World.objectOf (.error e : Except Err Unit) = some x → p.1 = x) ∧
        ∀ k, Fatal.of e = some k → p.2 = true → MadeFor w' p.1 k := by
  cases ho : World.objectOf (.error e : Except Err Unit) with
  | some x =>
    have hfatal : Fatal.of e = none := by
      obtain ⟨exception, he, -⟩ := objectOf_eq_some ho
      cases he
      rfl
    unfold convert
    rw [raiseValue_of_object ho]
    refine Keeps.bind (Keeps.attempt_fails (P := fun _ => False)
      (R := fun r _ => r = .ok x) .pure (Keeps.pure rfl) fun _ _ _ h => h.elim) ?_
    rintro _ w' _ rfl
    refine Keeps.pure ⟨fun y hy => Option.some.inj hy, fun k hk => ?_⟩
    rw [hfatal] at hk
    cases hk
  | none =>
    refine Keeps.bind (Keeps.attempt (R := fun r w' =>
      ∀ x, r = .ok x → ∀ k, Fatal.of e = some k → MadeFor w' x k) ?_ ?_) ?_
    · refine (safe_raiseValue hcall site e).mono fun x w' _ hx y hy => ?_
      cases hy
      exact hx
    · exact fun _ _ _ => nofun
    · intro r w1 _ hr
      split
      · next x => exact Keeps.pure ⟨nofun, fun k hk _ => hr x rfl k hk⟩
      · next second =>
        apply Keeps.bind (safe_attempt ((safe_raiseValue hcall site second).mono
          fun _ _ _ _ => trivial))
        intro r' w2 _ _
        split
        · exact Keeps.pure ⟨nofun, nofun⟩
        · apply Keeps.bind (safe_fallback hcall)
          exact fun _ _ _ _ => Keeps.pure ⟨nofun, nofun⟩

theorem safe_raiseError (site : Site) (e : Err) :
    Safe w (raiseError callout site e : Host (World types) Err α) fun _ _ => True := by
  apply Keeps.bind (safe_convert hcall site e)
  rintro ⟨x, made⟩ w' _ ⟨hobject, hfatal⟩
  apply Keeps.get
  refine Keeps.bind (safe_log ?_) fun _ _ _ _ => Keeps.throw
  refine ⟨rfl, ?_, fun k hk hmade => ?_⟩
  · rintro exception y rfl hy
    exact hobject y hy
  · have hproper := hfatal k hk hmade
    exact ⟨hproper.origin, hproper.isProper⟩

/-! ## Code of guests and hosts -/

theorem safe_python (g : GuestId) (what : String) :
    Safe w (python callout g what) fun _ _ => True := by
  apply Keeps.bind (safe_modify rfl rfl rfl rfl)
  intro _ w1 _ _
  apply Keeps.bind (safe_attempt (hcall _ w1))
  intro answer w2 _ _
  split
  · exact Keeps.pure trivial
  · exact Keeps.get Keeps.throw
  · exact Keeps.throw

omit hcall in
/-- Code of a guest fails with exceptions that have just been described. -/
theorem python_fails (g : GuestId) (what : String) : Fails Described (python callout g what) := by
  refine Fails.bind Fails.modify fun _ => Fails.bind Fails.attempt fun answer => ?_
  split
  · exact Fails.pure
  · exact Fails.bind Fails.get fun _ => Fails.throw rfl
  · exact Fails.throw trivial

theorem safe_hostCode (call : Call) : Safe w (hostCode callout call) fun _ _ => True :=
  Keeps.bind (hcall _ w) fun _ _ _ _ => Keeps.pure trivial

theorem safe_exec : Safe w (exec callout g) fun _ _ => True :=
  safe_enterWith fun _ => Keeps.bind (safe_python hcall g _) fun _ _ _ _ => Keeps.pure trivial

theorem safe_eval : Safe w (eval callout g) fun _ _ => True :=
  safe_enterWith fun _ => Keeps.bind (safe_python hcall g _) fun _ _ _ _ => safe_hostCode hcall _

theorem safe_import : Safe w («import» callout g) fun _ _ => True :=
  safe_enterWith fun _ => safe_hostCode hcall _

theorem safe_load (rooted : Bool) (roots : Nat) :
    Safe w (load callout g rooted roots) fun _ _ => True := by
  apply Keeps.ite
  · intro _
    apply Keeps.bind (safe_enterWith fun _ => safe_hostCode hcall _)
    exact fun _ _ _ _ => safe_import hcall
  · exact fun _ => Keeps.throw

theorem safe_close : Safe w (close callout g) fun _ _ => True := by
  apply Keeps.assume
  intro hw
  apply Keeps.get
  apply Keeps.ite
  · exact fun _ => Keeps.pure trivial
  · intro hopen
    apply Keeps.ite
    · exact fun _ => Keeps.throw
    · intro _
      have hknown : g.value < w.runtime.nextId := by
        unfold World.isClosed at hopen
        split at hopen
        · next inner hg => exact hw.known g inner hg
        · exact absurd rfl hopen
      apply Keeps.bind (safe_enterWith fun _ =>
        Keeps.bind (safe_python hcall g _) fun _ _ _ _ => Keeps.pure trivial)
      intro _ w1 hlater _
      have hclose : StaysClosed w1.runtime (w1.runtime.step (.close g)) := .step _ _
      exact Keeps.modify (inv_markClosed · (Nat.lt_of_lt_of_le hknown hlater.runtime.nextId))
        ⟨hclose, fun _ _ ho => ho⟩ trivial

/-! ## Host code that is called back -/

theorem safe_guestEnterWith {inner : GuestInner} {m : Host (World types) Err Unit}
    (hg : w.runtime.guests g = some inner) (hm : ∀ w, Safe w m fun _ _ => True) :
    Safe w (guestEnterWith callout g inner m) fun _ _ => True := by
  apply Keeps.get
  split
  · exact safe_raiseError hcall .runtime _
  · next r hnew =>
    refine safe_underToken (.begin hg hnew) fun w1 => ?_
    apply Keeps.bind (safe_attempt (hm w1))
    intro answer w2 _ _
    split
    · exact Keeps.pure trivial
    · exact safe_raiseError hcall .guest _

theorem safe_callback : Safe w (callback callout g) fun _ _ => True := by
  apply Keeps.get
  split
  · exact safe_raiseError hcall .runtime _
  · next inner hget =>
    exact safe_guestEnterWith hcall (guests_of_get hget) fun _ => safe_hostCode hcall _

/-! ## The driver -/

theorem safe_ensureDriver : Safe w (ensureDriver callout g) fun _ _ => True := by
  apply Keeps.get
  apply Keeps.ite
  · exact fun _ => Keeps.pure trivial
  · intro _
    apply Keeps.bind (safe_python hcall g _)
    exact fun _ _ _ _ => safe_modify rfl rfl rfl rfl

omit hcall in
theorem ensureDriver_fails : Fails Described (ensureDriver callout g) := by
  refine Fails.bind Fails.get fun w => Fails.ite ?_ ?_
  · exact Fails.pure
  · exact Fails.bind (python_fails g _) fun _ => Fails.modify

omit hcall in
theorem safe_expectDriver : Safe w (expectDriver g) fun _ _ => True := by
  apply Keeps.get
  apply Keeps.ite
  · exact fun _ => Keeps.pure trivial
  · exact fun _ => Keeps.panic trivial

theorem safe_pollHosts : Safe w (pollHosts callout g) fun _ _ => True := by
  apply Keeps.get
  apply Keeps.ite
  · intro _
    apply Keeps.bind (safe_attempt (hcall _ w))
    exact fun _ _ _ _ => Keeps.pure trivial
  · exact fun _ => Keeps.pure trivial

theorem safe_advanceEntered : Safe w (advanceEntered callout g) fun _ _ => True := by
  apply Keeps.bind safe_expectDriver
  intro _ w1 _ _
  apply Keeps.bind (safe_attempt (safe_python hcall g _))
  intro advanced w2 _ _
  apply Keeps.bind (safe_attempt (safe_python hcall g _))
  intro restored w3 _ _
  apply Keeps.bind (safe_ofExcept advanced)
  intro _ w4 _ _
  apply Keeps.bind (safe_ofExcept restored)
  exact fun _ _ _ _ => Keeps.pure trivial

theorem safe_advanceWith (activation : Activation) :
    Safe w (advanceWith callout g activation) fun _ _ => True := by
  refine safe_withToken fun w1 => ?_
  apply Keeps.bind safe_expectDriver
  intro _ w2 _ _
  apply Keeps.bind (safe_pollHosts hcall)
  exact fun _ _ _ _ => safe_enterWith fun _ => safe_advanceEntered hcall

theorem safe_advance : Safe w (advance callout g) fun _ _ => True := by
  apply Keeps.bind (safe_enterWith fun _ => safe_ensureDriver hcall)
  exact fun _ _ _ _ => safe_advanceWith hcall _

theorem safe_resume (activation : Activation) (blocked : Bool) :
    Safe w (resume callout g activation blocked) fun _ _ => True := by
  apply Keeps.ite
  · intro _
    apply Keeps.bind safe_expectDriver
    intro _ w1 _ _
    apply Keeps.bind (safe_pollHosts hcall)
    exact fun _ _ _ _ => safe_advanceWith hcall _
  · exact fun _ => safe_advanceWith hcall _

theorem safe_cancelDriver : Safe w (cancelDriver callout g) fun _ _ => True := by
  refine safe_enterWith fun w1 => ?_
  apply Keeps.bind safe_expectDriver
  intro _ w2 _ _
  apply Keeps.bind (safe_python hcall g _)
  exact fun _ _ _ _ => Keeps.pure trivial

theorem safe_dropDriver : Safe w (dropDriver callout g) fun _ _ => True := by
  refine Keeps.bind (safe_enterWith fun w1 => ?_) fun _ _ _ _ => safe_modify rfl rfl rfl rfl
  apply Keeps.bind safe_expectDriver
  intro _ w2 _ _
  apply Keeps.bind (safe_python hcall g _)
  exact fun _ _ _ _ => Keeps.pure trivial

end Calls

end GuestPy.Boundary
