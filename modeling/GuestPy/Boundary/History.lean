import GuestPy.Boundary.Operations
import GuestPy.Exceptions.Realising
import GuestPy.Guest.Balance

/-!
# What is recorded at the boundary

The law of each event, and the invariant behind the laws.

* `Settled.expected` says what an operation returns, by the way it ends and by what it came
  to inside. `Settled.Lawful` adds what is known of that.
* `StaysClosed` is what every change of the runtime keeps: a guest that is closed, or gone,
  is not opened again, and no new guest takes its number.
-/

namespace GuestPy.Boundary

open Exceptions

variable {types : TypeId → HostException} {α : Type}

/-! ## Classification -/

/-- The error of a guest that has been stopped. -/
def stopError (expired cancelled : Bool) : Err :=
  if expired then .timeout else if cancelled then .cancelled else .interrupted

/-- Says why an operation was interrupted. -/
def classifyBy (expired cancelled : Bool) : Except Err α → Except Err α
  | .error .interrupted => .error (stopError expired cancelled)
  | r => r

theorem policy_classify_eq (p : ExecutionPolicy) (elapsed : Duration) (r : Except Err α) :
    p.classify elapsed r = classifyBy (p.deadline.expired elapsed) p.isCancelled r := by
  unfold ExecutionPolicy.classify
  split
  · unfold classifyBy stopError
    split
    · rfl
    · split <;> rfl
  · next hne =>
    unfold classifyBy
    split
    · exact absurd rfl hne
    · rfl

theorem classify_eq (w : World types) (g : GuestId) (r : Except Err α) :
    CoroutineFuture.classify w g r = classifyBy (w.expired g) (w.cancelled g) r := by
  unfold CoroutineFuture.classify World.expired World.cancelled
  cases w.runtime.guests g with
  | some inner => exact policy_classify_eq _ _ r
  | none =>
    change r = classifyBy false false r
    unfold classifyBy
    split <;> rfl

/-- **One classification.** Whether the engine or the policy says that a guest has to stop,
the error is the same. -/
theorem mustStop_eq {inner : GuestInner} {elapsed : Duration} {interrupted : Bool} {e : Err}
    (h : CoroutineFuture.mustStop inner elapsed interrupted = some e) :
    e = stopError (inner.activity.policy.deadline.expired elapsed)
      inner.activity.policy.isCancelled := by
  unfold CoroutineFuture.mustStop at h
  rw [policy_classify_eq] at h
  cases interrupted with
  | true =>
    cases h
    rfl
  | false =>
    by_cases habort : inner.activity.policy.shouldAbort elapsed = true
    · simp only [Bool.false_eq_true, if_false, classifyBy, if_pos habort] at h
      cases h
      rfl
    · simp only [Bool.false_eq_true, if_false, classifyBy, if_neg habort] at h
      cases h

theorem stopError_ne_guest (expired cancelled : Bool) (e : GuestException) :
    stopError expired cancelled ≠ .guest e := by
  unfold stopError
  cases expired <;> cases cancelled <;> nofun

/-- A step of an iteration hands an exception back unless it ends the iteration. -/
theorem handBack_guest (step : Bool) (e : GuestException) :
    handBack step (.error (.guest e)) =
      if step = true ∧ e.matches "StopAsyncIteration".toList = true then .ok ()
      else .error (.guest e) := by
  cases step with
  | false => rfl
  | true =>
    change Result.forget (if e.matches "StopAsyncIteration".toList = true then .ok none
      else .error (.guest e) : Except Err (Option Unit)) = _
    by_cases h : e.matches "StopAsyncIteration".toList = true
    · rw [if_pos h, if_pos ⟨rfl, h⟩]
      rfl
    · rw [if_neg h, if_neg fun hboth => h hboth.2]
      rfl

theorem handBack_eq_guest {step : Bool} {r : Except Err Unit} {e : GuestException}
    (h : handBack step r = .error (.guest e)) : r = .error (.guest e) := by
  cases step with
  | false => exact h
  | true =>
    cases r with
    | ok a => cases h
    | error e' =>
      cases e' with
      | guest e' =>
        rw [handBack_guest] at h
        split at h
        · cases h
        · exact h
      | _ => cases h

theorem handBack_stopError (step expired cancelled : Bool) :
    handBack step (.error (stopError expired cancelled)) =
      .error (stopError expired cancelled) := by
  unfold stopError
  cases step <;> cases expired <;> cases cancelled <;> rfl

/-! ## Laws -/

/-- What guest code fails with: an exception as it was described, or an error of the backend. -/
def Described : Err → Prop
  | .guest e => e.typedMro = []
  | .engine _ => True
  | _ => False

namespace Settled

/-- What the operation returns, before it is seen as a step of an iteration. -/
def returned (s : Settled) : Except Err Unit :=
  match s.path with
  | .entered => s.raw.mapError (identifyError s.types)
  | .polled => classifyBy s.expired s.cancelled s.raw
  | .extracted => s.raw

def expected (s : Settled) : Except Err Unit := handBack s.step s.returned

/-- `described`: the poll of a future that has not been stopped fails with errors of guest
code only. `exception`: only an exception can stem from an interrupt or a fatal error. -/
structure Lawful (s : Settled) : Prop where
  outcome : s.outcome = s.expected
  step : s.path = .entered → s.step = false
  noticed : s.noticed = true →
    s.path = .polled ∧ s.raw = .error (stopError s.expired s.cancelled)
  described : s.path = .polled → s.noticed = false → ∀ e, s.raw = .error e → Described e
  exception : s.interrupt = true ∨ s.origin ≠ none ∨ s.types ≠ [] → ∃ e, s.raw = .error (.guest e)

/-- A poll that has noticed that it must stop says why. -/
theorem outcome_of_noticed {s : Settled} (h : s.Lawful) (hn : s.noticed = true) :
    s.outcome = .error (stopError s.expired s.cancelled) := by
  obtain ⟨hpath, hraw⟩ := h.noticed hn
  have hreturned : s.returned = .error (stopError s.expired s.cancelled) := by
    unfold returned
    rw [hpath, hraw]
    unfold stopError
    cases s.expired <;> cases s.cancelled <;> rfl
  rw [h.outcome, expected, hreturned, handBack_stopError]

/-- The exception in `raw`, as the caller is given it. -/
def handed (s : Settled) (e : GuestException) : GuestException :=
  match s.path with
  | .entered => e.identify s.types
  | _ => e

theorem handed_object (s : Settled) (e : GuestException) : (s.handed e).object = e.object := by
  unfold handed
  split <;> rfl

/-- The step of an iteration has come to its end. -/
def EndsIteration (s : Settled) (e : GuestException) : Prop :=
  s.step = true ∧ e.matches "StopAsyncIteration".toList = true

/-- An exception is returned as an exception, unless it ends an iteration. -/
theorem outcome_of_guest {s : Settled} (h : s.Lawful) {e : GuestException}
    (hraw : s.raw = .error (.guest e)) :
    ¬ s.EndsIteration e ∧ s.outcome = .error (.guest (s.handed e)) ∨
      s.EndsIteration e ∧ s.outcome = .ok () := by
  have hpaths : s.path = .entered ∧ s.returned = .error (.guest (s.handed e)) ∨
      s.handed e = e ∧ s.returned = .error (.guest e) := by
    unfold returned handed
    rw [hraw]
    cases s.path with
    | entered => exact Or.inl ⟨rfl, rfl⟩
    | polled => exact Or.inr ⟨rfl, rfl⟩
    | extracted => exact Or.inr ⟨rfl, rfl⟩
  rw [h.outcome, expected]
  rcases hpaths with ⟨hpath, hreturned⟩ | ⟨hhanded, hreturned⟩
  · have hstep : s.step = false := h.step hpath
    rw [hreturned, hstep]
    refine Or.inl ⟨fun hends => ?_, rfl⟩
    have htrue : s.step = true := hends.1
    rw [hstep] at htrue
    cases htrue
  · rw [hreturned, hhanded, handBack_guest]
    by_cases hends : s.EndsIteration e
    · exact Or.inr ⟨hends, if_pos hends⟩
    · exact Or.inl ⟨hends, if_neg hends⟩

/-- An exception is not noticed by the poll itself. -/
theorem not_noticed_of_guest {s : Settled} (h : s.Lawful) {e : GuestException}
    (hraw : s.raw = .error (.guest e)) : s.noticed = false := by
  by_contra hne
  obtain ⟨-, hstop⟩ := h.noticed (Bool.not_eq_false _ ▸ hne)
  rw [hraw] at hstop
  exact stopError_ne_guest _ _ e (Except.error.inj hstop).symm

/-- Only an exception is returned as an exception. -/
theorem raw_of_guest {s : Settled} (h : s.Lawful) {e' : GuestException}
    (houtcome : s.outcome = .error (.guest e')) : ∃ e, s.raw = .error (.guest e) := by
  rw [h.outcome] at houtcome
  have hreturned := handBack_eq_guest houtcome
  unfold returned at hreturned
  cases hraw : s.raw with
  | ok a =>
    rw [hraw] at hreturned
    cases hpath : s.path <;> rw [hpath] at hreturned <;> cases hreturned
  | error e =>
    rw [hraw] at hreturned
    cases e with
    | guest e => exact ⟨e, rfl⟩
    | interrupted =>
      cases hpath : s.path <;> rw [hpath] at hreturned
      · cases hreturned
      · exact absurd (Except.error.inj hreturned) (stopError_ne_guest _ _ e')
      · cases hreturned
    | _ => cases hpath : s.path <;> rw [hpath] at hreturned <;> cases hreturned

end Settled

/-- An exception that is raised again stays the same object. One that is made for a fatal error
is marked with it, and of the class for it. -/
structure Raised.Lawful (r : Raised) : Prop where
  described : r.exception.object = some r.object
  object : ∀ e x, r.error = .guest e → e.object = some x → r.object = x
  fatal : ∀ k, Fatal.of r.error = some k → r.made = true → r.origin = some k ∧ r.proper = true

/-- The operations that ask whether the guest is closed. -/
def Entry.asks : Entry → Bool
  | enter => true
  | exec => true
  | eval => true
  | «import» => true
  | load rooted => rooted
  | advance => true
  | runUntilIdle => true
  | cancelDriver => true
  | dropDriver => true
  | scope => true
  | startStep => true
  | resume => false
  | poll => false
  | callback => false

/-- Is this the refusal of an operation on a closed guest? -/
def Refused (ran : Bool) (reply : Reply Err Unit) : Prop := ran = false ∧ reply = .err .closed

def Event.Lawful : Event → Prop
  | operated entry _ shut ran reply => shut = true → entry.asks = true → Refused ran reply
  | settled s => s.Lawful
  | raised r => r.Lawful

/-! ## Closed guests -/

/-- A guest was there before and is not opened, or it is new, and so is its number. -/
structure StaysClosed (r r' : RuntimeInner) : Prop where
  nextId : r.nextId ≤ r'.nextId
  guests : ∀ g inner', r'.guests g = some inner' →
    (∃ inner, r.guests g = some inner ∧ (inner.closed = true → inner'.closed = true)) ∨
      r.nextId ≤ g.value ∧ g.value < r'.nextId

namespace StaysClosed

variable {r r' r'' : RuntimeInner} {g : GuestId} {inner inner' : GuestInner} {Ex : Type}
  {activation : Activation}

theorem refl (r : RuntimeInner) : StaysClosed r r :=
  ⟨Nat.le_refl _, fun _ inner' h => Or.inl ⟨inner', h, fun hc => hc⟩⟩

theorem trans (h : StaysClosed r r') (h' : StaysClosed r' r'') : StaysClosed r r'' where
  nextId := Nat.le_trans h.nextId h'.nextId
  guests g inner'' hinner'' := by
    rcases h'.guests g inner'' hinner'' with ⟨inner', hinner', hc'⟩ | ⟨hle, hlt⟩
    · rcases h.guests g inner' hinner' with ⟨inner, hinner, hc⟩ | ⟨hle, hlt⟩
      · exact Or.inl ⟨inner, hinner, fun h => hc' (hc h)⟩
      · exact Or.inr ⟨hle, Nat.lt_of_lt_of_le hlt h'.nextId⟩
    · exact Or.inr ⟨Nat.le_trans h.nextId hle, hlt⟩

/-- Only the guests and the next number matter. -/
theorem congr {t : RuntimeInner} (h : StaysClosed r r') (hnext : t.nextId = r'.nextId)
    (hguests : t.guests = r'.guests) : StaysClosed r t where
  nextId := hnext ▸ h.nextId
  guests := by
    rw [hguests, hnext]
    exact h.guests

theorem set (hg : r.guests g = some inner) (hc : inner.closed = true → inner'.closed = true) :
    StaysClosed r (r.set g (some inner')) where
  nextId := Nat.le_refl _
  guests x inner'' hx := by
    by_cases hxg : x = g
    · subst hxg
      rw [RuntimeInner.set_guests_self] at hx
      cases hx
      exact Or.inl ⟨inner, hg, hc⟩
    · rw [RuntimeInner.set_guests_of_ne hxg] at hx
      exact Or.inl ⟨inner'', hx, fun h => h⟩

theorem free : StaysClosed r (r.set g none) where
  nextId := Nat.le_refl _
  guests x inner'' hx := by
    by_cases hxg : x = g
    · subst hxg
      rw [RuntimeInner.set_guests_self] at hx
      cases hx
    · rw [RuntimeInner.set_guests_of_ne hxg] at hx
      exact Or.inl ⟨inner'', hx, fun h => h⟩

theorem release : StaysClosed r (r.release g) := by
  unfold RuntimeInner.release
  split
  · split
    · exact free
    · exact refl r
  · exact refl r

theorem update {f : GuestInner → GuestInner}
    (hf : ∀ inner, inner.closed = true → (f inner).closed = true) :
    StaysClosed r (r.update g f) := by
  unfold RuntimeInner.update
  split
  · next hg => exact set hg (hf _)
  · exact refl r

theorem build (policy : ExecutionPolicy) : StaysClosed r (r.build policy) := by
  unfold RuntimeInner.build RuntimeInner.takeNextId
  by_cases hlt : r.nextId < u64Max
  · simp only [if_pos hlt]
    cases hg : GuestId.fromU64 r.nextId with
    | none => exact refl r
    | some g =>
      refine ⟨Nat.le_succ _, fun x inner' h => ?_⟩
      by_cases hx : x = g
      · subst hx
        have hvalue : x.value = r.nextId := GuestId.fromU64_eq_some hg
        exact Or.inr ⟨Nat.le_of_eq hvalue.symm, by rw [hvalue]; exact Nat.lt_succ_self _⟩
      · rw [RuntimeInner.set_guests_of_ne hx] at h
        exact Or.inl ⟨inner', h, fun hc => hc⟩
  · simp only [if_neg hlt]
    exact refl r

theorem begin (hg : r.guests g = some inner)
    (h : (ActiveGuest.new r g inner activation : Except (Error Ex) _) = .ok r') :
    StaysClosed r r' := by
  unfold ActiveGuest.new at h
  split at h
  · next activity _ =>
    cases h
    have hset : StaysClosed r (r.set g (some { inner with activity })) := set hg fun hc => hc
    exact hset.congr rfl rfl
  · cases h

theorem enter (hg : r.guests g = some inner)
    (h : (GuestPy.enterWith r g inner activation : Except (Error Ex) _) = .ok r') :
    StaysClosed r r' := by
  unfold GuestPy.enterWith at h
  split at h
  · cases h
  · split at h
    · cases h
      exact refl r
    · exact begin hg h

theorem drop (hg : r.guests g = some inner) :
    StaysClosed r ((ActiveGuest.drop r g inner).getD r) := by
  unfold ActiveGuest.drop RuntimeInner.pop
  cases r.active with
  | nil => exact refl r
  | cons top rest =>
    cases inner.activity.finish with
    | none => exact refl r
    | some activity =>
      have hset : StaysClosed r (r.set g (some { inner with activity })) := set hg fun hc => hc
      change StaysClosed r (RuntimeInner.release _ g)
      refine trans ?_ release
      exact hset.congr rfl rfl

/-- **No action opens a guest.** -/
theorem step (r : RuntimeInner) (a : Action) : StaysClosed r (r.step a) := by
  cases a with
  | build policy => exact build policy
  | begin g activation =>
    simp only [RuntimeInner.step]
    split
    · next hg =>
      split
      · next hnew => exact begin hg hnew
      · exact refl r
    · exact refl r
  | enter g activation =>
    simp only [RuntimeInner.step]
    split
    · next hg =>
      split
      · next hnew => exact enter hg hnew
      · exact refl r
    · exact refl r
  | drop g =>
    simp only [RuntimeInner.step]
    split
    · split
      · next hg => exact drop hg
      · exact refl r
    · exact refl r
  | clone g => exact update fun _ hc => hc
  | forget g =>
    change StaysClosed r ((r.update g _).release g)
    refine trans ?_ release
    exact update fun _ hc => hc
  | close g => exact update fun _ _ => rfl
  | signal g answer => exact update fun _ hc => hc
  | tick nanos => exact (refl r).congr rfl rfl

end StaysClosed

/-! ## The invariant -/

/-- The guest has been made, and is closed or gone. -/
def Closed (r : RuntimeInner) (g : GuestId) : Prop :=
  g.value < r.nextId ∧ ∀ inner, r.guests g = some inner → inner.closed = true

theorem Closed.get {r : RuntimeInner} {g : GuestId} (h : Closed r g) :
    (r.get g : Except Err GuestInner) = .error .closed ∨
      ∃ inner, (r.get g : Except Err GuestInner) = .ok inner ∧ inner.closed = true := by
  unfold RuntimeInner.get
  cases hg : r.guests g with
  | none => exact Or.inl rfl
  | some inner => exact Or.inr ⟨inner, rfl, h.2 inner hg⟩

theorem Closed.mono {r r' : RuntimeInner} {g : GuestId} (h : Closed r g)
    (hr : StaysClosed r r') : Closed r' g := by
  refine ⟨Nat.lt_of_lt_of_le h.1 hr.nextId, fun inner' hinner' => ?_⟩
  rcases hr.guests g inner' hinner' with ⟨inner, hinner, hc⟩ | ⟨hle, -⟩
  · exact hc (h.2 inner hinner)
  · exact absurd h.1 (Nat.not_lt.2 hle)

/-- Numbers are given out in order. -/
def Known (r : RuntimeInner) : Prop := ∀ g inner, r.guests g = some inner → g.value < r.nextId

theorem Known.mono {r r' : RuntimeInner} (h : Known r) (hr : StaysClosed r r') : Known r' := by
  intro g inner' hinner'
  rcases hr.guests g inner' hinner' with ⟨inner, hinner, -⟩ | ⟨-, hlt⟩
  · exact Nat.lt_of_lt_of_le (h g inner hinner) hr.nextId
  · exact hlt

structure Inv (w : World types) : Prop where
  lawful : ∀ e ∈ w.events, e.Lawful
  known : Known w.runtime
  shut : ∀ g, w.shut g = true → Closed w.runtime g
  rooted : ∀ k : Fatal, w.interpreter.cache.Rooted k.key

/-- What an operation guarantees to its caller. -/
structure Later (w w' : World types) : Prop where
  runtime : StaysClosed w.runtime w'.runtime
  classes : ∀ k : Fatal,
    RealisationCache.Retains k.key w.interpreter.cache w'.interpreter.cache

theorem Later.refl (w : World types) : Later w w := ⟨.refl _, fun _ _ h => h⟩

theorem Later.trans {w w' w'' : World types} (h : Later w w') (h' : Later w' w'') : Later w w'' :=
  ⟨h.runtime.trans h'.runtime, fun k owned ho => h'.classes k owned (h.classes k owned ho)⟩

def discipline (types : TypeId → HostException) : Discipline (World types) where
  inv := Inv
  future := Later
  unwound _ := True
  refl := .refl
  trans := .trans

abbrev Safe (w : World types) (m : Host (World types) Err α) (Q : α → World types → Prop) : Prop :=
  Keeps (discipline types) w m Q

/-! ## Changes of the state -/

/-- What neither records an event nor touches the runtime, its closed guests or its classes. -/
theorem inv_congr {w w' : World types} (h : Inv w) (hevents : w'.events = w.events)
    (hruntime : w'.runtime = w.runtime) (hshut : w'.shut = w.shut)
    (hcache : w'.interpreter.cache = w.interpreter.cache) : Inv w' where
  lawful := hevents ▸ h.lawful
  known := hruntime ▸ h.known
  shut := by
    rw [hruntime, hshut]
    exact h.shut
  rooted := hcache ▸ h.rooted

theorem later_congr {w w' : World types} (hruntime : w'.runtime = w.runtime)
    (hcache : w'.interpreter.cache = w.interpreter.cache) : Later w w' where
  runtime := (StaysClosed.refl _).congr (congrArg _ hruntime) (congrArg _ hruntime)
  classes k owned ho := by
    rw [hcache]
    exact ho

theorem inv_runtime {w : World types} {f : RuntimeInner → RuntimeInner} (h : Inv w)
    (hf : StaysClosed w.runtime (f w.runtime)) : Inv (w.withRuntime f) where
  lawful := h.lawful
  known := h.known.mono hf
  shut g hg := (h.shut g hg).mono hf
  rooted := h.rooted

theorem later_runtime {w : World types} {f : RuntimeInner → RuntimeInner}
    (hf : StaysClosed w.runtime (f w.runtime)) : Later w (w.withRuntime f) :=
  ⟨hf, fun _ _ ho => ho⟩

theorem inv_log {w : World types} {e : Event} (he : e.Lawful) (h : Inv w) : Inv (w.log e) where
  lawful := by
    intro e' he'
    rcases List.mem_cons.1 he' with rfl | he'
    · exact he
    · exact h.lawful e' he'
  known := h.known
  shut := h.shut
  rooted := h.rooted

theorem inv_markClosed {w : World types} {g : GuestId} (h : Inv w)
    (hg : g.value < w.runtime.nextId) : Inv (w.markClosed g) := by
  have hstep : StaysClosed w.runtime (w.runtime.step (.close g)) := .step _ _
  refine ⟨h.lawful, h.known.mono hstep, fun x hx => ?_, h.rooted⟩
  by_cases hxg : x = g
  · subst hxg
    refine ⟨Nat.lt_of_lt_of_le hg hstep.nextId, fun inner hinner => ?_⟩
    change (w.runtime.update x _).guests x = some inner at hinner
    unfold RuntimeInner.update at hinner
    split at hinner
    · rw [RuntimeInner.set_guests_self] at hinner
      cases hinner
      rfl
    · next hnone =>
      rw [hnone] at hinner
      cases hinner
  · have hshut : w.shut x = true := by
      change Function.update w.shut g true x = true at hx
      rw [Function.update_of_ne hxg] at hx
      exact hx
    exact (h.shut x hshut).mono hstep

theorem inv_absorb {w : World types} (h : Inv w) (spec : ExceptionSpec types) :
    Inv (w.absorb spec) where
  lawful := h.lawful
  known := h.known
  shut := h.shut
  rooted k := RealisationCache.rooted_absorb spec (h.rooted k)

theorem later_absorb {w : World types} (h : Inv w) (spec : ExceptionSpec types) :
    Later w (w.absorb spec) :=
  ⟨.refl _, fun k => RealisationCache.retains_absorb spec (h.rooted k)⟩

end GuestPy.Boundary
