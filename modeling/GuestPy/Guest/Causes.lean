import GuestPy.Guest.Conversion

/-!
# Chains of causes

The conversion of an error calls for the conversion of its cause, and where it fails, of the cause
of the second error. An error that a value fails with is made when the value is converted, and it
may have a cause whose parts fail in their turn.

* `Ends` says that the classes that a conversion looks up have chains of bases that end, and that
  the conversions it calls for come to an end.
* `exists_convert_ne_stuck_iff`: that is when the conversion comes to an end.
* `looksUp_iff_chainEnds`: a lookup ends just if the references of registered exceptions do.
* `ends_of_causeless`: where no second error has a cause, only lookups matter.
-/

namespace GuestPy.Raising

open Exceptions Host
open Boundary (Site)

variable {types : TypeId → HostException} {Ω T : Type} {M : Backend types Ω T} {site : Site}
  {w w' : World types Ω} {e : HostError T}

/-- The lookup of the class that the error is raised as comes to an end. -/
def LooksUp (M : Backend types Ω T) (site : Site) (e : HostError T) (w : World types Ω) : Prop :=
  e.carried = none → ∃ depth, (M.classOf site depth e.asRaise.class w).1 ≠ .stuck

/-- An attempt at the exception of an error comes to the conversion of its cause. -/
structure Asks (M : Backend types Ω T) (site : Site) (e : HostError T) (w : World types Ω)
    (cause : HostError T) (w' : World types Ω) : Prop where
  carried : e.carried = none
  assembled : ∃ x, Assembled M site e.asRaise w x w'
  cause : e.asRaise.cause = some cause

/-- The conversion of an error calls for another one. -/
inductive CallsFor (M : Backend types Ω T) (site : Site) (e : HostError T) (w : World types Ω)
    (cause : HostError T) (w' : World types Ω) : Prop
  | first : Asks M site e w cause w' → CallsFor M site e w cause w'
  | second {e₁ : HostError T} {w₁ : World types Ω} :
    Misses M site e w e₁ w₁ → Asks M site e₁ w₁ cause w' → CallsFor M site e w cause w'

/-- The lookups of a conversion come to an end, and so do the conversions that it calls for. -/
inductive Ends (M : Backend types Ω T) (site : Site) : HostError T → World types Ω → Prop
  | intro {e : HostError T} {w : World types Ω} :
    LooksUp M site e w → (∀ e₁ w₁, Misses M site e w e₁ w₁ → LooksUp M site e₁ w₁) →
    (∀ cause w', CallsFor M site e w cause w' → Ends M site cause w') → Ends M site e w

/-! ## Attempts -/

theorem assemble_ne_stuck {depth : Nat} {r : Raise T}
    (h : (M.classOf site depth r.class w).1 ≠ .stuck) :
    (M.assemble site depth r w).1 ≠ .stuck := by
  have hrest : ∀ c, Settles (do
      let values ← Host.collect (M.value site) r.args
      let x ← Host.total (M.call c values)
      Host.forEach r.attrs (M.setAttribute site x)
      Pure.pure x) := by
    intro c
    refine (settles_collect settles_value _).bind fun _ => (settles_total _).bind fun x => ?_
    exact (settles_forEach (settles_setAttribute x) _).bind fun _ => .pure x
  exact Settles.ne_stuck_of_bind hrest h

/-- An attempt comes to an end if its lookup and the conversion of the cause do. -/
theorem makes_or_misses (hlook : LooksUp M site e w)
    (hcause : ∀ cause w', Asks M site e w cause w' →
      ∃ fuel, (M.convert site fuel cause w').1 ≠ .stuck) :
    (∃ x w', Makes M site e w x w') ∨ ∃ e₁ w₁, Misses M site e w e₁ w₁ := by
  cases hcarried : e.carried with
  | some x => exact Or.inl ⟨x, w, .carried hcarried⟩
  | none =>
    obtain ⟨depth, hdepth⟩ := hlook hcarried
    rcases hassemble : M.assemble site depth e.asRaise w with ⟨o, w₁⟩
    rcases assemble_cases hassemble with rfl | ⟨x, rfl, hall⟩ | ⟨e₁, rfl, hstops⟩
    · exact absurd (congrArg Prod.fst hassemble) (assemble_ne_stuck hdepth)
    · cases hnext : e.asRaise.cause with
      | none => exact Or.inl ⟨x, w₁, .alone hcarried hall hnext⟩
      | some cause =>
        obtain ⟨fuel, hfuel⟩ := hcause cause w₁ ⟨hcarried, ⟨x, hall⟩, hnext⟩
        rcases hconvert : M.convert site fuel cause w₁ with ⟨oc, w₂⟩
        rcases yields_of_convert hconvert with rfl | ⟨y, rfl, hyields⟩
        · exact absurd (congrArg Prod.fst hconvert) hfuel
        · rcases (settles_linkCause x y).cases w₂ with ⟨u, w₃, hlink⟩ | ⟨e₁, w₃, hlink⟩
          · exact Or.inl ⟨x, w₃, .caused hcarried hall hnext hyields hlink⟩
          · exact Or.inr ⟨e₁, w₃, .link hcarried hall hnext hyields hlink⟩
    · exact Or.inr ⟨e₁, w₁, .part hcarried hstops⟩

/-- An attempt that has ended has looked up a class and converted its cause. -/
theorem of_raiseValue_ne_stuck
    {convert : HostError T → Host (World types Ω) (HostError T) ObjectId} {depth : Nat}
    (h : (M.raiseValue site convert depth e w).1 ≠ .stuck) :
    LooksUp M site e w ∧ ∀ cause w', Asks M site e w cause w' → (convert cause w').1 ≠ .stuck := by
  constructor
  · intro hcarried
    refine ⟨depth, fun hstuck => h ?_⟩
    rw [raiseValue_of_not_carried hcarried]
    exact bind_stuck (bind_stuck hstuck)
  · rintro cause w' ⟨hcarried, ⟨x, hall⟩, hcause⟩ hstuck
    apply h
    rw [raiseValue_of_not_carried hcarried]
    by_cases hassemble : (M.assemble site depth e.asRaise w).1 = .stuck
    · exact bind_stuck hassemble
    · obtain ⟨depth', hassemble'⟩ := hall.assemble
      have heq : M.assemble site depth e.asRaise w = (.ok x, w') := by
        rw [← hassemble']
        exact Below.unique (fun depth => M.assemble site depth e.asRaise)
          (fun depth => below_assemble depth _) hassemble (ne_stuck_of_ok hassemble')
      rw [bind_of_ok heq, hcause]
      exact bind_stuck hstuck

/-! ## Conversions -/

/-- **Conversions that come to an end.** A conversion returns just if its lookups end, and the
conversions that it calls for. -/
theorem exists_convert_ne_stuck_iff :
    (∃ fuel, (M.convert site fuel e w).1 ≠ .stuck) ↔ Ends M site e w := by
  constructor
  · rintro ⟨fuel, h⟩
    induction fuel generalizing e w with
    | zero => exact absurd rfl h
    | succ fuel ih =>
      have hfirst : (M.raiseValue site (M.convert site fuel) fuel e w).1 ≠ .stuck :=
        fun hstuck => h (bind_stuck (attempt_stuck hstuck))
      obtain ⟨hlook, hcause⟩ := of_raiseValue_ne_stuck hfirst
      have hsecond : ∀ e₁ w₁, Misses M site e w e₁ w₁ →
          (M.raiseValue site (M.convert site fuel) fuel e₁ w₁).1 ≠ .stuck := by
        intro e₁ w₁ hmisses hstuck
        obtain ⟨fuel', hfail⟩ := hmisses.raiseValue
        have heq : M.raiseValue site (M.convert site fuel) fuel e w = (.err e₁, w₁) := by
          rw [← hfail]
          exact raiseValue_unique hfirst (ne_stuck_of_err hfail)
        apply h
        unfold Backend.convert
        rw [bind_of_ok (attempt_of_err heq)]
        exact bind_stuck (attempt_stuck hstuck)
      refine .intro hlook (fun e₁ w₁ hmisses => ?_) fun cause w' hcalls => ih ?_
      · exact (of_raiseValue_ne_stuck (hsecond e₁ w₁ hmisses)).1
      · cases hcalls with
        | first hasks => exact hcause cause w' hasks
        | second hmisses hasks =>
          exact (of_raiseValue_ne_stuck (hsecond _ _ hmisses)).2 cause w' hasks
  · intro h
    have hyields : ∃ x w', Yields M site e w x w' := by
      induction h with
      | @intro e w hlook hlook' _ ih =>
        have hdone : ∀ cause w', CallsFor M site e w cause w' →
            ∃ fuel, (M.convert site fuel cause w').1 ≠ .stuck := by
          intro cause w' hcalls
          obtain ⟨x, w'', hyields⟩ := ih cause w' hcalls
          obtain ⟨fuel, hfuel⟩ := hyields.convert
          exact ⟨fuel, ne_stuck_of_ok hfuel⟩
        rcases makes_or_misses hlook fun cause w' hasks => hdone cause w' (.first hasks) with
          ⟨x, w', hmakes⟩ | ⟨e₁, w₁, hmisses⟩
        · exact ⟨x, w', .made hmakes⟩
        · rcases makes_or_misses (hlook' e₁ w₁ hmisses) fun cause w' hasks =>
              hdone cause w' (.second hmisses hasks) with
            ⟨x, w', hmakes⟩ | ⟨e₂, w₂, hmisses'⟩
          · exact ⟨x, w', .failed hmisses hmakes⟩
          · rcases fallback_cases M site w₂ with
              ⟨x, w', hbare, -⟩ | ⟨e₃, w', hbare, -⟩
            · exact ⟨x, w', .systemError hmisses hmisses' hbare⟩
            · exact ⟨_, w', .nothing hmisses hmisses' hbare⟩
    obtain ⟨x, w', hyields⟩ := hyields
    obtain ⟨fuel, hfuel⟩ := hyields.convert
    exact ⟨fuel, ne_stuck_of_ok hfuel⟩

/-! ## When they do -/

theorem onInterpreter_ne_stuck_iff {α : Type} {m : Host (Interpreter types) Err α} :
    (onInterpreter (T := T) m w).1 ≠ .stuck ↔ (m w.interpreter).1 ≠ .stuck := by
  unfold onInterpreter Host.zoom Host.mapErr
  rcases m w.interpreter with ⟨o, i⟩
  cases o with
  | stuck => exact ⟨fun h => absurd rfl h, fun h => absurd rfl h⟩
  | _ => exact ⟨fun _ => nofun, fun _ => nofun⟩

theorem classOf_ne_stuck_iff {depth : Nat} {cls : ExceptionClass} :
    (M.classOf site depth cls w).1 ≠ .stuck ↔ (M.resolve site depth cls w).1 ≠ .stuck := by
  constructor
  · exact fun h hstuck => h (bind_stuck hstuck)
  · exact Settles.ne_stuck_of_bind fun c =>
      settles_onInterpreter (ExceptionRealiser.settles_exceptionClass cls c)

theorem exists_classOf_host_iff {past : List (Str → Option ObjectId)} {cls : ExceptionClass}
    {key : ExceptionKey} (hsound : Sound past w.interpreter)
    (hresolve : ∀ depth,
      M.resolve site depth cls = onInterpreter (ExceptionRealiser.host depth key)) :
    (∃ depth, (M.classOf site depth cls w).1 ≠ .stuck) ↔ w.interpreter.cache.ChainEnds key := by
  have hhost : ∀ depth, (M.classOf site depth cls w).1 ≠ .stuck ↔
      (ExceptionRealiser.host depth key w.interpreter).1 ≠ .stuck := by
    intro depth
    rw [classOf_ne_stuck_iff, hresolve, onInterpreter_ne_stuck_iff]
  simp only [hhost]
  constructor
  · rintro ⟨depth, h⟩
    by_contra hends
    exact h (ExceptionRealiser.host_stuck hsound hends depth)
  · exact ExceptionRealiser.exists_host_ne_stuck hsound

theorem classOf_ne_stuck_of_key {depth : Nat} {cls : ExceptionClass} (h : cls.key = none) :
    (M.classOf site depth cls w).1 ≠ .stuck := by
  rw [classOf_ne_stuck_iff]
  cases cls with
  | builtin name =>
    exact (settles_onInterpreter (ExceptionRealiser.settles_builtin name)).ne_stuck w
  | host module name => cases h
  | typed id name => cases h
  | guest module qualname =>
    cases site with
    | guest => exact (settles_total _).ne_stuck w
    | runtime => nofun

/-- A lookup comes to an end just if the references of the class do. -/
theorem looksUp_iff_chainEnds {past : List (Str → Option ObjectId)}
    (hsound : Sound past w.interpreter) (hcarried : e.carried = none) :
    LooksUp M site e w ↔
      ∀ key, e.asRaise.class.key = some key → w.interpreter.cache.ChainEnds key := by
  unfold LooksUp
  simp only [hcarried, true_implies]
  cases hclass : e.asRaise.class with
  | builtin name => exact ⟨fun _ => nofun, fun _ => ⟨0, classOf_ne_stuck_of_key rfl⟩⟩
  | guest module qualname => exact ⟨fun _ => nofun, fun _ => ⟨0, classOf_ne_stuck_of_key rfl⟩⟩
  | host module name =>
    rw [exists_classOf_host_iff hsound fun _ => rfl]
    constructor
    · rintro h key hkey
      cases hkey
      exact h
    · exact fun h => h _ rfl
  | typed id name =>
    rw [exists_classOf_host_iff hsound fun _ => rfl]
    constructor
    · rintro h key hkey
      cases hkey
      exact h
    · exact fun h => h _ rfl

/-- Where second errors have no causes, a chain of causes is as long as it was made. -/
theorem ends_of_causeless (hlook : ∀ e w, LooksUp M site e w)
    (hcauseless : ∀ e w e₁ w₁, Misses M site e w e₁ w₁ → e₁.asRaise.cause = none)
    (e : HostError T) (w : World types Ω) : Ends M site e w := by
  have hnext : ∀ {e cause : HostError T} {w w' : World types Ω},
      CallsFor M site e w cause w' → e.asRaise.cause = some cause := by
    intro e cause w w' hcalls
    cases hcalls with
    | first hasks => exact hasks.cause
    | second hmisses hasks =>
      have hnone := hasks.cause
      rw [hcauseless _ _ _ _ hmisses] at hnone
      cases hnone
  revert w
  induction e using HostError.induction_cause with
  | h e ih =>
    exact fun w => .intro (hlook e w) (fun e₁ w₁ _ => hlook e₁ w₁) fun cause w' hcalls =>
      ih cause (hnext hcalls) w'

end GuestPy.Raising
