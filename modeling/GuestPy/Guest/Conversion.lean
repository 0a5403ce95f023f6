import GuestPy.Guest.Raising

/-!
# What the conversion of an error yields

* `Makes` says that every part of the exception that an error asks for converts, one after the
  other, and `Misses` that a part fails, and those before it convert. The cause is converted as an
  error of its own.
* `Yields` says which exception the conversion of an error comes to.
* `yields_of_convert` and `Yields.convert`: that is what `convert` does.
-/

namespace GuestPy.Raising

open Exceptions Host
open Boundary (Site)

variable {types : TypeId → HostException} {Ω T α : Type}

/-! ## Class lookups -/

theorem onInterpreter_ne_panic {m : Host (Interpreter types) Err α} {w : World types Ω}
    (h : (m w.interpreter).1 ≠ .panic) :
    (onInterpreter (T := T) m w).1 ≠ .panic := by
  unfold onInterpreter Host.zoom Host.mapErr
  rcases hm : m w.interpreter with ⟨o, i⟩
  rw [hm] at h
  cases o with
  | panic => exact absurd rfl h
  | _ => nofun

theorem settles_onInterpreter {m : Host (Interpreter types) Err α} (hm : Settles m) :
    Settles (onInterpreter m : Host (World types Ω) (HostError T) α) := by
  intro w
  have hs := hm w.interpreter
  unfold onInterpreter Host.zoom Host.mapErr
  rcases h : m w.interpreter with ⟨o, i⟩
  rw [h] at hs
  rcases hs with ⟨a, rfl⟩ | ⟨e, rfl⟩
  · exact Or.inl ⟨a, rfl⟩
  · exact Or.inr ⟨.plain e, rfl⟩

theorem below_onInterpreter {m n : Host (Interpreter types) Err α} (h : Below m n) :
    Below (onInterpreter m : Host (World types Ω) (HostError T) α) (onInterpreter n) :=
  (h.mapErr).zoom

section

open ExceptionRealiser

theorem below_baseOf {host host' : ExceptionKey → Host (Interpreter types) Err ObjectId}
    (h : ∀ key, Below (host key) (host' key)) (spec : ExceptionSpec types) :
    Below (baseOf host spec) (baseOf host' spec) := by
  unfold baseOf
  cases spec.base.key with
  | some key => exact h key
  | none => exact .refl _

/-- A request with more fuel for the chain of bases. -/
theorem below_host (depth : Nat) (key : ExceptionKey) :
    Below (host depth key : Host (Interpreter types) Err ObjectId) (host (depth + 1) key) := by
  induction depth generalizing key with
  | zero => exact .stuck _
  | succ depth ih =>
    unfold host
    refine .get fun i => ?_
    cases i.cache.realisedException key with
    | some c => exact .refl _
    | none =>
      cases i.cache.exceptionSpec key with
      | none => exact .refl _
      | some spec => exact (below_baseOf ih spec).bind fun _ => .refl _

theorem baseOf_ne_panic {host : ExceptionKey → Host (Interpreter types) Err ObjectId}
    {i : Interpreter types} (h : ∀ key, (host key i).1 ≠ .panic) (spec : ExceptionSpec types) :
    (baseOf host spec i).1 ≠ .panic := by
  unfold baseOf
  cases spec.base.key with
  | some key => exact h key
  | none =>
    cases spec.base with
    | builtin name =>
      intro hpanic
      rcases settles_builtin name i with ⟨c, hc⟩ | ⟨e, he⟩
      · cases hc.symm.trans hpanic
      · cases he.symm.trans hpanic
    | host module name => nofun
    | guest module qualname => nofun
    | typed id name => nofun

theorem settles_create_kept (key : ExceptionKey) (spec : ExceptionSpec types) (b : ObjectId) :
    Settles (do
      let base ← exceptionClass spec.base b
      let c ← create spec.module spec.name base
      Host.modify fun i => { i with cache := i.cache.setRealisedException key c }
      Pure.pure c : Host (Interpreter types) Err ObjectId) :=
  (settles_exceptionClass _ _).bind fun _ =>
    (settles_create _ _ _).bind fun c _ => Or.inl ⟨c, rfl⟩

theorem host_ne_panic (depth : Nat) (key : ExceptionKey) (i : Interpreter types) :
    (host depth key i).1 ≠ .panic := by
  induction depth generalizing key i with
  | zero => nofun
  | succ depth ih =>
    rcases h : host (depth + 1) key i with ⟨o, i'⟩
    rcases host_cases h with ⟨c, -, rfl, -⟩ | ⟨-, ⟨e, rfl⟩, -⟩ | ⟨spec, -, -, hrealise⟩
    · nofun
    · nofun
    · rintro rfl
      unfold realise at hrealise
      rcases bind_cases hrealise with ⟨b, i₁, -, hlast⟩ | ⟨e, -, h⟩ | ⟨hbase, -⟩ | ⟨-, h⟩
      · have hs := settles_create_kept key spec b i₁
        rw [hlast] at hs
        rcases hs with ⟨c, hc⟩ | ⟨e, he⟩
        · cases hc
        · cases he
      · cases h
      · exact baseOf_ne_panic (fun key => ih key i) spec (congrArg Prod.fst hbase)
      · cases h

end

variable {M : Backend types Ω T} {site : Site} {w w' w₁ : World types Ω} {e : HostError T}

theorem below_resolve (depth : Nat) (cls : ExceptionClass) :
    Below (M.resolve site depth cls) (M.resolve site (depth + 1) cls) := by
  cases cls with
  | builtin name => exact .refl _
  | host module name => exact below_onInterpreter (below_host depth _)
  | typed id name => exact below_onInterpreter (below_host depth _)
  | guest module qualname => exact .refl _

theorem below_classOf (depth : Nat) (cls : ExceptionClass) :
    Below (M.classOf site depth cls) (M.classOf site (depth + 1) cls) :=
  (below_resolve depth cls).bind fun _ => .refl _

theorem resolve_ne_panic (depth : Nat) (cls : ExceptionClass) (w : World types Ω) :
    (M.resolve site depth cls w).1 ≠ .panic := by
  have hsettles : ∀ {m : Host (World types Ω) (HostError T) ObjectId}, Settles m →
      (m w).1 ≠ .panic := by
    intro m hm hpanic
    rcases hm w with ⟨a, ha⟩ | ⟨e, he⟩
    · cases ha.symm.trans hpanic
    · cases he.symm.trans hpanic
  cases cls with
  | builtin name =>
    exact hsettles (settles_onInterpreter (ExceptionRealiser.settles_builtin name))
  | host module name => exact onInterpreter_ne_panic (host_ne_panic depth _ _)
  | typed id name => exact onInterpreter_ne_panic (host_ne_panic depth _ _)
  | guest module qualname =>
    cases site with
    | guest => exact hsettles (settles_total _)
    | runtime => nofun

/-- The class is found after finitely many steps. -/
def Found (M : Backend types Ω T) (site : Site) (cls : ExceptionClass) (w : World types Ω)
    (c : ObjectId) (w' : World types Ω) : Prop :=
  ∃ depth, M.classOf site depth cls w = (.ok c, w')

/-- After finitely many steps it turns out that there is no such class. -/
def Missing (M : Backend types Ω T) (site : Site) (cls : ExceptionClass) (w : World types Ω)
    (e : HostError T) (w' : World types Ω) : Prop :=
  ∃ depth, M.classOf site depth cls w = (.err e, w')

theorem classOf_cases {depth : Nat} {cls : ExceptionClass}
    {o : Outcome (HostError T) ObjectId} (h : M.classOf site depth cls w = (o, w')) :
    o = .stuck ∨ (∃ c, o = .ok c ∧ Found M site cls w c w') ∨
      ∃ e, o = .err e ∧ Missing M site cls w e w' := by
  cases o with
  | ok c => exact Or.inr (Or.inl ⟨c, rfl, depth, h⟩)
  | err e => exact Or.inr (Or.inr ⟨e, rfl, depth, h⟩)
  | stuck => exact Or.inl rfl
  | panic =>
    exfalso
    rcases bind_cases h with ⟨c, w₁, -, hcheck⟩ | ⟨e, -, h⟩ | ⟨hpanic, -⟩ | ⟨-, h⟩
    · rcases settles_onInterpreter (ExceptionRealiser.settles_exceptionClass cls c) w₁ with
        ⟨c', hc⟩ | ⟨e, he⟩
      · cases hc.symm.trans (congrArg Prod.fst hcheck)
      · cases he.symm.trans (congrArg Prod.fst hcheck)
    · cases h
    · exact resolve_ne_panic depth cls w (congrArg Prod.fst hpanic)
    · cases h

/-! ## The parts of an exception -/

theorem settles_makeStr (text : Str) : Settles (M.makeStr text) := fun _ => Or.inl ⟨_, rfl⟩

theorem settles_value (v : RaiseValue T) : Settles (M.value site v) := by
  cases v with
  | text text => exact settles_makeStr text
  | guest thunk =>
    cases site with
    | runtime => exact .throw _
    | guest =>
      cases thunk with
      | string value => exact settles_makeStr value
      | value t => exact settles_total _

theorem settles_setAttribute (x : ObjectId) (p : Str × RaiseValue T) :
    Settles (M.setAttribute site x p) :=
  (settles_value p.2).bind fun _ => settles_total _

theorem settles_linkCause (x y : ObjectId) : Settles (M.linkCause x y) :=
  (settles_total _).bind fun _ => settles_total _

/-- All parts of the exception convert: the class, the arguments in order, the call of the class,
and the attributes in order. -/
inductive Assembled (M : Backend types Ω T) (site : Site) (r : Raise T) (w : World types Ω)
    (x : ObjectId) (w' : World types Ω) : Prop
  | intro {c : ObjectId} {values : List ObjectId} {w₁ w₂ w₃ : World types Ω} :
    Found M site r.class w c w₁ → Collects (M.value site) r.args w₁ values w₂ →
    M.call c values w₂ = (.ok x, w₃) → Each (M.setAttribute site x) r.attrs w₃ w' →
    Assembled M site r w x w'

/-- A part of the exception fails, and those before it convert. -/
inductive Stops (M : Backend types Ω T) (site : Site) (r : Raise T) (w : World types Ω)
    (e : HostError T) (w' : World types Ω) : Prop
  | «class» : Missing M site r.class w e w' → Stops M site r w e w'
  | argument {c : ObjectId} {w₁ w₂ : World types Ω} {before after : List (RaiseValue T)}
    {v : RaiseValue T} {values : List ObjectId} :
    Found M site r.class w c w₁ → r.args = before ++ v :: after →
    Collects (M.value site) before w₁ values w₂ → M.value site v w₂ = (.err e, w') →
    Stops M site r w e w'
  | call {c : ObjectId} {w₁ w₂ : World types Ω} {values : List ObjectId} :
    Found M site r.class w c w₁ → Collects (M.value site) r.args w₁ values w₂ →
    M.call c values w₂ = (.error e, w') → Stops M site r w e w'
  | «attribute» {c x : ObjectId} {values : List ObjectId} {w₁ w₂ w₃ w₄ : World types Ω}
    {before after : List (Str × RaiseValue T)} {p : Str × RaiseValue T} :
    Found M site r.class w c w₁ → Collects (M.value site) r.args w₁ values w₂ →
    M.call c values w₂ = (.ok x, w₃) → r.attrs = before ++ p :: after →
    Each (M.setAttribute site x) before w₃ w₄ → M.setAttribute site x p w₄ = (.err e, w') →
    Stops M site r w e w'

theorem below_assemble (depth : Nat) (r : Raise T) :
    Below (M.assemble site depth r) (M.assemble site (depth + 1) r) :=
  (below_classOf depth _).bind fun _ => .refl _

theorem assemble_cases {depth : Nat} {r : Raise T} {o : Outcome (HostError T) ObjectId}
    (h : M.assemble site depth r w = (o, w')) :
    o = .stuck ∨ (∃ x, o = .ok x ∧ Assembled M site r w x w') ∨
      ∃ e, o = .err e ∧ Stops M site r w e w' := by
  rcases hclass : M.classOf site depth r.class w with ⟨oc, w₁⟩
  unfold Backend.assemble at h
  rcases classOf_cases hclass with rfl | ⟨c, rfl, hfound⟩ | ⟨e, rfl, hmissing⟩
  · exact Or.inl (stuck_of_bind hclass h)
  · refine Or.inr ?_
    rw [bind_of_ok hclass] at h
    rcases (settles_collect settles_value _).bind_cases h with
      ⟨values, w₂, hvalues, hrest⟩ | ⟨e, hvalues, rfl⟩
    · rcases collect_cases settles_value hvalues with
        ⟨values', heq, hall⟩ | ⟨_, _, _, _, _, _, _, _, _, heq⟩
      · cases heq
        rcases (settles_total _).bind_cases hrest with ⟨x, w₃, hcall, hlast⟩ | ⟨e, hcall, rfl⟩
        · rw [total_eq_ok] at hcall
          rcases hattrs : forEach r.attrs (M.setAttribute site x) w₃ with ⟨oa, w₄⟩
          rcases forEach_cases (settles_setAttribute x) hattrs with
            ⟨rfl, heach⟩ | ⟨before, p, after, w₅, e, hsplit, heach, hfail, rfl⟩
          · rw [bind_of_ok hattrs] at hlast
            cases hlast
            exact Or.inl ⟨x, rfl, .intro hfound hall hcall heach⟩
          · rw [bind_of_err hattrs] at hlast
            cases hlast
            exact Or.inr ⟨e, rfl, .attribute hfound hall hcall hsplit heach hfail⟩
        · rw [total_eq_err] at hcall
          exact Or.inr ⟨e, rfl, .call hfound hall hcall⟩
      · cases heq
    · rcases collect_cases settles_value hvalues with
        ⟨values', heq, -⟩ | ⟨before, v, after, values, w₃, e', hsplit, hall, hfail, heq⟩
      · cases heq
      · cases heq
        exact Or.inr ⟨e, rfl, .argument hfound hsplit hall hfail⟩
  · rw [bind_of_err hclass] at h
    cases h
    exact Or.inr (Or.inr ⟨e, rfl, .class hmissing⟩)

theorem Assembled.assemble {r : Raise T} {x : ObjectId} (h : Assembled M site r w x w') :
    ∃ depth, M.assemble site depth r w = (.ok x, w') := by
  obtain ⟨⟨depth, hclass⟩, hall, hcall, heach⟩ := h
  refine ⟨depth, (bind_of_ok hclass).trans ?_⟩
  refine (bind_of_ok hall.collect).trans ?_
  refine (bind_of_ok (total_eq_ok.mpr hcall)).trans ?_
  exact bind_of_ok (forEach_eq_ok.mpr heach)

theorem Stops.assemble {r : Raise T} (h : Stops M site r w e w') :
    ∃ depth, M.assemble site depth r w = (.err e, w') := by
  cases h with
  | «class» hmissing =>
    obtain ⟨depth, hclass⟩ := hmissing
    exact ⟨depth, bind_of_err hclass⟩
  | argument hfound hsplit hall hfail =>
    obtain ⟨depth, hclass⟩ := hfound
    refine ⟨depth, (bind_of_ok hclass).trans (bind_of_err ?_)⟩
    rw [hsplit]
    exact hall.collect_err hfail
  | call hfound hall hcall =>
    obtain ⟨depth, hclass⟩ := hfound
    refine ⟨depth, (bind_of_ok hclass).trans ?_⟩
    exact (bind_of_ok hall.collect).trans (bind_of_err (total_eq_err.mpr hcall))
  | «attribute» hfound hall hcall hsplit heach hfail =>
    obtain ⟨depth, hclass⟩ := hfound
    refine ⟨depth, (bind_of_ok hclass).trans ?_⟩
    refine (bind_of_ok hall.collect).trans ?_
    refine (bind_of_ok (total_eq_ok.mpr hcall)).trans (bind_of_err ?_)
    rw [hsplit]
    exact heach.forEach_err hfail

/-! ## The exception -/

mutual

/-- Every part of the exception that the error asks for converts, and then the conversion of the
cause is linked. -/
inductive Makes (M : Backend types Ω T) (site : Site) :
    HostError T → World types Ω → ObjectId → World types Ω → Prop
  | carried {e : HostError T} {w : World types Ω} {x : ObjectId} :
    e.carried = some x → Makes M site e w x w
  | alone {e : HostError T} {w w' : World types Ω} {x : ObjectId} :
    e.carried = none → Assembled M site e.asRaise w x w' → e.asRaise.cause = none →
    Makes M site e w x w'
  | caused {e cause : HostError T} {w w₁ w₂ w' : World types Ω} {x y : ObjectId} :
    e.carried = none → Assembled M site e.asRaise w x w₁ → e.asRaise.cause = some cause →
    Yields M site cause w₁ y w₂ → M.linkCause x y w₂ = (.ok (), w') → Makes M site e w x w'

/-- A part of it fails, and those before it convert. -/
inductive Misses (M : Backend types Ω T) (site : Site) :
    HostError T → World types Ω → HostError T → World types Ω → Prop
  | part {e e' : HostError T} {w w' : World types Ω} :
    e.carried = none → Stops M site e.asRaise w e' w' → Misses M site e w e' w'
  | link {e e' cause : HostError T} {w w₁ w₂ w' : World types Ω} {x y : ObjectId} :
    e.carried = none → Assembled M site e.asRaise w x w₁ → e.asRaise.cause = some cause →
    Yields M site cause w₁ y w₂ → M.linkCause x y w₂ = (.err e', w') → Misses M site e w e' w'

/-- What the conversion of the error comes to: the exception that it asks for, or that of the first
part that fails, or a bare `SystemError` if a part of that fails, too. Where there is no
`SystemError` it is `None`. -/
inductive Yields (M : Backend types Ω T) (site : Site) :
    HostError T → World types Ω → ObjectId → World types Ω → Prop
  | made {e : HostError T} {w w' : World types Ω} {x : ObjectId} :
    Makes M site e w x w' → Yields M site e w x w'
  | failed {e e₁ : HostError T} {w w₁ w' : World types Ω} {x : ObjectId} :
    Misses M site e w e₁ w₁ → Makes M site e₁ w₁ x w' → Yields M site e w x w'
  | systemError {e e₁ e₂ : HostError T} {w w₁ w₂ w' : World types Ω} {x : ObjectId} :
    Misses M site e w e₁ w₁ → Misses M site e₁ w₁ e₂ w₂ →
    M.bareSystemError site w₂ = (.ok x, w') → Yields M site e w x w'
  | nothing {e e₁ e₂ e₃ : HostError T} {w w₁ w₂ w' : World types Ω} :
    Misses M site e w e₁ w₁ → Misses M site e₁ w₁ e₂ w₂ →
    M.bareSystemError site w₂ = (.err e₃, w') → Yields M site e w M.noneObject w'

end

/-! ## The code yields it -/

theorem settles_bareSystemError : Settles (M.bareSystemError site) :=
  Settles.bind ((settles_onInterpreter (ExceptionRealiser.settles_builtin _)).bind fun _ =>
    settles_onInterpreter (ExceptionRealiser.settles_exceptionClass _ _)) fun _ => settles_total _

theorem fallback_cases (M : Backend types Ω T) (site : Site) (w : World types Ω) :
    (∃ x w', M.bareSystemError site w = (.ok x, w') ∧ M.fallback site w = (.ok x, w')) ∨
      ∃ e w', M.bareSystemError site w = (.err e, w') ∧
        M.fallback site w = (.ok M.noneObject, w') := by
  rcases settles_bareSystemError.cases w with ⟨x, w', h⟩ | ⟨e, w', h⟩
  · exact Or.inl ⟨x, w', h, bind_of_ok (attempt_of_ok h)⟩
  · exact Or.inr ⟨e, w', h, bind_of_ok (attempt_of_err h)⟩

section

variable {convert : HostError T → Host (World types Ω) (HostError T) ObjectId} {depth : Nat}

theorem raiseValue_of_carried {x : ObjectId} (h : e.carried = some x) :
    M.raiseValue site convert depth e w = (.ok x, w) := by
  unfold Backend.raiseValue
  rw [h]
  rfl

theorem raiseValue_of_not_carried (h : e.carried = none) :
    M.raiseValue site convert depth e = (do
      let x ← M.assemble site depth e.asRaise
      M.attachCause convert x e.asRaise.cause) := by
  unfold Backend.raiseValue
  rw [h]

/-- One attempt, where conversions of causes do what they should. -/
theorem raiseValue_cases {o : Outcome (HostError T) ObjectId}
    (hconvert : ∀ e w o w', convert e w = (o, w') →
      o = .stuck ∨ ∃ x, o = .ok x ∧ Yields M site e w x w')
    (h : M.raiseValue site convert depth e w = (o, w')) :
    o = .stuck ∨ (∃ x, o = .ok x ∧ Makes M site e w x w') ∨
      ∃ e₁, o = .err e₁ ∧ Misses M site e w e₁ w' := by
  cases hcarried : e.carried with
  | some x =>
    rw [raiseValue_of_carried hcarried] at h
    cases h
    exact Or.inr (Or.inl ⟨x, rfl, .carried hcarried⟩)
  | none =>
    rw [raiseValue_of_not_carried hcarried] at h
    rcases hassemble : M.assemble site depth e.asRaise w with ⟨oa, w₁⟩
    rcases assemble_cases hassemble with rfl | ⟨x, rfl, hall⟩ | ⟨e₁, rfl, hstops⟩
    · exact Or.inl (stuck_of_bind hassemble h)
    · rw [bind_of_ok hassemble] at h
      cases hcause : e.asRaise.cause with
      | none =>
        rw [hcause] at h
        cases h
        exact Or.inr (Or.inl ⟨x, rfl, .alone hcarried hall hcause⟩)
      | some cause =>
        rw [hcause] at h
        change (convert cause >>= _) w₁ = _ at h
        rcases hc : convert cause w₁ with ⟨oc, w₂⟩
        rcases hconvert cause w₁ oc w₂ hc with rfl | ⟨y, rfl, hyields⟩
        · exact Or.inl (stuck_of_bind hc h)
        · rw [bind_of_ok hc] at h
          refine Or.inr ?_
          rcases (settles_linkCause x y).bind_cases h with ⟨u, w₃, hlink, hlast⟩ | ⟨e₁, hlink, rfl⟩
          · cases hlast
            exact Or.inl ⟨x, rfl, .caused hcarried hall hcause hyields hlink⟩
          · exact Or.inr ⟨e₁, rfl, .link hcarried hall hcause hyields hlink⟩
    · rw [bind_of_err hassemble] at h
      cases h
      exact Or.inr (Or.inr ⟨e₁, rfl, .part hcarried hstops⟩)

end

/-- The conversion does not fail, and what it returns is what it should. -/
theorem yields_of_convert {fuel : Nat} {o : Outcome (HostError T) ObjectId}
    (h : M.convert site fuel e w = (o, w')) :
    o = .stuck ∨ ∃ x, o = .ok x ∧ Yields M site e w x w' := by
  induction fuel generalizing e w o w' with
  | zero =>
    cases h
    exact Or.inl rfl
  | succ fuel ih =>
    unfold Backend.convert at h
    rcases hfirst : M.raiseValue site (M.convert site fuel) fuel e w with ⟨o₁, w₁⟩
    rcases raiseValue_cases (fun e w o w' h => ih h) hfirst with
      rfl | ⟨x, rfl, hmakes⟩ | ⟨e₁, rfl, hmisses⟩
    · exact Or.inl (stuck_of_bind (attempt_of_stuck hfirst) h)
    · rw [bind_of_ok (attempt_of_ok hfirst)] at h
      cases h
      exact Or.inr ⟨x, rfl, .made hmakes⟩
    · rw [bind_of_ok (attempt_of_err hfirst)] at h
      dsimp only at h
      rcases hsecond : M.raiseValue site (M.convert site fuel) fuel e₁ w₁ with ⟨o₂, w₂⟩
      rcases raiseValue_cases (fun e w o w' h => ih h) hsecond with
        rfl | ⟨x, rfl, hmakes⟩ | ⟨e₂, rfl, hmisses'⟩
      · exact Or.inl (stuck_of_bind (attempt_of_stuck hsecond) h)
      · rw [bind_of_ok (attempt_of_ok hsecond)] at h
        cases h
        exact Or.inr ⟨x, rfl, .failed hmisses hmakes⟩
      · rw [bind_of_ok (attempt_of_err hsecond)] at h
        dsimp only at h
        rcases fallback_cases M site w₂ with
          ⟨x, w₃, hbare, hfallback⟩ | ⟨e₃, w₃, hbare, hfallback⟩
        · cases hfallback.symm.trans h
          exact Or.inr ⟨x, rfl, .systemError hmisses hmisses' hbare⟩
        · cases hfallback.symm.trans h
          exact Or.inr ⟨_, rfl, .nothing hmisses hmisses' hbare⟩

/-! ## The code comes to it -/

theorem below_attachCause
    {convert convert' : HostError T → Host (World types Ω) (HostError T) ObjectId}
    (h : ∀ e, Below (convert e) (convert' e)) (x : ObjectId) (cause : Option (HostError T)) :
    Below (M.attachCause convert x cause) (M.attachCause convert' x cause) := by
  cases cause with
  | none => exact .refl _
  | some cause => exact (h cause).bind fun _ => .refl _

theorem below_raiseValue
    {convert convert' : HostError T → Host (World types Ω) (HostError T) ObjectId}
    (h : ∀ e, Below (convert e) (convert' e)) (depth : Nat) (e : HostError T) :
    Below (M.raiseValue site convert depth e) (M.raiseValue site convert' (depth + 1) e) := by
  unfold Backend.raiseValue
  cases e.carried with
  | some x => exact .refl _
  | none => exact (below_assemble depth _).bind fun x => below_attachCause h x _

theorem below_convert (fuel : Nat) (e : HostError T) :
    Below (M.convert site fuel e) (M.convert site (fuel + 1) e) := by
  induction fuel generalizing e with
  | zero => exact .stuck _
  | succ fuel ih =>
    unfold Backend.convert
    refine (below_raiseValue ih fuel e).attempt.bind fun first => ?_
    cases first with
    | ok x => exact .refl _
    | error e₁ => exact (below_raiseValue ih fuel e₁).attempt.bind fun _ => .refl _

/-- One attempt, with enough fuel for all that it calls for. -/
theorem raiseValue_eq_of_le {fuel fuel' : Nat} (hle : fuel ≤ fuel')
    {o : Outcome (HostError T) ObjectId}
    (h : M.raiseValue site (M.convert site fuel) fuel e w = (o, w')) (ho : o ≠ .stuck) :
    M.raiseValue site (M.convert site fuel') fuel' e w = (o, w') :=
  Below.eq_of_le (fun fuel => M.raiseValue site (M.convert site fuel) fuel e)
    (fun fuel => below_raiseValue (below_convert fuel) fuel e) hle h ho

theorem raiseValue_unique {fuel fuel' : Nat}
    (h : (M.raiseValue site (M.convert site fuel) fuel e w).1 ≠ .stuck)
    (h' : (M.raiseValue site (M.convert site fuel') fuel' e w).1 ≠ .stuck) :
    M.raiseValue site (M.convert site fuel) fuel e w =
      M.raiseValue site (M.convert site fuel') fuel' e w :=
  Below.unique (fun fuel => M.raiseValue site (M.convert site fuel) fuel e)
    (fun fuel => below_raiseValue (below_convert fuel) fuel e) h h'

theorem assemble_eq_of_le {depth depth' : Nat} (hle : depth ≤ depth') {r : Raise T}
    {o : Outcome (HostError T) ObjectId} (h : M.assemble site depth r w = (o, w'))
    (ho : o ≠ .stuck) : M.assemble site depth' r w = (o, w') :=
  Below.eq_of_le (fun depth => M.assemble site depth r)
    (fun depth => below_assemble depth r) hle h ho

theorem convert_eq_of_le {fuel fuel' : Nat} (hle : fuel ≤ fuel')
    {o : Outcome (HostError T) ObjectId} (h : M.convert site fuel e w = (o, w'))
    (ho : o ≠ .stuck) : M.convert site fuel' e w = (o, w') :=
  Below.eq_of_le (fun fuel => M.convert site fuel e)
    (fun fuel => below_convert fuel e) hle h ho

/-- An attempt with a cause, once the object and the conversion of the cause are at hand. -/
theorem exists_raiseValue_eq {cause : HostError T} {x y : ObjectId} {w₁ w₂ : World types Ω}
    (hcarried : e.carried = none) (hall : Assembled M site e.asRaise w x w₁)
    (hcause : e.asRaise.cause = some cause)
    (hconvert : ∃ fuel, M.convert site fuel cause w₁ = (.ok y, w₂)) :
    ∃ fuel, M.raiseValue site (M.convert site fuel) fuel e w =
      (M.linkCause x y >>= fun _ => Pure.pure x) w₂ := by
  obtain ⟨depth, hassemble⟩ := hall.assemble
  obtain ⟨fuel, hconvert⟩ := hconvert
  refine ⟨max depth fuel, ?_⟩
  have hassemble' := assemble_eq_of_le (Nat.le_max_left depth fuel) hassemble nofun
  have hconvert' := convert_eq_of_le (Nat.le_max_right depth fuel) hconvert nofun
  rw [raiseValue_of_not_carried hcarried, bind_of_ok hassemble', hcause]
  exact bind_of_ok hconvert'

/-- Both attempts, with enough fuel for either. -/
theorem exists_raiseValue_both {e₁ : HostError T} {w₁ : World types Ω}
    {o : Outcome (HostError T) ObjectId}
    (h : ∃ fuel, M.raiseValue site (M.convert site fuel) fuel e w = (.err e₁, w₁))
    (h' : ∃ fuel, M.raiseValue site (M.convert site fuel) fuel e₁ w₁ = (o, w')) (ho : o ≠ .stuck) :
    ∃ fuel, M.raiseValue site (M.convert site fuel) fuel e w = (.err e₁, w₁) ∧
      M.raiseValue site (M.convert site fuel) fuel e₁ w₁ = (o, w') := by
  obtain ⟨fuel, h⟩ := h
  obtain ⟨fuel', h'⟩ := h'
  exact ⟨max fuel fuel', raiseValue_eq_of_le (Nat.le_max_left fuel fuel') h nofun,
    raiseValue_eq_of_le (Nat.le_max_right fuel fuel') h' ho⟩

mutual

theorem Makes.raiseValue {e : HostError T} {w w' : World types Ω} {x : ObjectId} :
    Makes M site e w x w' →
      ∃ fuel, M.raiseValue site (M.convert site fuel) fuel e w = (.ok x, w')
  | .carried hcarried => ⟨0, raiseValue_of_carried hcarried⟩
  | .alone hcarried hall hcause => by
    obtain ⟨depth, hassemble⟩ := hall.assemble
    refine ⟨depth, ?_⟩
    rw [raiseValue_of_not_carried hcarried, bind_of_ok hassemble, hcause]
    rfl
  | .caused hcarried hall hcause hyields hlink => by
    obtain ⟨fuel, h⟩ := exists_raiseValue_eq hcarried hall hcause hyields.convert
    exact ⟨fuel, h.trans (bind_of_ok hlink)⟩

theorem Misses.raiseValue {e e₁ : HostError T} {w w' : World types Ω} :
    Misses M site e w e₁ w' →
      ∃ fuel, M.raiseValue site (M.convert site fuel) fuel e w = (.err e₁, w')
  | .part hcarried hstops => by
    obtain ⟨depth, hassemble⟩ := hstops.assemble
    refine ⟨depth, ?_⟩
    rw [raiseValue_of_not_carried hcarried]
    exact bind_of_err hassemble
  | .link hcarried hall hcause hyields hlink => by
    obtain ⟨fuel, h⟩ := exists_raiseValue_eq hcarried hall hcause hyields.convert
    exact ⟨fuel, h.trans (bind_of_err hlink)⟩

theorem Yields.convert {e : HostError T} {w w' : World types Ω} {x : ObjectId} :
    Yields M site e w x w' → ∃ fuel, M.convert site fuel e w = (.ok x, w')
  | .made hmakes => by
    obtain ⟨fuel, h⟩ := hmakes.raiseValue
    exact ⟨fuel + 1, bind_of_ok (attempt_of_ok h)⟩
  | .failed hmisses hmakes => by
    obtain ⟨fuel, hfirst, hsecond⟩ :=
      exists_raiseValue_both hmisses.raiseValue hmakes.raiseValue nofun
    refine ⟨fuel + 1, (bind_of_ok (attempt_of_err hfirst)).trans ?_⟩
    exact bind_of_ok (attempt_of_ok hsecond)
  | .systemError hmisses hmisses' hbare => by
    obtain ⟨fuel, hfirst, hsecond⟩ :=
      exists_raiseValue_both hmisses.raiseValue hmisses'.raiseValue nofun
    refine ⟨fuel + 1, (bind_of_ok (attempt_of_err hfirst)).trans ?_⟩
    exact (bind_of_ok (attempt_of_err hsecond)).trans (bind_of_ok (attempt_of_ok hbare))
  | .nothing hmisses hmisses' hbare => by
    obtain ⟨fuel, hfirst, hsecond⟩ :=
      exists_raiseValue_both hmisses.raiseValue hmisses'.raiseValue nofun
    refine ⟨fuel + 1, (bind_of_ok (attempt_of_err hfirst)).trans ?_⟩
    exact (bind_of_ok (attempt_of_err hsecond)).trans (bind_of_ok (attempt_of_err hbare))

end

/-- **The conversion of an error.** It yields an exception just if `convert` returns it with enough
fuel. -/
theorem yields_iff_convert {x : ObjectId} :
    Yields M site e w x w' ↔ ∃ fuel, M.convert site fuel e w = (.ok x, w') := by
  refine ⟨Yields.convert, fun ⟨fuel, h⟩ => ?_⟩
  rcases yields_of_convert h with hstuck | ⟨y, hok, hyields⟩
  · cases hstuck
  · cases hok
    exact hyields

end GuestPy.Raising
