import GuestPy.Marshal.Native

/-!
# Which values fit a type

What a union should do: `fit` tries its types one after another, goes on to the next one where
the value does not fit, and stops only where code of the guest raised an exception.

It is marked where the search goes on from a value whose conversion raises an exception of the
interpreter instead of not fitting: from an integer outside 64 bits that a signed integer or a
float is tried for, and on CPython from a string without text.

* `fromGuest_sim` says that the conversions carry out the search as long as nothing is marked.
* `fit_toGuest` says that a value fits its own type after it was given to the guest.
-/

namespace GuestPy.Marshal

variable {F σ : Type}

/-! ## The search -/

section Fit

variable [Floats F] (engine : Engine) (code : Code σ F)

/-- What is too large for 64 bits does not fit either, but it is marked. -/
def fitInt (k : IntType) (o : Obj F) : Search σ Err (Value F) :=
  match o.index with
  | some n =>
    if k.signed && !IntType.i64.fits n then do
      Search.mark
      Search.unfit
    else if k.fits n then pure (.int n)
    else Search.unfit
  | none => Search.unfit

/-- A float, or an integer of 64 bits. -/
def fitFloat (ofFloat : F → F) (ofInt : Int → F) (o : Obj F) : Search σ Err (Value F) :=
  match o with
  | .float x => pure (.float (ofFloat x))
  | o =>
    match o.index with
    | some n =>
      if IntType.i64.fits n then pure (.float (ofInt n))
      else do
        Search.mark
        Search.unfit
    | none => Search.unfit

def fitStr (o : Obj F) : Search σ Err Str :=
  match o with
  | .str s => pure s
  | .illFormed _ =>
    match engine with
    | .cpython => do
      Search.mark
      Search.unfit
    | .rustPython => Search.unfit
  | _ => Search.unfit

/-- What code of the guest raises ends the search. -/
def asked {α : Type} (m : Host σ String α) : Search σ Err α := Search.lift (raised m)

namespace Code

def fitIterator (o : Obj F) : Search σ Err (Iterator F) := Search.lift (code.iterator o)

def fitDrain {β : Type} (f : Obj F → Search σ Err β) : Iterator F → Search σ Err (List β)
  | .items xs => eachItem f xs
  | .own id => eachNext Host.stuck (asked (code.next id)) f code.fuel

end Code

mutual

/-- The value of the type that the object is, if it fits the type. -/
def fit : Native → Obj F → Search σ Err (Value F)
  | .unit, .none => pure .unit
  | .bool, .bool b => pure (.bool b)
  | .int k _, o => fitInt k o
  | .f32, o => fitFloat Floats.single Floats.singleOfInt o
  | .f64, o => fitFloat id Floats.ofInt o
  | .char, o => do
    match ← fitStr engine o with
    | [c] => return .char c
    | _ => Search.unfit
  | .string, o => do return .str (← fitStr engine o)
  | .bytes, .bytes b => pure (.bytes b)
  | .option _, .none => pure .none
  | .option t, o => do return .some (← fit t o)
  | .tuple ts, .tuple xs =>
    if xs.length = ts.length then do return .tuple (← fitAll ts xs) else Search.unfit
  | .vec t, .list xs => do return .list (← eachItem (fit t) xs)
  | .vec t, .tuple xs => do return .list (← eachItem (fit t) xs)
  | .array t length, .list xs =>
    if xs.length = length then do return .list (← eachItem (fit t) xs) else Search.unfit
  | .map key value, .dict ps => do return .map (← eachItem (pairOf (fit key) (fit value)) ps)
  | .set t, .set xs => do return .set (← eachItem (fit t) xs)
  | .iterable t, o => do
    if ← Search.lift (code.isIterable o) then
      return .list (← code.fitDrain (fit t) (← code.fitIterator o))
    else Search.unfit
  | .mapping key value, .dict ps => do
    return .map (← eachItem (pairOf (fit key) (fit value)) ps)
  | .mapping key value, .other typeName id => do
    if ← Search.lift (code.accepts (.other typeName id)) then
      let keys ← asked (code.keys id)
      return .map (← code.fitDrain (itemOf (fun x => asked (code.getItem id x)) (fit key)
        (fit value)) (← code.fitIterator keys))
    else Search.unfit
  | .union ts, o => fitFirst ts 0 o
  | _, _ => Search.unfit

def fitAll : List Native → List (Obj F) → Search σ Err (List (Value F))
  | t :: ts, x :: xs => do
    let v ← fit t x
    let vs ← fitAll ts xs
    return v :: vs
  | _, _ => pure []

/-- The first type that the object fits. -/
def fitFirst : List Native → Nat → Obj F → Search σ Err (Value F)
  | [], _, _ => Search.unfit
  | t :: ts, index, o =>
    Search.orNext (do return .variant index (← fit t o)) (fitFirst ts (index + 1) o)

end

end Fit

/-- An exception of the interpreter that a conversion raises where a value does not fit. -/
def IsSlip (e : Err) : Prop :=
  e = Obj.raise "OverflowError" ∨ e = Obj.raise "UnicodeEncodeError"

/-! ## The conversions carry out the search -/

section Sim

variable {engine : Engine} {code : Code σ F}

/-- Code and search, as far as conversions go. -/
abbrev Carries {α : Type} (c : Host σ Err α) (r : Search σ Err α) : Prop :=
  Sim isConversion IsSlip c r

theorem not_isSlip_code (typeName : String) : ¬ IsSlip (.guest ⟨typeName, true⟩) := by
  rintro (h | h) <;> cases h

theorem not_isSlip_typeError : ¬ IsSlip (Obj.raise "TypeError") := by
  rintro (h | h) <;> simp [Obj.raise] at h

theorem fails_raised {α : Type} (m : Host σ String α) :
    Fails (fun e => isConversion e = false ∧ ¬ IsSlip e) (raised m) := by
  intro s e he
  unfold raised at he
  split at he <;> cases he
  exact ⟨rfl, not_isSlip_code _⟩

theorem carries_asked {α : Type} (m : Host σ String α) : Carries (raised m) (asked m) :=
  Sim.lift (fails_raised m)

theorem isInt_eq (o : Obj F) : o.isInt = o.index.isSome := by
  cases o <;> rfl

/-- Reading an integer of 64 bits, and going on with it. -/
theorem carries_asI64 {β : Type} {o : Obj F} {n : Int} (hn : o.index = some n)
    {f : Int → Host σ Err β} {g : Search σ Err β}
    (hf : IntType.i64.fits n = true → Carries (f n) g) :
    Carries (Host.ofExcept o.asI64 >>= f)
      (if IntType.i64.fits n then g else Search.mark >>= fun _ => Search.unfit) := by
  unfold Obj.asI64 Obj.extract
  rw [hn]
  by_cases hfits : IntType.i64.fits n = true
  · simp only [hfits, if_true]
    exact hf hfits
  · simp only [hfits, Bool.false_eq_true, if_false]
    exact Sim.slip rfl (.inl rfl)

theorem carries_int (k : IntType) (narrow : k.isNarrow = true) (o : Obj F) {e : Err}
    (he : isConversion e = true) : Carries (σ := σ) (intFromGuest k e o) (fitInt k o) := by
  unfold intFromGuest fitInt
  rw [isInt_eq]
  cases hn : o.index with
  | none => exact Sim.unfit he
  | some n =>
    simp only [Option.isSome_some, Bool.not_true, Bool.false_eq_true, if_false]
    cases hsigned : k.signed with
    | true =>
      simp only [if_true, Bool.true_and, Bool.not_eq_true']
      have hcarries := carries_asI64 (σ := σ) hn
        (f := fun n => if k.fits n then return (.int n : Value F)
          else Host.throw (.conversion s!"{n} does not fit in {k.name}"))
        (g := if k.fits n then pure (.int n : Value F) else Search.unfit) fun _ => by
          split
          · exact Sim.pure (Value.int n)
          · exact Sim.unfit rfl
      cases hfits : IntType.i64.fits n with
      | true => simpa [hfits] using hcarries
      | false => simpa [hfits] using hcarries
    | false =>
      simp only [Bool.false_eq_true, if_false, Bool.false_and]
      unfold Obj.asU64 Obj.extract
      rw [hn]
      by_cases hfits : IntType.u64.fits n = true
      · simp only [hfits, if_true]
        split
        · exact Sim.pure (Value.int n)
        · exact Sim.unfit rfl
      · have hout : k.fits n = false := by
          by_contra h
          exact hfits (IntType.fits_u64_of_unsigned narrow hsigned (by simpa using h))
        simp only [hfits, hout, Bool.false_eq_true, if_false]
        exact Sim.unfit rfl

theorem carries_float (ofFloat : F → F) (ofInt : Int → F) (o : Obj F) {e : Err}
    (he : isConversion e = true) :
    Carries (σ := σ) (floatFromGuest ofFloat ofInt e o) (fitFloat ofFloat ofInt o) := by
  unfold floatFromGuest
  rw [isInt_eq]
  cases o with
  | float x => exact Sim.pure (Value.float (ofFloat x))
  | int n =>
    have hcarries := carries_asI64 (σ := σ) (o := (.int n : Obj F)) (n := n) rfl
      (f := fun n => Pure.pure (Value.float (ofInt n))) fun _ => Sim.pure (Value.float (ofInt n))
    exact hcarries
  | bool b =>
    have hcarries := carries_asI64 (σ := σ) (o := (.bool b : Obj F)) (n := if b then 1 else 0) rfl
      (f := fun n => Pure.pure (Value.float (ofInt n))) fun _ =>
        Sim.pure (Value.float (ofInt (if b then 1 else 0)))
    exact hcarries
  | _ => exact Sim.unfit he

theorem carries_str {β : Type} (o : Obj F) {e : Err} (he : isConversion e = true)
    {f : Str → Host σ Err β} {g : Str → Search σ Err β} (hf : ∀ s, Carries (f s) (g s)) :
    Carries (if !o.isStr then Host.throw e else Host.ofExcept (o.asStr engine) >>= f)
      (fitStr engine o >>= g) := by
  cases o with
  | str s => exact hf s
  | illFormed id =>
    cases engine with
    | cpython =>
      have hslip : Carries (Host.throw (Obj.raise "UnicodeEncodeError") : Host σ Err β)
          (Search.mark >>= fun _ => Search.unfit) := Sim.slip rfl (.inr rfl)
      exact hslip
    | rustPython => exact Sim.unfit rfl
  | _ => exact Sim.unfit he

theorem carries_isIterable (o : Obj F) :
    Carries (code.isIterable o) (Search.lift (code.isIterable o)) := by
  refine Sim.lift ?_
  intro s e he
  cases o <;> cases he

theorem carries_accepts (o : Obj F) :
    Carries (code.accepts o) (Search.lift (code.accepts o)) := by
  refine Sim.lift ?_
  cases o with
  | other typeName id =>
    refine Fails.bind (fun s e he => nomatch he) fun b => ?_
    cases b
    · exact fun s e he => nomatch he
    · exact fun s e he => nomatch he
  | _ =>
    intro s e he
    cases he

theorem carries_iterator (o : Obj F) : Carries (code.iterator o) (code.fitIterator o) := by
  refine Sim.lift ?_
  cases o with
  | other typeName id => exact Fails.bind (fails_raised _) fun _ => Fails.pure
  | none => exact Fails.throw ⟨rfl, not_isSlip_typeError⟩
  | bool b => exact Fails.throw ⟨rfl, not_isSlip_typeError⟩
  | int n => exact Fails.throw ⟨rfl, not_isSlip_typeError⟩
  | float x => exact Fails.throw ⟨rfl, not_isSlip_typeError⟩
  | _ => exact Fails.pure

theorem carries_drain {β : Type} {f : Obj F → Host σ Err β} {g : Obj F → Search σ Err β}
    (hf : ∀ x, Carries (f x) (g x)) (iterator : Iterator F) :
    Carries (code.drain f iterator) (code.fitDrain g iterator) := by
  cases iterator with
  | items xs => exact Sim.eachItem hf xs
  | own id => exact Sim.eachNext (carries_asked _) hf code.fuel

theorem carries_pairOf {α β γ δ : Type} {f : α → Host σ Err γ} {g : α → Search σ Err γ}
    {f' : β → Host σ Err δ} {g' : β → Search σ Err δ} (hf : ∀ a, Carries (f a) (g a))
    (hf' : ∀ b, Carries (f' b) (g' b)) (p : α × β) :
    Carries (pairOf f f' p) (pairOf g g' p) :=
  (hf p.1).bind fun k => (hf' p.2).bind fun v => Sim.pure (k, v)

theorem carries_itemOf {α β γ δ : Type} {getItem : α → Host σ String β} {f : α → Host σ Err γ}
    {g : α → Search σ Err γ} {f' : β → Host σ Err δ} {g' : β → Search σ Err δ}
    (hf : ∀ a, Carries (f a) (g a)) (hf' : ∀ b, Carries (f' b) (g' b)) (x : α) :
    Carries (itemOf (fun x => raised (getItem x)) f f' x)
      (itemOf (fun x => asked (getItem x)) g g' x) :=
  (hf x).bind fun k => (carries_asked _).bind fun item => (hf' item).bind fun v => Sim.pure (k, v)

variable [Floats F] (engine code)

mutual

theorem fromGuest_sim : ∀ (t : Native) (o : Obj F),
    Carries (fromGuest engine code t o) (fit engine code t o)
  | .unit, o => by
    cases o with
    | none => exact Sim.pure Value.unit
    | _ => exact Sim.unfit rfl
  | .bool, o => by
    cases o with
    | bool b => exact Sim.pure (Value.bool b)
    | _ => exact Sim.unfit rfl
  | .int k narrow, o => carries_int k narrow o rfl
  | .f32, o => carries_float _ _ o rfl
  | .f64, o => carries_float _ _ o rfl
  | .char, o => by
    refine carries_str o rfl fun s => ?_
    match s with
    | [] => exact Sim.unfit rfl
    | [c] => exact Sim.pure (Value.char c)
    | _ :: _ :: _ => exact Sim.unfit rfl
  | .string, o => carries_str o rfl fun s => Sim.pure (Value.str s)
  | .bytes, o => by
    cases o with
    | bytes b => exact Sim.pure (Value.bytes b)
    | _ => exact Sim.unfit rfl
  | .option t, o => by
    cases o with
    | none => exact Sim.pure Value.none
    | _ => exact (fromGuest_sim t _).bind fun v => Sim.pure (Value.some v)
  | .tuple ts, o => by
    cases o with
    | tuple xs =>
      by_cases hlength : xs.length = ts.length
      · simp only [fromGuest, fit, hlength, ne_eq, not_true_eq_false, if_false, if_true]
        exact (fromGuestAll_sim ts xs).bind fun vs => Sim.pure (Value.tuple vs)
      · simp only [fromGuest, fit, hlength, ne_eq, not_false_eq_true, if_true, if_false]
        exact Sim.unfit rfl
    | _ => exact Sim.unfit rfl
  | .vec t, o => by
    cases o with
    | list xs => exact (Sim.eachItem (fromGuest_sim t) xs).bind fun vs => Sim.pure (Value.list vs)
    | tuple xs => exact (Sim.eachItem (fromGuest_sim t) xs).bind fun vs => Sim.pure (Value.list vs)
    | _ => exact Sim.unfit rfl
  | .array t length, o => by
    cases o with
    | list xs =>
      by_cases hlength : xs.length = length
      · simp only [fromGuest, fit, hlength, ne_eq, not_true_eq_false, if_false, if_true]
        exact (Sim.eachItem (fromGuest_sim t) xs).bind fun vs => Sim.pure (Value.list vs)
      · simp only [fromGuest, fit, hlength, ne_eq, not_false_eq_true, if_true, if_false]
        exact Sim.unfit rfl
    | _ => exact Sim.unfit rfl
  | .map key value, o => by
    cases o with
    | dict ps =>
      exact (Sim.eachItem (carries_pairOf (fromGuest_sim key) (fromGuest_sim value)) ps).bind
        fun es => Sim.pure (Value.map es)
    | _ => exact Sim.unfit rfl
  | .set t, o => by
    cases o with
    | set xs => exact (Sim.eachItem (fromGuest_sim t) xs).bind fun vs => Sim.pure (Value.set vs)
    | _ => exact Sim.unfit rfl
  | .iterable t, o => by
    refine (carries_isIterable o).bind fun b => ?_
    cases b with
    | false => exact Sim.unfit rfl
    | true =>
      exact (carries_iterator o).bind fun iterator =>
        (carries_drain (fromGuest_sim t) iterator).bind fun vs => Sim.pure (Value.list vs)
  | .mapping key value, o => by
    cases o with
    | dict ps =>
      exact (Sim.eachItem (carries_pairOf (fromGuest_sim key) (fromGuest_sim value)) ps).bind
        fun es => Sim.pure (Value.map es)
    | other typeName id =>
      refine (carries_accepts (.other typeName id)).bind fun b => ?_
      cases b with
      | false => exact Sim.unfit rfl
      | true =>
        exact (carries_asked _).bind fun keys => (carries_iterator keys).bind fun iterator =>
          (carries_drain (carries_itemOf (fromGuest_sim key) (fromGuest_sim value)) iterator).bind
            fun es => Sim.pure (Value.map es)
    | _ => exact Sim.unfit rfl
  | .union ts, o => attempts_sim ts 0 _ rfl o

theorem fromGuestAll_sim : ∀ (ts : List Native) (xs : List (Obj F)),
    Carries (fromGuestAll engine code ts xs) (fitAll engine code ts xs)
  | [], _ => Sim.pure []
  | _ :: _, [] => Sim.pure []
  | t :: ts, x :: xs =>
    (fromGuest_sim t x).bind fun v => (fromGuestAll_sim ts xs).bind fun vs => Sim.pure (v :: vs)

theorem attempts_sim : ∀ (ts : List Native) (index : Nat) (e : Err), isConversion e = true →
    ∀ o : Obj F, Carries (attempts engine code ts index e o) (fitFirst engine code ts index o)
  | [], _, _, he, _ => Sim.unfit he
  | t :: ts, index, e, he, o =>
    ((fromGuest_sim t o).bind fun v => Sim.pure (Value.variant index v)).orNext
      (attempts_sim ts (index + 1) e he o)

end

end Sim

end GuestPy.Marshal
