import GuestPy.Guest.Causes
import GuestPy.Guest.Instances

/-!
# Errors become exceptions

The conversion of an error does not fail. It comes to the exception that the error asks for, or to
that of the first part that fails, or to a bare `SystemError`. What a failing cause comes to is
linked, and the exception that it is the cause of is still made.

* `Whole` says that every part converts, of the error and of all its causes, and `FirstFailure`
  that one of them fails.
* `convert_yields`: what a conversion comes to, and when it comes to an end.
-/

namespace GuestPy.Raising

open Exceptions Host
open Boundary (Site)

section

variable {types : TypeId → HostException} {Ω T : Type}

/-! ## Whole chains -/

/-- Every part converts, of the error and of all its causes. -/
inductive Whole (M : Backend types Ω T) (site : Site) :
    HostError T → World types Ω → ObjectId → World types Ω → Prop
  | carried {e : HostError T} {w : World types Ω} {x : ObjectId} :
    e.carried = some x → Whole M site e w x w
  | alone {e : HostError T} {w w' : World types Ω} {x : ObjectId} :
    e.carried = none → Assembled M site e.asRaise w x w' → e.asRaise.cause = none →
    Whole M site e w x w'
  | caused {e cause : HostError T} {w w₁ w₂ w' : World types Ω} {x y : ObjectId} :
    e.carried = none → Assembled M site e.asRaise w x w₁ → e.asRaise.cause = some cause →
    Whole M site cause w₁ y w₂ → M.linkCause x y w₂ = (.ok (), w') → Whole M site e w x w'

/-- A part fails, of the error or of its causes, and those before it convert. -/
inductive FirstFailure (M : Backend types Ω T) (site : Site) :
    HostError T → World types Ω → HostError T → World types Ω → Prop
  | part {e e₁ : HostError T} {w w' : World types Ω} :
    e.carried = none → Stops M site e.asRaise w e₁ w' → FirstFailure M site e w e₁ w'
  | cause {e e₁ cause : HostError T} {w w₁ w' : World types Ω} {x : ObjectId} :
    e.carried = none → Assembled M site e.asRaise w x w₁ → e.asRaise.cause = some cause →
    FirstFailure M site cause w₁ e₁ w' → FirstFailure M site e w e₁ w'
  | link {e e₁ cause : HostError T} {w w₁ w₂ w' : World types Ω} {x y : ObjectId} :
    e.carried = none → Assembled M site e.asRaise w x w₁ → e.asRaise.cause = some cause →
    Whole M site cause w₁ y w₂ → M.linkCause x y w₂ = (.err e₁, w') →
    FirstFailure M site e w e₁ w'

/-- Where a `SystemError` can be constructed, the conversion comes to an exception: to the object of
the error, or to the exception that it asks for if every part converts, or else to that of the first
part that fails. -/
def AsClaimed (M : Backend types Ω T) (site : Site) (base system : ObjectId) (e : HostError T)
    (w : World types Ω) : Prop :=
  (∀ w, Intact base system w.interpreter → ∃ x w', M.bareSystemError site w = (.ok x, w')) →
    ∃ fuel x w', M.convert site fuel e w = (.ok x, w') ∧ Instance w'.interpreter x base ∧
      (∀ y, e.carried = some y → x = y) ∧ (∀ y w₁, Whole M site e w y w₁ → x = y) ∧
      ∀ e₁ w₁, FirstFailure M site e w e₁ w₁ → ∀ y w₂, Whole M site e₁ w₁ y w₂ → x = y

variable {M : Backend types Ω T} {site : Site} {e : HostError T} {w w' : World types Ω}
  {x : ObjectId}

theorem Whole.makes (h : Whole M site e w x w') : Makes M site e w x w' := by
  induction h with
  | carried hcarried => exact .carried hcarried
  | alone hcarried hall hcause => exact .alone hcarried hall hcause
  | caused hcarried hall hcause _ hlink ih =>
    exact .caused hcarried hall hcause (.made ih) hlink

theorem made_of_makes {base system : ObjectId} (hM : Ordinary M base system)
    (hw : Intact base system w.interpreter) (he : Sane base e w) (h : Makes M site e w x w')
    (hcarried : e.carried = none) : Made M site base e.asRaise.class w x w' := by
  obtain ⟨fuel, hfuel⟩ := h.raiseValue
  have hconvert : ∀ cause w, Sane base cause w →
      Proceeds base system w (M.convert site fuel cause) fun y w' =>
        Instance w'.interpreter y base := fun _ _ h => proceeds_convert hM fuel h
  exact ((proceeds_raiseValue hM hconvert fuel he).of_eq_ok hw hfuel).2 hcarried

theorem instance_of_yields {base system : ObjectId} (hM : Ordinary M base system)
    (hw : Intact base system w.interpreter) (he : Sane base e w) (h : Yields M site e w x w') :
    Instance w'.interpreter x base := by
  obtain ⟨fuel, hfuel⟩ := h.convert
  exact (proceeds_convert hM fuel he).of_eq_ok hw hfuel

end

/-- **Errors become exceptions.** A conversion comes to an end just if its lookups do and the
conversions that it calls for. It does not fail, and what it returns is the object of the error,
or the exception that it asks for if every part converts, the cause being converted on its own, or
else the exception of the first part that fails, or else a `SystemError`. In an ordinary guest
that is an exception, and one of the class that was asked for if every part converts. -/
theorem convert_yields {types : TypeId → HostException} {Ω T : Type} (M : Backend types Ω T)
    (site : Site) (e : HostError T) (w : World types Ω) :
    ((∃ fuel, (M.convert site fuel e w).1 ≠ .stuck) ↔ Ends M site e w) ∧
      (∀ fuel o w', M.convert site fuel e w = (o, w') →
        o = .stuck ∨ ∃ x, o = .ok x ∧ Yields M site e w x w') ∧
      (∀ x w', Whole M site e w x w' → ∃ fuel, M.convert site fuel e w = (.ok x, w')) ∧
      ∀ base system, Ordinary M base system → Intact base system w.interpreter → Sane base e w →
        (∀ x w', Yields M site e w x w' → Instance w'.interpreter x base) ∧
          ∀ x w', Makes M site e w x w' → e.carried = none →
            Made M site base e.asRaise.class w x w' :=
  ⟨exists_convert_ne_stuck_iff, fun _ _ _ => yields_of_convert,
    fun _ _ h => (Yields.made h.makes).convert,
    fun _ _ hM hw he => ⟨fun _ _ => instance_of_yields hM hw he,
      fun _ _ => made_of_makes hM hw he⟩⟩

/-! ## A guest -/

def noTypes : TypeId → HostException := fun _ => ⟨"Error".toList, .builtin "Exception".toList⟩

/-- Some builtins, and a class `Odd` of the module `app`. -/
def stock : Interpreter noTypes where
  heap :=
    { objects := fun x =>
        match x with
        | 0 => builtinClass "type" [0]
        | 1 => builtinClass "BaseException" [1]
        | 2 => builtinClass "Exception" [2, 1]
        | 3 => builtinClass "KeyError" [3, 2, 1]
        | 4 => builtinClass "SystemError" [4, 2, 1]
        | 5 => builtinClass "ValueError" [5, 2, 1]
        | 6 => builtinClass "NoneType" [6]
        | 7 => Interpreter.instanceOf 6 none none
        | 8 => builtinClass "bool" [8]
        | 9 => Interpreter.instanceOf 8 none none
        | 10 => builtinClass "str" [10]
        | 11 => { builtinClass "Odd" [11, 2, 1] with module := some "app".toList }
        | _ => Interpreter.instanceOf 6 none none
      next := 12 }
  builtins := fun name =>
    if name = "type".toList then some 0
    else if name = "BaseException".toList then some 1
    else if name = "Exception".toList then some 2
    else if name = "KeyError".toList then some 3
    else if name = "SystemError".toList then some 4
    else if name = "ValueError".toList then some 5
    else none
  keyError := 3
  cache := .new

/-- Two values of the host program. One refuses to be converted. The other one fails with an error
whose cause has the same value as its argument. -/
inductive Refusal where
  | plain
  | again

def valueError : Raise Refusal := .new (.builtin "ValueError".toList)

def Refusal.error : Refusal → HostError Refusal
  | plain => .raise valueError
  | again => .raise (valueError.withCause (.raise (valueError.arg .again)))

/-- The attributes that have been assigned. -/
abbrev Attributes := List (ObjectId × Str × ObjectId)

def newInstance (c : ObjectId) (text : Option Str) (w : World noTypes Attributes) :
    ObjectId × World noTypes Attributes :=
  (w.interpreter.heap.next, { w with
    interpreter := w.interpreter.withHeap fun h =>
      (h.allocate fun _ => Interpreter.instanceOf c text none).2 })

/-- A guest without modules. A call of a class returns a new instance. -/
def emptyGuest : Backend noTypes Attributes Refusal where
  str text w :=
    -- the class of strings is there from the start
    if 10 < w.interpreter.heap.next then newInstance 10 (some text) w
    else (w.interpreter.keyError, w)
  noneObject := 7
  trueObject := 9
  toGuest t w := (.error t.error, w)
  qualified module _ w :=
    (.error (.plain (.import (String.ofList module) "no such module")), w)
  call c _ w := (.ok (newInstance c none w).1, (newInstance c none w).2)
  setAttr x name y w := (.ok (), { w with rest := (x, name, y) :: w.rest })

/-- A guest with the class `Odd`, whose `__new__` returns `None`. -/
def oddGuest : Backend noTypes Attributes Refusal :=
  { emptyGuest with
    qualified := fun module qualname w =>
      if module = "app".toList ∧ qualname = "Odd".toList then (.ok 11, w)
      else (.error (.plain (.import (String.ofList module) "no such module")), w)
    call := fun c values w => if c = 11 then (.ok 7, w) else emptyGuest.call c values w }

def startWorld : World noTypes Attributes := ⟨stock, []⟩

/-- An exception whose cause has an argument that refuses to be converted. -/
def brokenCause : HostError Refusal :=
  .raise ((Raise.new (.builtin "Exception".toList)).withCause (.raise (valueError.arg .plain)))

def oddRaise : HostError Refusal := .raise (Raise.new (.guest "app".toList "Odd".toList))

def endlessRaise : HostError Refusal := .raise (valueError.arg .again)

theorem intact_stock : Intact 1 4 stock where
  baseException := rfl
  systemError := rfl
  derived := by decide
  keyError := by decide
  keyDerived := by decide
  builtins := by
    intro name c h
    change (if _ then _ else _) = some c at h
    repeat' split at h
    all_goals first
      | cases h
        decide
      | cases h
  realised := nofun
  classes := by
    intro x hx
    have hlt : x < 12 := hx
    interval_cases x <;> decide
  own := by
    intro c hc
    have hlt : c < 12 := hc
    interval_cases c <;> decide

theorem behaves_newInstance {base system c : ObjectId} (text : Option Str)
    {w : World noTypes Attributes} (hw : Intact base system w.interpreter)
    (hc : c < w.interpreter.heap.next) :
    Intact base system (newInstance c text w).2.interpreter ∧
      Kept w.interpreter (newInstance c text w).2.interpreter :=
  ⟨intact_allocate hw hc (Or.inl rfl),
    kept_of_quiet hw (ExceptionRealiser.quiet_allocate _ w.interpreter)⟩

theorem sane_refusal (base : ObjectId) (t : Refusal) (w : World noTypes Attributes) :
    Sane base t.error w := by
  intro x hx
  cases t with
  | plain =>
    cases hx with
    | here hcarried => cases hcarried
    | cause hcause _ => cases hcause
  | again =>
    cases hx with
    | here hcarried => cases hcarried
    | cause hcause hx =>
      cases hcause
      cases hx with
      | here hcarried => cases hcarried
      | cause hcause _ => cases hcause

theorem ordinary_emptyGuest (base system : ObjectId) : Ordinary emptyGuest base system where
  str text w hw := by
    change Intact base system (if _ then _ else _ : ObjectId × World noTypes Attributes).2.1 ∧ _
    unfold emptyGuest
    dsimp only
    split
    · next hlt => exact behaves_newInstance _ hw hlt
    · exact ⟨hw, .refl _⟩
  toGuest t w hw := by
    refine ⟨hw, .refl _, fun e he => ?_⟩
    cases he
    exact sane_refusal base t w
  qualified module qualname w hw := by
    refine ⟨hw, .refl _, fun e he => ?_⟩
    cases he
    exact sane_plain nofun
  allocated := nofun
  call c values w hw hc :=
    ⟨(behaves_newInstance none hw hc).1, (behaves_newInstance none hw hc).2, nofun⟩
  instances c values w x _ hc hx b hb := by
    cases hx
    exact instance_allocate hc hb
  setAttr x name y w hw := ⟨hw, .refl _, nofun⟩
  constructs w _ := ⟨_, _, rfl⟩

/-- A conversion that has ended ends alike with any fuel. -/
theorem eq_of_convert {types : TypeId → HostException} {Ω T : Type} {M : Backend types Ω T}
    {site : Site} {e : HostError T} {w w' : World types Ω} {x : ObjectId} {fuel : Nat}
    (h : M.convert site fuel e w = (.ok x, w')) (fuel' : Nat)
    (h' : (M.convert site fuel' e w).1 ≠ .stuck) : M.convert site fuel' e w = (.ok x, w') := by
  rw [← h]
  exact Below.unique (fun fuel => M.convert site fuel e) (fun fuel => below_convert fuel e) h'
    (ne_stuck_of_ok h)

theorem emptyGuest_constructs (w : World noTypes Attributes) (hw : Intact 1 4 w.interpreter) :
    ∃ x w', emptyGuest.bareSystemError .guest w = (.ok x, w') :=
  ⟨_, _, bareSystemError_eq_ok hw rfl⟩

theorem oddGuest_constructs (w : World noTypes Attributes) (hw : Intact 1 4 w.interpreter) :
    ∃ x w', oddGuest.bareSystemError .guest w = (.ok x, w') :=
  ⟨_, _, bareSystemError_eq_ok hw rfl⟩

/-- The exception is made, and the part of its cause that fails is the cause. -/
theorem not_asClaimed_brokenCause :
    ¬ AsClaimed emptyGuest .guest 1 4 brokenCause startWorld := by
  intro h
  obtain ⟨fuel, x, w', hconvert, -, -, -, hfirst⟩ := h emptyGuest_constructs
  have houter : (emptyGuest.convert .guest 3 brokenCause startWorld).1 = .ok x :=
    congrArg Prod.fst (eq_of_convert hconvert 3 nofun)
  have hargs : (valueError.arg .plain).args = [] ++ .guest (.value .plain) :: [] := rfl
  have hinner : x = 13 := hfirst _ _
    (.cause rfl (.intro ⟨0, rfl⟩ (.nil _) rfl (.nil _)) rfl
      (.part rfl (.argument ⟨0, rfl⟩ hargs (.nil _) rfl))) 13 _
    (.alone rfl (.intro ⟨0, rfl⟩ (.nil _) rfl (.nil _)) rfl)
  subst hinner
  cases houter

/-- What the class returns is not an exception. -/
theorem not_asClaimed_oddRaise : ¬ AsClaimed oddGuest .guest 1 4 oddRaise startWorld := by
  intro h
  obtain ⟨fuel, x, w', hconvert, hinstance, -⟩ := h oddGuest_constructs
  cases eq_of_convert hconvert 3 nofun
  exact absurd hinstance (by decide)

/-- The classes that endless conversions need. -/
structure Stocked (w : World noTypes Attributes) : Prop where
  baseException : w.interpreter.builtins "BaseException".toList = some 1
  valueError : w.interpreter.builtins "ValueError".toList = some 5
  allocated : 5 < w.interpreter.heap.next
  derived : 1 ∈ (w.interpreter.heap.objects 5).mro

theorem Stocked.newInstance {w : World noTypes Attributes} (h : Stocked w) (c : ObjectId)
    (text : Option Str) : Stocked (newInstance c text w).2 where
  baseException := h.baseException
  valueError := h.valueError
  allocated := h.allocated.trans (Nat.lt_succ_self _)
  derived := by
    change 1 ∈ ((w.interpreter.withHeap _).heap.objects 5).mro
    rw [(ExceptionRealiser.quiet_allocate _ w.interpreter).objects _ h.allocated]
    exact h.derived

/-- The second error has a cause that fails as the first error did. -/
theorem not_ends_endlessRaise {w : World noTypes Attributes} (hw : Stocked w) :
    ¬ Ends emptyGuest .guest endlessRaise w := by
  intro h
  generalize he : endlessRaise = e at h
  induction h with
  | @intro e w _ _ _ ih =>
    subst he
    have hfound : Found emptyGuest .guest valueError.class w 5 w :=
      ⟨0, classOf_builtin_eq_ok hw.baseException hw.valueError hw.derived⟩
    have hargs : (valueError.arg .again).args = [] ++ .guest (.value .again) :: [] := rfl
    have hmisses : Misses emptyGuest .guest endlessRaise w Refusal.again.error w :=
      .part rfl (.argument hfound hargs (.nil _) rfl)
    have hasks : Asks emptyGuest .guest Refusal.again.error w endlessRaise
        (newInstance 5 none w).2 :=
      ⟨rfl, ⟨_, .intro hfound (.nil _) rfl (.nil _)⟩, rfl⟩
    exact ih endlessRaise _ (.second hmisses hasks) (hw.newInstance 5 none) rfl

theorem not_asClaimed_endlessRaise :
    ¬ AsClaimed emptyGuest .guest 1 4 endlessRaise startWorld := by
  intro h
  obtain ⟨fuel, x, w', hconvert, -⟩ := h emptyGuest_constructs
  have hends : Ends emptyGuest .guest endlessRaise startWorld :=
    exists_convert_ne_stuck_iff.mp ⟨fuel, ne_stuck_of_ok hconvert⟩
  exact not_ends_endlessRaise ⟨rfl, rfl, by decide, by decide⟩ hends

theorem not_always_asClaimed :
    ¬ AsClaimed emptyGuest .guest 1 4 brokenCause startWorld ∧
      ¬ AsClaimed oddGuest .guest 1 4 oddRaise startWorld ∧
      ¬ AsClaimed emptyGuest .guest 1 4 endlessRaise startWorld :=
  ⟨not_asClaimed_brokenCause, not_asClaimed_oddRaise, not_asClaimed_endlessRaise⟩

theorem sane_brokenCause : Sane 1 brokenCause startWorld := by
  intro x hx
  cases hx with
  | here hcarried => cases hcarried
  | cause hcause hx =>
    cases hcause
    cases hx with
    | here hcarried => cases hcarried
    | cause hcause _ => cases hcause

/-- The conversion with the broken cause yields an exception all the same. -/
theorem instance_brokenCause :
    ∃ fuel x w', emptyGuest.convert .guest fuel brokenCause startWorld = (.ok x, w') ∧
      Instance w'.interpreter x 1 := by
  obtain ⟨-, hyields, -, hproper⟩ := convert_yields emptyGuest .guest brokenCause startWorld
  obtain ⟨hinstance, -⟩ := hproper 1 4 (ordinary_emptyGuest 1 4) intact_stock sane_brokenCause
  rcases hyields 3 _ _ rfl with hstuck | ⟨x, hok, hx⟩
  · cases hstuck
  · cases hok
    exact ⟨3, _, _, rfl, hinstance _ _ hx⟩

end GuestPy.Raising
