import GuestPy.Driver.Driving

/-!
# Panics of a driver

A driver panics on an assertion about its slot, on a conversion of a number that is no
duration, and on arithmetic beyond the clock. Every panic is recorded with its cause
(`safe_perform`), and the law of each cause says what has to have happened before.

* `neverPanics_of_orderly`: an operation does not panic, at the end of any run whose steps
  take the driver from nobody, find it where `close` begins, write the slot undisturbed, and
  stay within durations and the clock.
* `not_neverPanics_of_nan` is a panic over a number that guest code has passed on.
-/

namespace GuestPy.Driver

namespace Event

/-- What happens is no panic. -/
def Calm : Event → Prop
  | panicked _ => False
  | _ => True

/-- What may happen without a panic coming of it. -/
def Orderly : Event → Prop
  | closing present => present = true
  | taking borrowed others => borrowed = false ∧ others = false
  | began writing => writing = false
  | recorded (some x) => x.nonpos = true ∨ x.isDuration = true
  | timed fits => fits = true
  | _ => True

instance : DecidablePred Calm := fun e =>
  match e with
  | panicked _ => inferInstanceAs (Decidable False)
  | polled .. | settled .. | inspected ..
  | published .. | suspended .. | pended .. | completed .. | returned .. | began .. | closing ..
  | taking .. | recorded .. | timed .. => inferInstanceAs (Decidable True)

instance : DecidablePred Orderly := fun e =>
  match e with
  | closing present => inferInstanceAs (Decidable (present = true))
  | taking borrowed others => inferInstanceAs (Decidable (borrowed = false ∧ others = false))
  | began writing => inferInstanceAs (Decidable (writing = false))
  | recorded (some x) => inferInstanceAs (Decidable (x.nonpos = true ∨ x.isDuration = true))
  | timed fits => inferInstanceAs (Decidable (fits = true))
  | polled .. | settled .. | inspected ..
  | published .. | suspended .. | pended .. | completed .. | returned .. | recorded none
  | panicked .. => inferInstanceAs (Decidable True)

end Event

/-- The cause of a panic is never an orderly event. -/
theorem not_panicked_of_orderly {events : List Event} {cause : Cause}
    (horderly : ∀ e ∈ events, e.Orderly) : ¬ (Event.panicked cause).Lawful events := by
  intro h
  cases cause with
  | absent =>
    rcases h with h | ⟨borrowed, h⟩
    · have hpresent : false = true := horderly _ h
      cases hpresent
    · have htaking : borrowed = false ∧ true = false := horderly _ h
      cases htaking.2
  | borrowed =>
    rcases h with h | ⟨inUse, h⟩
    · have hbegan : true = false := horderly _ h
      cases hbegan
    · have htaking : true = false ∧ inUse = false := horderly _ h
      cases htaking.1
  | duration =>
    obtain ⟨x, h, hpos, hduration⟩ := h
    have hrecorded : x.nonpos = true ∨ x.isDuration = true := horderly _ h
    rw [hpos, hduration] at hrecorded
    rcases hrecorded with hrecorded | hrecorded <;> cases hrecorded
  | instant =>
    have htimed : false = true := horderly _ h
    cases htimed

/-- An operation does not panic, and no operation in it has panicked. -/
def NeverPanics (code : Code) (fuel : Nat) (op : Op) (w : World) : Prop :=
  (drivers.perform code fuel op w).1 ≠ .panic ∧
    Every Event.Calm (drivers.perform code fuel op w).2

/-- **Nothing panics along a run whose steps are orderly.** -/
theorem neverPanics_of_orderly (guest : GuestId) (runtime : RuntimeInner) (code : Code)
    (fuel : Nat) (script : Script) (op : Op)
    (h : Every Event.Orderly
      (drivers.perform code fuel op (runScript guest runtime code fuel script)).2) :
    NeverPanics code fuel op (runScript guest runtime code fuel script) := by
  obtain ⟨hinv, -, -, hpanic⟩ :=
    safe_perform code fuel op _ (inv_run guest runtime code fuel script)
  have hcalm : Every Event.Calm
      (drivers.perform code fuel op (runScript guest runtime code fuel script)).2 := by
    intro e he
    cases e with
    | panicked cause => exact not_panicked_of_orderly h (hinv.lawful _ he)
    | _ => trivial
  constructor
  · intro hp
    obtain ⟨cause, hcause⟩ := hpanic hp
    exact hcalm _ hcause
  · exact hcalm

/-! ## A number from the guest -/

/-- The loop runs a callback, which asks the selector to wait for `delay`. -/
def selectingCode (delay : Number) : Code := fun _ call =>
  match call with
  | .runOnce =>
    .call (.select (some (.finite 0))) fun _ =>
      .call (.select (some delay)) fun _ => .ret (.ok default)
  | _ => .ret (.ok default)

/-- A runtime with one guest. -/
def oneGuest : Script := inOrder [.activity (.build .new)] (.ret ())

theorem neverPanics_of_orderly_second :
    NeverPanics (selectingCode (.finite 1)) 2 .advance
      (runScript firstGuest .new (selectingCode (.finite 1)) 2 oneGuest) :=
  neverPanics_of_orderly _ _ _ _ _ _ (by decide +kernel)

/-- The loop panics when its selector is asked to wait for what is not a number. -/
theorem not_neverPanics_of_nan :
    ¬ ∀ (guest : GuestId) (runtime : RuntimeInner) (code : Code) (fuel : Nat) (script : Script)
      (op : Op), NeverPanics code fuel op (runScript guest runtime code fuel script) := by
  intro h
  have hcalm : Every Event.Calm (drivers.perform (selectingCode .nan) 2 .advance
      (runScript firstGuest .new (selectingCode .nan) 2 oneGuest)).2 := (h _ _ _ _ oneGuest _).2
  exact absurd hcalm (by decide +kernel)

end GuestPy.Driver
