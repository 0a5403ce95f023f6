import GuestPy.Library.Runs
import GuestPy.Policy

/-!
# The activity of guests

The guests of one runtime, the stack of active guests and the activation tokens.

* `GuestActivity` counts how deep a guest is active. Its policy begins when the depth
  leaves 0 and is disarmed when it returns there.
* `RuntimeInner` holds the guests that are still allocated and the stack `active` of weak
  references, innermost first.
* `ActiveGuest.new` and `ActiveGuest.drop` are the two ends of an activation token.
* `enterWith` is the way in for host operations: it takes no token when its guest is the
  innermost one.
-/

namespace GuestPy

/-- A 64-bit number other than 0. -/
structure GuestId where
  value : Nat
  nonzero : value ≠ 0
  deriving DecidableEq

namespace GuestId

def fromU64 (value : Nat) : Option GuestId :=
  if h : value ≠ 0 then some ⟨value, h⟩ else none

theorem fromU64_eq_some {value : Nat} {g : GuestId} (h : fromU64 value = some g) :
    g.value = value := by
  unfold fromU64 at h
  by_cases hv : value ≠ 0
  · rw [dif_pos hv] at h
    cases h
    rfl
  · rw [dif_neg hv] at h
    cases h

end GuestId

inductive Activation where
  | operation
  | cleanup
  deriving DecidableEq

/-! ## The activity of one guest -/

structure GuestActivity where
  depth : Nat
  policy : ExecutionPolicy

namespace GuestActivity

variable {Ex : Type}

def new (policy : ExecutionPolicy) : GuestActivity := ⟨0, policy⟩

/-- Only an operation that finds the guest inactive begins the policy. -/
def begin (a : GuestActivity) (elapsed : Duration) (activation : Activation) :
    Except (Error Ex) GuestActivity :=
  if a.depth = 0 ∧ activation = .operation then
    match a.policy.begin elapsed with
    | .ok policy => .ok { depth := a.depth + 1, policy }
    | .error e => .error e
  else
    .ok { a with depth := a.depth + 1 }

/-- `none` where the assertion "active guest depth is balanced" fails. -/
def finish (a : GuestActivity) : Option GuestActivity :=
  match a.depth with
  | 0 => none
  | 1 => some { depth := 0, policy := a.policy.disarm }
  | depth + 2 => some { a with depth := depth + 1 }

theorem begin_depth {a a' : GuestActivity} {elapsed : Duration} {activation : Activation}
    (h : a.begin elapsed activation = (.ok a' : Except (Error Ex) _)) :
    a'.depth = a.depth + 1 := by
  unfold begin at h
  split at h
  · split at h
    · cases h
      rfl
    · cases h
  · cases h
    rfl

theorem finish_of_pos {a : GuestActivity} (h : 0 < a.depth) :
    ∃ a', a.finish = some a' ∧ a'.depth = a.depth - 1 := by
  unfold finish
  match hd : a.depth with
  | 0 => omega
  | 1 => exact ⟨_, rfl, rfl⟩
  | depth + 2 => exact ⟨_, rfl, rfl⟩

end GuestActivity

/-! ## The guests of a runtime -/

/-- A guest, with the number of references to it outside the activation tokens. -/
structure GuestInner where
  base : Nat
  closed : Bool
  handles : Nat
  activity : GuestActivity

/-- The runtime: its guests, the stack of active guests, the tokens alive, and the clock.

A guest is allocated while a handle or a token refers to it; it is registered for exactly
that time. -/
structure RuntimeInner where
  nextId : Nat
  guests : GuestId → Option GuestInner
  active : List GuestId
  tokens : List GuestId
  now : Nat

namespace RuntimeInner

variable {Ex : Type}

def new : RuntimeInner := ⟨1, fun _ => none, [], [], 0⟩

def set (r : RuntimeInner) (g : GuestId) (inner : Option GuestInner) : RuntimeInner :=
  { r with guests := Function.update r.guests g inner }

/-- `GuestRegistry::get`: a guest that is gone is as good as closed. -/
def get (r : RuntimeInner) (g : GuestId) : Except (Error Ex) GuestInner :=
  match r.guests g with
  | some inner => .ok inner
  | none => .error .closed

/-- `GuestRegistry::innermost`: the last entry pushed, if its guest is still allocated. -/
def innermost (r : RuntimeInner) : Option GuestId :=
  r.active.head?.filter fun g => (r.guests g).isSome

def isInnermost (r : RuntimeInner) (g : GuestId) : Bool := r.innermost == some g

def push (r : RuntimeInner) (g : GuestId) : RuntimeInner := { r with active := g :: r.active }

/-- Removes the last entry pushed, whichever guest it is of. `none` where the assertion
"active guest stack is balanced" fails. -/
def pop (r : RuntimeInner) : Option RuntimeInner :=
  match r.active with
  | [] => none
  | _ :: active => some { r with active }

def depth (r : RuntimeInner) (g : GuestId) : Nat :=
  match r.guests g with
  | some inner => inner.activity.depth
  | none => 0

def elapsed (r : RuntimeInner) (inner : GuestInner) : Duration :=
  .saturate (r.now - inner.base)

/-- Frees a guest that nothing refers to any more. -/
def release (r : RuntimeInner) (g : GuestId) : RuntimeInner :=
  match r.guests g with
  | some inner => if inner.handles = 0 ∧ r.tokens.count g = 0 then r.set g none else r
  | none => r

end RuntimeInner

/-! ## Activation tokens -/

namespace ActiveGuest

variable {Ex : Type}

def new (r : RuntimeInner) (g : GuestId) (inner : GuestInner) (activation : Activation) :
    Except (Error Ex) RuntimeInner :=
  match inner.activity.begin (r.elapsed inner) activation with
  | .ok activity =>
    .ok { (r.set g (some { inner with activity })).push g with tokens := g :: r.tokens }
  | .error e => .error e

/-- The destructor of a token: the stack loses its last entry, the guest of the token one
level of depth and, with the token, one reference. -/
def drop (r : RuntimeInner) (g : GuestId) (inner : GuestInner) : Option RuntimeInner :=
  match r.pop, inner.activity.finish with
  | some r', some activity =>
    some ({ r'.set g (some { inner with activity }) with tokens := r.tokens.erase g }.release g)
  | _, _ => none

end ActiveGuest

/-- The entry of `GuestInner::enter_with`: the state its closure runs in. -/
def enterWith {Ex : Type} (r : RuntimeInner) (g : GuestId) (inner : GuestInner)
    (activation : Activation) : Except (Error Ex) RuntimeInner :=
  if inner.closed then
    .error .closed
  else if r.isInnermost g then
    .ok r
  else
    ActiveGuest.new r g inner activation

/-! ## Runs -/

/-- What happens to the guests of a runtime, one change at a time. Tokens of any guest are
taken and dropped in any order. -/
inductive Action where
  | build (policy : ExecutionPolicy)
  | begin (g : GuestId) (activation : Activation)
  | enter (g : GuestId) (activation : Activation)
  | drop (g : GuestId)
  | clone (g : GuestId)
  | forget (g : GuestId)
  | close (g : GuestId)
  | signal (g : GuestId) (answer : Bool)
  | tick (nanos : Nat)

namespace RuntimeInner

def takeNextId (r : RuntimeInner) : Option (Nat × RuntimeInner) :=
  if r.nextId < u64Max then some (r.nextId, { r with nextId := r.nextId + 1 }) else none

/-- `GuestBuilder::build`, up to the activation for the initialisers. -/
def build (r : RuntimeInner) (policy : ExecutionPolicy) : RuntimeInner :=
  match r.takeNextId with
  | some (id, r') =>
    match GuestId.fromU64 id with
    | some g => r'.set g (some ⟨r.now, false, 1, .new policy⟩)
    | none => r
  | none => r

def update (r : RuntimeInner) (g : GuestId) (f : GuestInner → GuestInner) : RuntimeInner :=
  match r.guests g with
  | some inner => r.set g (some (f inner))
  | none => r

/-- One action. What fails, and what would act on a guest that is gone, changes nothing. -/
def step (r : RuntimeInner) : Action → RuntimeInner
  | .build policy => r.build policy
  | .begin g activation =>
    match r.guests g with
    | some inner =>
      match (ActiveGuest.new r g inner activation : Except (Error Unit) _) with
      | .ok r' => r'
      | .error _ => r
    | none => r
  | .enter g activation =>
    match r.guests g with
    | some inner =>
      match (enterWith r g inner activation : Except (Error Unit) _) with
      | .ok r' => r'
      | .error _ => r
    | none => r
  | .drop g =>
    if g ∈ r.tokens then
      match r.guests g with
      | some inner => (ActiveGuest.drop r g inner).getD r
      | none => r
    else
      r
  | .clone g => r.update g fun inner => { inner with handles := inner.handles + 1 }
  | .forget g => (r.update g fun inner => { inner with handles := inner.handles - 1 }).release g
  | .close g => r.update g fun inner => { inner with closed := true }
  | .signal g answer =>
    r.update g fun inner =>
      { inner with
        activity.policy.cancellation :=
          inner.activity.policy.cancellation.map fun _ => ⟨answer⟩ }
  | .tick nanos => { r with now := r.now + nanos }

end RuntimeInner

end GuestPy
