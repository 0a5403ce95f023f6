import GuestPy.Iteration.Steps
import GuestPy.Library.Program

/-!
# Iterators and streams of a host

`HostIter` and `HostStream` hold an iterator of the host in a `RefCell`. Its code may call back into
the guest, and the guest may use the same object again while the cell is borrowed.

* `HostIter.next` panics in that case. It keeps the borrow while the item is converted.
* `HostStream.poll` answers with an error in that case. Any number of futures of one stream may wait
  at the same time.
* `HostIter.replies_next` and `HostStream.served_poll` say that the answers of the iterator are
  handed out in order, each once, whatever its code does.
-/

namespace GuestPy.Iteration

open Exceptions

variable {Item Value : Type}

/-! ## Iterators -/

/-- The `RefCell` of a `HostIter`, and how many answers the iterator in it has given. -/
structure HostIter where
  borrowed : Bool
  position : Nat

namespace HostIter

/-- Code that `__next__` calls: the iterator of the host, and `to_guest` of an item. -/
inductive Call (Item : Type) where
  | next
  | toGuest (item : Item)

/-- What the code answers. The iterator answers with `item`, `to_guest` with `value`. -/
structure Response (Item Value : Type) where
  item : Option (Except Err Item)
  value : Value

def borrow (s : HostIter) : HostIter := { s with borrowed := true }

def release (s : HostIter) : HostIter := { s with borrowed := false }

def advance (s : HostIter) : HostIter := { s with position := s.position + 1 }

section

variable (callout : Call Item → Host HostIter Err (Response Item Value))

/-- `next` of the iterator in the cell. -/
def take : Host HostIter Err (Option (Except Err Item)) := do
  let response ← callout .next
  Host.modify advance
  pure response.item

/-- The arms of the match. -/
def finish : Option (Except Err Item) → Host HostIter Err Value
  | some (.ok item) => do
    let response ← callout (.toGuest item)
    pure response.value
  | some (.error e) => Host.throw e
  | none => Host.throw .stopIteration

/-- `__next__`. The borrow of the cell lasts until the match is over. -/
def next : Host HostIter Err Value := do
  let s ← Host.get
  if s.borrowed then Host.panic
  else
    Host.bind (Host.modify borrow) fun _ => Host.guarded (take callout >>= finish callout) release

end

def system : System HostIter Err Unit Value (Call Item) (Response Item Value) where
  body callout _ := next callout
  tick s := s

/-- The code of an iterator that answers `items k` in its `k`th call, and of `to_guest`. What it does
before it answers is left open. -/
structure Iterates (items : Nat → Option (Except Err Item)) (convert : Item → Except Err Value)
    (env : Environment HostIter Err Unit Value (Call Item) (Response Item Value)) : Prop where
  next : ∀ s, (env s .next).Answers fun a => ∃ r, a = .ok r ∧ r.item = items s.position
  toGuest : ∀ s item, (env s (.toGuest item)).Answers fun a => a.map Response.value = convert item

/-- What a call of `__next__` comes to when the iterator gives it an answer. -/
def reply (convert : Item → Except Err Value) : Option (Except Err Item) → Reply Err Value
  | some (.ok item) =>
    match convert item with
    | .ok value => .ok value
    | .error e => .err e
  | some (.error e) => .err e
  | none => .err .stopIteration

section

variable {items : Nat → Option (Except Err Item)} {convert : Item → Except Err Value}
  {env : Environment HostIter Err Unit Value (Call Item) (Response Item Value)} {s : HostIter}

/-- A call from within a call panics, and takes nothing. -/
theorem perform_borrowed (h : s.borrowed = true) (fuel : Nat) (op : Unit) :
    system.perform env (fuel + 1) op s = (.panic, s) := by
  change (if s.borrowed then Host.panic else _ : Host HostIter Err Value) s = _
  rw [if_pos h]
  rfl

/-- While the cell is borrowed, the code that a call runs leaves it as it is. -/
theorem callout_borrowed (hs : s.borrowed = true) (fuel : Nat) {c : Call Item}
    {P : Except Err (Response Item Value) → Prop} (hc : (env s c).Answers P) :
    ∃ a, P a ∧ system.callout env (system.perform env (fuel + 1)) c s = Host.ofExcept a s := by
  have hnested : ∀ op s', s' = s → (system.perform env (fuel + 1) op s').1 ≠ .stuck ∧
      (system.perform env (fuel + 1) op s').2 = s := by
    rintro op s' rfl
    rw [perform_borrowed hs]
    exact ⟨nofun, rfl⟩
  obtain ⟨a, s', ha, rfl, hrun⟩ := System.callout_answers (S := system) (fun _ h => h) hnested hc rfl
  exact ⟨a, ha, hrun⟩

theorem take_eq (h : Iterates items convert env) (hs : s.borrowed = true) (fuel : Nat) :
    take (system.callout env (system.perform env (fuel + 1))) s =
      (.ok (items s.position), s.advance) := by
  obtain ⟨_, ⟨response, rfl, hitem⟩, hnext⟩ := callout_borrowed hs fuel (h.next s)
  rw [← hitem]
  exact System.bind_of_ok hnext

theorem observe_finish (h : Iterates items convert env) (hs : s.borrowed = true) (fuel : Nat)
    (item : Option (Except Err Item)) :
    Host.observe (finish (system.callout env (system.perform env (fuel + 1))) item) s =
      (.ok (reply convert item), s) := by
  cases item with
  | none => rfl
  | some result =>
    cases result with
    | error e => rfl
    | ok item =>
      obtain ⟨a, ha, hconvert⟩ := callout_borrowed hs fuel (h.toGuest s item)
      have hfinish : finish (system.callout env (system.perform env (fuel + 1)))
          (some (.ok item)) s = Host.bind (Host.ofExcept a) (fun r => Host.pure r.value) s := by
        change Host.bind _ _ s = _
        unfold Host.bind
        rw [hconvert]
        rfl
      unfold Host.observe reply
      rw [hfinish]
      cases a with
      | ok response => simp only [← ha, Except.map]; rfl
      | error e => simp only [← ha, Except.map]; rfl

theorem observe_perform (h : Iterates items convert env) (hs : s.borrowed = false) (fuel : Nat) :
    Host.observe (system.perform env (fuel + 2) ()) s =
      (.ok (reply convert (items s.position)), s.advance) := by
  have htake := take_eq h (s := s.borrow) rfl fuel
  have hfinish := observe_finish h (s := s.borrow.advance) rfl fuel (items s.position)
  change Host.observe (next (system.callout env (system.perform env (fuel + 1)))) s = _
  generalize system.callout env (system.perform env (fuel + 1)) = callout at htake hfinish ⊢
  have hmatch : Host.observe (take callout >>= finish callout) s.borrow =
      (.ok (reply convert (items s.position)), s.borrow.advance) := by
    rw [← hfinish]
    exact System.observe_bind_of_ok htake
  have hnext : next callout s = Host.guarded (take callout >>= finish callout) release s.borrow := by
    change (if s.borrowed = true then Host.panic else
      Host.bind (Host.modify borrow) fun _ =>
        Host.guarded (take callout >>= finish callout) release) s = _
    rw [if_neg (Bool.eq_false_iff.mp hs)]
    rfl
  have hobserve : Host.observe (next callout) s =
      Host.observe (Host.guarded (take callout >>= finish callout) release) s.borrow := by
    unfold Host.observe
    rw [hnext]
  rw [hobserve, System.observe_guarded, hmatch]
  cases s
  cases hs
  rfl

theorem replies_from (h : Iterates items convert env) (fuel k start : Nat) :
    System.replies (system.perform env (fuel + 2)) (List.replicate k ()) ⟨false, start⟩ =
      (.ok ((List.range' start k).map fun i => reply convert (items i)), ⟨false, start + k⟩) := by
  induction k generalizing start with
  | zero => rfl
  | succ k ih =>
    have hrest := ih (start + 1)
    rw [Nat.add_right_comm start 1 k] at hrest
    exact System.replies_cons (observe_perform h rfl fuel) hrest

/-- **`k` calls get the first `k` answers of the iterator**, whatever its code and the conversions of
its items do before they answer. A call from within panics, and takes nothing. -/
theorem replies_next (h : Iterates items convert env) (fuel k : Nat) :
    System.replies (system.perform env (fuel + 2)) (List.replicate k ()) ⟨false, 0⟩ =
        (.ok ((List.range k).map fun i => reply convert (items i)), ⟨false, k⟩) ∧
      ∀ s : HostIter, s.borrowed = true → system.perform env (fuel + 1) () s = (.panic, s) := by
  refine ⟨?_, fun s hs => perform_borrowed hs fuel ()⟩
  rw [replies_from h fuel k 0, List.range_eq_range', Nat.zero_add]

end

/-- Two items. The iterator and the conversions call `__next__` before they answer. -/
def restless : Environment HostIter Err Unit Nat (Call Nat) (Response Nat Nat)
  | s, .next => .call () fun _ => .ret (.ok ⟨if s.position < 2 then some (.ok s.position) else none, 0⟩)
  | _, .toGuest item => .call () fun _ => .ret (.ok ⟨none, item + 10⟩)

theorem iterates_restless :
    Iterates (fun k => if k < 2 then some (.ok k) else none) (fun item => .ok (item + 10))
      restless where
  next _ _ := ⟨_, rfl, rfl⟩
  toGuest _ _ _ := rfl

theorem replies_next_restless :
    System.replies (system.perform restless 2) [(), (), ()] ⟨false, 0⟩ =
        (.ok [.ok 10, .ok 11, .err .stopIteration], ⟨false, 3⟩) ∧
      ∀ s : HostIter, s.borrowed = true → system.perform restless 1 () s = (.panic, s) :=
  replies_next iterates_restless 0 3

end HostIter

/-! ## Streams -/

/-- The `RefCell` of a `HostStream`, and how many answers the stream in it has given. Its futures are
numbered, and those that have not completed are waiting. -/
structure HostStream where
  borrowed : Bool
  position : Nat
  futures : Nat
  waiting : Nat → Bool

namespace HostStream

inductive Op where
  | anext
  | poll (future : Nat)

/-- What an operation returns. -/
inductive Polled (Item : Type) where
  | made (future : Nat)
  | pending
  | ready (result : Except Err Item)

def alreadyPolled : Err := .unexpected "host stream is already being polled"

def result : Option (Except Err Item) → Except Err Item
  | some (.ok value) => .ok value
  | some (.error e) => .error e
  | none => .error .stopAsyncIteration

def borrow (s : HostStream) : HostStream := { s with borrowed := true }

def release (s : HostStream) : HostStream := { s with borrowed := false }

def advance (s : HostStream) : HostStream := { s with position := s.position + 1 }

def setWaiting (n : Nat) (b : Bool) (s : HostStream) : HostStream :=
  { s with waiting := Function.update s.waiting n b }

def make (s : HostStream) : HostStream :=
  { s with futures := s.futures + 1, waiting := Function.update s.waiting s.futures true }

/-- `next`, which `__anext__` calls. -/
def anext : Host HostStream Err (Polled Item) := do
  let s ← Host.get
  Host.modify make
  pure (.made s.futures)

section

variable (callout : Unit → Host HostStream Err (Option (Option (Except Err Item))))

/-- What is done with the answer of `poll_next`. A future that is still pending goes on waiting. -/
def settle (future : Nat) : Option (Option (Except Err Item)) → Host HostStream Err (Polled Item)
  | none => do
    Host.modify (setWaiting future true)
    pure .pending
  | some item => do
    Host.modify advance
    pure (.ready (result item))

/-- A poll of a future. Its async block panics when it is polled after its completion. -/
def poll (future : Nat) : Host HostStream Err (Polled Item) := do
  let s ← Host.get
  if s.waiting future then
    Host.modify (setWaiting future false)
    if s.borrowed then pure (.ready (.error alreadyPolled))
    else
      Host.bind (Host.modify borrow) fun _ => Host.guarded (callout () >>= settle future) release
  else Host.panic

end

def system : System HostStream Err Op (Polled Item) Unit (Option (Option (Except Err Item))) where
  body callout
    | .anext => anext
    | .poll future => poll callout future
  tick s := s

/-- The code of a stream that answers `items k` after it has answered `k` times, or leaves a poll
pending. What it does before it answers is left open. -/
def Streams (items : Nat → Option (Except Err Item))
    (env : Environment HostStream Err Op (Polled Item) Unit (Option (Option (Except Err Item)))) :
    Prop :=
  ∀ s, (env s ()).Answers fun a => a = .ok none ∨ a = .ok (some (items s.position))

/-- Only futures that were made are waiting. -/
def WellFormed (s : HostStream) : Prop := ∀ n, s.waiting n = true → n < s.futures

/-- A future that has completed does not wait again. -/
structure Later (s s' : HostStream) : Prop where
  futures : s.futures ≤ s'.futures
  waiting : ∀ n, n < s.futures → s'.waiting n = true → s.waiting n = true

/-- What the code of the stream may do to the cell that is borrowed for it. -/
structure Within (s s' : HostStream) : Prop extends Later s s' where
  borrowed : s'.borrowed = true
  position : s'.position = s.position
  wellFormed : s'.WellFormed

/-- One operation of the driver or the guest, from the outside. -/
inductive Step (items : Nat → Option (Except Err Item)) (s : HostStream) :
    Op → Reply Err (Polled Item) → HostStream → Prop
  | stay {op : Op} {r : Reply Err (Polled Item)} {s' : HostStream}
      (hr : ∀ x, r ≠ .ok (.ready x)) (hposition : s'.position = s.position) : Step items s op r s'
  | answer {n : Nat} {s' : HostStream} (hwaiting : s.waiting n = true)
      (hover : s'.waiting n = false) (hposition : s'.position = s.position + 1) :
      Step items s (.poll n) (.ok (.ready (result (items s.position)))) s'

/-- The futures that have completed, with their results, in the order of their completion. -/
def served (trace : List (Op × Reply Err (Polled Item))) : List (Nat × Except Err Item) :=
  trace.filterMap fun
    | (.poll n, .ok (.ready r)) => some (n, r)
    | _ => none

section

variable {items : Nat → Option (Except Err Item)}
  {env : Environment HostStream Err Op (Polled Item) Unit (Option (Option (Except Err Item)))}
  {s s' : HostStream}

theorem Later.refl (s : HostStream) : Later s s := ⟨Nat.le_refl _, fun _ _ h => h⟩

theorem Later.trans {s'' : HostStream} (h : Later s s') (h' : Later s' s'') : Later s s'' where
  futures := h.futures.trans h'.futures
  waiting n hn hw := h.waiting n hn (h'.waiting n (hn.trans_le h.futures) hw)

theorem setWaiting_same (n : Nat) (b : Bool) (s : HostStream) :
    (s.setWaiting n b).waiting n = b :=
  Function.update_self _ _ _

theorem setWaiting_of_ne {n m : Nat} (h : m ≠ n) (b : Bool) (s : HostStream) :
    (s.setWaiting n b).waiting m = s.waiting m :=
  Function.update_of_ne h _ _

theorem WellFormed.make (h : s.WellFormed) : s.make.WellFormed ∧ Later s s.make := by
  refine ⟨fun n hn => ?_, Nat.le_succ _, fun n hn hw => ?_⟩
  · change n < s.futures + 1
    by_cases hnew : n = s.futures
    · omega
    · exact (h n ((Function.update_of_ne hnew _ _).symm.trans hn)).trans (Nat.lt_succ_self _)
  · exact (Function.update_of_ne hn.ne _ _).symm.trans hw

theorem WellFormed.complete (h : s.WellFormed) (n : Nat) :
    (s.setWaiting n false).WellFormed ∧ Later s (s.setWaiting n false) := by
  have hwaiting : ∀ m, (s.setWaiting n false).waiting m = true → s.waiting m = true := by
    intro m hm
    by_cases hmn : m = n
    · subst hmn
      rw [setWaiting_same] at hm
      cases hm
    · rwa [setWaiting_of_ne hmn] at hm
  exact ⟨fun m hm => h m (hwaiting m hm), Nat.le_refl _, fun m _ hm => hwaiting m hm⟩

section

variable (callout : Unit → Host HostStream Err (Option (Option (Except Err Item)))) {n : Nat}

theorem poll_of_over (h : s.waiting n = false) : poll callout n s = (.panic, s) := by
  change (if s.waiting n = true then _ else Host.panic : Host HostStream Err (Polled Item)) s = _
  rw [if_neg (Bool.eq_false_iff.mp h)]
  rfl

theorem poll_of_borrowed (h : s.waiting n = true) (hs : s.borrowed = true) :
    poll callout n s = (.ok (.ready (.error alreadyPolled)), s.setWaiting n false) := by
  change (if s.waiting n = true then _ else Host.panic : Host HostStream Err (Polled Item)) s = _
  rw [if_pos h]
  change (if s.borrowed = true then _ else _ : Host HostStream Err (Polled Item))
    (s.setWaiting n false) = _
  rw [if_pos hs]
  rfl

theorem poll_of_free (h : s.waiting n = true) (hs : s.borrowed = false) :
    poll callout n s =
      Host.guarded (callout () >>= settle n) release (s.setWaiting n false).borrow := by
  change (if s.waiting n = true then _ else Host.panic : Host HostStream Err (Polled Item)) s = _
  rw [if_pos h]
  change (if s.borrowed = true then _ else _ : Host HostStream Err (Polled Item))
    (s.setWaiting n false) = _
  rw [if_neg (Bool.eq_false_iff.mp hs)]
  rfl

end

/-- An operation from within the code of the stream. -/
theorem perform_borrowed (hs : s.borrowed = true) (hwf : s.WellFormed) (fuel : Nat) (op : Op) :
    (system.perform env (fuel + 1) op s).1 ≠ .stuck ∧
      Within s (system.perform env (fuel + 1) op s).2 := by
  cases op with
  | anext => exact ⟨nofun, hwf.make.2, hs, rfl, hwf.make.1⟩
  | poll n =>
    change (poll _ n s).1 ≠ _ ∧ Within s (poll _ n s).2
    cases hwaiting : s.waiting n with
    | false =>
      rw [poll_of_over _ hwaiting]
      exact ⟨nofun, .refl s, hs, rfl, hwf⟩
    | true =>
      rw [poll_of_borrowed _ hwaiting hs]
      exact ⟨nofun, (hwf.complete n).2, hs, rfl, (hwf.complete n).1⟩

/-- The code of the stream, while the cell is borrowed. -/
theorem callout_borrowed (h : Streams items env) (hs : s.borrowed = true) (hwf : s.WellFormed)
    (fuel : Nat) :
    ∃ a s', (a = none ∨ a = some (items s.position)) ∧ Within s s' ∧
      system.callout env (system.perform env (fuel + 1)) () s = (.ok a, s') := by
  have hnested : ∀ op s', Within s s' → (system.perform env (fuel + 1) op s').1 ≠ .stuck ∧
      Within s (system.perform env (fuel + 1) op s').2 := by
    intro op s' hs'
    have hperform : (system.perform env (fuel + 1) op s').1 ≠ .stuck ∧
        Within s' (system.perform env (fuel + 1) op s').2 :=
      perform_borrowed hs'.borrowed hs'.wellFormed fuel op
    obtain ⟨hstuck, hop⟩ := hperform
    exact ⟨hstuck, hs'.toLater.trans hop.toLater, hop.borrowed, hop.position.trans hs'.position,
      hop.wellFormed⟩
  obtain ⟨a, s', ha, hwithin, hrun⟩ := System.callout_answers (S := system) (fun _ hI => hI) hnested
    (h s) ⟨.refl s, hs, rfl, hwf⟩
  rcases ha with rfl | rfl
  · exact ⟨none, s', Or.inl rfl, hwithin, hrun⟩
  · exact ⟨_, s', Or.inr rfl, hwithin, hrun⟩

/-- A future goes on waiting. -/
theorem WellFormed.wait {n : Nat} (h : s'.WellFormed) (hn : s.waiting n = true)
    (hlt : n < s'.futures) (hlater : Later (s.setWaiting n false) s') :
    (s'.setWaiting n true).WellFormed ∧ Later s (s'.setWaiting n true) := by
  refine ⟨fun m hm => ?_, hlater.futures, fun m hlt' hm => ?_⟩
  · by_cases hmn : m = n
    · exact hmn ▸ hlt
    · rw [setWaiting_of_ne hmn] at hm
      exact h m hm
  · by_cases hmn : m = n
    · exact hmn ▸ hn
    · rw [setWaiting_of_ne hmn] at hm
      exact (setWaiting_of_ne hmn false s).symm.trans (hlater.waiting m hlt' hm)

/-- **Step lemma.** -/
theorem step_perform (h : Streams items env) (hs : s.borrowed = false) (hwf : s.WellFormed)
    (fuel : Nat) (op : Op) :
    ∃ r s', Host.observe (system.perform env (fuel + 2) op) s = (.ok r, s') ∧
      s'.borrowed = false ∧ s'.WellFormed ∧ Later s s' ∧ Step items s op r s' := by
  cases op with
  | anext => exact ⟨_, _, rfl, hs, hwf.make.1, hwf.make.2, .stay nofun rfl⟩
  | poll n =>
    change ∃ r s', Host.observe (poll (system.callout env (system.perform env (fuel + 1))) n) s =
      (.ok r, s') ∧ _
    cases hwaiting : s.waiting n with
    | false =>
      refine ⟨.panic, s, ?_, hs, hwf, .refl s, .stay nofun rfl⟩
      unfold Host.observe
      rw [poll_of_over _ hwaiting]
    | true =>
      obtain ⟨hwf', hlater⟩ := hwf.complete n
      obtain ⟨a, s', ha, hwithin, hrun⟩ :=
        callout_borrowed (s := (s.setWaiting n false).borrow) h rfl hwf' fuel
      have hlater' : Later (s.setWaiting n false) s' := ⟨hwithin.futures, hwithin.waiting⟩
      have hlt : n < s'.futures := (hwf n hwaiting).trans_le hlater'.futures
      have hpoll : Host.observe (poll (system.callout env (system.perform env (fuel + 1))) n) s =
          ((Host.observe (settle n a) s').1, (Host.observe (settle n a) s').2.release) := by
        rw [← System.observe_bind_of_ok hrun, ← System.observe_guarded]
        unfold Host.observe
        rw [poll_of_free _ hwaiting hs]
      rw [hpoll]
      rcases ha with rfl | rfl
      · obtain ⟨hwf'', hlater''⟩ := hwithin.wellFormed.wait hwaiting hlt hlater'
        exact ⟨_, _, rfl, rfl, hwf'', ⟨hlater''.futures, hlater''.waiting⟩,
          .stay nofun hwithin.position⟩
      · have hover : s'.waiting n = false := by
          rw [Bool.eq_false_iff]
          intro hn
          have hstill := hlater'.waiting n (hwf n hwaiting) hn
          rw [setWaiting_same] at hstill
          cases hstill
        have hlater'' := hlater.trans hlater'
        exact ⟨_, _, rfl, rfl, hwithin.wellFormed, ⟨hlater''.futures, hlater''.waiting⟩,
          .answer hwaiting hover (congrArg (· + 1) hwithin.position)⟩

/-- A run from any state in which no poll is on its way. -/
theorem served_from (h : Streams items env) (hs : s.borrowed = false) (hwf : s.WellFormed)
    (fuel : Nat) (ops : List Op) :
    ∃ rs s', System.replies (system.perform env (fuel + 2)) ops s = (.ok rs, s') ∧
      rs.length = ops.length ∧
      (∃ k, s'.position = s.position + k ∧ (served (ops.zip rs)).map Prod.snd =
        (List.range' s.position k).map (fun k => result (items k))) ∧
      ((served (ops.zip rs)).map Prod.fst).Nodup ∧
      ∀ n ∈ (served (ops.zip rs)).map Prod.fst, s.waiting n = true ∨ s.futures ≤ n := by
  induction ops generalizing s with
  | nil => exact ⟨[], s, rfl, rfl, ⟨0, rfl, rfl⟩, List.nodup_nil, nofun⟩
  | cons op ops ih =>
    obtain ⟨r, s₁, hop, hs₁, hwf₁, hlater, hstep⟩ := step_perform h hs hwf fuel op
    obtain ⟨rs, s', hreplies, hlength, ⟨k, hposition, hsnd⟩, hnodup, hfst⟩ := ih hs₁ hwf₁
    refine ⟨r :: rs, s', System.replies_cons hop hreplies, congrArg (· + 1) hlength, ?_⟩
    have hold : ∀ n ∈ (served (ops.zip rs)).map Prod.fst, s.waiting n = true ∨ s.futures ≤ n := by
      intro n hn
      by_cases hlt : n < s.futures
      · rcases hfst n hn with hwaiting | hle
        · exact Or.inl (hlater.waiting n hlt hwaiting)
        · exact absurd (hlater.futures.trans hle) (Nat.not_le.mpr hlt)
      · exact Or.inr (Nat.not_lt.mp hlt)
    cases hstep with
    | stay hr hstay =>
      have hserved : served ((op :: ops).zip (r :: rs)) = served (ops.zip rs) := by
        refine List.filterMap_cons_none ?_
        split
        · rename_i heq
          cases heq
          exact absurd rfl (hr _)
        · rfl
      rw [hserved]
      exact ⟨⟨k, hposition.trans (by rw [hstay]), by rw [hsnd, hstay]⟩, hnodup, hold⟩
    | @answer n _ hwaiting hover hnext =>
      have hserved : served ((Op.poll n :: ops).zip
          (.ok (.ready (result (items s.position))) :: rs)) =
            (n, result (items s.position)) :: served (ops.zip rs) := rfl
      -- a future that has completed is not served again
      have hnew : n ∉ (served (ops.zip rs)).map Prod.fst := by
        intro hn
        rcases hfst n hn with hstill | hle
        · rw [hover] at hstill
          cases hstill
        · have hlt := hwf n hwaiting
          have hle' := hlater.futures
          omega
      rw [hserved, List.map_cons, List.map_cons, List.nodup_cons]
      refine ⟨⟨k + 1, ?_, ?_⟩, ⟨hnew, hnodup⟩, ?_⟩
      · rw [hposition, hnext, Nat.add_right_comm, Nat.add_assoc]
      · rw [hsnd, hnext, List.range'_succ, List.map_cons]
      · rintro m (_ | ⟨_, hm⟩)
        · exact Or.inl hwaiting
        · exact hold m hm

/-- **The answers of the stream go to its futures in the order in which it gives them**, each to one
future, and each future gets one at most, whatever the code of the stream does before it answers. A
future that it polls completes with an error, and takes nothing. -/
theorem served_poll (h : Streams items env) (fuel : Nat) (ops : List Op) :
    (∃ rs s', System.replies (system.perform env (fuel + 2)) ops ⟨false, 0, 0, fun _ => false⟩ =
        (.ok rs, s') ∧ rs.length = ops.length ∧
      (served (ops.zip rs)).map Prod.snd =
        (List.range s'.position).map (fun k => result (items k)) ∧
      ((served (ops.zip rs)).map Prod.fst).Nodup) ∧
    ∀ (s : HostStream) (n : Nat), s.borrowed = true → s.waiting n = true →
      system.perform env (fuel + 1) (.poll n) s =
        (.ok (.ready (.error alreadyPolled)), s.setWaiting n false) := by
  refine ⟨?_, fun s n hs hn => poll_of_borrowed _ hn hs⟩
  obtain ⟨rs, s', hreplies, hlength, ⟨k, hposition, hsnd⟩, hnodup, -⟩ :=
    served_from (s := ⟨false, 0, 0, fun _ => false⟩) h rfl nofun fuel ops
  refine ⟨rs, s', hreplies, hlength, ?_, hnodup⟩
  rw [hsnd, hposition, Nat.zero_add, List.range_eq_range']

end

/-- Two items, each a poll later. The stream makes a future and polls it before it answers. -/
def restless : Environment HostStream Err Op (Polled Nat) Unit (Option (Option (Except Err Nat))) :=
  fun s _ => .call .anext fun _ => .call (.poll s.futures) fun _ =>
    .ret (.ok (if s.futures % 2 = 0 then none
      else some (if s.position < 2 then some (.ok s.position) else none)))

theorem streams_restless :
    Streams (fun k => if k < 2 then some (.ok k) else none) restless := by
  intro s r r'
  change (Except.ok (if s.futures % 2 = 0 then _ else _) : Except Err _) = _ ∨ _
  by_cases h : s.futures % 2 = 0
  · exact Or.inl (congrArg _ (if_pos h))
  · exact Or.inr (congrArg _ (if_neg h))

theorem served_poll_restless :
    (∃ rs s', System.replies (system.perform restless 2)
        [.anext, .anext, .poll 0, .poll 1, .poll 0, .poll 1] ⟨false, 0, 0, fun _ => false⟩ =
          (.ok rs, s') ∧ rs.length = 6 ∧
      (served ([Op.anext, .anext, .poll 0, .poll 1, .poll 0, .poll 1].zip rs)).map Prod.snd =
        (List.range s'.position).map
          (fun k => result (if k < 2 then some (.ok k) else none)) ∧
      ((served ([Op.anext, .anext, .poll 0, .poll 1, .poll 0, .poll 1].zip rs)).map
        Prod.fst).Nodup) ∧
    ∀ (s : HostStream) (n : Nat), s.borrowed = true → s.waiting n = true →
      system.perform restless 1 (.poll n) s =
        (.ok (.ready (.error alreadyPolled)), s.setWaiting n false) :=
  served_poll streams_restless 0 [.anext, .anext, .poll 0, .poll 1, .poll 0, .poll 1]

end HostStream

end GuestPy.Iteration
