import GuestPy.Iteration.Steps
import GuestPy.Library.Runs

/-!
# Streams of async iterators

An `AsyncIter` is polled as a stream, step by step, and `collect` takes all that is left of it.

* `Reader.poll` is one poll of a step, started if none is on its way. It notes how each step ended
  and what was made of it, and whether a step was started before the end of another was seen.
* `AsyncIter.step` is what a host does with the iterator: polls of the stream, and the rounds of the
  loop of `collect`.
* `Recorded` says what the host is handed, by what was made of the steps.
* `Tracked`: the steps whose end has not been seen are the one that is on its way and those that
  have been left, by a poll that failed or by `collect`.
* `faithful_iff` says for which runs the host is handed what the steps came to.
-/

namespace GuestPy.Iteration

open Exceptions

variable {Value Item : Type}

/-! ## Reading steps -/

/-- The steps of an iterator that have been started, those of them whose end has not been seen,
whether one was started while there were such, and whether one was given up before its end. -/
structure Ledger where
  started : Nat
  unseen : List Nat
  overlapped : Bool
  left : Bool
  panicked : Bool

/-- Polls one step after another. Of the steps that are over it is noted how they ended and what
was made of them. -/
structure Reader (Value Item : Type) where
  current : Option AsyncStep
  ends : List (End Value)
  given : List (Except Err (Option Item))

namespace Ledger

def new : Ledger := ⟨0, [], false, false, false⟩

/-- A step is started. -/
def start (start : Start) (l : Ledger) : Ledger where
  started := l.started + 1
  unseen := if start.called then l.started :: l.unseen else l.unseen
  overlapped := l.overlapped || (start.called && !l.unseen.isEmpty)
  left := l.left
  panicked := l.panicked

/-- Is a step given up before its end has been seen? -/
def leave (gone : Bool) (l : Ledger) : Ledger := { l with left := l.left || gone }

/-- A step is over for its host. -/
def finish (k : Nat) (o : End Value) (l : Ledger) : Ledger :=
  if o.seen then { l with unseen := l.unseen.erase k } else l.leave true

end Ledger

namespace AsyncStep

/-- How the step ends in the next poll, if it does. A step that has failed was the last one to
be started. -/
def next (I : AsyncIterator Value Item) (started : Nat) : AsyncStep → Option (End Value)
  | pending k polls => I.found k polls
  | failed _ => (I.start started).toEnd

def number (started : Nat) : AsyncStep → Nat
  | pending k _ => k
  | failed _ => started

end AsyncStep

namespace Reader

variable (I : AsyncIterator Value Item)

def new : Reader Value Item := ⟨none, [], []⟩

/-- The step that the next poll is about. -/
def upcoming (r : Reader Value Item) (l : Ledger) : AsyncStep :=
  r.current.getD (I.withAsyncStep l.started)

/-- The steps with that one. -/
def begun (r : Reader Value Item) (l : Ledger) : Ledger :=
  match r.current with
  | none => l.start (I.start l.started)
  | some _ => l

/-- The steps after the next poll. -/
def ledger (r : Reader Value Item) (l : Ledger) : Ledger :=
  match (r.upcoming I l).next I l.started with
  | some o => (r.begun I l).finish ((r.upcoming I l).number l.started) o
  | none => r.begun I l

/-- One poll. -/
def poll (r : Reader Value Item) (l : Ledger) :
    Option (Except Err (Option Item)) × Reader Value Item × Ledger :=
  match AsyncCursor.poll I r.current (I.withAsyncStep l.started) with
  | some (current, none) => (none, { r with current }, r.ledger I l)
  | some (current, some outcome) =>
    (some outcome,
      ⟨current, r.ends ++ ((r.upcoming I l).next I l.started).toList, r.given ++ [outcome]⟩,
      r.ledger I l)
  | none => (none, r, { l with panicked := true })

/-- What is kept between polls has not failed. -/
def Sound (r : Reader Value Item) : Prop := ∀ e, r.current ≠ some (.failed e)

/-- The step that is on its way. -/
def waiting (r : Reader Value Item) : Option Nat :=
  match r.current with
  | some (.pending k _) => some k
  | _ => none

/-- The poll does not start a step after one has been left, and a step that it finds ended can be
told from its error. -/
structure Fair (r : Reader Value Item) (l : Ledger) : Prop where
  settled : r.current = none → (I.start l.started).called = true → l.left = false
  told : ∀ o, (r.upcoming I l).next I l.started = some o → o.Told I

/-- Each step has been taken for what it was. -/
def Right (r : Reader Value Item) : Prop := r.given = r.ends.map (End.ideal I)

end Reader

/-! ## Hosts -/

/-- The future of `collect`. It is over when there is a result. -/
structure Collect (Value Item : Type) where
  reader : Reader Value Item
  items : List Item
  result : Option (Except Err (List Item))

/-- An `AsyncIter` in the hands of a host. `yielded` is what polls of the stream have returned. -/
structure AsyncIter (Value Item : Type) where
  ledger : Ledger
  cursor : Reader Value Item
  yielded : List (Option (Except Err Item))
  collecting : Option (Collect Value Item)

/-- `Result::transpose`. -/
def transpose : Except Err (Option Item) → Option (Except Err Item)
  | .ok (some item) => some (.ok item)
  | .ok none => none
  | .error e => some (.error e)

/-- What a host does: it polls the stream, begins to collect, or its poll of the future of `collect`
goes through the loop there once. -/
inductive Op where
  | next
  | collect
  | round

namespace Collect

def new : Collect Value Item := ⟨.new, [], none⟩

/-- The loop of `collect`, from `anext().await` on. -/
def receive (outcome : Except Err (Option Item)) (c : Collect Value Item) : Collect Value Item :=
  match outcome with
  | .ok (some item) => { c with items := c.items ++ [item] }
  | .ok none => { c with result := some (.ok c.items) }
  | .error e => { c with result := some (.error e) }

/-- Is the future suspended? -/
def isWaiting (c : Collect Value Item) : Bool := c.reader.current.isSome

end Collect

namespace AsyncIter

variable (I : AsyncIterator Value Item)

def new : AsyncIter Value Item := ⟨.new, .new, [], none⟩

/-- `poll_next`. -/
def pollNext (s : AsyncIter Value Item) : AsyncIter Value Item :=
  match s.cursor.poll I s.ledger with
  | (some outcome, cursor, ledger) =>
    { s with ledger, cursor, yielded := s.yielded ++ [transpose outcome] }
  | (none, cursor, ledger) => { s with ledger, cursor }

def round (c : Collect Value Item) (s : AsyncIter Value Item) : AsyncIter Value Item :=
  match c.reader.poll I s.ledger with
  | (some outcome, reader, ledger) =>
    { s with ledger, collecting := some (Collect.receive outcome { c with reader }) }
  | (none, reader, ledger) => { s with ledger, collecting := some { c with reader } }

/-- The stream is gone once `collect` has begun, and with it a step that is on its way. -/
def step (s : AsyncIter Value Item) : Op → AsyncIter Value Item
  | .next =>
    match s.collecting with
    | none => s.pollNext I
    | some _ => s
  | .collect =>
    match s.collecting with
    | none =>
      { s with ledger := s.ledger.leave s.cursor.waiting.isSome, collecting := some .new }
    | some _ => s
  | .round =>
    match s.collecting with
    | some c => if c.result.isSome then s else s.round I c
    | none => s

/-- One poll of the future of `collect`: the loop, up to a suspension or its end. -/
def pollCollect : Nat → AsyncIter Value Item → AsyncIter Value Item
  | 0, s => s
  | rounds + 1, s =>
    let s' := s.step I .round
    if s'.collecting.any fun c => c.result.isNone && !c.isWaiting then
      pollCollect rounds s'
    else
      s'

/-- A poll of the future is some rounds of its loop. -/
theorem pollCollect_eq (rounds : Nat) (s : AsyncIter Value Item) :
    ∃ n, pollCollect I rounds s = (List.replicate n Op.round).foldl (step I) s := by
  induction rounds generalizing s with
  | zero => exact ⟨0, rfl⟩
  | succ rounds ih =>
    rw [pollCollect]
    split
    · obtain ⟨n, hn⟩ := ih (s.step I .round)
      exact ⟨n + 1, hn⟩
    · exact ⟨1, rfl⟩

end AsyncIter

/-! ## One poll -/

namespace Ledger

variable {l : Ledger}

theorem finish_overlapped (k : Nat) (o : End Value) :
    (l.finish k o).overlapped = l.overlapped ∧ (l.finish k o).panicked = l.panicked := by
  unfold finish
  split
  · exact ⟨rfl, rfl⟩
  · exact ⟨rfl, rfl⟩

theorem start_overlapped_iff (start : Start) (h : l.overlapped = false) :
    (l.start start).overlapped = false ↔ (start.called = true → l.unseen = []) := by
  change (l.overlapped || (start.called && !l.unseen.isEmpty)) = false ↔ _
  rw [h, Bool.false_or]
  cases start.called with
  | false => exact ⟨fun _ => nofun, fun _ => rfl⟩
  | true => simp

end Ledger

namespace Reader

variable {I : AsyncIterator Value Item} {r : Reader Value Item} {l : Ledger}

theorem ledger_frame : (r.ledger I l).overlapped = (r.begun I l).overlapped ∧
    (r.ledger I l).panicked = (r.begun I l).panicked := by
  unfold ledger
  split
  · exact Ledger.finish_overlapped _ _
  · exact ⟨rfl, rfl⟩

theorem ledger_panicked : (r.ledger I l).panicked = l.panicked := by
  rw [ledger_frame.2, begun]
  split
  · rfl
  · rfl

theorem ledger_overlapped_iff (h : l.overlapped = false) :
    (r.ledger I l).overlapped = false ↔
      (r.current = none → (I.start l.started).called = true → l.unseen = []) := by
  rw [ledger_frame.1, begun]
  cases r.current with
  | none =>
    dsimp only
    rw [Ledger.start_overlapped_iff _ h]
    exact ⟨fun halone _ => halone, fun halone => halone rfl⟩
  | some step => exact ⟨fun _ => nofun, fun _ => h⟩

/-- The next poll finds its step suspended, or over. -/
theorem poll_cases (hr : r.Sound) :
    ((r.upcoming I l).next I l.started = none ∧ ∃ polls, r.poll I l =
      (none, { r with current := some (.pending ((r.upcoming I l).number l.started) polls) },
        r.ledger I l)) ∨
    ∃ o, (r.upcoming I l).next I l.started = some o ∧
      r.poll I l = (some (settle (o.outcome I)),
        ⟨none, r.ends ++ [o], r.given ++ [settle (o.outcome I)]⟩, r.ledger I l) := by
  have hstep : (∃ k polls, r.upcoming I l = .pending k polls) ∨
      ∃ e o, r.upcoming I l = .failed (some e) ∧ (I.start l.started).toEnd = some o ∧
        o.outcome I = .error e := by
    unfold upcoming
    cases hcurrent : r.current with
    | none =>
      unfold AsyncIterator.withAsyncStep
      cases I.start l.started with
      | begun => exact .inl ⟨_, _, rfl⟩
      | raised heap x traceback => exact .inr ⟨_, _, rfl, rfl, rfl⟩
      | refused e => exact .inr ⟨_, _, rfl, rfl, rfl⟩
    | some step =>
      cases step with
      | pending k polls => exact .inl ⟨k, polls, rfl⟩
      | failed e => exact absurd hcurrent (hr e)
  rcases hstep with ⟨k, polls, hstep⟩ | ⟨e, o, hstep, hend, houtcome⟩
  · have hpoll := AsyncStep.poll_pending (I := I) k polls
    rw [← hstep] at hpoll
    have hnext : (r.upcoming I l).next I l.started = I.found k polls := by
      rw [hstep]
      rfl
    rw [hnext]
    cases hfound : I.found k polls with
    | none =>
      left
      refine ⟨rfl, polls + 1, ?_⟩
      rw [hfound] at hpoll
      rw [poll, AsyncCursor.poll_suspended hpoll, hstep]
      rfl
    | some o =>
      right
      refine ⟨o, rfl, ?_⟩
      rw [hfound] at hpoll
      rw [poll, AsyncCursor.poll_over hpoll, hnext, hfound]
      rfl
  · have hpoll : (r.upcoming I l).poll I = some (.failed none, some (settle (o.outcome I))) := by
      rw [hstep, houtcome]
      rfl
    have hnext : (r.upcoming I l).next I l.started = some o := by
      rw [hstep]
      exact hend
    right
    refine ⟨o, hnext, ?_⟩
    rw [poll, AsyncCursor.poll_over hpoll, hnext]
    rfl

theorem poll_panicked (hr : r.Sound) : (r.poll I l).2.2.panicked = l.panicked := by
  rcases poll_cases hr with ⟨-, polls, h⟩ | ⟨o, -, h⟩
  · rw [h]
    exact ledger_panicked
  · rw [h]
    exact ledger_panicked

/-- The steps whose end has not been seen: the one that is on its way, and those that were left. -/
structure Tracked (r : Reader Value Item) (l : Ledger) : Prop where
  behind : ∀ k ∈ l.unseen, k < l.started
  kept : l.left = false → l.unseen = r.waiting.toList
  left : l.left = true → ∃ k ∈ l.unseen, r.waiting ≠ some k

theorem tracked_new : (new : Reader Value Item).Tracked Ledger.new where
  behind := nofun
  kept _ := rfl
  left := nofun

/-- Where no step is on its way, the ends of all have been seen unless one was left. -/
theorem Tracked.unseen_iff (h : r.Tracked l) (hcurrent : r.current = none) :
    l.unseen = [] ↔ l.left = false := by
  have hwaiting : r.waiting = none := by rw [waiting, hcurrent]
  constructor
  · intro hunseen
    by_contra hleft
    obtain ⟨k, hk, -⟩ := h.left (by simpa using hleft)
    rw [hunseen] at hk
    cases hk
  · intro hleft
    rw [h.kept hleft, hwaiting]
    rfl

/-- A collect leaves the step of the stream that is on its way. -/
theorem Tracked.leave (h : r.Tracked l) :
    (new : Reader Value Item).Tracked (l.leave r.waiting.isSome) where
  behind := h.behind
  kept hleft := by
    obtain ⟨hleft, hwaiting⟩ := Bool.or_eq_false_iff.mp hleft
    change l.unseen = []
    rw [h.kept hleft, Option.toList_eq_nil_iff]
    simpa using hwaiting
  left hleft := by
    cases hbefore : l.left with
    | true =>
      obtain ⟨k, hk, -⟩ := h.left hbefore
      exact ⟨k, hk, nofun⟩
    | false =>
      have hsome : r.waiting.isSome = true := by simpa [Ledger.leave, hbefore] using hleft
      obtain ⟨k, hk⟩ := Option.isSome_iff_exists.mp hsome
      refine ⟨k, ?_, nofun⟩
      change k ∈ l.unseen
      rw [h.kept hbefore, hk]
      exact List.mem_singleton_self k

/-- The steps once the next poll has begun, where the step of the poll counts as on its way. -/
structure Upcoming (I : AsyncIterator Value Item) (r : Reader Value Item) (l : Ledger) : Prop where
  behind : ∀ k ∈ (r.begun I l).unseen, k < (r.begun I l).started
  same : (r.begun I l).left = l.left
  kept : l.left = false → (r.begun I l).unseen = [(r.upcoming I l).number l.started] ∨
    (r.begun I l).unseen = [] ∧ ∃ o, (r.upcoming I l).next I l.started = some o ∧ o.seen = true
  left : l.left = true → ∃ k ∈ (r.begun I l).unseen, k ≠ (r.upcoming I l).number l.started

theorem Tracked.upcoming_of_some (h : r.Tracked l) {k polls : Nat}
    (hcurrent : r.current = some (.pending k polls)) : r.Upcoming I l := by
  have hbegun : r.begun I l = l := by rw [begun, hcurrent]
  have hnumber : (r.upcoming I l).number l.started = k := by
    rw [Reader.upcoming, hcurrent]
    rfl
  have hwaiting : r.waiting = some k := by rw [waiting, hcurrent]
  refine ⟨?_, ?_, fun hleft => ?_, fun hleft => ?_⟩
  · rw [hbegun]
    exact h.behind
  · rw [hbegun]
  · rw [hbegun, hnumber, h.kept hleft, hwaiting]
    exact Or.inl rfl
  · obtain ⟨k', hk', hne⟩ := h.left hleft
    rw [hbegun, hnumber]
    refine ⟨k', hk', fun heq => hne ?_⟩
    rw [hwaiting, heq]

theorem Tracked.upcoming_of_none (h : r.Tracked l) (hcurrent : r.current = none) :
    r.Upcoming I l := by
  have hbegun : r.begun I l = l.start (I.start l.started) := by rw [begun, hcurrent]
  have hstep : r.upcoming I l = I.withAsyncStep l.started := by
    rw [Reader.upcoming, hcurrent]
    rfl
  have hnumber : (r.upcoming I l).number l.started = l.started := by
    rw [hstep, AsyncIterator.withAsyncStep]
    cases I.start l.started with
    | _ => rfl
  have hsub : ∀ k ∈ l.unseen, k ∈ (l.start (I.start l.started)).unseen := by
    intro k hk
    change k ∈ if _ then _ else _
    split
    · exact List.mem_cons_of_mem _ hk
    · exact hk
  refine ⟨fun k hk => ?_, ?_, fun hleft => ?_, fun hleft => ?_⟩
  · rw [hbegun] at hk ⊢
    change k < l.started + 1
    have hk' : k = l.started ∨ k ∈ l.unseen := by
      change k ∈ (if _ then _ else _ : List Nat) at hk
      split at hk
      · exact List.mem_cons.mp hk
      · exact Or.inr hk
    rcases hk' with rfl | hk
    · exact Nat.lt_succ_self _
    · exact Nat.lt_succ_of_lt (h.behind k hk)
  · rw [hbegun]
    rfl
  · have hunseen := (h.unseen_iff hcurrent).mpr hleft
    rw [hbegun, hnumber, hstep, Ledger.start, AsyncIterator.withAsyncStep, hunseen]
    cases hstart : I.start l.started with
    | begun => exact Or.inl rfl
    | raised heap x traceback => exact Or.inl rfl
    | refused e =>
      refine Or.inr ⟨rfl, .failed e false, ?_, rfl⟩
      simp [AsyncStep.next, hstart, Start.toEnd]
  · obtain ⟨k, hk, -⟩ := h.left hleft
    rw [hbegun, hnumber]
    exact ⟨k, hsub k hk, Nat.ne_of_lt (h.behind k hk)⟩

theorem Tracked.upcoming (hr : r.Sound) (h : r.Tracked l) : r.Upcoming I l := by
  cases hcurrent : r.current with
  | none => exact h.upcoming_of_none hcurrent
  | some step =>
    cases step with
    | pending k polls => exact h.upcoming_of_some hcurrent
    | failed e => exact absurd hcurrent (hr e)

/-- A poll of the reader keeps track of the steps. -/
theorem tracked_poll (hr : r.Sound) (h : r.Tracked l) :
    (r.poll I l).2.1.Tracked (r.poll I l).2.2 := by
  have hnext := h.upcoming (I := I) hr
  rcases poll_cases hr with ⟨hnone, polls, hpoll⟩ | ⟨o, hsome, hpoll⟩
  · have hledger : r.ledger I l = r.begun I l := by rw [ledger, hnone]
    rw [hpoll]
    refine ⟨?_, fun hleft => ?_, fun hleft => ?_⟩
    · rw [hledger]
      exact hnext.behind
    · rw [hledger] at hleft ⊢
      rcases hnext.kept (hnext.same ▸ hleft) with hunseen | ⟨-, o, ho, -⟩
      · exact hunseen
      · rw [hnone] at ho
        cases ho
    · rw [hledger] at hleft ⊢
      obtain ⟨k, hk, hne⟩ := hnext.left (hnext.same ▸ hleft)
      exact ⟨k, hk, fun heq => hne (Option.some.inj heq).symm⟩
  · have hledger : r.ledger I l =
        (r.begun I l).finish ((r.upcoming I l).number l.started) o := by rw [ledger, hsome]
    rw [hpoll]
    dsimp only
    rw [hledger, Ledger.finish]
    cases hseen : o.seen with
    | true =>
      refine ⟨fun k hk => hnext.behind k (List.mem_of_mem_erase hk), fun hleft => ?_,
        fun hleft => ?_⟩
      · change (r.begun I l).unseen.erase _ = []
        rcases hnext.kept (hnext.same ▸ hleft) with hunseen | ⟨hunseen, -⟩
        · rw [hunseen, List.erase_cons_head]
        · rw [hunseen, List.erase_nil]
      · obtain ⟨k, hk, hne⟩ := hnext.left (hnext.same ▸ hleft)
        exact ⟨k, (List.mem_erase_of_ne hne).mpr hk, nofun⟩
    | false =>
      refine ⟨hnext.behind, fun hleft => ?_, fun _ => ?_⟩
      · exact absurd hleft (by simp [Ledger.leave])
      · cases hbefore : l.left with
        | true =>
          obtain ⟨k, hk, -⟩ := hnext.left hbefore
          exact ⟨k, hk, nofun⟩
        | false =>
          rcases hnext.kept hbefore with hunseen | ⟨-, o', ho', hseen'⟩
          · refine ⟨(r.upcoming I l).number l.started, ?_, nofun⟩
            change _ ∈ (r.begun I l).unseen
            rw [hunseen]
            exact List.mem_singleton_self _
          · cases hsome.symm.trans ho'
            rw [hseen] at hseen'
            cases hseen'

/-- A poll keeps to what the steps come to exactly if it is fair. -/
theorem fair_iff (hr : r.Sound) (htracked : r.Tracked l) (hright : r.Right I)
    (hl : l.overlapped = false) :
    (r.poll I l).2.2.overlapped = false ∧ (r.poll I l).2.1.Right I ↔ r.Fair I l := by
  have hoverlapped : (r.ledger I l).overlapped = false ↔
      (r.current = none → (I.start l.started).called = true → l.left = false) := by
    rw [ledger_overlapped_iff hl]
    refine forall_congr' fun hcurrent => ?_
    rw [htracked.unseen_iff hcurrent]
  rcases poll_cases hr with ⟨hnext, polls, h⟩ | ⟨o, hnext, h⟩
  · rw [h]
    constructor
    · rintro ⟨halone, -⟩
      refine ⟨hoverlapped.mp halone, fun o ho => ?_⟩
      rw [hnext] at ho
      cases ho
    · exact fun hfair => ⟨hoverlapped.mpr hfair.settled, hright⟩
  · rw [h]
    have htold : (Reader.mk none (r.ends ++ [o]) (r.given ++ [settle (o.outcome I)])).Right I ↔
        o.Told I := by
      change r.given ++ [settle (o.outcome I)] = (r.ends ++ [o]).map (End.ideal I) ↔ _
      rw [List.map_append, ← show r.given = r.ends.map (End.ideal I) from hright,
        List.append_cancel_left_eq, List.map_singleton, List.singleton_inj]
      exact settle_eq_ideal_iff I o
    rw [htold, hoverlapped]
    constructor
    · rintro ⟨hsettled, htold⟩
      refine ⟨hsettled, fun o' ho' => ?_⟩
      rw [hnext] at ho'
      cases ho'
      exact htold
    · exact fun hfair => ⟨hfair.settled, hfair.told o hnext⟩

end Reader

/-! ## What the host is handed -/

/-- `collect` returns all items if an end comes after them, and the first error otherwise. -/
structure Collect.Recorded (c : Collect Value Item) : Prop where
  sound : c.reader.Sound
  items : c.result = none → c.reader.given = c.items.map fun item => .ok (some item)
  ended : ∀ items, c.result = some (.ok items) →
    c.reader.given = (items.map fun item => .ok (some item)) ++ [.ok none]
  failed : ∀ e, c.result = some (.error e) →
    ∃ items : List Item, c.reader.given = (items.map fun item => .ok (some item)) ++ [.error e]

/-- The host is handed what is made of the steps, and no assertion has failed. -/
structure AsyncIter.Recorded (s : AsyncIter Value Item) : Prop where
  panicked : s.ledger.panicked = false
  sound : s.cursor.Sound
  yielded : s.yielded = s.cursor.given.map transpose
  collecting : ∀ c, s.collecting = some c → c.Recorded

theorem Collect.recorded_new : (Collect.new : Collect Value Item).Recorded :=
  ⟨nofun, fun _ => rfl, nofun, nofun⟩

theorem Collect.recorded_receive {c : Collect Value Item} {current : Option AsyncStep}
    {ends : List (End Value)} {outcome : Except Err (Option Item)} (hc : c.Recorded)
    (hresult : c.result = none) (hcurrent : ∀ e, current ≠ some (.failed e)) :
    (Collect.receive outcome
      { c with reader := ⟨current, ends, c.reader.given ++ [outcome]⟩ }).Recorded := by
  have hgiven := hc.items hresult
  match outcome with
  | .ok (some item) =>
    refine ⟨hcurrent, fun _ => ?_, fun items h => ?_, fun e h => ?_⟩
    · change c.reader.given ++ _ = (c.items ++ [item]).map _
      rw [hgiven, List.map_append]
      rfl
    · cases hresult.symm.trans h
    · cases hresult.symm.trans h
  | .ok none =>
    refine ⟨hcurrent, nofun, fun items h => ?_, nofun⟩
    cases h
    change c.reader.given ++ _ = _
    rw [hgiven]
  | .error e =>
    refine ⟨hcurrent, nofun, nofun, fun e' h => ?_⟩
    cases h
    refine ⟨c.items, ?_⟩
    change c.reader.given ++ _ = _
    rw [hgiven]

namespace AsyncIter

variable {I : AsyncIterator Value Item} {s : AsyncIter Value Item}

theorem recorded_new : (AsyncIter.new : AsyncIter Value Item).Recorded := by
  refine ⟨rfl, nofun, rfl, fun c hc => ?_⟩
  cases hc

theorem recorded_pollNext (hs : s.Recorded) : (s.pollNext I).Recorded := by
  have hpanicked := Reader.poll_panicked (I := I) (l := s.ledger) hs.sound
  unfold pollNext
  rcases Reader.poll_cases (I := I) (l := s.ledger) hs.sound with ⟨-, polls, h⟩ | ⟨o, -, h⟩
  · rw [h] at hpanicked ⊢
    refine ⟨hpanicked.trans hs.panicked, fun e he => ?_, hs.yielded, hs.collecting⟩
    cases he
  · rw [h] at hpanicked ⊢
    refine ⟨hpanicked.trans hs.panicked, nofun, ?_, hs.collecting⟩
    change s.yielded ++ _ = (s.cursor.given ++ _).map transpose
    rw [hs.yielded, List.map_append]
    rfl

theorem recorded_round {c : Collect Value Item} (hs : s.Recorded) (hc : c.Recorded)
    (hresult : c.result = none) : (s.round I c).Recorded := by
  have hpanicked := Reader.poll_panicked (I := I) (l := s.ledger) hc.sound
  unfold round
  rcases Reader.poll_cases (I := I) (l := s.ledger) hc.sound with ⟨-, polls, h⟩ | ⟨o, -, h⟩
  · rw [h] at hpanicked ⊢
    refine ⟨hpanicked.trans hs.panicked, hs.sound, hs.yielded, fun c' hc' => ?_⟩
    cases hc'
    refine ⟨fun e he => ?_, hc.items, hc.ended, hc.failed⟩
    cases he
  · rw [h] at hpanicked ⊢
    refine ⟨hpanicked.trans hs.panicked, hs.sound, hs.yielded, fun c' hc' => ?_⟩
    cases hc'
    exact Collect.recorded_receive hc hresult nofun

theorem recorded_step (s : AsyncIter Value Item) (op : Op) (hs : s.Recorded) :
    (s.step I op).Recorded := by
  unfold step
  cases op with
  | next =>
    cases hcollecting : s.collecting with
    | none => exact recorded_pollNext hs
    | some c => exact hs
  | collect =>
    cases hcollecting : s.collecting with
    | none =>
      refine ⟨hs.panicked, hs.sound, hs.yielded, fun c hc => ?_⟩
      cases hc
      exact Collect.recorded_new
    | some c => exact hs
  | round =>
    cases hcollecting : s.collecting with
    | none => exact hs
    | some c =>
      dsimp only
      cases hresult : c.result with
      | some result => exact hs
      | none => exact recorded_round hs (hs.collecting c hcollecting) hresult

/-- The reader that the next poll is made with. -/
def active (s : AsyncIter Value Item) : Reader Value Item :=
  match s.collecting with
  | some c => c.reader
  | none => s.cursor

theorem active_of_none (h : s.collecting = none) : s.active = s.cursor := by
  rw [active, h]

theorem active_of_some {c : Collect Value Item} (h : s.collecting = some c) :
    s.active = c.reader := by
  rw [active, h]

theorem pollNext_parts : (s.pollNext I).ledger = (s.cursor.poll I s.ledger).2.2 ∧
    (s.pollNext I).cursor = (s.cursor.poll I s.ledger).2.1 ∧
    (s.pollNext I).collecting = s.collecting := by
  unfold pollNext
  split
  · next h => rw [h]; exact ⟨rfl, rfl, rfl⟩
  · next h => rw [h]; exact ⟨rfl, rfl, rfl⟩

theorem round_parts {c : Collect Value Item} :
    (s.round I c).ledger = (c.reader.poll I s.ledger).2.2 ∧ (s.round I c).cursor = s.cursor ∧
    ∃ c', (s.round I c).collecting = some c' ∧
      c'.reader = (c.reader.poll I s.ledger).2.1 := by
  unfold round
  split
  · next outcome reader ledger h =>
    rw [h]
    refine ⟨rfl, rfl, _, rfl, ?_⟩
    match outcome with
    | .ok (some item) => rfl
    | .ok none => rfl
    | .error e => rfl
  · next h =>
    rw [h]
    exact ⟨rfl, rfl, _, rfl, rfl⟩

/-- The steps of the reader at hand are tracked, whatever happens. -/
theorem tracked_step (s : AsyncIter Value Item) (op : Op) (hs : s.Recorded)
    (h : s.active.Tracked s.ledger) : (s.step I op).active.Tracked (s.step I op).ledger := by
  unfold step
  cases hcollecting : s.collecting with
  | none =>
    rw [active_of_none hcollecting] at h
    cases op with
    | next =>
      obtain ⟨hledger, hcursor, hkept⟩ := pollNext_parts (I := I) (s := s)
      change (s.pollNext I).active.Tracked (s.pollNext I).ledger
      rw [active_of_none (hkept.trans hcollecting), hcursor, hledger]
      exact Reader.tracked_poll hs.sound h
    | collect => exact h.leave
    | round =>
      change s.active.Tracked s.ledger
      rw [active_of_none hcollecting]
      exact h
  | some c =>
    cases op with
    | next => exact h
    | collect => exact h
    | round =>
      dsimp only
      cases hresult : c.result with
      | some result => exact h
      | none =>
        rw [active_of_some hcollecting] at h
        obtain ⟨hledger, -, c', hc', hreader⟩ := round_parts (I := I) (s := s) (c := c)
        change (s.round I c).active.Tracked (s.round I c).ledger
        rw [active_of_some hc', hreader, hledger]
        exact Reader.tracked_poll (hs.collecting c hcollecting).sound h

/-! ## Faithful runs -/

/-- The host is handed what the steps come to, and no step has been started before the ends of all
others had been seen. -/
structure Faithful (I : AsyncIterator Value Item) (s : AsyncIter Value Item) : Prop where
  recorded : s.Recorded
  alone : s.ledger.overlapped = false
  stream : s.cursor.Right I
  collect : ∀ c, s.collecting = some c → c.reader.Right I

/-- The poll that an operation makes is fair. -/
def FairStep (I : AsyncIterator Value Item) (s : AsyncIter Value Item) : Op → Prop
  | .next => s.collecting = none → s.cursor.Fair I s.ledger
  | .collect => True
  | .round => ∀ c, s.collecting = some c → c.result = none → c.reader.Fair I s.ledger

theorem faithful_new : (AsyncIter.new : AsyncIter Value Item).Faithful I := by
  refine ⟨recorded_new, rfl, rfl, fun c hc => ?_⟩
  cases hc

/-- What `anext` hands out is faithful just if its poll is fair. -/
theorem faithful_pollNext_iff (hcollecting : s.collecting = none)
    (htracked : s.active.Tracked s.ledger) (hs : s.Faithful I) :
    (s.pollNext I).Faithful I ↔ s.cursor.Fair I s.ledger := by
  obtain ⟨hledger, hcursor, hkept⟩ := pollNext_parts (I := I) (s := s)
  rw [active_of_none hcollecting] at htracked
  have hfair := Reader.fair_iff hs.recorded.sound htracked hs.stream hs.alone
  constructor
  · intro h
    exact hfair.mp ⟨hledger ▸ h.alone, hcursor ▸ h.stream⟩
  · intro h
    obtain ⟨halone, hright⟩ := hfair.mpr h
    refine ⟨recorded_pollNext hs.recorded, hledger ▸ halone, hcursor ▸ hright, ?_⟩
    rw [hkept]
    exact hs.collect

/-- A round of `collect` is faithful just if its poll is fair. -/
theorem faithful_round_iff {c : Collect Value Item} (hcollecting : s.collecting = some c)
    (hresult : c.result = none) (htracked : s.active.Tracked s.ledger) (hs : s.Faithful I) :
    (s.round I c).Faithful I ↔ c.reader.Fair I s.ledger := by
  obtain ⟨hledger, hcursor, c', hc', hreader⟩ := round_parts (I := I) (s := s) (c := c)
  have hrecorded := hs.recorded.collecting c hcollecting
  rw [active_of_some hcollecting] at htracked
  have hfair := Reader.fair_iff hrecorded.sound htracked (hs.collect c hcollecting) hs.alone
  constructor
  · intro h
    exact hfair.mp ⟨hledger ▸ h.alone, hreader ▸ h.collect c' hc'⟩
  · intro h
    obtain ⟨halone, hright⟩ := hfair.mpr h
    refine ⟨recorded_round hs.recorded hrecorded hresult, hledger ▸ halone,
      hcursor ▸ hs.stream, fun c₁ hc₁ => ?_⟩
    cases hc'.symm.trans hc₁
    exact hreader ▸ hright

/-- Beginning to collect starts no step. -/
theorem faithful_collect (hs : s.Faithful I) : (s.step I .collect).Faithful I := by
  have hrecorded := recorded_step (I := I) s .collect hs.recorded
  cases hcollecting : s.collecting with
  | some c =>
    have hsame : s.step I .collect = s := by
      rw [step, hcollecting]
    rw [hsame]
    exact hs
  | none =>
    have hbegun : s.step I .collect =
        { s with ledger := s.ledger.leave s.cursor.waiting.isSome, collecting := some .new } := by
      rw [step, hcollecting]
    rw [hbegun] at hrecorded ⊢
    refine ⟨hrecorded, hs.alone, hs.stream, fun c hc => ?_⟩
    cases hc
    rfl

theorem faithful_step_iff (s : AsyncIter Value Item) (op : Op)
    (htracked : s.active.Tracked s.ledger) (hs : s.Faithful I) :
    (s.step I op).Faithful I ↔ s.FairStep I op := by
  cases op with
  | next =>
    cases hcollecting : s.collecting with
    | some c =>
      have hsame : s.step I .next = s := by
        rw [step, hcollecting]
      rw [hsame]
      refine ⟨fun _ h => ?_, fun _ => hs⟩
      cases hcollecting.symm.trans h
    | none =>
      have hnext : s.step I .next = s.pollNext I := by
        rw [step, hcollecting]
      rw [hnext, faithful_pollNext_iff hcollecting htracked hs]
      exact ⟨fun h _ => h, fun h => h hcollecting⟩
  | collect => exact iff_of_true (faithful_collect hs) trivial
  | round =>
    cases hcollecting : s.collecting with
    | none =>
      have hsame : s.step I .round = s := by
        rw [step, hcollecting]
      rw [hsame]
      refine ⟨fun _ c hc => ?_, fun _ => hs⟩
      cases hcollecting.symm.trans hc
    | some c =>
      cases hresult : c.result with
      | some result =>
        have hsame : s.step I .round = s := by
          rw [step, hcollecting]
          dsimp only
          rw [hresult]
          rfl
        rw [hsame]
        refine ⟨fun _ c' hc' hnone => ?_, fun _ => hs⟩
        cases hcollecting.symm.trans hc'
        cases hresult.symm.trans hnone
      | none =>
        have hround : s.step I .round = s.round I c := by
          rw [step, hcollecting]
          dsimp only
          rw [hresult]
          rfl
        rw [hround, faithful_round_iff hcollecting hresult htracked hs]
        refine ⟨fun h c' hc' _ => ?_, fun h => h c hcollecting hresult⟩
        cases hcollecting.symm.trans hc'
        exact h

/-- **A run hands the host what the steps come to exactly if its polls are fair**: no step is
started after one has been left, by a poll that failed or by `collect`, and each that ends can be
told from its error. -/
theorem faithful_iff (I : AsyncIterator Value Item) (ops : List Op) :
    Throughout (step I) (Faithful I) new ops ↔ Along (step I) (FairStep I) new ops :=
  throughout_iff_along (Q := fun s => s.Recorded ∧ s.active.Tracked s.ledger)
    (fun s op hs => ⟨recorded_step s op hs.1, tracked_step s op hs.1 hs.2⟩)
    (fun s op hs => faithful_step_iff s op hs.2) ⟨recorded_new, Reader.tracked_new⟩ faithful_new

/-! ## A class with the name of the builtin -/

/-- Guest code has run `class StopAsyncIteration(Exception): pass` in its module `app`, which is
object 4, and object 5 is an instance of that. -/
def lookalikeHeap : Heap where
  objects x :=
    match x with
    | 0 => builtinClass "type" [0]
    | 1 => builtinClass "BaseException" [1]
    | 2 => builtinClass "Exception" [2, 1]
    | 3 => builtinClass "StopAsyncIteration" [3, 2, 1]
    | 4 => { builtinClass "StopAsyncIteration" [4, 2, 1] with module := some "app".toList }
    | _ => Interpreter.instanceOf 4 none none
  next := 6

/-- An iterator whose steps raise that. -/
def lookalike : AsyncIterator Unit Unit where
  stop := 3
  start _ := .begun
  found _ _ := some (.raised lookalikeHeap 5 none)
  convert := .ok

/-- The stream comes to its end, where it should have handed over the exception. -/
theorem not_faithful_of_lookalike :
    ¬ ∀ (I : AsyncIterator Unit Unit) (ops : List Op),
      Throughout (step I) (Faithful I) new ops := by
  intro h
  have hstep : (new.step lookalike .next).Faithful lookalike := (h lookalike [.next]).2
  have hfair := (faithful_step_iff new .next Reader.tracked_new faithful_new).mp hstep rfl
  have htold : BearsStopName lookalikeHeap 5 ↔ lookalikeHeap.IsInstance 5 3 := hfair.told _ rfl
  have hbears : BearsStopName lookalikeHeap 5 := ⟨4, by decide, "app".toList, by decide⟩
  exact absurd (htold.mp hbears) (by decide)

end AsyncIter

end GuestPy.Iteration
