import GuestPy.Exceptions.Requests
import GuestPy.Exceptions.Matching

/-!
# Exceptions of a runtime

In a `Runtime` exceptions are registered and asked for in any order, while guest code runs. A
request that does not come to an end is the end of the runtime, too.

* `WellFormed.step`: every step keeps the interpreter sound, and the answers that have been given.
* `realisable_iff_chainEnds`: requests for an exception come to an end, and give one class with the
  declared bases, just if the chain of references comes to an end.
-/

namespace GuestPy.Exceptions

open Host

variable {types : TypeId → HostException}

/-! ## Runtimes -/

/-- A runtime, with the dictionaries of builtins that it has had, and with the classes that it has
answered requests with. -/
structure Runtime (types : TypeId → HostException) where
  interpreter : Interpreter types
  past : List (Str → Option ObjectId)
  answers : List (ExceptionKey × ObjectId)

/-- Guest code ran. It does not move a class to other bases, and the dictionary of builtins holds
objects. -/
structure GuestRan (i i' : Interpreter types) : Prop where
  cache : i'.cache = i.cache
  next : i.heap.next ≤ i'.heap.next
  mro : ∀ x, x < i.heap.next → (i'.heap.objects x).mro = (i.heap.objects x).mro
  valid : ∀ name c, i'.builtins name = some c → c < i'.heap.next

namespace Runtime

open ExceptionRealiser

inductive Step : Runtime types → Runtime types → Prop
  | absorb (r : Runtime types) (spec : ExceptionSpec types) :
    Step r { r with
      interpreter := { r.interpreter with cache := r.interpreter.cache.absorb spec } }
  | answered {r : Runtime types} {depth : Nat} {key : ExceptionKey} {c : ObjectId}
    {i' : Interpreter types} : host depth key r.interpreter = (.ok c, i') →
    Step r { r with interpreter := i', answers := (key, c) :: r.answers }
  | failed {r : Runtime types} {depth : Nat} {key : ExceptionKey} {e : Err}
    {i' : Interpreter types} : host depth key r.interpreter = (.err e, i') →
    Step r { r with interpreter := i' }
  | guest {r : Runtime types} {i' : Interpreter types} : GuestRan r.interpreter i' →
    Step r { r with interpreter := i', past := i'.builtins :: r.past }

/-- Exceptions are registered and asked for in any order, while guest code runs. -/
inductive Reachable : Runtime types → Prop
  | start {i : Interpreter types} : i.cache = .new →
    (∀ name c, i.builtins name = some c → c < i.heap.next) → Reachable ⟨i, [i.builtins], []⟩
  | step {r r' : Runtime types} : Reachable r → Step r r' → Reachable r'

/-- The interpreter is sound, and every class that was an answer is still the one. -/
structure WellFormed (r : Runtime types) : Prop where
  sound : Sound r.past r.interpreter
  answers : ∀ key c, (key, c) ∈ r.answers → r.interpreter.cache.realisedException key = some c

theorem extends_absorb (c : RealisationCache types) (spec : ExceptionSpec types) :
    c.Extends (c.absorb spec) where
  specs key spec' h := by
    obtain ⟨e, he, rfl⟩ := Option.map_eq_some_iff.mp h
    have hentry : (c.absorb spec).exceptions.entry key = some e := Interned.entry_intern he
    exact congrArg (Option.map InternedEntry.spec) hentry
  realised key x h := by
    obtain ⟨e, he, hx⟩ := Option.bind_eq_some_iff.mp h
    have hentry : (c.absorb spec).exceptions.entry key = some e := Interned.entry_intern he
    exact (congrArg (Option.bind · InternedEntry.realised) hentry).trans hx

theorem realised_of_absorb {c : RealisationCache types} {spec : ExceptionSpec types}
    {key : ExceptionKey} {x : ObjectId} (h : (c.absorb spec).realisedException key = some x) :
    c.realisedException key = some x := by
  obtain ⟨e, he, hx⟩ := Option.bind_eq_some_iff.mp h
  rcases Interned.mem_intern.mp (Interned.entry_eq_some_iff.mp he) with hmem | ⟨-, heq⟩
  · exact (congrArg (Option.bind · InternedEntry.realised)
      (Interned.entry_eq_some_iff.mpr hmem)).trans hx
  · cases heq
    cases hx

theorem WellFormed.step {r r' : Runtime types} (h : WellFormed r) (hstep : Step r r') :
    WellFormed r' := by
  cases hstep with
  | absorb spec =>
    have hextends := extends_absorb r.interpreter.cache spec
    refine ⟨h.sound.of_grown ⟨hextends, le_refl _, fun _ _ => rfl⟩ h.sound.current
      fun key c hc => realised_of_absorb hc, fun key c hc => ?_⟩
    exact hextends.realised key c (h.answers key c hc)
  | @answered _ _ c _ hhost =>
    obtain ⟨hrealises, hanswer, -⟩ := requested_host _ h.sound hhost
    refine ⟨hrealises.sound, fun key c hc => ?_⟩
    rcases List.mem_cons.mp hc with heq | hc
    · cases heq
      exact hanswer c rfl
    · exact hrealises.grown.cache.realised key c (h.answers key c hc)
  | failed hhost =>
    obtain ⟨hrealises, -⟩ := requested_host _ h.sound hhost
    refine ⟨hrealises.sound, fun key c hc => ?_⟩
    exact hrealises.grown.cache.realised key c (h.answers key c hc)
  | @guest i' hran =>
    have hgrown : Grown r.interpreter i' := ⟨.of_eq hran.cache, hran.next, hran.mro⟩
    refine ⟨⟨List.mem_cons_self, fun builtins hmem name c hc => ?_, fun key c hc => ?_,
      fun key c hc => ?_⟩, fun key c hc => ?_⟩
    · rcases List.mem_cons.mp hmem with rfl | hmem
      · exact hran.valid name c hc
      · exact (h.sound.valid builtins hmem name c hc).trans_le hran.next
    · rw [hran.cache] at hc
      exact (h.sound.allocated key c hc).trans_le hran.next
    · rw [hran.cache] at hc
      exact (h.sound.realised key c hc).mono h.sound hgrown (List.subset_cons_self ..)
    · exact hgrown.cache.realised key c (h.answers key c hc)

theorem Reachable.wellFormed {r : Runtime types} (h : Reachable r) : WellFormed r := by
  induction h with
  | @start i hcache hvalid =>
    have hnone : ∀ key, i.cache.realisedException key = none := by
      intro key
      rw [hcache]
      rfl
    refine ⟨⟨List.mem_singleton_self _, fun builtins hmem => ?_, fun key c hc => ?_,
      fun key c hc => ?_⟩, nofun⟩
    · rw [List.mem_singleton.mp hmem]
      exact hvalid
    · rw [hnone] at hc
      cases hc
    · rw [hnone] at hc
      cases hc
  | step _ hstep ih => exact ih.step hstep

/-- A request for the exception returns a class or an error. A class that it returns has the
declared bases, and is the one that earlier requests have returned. -/
structure Realisable (r : Runtime types) (key : ExceptionKey) : Prop where
  returns : ∃ depth, (∃ c, (host depth key r.interpreter).1 = .ok c) ∨
    ∃ e, (host depth key r.interpreter).1 = .err e
  declared : ∀ depth c i', host depth key r.interpreter = (.ok c, i') →
    Declared r.past i' key.class c
  same : ∀ depth c i', host depth key r.interpreter = (.ok c, i') →
    ∀ c', (key, c') ∈ r.answers → c' = c

/-- **Requests come to an end just if references do.** -/
theorem realisable_iff_chainEnds (r : Runtime types) (hr : Reachable r) (key : ExceptionKey) :
    Realisable r key ↔ r.interpreter.cache.ChainEnds key := by
  have hwell := hr.wellFormed
  constructor
  · rintro ⟨⟨depth, hends⟩, -, -⟩
    by_contra hnot
    rw [host_stuck hwell.sound hnot depth] at hends
    rcases hends with ⟨c, hc⟩ | ⟨e, he⟩
    · cases hc
    · cases he
  · intro hends
    obtain ⟨depth, hdepth⟩ := exists_host_ne_stuck hwell.sound hends
    refine ⟨⟨depth, ?_⟩, fun depth c i' h => ?_, fun depth c i' h c' hc' => ?_⟩
    · rcases h : host depth key r.interpreter with ⟨o, i'⟩
      have hdecided := (requested_host depth hwell.sound h).decided
      rw [h] at hdepth
      cases o with
      | ok c => exact Or.inl ⟨c, rfl⟩
      | err e => exact Or.inr ⟨e, rfl⟩
      | panic => exact absurd rfl hdecided
      | stuck => exact absurd rfl hdepth
    · obtain ⟨hrealises, hanswer, -⟩ := requested_host depth hwell.sound h
      exact hrealises.sound.realised key c (hanswer c rfl)
    · obtain ⟨hrealises, hanswer, -⟩ := requested_host depth hwell.sound h
      have hkept := hrealises.grown.cache.realised key c' (hwell.answers key c' hc')
      exact Option.some.inj (hkept.symm.trans (hanswer c rfl))

/-! ### Exceptions of one module -/

theorem fresh_valid (types : TypeId → HostException) (name : Str) (c : ObjectId)
    (h : (Interpreter.fresh types).builtins name = some c) :
    c < (Interpreter.fresh types).heap.next := by
  change (if name = _ then _ else if name = _ then _ else if name = _ then _ else _) = _ at h
  change c < 5
  split at h
  · cases h
    decide
  · split at h
    · cases h
      decide
    · split at h
      · cases h
        decide
      · cases h

/-- A runtime that has registered an exception `name` of the module `m` with each of the bases. -/
def registering (exceptions : List (Str × ExceptionClass)) : Runtime timeoutTypes where
  interpreter :=
    { Interpreter.fresh timeoutTypes with
      cache := exceptions.foldr (fun e c => c.absorb (.named "m".toList e.1 e.2)) .new }
  past := [(Interpreter.fresh timeoutTypes).builtins]
  answers := []

theorem reachable_registering (exceptions : List (Str × ExceptionClass)) :
    Reachable (registering exceptions) := by
  induction exceptions with
  | nil => exact .start rfl (fresh_valid timeoutTypes)
  | cons e exceptions ih => exact .step ih (.absorb _ (.named "m".toList e.1 e.2))

theorem realisable_derived :
    Realisable (registering [("A".toList, .host "m".toList "B".toList),
      ("B".toList, .builtin "Exception".toList)]) (.named "m".toList "A".toList) := by
  rw [realisable_iff_chainEnds _ (reachable_registering _)]
  refine Acc.intro _ ?_
  rintro base ⟨spec, hspec, hbase⟩
  cases hspec
  cases hbase
  refine RealisationCache.chainEnds_of_forall_not ?_
  rintro base ⟨spec, hspec, hbase⟩
  cases hspec
  cases hbase

theorem not_realisable_of_own_base :
    ¬ ∀ (types : TypeId → HostException) (r : Runtime types) (key : ExceptionKey),
      Reachable r → (r.interpreter.cache.exceptionSpec key).isSome → Realisable r key := by
  intro h
  have hreachable := reachable_registering [("A".toList, .host "m".toList "A".toList)]
  obtain ⟨⟨depth, hends⟩, -, -⟩ := h _ _ (.named "m".toList "A".toList) hreachable rfl
  have hloop : ¬ RealisationCache.ChainEnds (registering
      [("A".toList, .host "m".toList "A".toList)]).interpreter.cache
        (.named "m".toList "A".toList) := fun hends => hends.not_leadsTo ⟨_, rfl, rfl⟩ .refl
  rw [host_stuck hreachable.wellFormed.sound hloop depth] at hends
  rcases hends with ⟨c, hc⟩ | ⟨e, he⟩
  · cases hc
  · cases he

end Runtime

end GuestPy.Exceptions
