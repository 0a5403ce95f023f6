import GuestPy.Exceptions.Specs

/-!
# Classes that are realised once

The class of a registered exception is created when it is first asked for. `Rooted` says of
a key that it is registered, with a builtin base or a base of no key at all, so that its
class is realised without any other.

* `retaining key` is the discipline of the computations that neither forget such a key nor
  replace its class.
* `keeps_host`: realising any class keeps it, and realising this one returns its class.
-/

namespace GuestPy.Exceptions

variable {types : TypeId → HostException}

namespace Interned

variable {K V : Type} [DecidableEq K] {i : Interned K V} {key key' : K}

theorem entry_setRealised_self {e : InternedEntry V} {owned : ObjectId}
    (h : i.entry key = some e) :
    (i.setRealised key owned).entry key = some { e with realised := some owned } := by
  rw [entry_eq_some_iff, mem_setRealised]
  exact Or.inr ⟨rfl, e, entry_eq_some_iff.1 h, rfl⟩

theorem entry_setRealised_of_ne {e : InternedEntry V} {owned : ObjectId} (hne : key' ≠ key)
    (h : i.entry key' = some e) : (i.setRealised key owned).entry key' = some e := by
  rw [entry_eq_some_iff, mem_setRealised]
  exact Or.inl ⟨hne, entry_eq_some_iff.1 h⟩

theorem entry_intern {e : InternedEntry V} {spec : V} (h : i.entry key = some e) :
    (i.intern key' spec).entry key = some e := by
  rw [entry_eq_some_iff, mem_intern]
  exact Or.inl (entry_eq_some_iff.1 h)

end Interned

namespace RealisationCache

variable {c : RealisationCache types} {key key' : ExceptionKey}

/-- The key is registered, and the base of its class has no key. -/
def Rooted (c : RealisationCache types) (key : ExceptionKey) : Prop :=
  ∃ e, c.exceptions.entry key = some e ∧ e.spec.base.key = none

/-- The class of the key, once realised, stays. -/
def Retains (key : ExceptionKey) (c c' : RealisationCache types) : Prop :=
  ∀ owned, c.realisedException key = some owned → c'.realisedException key = some owned

theorem realised_of_entry {e : InternedEntry (ExceptionSpec types)}
    (h : c.exceptions.entry key = some e) : c.realisedException key = e.realised := by
  change (c.exceptions.entry key).bind InternedEntry.realised = _
  rw [h]
  rfl

theorem rooted_absorb (spec : ExceptionSpec types) (h : c.Rooted key) :
    (c.absorb spec).Rooted key := by
  obtain ⟨e, he, hbase⟩ := h
  exact ⟨e, Interned.entry_intern he, hbase⟩

theorem retains_absorb (spec : ExceptionSpec types) (h : c.Rooted key) :
    Retains key c (c.absorb spec) := by
  obtain ⟨e, he, -⟩ := h
  intro owned howned
  rw [realised_of_entry he] at howned
  have hentry : (c.absorb spec).exceptions.entry key = some e := Interned.entry_intern he
  rw [realised_of_entry hentry, howned]

theorem rooted_setRealised (owned : ObjectId) (h : c.Rooted key) :
    (c.setRealisedException key' owned).Rooted key := by
  obtain ⟨e, he, hbase⟩ := h
  by_cases hk : key = key'
  · subst hk
    exact ⟨_, Interned.entry_setRealised_self he, hbase⟩
  · exact ⟨e, Interned.entry_setRealised_of_ne hk he, hbase⟩

theorem retains_setRealised_of_ne (owned : ObjectId) (h : c.Rooted key) (hne : key ≠ key') :
    Retains key c (c.setRealisedException key' owned) := by
  obtain ⟨e, he, -⟩ := h
  intro x hx
  rw [realised_of_entry he] at hx
  have hentry : (c.setRealisedException key' owned).exceptions.entry key = some e :=
    Interned.entry_setRealised_of_ne hne he
  rw [realised_of_entry hentry, hx]

theorem realised_setRealised {owned : ObjectId} (h : c.Rooted key) :
    (c.setRealisedException key owned).realisedException key = some owned := by
  obtain ⟨e, he, -⟩ := h
  have hentry : (c.setRealisedException key owned).exceptions.entry key =
      some { e with realised := some owned } := Interned.entry_setRealised_self he
  exact realised_of_entry hentry

end RealisationCache

open RealisationCache

/-- Keeps a rooted key, and the class that it has. -/
def retaining (types : TypeId → HostException) (key : ExceptionKey) :
    Discipline (Interpreter types) where
  inv i := i.cache.Rooted key
  future i i' := Retains key i.cache i'.cache
  unwound _ := True
  refl _ _ h := h
  trans h h' owned ho := h' owned (h owned ho)

namespace ExceptionRealiser

variable {key : ExceptionKey} {i : Interpreter types}

theorem keeps_allocate (o : ObjectId → Object) :
    Keeps (retaining types key) i (Interpreter.allocate o) fun x i' =>
      i'.cache = i.cache ∧ i'.heap.objects x = o x := by
  apply Keeps.get
  refine Keeps.bind (Keeps.modify (R := fun _ i' =>
    i' = i.withHeap fun h => (h.allocate o).2) (fun h => h) (fun _ h => h) rfl) ?_
  rintro _ _ _ rfl
  exact Keeps.pure ⟨rfl, Function.update_self ..⟩

theorem keeps_builtin (name : Str) :
    Keeps (retaining types key) i (builtin name) fun _ i' => i'.cache = i.cache := by
  apply Keeps.get
  split
  · exact Keeps.pure rfl
  · exact Keeps.bind (keeps_allocate _) fun _ _ _ _ => Keeps.get Keeps.throw

theorem keeps_create (module name : Str) (base : ObjectId) :
    Keeps (retaining types key) i (create module name base) fun _ i' => i'.cache = i.cache := by
  apply Keeps.bind (keeps_builtin _)
  intro metaclass i1 _ h1
  apply Keeps.get
  refine (keeps_allocate _).mono fun _ _ _ h2 => ?_
  exact h2.1.trans h1

theorem keeps_exceptionClass («class» : ExceptionClass) (value : ObjectId) :
    Keeps (retaining types key) i (exceptionClass «class» value) fun c i' =>
      i'.cache = i.cache ∧ c = value := by
  apply Keeps.bind (keeps_builtin _)
  intro base i1 _ h1
  apply Keeps.get
  apply Keeps.ite
  · exact fun _ => Keeps.pure ⟨h1, rfl⟩
  · exact fun _ => Keeps.throw

/-- The base of a class without a key is found without realising anything. -/
theorem keeps_baseOf {host : ExceptionKey → Host (Interpreter types) Err ObjectId}
    {spec : ExceptionSpec types}
    (hhost : ∀ key' i, Keeps (retaining types key) i (host key') fun _ _ => True) :
    Keeps (retaining types key) i (baseOf host spec) fun _ i' =>
      spec.base.key = none → i'.cache = i.cache := by
  unfold baseOf
  split
  · next key' hkey =>
    refine (hhost key' i).mono fun _ _ _ _ hnone => ?_
    rw [hkey] at hnone
    cases hnone
  · split
    · exact (keeps_builtin _).mono fun _ _ _ h _ => h
    · exact Keeps.throw

theorem keeps_realise {host : ExceptionKey → Host (Interpreter types) Err ObjectId}
    {key' : ExceptionKey} {spec : ExceptionSpec types}
    (hhost : ∀ key' i, Keeps (retaining types key) i (host key') fun _ _ => True)
    (hspec : i.cache.exceptionSpec key' = some spec)
    (hnone : i.cache.realisedException key' = none) :
    Keeps (retaining types key) i (realise host key' spec) fun c i' =>
      key' = key → i'.cache.realisedException key = some c := by
  apply Keeps.assume
  rintro ⟨e, he, hroot⟩
  have hbase : key' = key → spec.base.key = none := by
    rintro rfl
    change (i.cache.exceptions.entry key').map InternedEntry.spec = some spec at hspec
    rw [he] at hspec
    cases hspec
    exact hroot
  apply Keeps.bind (keeps_baseOf hhost)
  intro base i1 _ h1
  apply Keeps.bind (keeps_exceptionClass _ _)
  rintro c i2 _ ⟨h2, -⟩
  apply Keeps.bind (keeps_create _ _ _)
  intro owned i3 _ h3
  have hcache : key' = key → i3.cache = i.cache :=
    fun hk => (h3.trans h2).trans (h1 (hbase hk))
  refine Keeps.assume fun hroot3 => Keeps.bind (Keeps.modify (R := fun _ i' =>
    key' = key → i'.cache.realisedException key = some owned) ?_ ?_ ?_) ?_
  · exact fun h => rooted_setRealised owned h
  · by_cases hk : key = key'
    · subst hk
      intro x hx
      rw [hcache rfl, hnone] at hx
      cases hx
    · exact retains_setRealised_of_ne owned hroot3 hk
  · rintro rfl
    exact realised_setRealised hroot3
  · exact fun _ _ _ h => Keeps.pure h

/-- **A rooted class is realised once.** It stays the same object, whatever is realised, and
realising it returns that. -/
theorem keeps_host (depth : Nat) (key' : ExceptionKey) (i : Interpreter types) :
    Keeps (retaining types key) i (host depth key') fun c i' =>
      key' = key → i'.cache.realisedException key = some c := by
  induction depth generalizing key' i with
  | zero => exact Keeps.stuck
  | succ depth ih =>
    apply Keeps.get
    split
    · next c hc =>
      refine Keeps.pure ?_
      rintro rfl
      exact hc
    · next hnone =>
      split
      · next spec hspec =>
        refine keeps_realise (fun key'' i' => ?_) hspec hnone
        exact (ih key'' i').mono fun _ _ _ _ => trivial
      · exact Keeps.throw

end ExceptionRealiser

end GuestPy.Exceptions
