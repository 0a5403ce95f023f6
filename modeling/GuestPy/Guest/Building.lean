import GuestPy.Boundary.World
import GuestPy.Guest.Balance
import GuestPy.Imports.Owners

/-!
# Building guests

A builder registers what its modules declare with the runtime, and then makes a guest. The guest
is dropped if a later step fails. What has been registered stays.

* `start` is a build up to the initialisers, and `build` the whole.
* An `Initialiser` is code of the host. It works on the guests by the actions of a runtime.
* `start_cases` and `build_cases` say what a build that fails has done.
* `unchanged_iff`: a failed build leaves no trace if and only if it registers nothing new and its
  initialisers keep nothing.
-/

namespace GuestPy.Building

open Exceptions (Err ExceptionSpec HostException Interned RealisationCache)
open Owners (GuestBindings ModuleId)
open Registration (ModuleSpec)

variable {types : TypeId → HostException}

/-! ## Runtimes -/

/-- What the guests of a runtime share. -/
structure Shared (types : TypeId → HostException) where
  classes : Interned Nat Registration.ClassSpec
  cache : RealisationCache types
  inner : RuntimeInner

/-- An initialiser works on the guests by actions. The token of the guest that is being built is
not its own. -/
structure Initialiser (types : TypeId → HostException) where
  run : GuestId → Host (Shared types) Err Unit
  acts : ∀ g s, ∃ as : List Action, (run g s).2.inner = as.foldl RuntimeInner.step s.inner
  token : ∀ g s, s.inner.tokens.count g ≤ (run g s).2.inner.tokens.count g

/-- A check that a module provides what it or one of its classes requires. -/
abbrev Requirement := ModuleId → Except Err Unit

structure HostModule (types : TypeId → HostException) where
  spec : ModuleSpec
  exceptions : List (ExceptionSpec types)
  requirements : List Requirement
  init : Option (Initialiser types)

/-- The calls of the interpreter that a build makes. -/
inductive InterpreterCall where
  | newDict
  | builtinsDict
  | copyDict
  | setItem (key : Str)
  | function (name : Str)

/-- A runtime, with the modules that have been allocated, and with what the classes require. What
the interpreter answers, and whether bundles can be prepared, is not known. -/
structure Runtime (types : TypeId → HostException) where
  heap : ModuleId → HostModule types
  requirements : Nat → List Requirement
  name : Nat → String
  modules : List ModuleId
  bundles : List Nat
  hostInitialisers : List (Initialiser types)
  nativeInitialisers : List (Initialiser types)
  policy : ExecutionPolicy
  prepare : Nat → Except Err Unit
  call : InterpreterCall → Except Err Unit

structure GuestBuilder (types : TypeId → HostException) where
  modules : List ModuleId
  bundles : List Nat
  hostInitialisers : List (Initialiser types)
  nativeInitialisers : List (Initialiser types)
  timeout : Option Duration

namespace Runtime

variable (rt : Runtime types)

def owners : Owners.Modules where
  heap m := (rt.heap m).spec
  requires p := !(rt.requirements p).isEmpty
  name := rt.name

/-- `FatalExceptions::reserve`. -/
def reserve (modules : List ModuleId) : Except Err Unit :=
  if modules.any fun m => (rt.heap m).spec.name == Boundary.Fatal.module then
    .error (.nameInUse (String.ofList Boundary.Fatal.module))
  else
    .ok ()

/-- `ModuleSpec::validate`. -/
def validate (m : ModuleId) : Except Err Unit := do
  (rt.heap m).requirements.forM fun requirement => requirement m
  (rt.owners.lineage m).forM fun c =>
    (rt.requirements c.payload).forM fun requirement => requirement m

/-- `GuestBindings::prepare_bundle`. A bundle is prepared once. -/
def prepareBundle (prepared : List Nat) (bundle : Nat) : Except Err (List Nat) :=
  if bundle ∈ prepared then
    .ok prepared
  else do
    rt.prepare bundle
    return bundle :: prepared

end Runtime

/-! ## Builds -/

namespace Shared

/-- `RealisationCache::absorb`. -/
def absorb (s : Shared types) (m : HostModule types) : Shared types :=
  { s with
    classes := Registration.absorb s.classes m.spec
    cache := m.exceptions.foldl RealisationCache.absorb s.cache }

/-- A guest that its builder has a handle of. -/
def register (g : GuestId) (policy : ExecutionPolicy) (s : Shared types) : Shared types :=
  { s with inner := s.inner.set g (some ⟨s.inner.now, false, 1, .new policy⟩) }

def step (a : Action) (s : Shared types) : Shared types := { s with inner := s.inner.step a }

end Shared

/-- Releases what it holds unless `m` returns. -/
def holding {σ ε α : Type} (release : σ → σ) (m : Host σ ε α) : Host σ ε α := fun s =>
  match m s with
  | (.ok a, s') => (.ok a, s')
  | (o, s') => (o, release s')

/-- `GuestId::new` of `take_next_id`. -/
def takeNextId : Host (Shared types) Err GuestId := fun s =>
  match s.inner.takeNextId with
  | some (id, r) =>
    match GuestId.fromU64 id with
    | some g => (.ok g, { s with inner := r })
    | none => (.panic, { s with inner := r })
  | none => (.panic, s)

/-- `ActiveGuest::operation`. -/
def operation (g : GuestId) : Host (Shared types) Err Unit := fun s =>
  match s.inner.get g with
  | .ok inner =>
    match ActiveGuest.new s.inner g inner .operation with
    | .ok r => (.ok (), { s with inner := r })
    | .error e => (.err e, s)
  | .error e => (.err e, s)

namespace GuestBuilder

variable (rt : Runtime types) (b : GuestBuilder types)

def check : Except Err Unit := do
  rt.reserve b.modules
  b.modules.forM rt.validate

/-- The modules, the bundles and the globals of the guest. -/
def bindings : Except Err Unit := do
  let _ ← GuestBindings.new rt.owners rt.modules b.modules
  let _ ← (rt.bundles ++ b.bundles).foldlM rt.prepareBundle []
  rt.call .newDict
  rt.call .builtinsDict
  rt.call .copyDict
  rt.call (.setItem "__builtins__".toList)
  rt.call (.setItem "__name__".toList)
  rt.call (.setItem "__guestpy_id__".toList)

def installImport : Except Err Unit := do
  rt.call (.function "__import__".toList)
  rt.call (.setItem "__import__".toList)

/-- The build up to the initialisers. -/
def start : Host (Shared types) Err GuestId := do
  Host.ofExcept (b.check rt)
  let g ← takeNextId
  Host.modify fun s => (b.modules.map rt.heap).foldl Shared.absorb s
  Host.ofExcept (b.bindings rt)
  Host.modify (Shared.register g (rt.policy.derive b.timeout))
  holding (Shared.step (.forget g)) do
    Host.ofExcept (installImport rt)
    operation g
  return g

/-- The hooks of modules, then the initialisers of the host and the native ones. -/
def initialisers : List (Initialiser types) :=
  (rt.modules ++ b.modules).filterMap (fun m => (rt.heap m).init) ++
    (rt.hostInitialisers ++ b.hostInitialisers) ++ (rt.nativeInitialisers ++ b.nativeInitialisers)

def initialise (g : GuestId) : Host (Shared types) Err Unit :=
  Host.forEach (b.initialisers rt) fun i => i.run g

/-- `GuestBuilder::build`. -/
def build : Host (Shared types) Err GuestId := do
  let g ← b.start rt
  holding (Shared.step (.forget g))
    (Host.guarded (b.initialise rt g) (Shared.step (.drop g)))
  return g

end GuestBuilder

/-! ## Traces -/

/-- What is registered, what has been realised, the guests and the stack of active guests are what
they were. -/
structure Unchanged (s s' : Shared types) : Prop where
  classes : ∀ p, s'.classes.entry p = s.classes.entry p
  exceptions : ∀ key, s'.cache.exceptions.entry key = s.cache.exceptions.entry key
  guests : s'.inner.guests = s.inner.guests
  active : s'.inner.active = s.inner.active

section

variable (rt : Runtime types) (b : GuestBuilder types)

/-- The initialisers, as far as they run, neither register nor realise anything. -/
def Idle (s : Shared types) : Prop :=
  ∀ g s₁, b.start rt s = (.ok g, s₁) →
    (b.initialise rt g s₁).2.classes = s₁.classes ∧ (b.initialise rt g s₁).2.cache = s₁.cache

/-- The modules have been found wanting, before anything was done. -/
def Rejected : Prop := ∃ e, b.check rt = .error e

/-- Whatever the modules declare is registered already. -/
structure Known (s : Shared types) : Prop where
  classes : ∀ m ∈ b.modules, ∀ c ∈ rt.owners.lineage m, s.classes.contains c.payload = true
  exceptions : ∀ m ∈ b.modules, ∀ x ∈ (rt.heap m).exceptions,
    s.cache.exceptions.contains x.key = true

/-- The initialisers of `g` leave the other guests alone, and keep no hold on `g`. -/
structure Restores (g : GuestId) (s s' : Shared types) : Prop where
  guests : ∀ x, x ≠ g → s'.inner.guests x = s.inner.guests x
  active : s'.inner.active.tail = s.inner.active.tail
  handles : ∀ inner, s'.inner.guests g = some inner → inner.handles ≤ 1
  tokens : s'.inner.tokens.count g ≤ 1

/-- The initialisers, as far as they run, keep nothing. -/
def Keepless (s : Shared types) : Prop :=
  ∀ g s₁, b.start rt s = (.ok g, s₁) → Restores g s₁ (b.initialise rt g s₁).2

end

/-! ## Letting go -/

section

variable {r : RuntimeInner} {g x : GuestId} {inner : GuestInner}

open RuntimeInner

theorem guests_release_of_ne (h : x ≠ g) : (r.release g).guests x = r.guests x := by
  unfold release
  split
  · split
    · exact set_guests_of_ne h
    · rfl
  · rfl

theorem active_release : (r.release g).active = r.active := by
  unfold release
  split
  · split
    · rfl
    · rfl
  · rfl

/-- A guest is freed just if nothing refers to it. -/
theorem guests_release_of_some (h : r.guests g = some inner) :
    (r.release g).guests g =
      if inner.handles = 0 ∧ r.tokens.count g = 0 then none else some inner := by
  unfold release
  simp only [h]
  split
  · exact set_guests_self
  · exact h

/-- A handle is dropped. -/
structure Forgotten (g : GuestId) (r r' : RuntimeInner) : Prop where
  others : ∀ x, x ≠ g → r'.guests x = r.guests x
  active : r'.active = r.active
  freed : r'.guests g = none ↔
    (∀ inner, r.guests g = some inner → inner.handles ≤ 1 ∧ r.tokens.count g = 0)

theorem forgotten_step (r : RuntimeInner) (g : GuestId) : Forgotten g r (r.step (.forget g)) := by
  cases hg : r.guests g with
  | none =>
    have hstep : r.step (.forget g) = r := by
      unfold RuntimeInner.step update release
      simp only [hg]
    rw [hstep]
    refine ⟨fun _ _ => rfl, rfl, ?_⟩
    simp [hg]
  | some inner =>
    have hstep : r.step (.forget g) =
        (r.set g (some { inner with handles := inner.handles - 1 })).release g := by
      unfold RuntimeInner.step update
      simp only [hg]
    have hguests := guests_release_of_some (r := r.set g (some
      { inner with handles := inner.handles - 1 })) (g := g) set_guests_self
    rw [hstep]
    refine ⟨fun x hx => ?_, active_release, ?_⟩
    · rw [guests_release_of_ne hx, set_guests_of_ne hx]
    · rw [hguests]
      have htokens : (r.set g (some { inner with handles := inner.handles - 1 })).tokens =
        r.tokens := rfl
      constructor
      · intro h inner' hinner'
        cases hg.symm.trans hinner'
        split at h
        · next hzero =>
          rw [htokens] at hzero
          obtain ⟨hhandles, htoken⟩ := hzero
          exact ⟨Nat.le_of_sub_eq_zero hhandles, htoken⟩
        · cases h
      · intro h
        obtain ⟨hhandles, htoken⟩ := h inner hg
        exact if_pos ⟨Nat.sub_eq_zero_of_le hhandles, htoken⟩

/-- The token is dropped, and then the handle. -/
structure Released (g : GuestId) (r r' : RuntimeInner) : Prop where
  others : ∀ x, x ≠ g → r'.guests x = r.guests x
  active : r'.active = r.active.tail
  freed : r'.guests g = none ↔
    (∀ inner, r.guests g = some inner → inner.handles ≤ 1) ∧ r.tokens.count g ≤ 1

theorem released_steps (hr : Consistent r) (hg : g ∈ r.tokens) :
    Released g r ((r.step (.drop g)).step (.forget g)) := by
  have hcount : 0 < r.tokens.count g := List.count_pos_iff.mpr hg
  have hdepth : 0 < r.depth g := hr.counted g ▸ hcount
  cases hi : r.guests g with
  | none =>
    rw [depth_of_none hi] at hdepth
    omega
  | some inner =>
    obtain ⟨r', hdrop, hpopped⟩ := drop_isSome hr hg hi
    have hstep : r.step (.drop g) = r' := by
      simp only [RuntimeInner.step, hg, hi, if_true, hdrop, Option.getD_some]
    have hforgotten := forgotten_step r' g
    rw [hstep]
    unfold ActiveGuest.drop at hdrop
    cases hpop : r.pop with
    | none =>
      rw [hpop] at hdrop
      cases hdrop
    | some r₁ =>
      cases hfinish : inner.activity.finish with
      | none =>
        rw [hpop, hfinish] at hdrop
        cases hdrop
      | some activity =>
        rw [hpop, hfinish] at hdrop
        have hr' := Option.some.inj hdrop
        have hr₁ : r₁ = { r with active := r.active.tail } := by
          unfold pop at hpop
          cases hactive : r.active with
          | nil =>
            rw [hactive] at hpop
            cases hpop
          | cons top rest =>
            rw [hactive] at hpop
            cases hpop
            rfl
        subst hr₁
        have hself : r'.guests g = if inner.handles = 0 ∧ (r.tokens.erase g).count g = 0 then none
            else some { inner with activity } := by
          rw [← hr']
          exact guests_release_of_some (r := { ({ r with
            active := r.active.tail } : RuntimeInner).set g (some { inner with activity }) with
              tokens := r.tokens.erase g }) set_guests_self
        have hothers : ∀ x, x ≠ g → r'.guests x = r.guests x := by
          intro x hx
          rw [← hr', guests_release_of_ne hx]
          exact set_guests_of_ne hx
        have hactive : r'.active = r.active.tail := by
          rw [← hr', active_release]
          rfl
        have htokens : r'.tokens.count g = r.tokens.count g - 1 := by
          rw [hpopped.tokens, List.count_erase_self]
        refine ⟨fun x hx => (hforgotten.others x hx).trans (hothers x hx),
          hforgotten.active.trans hactive, ?_⟩
        rw [hforgotten.freed, hself, htokens, List.count_erase_self]
        constructor
        · intro h
          by_cases hzero : inner.handles = 0 ∧ r.tokens.count g - 1 = 0
          · refine ⟨fun inner' hinner' => ?_, by omega⟩
            cases hi.symm.trans hinner'
            omega
          · obtain ⟨hhandles, htoken⟩ := h _ (if_neg hzero)
            refine ⟨fun inner' hinner' => ?_, by omega⟩
            cases hi.symm.trans hinner'
            exact hhandles
        · rintro ⟨hhandles, htoken⟩ inner' hinner'
          have hle := hhandles inner hi
          split at hinner'
          · cases hinner'
          · cases hinner'
            exact ⟨hle, by omega⟩

end

/-! ## What is interned -/

section

variable {K V β : Type} [DecidableEq K] {key : β → K} {spec : β → V} {i : Interned K V}

theorem contains_intern (k : K) (v : V) {k' : K} (h : i.contains k' = true) :
    (i.intern k v).contains k' = true := by
  obtain ⟨e, he⟩ := Option.isSome_iff_exists.mp h
  have hentry : (i.intern k v).entry k' = some e := Interned.entry_intern he
  exact Option.isSome_iff_exists.mpr ⟨e, hentry⟩

theorem contains_intern_self (k : K) (v : V) : (i.intern k v).contains k = true := by
  cases hk : i.entry k with
  | some e => exact contains_intern k v (Option.isSome_iff_exists.mpr ⟨e, hk⟩)
  | none =>
    refine Option.isSome_iff_exists.mpr ⟨⟨v, none⟩, ?_⟩
    rw [Interned.entry_eq_some_iff, Interned.mem_intern]
    exact Or.inr ⟨hk, rfl⟩

theorem intern_eq_self {k : K} (v : V) (h : i.contains k = true) : i.intern k v = i := by
  unfold Interned.intern
  obtain ⟨e, he⟩ := Option.isSome_iff_exists.mp h
  exact dif_neg fun hnone => Option.some_ne_none e (he.symm.trans hnone)

/-- The entries stay what they were just if there is nothing new. -/
theorem entry_foldl_intern_iff (bs : List β) :
    (∀ k, (bs.foldl (fun i b => i.intern (key b) (spec b)) i).entry k = i.entry k) ↔
      ∀ b ∈ bs, i.contains (key b) = true := by
  have hkept : ∀ (bs : List β) (i : Interned K V) (k : K), i.contains k = true →
      (bs.foldl (fun i b => i.intern (key b) (spec b)) i).contains k = true := by
    intro bs
    induction bs with
    | nil => exact fun _ _ h => h
    | cons b bs ih => exact fun i k h => ih _ k (contains_intern _ _ h)
  have hall : ∀ (bs : List β) (i : Interned K V), ∀ b ∈ bs,
      (bs.foldl (fun i b => i.intern (key b) (spec b)) i).contains (key b) = true := by
    intro bs
    induction bs with
    | nil => exact nofun
    | cons b bs ih =>
      intro i b' hb'
      rcases List.mem_cons.mp hb' with rfl | hb'
      · exact hkept bs _ _ (contains_intern_self _ _)
      · exact ih _ b' hb'
  constructor
  · intro h b hb
    have hb := hall bs i b hb
    unfold Interned.contains at hb ⊢
    rw [h] at hb
    exact hb
  · intro h k
    have hsame : bs.foldl (fun i b => i.intern (key b) (spec b)) i = i := by
      induction bs with
      | nil => rfl
      | cons b bs ih =>
        rw [List.foldl_cons, intern_eq_self _ (h b List.mem_cons_self)]
        exact ih fun b' hb' => h b' (List.mem_cons_of_mem _ hb')
    rw [hsame]

end

section

variable {rt : Runtime types} {b : GuestBuilder types} {s : Shared types}

theorem classes_foldl_absorb (ms : List ModuleId) (s : Shared types) :
    ((ms.map rt.heap).foldl Shared.absorb s).classes =
      (ms.flatMap rt.owners.lineage).foldl (fun i c => i.intern c.payload c) s.classes := by
  induction ms generalizing s with
  | nil => rfl
  | cons m ms ih =>
    have hclass : ∀ (i : Interned Nat Registration.ClassSpec) (c : Registration.ClassSpec),
        (if i.contains c.payload then i else i.intern c.payload c) = i.intern c.payload c := by
      intro i c
      split
      · next h => exact (intern_eq_self c h).symm
      · rfl
    have hmodule : (s.absorb (rt.heap m)).classes =
        (rt.owners.lineage m).foldl (fun i c => i.intern c.payload c) s.classes := by
      unfold Shared.absorb Registration.absorb Owners.Modules.lineage
      rw [List.foldl_flatMap]
      unfold Registration.absorbClass
      simp only [hclass]
      rfl
    rw [List.map_cons, List.foldl_cons, ih, hmodule, List.flatMap_cons, List.foldl_append]

theorem exceptions_foldl_absorb (ms : List ModuleId) (s : Shared types) :
    ((ms.map rt.heap).foldl Shared.absorb s).cache.exceptions =
      (ms.flatMap fun m => (rt.heap m).exceptions).foldl (fun i x => i.intern x.key x)
        s.cache.exceptions := by
  have hcache : ∀ (xs : List (ExceptionSpec types)) (c : RealisationCache types),
      (xs.foldl RealisationCache.absorb c).exceptions =
        xs.foldl (fun i x => i.intern x.key x) c.exceptions := by
    intro xs
    induction xs with
    | nil => exact fun _ => rfl
    | cons x xs ih => exact fun c => ih (c.absorb x)
  induction ms generalizing s with
  | nil => rfl
  | cons m ms ih =>
    have hmodule : (s.absorb (rt.heap m)).cache.exceptions =
        (rt.heap m).exceptions.foldl (fun i x => i.intern x.key x) s.cache.exceptions :=
      hcache _ _
    rw [List.map_cons, List.foldl_cons, ih, hmodule, List.flatMap_cons, List.foldl_append]

theorem foldl_absorb_inner (ms : List (HostModule types)) (r : RuntimeInner) (s : Shared types) :
    ms.foldl Shared.absorb { s with inner := r } =
      { ms.foldl Shared.absorb s with inner := r } := by
  induction ms generalizing s with
  | nil => rfl
  | cons m ms ih => exact ih (s.absorb m)

theorem known_iff : Known rt b s ↔
    (∀ p, ((b.modules.map rt.heap).foldl Shared.absorb s).classes.entry p =
      s.classes.entry p) ∧
    ∀ key, ((b.modules.map rt.heap).foldl Shared.absorb s).cache.exceptions.entry key =
      s.cache.exceptions.entry key := by
  rw [classes_foldl_absorb, exceptions_foldl_absorb, entry_foldl_intern_iff,
    entry_foldl_intern_iff]
  constructor
  · rintro ⟨hclasses, hexceptions⟩
    constructor
    · intro c hc
      obtain ⟨m, hm, hc⟩ := List.mem_flatMap.mp hc
      exact hclasses m hm c hc
    · intro x hx
      obtain ⟨m, hm, hx⟩ := List.mem_flatMap.mp hx
      exact hexceptions m hm x hx
  · rintro ⟨hclasses, hexceptions⟩
    exact ⟨fun m hm c hc => hclasses c (List.mem_flatMap.mpr ⟨m, hm, hc⟩),
      fun m hm x hx => hexceptions x (List.mem_flatMap.mpr ⟨m, hm, hx⟩)⟩

end

/-! ## What a build does -/

section

variable {rt : Runtime types} {b : GuestBuilder types} {s s' : Shared types} {g : GuestId}

theorem holding_cases {σ ε α : Type} {release : σ → σ} {m : Host σ ε α} {s s' : σ}
    {o : Outcome ε α} (h : holding release m s = (o, s')) :
    (∃ a, o = .ok a ∧ m s = (.ok a, s')) ∨
      (∀ a, o ≠ .ok a) ∧ ∃ t, m s = (o, t) ∧ s' = release t := by
  unfold holding at h
  rcases hm : m s with ⟨r, t⟩
  rw [hm] at h
  cases r with
  | ok a =>
    cases h
    exact Or.inl ⟨a, rfl, rfl⟩
  | err e =>
    cases h
    exact Or.inr ⟨nofun, t, rfl, rfl⟩
  | panic =>
    cases h
    exact Or.inr ⟨nofun, t, rfl, rfl⟩
  | stuck =>
    cases h
    exact Or.inr ⟨nofun, t, rfl, rfl⟩

/-- The identifier is new. -/
theorem takeNextId_cases {o : Outcome Err GuestId} (h : takeNextId s = (o, s')) :
    o = .panic ∨ ∃ g, o = .ok g ∧ g.value = s.inner.nextId ∧
      s' = { s with inner := { s.inner with nextId := s.inner.nextId + 1 } } ∧
      ∀ policy, s.inner.build policy = (s'.register g policy).inner := by
  unfold takeNextId at h
  cases hid : s.inner.takeNextId with
  | none =>
    simp only [hid] at h
    cases h
    exact Or.inl rfl
  | some next =>
    obtain ⟨id, r⟩ := next
    simp only [hid] at h
    cases hg : GuestId.fromU64 id with
    | none =>
      simp only [hg] at h
      cases h
      exact Or.inl rfl
    | some g =>
      simp only [hg] at h
      cases h
      have hnext : s.inner.nextId = id ∧
          r = { s.inner with nextId := s.inner.nextId + 1 } := by
        unfold RuntimeInner.takeNextId at hid
        split at hid
        · cases hid
          exact ⟨rfl, rfl⟩
        · cases hid
      obtain ⟨rfl, rfl⟩ := hnext
      refine Or.inr ⟨g, rfl, GuestId.fromU64_eq_some hg, rfl, fun policy => ?_⟩
      unfold RuntimeInner.build
      simp only [hid, hg]
      rfl

theorem operation_cases {inner : GuestInner} {o : Outcome Err Unit}
    (hg : s.inner.guests g = some inner) (h : operation g s = (o, s')) :
    (∃ e, o = .err e) ∧ s' = s ∨ o = .ok () ∧ s'.classes = s.classes ∧ s'.cache = s.cache ∧
      RuntimeInner.Pushed g s.inner s'.inner ∧
      ∀ x, x ≠ g → s'.inner.guests x = s.inner.guests x := by
  have hget : (s.inner.get g : Except Err GuestInner) = .ok inner := by
    unfold RuntimeInner.get
    rw [hg]
  unfold operation at h
  rw [hget] at h
  cases hnew : (ActiveGuest.new s.inner g inner .operation : Except Err RuntimeInner) with
  | error e =>
    simp only [hnew] at h
    cases h
    exact Or.inl ⟨⟨e, rfl⟩, rfl⟩
  | ok r =>
    simp only [hnew] at h
    cases h
    refine Or.inr ⟨rfl, rfl, rfl, RuntimeInner.pushed_new hg hnew, fun x hx => ?_⟩
    unfold ActiveGuest.new at hnew
    split at hnew
    · cases hnew
      exact RuntimeInner.set_guests_of_ne hx
    · cases hnew

/-- What the modules declare has been registered. -/
structure Absorbed (rt : Runtime types) (b : GuestBuilder types) (s s' : Shared types) :
    Prop where
  classes : s'.classes = ((b.modules.map rt.heap).foldl Shared.absorb s).classes
  cache : s'.cache = ((b.modules.map rt.heap).foldl Shared.absorb s).cache

/-- There is a new guest, which is active. -/
structure Opened (g : GuestId) (r r' : RuntimeInner) : Prop where
  consistent : RuntimeInner.Consistent r'
  absent : r.guests g = none
  others : ∀ x, x ≠ g → r'.guests x = r.guests x
  active : r'.active = g :: r.active
  token : g ∈ r'.tokens

/-- There is a new guest, which only its builder refers to. -/
structure Made (g : GuestId) (r r' : RuntimeInner) : Prop where
  consistent : RuntimeInner.Consistent r'
  absent : r.guests g = none
  inner : ∃ inner, r'.guests g = some inner ∧ inner.handles = 1
  others : ∀ x, x ≠ g → r'.guests x = r.guests x
  active : r'.active = r.active
  tokens : r'.tokens.count g = 0

theorem made_register {policy : ExecutionPolicy} {r : RuntimeInner}
    (hr : RuntimeInner.Consistent r) (hvalue : g.value = r.nextId)
    (hs : s.inner = { r with nextId := r.nextId + 1 })
    (hbuild : r.build policy = (s.register g policy).inner) :
    Made g r (s.register g policy).inner := by
  have habsent : r.guests g = none := hr.fresh g (Nat.le_of_eq hvalue.symm)
  have hset : (s.register g policy).inner = { r with nextId := r.nextId + 1 }.set g
      (some ⟨s.inner.now, false, 1, .new policy⟩) := congrArg (RuntimeInner.set · g _) hs
  refine ⟨?_, habsent, ⟨_, RuntimeInner.set_guests_self, rfl⟩, fun x hx => ?_, ?_, ?_⟩
  · exact hbuild ▸ RuntimeInner.consistent_step r (.build policy) hr
  · rw [hset, RuntimeInner.set_guests_of_ne hx]
  · rw [hset]
    rfl
  · rw [hset]
    exact (hr.counted g).symm.trans (RuntimeInner.depth_of_none habsent)

/-- A new guest that its builder drops is gone. -/
theorem Made.forgotten {r r' : RuntimeInner} (h : Made g r r') :
    (r'.step (.forget g)).guests = r.guests ∧ (r'.step (.forget g)).active = r.active := by
  obtain ⟨hothers, hactive, hfreed⟩ := forgotten_step r' g
  refine ⟨funext fun x => ?_, hactive.trans h.active⟩
  by_cases hx : x = g
  · subst hx
    rw [h.absent, hfreed]
    intro inner hinner
    obtain ⟨inner', hinner', hhandles⟩ := h.inner
    cases hinner.symm.trans hinner'
    exact ⟨Nat.le_of_eq hhandles, h.tokens⟩
  · rw [hothers x hx, h.others x hx]

/-- The steps of a build while the guest is new. -/
theorem start_tail {r : RuntimeInner} {o : Outcome Err GuestId} (hmade : Made g r s.inner)
    (h : (holding (Shared.step (.forget g)) (do
      Host.ofExcept (GuestBuilder.installImport rt)
      operation g) >>= fun _ => (Pure.pure g : Host (Shared types) Err GuestId)) s = (o, s')) :
    s'.classes = s.classes ∧ s'.cache = s.cache ∧
      ((∃ e, o = .err e) ∧ s'.inner.guests = r.guests ∧ s'.inner.active = r.active ∨
        ∃ g, o = .ok g ∧ Opened g r s'.inner) := by
  have hcases : ∀ {o : Outcome Err Unit} {t : Shared types},
      (Host.ofExcept (GuestBuilder.installImport rt) >>= fun _ => operation g) s = (o, t) →
      (∃ e, o = .err e) ∧ t = s ∨ o = .ok () ∧ t.classes = s.classes ∧ t.cache = s.cache ∧
        Opened g r t.inner := by
    intro o t h
    rcases Host.ofExcept_bind_cases h with ⟨-, -, h⟩ | ⟨e, -, rfl, rfl⟩
    · obtain ⟨inner, hinner, -⟩ := hmade.inner
      rcases operation_cases hinner h with herr | ⟨rfl, hclasses, hcache, hpushed, hothers⟩
      · exact Or.inl herr
      · refine Or.inr ⟨rfl, hclasses, hcache, hpushed.consistent hmade.consistent, hmade.absent,
          fun x hx => (hothers x hx).trans (hmade.others x hx), ?_, ?_⟩
        · rw [hpushed.active, hmade.active]
        · rw [hpushed.tokens]
          exact List.mem_cons_self
    · exact Or.inl ⟨⟨e, rfl⟩, rfl⟩
  have hheld : ∀ {o : Outcome Err Unit} {t : Shared types},
      holding (Shared.step (.forget g)) (do
        Host.ofExcept (GuestBuilder.installImport rt)
        operation g) s = (o, t) →
      (∃ e, o = .err e) ∧ t = s.step (.forget g) ∨ o = .ok () ∧ t.classes = s.classes ∧
        t.cache = s.cache ∧ Opened g r t.inner := by
    intro o t h
    rcases holding_cases h with ⟨u, rfl, hrun⟩ | ⟨hne, t', hrun, rfl⟩
    · rcases hcases hrun with ⟨⟨e, he⟩, -⟩ | hok
      · cases he
      · exact Or.inr hok
    · rcases hcases hrun with ⟨he, rfl⟩ | ⟨hok, -⟩
      · exact Or.inl ⟨he, rfl⟩
      · exact absurd hok (hne ())
  obtain ⟨hguests, hactive⟩ := hmade.forgotten
  rcases Host.bind_cases h with ⟨u, t, hrun, h⟩ | ⟨e, hrun, rfl⟩ | ⟨hrun, -⟩ | ⟨hrun, -⟩
  · cases h
    rcases hheld hrun with ⟨⟨e, he⟩, -⟩ | ⟨-, hclasses, hcache, hopened⟩
    · cases he
    · exact ⟨hclasses, hcache, Or.inr ⟨g, rfl, hopened⟩⟩
  · rcases hheld hrun with ⟨-, rfl⟩ | ⟨hok, -⟩
    · exact ⟨rfl, rfl, Or.inl ⟨⟨e, rfl⟩, hguests, hactive⟩⟩
    · cases hok
  · rcases hheld hrun with ⟨⟨e, he⟩, -⟩ | ⟨hok, -⟩
    · cases he
    · cases hok
  · rcases hheld hrun with ⟨⟨e, he⟩, -⟩ | ⟨hok, -⟩
    · cases he
    · cases hok

/-- Either nothing was done, or the modules are registered. A guest that has been made is gone,
unless the initialisers are to run. -/
theorem start_cases {o : Outcome Err GuestId} (hs : RuntimeInner.Consistent s.inner)
    (h : b.start rt s = (o, s')) :
    (Rejected rt b ∧ (∃ e, o = .err e) ∧ s' = s) ∨ ¬ Rejected rt b ∧ (o = .panic ∨
      Absorbed rt b s s' ∧ ((∃ e, o = .err e) ∧ s'.inner.guests = s.inner.guests ∧
        s'.inner.active = s.inner.active ∨ ∃ g, o = .ok g ∧ Opened g s.inner s'.inner)) := by
  rcases Host.ofExcept_bind_cases h with ⟨u, hcheck, h⟩ | ⟨e, hcheck, rfl, rfl⟩
  · have haccepted : ¬ Rejected rt b := by
      rintro ⟨e, he⟩
      rw [hcheck] at he
      cases he
    refine Or.inr ⟨haccepted, ?_⟩
    rcases Host.bind_cases h with ⟨g, s₁, htake, h⟩ | ⟨e, htake, rfl⟩ | ⟨-, rfl⟩ | ⟨htake, rfl⟩
    · rcases takeNextId_cases htake with hpanic | ⟨g', hok, hvalue, rfl, hbuild⟩
      · cases hpanic
      · cases hok
        have habsent : s.inner.guests g = none := hs.fresh g (Nat.le_of_eq hvalue.symm)
        rw [Host.modify_bind, foldl_absorb_inner] at h
        rcases Host.ofExcept_bind_cases h with ⟨-, -, h⟩ | ⟨e, -, rfl, rfl⟩
        · rw [Host.modify_bind] at h
          have hmade := made_register (s := { (b.modules.map rt.heap).foldl Shared.absorb s with
            inner := { s.inner with nextId := s.inner.nextId + 1 } }) hs hvalue rfl
              (hbuild (rt.policy.derive b.timeout))
          rcases start_tail hmade h with ⟨hclasses, hcache, hrest⟩
          exact Or.inr ⟨⟨hclasses, hcache⟩, hrest⟩
        · exact Or.inr ⟨⟨rfl, rfl⟩, Or.inl ⟨⟨e, rfl⟩, rfl, rfl⟩⟩
    · rcases takeNextId_cases htake with hpanic | ⟨g', hok, -⟩
      · cases hpanic
      · cases hok
    · exact Or.inl rfl
    · rcases takeNextId_cases htake with hpanic | ⟨g', hok, -⟩
      · cases hpanic
      · cases hok
  · exact Or.inl ⟨⟨e, hcheck⟩, ⟨e, rfl⟩, rfl⟩

/-- However the initialisers end, the guests have been acted on, and the token is still there. -/
theorem acts_forEach (g : GuestId) (is : List (Initialiser types)) (s : Shared types) :
    (∃ as : List Action,
      (Host.forEach is (fun i => i.run g) s).2.inner = as.foldl RuntimeInner.step s.inner) ∧
    s.inner.tokens.count g ≤ (Host.forEach is (fun i => i.run g) s).2.inner.tokens.count g := by
  induction is generalizing s with
  | nil => exact ⟨⟨[], rfl⟩, le_refl _⟩
  | cons i is ih =>
    obtain ⟨as, hacts⟩ := i.acts g s
    have htoken := i.token g s
    by_cases hok : ∃ u s₁, i.run g s = (.ok u, s₁)
    · obtain ⟨u, s₁, hrun⟩ := hok
      have hrest : Host.forEach (i :: is) (fun i => i.run g) s =
          Host.forEach is (fun i => i.run g) s₁ := by
        change Host.bind (i.run g) _ s = _
        unfold Host.bind
        rw [hrun]
      obtain ⟨⟨as', hacts'⟩, htoken'⟩ := ih s₁
      rw [hrun] at hacts htoken
      refine ⟨⟨as ++ as', ?_⟩, ?_⟩
      · rw [hrest, hacts', hacts, List.foldl_append]
      · rw [hrest]
        exact htoken.trans htoken'
    · have hstop : (Host.forEach (i :: is) (fun i => i.run g) s).2 = (i.run g s).2 :=
        (Host.bind_of_ne_ok (f := fun _ => Host.forEach is fun i => i.run g) fun u hu =>
          hok ⟨u, _, Prod.ext hu rfl⟩).1
      rw [hstop]
      exact ⟨⟨as, hacts⟩, htoken⟩

theorem consistent_foldl {r : RuntimeInner} (hr : RuntimeInner.Consistent r) (as : List Action) :
    RuntimeInner.Consistent (as.foldl RuntimeInner.step r) := by
  induction as generalizing r with
  | nil => exact hr
  | cons a as ih => exact ih (RuntimeInner.consistent_step r a hr)

theorem released_initialise {r : RuntimeInner} (h : Opened g r s.inner) :
    Released g (b.initialise rt g s).2.inner
      (((b.initialise rt g s).2.step (.drop g)).step (.forget g)).inner := by
  obtain ⟨⟨as, hacts⟩, htoken⟩ := acts_forEach g (b.initialisers rt) s
  have hconsistent : RuntimeInner.Consistent (b.initialise rt g s).2.inner := by
    have heq : (b.initialise rt g s).2.inner = as.foldl RuntimeInner.step s.inner := hacts
    rw [heq]
    exact consistent_foldl h.consistent as
  refine released_steps hconsistent (List.count_pos_iff.mp (Nat.lt_of_lt_of_le ?_ htoken))
  exact List.count_pos_iff.mpr h.token

/-- The guests are as before just if nothing has been kept. -/
theorem restores_iff {s₁ s₂ : Shared types} (hopened : Opened g s.inner s₁.inner)
    (hreleased : Released g s₂.inner s'.inner) :
    s'.inner.guests = s.inner.guests ∧ s'.inner.active = s.inner.active ↔ Restores g s₁ s₂ := by
  have htail : s₁.inner.active.tail = s.inner.active := by
    rw [hopened.active]
    rfl
  constructor
  · rintro ⟨hguests, hactive⟩
    have hfreed : s'.inner.guests g = none := by rw [hguests, hopened.absent]
    obtain ⟨hhandles, htokens⟩ := hreleased.freed.mp hfreed
    refine ⟨fun x hx => ?_, ?_, hhandles, htokens⟩
    · rw [← hreleased.others x hx, hguests, hopened.others x hx]
    · rw [← hreleased.active, hactive, htail]
  · rintro ⟨hguests, hactive, hhandles, htokens⟩
    refine ⟨funext fun x => ?_, ?_⟩
    · by_cases hx : x = g
      · subst hx
        rw [hopened.absent]
        exact hreleased.freed.mpr ⟨hhandles, htokens⟩
      · rw [hreleased.others x hx, hguests x hx, hopened.others x hx]
    · rw [hreleased.active, hactive, htail]

theorem unchanged_refl (s : Shared types) : Unchanged s s :=
  ⟨fun _ => rfl, fun _ => rfl, rfl, rfl⟩

theorem unchanged_iff_known (habsorbed : Absorbed rt b s s') :
    Unchanged s s' ↔ Known rt b s ∧ s'.inner.guests = s.inner.guests ∧
      s'.inner.active = s.inner.active := by
  rw [known_iff, ← habsorbed.classes, ← habsorbed.cache]
  constructor
  · rintro ⟨hclasses, hexceptions, hguests, hactive⟩
    exact ⟨⟨hclasses, hexceptions⟩, hguests, hactive⟩
  · rintro ⟨⟨hclasses, hexceptions⟩, hguests, hactive⟩
    exact ⟨hclasses, hexceptions, hguests, hactive⟩

/-- A build that fails has not got to the initialisers, or it has run them, and has dropped the
guest after them. -/
theorem build_cases {e : Err} (h : b.build rt s = (.err e, s')) :
    b.start rt s = (.err e, s') ∨ ∃ g s₁, b.start rt s = (.ok g, s₁) ∧
      s' = ((b.initialise rt g s₁).2.step (.drop g)).step (.forget g) := by
  rcases Host.bind_cases h with ⟨g, s₁, hstart, h⟩ | ⟨e', hstart, he⟩ | ⟨-, he⟩ | ⟨-, he⟩
  · refine Or.inr ⟨g, s₁, hstart, ?_⟩
    rcases Host.bind_cases h with ⟨u, t, -, h⟩ | ⟨e', hrun, -⟩ | ⟨-, he⟩ | ⟨-, he⟩
    · cases h
    · rcases holding_cases hrun with ⟨u, hok, -⟩ | ⟨-, t, hguarded, heq⟩
      · cases hok
      · have ht : (b.initialise rt g s₁).2.step (.drop g) = t := congrArg Prod.snd hguarded
        rw [heq, ht]
    · cases he
    · cases he
  · cases he
    exact Or.inl hstart
  · cases he
  · cases he

/-- **A failed build leaves no trace just if it registers nothing new and nothing is kept.** -/
theorem unchanged_iff (rt : Runtime types) (b : GuestBuilder types) (s s' : Shared types)
    (e : Err) (hs : RuntimeInner.Consistent s.inner) (h : b.build rt s = (.err e, s'))
    (hidle : Idle rt b s) :
    Unchanged s s' ↔ (Rejected rt b ∨ Known rt b s) ∧ Keepless rt b s := by
  rcases build_cases h with hstart | ⟨g, s₁, hstart, rfl⟩
  · have hkeepless : Keepless rt b s := by
      intro g s₁ hok
      rw [hstart] at hok
      cases hok
    rcases start_cases hs hstart with ⟨hrejected, -, rfl⟩ | ⟨haccepted, hpanic | ⟨habsorbed, hrest⟩⟩
    · exact ⟨fun _ => ⟨Or.inl hrejected, hkeepless⟩, fun _ => unchanged_refl s'⟩
    · cases hpanic
    · rcases hrest with ⟨-, hguests, hactive⟩ | ⟨g, hok, -⟩
      · rw [unchanged_iff_known habsorbed]
        constructor
        · rintro ⟨hknown, -⟩
          exact ⟨Or.inr hknown, hkeepless⟩
        · rintro ⟨hrejected | hknown, -⟩
          · exact absurd hrejected haccepted
          · exact ⟨hknown, hguests, hactive⟩
      · cases hok
  · have hkeepless : Keepless rt b s ↔ Restores g s₁ (b.initialise rt g s₁).2 := by
      constructor
      · exact fun h => h g s₁ hstart
      · intro h g' s₁' hstart'
        cases hstart.symm.trans hstart'
        exact h
    rcases start_cases hs hstart with ⟨-, ⟨e', he⟩, -⟩ | ⟨haccepted, hpanic | ⟨habsorbed, hrest⟩⟩
    · cases he
    · cases hpanic
    · rcases hrest with ⟨⟨e', he⟩, -⟩ | ⟨g', hok, hopened⟩
      · cases he
      · cases hok
        obtain ⟨hclasses, hcache⟩ := hidle g s₁ hstart
        have habsorbed' : Absorbed rt b s
            (((b.initialise rt g s₁).2.step (.drop g)).step (.forget g)) :=
          ⟨hclasses.trans habsorbed.classes, hcache.trans habsorbed.cache⟩
        rw [unchanged_iff_known habsorbed', hkeepless,
          restores_iff hopened (released_initialise hopened)]
        constructor
        · rintro ⟨hknown, hrestores⟩
          exact ⟨Or.inr hknown, hrestores⟩
        · rintro ⟨hrejected | hknown, hrestores⟩
          · exact absurd hrejected haccepted
          · exact ⟨hknown, hrestores⟩

/-! ### A runtime that has been cancelled -/

/-- A runtime whose guests are cancelled when they are activated. Module 0 has an exception. -/
def cancelledRuntime : Runtime (fun _ => ⟨[], .builtin []⟩) where
  heap := fun _ => ⟨⟨"m".toList, []⟩,
    [.named "m".toList "E".toList (.builtin "Exception".toList)], [], none⟩
  requirements := fun _ => []
  name := fun _ => ""
  modules := []
  bundles := []
  hostInitialisers := []
  nativeInitialisers := []
  policy := { ExecutionPolicy.new with cancellation := some ⟨true⟩ }
  prepare := fun _ => .ok ()
  call := fun _ => .ok ()

def bindingModule (types : TypeId → HostException) : GuestBuilder types := ⟨[0], [], [], [], none⟩

def fresh (types : TypeId → HostException) : Shared types := ⟨.new, .new, .new⟩

/-- A state in which the exception has been registered, for an earlier guest. -/
def known : Shared (fun _ => ⟨[], .builtin []⟩) := (fresh _).absorb (cancelledRuntime.heap 0)

theorem unchanged_refused :
    Unchanged known ((bindingModule _).build cancelledRuntime known).2 := by
  refine (unchanged_iff cancelledRuntime (bindingModule _) known _ .cancelled
    RuntimeInner.consistent_new rfl ?_).mpr ⟨Or.inr ?_, ?_⟩
  · intro g s₁ h
    cases congrArg Prod.fst h
  · refine ⟨fun m hm c hc => ?_, fun m hm x hx => ?_⟩
    · cases hc
    · cases List.mem_singleton.mp hx
      rfl
  · intro g s₁ h
    cases congrArg Prod.fst h

/-- A cancelled build registers the exception all the same. -/
theorem not_unchanged_of_refused :
    ¬ ∀ (types : TypeId → HostException) (rt : Runtime types) (b : GuestBuilder types)
      (s s' : Shared types) (e : Err), RuntimeInner.Consistent s.inner →
        b.build rt s = (.err e, s') → (∀ g s₁, b.start rt s ≠ (.ok g, s₁)) → Unchanged s s' := by
  intro h
  have hunchanged := h _ cancelledRuntime (bindingModule _) (fresh _)
    ((bindingModule _).build cancelledRuntime (fresh _)).2 .cancelled
    RuntimeInner.consistent_new rfl ?_
  · cases hunchanged.exceptions (.named "m".toList "E".toList)
  · intro g s₁ hstart
    cases congrArg Prod.fst hstart

end

end GuestPy.Building
