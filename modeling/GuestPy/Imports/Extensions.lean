import GuestPy.Exceptions.Specs
import GuestPy.Library.Answers

/-!
# Native extensions

A native extension is loaded once in a process, with its parent packages in `sys.modules`. Whatever
was inserted for it is taken out again if loading fails.

* `registerParents` inserts the parents that are missing, `executeLoader` runs the loader between
  parents, and `load` keeps a record of what was loaded.
* `Inserted` says what has been inserted so far, and `rollback_eq` that taking it out undoes that.
* `load_settles`: a load that fails leaves the entries alone, unless it could not record what it
  had loaded, and one that runs the loader leaves the extension and its parents in `sys.modules`.

The release of the import lock, when its guard is dropped, is left out.
-/

namespace GuestPy.Extensions

open Exceptions (Err)

variable {W : Type}

/-! ## A process -/

structure NativeArtifact where
  path : String
  contents : List UInt8

structure LoadedExtension where
  origin : String
  contents : List UInt8
  module : ObjectId

/-- `sys.modules`, the record of what has been loaded, and the rest of the process. -/
structure Process (W : Type) where
  modules : Str → Option ObjectId
  loaded : Str → Option LoadedExtension
  world : W

/-- What loading asks of the interpreter. Insertions into `sys.modules` may be refused, keys may be
kept, and the mutex of the record may be poisoned. -/
structure Importlib (W : Type) where
  importLock : Host (Process W) Err Unit
  sysModules : Host (Process W) Err Unit
  extensionLoader : Str → String → Host (Process W) Err ObjectId
  util : Host (Process W) Err Unit
  keywords : ObjectId → Host (Process W) Err Unit
  specFromFileLocation : Str → String → ObjectId → Host (Process W) Err (Option ObjectId)
  moduleFromSpec : ObjectId → Host (Process W) Err ObjectId
  execModule : ObjectId → ObjectId → Host (Process W) Err Unit
  refuses : Str → ObjectId → Process W → Option Err
  keeps : Str → Process W → Option Err
  poisoned : Process W → Bool

namespace Process

def insert (name : Str) (x : ObjectId) (s : Process W) : Process W :=
  { s with modules := Function.update s.modules name (some x) }

def delete (name : Str) (s : Process W) : Process W :=
  { s with modules := Function.update s.modules name none }

end Process

/-! ## Loading -/

section

variable (py : Importlib W)

def setItem (name : Str) (x : ObjectId) : Host (Process W) Err Unit := do
  let s ← Host.get
  match py.refuses name x s with
  | some e => Host.throw e
  | none => Host.modify (Process.insert name x)

def delItem (name : Str) : Host (Process W) Err Unit := do
  let s ← Host.get
  match py.keeps name s with
  | some e => Host.throw e
  | none => Host.modify (Process.delete name)

def removeIfSame (name : Str) (expected : ObjectId) : Host (Process W) Err Unit := do
  let s ← Host.get
  if s.modules name = some expected then delItem py name else pure ()

def rollback (inserted : List (Str × ObjectId)) (child : Option (Str × ObjectId)) :
    Host (Process W) Err Unit := do
  Host.forEach child.toList fun entry => removeIfSame py entry.1 entry.2
  Host.forEach inserted.reverse fun entry => removeIfSame py entry.1 entry.2

/-- The way out after an error: what was inserted is taken out again. -/
def abandon {α : Type} (inserted : List (Str × ObjectId)) (child : Option (Str × ObjectId))
    (e : Err) : Host (Process W) Err α := do
  rollback py inserted child
  Host.throw e

/-- `register_parents`, with what it has inserted so far. -/
def registerParents :
    List (Str × ObjectId) → List (Str × ObjectId) →
      Host (Process W) Err (List (Str × ObjectId))
  | [], inserted => pure inserted
  | (name, parent) :: parents, inserted => do
    let s ← Host.get
    match s.modules name with
    | some existing =>
      if existing = parent then
        registerParents parents inserted
      else
        abandon py inserted none (.import (String.ofList name)
          ("a different parent module already occupies " ++ String.ofList name))
    | none =>
      match ← Host.attempt (setItem py name parent) with
      | .error e => abandon py inserted none e
      | .ok _ => registerParents parents (inserted ++ [(name, parent)])

/-- The steps of `execute_loader` that insert. -/
def insertModule (dotted : Str) (loader spec : ObjectId) (inserted : List (Str × ObjectId)) :
    Host (Process W) Err ObjectId := do
  match ← Host.attempt (py.moduleFromSpec spec) with
  | .error e => abandon py inserted none e
  | .ok module =>
    match ← Host.attempt (setItem py dotted module) with
    | .error e => abandon py inserted none e
    | .ok _ =>
      match ← Host.attempt (py.execModule loader module) with
      | .error e => abandon py inserted (some (dotted, module)) e
      | .ok _ => pure module

def executeLoader (parents : List (Str × ObjectId)) (dotted : Str) (path : String)
    (loader : ObjectId) : Host (Process W) Err ObjectId := do
  py.util
  py.sysModules
  py.keywords loader
  match ← py.specFromFileLocation dotted path loader with
  | none =>
    Host.throw (.import (String.ofList dotted) "importlib did not create a module specification")
  | some spec => do
    let inserted ← registerParents py parents []
    insertModule py dotted loader spec inserted

/-- `with_registry`, before its operation. -/
def registry : Host (Process W) Err Unit := do
  let s ← Host.get
  if py.poisoned s then
    Host.throw (.unexpected "the CPython native-extension registry is poisoned")
  else
    pure ()

def recordLoaded (dotted : Str) (loaded : LoadedExtension) : Host (Process W) Err Unit := do
  registry py
  Host.modify fun s => { s with loaded := Function.update s.loaded dotted (some loaded) }

/-- `load`, where nothing has been recorded, up to the record. -/
def runLoader (parents : List (Str × ObjectId)) (dotted : Str) (artifact : NativeArtifact) :
    Host (Process W) Err ObjectId := do
  py.sysModules
  let s ← Host.get
  if (s.modules dotted).isSome then
    Host.throw (.import (String.ofList dotted)
      ("an ambient module already occupies " ++ String.ofList dotted))
  else do
    let loader ← py.extensionLoader dotted artifact.path
    executeLoader py parents dotted artifact.path loader

/-- `load`, once the lock is held. -/
def loadLocked (parents : List (Str × ObjectId)) (dotted : Str) (artifact : NativeArtifact) :
    Host (Process W) Err ObjectId := do
  registry py
  let s ← Host.get
  match s.loaded dotted with
  | some loaded =>
    if loaded.contents = artifact.contents then
      pure loaded.module
    else
      Host.throw (.import (String.ofList dotted)
        ("a different native module is already loaded at " ++ loaded.origin ++ " for " ++
          String.ofList dotted ++ "; requested " ++ artifact.path))
  | none => do
    let module ← runLoader py parents dotted artifact
    recordLoaded py dotted ⟨artifact.path, artifact.contents, module⟩
    pure module

def load (parents : List (Str × ObjectId)) (dotted : Str) (artifact : NativeArtifact) :
    Host (Process W) Err ObjectId := do
  py.importLock
  loadLocked py parents dotted artifact

end

/-! ## Entries -/

/-- The entries under the names are what they were. -/
def Same (names : List Str) (s s' : Process W) : Prop := ∀ n ∈ names, s'.modules n = s.modules n

def entries (names : List Str) (s : Process W) : List (Option ObjectId) := names.map s.modules

/-- Whatever code the interpreter runs, it does not touch the entries under the names. -/
structure Importlib.Quiet (py : Importlib W) (names : List Str) : Prop where
  importLock : Preserves (entries names) py.importLock
  sysModules : Preserves (entries names) py.sysModules
  extensionLoader : ∀ dotted path, Preserves (entries names) (py.extensionLoader dotted path)
  util : Preserves (entries names) py.util
  keywords : ∀ loader, Preserves (entries names) (py.keywords loader)
  specFromFileLocation : ∀ dotted path loader,
    Preserves (entries names) (py.specFromFileLocation dotted path loader)
  moduleFromSpec : ∀ spec, Preserves (entries names) (py.moduleFromSpec spec)
  execModule : ∀ loader module, Preserves (entries names) (py.execModule loader module)

/-- Keys can be deleted. -/
def Importlib.Deletes (py : Importlib W) : Prop := ∀ name s, py.keeps name s = none

/-- The parents are in `sys.modules`. The extension may have taken the name of one. -/
def Parents (dotted : Str) (parents : List (Str × ObjectId)) (s : Process W) : Prop :=
  ∀ p ∈ parents, p.1 ≠ dotted → s.modules p.1 = some p.2

/-- Where nothing has been recorded, the extension is there, and its parents are. Otherwise the
module is the one in the record, and nothing has been inserted. -/
structure Settled (parents : List (Str × ObjectId)) (dotted : Str) (artifact : NativeArtifact)
    (record : Option LoadedExtension) (s s' : Process W) (module : ObjectId) : Prop where
  executed : record = none → s'.modules dotted = some module ∧ Parents dotted parents s'
  reused : ∀ loaded, record = some loaded → module = loaded.module ∧
    loaded.contents = artifact.contents ∧ Same (dotted :: parents.map Prod.fst) s s'

/-- The loader has run from `s` to `s'`, where the record turns out to be poisoned. -/
structure Unrecorded (py : Importlib W) (parents : List (Str × ObjectId)) (dotted : Str)
    (artifact : NativeArtifact) (s s' : Process W) : Prop where
  sound : py.poisoned s = false
  fresh : s.loaded dotted = none
  ran : ∃ module, runLoader py parents dotted artifact s = (.ok module, s')
  poisoned : py.poisoned s' = true

/-! ## Taking out what was inserted -/

section

variable {py : Importlib W} {names : List Str} {s₀ s s' : Process W} {α : Type}

theorem same_iff : Same names s s' ↔ entries names s' = entries names s := List.map_inj_left.symm

theorem Same.refl (s : Process W) : Same names s s := fun _ _ => rfl

theorem Same.trans {s'' : Process W} (h : Same names s s') (h' : Same names s' s'') :
    Same names s s'' := fun n hn => (h' n hn).trans (h n hn)

/-- Code that is quiet leads to the same entries, whether it returns or fails. -/
theorem ends_quiet {m : Host (Process W) Err α} (hm : Preserves (entries names) m) :
    Ends (.free _) s m (fun _ s' => Same names s s') (Same names s) fun _ => True :=
  Ends.of_preserves hm fun _ => same_iff.mpr

theorem modules_insert (name n : Str) (x : ObjectId) (s : Process W) :
    (s.insert name x).modules n = if n = name then some x else s.modules n := by
  unfold Process.insert
  simp only [Function.update_apply]

theorem modules_delete (name n : Str) (s : Process W) :
    (s.delete name).modules n = if n = name then none else s.modules n := by
  unfold Process.delete
  simp only [Function.update_apply]

theorem ends_setItem (name : Str) (x : ObjectId) (s : Process W) :
    Ends (.free _) s (setItem py name x) (fun _ s' => s' = s.insert name x) (fun s' => s' = s)
      fun _ => True := by
  unfold setItem
  apply Ends.get
  cases py.refuses name x s with
  | some e => exact Ends.throw rfl
  | none => exact Ends.modify id trivial rfl

/-- An entry has been set, or nothing has happened. -/
theorem ends_attempt_setItem {E : Process W → Prop} (name : Str) (x : ObjectId) (s : Process W) :
    Ends (.free _) s (Host.attempt (setItem py name x))
      (fun r s' => (∀ u, r = .ok u → s' = s.insert name x) ∧ ∀ e, r = .error e → s' = s) E
      fun _ => True := by
  refine Ends.attempt ((ends_setItem name x s).mono ?_ ?_ fun _ _ h => h)
  · exact fun u s' _ hs' => ⟨fun _ _ => hs', nofun⟩
  · exact fun s' _ hs' e => ⟨nofun, fun _ _ => hs'⟩

theorem ends_removeIfSame (hdeletes : py.Deletes) (name : Str) (x : ObjectId) (s : Process W)
    (hx : s.modules name = some x ∨ s.modules name = none) :
    Ends (.free _) s (removeIfSame py name x)
      (fun _ s' => ∀ n, s'.modules n = if n = name then none else s.modules n) (fun _ => False)
      fun _ => True := by
  unfold removeIfSame
  apply Ends.get
  apply Ends.ite
  · intro _
    unfold delItem
    apply Ends.get
    rw [hdeletes]
    exact Ends.modify id trivial fun n => modules_delete name n s
  · intro hne
    refine Ends.pure fun n => ?_
    by_cases hn : n = name
    · subst hn
      rw [if_pos rfl]
      exact hx.resolve_left hne
    · rw [if_neg hn]

theorem ends_removeAll (hdeletes : py.Deletes) (l : List (Str × ObjectId)) (s : Process W)
    (hl : ∀ p ∈ l, s.modules p.1 = some p.2 ∨ s.modules p.1 = none) :
    Ends (.free _) s (Host.forEach l fun entry => removeIfSame py entry.1 entry.2)
      (fun _ s' => ∀ n, s'.modules n = if n ∈ l.map Prod.fst then none else s.modules n)
      (fun _ => False) fun _ => True := by
  induction l generalizing s with
  | nil => exact Ends.pure fun n => by simp
  | cons p l ih =>
    refine Ends.bind (ends_removeIfSame hdeletes p.1 p.2 s (hl p List.mem_cons_self)) ?_
    intro _ s₁ _ h₁
    refine (ih s₁ fun q hq => ?_).mono (fun _ s' _ h n => ?_) (fun _ _ h => h) fun _ _ h => h
    · rw [h₁]
      split
      · exact Or.inr rfl
      · exact hl q (List.mem_cons_of_mem _ hq)
    · rw [h, h₁]
      by_cases hn : n = p.1
      · simp [hn]
      · simp only [List.map_cons, List.mem_cons, hn, false_or, if_false]

/-- What has been inserted since `s₀`: parents, and perhaps the extension itself. -/
structure Inserted (names : List Str) (s₀ s : Process W) (inserted : List (Str × ObjectId))
    (child : Option (Str × ObjectId)) : Prop where
  absent : ∀ p ∈ child.toList ++ inserted, s₀.modules p.1 = none
  extension : ∀ p ∈ child, s.modules p.1 = some p.2
  parents : ∀ p ∈ inserted, p.1 ∈ child.toList.map Prod.fst ∨ s.modules p.1 = some p.2
  others : ∀ n ∈ names, n ∉ (child.toList ++ inserted).map Prod.fst →
    s.modules n = s₀.modules n
  listed : ∀ p ∈ child.toList ++ inserted, p.1 ∈ names

/-- **Rolling back undoes just what was inserted.** -/
theorem ends_rollback (hdeletes : py.Deletes) {inserted : List (Str × ObjectId)}
    {child : Option (Str × ObjectId)} (h : Inserted names s₀ s inserted child) :
    Ends (.free _) s (rollback py inserted child) (fun _ s' => Same names s₀ s') (fun _ => False)
      fun _ => True := by
  unfold rollback
  refine Ends.bind (ends_removeAll hdeletes child.toList s fun p hp =>
    Or.inl (h.extension p (Option.mem_toList.mp hp))) ?_
  intro _ s₁ _ h₁
  refine (ends_removeAll hdeletes inserted.reverse s₁ fun p hp => ?_).mono
    (fun _ s' _ h₂ n hn => ?_) (fun _ _ h => h) fun _ _ h => h
  · rw [h₁]
    split
    · exact Or.inr rfl
    · next hnot => exact Or.inl ((h.parents p (List.mem_reverse.mp hp)).resolve_left hnot)
  · have habsent : n ∈ (child.toList ++ inserted).map Prod.fst → s₀.modules n = none := by
      intro hmem
      obtain ⟨p, hp, rfl⟩ := List.mem_map.mp hmem
      exact h.absent p hp
    rw [h₂, h₁]
    by_cases hparent : n ∈ inserted.map Prod.fst
    · rw [if_pos (by simpa using hparent)]
      exact (habsent (by simp only [List.map_append, List.mem_append, hparent, or_true])).symm
    · rw [if_neg (by simpa using hparent)]
      by_cases hchild : n ∈ child.toList.map Prod.fst
      · rw [if_pos hchild]
        exact (habsent (by simp only [List.map_append, List.mem_append, hchild, true_or])).symm
      · rw [if_neg hchild]
        refine h.others n hn ?_
        simp only [List.map_append, List.mem_append, hparent, hchild, or_self, not_false_eq_true]

theorem ends_abandon (hdeletes : py.Deletes) {inserted : List (Str × ObjectId)}
    {child : Option (Str × ObjectId)} (h : Inserted names s₀ s inserted child) (e : Err)
    (Q : α → Process W → Prop) :
    Ends (.free _) s (abandon py inserted child e : Host (Process W) Err α) Q (Same names s₀)
      fun _ => True := by
  unfold abandon
  refine Ends.bind (Q := fun _ s' => Same names s₀ s')
    ((ends_rollback hdeletes h).mono (fun _ _ _ h => h) (fun _ _ h => h.elim) fun _ _ h => h) ?_
  intro _ s' _ hsame
  exact Ends.throw hsame

/-- Quiet code before other code. -/
theorem ends_quiet_bind {β : Type} {m : Host (Process W) Err α} {f : α → Host (Process W) Err β}
    {Q : β → Process W → Prop} {E : Process W → Prop} (hm : Preserves (entries names) m)
    (h : Same names s₀ s) (hE : ∀ s', Same names s₀ s' → E s')
    (hf : ∀ a s', Same names s₀ s' → Ends (.free _) s' (f a) Q E fun _ => True) :
    Ends (.free _) s (m >>= f) Q E fun _ => True := by
  refine Ends.bind ((ends_quiet hm).mono (fun _ _ _ hs => h.trans hs)
    (fun _ _ hs => hE _ (h.trans hs)) fun _ _ h => h) ?_
  exact fun a s' _ hs => hf a s' hs

namespace Inserted

variable {inserted : List (Str × ObjectId)} {child : Option (Str × ObjectId)} {name : Str}
  {x : ObjectId}

theorem start (names : List Str) (s : Process W) : Inserted names s s [] none where
  absent := nofun
  extension := nofun
  parents := nofun
  others _ _ _ := rfl
  listed := nofun

theorem of_same (h : Inserted names s₀ s inserted child) (hs : Same names s s') :
    Inserted names s₀ s' inserted child where
  absent := h.absent
  extension p hp := by
    have hlisted := h.listed p (List.mem_append_left _ (Option.mem_toList.mpr hp))
    rw [hs _ hlisted, h.extension p hp]
  parents p hp := by
    rw [hs _ (h.listed p (List.mem_append_right _ hp))]
    exact h.parents p hp
  others n hn hnot := (hs n hn).trans (h.others n hn hnot)
  listed := h.listed

/-- A parent is inserted where nothing was. -/
theorem parent (h : Inserted names s₀ s inserted none) (hname : name ∈ names)
    (hnone : s.modules name = none) :
    Inserted names s₀ (s.insert name x) (inserted ++ [(name, x)]) none := by
  have hpresent : ∀ p ∈ inserted, s.modules p.1 = some p.2 :=
    fun p hp => (h.parents p hp).resolve_left List.not_mem_nil
  have hnew : name ∉ inserted.map Prod.fst := by
    intro hmem
    obtain ⟨p, hp, rfl⟩ := List.mem_map.mp hmem
    rw [hpresent p hp] at hnone
    cases hnone
  have hnew' : name ∉ ((none : Option (Str × ObjectId)).toList ++ inserted).map Prod.fst := hnew
  have hcases : ∀ p ∈ inserted ++ [(name, x)], p ∈ inserted ∨ p = (name, x) :=
    fun p hp => (List.mem_append.mp hp).imp_right List.mem_singleton.mp
  refine ⟨fun p hp => ?_, nofun, fun p hp => Or.inr ?_, fun n hn hnot => ?_, fun p hp => ?_⟩
  · rcases hcases p hp with hp | rfl
    · exact h.absent p hp
    · rw [← h.others name hname hnew', hnone]
  · rw [modules_insert]
    rcases hcases p hp with hp | rfl
    · have hne : p.1 ≠ name := fun heq => hnew (heq ▸ List.mem_map_of_mem hp)
      rw [if_neg hne]
      exact hpresent p hp
    · exact if_pos rfl
  · have hnot : n ∉ inserted.map Prod.fst ∧ n ≠ name := by simpa [not_or] using hnot
    rw [modules_insert, if_neg hnot.2]
    exact h.others n hn hnot.1
  · rcases hcases p hp with hp | rfl
    · exact h.listed p hp
    · exact hname

/-- The extension is inserted, perhaps over a parent of the same name. -/
theorem ofChild (h : Inserted names s₀ s inserted none) (hname : name ∈ names)
    (hnone : s₀.modules name = none) :
    Inserted names s₀ (s.insert name x) inserted (some (name, x)) where
  absent p hp := by
    rcases List.mem_cons.mp hp with rfl | hp
    · exact hnone
    · exact h.absent p hp
  extension p hp := by
    cases hp
    rw [modules_insert, if_pos rfl]
  parents p hp := by
    by_cases hp' : p.1 = name
    · exact Or.inl (List.mem_singleton.mpr hp')
    · rw [modules_insert, if_neg hp']
      exact Or.inr ((h.parents p hp).resolve_left List.not_mem_nil)
  others n hn hnot := by
    have hnot : n ≠ name ∧ n ∉ inserted.map Prod.fst := by simpa [not_or] using hnot
    rw [modules_insert, if_neg hnot.1]
    exact h.others n hn hnot.2
  listed p hp := by
    rcases List.mem_cons.mp hp with rfl | hp
    · exact hname
    · exact h.listed p hp

end Inserted

/-! ## What loading does -/

/-- Either the parents are all there, those that were missing have been inserted, or nothing has
been. -/
theorem ends_registerParents (hdeletes : py.Deletes) {parents : List (Str × ObjectId)}
    (hnames : ∀ p ∈ parents, p.1 ∈ names) {inserted : List (Str × ObjectId)}
    (h : Inserted names s₀ s inserted none) :
    Ends (.free _) s (registerParents py parents inserted)
      (fun all s' => Inserted names s₀ s' all none ∧ (∀ p ∈ parents, s'.modules p.1 = some p.2) ∧
        ∀ n x, s.modules n = some x → s'.modules n = some x)
      (Same names s₀) fun _ => True := by
  induction parents generalizing s inserted with
  | nil => exact Ends.pure ⟨h, nofun, fun _ _ hx => hx⟩
  | cons p parents ih =>
    obtain ⟨name, parent⟩ := p
    have hname := hnames (name, parent) List.mem_cons_self
    have hrest : ∀ p ∈ parents, p.1 ∈ names := fun p hp => hnames p (List.mem_cons_of_mem _ hp)
    unfold registerParents
    apply Ends.get
    cases hmod : s.modules name with
    | some existing =>
      refine Ends.ite (fun heq => ?_) fun _ => ends_abandon hdeletes h _ _
      subst heq
      refine (ih hrest h).mono (fun all s' _ hall => ?_) (fun _ _ h => h) fun _ _ h => h
      obtain ⟨hinserted, hparents, hkept⟩ := hall
      refine ⟨hinserted, fun p hp => ?_, hkept⟩
      rcases List.mem_cons.mp hp with rfl | hp
      · exact hkept _ _ hmod
      · exact hparents p hp
    | none =>
      refine Ends.bind (ends_attempt_setItem name parent s) ?_
      rintro r s₁ - ⟨hok, herr⟩
      cases r with
      | error e =>
        rw [herr e rfl]
        exact ends_abandon hdeletes h e _
      | ok u =>
        rw [hok u rfl]
        refine (ih hrest (h.parent hname hmod)).mono (fun all s' _ hall => ?_) (fun _ _ h => h)
          fun _ _ h => h
        obtain ⟨hinserted, hparents, hkept⟩ := hall
        refine ⟨hinserted, fun p hp => ?_, fun n x hx => hkept n x ?_⟩
        · rcases List.mem_cons.mp hp with rfl | hp
          · exact hkept _ _ (by rw [modules_insert, if_pos rfl])
          · exact hparents p hp
        · rw [modules_insert, if_neg, hx]
          rintro rfl
          rw [hmod] at hx
          cases hx

theorem ends_insertModule (hdeletes : py.Deletes) (hquiet : py.Quiet names) {dotted : Str}
    (hname : dotted ∈ names) (hnone : s₀.modules dotted = none) (loader spec : ObjectId)
    {inserted : List (Str × ObjectId)} (h : Inserted names s₀ s inserted none) :
    Ends (.free _) s (insertModule py dotted loader spec inserted)
      (fun module s' => s'.modules dotted = some module ∧
        ∀ n ∈ names, n ≠ dotted → s'.modules n = s.modules n)
      (Same names s₀) fun _ => True := by
  have hattempt : ∀ {α : Type} {m : Host (Process W) Err α} (s : Process W),
      Preserves (entries names) m →
      Ends (.free _) s (Host.attempt m) (fun _ s' => Same names s s') (Same names s₀)
        fun _ => True := by
    intro α m s hm
    refine Ends.attempt ((ends_quiet hm).mono (fun _ _ _ h => h) (fun _ _ h _ => h) fun _ _ h => h)
  unfold insertModule
  refine Ends.bind (hattempt s (hquiet.moduleFromSpec spec)) ?_
  intro r s₁ _ h₁
  cases r with
  | error e => exact ends_abandon hdeletes (h.of_same h₁) e _
  | ok module =>
    refine Ends.bind (ends_attempt_setItem dotted module s₁) ?_
    rintro r s₂ - ⟨hok, herr⟩
    cases r with
    | error e =>
      rw [herr e rfl]
      exact ends_abandon hdeletes (h.of_same h₁) e _
    | ok u =>
      rw [hok u rfl]
      refine Ends.bind (hattempt _ (hquiet.execModule loader module)) ?_
      intro r s₃ _ h₃
      have hinserted := ((h.of_same h₁).ofChild (x := module) hname hnone).of_same h₃
      cases r with
      | error e => exact ends_abandon hdeletes hinserted e _
      | ok u =>
        refine Ends.pure ⟨hinserted.extension _ rfl, fun n hn hne => ?_⟩
        rw [h₃ n hn, modules_insert, if_neg hne, h₁ n hn]

theorem ends_executeLoader (hdeletes : py.Deletes) {parents : List (Str × ObjectId)}
    {dotted : Str} (hquiet : py.Quiet (dotted :: parents.map Prod.fst)) (path : String)
    (loader : ObjectId) (s : Process W) (hnone : s.modules dotted = none) :
    Ends (.free _) s (executeLoader py parents dotted path loader)
      (fun module s' => s'.modules dotted = some module ∧ Parents dotted parents s')
      (Same (dotted :: parents.map Prod.fst) s) fun _ => True := by
  unfold executeLoader
  refine ends_quiet_bind hquiet.util (Same.refl s) (fun _ h => h) fun _ s₁ h₁ => ?_
  refine ends_quiet_bind hquiet.sysModules h₁ (fun _ h => h) fun _ s₂ h₂ => ?_
  refine ends_quiet_bind (hquiet.keywords loader) h₂ (fun _ h => h) fun _ s₃ h₃ => ?_
  refine ends_quiet_bind (hquiet.specFromFileLocation dotted path loader) h₃ (fun _ h => h)
    fun spec s₄ h₄ => ?_
  cases spec with
  | none => exact Ends.throw h₄
  | some spec =>
    have hnames : ∀ p ∈ parents, p.1 ∈ dotted :: parents.map Prod.fst :=
      fun p hp => List.mem_cons_of_mem _ (List.mem_map_of_mem hp)
    have hstart := (Inserted.start (dotted :: parents.map Prod.fst) s).of_same h₄
    refine Ends.bind (ends_registerParents hdeletes hnames hstart) ?_
    rintro inserted s₅ - ⟨hinserted, hparents, -⟩
    refine (ends_insertModule hdeletes hquiet List.mem_cons_self hnone loader spec hinserted).mono
      (fun module s' _ hmodule => ?_) (fun _ _ h => h) fun _ _ h => h
    refine ⟨hmodule.1, fun p hp hne => ?_⟩
    rw [hmodule.2 p.1 (hnames p hp) hne, hparents p hp]

theorem ends_registry (s : Process W) :
    Ends (.free _) s (registry py) (fun _ s' => s' = s ∧ py.poisoned s = false)
      (fun s' => s' = s ∧ py.poisoned s' = true) fun _ => True := by
  unfold registry
  apply Ends.get
  exact Ends.ite (fun h => Ends.throw ⟨rfl, h⟩) fun h => Ends.pure ⟨rfl, by simpa using h⟩

theorem ends_recordLoaded (dotted : Str) (loaded : LoadedExtension) (s : Process W) :
    Ends (.free _) s (recordLoaded py dotted loaded) (fun _ s' => s'.modules = s.modules)
      (fun s' => s' = s ∧ py.poisoned s' = true) fun _ => True := by
  unfold recordLoaded
  refine Ends.bind (ends_registry s) ?_
  rintro _ s' - ⟨rfl, -⟩
  exact Ends.modify id trivial rfl

theorem ends_runLoader (hdeletes : py.Deletes) {parents : List (Str × ObjectId)} {dotted : Str}
    (hquiet : py.Quiet (dotted :: parents.map Prod.fst)) (artifact : NativeArtifact)
    (h₀ : Same (dotted :: parents.map Prod.fst) s₀ s) :
    Ends (.free _) s (runLoader py parents dotted artifact)
      (fun module s' => s'.modules dotted = some module ∧ Parents dotted parents s')
      (Same (dotted :: parents.map Prod.fst) s₀) fun _ => True := by
  unfold runLoader
  refine ends_quiet_bind hquiet.sysModules h₀ (fun _ h => h) fun _ s₁ h₁ => ?_
  apply Ends.get
  refine Ends.ite (fun _ => Ends.throw h₁) fun hambient => ?_
  have hnone : s₁.modules dotted = none := by simpa using hambient
  refine ends_quiet_bind (hquiet.extensionLoader dotted artifact.path) h₁ (fun _ h => h)
    fun loader s₂ h₂ => ?_
  have hnone₂ : s₂.modules dotted = none := by
    rw [h₂ dotted List.mem_cons_self, ← h₁ dotted List.mem_cons_self, hnone]
  exact (ends_executeLoader hdeletes hquiet artifact.path loader s₂ hnone₂).mono
    (fun _ _ _ h => h) (fun _ _ h => h₂.trans h) fun _ _ h => h

theorem ends_loadLocked (hdeletes : py.Deletes) {parents : List (Str × ObjectId)} {dotted : Str}
    (hquiet : py.Quiet (dotted :: parents.map Prod.fst)) (artifact : NativeArtifact)
    (h₀ : Same (dotted :: parents.map Prod.fst) s₀ s) :
    Ends (.free _) s (loadLocked py parents dotted artifact)
      (fun module s' => Settled parents dotted artifact (s.loaded dotted) s₀ s' module)
      (fun s' => ¬ Unrecorded py parents dotted artifact s s' →
        Same (dotted :: parents.map Prod.fst) s₀ s')
      fun _ => True := by
  unfold loadLocked
  refine Ends.bind ((ends_registry s).mono (fun _ _ _ h => h) (fun s' _ h _ => ?_)
    fun _ _ h => h) ?_
  · rw [h.1]
    exact h₀
  rintro _ s' - ⟨rfl, hsound⟩
  apply Ends.get
  cases hloaded : s'.loaded dotted with
  | some loaded =>
    refine Ends.ite (fun hcontents => Ends.pure ⟨nofun, fun loaded' h => ?_⟩) fun _ =>
      Ends.throw fun _ => h₀
    cases h
    exact ⟨rfl, hcontents, h₀⟩
  | none =>
    refine Ends.bind ((ends_runLoader hdeletes hquiet artifact h₀).result.mono
      (fun _ _ _ h => h) (fun _ _ h _ => h) fun _ _ h => h) ?_
    rintro module s₁ - ⟨⟨hmodule, hparents⟩, hran⟩
    refine Ends.bind ((ends_recordLoaded dotted _ s₁).mono (fun _ _ _ h => h)
      (fun s' _ h hrecorded => ?_) fun _ _ h => h) ?_
    · -- the record is poisoned by now
      obtain ⟨rfl, hpoisoned⟩ := h
      exact absurd ⟨hsound, hloaded, ⟨module, hran⟩, hpoisoned⟩ hrecorded
    · intro _ s₂ _ h₂
      refine Ends.pure ⟨fun _ => ⟨?_, fun p hp hne => ?_⟩, nofun⟩
      · rw [h₂, hmodule]
      · rw [h₂, hparents p hp hne]

/-- **Loading rolls back.** If it fails, the entries of the extension and of its parents are as
before, unless the loader has run and cannot be recorded. If it runs the loader and succeeds, they
are there. -/
theorem load_settles (py : Importlib W) (hdeletes : py.Deletes) (parents : List (Str × ObjectId))
    (dotted : Str) (hquiet : py.Quiet (dotted :: parents.map Prod.fst)) (artifact : NativeArtifact)
    (s : Process W) :
    (∀ e s', load py parents dotted artifact s = (.err e, s') →
      ¬ Unrecorded py parents dotted artifact (py.importLock s).2 s' →
        Same (dotted :: parents.map Prod.fst) s s') ∧
    ∀ module s', load py parents dotted artifact s = (.ok module, s') →
      Settled parents dotted artifact ((py.importLock s).2.loaded dotted) s s' module := by
  have hlock := hquiet.importLock s
  have hends : ∀ s₁, (py.importLock s).2 = s₁ → _ := fun s₁ hs₁ =>
    ends_loadLocked hdeletes hquiet artifact (same_iff.mpr (hs₁ ▸ hlock))
  constructor
  · intro e s' h hrecorded
    rcases Host.bind_cases h with ⟨u, s₁, h₁, h⟩ | ⟨e', h₁, -⟩ | ⟨-, he⟩ | ⟨-, he⟩
    · have herr := ((hends s₁ (congrArg Prod.snd h₁)).2 trivial).1 e (congrArg Prod.fst h)
      rw [h₁] at hrecorded
      rw [h] at herr
      exact herr hrecorded
    · rw [h₁] at hlock
      exact same_iff.mpr hlock
    · cases he
    · cases he
  · intro module s' h
    rcases Host.bind_cases h with ⟨u, s₁, h₁, h⟩ | ⟨e', -, he⟩ | ⟨-, he⟩ | ⟨-, he⟩
    · obtain ⟨-, -, hok, -⟩ := (hends s₁ (congrArg Prod.snd h₁)).1 trivial
      have hsettled := hok module (congrArg Prod.fst h)
      rw [h] at hsettled
      rw [h₁]
      exact hsettled
    · cases he
    · cases he
    · cases he

end

/-! ### A loader that fails, and a module that is reused -/

/-- An interpreter whose loader makes the module 4, and fails to execute it. -/
def failing : Importlib Unit where
  importLock := pure ()
  sysModules := pure ()
  extensionLoader := fun _ _ => pure 2
  util := pure ()
  keywords := fun _ => pure ()
  specFromFileLocation := fun _ _ _ => pure (some 3)
  moduleFromSpec := fun _ => pure 4
  execModule := fun _ _ => Host.throw (.unexpected "fixture failure")
  refuses := fun _ _ _ => none
  keeps := fun _ _ => none
  poisoned := fun _ => false

theorem quiet_failing (names : List Str) : failing.Quiet names where
  importLock _ := rfl
  sysModules _ := rfl
  extensionLoader _ _ _ := rfl
  util _ := rfl
  keywords _ _ := rfl
  specFromFileLocation _ _ _ _ := rfl
  moduleFromSpec _ _ := rfl
  execModule _ _ _ := rfl

/-- A process in which the module 5 has been loaded from the given bytes, if any. -/
def process (contents : Option (List UInt8)) : Process Unit where
  modules := fun _ => none
  loaded := fun _ => contents.map fun contents => ⟨"/package/native.so", contents, 5⟩
  world := ()

theorem same_failing :
    Same ["pkg.native".toList, "pkg".toList] (process none)
      (load failing [("pkg".toList, 1)] "pkg.native".toList ⟨"/pkg/native.so", [1]⟩
        (process none)).2 :=
  (load_settles failing (fun _ _ => rfl) [("pkg".toList, 1)] "pkg.native".toList
    (quiet_failing _) ⟨"/pkg/native.so", [1]⟩ (process none)).1 _ _ rfl
      fun h => Bool.false_ne_true h.poisoned

/-- What has been recorded is returned, whatever `sys.modules` has. -/
theorem not_present_of_reused :
    ¬ ∀ (W : Type) (py : Importlib W) (parents : List (Str × ObjectId)) (dotted : Str)
      (artifact : NativeArtifact) (s s' : Process W) (module : ObjectId), py.Deletes →
        py.Quiet (dotted :: parents.map Prod.fst) →
        load py parents dotted artifact s = (.ok module, s') →
          (s'.modules dotted).isSome = true ∧ ∀ p ∈ parents, (s'.modules p.1).isSome = true := by
  intro h
  obtain ⟨hpresent, -⟩ := h Unit failing [] "pkg.native".toList ⟨"/pkg/native.so", [1]⟩
    (process (some [1])) _ 5 (fun _ _ => rfl) (quiet_failing _) rfl
  cases hpresent

end GuestPy.Extensions
