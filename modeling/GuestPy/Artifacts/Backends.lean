import GuestPy.Artifacts.Materialized
import GuestPy.Bundles.Consistency

/-!
# Native extensions on two backends

A backend without native extensions claims the names that they would have, so that an import of one
is refused there and not handed on to the interpreter.

* `prepareBundle` binds the names that a backend prepares for a bundle.
* `Registered`: whatever bundle has been written has the names that are claimed
  (`names_of_written`).
* `Run` follows a guest on both backends, and `Alike` says that the same names are bound there
  (`Run.alike`).
-/

namespace GuestPy.Artifacts

open Bundles BundleBuilder CPythonNativeExtensions

/-! ## Claims -/

structure UnsupportedNativeExtensions where
  claims : List Str

namespace UnsupportedNativeExtensions

/-- `NoNativeExtensions::prepare`, which collects a set. -/
def prepare (bundle : Bundle) : UnsupportedNativeExtensions :=
  ⟨(bundle.files.keys.filterMap claim).dedup⟩

def names (u : UnsupportedNativeExtensions) : List Str := u.claims

/-- `realise`, on the backend of a name. -/
def realise (backend : String) (_ : UnsupportedNativeExtensions) (dotted : Str) : Except Err Unit :=
  .error (.unsupported
    s!"backend {backend} cannot load native extension module {String.ofList dotted}")

theorem mem_names_prepare {bundle : Bundle} {name : Str} :
    name ∈ (prepare bundle).names ↔ ∃ path ∈ bundle.files, claim path = some name := by
  simp only [names, prepare, List.mem_dedup, List.mem_filterMap, Std.ExtTreeMap.mem_keys]

end UnsupportedNativeExtensions

/-! ## Bindings -/

/-- The tables of a guest that its bundles fill, on a backend with loaders `L`. -/
structure Bindings (L : Type) where
  sources : BTreeMap Bundle := ∅
  prepared : Nat → Option L := fun _ => none
  extensions : BTreeMap L := ∅

/-- Binds names, one after another. -/
def bindAll {α : Type} (names : List Str) (a : α) (table : BTreeMap α) : BTreeMap α :=
  names.foldl (fun table name => table.insert name a) table

/-- The loader of the bundle with a number, prepared once. -/
def loaderOf {σ L : Type} (prepare : Bundle → Host σ Err L) (id : Nat) (bundle : Bundle)
    (b : Bindings L) : Host σ Err L :=
  match b.prepared id with
  | some loader => pure loader
  | none => prepare bundle

def prepareBundle {σ L : Type} (prepare : Bundle → Host σ Err L) (names : L → List Str) (id : Nat)
    (bundle : Bundle) (b : Bindings L) : Host σ Err (Bindings L) := do
  let loader ← loaderOf prepare id bundle b
  pure
    { sources := bindAll bundle.modules.keys bundle b.sources
      prepared := Function.update b.prepared id (some loader)
      extensions := bindAll (names loader) loader b.extensions }

namespace Bindings

variable {L : Type}

/-- `contains`, where `held` says what the host binds. A module that has been realised already was
bound before. -/
def contains (held : Str → Bool) (b : Bindings L) (dotted : Str) : Bool :=
  held dotted || b.sources.contains dotted || b.extensions.contains dotted

/-- `is_bound`, once the name is not denied. -/
def isBound (held : Str → Bool) (b : Bindings L) (resolved : Str) : Bool :=
  b.contains held (DottedName.head resolved)

end Bindings

/-- What answers an import of a name. -/
inductive Route where
  | delegated
  | held
  | source
  | extension
  | missing
  deriving DecidableEq

/-- An import whose head is not bound is delegated. Others are looked up in the order of
`realise`. -/
def Bindings.route {L : Type} (held : Str → Bool) (b : Bindings L) (resolved : Str) : Route :=
  if !b.isBound held resolved then .delegated
  else if held resolved then .held
  else if b.sources.contains resolved then .source
  else if b.extensions.contains resolved then .extension
  else .missing

/-! ## Names of a bundle -/

theorem mem_intercalate {c d : Char} {ls : List Str} (h : d ∈ [c].intercalate ls) :
    d = c ∨ ∃ l ∈ ls, d ∈ l := by
  induction ls with
  | nil => cases h
  | cons l ls ih =>
    by_cases hls : ls = []
    · subst hls
      exact Or.inr ⟨l, List.mem_cons_self, by simpa using h⟩
    · rw [List.intercalate_cons_of_ne_nil hls, List.mem_append, List.mem_append,
        List.mem_singleton] at h
      rcases h with (hd | rfl) | hd
      · exact Or.inr ⟨l, List.mem_cons_self, hd⟩
      · exact Or.inl rfl
      · rcases ih hd with rfl | ⟨l', hl', hd'⟩
        · exact Or.inl rfl
        · exact Or.inr ⟨l', List.mem_cons_of_mem _ hl', hd'⟩

theorem backslash_not_mem_dotted {dotted : Str} (h : validateDotted dotted = .ok ()) :
    '\\' ∉ dotted := by
  intro hmem
  have hjoin : ['.'].intercalate (dotted.splitOn '.') = dotted := List.intercalate_splitOn '.'
  rw [← hjoin] at hmem
  rcases mem_intercalate hmem with hdot | ⟨component, hcomponent, hmem⟩
  · cases hdot
  · exact not_mem_of_isIdentifier (identifiers_of_valid h hcomponent) (by decide) hmem

theorem backslash_not_mem_replace {old : Char} {text : Str} (h : '\\' ∉ text ∨ old = '\\') :
    '\\' ∉ replace old '/' text := by
  intro hmem
  obtain ⟨c, hc, heq⟩ := List.mem_map.mp hmem
  split at heq
  · cases heq
  · rename_i hne
    subst heq
    rcases h with hnot | rfl
    · exact hnot hc
    · exact hne rfl

theorem backslash_not_mem_path {c : Call} (h : c.invalid = none) : '\\' ∉ c.path := by
  cases c with
  | data path bytes => exact backslash_not_mem_replace (Or.inr rfl)
  | module dotted source =>
    have hdotted : '\\' ∉ replace '.' '/' dotted :=
      backslash_not_mem_replace (Or.inl (backslash_not_mem_dotted (Call.validates h rfl)))
    have hsuffix : '\\' ∉ pySuffix := by decide
    simp [Call.path, origin, hdotted, hsuffix]
  | package dotted source =>
    have hdotted : '\\' ∉ replace '.' '/' dotted :=
      backslash_not_mem_replace (Or.inl (backslash_not_mem_dotted (Call.validates h rfl)))
    have hfile : '\\' ∉ '/' :: (initName ++ pySuffix) := by decide
    simp only [Call.path, origin, if_true, List.mem_append, hdotted, hfile, or_self,
      not_false_eq_true]

/-- The paths of a bundle that is accepted are free of backslashes. -/
theorem Accepted.backslash_not_mem {bundle : Bundle} (h : Accepted bundle) {path : Str}
    (hpath : path ∈ bundle.files) : '\\' ∉ path := by
  obtain ⟨calls, hbuild⟩ := h
  obtain ⟨herror, -, rfl⟩ := build_eq_ok.mp hbuild
  have hvalid := valid_of_run herror
  obtain ⟨c, hc, rfl⟩ := (mem_files_iff hvalid).mp hpath
  exact backslash_not_mem_path (hvalid c hc)

/-- Both have the names that files map to. -/
def SameNames (m : MaterializedBundle) (u : UnsupportedNativeExtensions) : Prop :=
  ∀ name, name ∈ m.names ↔ name ∈ u.names

section

variable {fs : FileSystem} {root : Str} {suffixes : List Str} {s s' : Storage}
  {m : MaterializedBundle}

/-- **A bundle that has been written has the names that are claimed.** -/
theorem names_of_written {bundle : Bundle} (hbundle : Accepted bundle)
    (hsuffixes : ∀ t ∈ suffixes, IsNativeSuffix t)
    (h : writeBundle fs root bundle suffixes s = (.ok m, s')) :
    SameNames m (UnsupportedNativeExtensions.prepare bundle) := by
  intro name
  rw [mem_names_iff h, UnsupportedNativeExtensions.mem_names_prepare]
  refine exists_congr fun path => and_congr_right fun hpath => ?_
  rw [logicalName_eq_claim hsuffixes (hbundle.backslash_not_mem hpath)]

/-- What the registry holds has the names that are claimed. -/
def Registered (bundles : Nat → Bundle) (s : Storage) : Prop :=
  ∀ id m, s.bundles id = some m → SameNames m (UnsupportedNativeExtensions.prepare (bundles id))

theorem preserves_ask (fs : FileSystem) (request : Request) :
    Preserves Storage.bundles (ask fs request) := by
  intro s
  unfold ask
  dsimp only
  split <;> rfl

theorem preserves_writeFiles (fs : FileSystem) (root : Str) (suffixes : List Str)
    (files : List (Str × ByteArray)) (t : Tables) :
    Preserves Storage.bundles (writeFiles fs root suffixes files t) := by
  induction files generalizing t with
  | nil => exact Preserves.pure
  | cons file files ih =>
    refine Preserves.bind ?_ fun t => ih t
    refine Preserves.bind (Preserves.ofExcept _) fun relative => ?_
    refine Preserves.bind (Preserves.forEach (fun dir => preserves_ask fs _) _) fun _ => ?_
    exact Preserves.bind (preserves_ask fs _) fun _ => Preserves.pure

theorem preserves_writeBundle (fs : FileSystem) (root : Str) (suffixes : List Str)
    (bundle : Bundle) : Preserves Storage.bundles (writeBundle fs root bundle suffixes) :=
  Preserves.bind (preserves_writeFiles fs root suffixes _ _) fun _ => Preserves.pure

/-- What happens after a failed write. -/
theorem preserves_remove (fs : FileSystem) (root : Str) (e : Err) :
    Preserves Storage.bundles (Host.attempt (ask fs (.removeDirAll root)) >>= fun _ =>
      (Host.throw e : Host Storage Err MaterializedBundle)) :=
  Preserves.bind (Preserves.attempt (preserves_ask fs _)) fun _ => Preserves.throw

/-- A bundle is in the registry already, or has been written and registered, or nothing has been
registered. -/
theorem materialize_cases {id : Nat} {bundle : Bundle} {o : Outcome Err MaterializedBundle}
    (h : materialize fs root id bundle suffixes s = (o, s')) :
    (∃ m, s.bundles id = some m ∧ o = .ok m ∧ s' = s) ∨
      (∃ m s₁, writeBundle fs (bundleDir root id) bundle suffixes s = (.ok m, s₁) ∧ o = .ok m ∧
        s'.bundles = Function.update s.bundles id (some m)) ∨
      (∀ m, o ≠ .ok m) ∧ s'.bundles = s.bundles := by
  unfold materialize at h
  rw [Host.get_bind] at h
  cases hregistered : s.bundles id with
  | some m =>
    rw [hregistered] at h
    cases h
    exact Or.inl ⟨m, rfl, rfl, rfl⟩
  | none =>
    rw [hregistered] at h
    have hsame := preserves_writeBundle fs (bundleDir root id) suffixes bundle s
    rcases hwrite : writeBundle fs (bundleDir root id) bundle suffixes s with ⟨r, s₁⟩
    rw [hwrite] at hsame
    change Host.bind (Host.attempt _) _ s = _ at h
    unfold Host.bind Host.attempt at h
    rw [hwrite] at h
    cases r with
    | ok m =>
      cases h
      refine Or.inr (Or.inl ⟨m, s₁, rfl, rfl, ?_⟩)
      rw [← hsame]
    | err e =>
      change (Host.attempt (ask fs (.removeDirAll (bundleDir root id))) >>= fun _ =>
        Host.throw e) s₁ = (o, s') at h
      have hkept := preserves_remove fs (bundleDir root id) e s₁
      rw [h] at hkept
      refine Or.inr (Or.inr ⟨fun m hm => ?_, hkept.trans hsame⟩)
      subst hm
      obtain ⟨_, _, _, hthrow⟩ := Host.bind_eq_ok.mp h
      cases hthrow
    | panic =>
      cases h
      exact Or.inr (Or.inr ⟨nofun, hsame⟩)
    | stuck =>
      cases h
      exact Or.inr (Or.inr ⟨nofun, hsame⟩)

/-- What has been registered, and what a request for a bundle returns, has the names that are
claimed. -/
theorem registered_materialize {bundles : Nat → Bundle} (hbundles : ∀ id, Accepted (bundles id))
    (hsuffixes : ∀ t ∈ suffixes, IsNativeSuffix t) (hs : Registered bundles s) {id : Nat}
    {o : Outcome Err MaterializedBundle}
    (h : materialize fs root id (bundles id) suffixes s = (o, s')) :
    Registered bundles s' ∧
      ∀ m, o = .ok m → SameNames m (UnsupportedNativeExtensions.prepare (bundles id)) := by
  rcases materialize_cases h with
    ⟨m, hm, rfl, rfl⟩ | ⟨m, s₁, hwrite, rfl, hregister⟩ | ⟨hfails, hsame⟩
  · refine ⟨hs, fun m' hm' => ?_⟩
    cases hm'
    exact hs id m hm
  · have hnames := names_of_written (hbundles id) hsuffixes hwrite
    refine ⟨fun id' m' hm' => ?_, fun m' hm' => ?_⟩
    · rw [hregister, Function.update_apply] at hm'
      split at hm'
      · rename_i hid
        subst hid
        cases hm'
        exact hnames
      · exact hs id' m' hm'
    · cases hm'
      exact hnames
  · refine ⟨fun id' m' hm' => ?_, fun m hm => absurd hm (hfails m)⟩
    rw [hsame] at hm'
    exact hs id' m' hm'

end

/-! ## A guest on both backends -/

/-- The names that mounting binds are the same on both backends. -/
structure Alike (b : Bindings MaterializedBundle) (b' : Bindings UnsupportedNativeExtensions) :
    Prop where
  sources : b.sources = b'.sources
  prepared : ∀ id, (b.prepared id = none ∧ b'.prepared id = none) ∨
    ∃ m u, b.prepared id = some m ∧ b'.prepared id = some u ∧ SameNames m u
  extensions : ∀ name, name ∈ b.extensions ↔ name ∈ b'.extensions

/-- What mounts the bundle with a number on CPython. -/
def mountCPython (fs : FileSystem) (root : Str) (suffixes : List Str) (bundles : Nat → Bundle)
    (id : Nat) (b : Bindings MaterializedBundle) :
    Host Storage Err (Bindings MaterializedBundle) :=
  prepareBundle (fun bundle => materialize fs root id bundle suffixes) MaterializedBundle.names id
    (bundles id) b

/-- The same on a backend without native extensions. -/
def mountUnsupported (bundles : Nat → Bundle) (id : Nat)
    (b : Bindings UnsupportedNativeExtensions) :
    Host Unit Err (Bindings UnsupportedNativeExtensions) :=
  prepareBundle (fun bundle => pure (UnsupportedNativeExtensions.prepare bundle))
    UnsupportedNativeExtensions.names id (bundles id) b

/-- What may happen while a guest mounts bundles on CPython and, elsewhere, the same bundles on a
backend without native extensions. Other guests of the process request bundles in between, which
may fail, and the interpreter may report other suffixes each time. -/
inductive Run (fs : FileSystem) (root : Str) (bundles : Nat → Bundle) :
    Storage → Bindings MaterializedBundle → Bindings UnsupportedNativeExtensions → Prop
  | start {s : Storage} : (∀ id, s.bundles id = none) → Run fs root bundles s {} {}
  | request {s s' : Storage} {b : Bindings MaterializedBundle}
      {b' : Bindings UnsupportedNativeExtensions} {id : Nat} {suffixes : List Str}
      {o : Outcome Err MaterializedBundle} :
    Run fs root bundles s b b' → (∀ t ∈ suffixes, IsNativeSuffix t) →
      materialize fs root id (bundles id) suffixes s = (o, s') → Run fs root bundles s' b b'
  | mount {s s' : Storage} {b b₁ : Bindings MaterializedBundle}
      {b' b₁' : Bindings UnsupportedNativeExtensions} {id : Nat} {suffixes : List Str} :
    Run fs root bundles s b b' → (∀ t ∈ suffixes, IsNativeSuffix t) →
      mountCPython fs root suffixes bundles id b s = (.ok b₁, s') →
        (mountUnsupported bundles id b' ()).1 = .ok b₁' → Run fs root bundles s' b₁ b₁'

theorem mem_bindAll {α : Type} {names : List Str} {a : α} {table : BTreeMap α} {name : Str} :
    name ∈ bindAll names a table ↔ name ∈ names ∨ name ∈ table := by
  unfold bindAll
  induction names generalizing table with
  | nil => simp
  | cons n names ih =>
    rw [List.foldl_cons, ih, Std.ExtTreeMap.mem_insert, List.mem_cons,
      Std.LawfulEqCmp.compare_eq_iff_eq]
    tauto

/-- What a mounted bundle adds, with a loader that was prepared before or is now. -/
theorem prepareBundle_ok {σ L : Type} {prepare : Bundle → Host σ Err L} {names : L → List Str}
    {id : Nat} {bundle : Bundle} {b b₁ : Bindings L} {s s' : σ}
    (h : prepareBundle prepare names id bundle b s = (.ok b₁, s')) :
    ∃ loader, b₁ = ⟨bindAll bundle.modules.keys bundle b.sources,
        Function.update b.prepared id (some loader),
        bindAll (names loader) loader b.extensions⟩ ∧
      ((b.prepared id = some loader ∧ s' = s) ∨
        b.prepared id = none ∧ prepare bundle s = (.ok loader, s')) := by
  obtain ⟨loader, s₁, hloader, h⟩ := Host.bind_eq_ok.mp h
  cases h
  refine ⟨loader, rfl, ?_⟩
  unfold loaderOf at hloader
  cases hprepared : b.prepared id with
  | some loader' =>
    rw [hprepared] at hloader
    cases hloader
    exact Or.inl ⟨rfl, rfl⟩
  | none =>
    rw [hprepared] at hloader
    exact Or.inr ⟨rfl, hloader⟩

/-- Loaders with the same names keep the tables alike. -/
theorem Alike.mount {b : Bindings MaterializedBundle} {b' : Bindings UnsupportedNativeExtensions}
    (h : Alike b b') {id : Nat} {bundle : Bundle} {m : MaterializedBundle}
    {u : UnsupportedNativeExtensions} (hnames : SameNames m u) :
    Alike ⟨bindAll bundle.modules.keys bundle b.sources, Function.update b.prepared id (some m),
        bindAll m.names m b.extensions⟩
      ⟨bindAll bundle.modules.keys bundle b'.sources, Function.update b'.prepared id (some u),
        bindAll u.names u b'.extensions⟩ := by
  refine ⟨by rw [h.sources], fun id' => ?_, fun name => ?_⟩
  · by_cases hid : id' = id
    · subst hid
      exact Or.inr ⟨m, u, Function.update_self .., Function.update_self .., hnames⟩
    · dsimp only
      rw [Function.update_of_ne hid, Function.update_of_ne hid]
      exact h.prepared id'
  · rw [mem_bindAll, mem_bindAll, hnames name, h.extensions name]

section

variable {fs : FileSystem} {root : Str} {bundles : Nat → Bundle} {s : Storage}
  {b : Bindings MaterializedBundle} {b' : Bindings UnsupportedNativeExtensions}
  (hbundles : ∀ id, Accepted (bundles id))

include hbundles

/-- **Over a whole run, the same names are bound.** -/
theorem Run.alike (h : Run fs root bundles s b b') : Registered bundles s ∧ Alike b b' := by
  induction h with
  | start hempty =>
    refine ⟨fun id m hm => ?_, ⟨rfl, fun _ => Or.inl ⟨rfl, rfl⟩, fun _ => by simp⟩⟩
    rw [hempty] at hm
    cases hm
  | request _ hsuffixes hrequest ih =>
    exact ⟨(registered_materialize hbundles hsuffixes ih.1 hrequest).1, ih.2⟩
  | @mount s s' b b₁ b' b₁' id suffixes _ hsuffixes hmount hmount' ih =>
    obtain ⟨hregistered, halike⟩ := ih
    obtain ⟨m, rfl, hm⟩ := prepareBundle_ok hmount
    obtain ⟨u, rfl, hu⟩ := prepareBundle_ok (Prod.ext hmount' rfl :
      mountUnsupported bundles id b' () = (.ok b₁', (mountUnsupported bundles id b' ()).2))
    rcases hm with ⟨hprepared, rfl⟩ | ⟨hfresh, hwrite⟩
    · refine ⟨hregistered, halike.mount ?_⟩
      rcases halike.prepared id with ⟨hnone, -⟩ | ⟨m', u', hm', hu', hnames⟩
      · rw [hprepared] at hnone
        cases hnone
      · rcases hu with ⟨hprepared', -⟩ | ⟨hnone, -⟩
        · obtain rfl := Option.some.inj (hprepared.symm.trans hm')
          obtain rfl := Option.some.inj (hprepared'.symm.trans hu')
          exact hnames
        · rw [hu'] at hnone
          cases hnone
    · obtain ⟨hregistered', hnames⟩ := registered_materialize hbundles hsuffixes hregistered hwrite
      refine ⟨hregistered', halike.mount ?_⟩
      rcases hu with ⟨hprepared', -⟩ | ⟨-, hprepare⟩
      · rcases halike.prepared id with ⟨-, hnone⟩ | ⟨m', -, hm', -⟩
        · rw [hprepared'] at hnone
          cases hnone
        · rw [hfresh] at hm'
          cases hm'
      · cases hprepare
        exact hnames m rfl

end

theorem Alike.route {b : Bindings MaterializedBundle} {b' : Bindings UnsupportedNativeExtensions}
    (h : Alike b b') (held : Str → Bool) (name : Str) : b.route held name = b'.route held name := by
  have hextensions : ∀ n, b.extensions.contains n = b'.extensions.contains n := by
    intro n
    rw [Bool.eq_iff_iff, Std.ExtTreeMap.contains_iff_mem, Std.ExtTreeMap.contains_iff_mem]
    exact h.extensions n
  unfold Bindings.route Bindings.isBound Bindings.contains
  rw [h.sources, hextensions, hextensions]

/-- A package with an extension for one version of the interpreter, and one for all. -/
def plugin : List Call :=
  [.package "plugin".toList "", .data "plugin/native.abi3.so".toList ⟨#[1]⟩,
    .data "plugin/_fast.cpython-312-darwin.so".toList ⟨#[2]⟩]

end GuestPy.Artifacts
