import GuestPy.Artifacts.Names
import GuestPy.Imports.Extensions
import GuestPy.Library.Disk
import GuestPy.Library.Writes

/-!
# Bundles on disk

CPython loads extensions from files, so it writes the whole bundle below a directory of its own. A
bundle is written once; later requests get the same `MaterializedBundle`.

* `validateRelative_eq_ok_iff` says which paths are written, and `place_onDisk` where to.
* `writeFile_spec` and `writeFiles_spec` say what a successful write has asked of the file system.
* `writeBundle_spec`: the tables of a bundle are those that `record` makes of its files.
-/

namespace GuestPy.Artifacts

open Bundles BundleBuilder CPythonNativeExtensions Results
open Extensions (NativeArtifact)

/-! ## Storage -/

inductive Request where
  | createDirAll (path : Str)
  | write (path : Str) (bytes : ByteArray)
  | removeDirAll (path : Str)

structure MaterializedBundle where
  root : Str
  modules : BTreeMap NativeArtifact
  incompatible : BTreeMap (List Str)

/-- The disk, what has been asked of it, and the registry of bundles by their numbers. -/
structure Storage where
  disk : Disk
  requests : List Request
  bundles : Nat → Option MaterializedBundle

/-- A file system may also refuse what could be done. What a failed request leaves is up to it. -/
structure FileSystem where
  cwd : Paths.Location
  refuses : Request → Disk → Bool
  failure : Request → Disk → String × Disk

namespace Request

def perform (cwd : Paths.Location) : Request → Disk → Option Disk
  | createDirAll path => Disk.createDirAll cwd path
  | write path bytes => Disk.write cwd path bytes
  | removeDirAll path => Disk.removeDirAll cwd path

end Request

section

variable (fs : FileSystem)

def ask (request : Request) : Host Storage Err Unit := fun s =>
  let requests := s.requests ++ [request]
  match if fs.refuses request s.disk then none else request.perform fs.cwd s.disk with
  | some disk => (.ok (), { s with disk, requests })
  | none =>
    let (message, disk) := fs.failure request s.disk
    (.err (.io message), { s with disk, requests })

/-! ## Writing -/

namespace CPythonNativeExtensions

def escapes (path : Str) : Err :=
  .unexpected s!"bundle path '{String.ofList path}' escapes its materialized root"

def validateRelative (path : Str) : Except Err Str :=
  (Paths.components path).foldlM (fun relative component =>
    match component with
    | .normal part => .ok (Paths.push relative part)
    | .curDir => .ok relative
    | _ => .error (escapes path)) []

/-- The tables that `write_bundle` fills. -/
structure Tables where
  modules : BTreeMap NativeArtifact := ∅
  incompatible : BTreeMap (List Str) := ∅

def record (suffixes : List Str) (relative path : Str) (contents : ByteArray) (t : Tables) :
    Tables :=
  match compatibleName relative suffixes with
  | some name =>
    { t with modules := t.modules.insert name ⟨String.ofList path, contents.data.toList⟩ }
  | none =>
    match incompatibleName relative with
    | some name =>
      { t with incompatible :=
          t.incompatible.insert name (t.incompatible[name]?.getD [] ++ [relative]) }
    | none => t

def writeFile (root : Str) (suffixes : List Str) (relative : Str) (contents : ByteArray)
    (t : Tables) : Host Storage Err Tables := do
  let path := Paths.push root (← Host.ofExcept (validateRelative relative))
  Host.forEach (Paths.parent path).toList fun dir => ask fs (.createDirAll dir)
  ask fs (.write path contents)
  pure (record suffixes relative path contents t)

def writeFiles (root : Str) (suffixes : List Str) :
    List (Str × ByteArray) → Tables → Host Storage Err Tables
  | [], t => pure t
  | (relative, contents) :: files, t => do
    writeFiles root suffixes files (← writeFile fs root suffixes relative contents t)

def writeBundle (root : Str) (bundle : Bundle) (suffixes : List Str) :
    Host Storage Err MaterializedBundle := do
  let t ← writeFiles fs root suffixes bundle.files.toList {}
  pure ⟨root, t.modules, t.incompatible⟩

def bundleDir (root : Str) (id : Nat) : Str := Paths.push root s!"bundle-{id}".toList

/-- `materialize`, of the bundle with a number. -/
def materialize (root : Str) (id : Nat) (bundle : Bundle) (suffixes : List Str) :
    Host Storage Err MaterializedBundle := do
  let s ← Host.get
  match s.bundles id with
  | some materialized => pure materialized
  | none =>
    match ← Host.attempt (writeBundle fs (bundleDir root id) bundle suffixes) with
    | .ok materialized => do
      Host.modify fun s => { s with bundles := Function.update s.bundles id (some materialized) }
      pure materialized
    | .error e => do
      let _ ← Host.attempt (ask fs (.removeDirAll (bundleDir root id)))
      Host.throw e

end CPythonNativeExtensions

end

/-- The names of the prepared extensions. -/
def MaterializedBundle.names (m : MaterializedBundle) : List Str :=
  m.modules.keys ++ m.incompatible.keys.filter (!m.modules.contains ·)

/-! ## Where files are written -/

/-- The names on the way to a file of a bundle. -/
def diskNames (path : Str) : List Str :=
  (path.splitOn '/').filter fun part => part ≠ [] ∧ part ≠ ['.']

/-- The path that is written, for a path that is accepted. -/
def onDisk (root path : Str) : Str := Paths.push root (Paths.join (diskNames path))

/-- What is recorded of a native extension. -/
def artifact (root path : Str) (contents : ByteArray) : NativeArtifact :=
  ⟨String.ofList (onDisk root path), contents.data.toList⟩

section

open Paths Component

/-- The name in a component, if it is one. -/
def nameOf : Component → Option Str
  | normal n => some n
  | _ => none

theorem validateRelative_fold {path : Str} {cs : List Component} {relative relative' : Str} :
    cs.foldlM (fun relative component =>
        match component with
        | .normal part => .ok (push relative part)
        | .curDir => .ok relative
        | _ => .error (escapes path)) relative =
          (.ok relative' : Except Err Str) ↔
      (∀ c ∈ cs, c ≠ rootDir ∧ c ≠ parentDir) ∧
        relative' = (cs.filterMap nameOf).foldl push relative := by
  induction cs generalizing relative with
  | nil => simp [pure_eq_ok, eq_comm]
  | cons c cs ih =>
    rw [List.foldlM_cons]
    cases c with
    | rootDir => simp
    | curDir => simp [ih, List.filterMap_cons, nameOf]
    | parentDir => simp
    | normal n => simp [ih, nameOf]

theorem filterMap_nameOf {parts : List Str} (h : parentDir ∉ parts.filterMap ofPart) :
    (parts.filterMap ofPart).filterMap nameOf =
      parts.filter fun part => part ≠ [] ∧ part ≠ ['.'] := by
  induction parts with
  | nil => rfl
  | cons part parts ih =>
    by_cases hempty : part = [] ∨ part = ['.']
    · have hnone : ofPart part = none := if_pos hempty
      rw [List.filterMap_cons_none hnone] at h ⊢
      rw [ih h, List.filter_cons_of_neg (by rcases hempty with rfl | rfl <;> simp)]
    · rw [not_or] at hempty
      by_cases hdots : part = ['.', '.']
      · subst hdots
        exact absurd (by simp [ofPart]) h
      · have hsome : ofPart part = some (normal part) := by simp [ofPart, hempty, hdots]
        rw [List.filterMap_cons_some hsome] at h ⊢
        rw [List.mem_cons, not_or] at h
        rw [List.filterMap_cons_some (f := nameOf) rfl, ih h.2,
          List.filter_cons_of_pos (by simp [hempty])]

/-- What is pushed are the parts of the path, without those that stand for nothing. -/
theorem validateRelative_eq_ok_iff {path relative : Str} :
    validateRelative path = .ok relative ↔
      (∀ c ∈ Paths.components path, c ≠ rootDir ∧ c ≠ parentDir) ∧
        relative = join (diskNames path) := by
  unfold validateRelative
  rw [validateRelative_fold]
  refine and_congr_right fun h => ?_
  have hparent : parentDir ∉ (path.splitOn '/').filterMap ofPart := fun hmem =>
    (h _ (List.mem_append_right _ hmem)).2 rfl
  have hstart : (start (path.splitOn '/')).filterMap nameOf = [] := by
    rcases start_cases (path.splitOn '/') with heq | heq | heq <;> rw [heq] <;> rfl
  rw [Paths.components, List.filterMap_append, hstart, List.nil_append, filterMap_nameOf hparent]
  rfl

/-- What is pushed are names. -/
theorem isName_diskNames {path : Str}
    (h : ∀ c ∈ Paths.components path, c ≠ rootDir ∧ c ≠ parentDir) :
    ∀ n ∈ diskNames path, IsName n := by
  intro n hn
  obtain ⟨hmem, hne⟩ := List.mem_filter.mp hn
  rw [decide_eq_true_eq] at hne
  refine isName_iff.mpr ⟨not_mem_of_mem_splitOn hmem, hne.1, hne.2, ?_⟩
  rintro rfl
  exact (h parentDir (List.mem_append_right _ (List.mem_filterMap.mpr ⟨_, hmem, rfl⟩))).2 rfl

theorem place_onDisk (cwd : Location) (root : Str) {path : Str}
    (h : ∀ n ∈ diskNames path, IsName n) :
    Disk.place cwd (onDisk root path) = Disk.place cwd root ++ diskNames path := by
  unfold Disk.place onDisk
  rw [components_push_join root h, locate_append, locate_names]

/-- What is recorded tells the names on the way and the bytes. -/
theorem artifact_inj {root path path' : Str} {bytes bytes' : ByteArray}
    (h : ∀ n ∈ diskNames path, IsName n) (h' : ∀ n ∈ diskNames path', IsName n) :
    artifact root path bytes = artifact root path' bytes' ↔
      diskNames path = diskNames path' ∧ bytes = bytes' := by
  constructor
  · intro heq
    obtain ⟨hpath, hbytes⟩ := NativeArtifact.mk.inj heq
    have hplace := place_onDisk [] root h
    rw [String.ofList_injective hpath, place_onDisk [] root h'] at hplace
    exact ⟨(List.append_cancel_left hplace).symm, ByteArray.ext (Array.toList_inj.mp hbytes)⟩
  · rintro ⟨hnames, rfl⟩
    rw [artifact, artifact, onDisk, onDisk, hnames]

end

/-! ## What a file asks of the file system -/

section

variable {fs : FileSystem} {root : Str} {suffixes : List Str} {s s' : Storage}

theorem ask_ok {request : Request} {u : Unit} (h : ask fs request s = (.ok u, s')) :
    ∃ disk, request.perform fs.cwd s.disk = some disk ∧
      s' = { s with disk, requests := s.requests ++ [request] } := by
  unfold ask at h
  dsimp only at h
  split at h
  · rename_i disk hperform
    cases h
    split at hperform
    · cases hperform
    · exact ⟨disk, hperform, rfl⟩
  · cases h

/-- A file has been written below the root. -/
structure Wrote (fs : FileSystem) (root relative : Str) (contents : ByteArray) (s s' : Storage) :
    Prop where
  named : diskNames relative ≠ []
  names : ∀ n ∈ diskNames relative, Paths.IsName n
  steps : ∃ dir disk, Paths.parent (onDisk root relative) = some dir ∧
    s.disk.createDirAll fs.cwd dir = some disk ∧
      disk.write fs.cwd (onDisk root relative) contents = some s'.disk ∧
        s'.requests = s.requests ++ [.createDirAll dir, .write (onDisk root relative) contents]
  bundles : s'.bundles = s.bundles

/-- **A file that has been written is below the root, and is recorded.** -/
theorem writeFile_spec {relative : Str} {contents : ByteArray} {t t' : Tables}
    (h : writeFile fs root suffixes relative contents t s = (.ok t', s')) :
    Wrote fs root relative contents s s' ∧
      t' = record suffixes relative (onDisk root relative) contents t := by
  obtain ⟨relative', s₀, hvalidate, h⟩ := Host.bind_eq_ok.mp h
  obtain ⟨hvalid, rfl⟩ : validateRelative relative = .ok relative' ∧ s₀ = s := by
    cases hr : validateRelative relative with
    | error e =>
      rw [hr] at hvalidate
      cases hvalidate
    | ok r =>
      rw [hr] at hvalidate
      cases hvalidate
      exact ⟨rfl, rfl⟩
  obtain ⟨hcomponents, rfl⟩ := validateRelative_eq_ok_iff.mp hvalid
  have hnames := isName_diskNames hcomponents
  obtain ⟨_, s₁, hdirs, h⟩ := Host.bind_eq_ok.mp h
  obtain ⟨_, s₂, hwrite, h⟩ := Host.bind_eq_ok.mp h
  cases h
  obtain ⟨disk', hperform, rfl⟩ := ask_ok hwrite
  have hleads := (Disk.write_spec hperform).1
  -- only a path that ends in a name can be written, and that has a parent
  have hne : diskNames relative ≠ [] := by
    rw [Disk.leads, Bool.and_eq_true] at hleads
    exact (Paths.endsInName_push_join root hnames).mp hleads.1
  obtain ⟨dir, hparent, -⟩ := Paths.parent_push_join root hnames hne
  rw [hparent, Option.toList_some, Host.forEach_eq_ok] at hdirs
  cases hdirs with
  | cons hdir hrest =>
    cases hrest
    obtain ⟨disk, hcreate, rfl⟩ := ask_ok hdir
    refine ⟨⟨hne, hnames, ⟨dir, disk, hparent, hcreate, hperform, ?_⟩, rfl⟩, rfl⟩
    exact List.append_assoc _ _ _

/-- All files have been written, one after another. -/
inductive WroteAll (fs : FileSystem) (root : Str) :
    List (Str × ByteArray) → Storage → Storage → Prop
  | nil (s : Storage) : WroteAll fs root [] s s
  | cons {relative : Str} {contents : ByteArray} {files : List (Str × ByteArray)}
      {s s₁ s' : Storage} :
    Wrote fs root relative contents s s₁ → WroteAll fs root files s₁ s' →
      WroteAll fs root ((relative, contents) :: files) s s'

theorem WroteAll.names {files : List (Str × ByteArray)} (h : WroteAll fs root files s s') :
    ∀ file ∈ files, ∀ n ∈ diskNames file.1, Paths.IsName n := by
  induction h with
  | nil s => exact nofun
  | cons hfile _ ih =>
    intro file hmem
    rcases List.mem_cons.mp hmem with rfl | hmem
    · exact hfile.names
    · exact ih file hmem

theorem mem_toList_files {bundle : Bundle} {path : Str} {bytes : ByteArray} :
    (path, bytes) ∈ bundle.files.toList ↔ bundle.files[path]? = some bytes :=
  Std.ExtTreeMap.mem_toList_iff_getElem?_eq_some

/-- What is recorded of files. -/
def recordAll (suffixes : List Str) (root : Str) (files : List (Str × ByteArray))
    (t : Tables) : Tables :=
  files.foldl (fun t file => record suffixes file.1 (onDisk root file.1) file.2 t) t

theorem writeFiles_spec {files : List (Str × ByteArray)} {t t' : Tables}
    (h : writeFiles fs root suffixes files t s = (.ok t', s')) :
    WroteAll fs root files s s' ∧ t' = recordAll suffixes root files t := by
  induction files generalizing t s with
  | nil =>
    cases h
    exact ⟨.nil _, rfl⟩
  | cons file files ih =>
    obtain ⟨t₁, s₁, hfile, hrest⟩ := Host.bind_eq_ok.mp h
    obtain ⟨hwrote, rfl⟩ := writeFile_spec hfile
    obtain ⟨hall, rfl⟩ := ih hrest
    exact ⟨.cons hwrote hall, rfl⟩

/-- A bundle that has been written has the tables of its files. -/
theorem writeBundle_spec {bundle : Bundle} {m : MaterializedBundle}
    (h : writeBundle fs root bundle suffixes s = (.ok m, s')) :
    WroteAll fs root bundle.files.toList s s' ∧
      m = ⟨root, (recordAll suffixes root bundle.files.toList {}).modules,
        (recordAll suffixes root bundle.files.toList {}).incompatible⟩ := by
  obtain ⟨t, s₁, hfiles, h⟩ := Host.bind_eq_ok.mp h
  cases h
  obtain ⟨hall, rfl⟩ := writeFiles_spec hfiles
  exact ⟨hall, rfl⟩

end

/-! ## What is recorded -/

section

variable {root : Str} {suffixes : List Str}

def moduleWrite (suffixes : List Str) (root : Str) (file : Str × ByteArray) :
    Option (Str × NativeArtifact) :=
  (compatibleName file.1 suffixes).map fun name => (name, artifact root file.1 file.2)

/-- The files that are only recorded by their names. -/
def incompatibleFiles (suffixes : List Str) (files : List (Str × ByteArray)) (name : Str) :
    List Str :=
  (files.map Prod.fst).filter fun path =>
    compatibleName path suffixes = none ∧ incompatibleName path = some name

theorem modules_record (relative : Str) (contents : ByteArray) (t : Tables) (name : Str) :
    (record suffixes relative (onDisk root relative) contents t).modules[name]? =
      if compatibleName relative suffixes = some name then some (artifact root relative contents)
      else t.modules[name]? := by
  unfold record
  cases compatibleName relative suffixes with
  | none => cases incompatibleName relative <;> simp
  | some name' =>
    rw [Std.ExtTreeMap.getElem?_insert]
    simp only [Std.LawfulEqCmp.compare_eq_iff_eq, Option.some.injEq]
    rfl

theorem incompatible_record (relative path : Str) (contents : ByteArray) (t : Tables)
    (name : Str) :
    (record suffixes relative path contents t).incompatible[name]? =
      if compatibleName relative suffixes = none ∧ incompatibleName relative = some name then
        some (t.incompatible[name]?.getD [] ++ [relative])
      else t.incompatible[name]? := by
  unfold record
  cases compatibleName relative suffixes with
  | some name' => simp
  | none =>
    cases incompatibleName relative with
    | none => simp
    | some name' =>
      rw [Std.ExtTreeMap.getElem?_insert]
      simp only [Std.LawfulEqCmp.compare_eq_iff_eq, Option.some.injEq, true_and]
      split
      · rename_i hname
        rw [hname]
      · rfl

/-- **The last file of a name in the order of paths is selected.** -/
theorem modules_recordAll (files : List (Str × ByteArray)) (t : Tables) (name : Str) :
    (recordAll suffixes root files t).modules[name]? =
      (lastWrite (files.filterMap (moduleWrite suffixes root)) name).or t.modules[name]? := by
  induction files generalizing t with
  | nil => rfl
  | cons file files ih =>
    have hrest := ih (record suffixes file.1 (onDisk root file.1) file.2 t)
    change (recordAll suffixes root files _).modules[name]? = _
    rw [hrest, modules_record]
    cases hnamed : compatibleName file.1 suffixes with
    | none =>
      have hwrite : moduleWrite suffixes root file = none := by rw [moduleWrite, hnamed]; rfl
      rw [List.filterMap_cons_none hwrite, if_neg nofun]
    | some name' =>
      have hwrite : moduleWrite suffixes root file = some (name', artifact root file.1 file.2) := by
        rw [moduleWrite, hnamed]
        rfl
      rw [List.filterMap_cons_some hwrite, lastWrite, Option.or_assoc]
      by_cases hname : name' = name
      · simp [hname]
      · simp [hname]

theorem incompatible_recordAll (files : List (Str × ByteArray)) (t : Tables) (name : Str) :
    (recordAll suffixes root files t).incompatible[name]? =
      if incompatibleFiles suffixes files name = [] then t.incompatible[name]?
      else some (t.incompatible[name]?.getD [] ++ incompatibleFiles suffixes files name) := by
  induction files generalizing t with
  | nil => rfl
  | cons file files ih =>
    have hrest := ih (record suffixes file.1 (onDisk root file.1) file.2 t)
    change (recordAll suffixes root files _).incompatible[name]? = _
    rw [hrest, incompatible_record]
    by_cases hfile : compatibleName file.1 suffixes = none ∧ incompatibleName file.1 = some name
    · have hcons : incompatibleFiles suffixes (file :: files) name =
          file.1 :: incompatibleFiles suffixes files name := by
        simp [incompatibleFiles, hfile]
      rw [hcons, if_pos hfile, if_neg (List.cons_ne_nil _ _), Option.getD_some,
        List.append_assoc, List.singleton_append]
      split
      · rename_i hnil
        rw [hnil]
      · rfl
    · have hcons : incompatibleFiles suffixes (file :: files) name =
          incompatibleFiles suffixes files name := by
        simp [incompatibleFiles, hfile]
      rw [hcons, if_neg hfile]

theorem mem_modules_recordAll {files : List (Str × ByteArray)} {name : Str} :
    name ∈ (recordAll suffixes root files {}).modules ↔
      ∃ file ∈ files, compatibleName file.1 suffixes = some name := by
  rw [Std.ExtTreeMap.mem_iff_isSome_getElem?, modules_recordAll, Std.ExtTreeMap.getElem?_empty,
    Option.or_none, Option.isSome_iff_ne_none, ne_eq, lastWrite_eq_none_iff]
  simp [moduleWrite]

theorem mem_incompatible_recordAll {files : List (Str × ByteArray)} {name : Str} :
    name ∈ (recordAll suffixes root files {}).incompatible ↔
      ∃ file ∈ files, compatibleName file.1 suffixes = none ∧
        incompatibleName file.1 = some name := by
  rw [Std.ExtTreeMap.mem_iff_isSome_getElem?, incompatible_recordAll,
    Std.ExtTreeMap.getElem?_empty]
  split
  · rename_i hnil
    simpa [incompatibleFiles] using hnil
  · rename_i hne
    simpa [incompatibleFiles] using hne

/-- **The names are those that files of the bundle map to.** -/
theorem mem_names_iff {fs : FileSystem} {s s' : Storage} {bundle : Bundle} {m : MaterializedBundle}
    (h : writeBundle fs root bundle suffixes s = (.ok m, s')) {name : Str} :
    name ∈ m.names ↔ ∃ path ∈ bundle.files, logicalName suffixes path = some name := by
  obtain ⟨-, rfl⟩ := writeBundle_spec h
  have hfiles : (∃ path ∈ bundle.files, logicalName suffixes path = some name) ↔
      ∃ file ∈ bundle.files.toList, logicalName suffixes file.1 = some name := by
    simp only [← Std.ExtTreeMap.mem_keys, ← Std.ExtTreeMap.map_fst_toList_eq_keys, List.mem_map]
    constructor
    · rintro ⟨_, ⟨file, hfile, rfl⟩, hname⟩
      exact ⟨file, hfile, hname⟩
    · rintro ⟨file, hfile, hname⟩
      exact ⟨_, ⟨file, hfile, rfl⟩, hname⟩
  rw [hfiles]
  unfold MaterializedBundle.names
  simp only [List.mem_append, List.mem_filter, Std.ExtTreeMap.mem_keys, Bool.not_eq_true',
    ← Bool.not_eq_true, Std.ExtTreeMap.contains_iff_mem, mem_modules_recordAll,
    mem_incompatible_recordAll, logicalName, Option.or_eq_some_iff]
  constructor
  · rintro (⟨file, hfile, hname⟩ | ⟨⟨file, hfile, hname⟩, -⟩)
    · exact ⟨file, hfile, Or.inl hname⟩
    · exact ⟨file, hfile, Or.inr hname⟩
  · rintro ⟨file, hfile, hname | hname⟩
    · exact Or.inl ⟨file, hfile, hname⟩
    · by_cases hmodule : ∃ file ∈ bundle.files.toList, compatibleName file.1 suffixes = some name
      · exact Or.inl hmodule
      · exact Or.inr ⟨⟨file, hfile, hname⟩, hmodule⟩

theorem nodup_names (m : MaterializedBundle) : m.names.Nodup := by
  refine List.nodup_append.mpr ⟨Std.ExtTreeMap.nodup_keys, Std.ExtTreeMap.nodup_keys.filter _, ?_⟩
  rintro name hmodule _ hother rfl
  have hnot := (List.mem_filter.mp hother).2
  rw [Bool.not_eq_true', ← Bool.not_eq_true, Std.ExtTreeMap.contains_iff_mem] at hnot
  exact hnot (Std.ExtTreeMap.mem_keys.mp hmodule)

end

/-! ## Bundles that are written -/

/-- A bundle that a builder makes. -/
def Accepted (bundle : Bundle) : Prop := ∃ calls, (run calls).build = .ok bundle

/-- What a builder makes of files is made of the calls for them. -/
theorem accepted_of_bundleOf {es : List FileEntry} {bundle : Bundle}
    (h : bundleOf es = .ok bundle) : Accepted bundle := ⟨_, (bundleOf_eq_ok.mp h).2⟩

/-! ## A file system without faults -/

/-- It refuses nothing that can be done. -/
def faultless : FileSystem where
  cwd := []
  refuses _ _ := false
  failure _ disk := ("the operation failed", disk)

def blank : Storage := ⟨Disk.empty, [], fun _ => none⟩

def tmp : Str := "/tmp".toList

/-- What a builder holds after calls, as a bundle. -/
def bundleOfCalls (calls : List Call) : Bundle :=
  let b := run calls
  ⟨BundleBuilder.root b.modules, b.modules, b.data, b.files⟩

/-- What an interpreter reports on Linux. -/
def linuxSuffixes : List Str :=
  [".cpython-312-x86_64-linux-gnu.so".toList, ".abi3.so".toList, ".so".toList]

def isOk {σ α : Type} (m : Host σ Err α) (s : σ) : Bool :=
  match (m s).1 with
  | .ok _ => true
  | _ => false

theorem exists_of_isOk {σ α : Type} {m : Host σ Err α} {s : σ} (h : isOk m s = true) :
    ∃ a s', m s = (.ok a, s') := by
  unfold isOk at h
  rcases hrun : m s with ⟨o, s'⟩
  rw [hrun] at h
  cases o with
  | ok a => exact ⟨a, s', rfl⟩
  | err e => cases h
  | panic => cases h
  | stuck => cases h

end GuestPy.Artifacts
