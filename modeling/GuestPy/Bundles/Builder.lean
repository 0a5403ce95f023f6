import GuestPy.Imports.Name
import GuestPy.Library.Writes

/-!
# Bundle builders

`BundleBuilder`: its three maps, to which calls and the files of a directory add one entry after
another, and `build`, which looks at the parents of each module and for a single root.

* `run_maps` says what the maps hold after calls that are all valid: what the last call for each
  key wrote.
* `build_eq_ok` says when a bundle is built.
-/

namespace GuestPy.Bundles

open DottedName

/-- Errors of a builder, which no guest is involved in. -/
abbrev Err := Error Empty

/-- `BTreeMap` with texts as keys. -/
abbrev BTreeMap (α : Type) := Std.ExtTreeMap Str α compare

/-- A path that ends a file of Python source. -/
def pySuffix : Str := ".py".toList

/-- The name of the file that makes a directory a package. -/
def initName : Str := "__init__".toList

/-- A module of a bundle, with the path of its file. -/
structure BundleModule where
  source : String
  origin : Str
  package : Bool
  deriving DecidableEq

/-- What is in a bundle. Its number is left out. -/
structure Bundle where
  root : Option Str
  modules : BTreeMap BundleModule
  data : BTreeMap ByteArray
  files : BTreeMap ByteArray

/-- What has been added, and the first error. -/
structure BundleBuilder where
  modules : BTreeMap BundleModule := ∅
  data : BTreeMap ByteArray := ∅
  files : BTreeMap ByteArray := ∅
  error : Option Err := none

namespace BundleBuilder

/-! ## Names -/

/-- Is it a name that a module may have? -/
def isIdentifier (name : Str) : Bool :=
  match name with
  | [] => false
  | c :: cs => (c = '_' || c.isAlpha) && cs.all fun c => c = '_' || c.isAlphanum

/-- The error of a dotted name with a part that is none. -/
def invalidName (path component : Str) : Err :=
  .bundle (String.ofList path) s!"'{String.ofList component}' is not a valid Python module name"

/-- Checks every part of a dotted name. -/
def validateDotted (dotted : Str) : Except Err Unit :=
  if dotted = [] then .error (.bundle (String.ofList dotted) "module name is empty")
  else
    match (dotted.splitOn '.').find? (!isIdentifier ·) with
    | some component => .error (invalidName dotted component)
    | none => .ok ()

/-- `str::replace` of a character. -/
def replace (old new : Char) (s : Str) : Str := s.map fun c => if c = old then new else c

/-- The path of the file of a module. -/
def origin (dotted : Str) (package : Bool) : Str :=
  let path := replace '.' '/' dotted
  if package then path ++ '/' :: (initName ++ pySuffix) else path ++ pySuffix

/-- A path with slashes only. -/
def normalize (path : Str) : Str := replace '\\' '/' path

/-! ## Adding entries -/

/-- Adds a module, unless there has been an error. -/
def insertModule (dotted : Str) (source : String) (package : Bool) (b : BundleBuilder) :
    BundleBuilder :=
  match b.error with
  | some _ => b
  | none =>
    match validateDotted dotted with
    | .error e => { b with error := some e }
    | .ok () =>
      { b with
        files := b.files.insert (origin dotted package) source.toUTF8
        modules := b.modules.insert dotted ⟨source, origin dotted package, package⟩ }

/-- Adds a file of data. It is added after an error, too. -/
def insertData (path : Str) (bytes : ByteArray) (b : BundleBuilder) : BundleBuilder :=
  { b with
    data := b.data.insert (normalize path) bytes
    files := b.files.insert (normalize path) bytes }

/-! ## Building -/

/-- The error of a module with a parent that is no package of the bundle. -/
def noParent (dotted : Str) : Err :=
  .bundle (String.ofList dotted) s!"{String.ofList dotted} has no parent package"

/-- What is before the last dot, and so on (`parents_eq`). -/
def parents (dotted : Str) : List Str := (befores dotted).reverse

/-- Is it a package of the bundle? -/
def isPackage (modules : BTreeMap BundleModule) (name : Str) : Bool :=
  match modules[name]? with
  | some m => m.package
  | none => false

/-- The names of the top level. -/
def roots (modules : BTreeMap BundleModule) : List Str :=
  modules.keys.filter fun name => !name.contains '.'

/-- The only name of the top level, if there is one. -/
def root (modules : BTreeMap BundleModule) : Option Str :=
  match roots modules with
  | [name] => some name
  | _ => none

/-- The bundle, if all calls were valid and every module has its parents. -/
def build (b : BundleBuilder) : Except Err Bundle :=
  match b.error with
  | some e => .error e
  | none =>
    match b.modules.keys.find? fun dotted => !(parents dotted).all (isPackage b.modules) with
    | some dotted => .error (noParent dotted)
    | none => .ok ⟨root b.modules, b.modules, b.data, b.files⟩

end BundleBuilder

/-! ## Calls -/

/-- What a program, or the scan of a directory, does with the builder. -/
inductive Call where
  | module (dotted : Str) (source : String)
  | package (dotted : Str) (source : String)
  | data (path : Str) (bytes : ByteArray)

namespace Call

open BundleBuilder

/-- The builder after a call. -/
def apply : Call → BundleBuilder → BundleBuilder
  | .module dotted source => insertModule dotted source false
  | .package dotted source => insertModule dotted source true
  | .data path bytes => insertData path bytes

/-- The error of an invalid call. -/
def invalid : Call → Option Err
  | .module dotted _ | .package dotted _ =>
    match validateDotted dotted with
    | .error e => some e
    | .ok () => none
  | .data _ _ => none

/-- The entry that a call writes to the modules. -/
def moduleWrite : Call → Option (Str × BundleModule)
  | .module dotted source => some (dotted, ⟨source, origin dotted false, false⟩)
  | .package dotted source => some (dotted, ⟨source, origin dotted true, true⟩)
  | .data _ _ => none

/-- The entry that a call writes to the data. -/
def dataWrite : Call → Option (Str × ByteArray)
  | .data path bytes => some (normalize path, bytes)
  | _ => none

/-- The file that a call writes. -/
def path : Call → Str
  | .module dotted _ => origin dotted false
  | .package dotted _ => origin dotted true
  | .data path _ => normalize path

/-- What a call writes to its file. -/
def bytes : Call → ByteArray
  | .module _ source => source.toUTF8
  | .package _ source => source.toUTF8
  | .data _ bytes => bytes

end Call

/-- The builder after calls, from an empty one. -/
def run (calls : List Call) : BundleBuilder := calls.foldl (fun b c => c.apply b) {}

/-! ## What a run leaves -/

namespace BundleBuilder

/-- The loop over the parents. -/
theorem parents_eq (dotted : Str) :
    parents dotted =
      match parent dotted with
      | some (before, _) => before :: parents before
      | none => [] := by
  have hbefores : ∀ name : Str, befores name =
      match rsplitOnce '.' name with
      | some (before, _) => befores before ++ [before]
      | none => [] := by
    intro name
    induction name with
    | nil => rfl
    | cons x xs ih =>
      simp only [befores, rsplitOnce, ih]
      cases rsplitOnce '.' xs with
      | none =>
        by_cases hx : x = '.'
        · simp [hx, befores]
        · simp [hx]
      | some split =>
        by_cases hx : x = '.'
        · simp [hx, befores]
        · simp [hx, befores]
  unfold parents parent
  rw [hbefores]
  cases rsplitOnce '.' dotted with
  | none => rfl
  | some split => simp

end BundleBuilder

section Run

open BundleBuilder

theorem Call.apply_of_error (c : Call) {b : BundleBuilder} {e : Err} (h : b.error = some e) :
    (c.apply b).error = some e := by
  cases c <;> simp [Call.apply, insertModule, insertData, h]

theorem Call.apply_of_invalid {c : Call} {b : BundleBuilder} {e : Err} (hb : b.error = none)
    (h : c.invalid = some e) : (c.apply b).error = some e := by
  cases c with
  | data path bytes => cases h
  | module dotted source =>
    simp only [Call.invalid] at h
    split at h
    · rename_i hdotted
      cases h
      simp [Call.apply, insertModule, hb, hdotted]
    · cases h
  | package dotted source =>
    simp only [Call.invalid] at h
    split at h
    · rename_i hdotted
      cases h
      simp [Call.apply, insertModule, hb, hdotted]
    · cases h

/-- What a valid call writes. -/
theorem Call.apply_of_valid {c : Call} {b : BundleBuilder} (hb : b.error = none)
    (h : c.invalid = none) :
    c.apply b =
      { modules := c.moduleWrite.toList.foldl (fun m w => m.insert w.1 w.2) b.modules
        data := c.dataWrite.toList.foldl (fun m w => m.insert w.1 w.2) b.data
        files := b.files.insert c.path c.bytes
        error := none } := by
  cases c with
  | data path bytes =>
    simp [Call.apply, insertData, moduleWrite, dataWrite, Call.path, Call.bytes, hb]
  | module dotted source =>
    simp only [Call.invalid] at h
    split at h
    · cases h
    · rename_i hdotted
      simp [Call.apply, insertModule, moduleWrite, dataWrite, Call.path, Call.bytes, hb, hdotted]
  | package dotted source =>
    simp only [Call.invalid] at h
    split at h
    · cases h
    · rename_i hdotted
      simp [Call.apply, insertModule, moduleWrite, dataWrite, Call.path, Call.bytes, hb, hdotted]

theorem foldl_apply_of_error (calls : List Call) {b : BundleBuilder} {e : Err}
    (h : b.error = some e) : (calls.foldl (fun b c => c.apply b) b).error = some e := by
  induction calls generalizing b with
  | nil => exact h
  | cons c calls ih => exact ih (c.apply_of_error h)

theorem foldl_apply_of_valid (calls : List Call) {b : BundleBuilder} (hb : b.error = none)
    (h : ∀ c ∈ calls, c.invalid = none) :
    calls.foldl (fun b c => c.apply b) b =
      { modules := (calls.filterMap Call.moduleWrite).foldl (fun m w => m.insert w.1 w.2) b.modules
        data := (calls.filterMap Call.dataWrite).foldl (fun m w => m.insert w.1 w.2) b.data
        files := (calls.map fun c => (c.path, c.bytes)).foldl (fun m w => m.insert w.1 w.2) b.files
        error := none } := by
  induction calls generalizing b with
  | nil =>
    cases b
    simpa using hb
  | cons c calls ih =>
    have happly := Call.apply_of_valid hb (h c List.mem_cons_self)
    have hrest := ih (b := c.apply b) (by rw [happly]) fun c' hc' =>
      h c' (List.mem_cons_of_mem _ hc')
    rw [List.foldl_cons, hrest, happly]
    simp only [List.map_cons, List.foldl_cons, BundleBuilder.mk.injEq, and_true]
    constructor
    · cases hw : c.moduleWrite <;> simp [hw]
    · cases hw : c.dataWrite <;> simp [hw]

/-- The first invalid call leaves its error. -/
theorem run_of_invalid {before after : List Call} {c : Call} {e : Err}
    (hbefore : ∀ c' ∈ before, c'.invalid = none) (h : c.invalid = some e) :
    (run (before ++ c :: after)).error = some e := by
  unfold run
  rw [List.foldl_append, List.foldl_cons]
  refine foldl_apply_of_error _ (Call.apply_of_invalid ?_ h)
  rw [foldl_apply_of_valid before rfl hbefore]

theorem valid_of_run {calls : List Call} (h : (run calls).error = none) :
    ∀ c ∈ calls, c.invalid = none := by
  by_contra hinvalid
  have hfind : (calls.find? fun c => c.invalid.isSome).isSome := by
    simp only [List.find?_isSome]
    simp only [not_forall] at hinvalid
    obtain ⟨c, hc, hne⟩ := hinvalid
    exact ⟨c, hc, Option.isSome_iff_ne_none.mpr hne⟩
  obtain ⟨c, hc⟩ := Option.isSome_iff_exists.mp hfind
  obtain ⟨hsome, before, after, rfl, hbefore⟩ := List.find?_eq_some_iff_append.mp hc
  obtain ⟨e, he⟩ := Option.isSome_iff_exists.mp hsome
  have hrun : (run (before ++ c :: after)).error = some e :=
    run_of_invalid (fun c' hc' => by simpa using hbefore c' hc') he
  rw [h] at hrun
  cases hrun

/-- What the maps hold after valid calls. -/
theorem run_maps {calls : List Call} (h : ∀ c ∈ calls, c.invalid = none) :
    (run calls).error = none ∧
      (∀ name, (run calls).modules[name]? = lastWrite (calls.filterMap Call.moduleWrite) name) ∧
      (∀ path, (run calls).data[path]? = lastWrite (calls.filterMap Call.dataWrite) path) ∧
      ∀ path, (run calls).files[path]? = lastWrite (calls.map fun c => (c.path, c.bytes)) path := by
  have hrun := foldl_apply_of_valid calls (b := {}) rfl h
  unfold run
  rw [hrun]
  refine ⟨rfl, fun name => ?_, fun path => ?_, fun path => ?_⟩
  · rw [getElem?_foldl_insert, Std.ExtTreeMap.getElem?_empty, Option.or_none]
  · rw [getElem?_foldl_insert, Std.ExtTreeMap.getElem?_empty, Option.or_none]
  · rw [getElem?_foldl_insert, Std.ExtTreeMap.getElem?_empty, Option.or_none]

end Run

/-! ## What is built -/

namespace BundleBuilder

theorem isPackage_iff {modules : BTreeMap BundleModule} {name : Str} :
    isPackage modules name = true ↔ ∃ m, modules[name]? = some m ∧ m.package = true := by
  unfold isPackage
  cases modules[name]? <;> simp

theorem mem_roots_iff {modules : BTreeMap BundleModule} {name : Str} :
    name ∈ roots modules ↔ name ∈ modules ∧ '.' ∉ name := by
  simp [roots, Std.ExtTreeMap.mem_keys]

/-- The only name of the top level, if it is the only one. -/
theorem root_eq_some_iff {modules : BTreeMap BundleModule} {name : Str} :
    root modules = some name ↔
      (name ∈ modules ∧ '.' ∉ name) ∧ ∀ other ∈ modules, '.' ∉ other → other = name := by
  have hnodup : (roots modules).Nodup := Std.ExtTreeMap.nodup_keys.filter _
  have hroot : root modules = some name ↔ roots modules = [name] := by
    unfold root
    split
    · rename_i heq
      rw [heq]
      simp
    · rename_i hne
      constructor
      · intro h
        cases h
      · intro h
        exact absurd h (hne name)
  rw [hroot, ← mem_roots_iff]
  constructor
  · intro h
    refine ⟨by simp [h], fun other hother hdot => ?_⟩
    have hmem := mem_roots_iff.mpr ⟨hother, hdot⟩
    simpa [h] using hmem
  · rintro ⟨hmem, honly⟩
    have hall : ∀ other ∈ roots modules, other = name := by
      intro other hother
      obtain ⟨hin, hdot⟩ := mem_roots_iff.mp hother
      exact honly other hin hdot
    cases hroots : roots modules with
    | nil => simp [hroots] at hmem
    | cons x xs =>
      rw [hroots] at hnodup hall
      obtain rfl := hall x List.mem_cons_self
      cases xs with
      | nil => rfl
      | cons y ys =>
        obtain rfl := hall y (by simp)
        simp at hnodup

theorem build_eq_ok {b : BundleBuilder} {bundle : Bundle} :
    b.build = .ok bundle ↔
      b.error = none ∧
        (∀ name ∈ b.modules, ∀ p ∈ befores name, isPackage b.modules p = true) ∧
          bundle = ⟨root b.modules, b.modules, b.data, b.files⟩ := by
  unfold build
  cases b.error with
  | some e => simp
  | none =>
    have hfind : (b.modules.keys.find? fun name =>
        !(parents name).all (isPackage b.modules)) = none ↔
          ∀ name ∈ b.modules, ∀ p ∈ befores name, isPackage b.modules p = true := by
      simp [List.find?_eq_none, Std.ExtTreeMap.mem_keys, parents]
    cases hkeys : b.modules.keys.find? fun name => !(parents name).all (isPackage b.modules) with
    | some name =>
      have hnot := mt hfind.mpr (by rw [hkeys]; exact nofun)
      simp only [reduceCtorEq, hnot, false_and, and_false]
    | none =>
      have hall := hfind.mp hkeys
      simp only [Except.ok.injEq, true_and]
      exact ⟨fun h => ⟨hall, h.symm⟩, fun h => h.2.symm⟩

end BundleBuilder

end GuestPy.Bundles
