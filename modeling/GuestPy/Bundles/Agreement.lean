import GuestPy.Bundles.Trees

/-!
# Directories and embedded directories

When `from_dir` and `from_embedded` make the same bundle of a tree, in whatever order its entries
are listed.

* Files that `Clash` are about the same module or data entry and differ. Without such files the
  order does not matter (`bundleOf_perm`), and with them it does, since any file can be listed
  last (`says_of_last`).
* A directory named like the file of a package makes only `from_dir` put the name of the tree before
  all paths (`no_files_of_initDir`, `fails_below_initDir`).
* `agree_iff` puts the two together.
-/

namespace GuestPy.Bundles

open DottedName BundleBuilder Results

/-! ## The order of files -/

/-- Two files about the same module or data entry, with another path or other contents. -/
def Clash (e e' : FileEntry) : Prop :=
  ∃ c c', entryCall e = some c ∧ entryCall e' = some c' ∧ c.subject = c'.subject ∧
    (c.path ≠ c'.path ∨ c.bytes ≠ c'.bytes)

/-- In this order a bundle can be built: each file can be added, and the last file for a parent of a
module is a package. -/
def Builds (es : List FileEntry) : Prop :=
  (∀ e ∈ es, entryCall e ≠ none) ∧
    ∀ c ∈ es.filterMap entryCall, ∀ name, c.subject = .module name → ∀ p ∈ befores name,
      ∃ source, InForce (es.filterMap entryCall) (.package p source)

section Calls

variable {es : List FileEntry}

theorem valid_calls (es : List FileEntry) : ∀ c ∈ es.filterMap entryCall, c.invalid = none := by
  intro c hc
  obtain ⟨e, -, he⟩ := List.mem_filterMap.mp hc
  exact (entryCall_spec he).1

theorem mem_modules_iff {calls : List Call} (h : ∀ c ∈ calls, c.invalid = none) {name : Str} :
    name ∈ (run calls).modules ↔ ∃ c ∈ calls, c.subject = .module name := by
  rw [Std.ExtTreeMap.mem_iff_isSome_getElem?, (run_maps h).2.1, Option.isSome_iff_ne_none, ne_eq,
    lastWrite_eq_none_iff]
  simp only [List.mem_filterMap, not_forall, not_not, exists_prop]
  constructor
  · rintro ⟨⟨name', m⟩, ⟨c, hc, hw⟩, rfl⟩
    exact ⟨c, hc, (Call.of_moduleWrite hw).1⟩
  · rintro ⟨c, hc, hsubject⟩
    obtain ⟨m, hw⟩ := Call.moduleWrite_of_subject hsubject
    exact ⟨(name, m), ⟨c, hc, hw⟩, rfl⟩

theorem isPackage_iff_inForce {calls : List Call} (h : ∀ c ∈ calls, c.invalid = none) {p : Str} :
    isPackage (run calls).modules p = true ↔ ∃ source, InForce calls (.package p source) := by
  rw [isPackage_iff]
  constructor
  · rintro ⟨m, hm, hpackage⟩
    obtain ⟨c, hforce, hw⟩ := (module_iff h).mp hm
    cases c with
    | module dotted source =>
      cases hw
      cases hpackage
    | package dotted source =>
      cases hw
      exact ⟨source, hforce⟩
    | data path bytes => cases hw
  · rintro ⟨source, hforce⟩
    exact ⟨_, (module_iff h).mpr ⟨_, hforce, rfl⟩, rfl⟩

theorem builds_iff : Builds es ↔ ∃ b, bundleOf es = .ok b := by
  have hvalid := valid_calls es
  constructor
  · rintro ⟨hcalls, hparents⟩
    refine ⟨_, bundleOf_eq_ok.mpr ⟨hcalls, build_eq_ok.mpr ⟨(run_maps hvalid).1, ?_, rfl⟩⟩⟩
    intro name hname p hp
    obtain ⟨c, hc, hsubject⟩ := (mem_modules_iff hvalid).mp hname
    exact (isPackage_iff_inForce hvalid).mpr (hparents c hc name hsubject p hp)
  · rintro ⟨b, hb⟩
    obtain ⟨hcalls, hbuild⟩ := bundleOf_eq_ok.mp hb
    obtain ⟨-, hparents, -⟩ := build_eq_ok.mp hbuild
    refine ⟨hcalls, fun c hc name hsubject p hp => ?_⟩
    have hname := (mem_modules_iff hvalid).mpr ⟨c, hc, hsubject⟩
    exact (isPackage_iff_inForce hvalid).mp (hparents name hname p hp)

end Calls

theorem origin_of_moduleWrite {c : Call} {name : Str} {m : BundleModule}
    (h : c.moduleWrite = some (name, m)) : m.origin = origin name m.package := by
  cases c with
  | module dotted source =>
    cases h
    rfl
  | package dotted source =>
    cases h
    rfl
  | data path bytes => cases h

/-- The origin of a module tells whether it is a package. -/
theorem package_of_origin {name : Str} {package package' : Bool}
    (h : origin name package = origin name package') : package = package' := by
  have hlength := congrArg List.length h
  have hinit : 0 < initName.length := by decide
  cases package with
  | false =>
    cases package' with
    | false => rfl
    | true =>
      simp only [origin, Bool.false_eq_true, if_false, if_true, List.length_append,
        List.length_cons] at hlength
      omega
  | true =>
    cases package' with
    | false =>
      simp only [origin, Bool.false_eq_true, if_false, if_true, List.length_append,
        List.length_cons] at hlength
      omega
    | true => rfl

theorem Call.moduleWrite_inj {c c' : Call} {name : Str} {m m' : BundleModule}
    (h : c.moduleWrite = some (name, m)) (h' : c'.moduleWrite = some (name, m'))
    (hpath : c.path = c'.path) (hbytes : c.bytes = c'.bytes) : m = m' := by
  obtain ⟨-, horigin, hsource⟩ := Call.of_moduleWrite h
  obtain ⟨-, horigin', hsource'⟩ := Call.of_moduleWrite h'
  have hsame : m.origin = m'.origin := by rw [horigin, horigin', hpath]
  have hpackage : m.package = m'.package := by
    rw [origin_of_moduleWrite h, origin_of_moduleWrite h'] at hsame
    exact package_of_origin hsame
  have htext : m.source = m'.source := by
    rw [← hsource, ← hsource'] at hbytes
    exact String.toByteArray_inj.mp hbytes
  obtain ⟨source, origin, package⟩ := m
  obtain ⟨source', origin', package'⟩ := m'
  dsimp only at htext hsame hpackage
  rw [htext, hsame, hpackage]

section Order

variable {es es' : List FileEntry} (h : ∀ e ∈ es, ∀ e' ∈ es, ¬ Clash e e')

include h

theorem same_of_subject {c c' : Call} (hc : c ∈ es.filterMap entryCall)
    (hc' : c' ∈ es.filterMap entryCall) (hsubject : c.subject = c'.subject) :
    c.path = c'.path ∧ c.bytes = c'.bytes := by
  obtain ⟨e, he, hec⟩ := List.mem_filterMap.mp hc
  obtain ⟨e', he', hec'⟩ := List.mem_filterMap.mp hc'
  by_contra hne
  exact h e he e' he' ⟨c, c', hec, hec', hsubject, not_and_or.mp hne⟩

theorem functional_modules : Functional ((es.filterMap entryCall).filterMap Call.moduleWrite) := by
  intro w hw w' hw' hname
  obtain ⟨c, hc, hcw⟩ := List.mem_filterMap.mp hw
  obtain ⟨c', hc', hcw'⟩ := List.mem_filterMap.mp hw'
  obtain ⟨name, m⟩ := w
  obtain ⟨name', m'⟩ := w'
  obtain rfl : name = name' := hname
  have hsubject : c.subject = c'.subject :=
    (Call.of_moduleWrite hcw).1.trans (Call.of_moduleWrite hcw').1.symm
  obtain ⟨hpath, hbytes⟩ := same_of_subject h hc hc' hsubject
  exact Call.moduleWrite_inj hcw hcw' hpath hbytes

theorem functional_data : Functional ((es.filterMap entryCall).filterMap Call.dataWrite) := by
  intro w hw w' hw' hname
  obtain ⟨c, hc, hcw⟩ := List.mem_filterMap.mp hw
  obtain ⟨c', hc', hcw'⟩ := List.mem_filterMap.mp hw'
  obtain ⟨path, bytes⟩ := w
  obtain ⟨path', bytes'⟩ := w'
  obtain rfl : path = path' := hname
  obtain ⟨hs, -, rfl⟩ := Call.of_dataWrite hcw
  obtain ⟨hs', -, rfl⟩ := Call.of_dataWrite hcw'
  exact (same_of_subject h hc hc' (hs.trans hs'.symm)).2

theorem functional_files :
    Functional ((es.filterMap entryCall).map fun c => (c.path, c.bytes)) := by
  intro w hw w' hw' hpath
  obtain ⟨c, hc, rfl⟩ := List.mem_map.mp hw
  obtain ⟨c', hc', rfl⟩ := List.mem_map.mp hw'
  obtain ⟨e, -, hec⟩ := List.mem_filterMap.mp hc
  obtain ⟨e', -, hec'⟩ := List.mem_filterMap.mp hc'
  have hsubject : c.subject = c'.subject := by
    refine subject_of_path hec hec' ?_
    rw [← (entryCall_spec hec).2.1, ← (entryCall_spec hec').2.1]
    exact hpath
  exact (same_of_subject h hc hc' hsubject).2

theorem run_perm (hp : es.Perm es') :
    run (es.filterMap entryCall) = run (es'.filterMap entryCall) := by
  have hcalls := hp.filterMap entryCall
  have hmaps := run_maps (valid_calls es)
  have hmaps' := run_maps (valid_calls es')
  have hmodules : (run (es.filterMap entryCall)).modules = (run (es'.filterMap entryCall)).modules := by
    ext1 name
    rw [hmaps.2.1, hmaps'.2.1]
    exact lastWrite_perm (hcalls.filterMap _) (functional_modules h) name
  have hdata : (run (es.filterMap entryCall)).data = (run (es'.filterMap entryCall)).data := by
    ext1 path
    rw [hmaps.2.2.1, hmaps'.2.2.1]
    exact lastWrite_perm (hcalls.filterMap _) (functional_data h) path
  have hfiles : (run (es.filterMap entryCall)).files = (run (es'.filterMap entryCall)).files := by
    ext1 path
    rw [hmaps.2.2.2, hmaps'.2.2.2]
    exact lastWrite_perm (hcalls.map _) (functional_files h) path
  have herror := hmaps.1.trans hmaps'.1.symm
  revert hmodules hdata hfiles herror
  cases run (es.filterMap entryCall)
  cases run (es'.filterMap entryCall)
  rintro rfl rfl rfl rfl
  rfl

/-- Without files that clash, their order does not matter. -/
theorem bundleOf_perm (hp : es.Perm es') : SameResult (bundleOf es) (bundleOf es') := by
  intro b
  rw [bundleOf_eq_ok, bundleOf_eq_ok, run_perm h hp]
  simp only [hp.mem_iff]

end Order

/-- The last file is what the bundle holds. -/
theorem says_of_last {before : List FileEntry} {e : FileEntry} {c : Call} {b : Bundle}
    (hc : entryCall e = some c) (h : bundleOf (before ++ [e]) = .ok b) :
    b.files[c.path]? = some c.bytes ∧
      ∀ name m, c.moduleWrite = some (name, m) → b.modules[name]? = some m := by
  obtain ⟨-, hbuild⟩ := bundleOf_eq_ok.mp h
  obtain ⟨-, -, rfl⟩ := build_eq_ok.mp hbuild
  have hvalid := valid_calls (before ++ [e])
  have hcalls : (before ++ [e]).filterMap entryCall = before.filterMap entryCall ++ [c] := by
    simp [List.filterMap_append, hc]
  constructor
  · exact (file_iff hvalid).mpr ⟨c, ⟨_, [], hcalls, by simp⟩, rfl, rfl⟩
  · intro name m hw
    exact (module_iff hvalid).mpr ⟨c, ⟨_, [], hcalls, by simp⟩, hw⟩

/-! ## Trees and their listings -/

def hasInit (es : List Entry) : Bool := es.any fun e => !e.isDir && e.name = initFile

def hasInitDir (es : List Entry) : Bool := es.any fun e => e.isDir && e.name = initFile

namespace Tree

/-- What stands before the paths in an embedded bundle. -/
def start (T : Tree) : Str :=
  match T.root with
  | some root => if hasInit T.entries then root else []
  | none => []

def files (T : Tree) : List FileEntry := filesOf T.start T.entries

/-- The same bundle, or no bundle, in any two listings. -/
def Agree (T : Tree) : Prop :=
  ∀ listing listing', Reorder T.entries listing → Reorder T.entries listing' →
    SameResult (fromDir T.path T.root listing) (fromEmbedded T.root (embedAll [] listing'))

/-- In some listing a bundle can be built. -/
def Buildable (T : Tree) : Prop :=
  T.root ≠ none ∧ ∃ listing, Reorder T.entries listing ∧ Builds (filesOf T.start listing)

end Tree

theorem AllWellFormed_iff {es : List Entry} : AllWellFormed es ↔ ∀ e ∈ es, e.WellFormed := by
  induction es with
  | nil => simp [AllWellFormed]
  | cons e es ih => simp [AllWellFormed, ih]

namespace Reorder

variable {es es' : List Entry}

theorem wellFormed (h : Reorder es es') (hw : AllWellFormed es) : AllWellFormed es' := by
  induction h with
  | nil => trivial
  | cons e _ ih => exact ⟨hw.1, ih hw.2⟩
  | @dir name ds ds' es es' hd _ ihd ih =>
    obtain ⟨⟨hname, hnodup, hds⟩, hes⟩ := hw
    refine ⟨⟨hname, ?_, ihd hds⟩, ih hes⟩
    have hperm := hd.heads_perm.map Prod.snd
    simp only [List.map_map, Function.comp_def] at hperm
    exact hperm.nodup_iff.mp hnodup
  | swap e e' es => exact ⟨hw.2.1, hw.1, hw.2.2⟩
  | trans _ _ ih ih' => exact ih' (ih hw)

theorem hasInit_eq (h : Reorder es es') : hasInit es' = hasInit es := by
  have hiff := h.has_iff false initFile
  rw [Bool.eq_iff_iff]
  simpa [hasInit] using hiff.symm

theorem hasInitDir_eq (h : Reorder es es') : hasInitDir es' = hasInitDir es := by
  have hiff := h.has_iff true initFile
  rw [Bool.eq_iff_iff]
  simpa [hasInitDir] using hiff.symm

end Reorder

theorem any_init (es : List Entry) :
    (es.any fun e => e.name = initFile) = (hasInit es || hasInitDir es) := by
  induction es with
  | nil => rfl
  | cons e es ih =>
    rw [List.any_cons, ih]
    simp only [hasInit, hasInitDir, List.any_cons]
    cases e.isDir <;> cases decide (e.name = initFile) <;> simp

section Listing

variable {T : Tree} {root : Str} {listing : List Entry}

theorem root_ne_nil (hroot : T.root = some root) : root ≠ [] := by
  rintro rfl
  exact T.root_ne hroot

theorem start_eq (hroot : T.root = some root) :
    T.start = if hasInit T.entries then root else [] := by
  rw [Tree.start, hroot]

theorem fromEmbedded_listing (hroot : T.root = some root) (h : Reorder T.entries listing) :
    fromEmbedded T.root (embedAll [] listing) = bundleOf (filesOf T.start listing) := by
  have heq := fromEmbedded_eq (root_ne_nil hroot) (h.wellFormed T.wellFormed)
  rw [hroot, heq, start_eq hroot, ← h.hasInit_eq]
  rfl

theorem fromDir_listing (hroot : T.root = some root) (h : Reorder T.entries listing) :
    fromDir T.path T.root listing =
      bundleOf (filesOf (if hasInit T.entries || hasInitDir T.entries then root else [])
        (arrangeAll listing)) := by
  rw [hroot, fromDir_eq, any_init, h.hasInit_eq, h.hasInitDir_eq]

end Listing

/-! ## Paths below a start -/

mutual

theorem Entry.path_below : ∀ (entry : Entry), entry.WellFormed → ∀ {relative : Str},
    relative ≠ [] → ∀ e ∈ entry.files relative, ∃ rest, e.1 = relative ++ '/' :: rest
  | .file name contents, _, relative, hr, e, he => by
    rw [Entry.files, List.mem_singleton] at he
    subst he
    exact ⟨name, if_neg hr⟩
  | .dir name ds, h, relative, hr, e, he => by
    obtain ⟨rest, hrest⟩ := path_below ds h.2.2 (joinPath_ne_nil h.1.1) e he
    refine ⟨name ++ '/' :: rest, ?_⟩
    rw [hrest, joinPath, if_neg hr, List.append_assoc, List.cons_append]

theorem path_below : ∀ (es : List Entry), AllWellFormed es → ∀ {relative : Str},
    relative ≠ [] → ∀ e ∈ filesOf relative es, ∃ rest, e.1 = relative ++ '/' :: rest
  | [], _, _, _, _, he => by cases he
  | entry :: es, h, _, hr, e, he => by
    rw [filesOf, List.mem_append] at he
    rcases he with he | he
    · exact Entry.path_below entry h.1 hr e he
    · exact path_below es h.2 hr e he

end

/-- A file whose path has a single component is at the top. -/
theorem top_of_path {es : List Entry} (h : AllWellFormed es) {e : FileEntry}
    (he : e ∈ filesOf [] es) (hslash : '/' ∉ e.1) :
    ∃ entry ∈ es, entry.isDir = false ∧ entry.name = e.1 := by
  rw [filesOf_eq, List.mem_flatMap] at he
  obtain ⟨entry, hentry, he⟩ := he
  have hw := AllWellFormed_iff.mp h entry hentry
  cases entry with
  | file name contents =>
    rw [Entry.files, List.mem_singleton] at he
    subst he
    exact ⟨_, hentry, rfl, rfl⟩
  | dir name ds =>
    obtain ⟨rest, hrest⟩ := path_below ds hw.2.2 (joinPath_ne_nil hw.1.1) e he
    rw [hrest] at hslash
    simp at hslash

/-! ## A directory in the place of a package's file -/

/-- With a file, the paths tell whether the name of the tree stands before them. -/
theorem no_files_of_initDir {es es' : List Entry} (hw : AllWellFormed es) (hperm : Reorder es es')
    {root : Str} (hroot : root ≠ []) {b : Bundle} (h : bundleOf (filesOf [] es) = .ok b)
    (h' : bundleOf (filesOf root es') = .ok b) : filesOf [] es = [] := by
  by_contra hne
  have hfiles : ∀ {fs : List FileEntry}, bundleOf fs = .ok b → ∀ path,
      path ∈ b.files ↔ ∃ e ∈ fs, BundleBuilder.normalize e.1 = path := by
    intro fs hfs path
    obtain ⟨hcalls, hbuild⟩ := bundleOf_eq_ok.mp hfs
    obtain ⟨-, -, rfl⟩ := build_eq_ok.mp hbuild
    rw [mem_files_iff (valid_calls fs)]
    constructor
    · rintro ⟨c, hc, rfl⟩
      obtain ⟨e, he, hec⟩ := List.mem_filterMap.mp hc
      exact ⟨e, he, (entryCall_spec hec).2.1.symm⟩
    · rintro ⟨e, he, rfl⟩
      obtain ⟨c, hc⟩ := Option.ne_none_iff_exists'.mp (hcalls e he)
      exact ⟨c, List.mem_filterMap.mpr ⟨e, he, hc⟩, (entryCall_spec hc).2.1⟩
  have hsome : (filesOf [] es : Multiset FileEntry) ≠ 0 := by simpa using hne
  obtain ⟨e, he, hmax⟩ := Multiset.exists_max_image (fun e : FileEntry => e.1.length) hsome
  rw [Multiset.mem_coe] at he
  have hlong : (root ++ '/' :: e.1, e.2) ∈ filesOf root es' :=
    mem_filesOf_start hroot (hperm.wellFormed hw) ((hperm.files_perm []).mem_iff.mp he)
  obtain ⟨e', he', hpath⟩ := (hfiles h _).mp ((hfiles h' _).mpr ⟨_, hlong, rfl⟩)
  have hlength := congrArg List.length hpath
  have hle := hmax e' he'
  simp only [BundleBuilder.normalize, replace, List.length_map, List.length_append,
    List.length_cons] at hlength
  omega

theorem normalize_append (start rest : Str) :
    BundleBuilder.normalize (start ++ '/' :: rest) =
      BundleBuilder.normalize start ++ '/' :: BundleBuilder.normalize rest := by
  simp [BundleBuilder.normalize, replace]

theorem eq_of_normalize {path path' : Str} (hslash : '/' ∉ path')
    (h : BundleBuilder.normalize path = path') : path = path' := by
  subst h
  refine ((List.map_congr_left fun c hc => ?_).trans (List.map_id path)).symm
  by_cases hback : c = '\\'
  · subst hback
    exact absurd (List.mem_map.mpr ⟨_, hc, rfl⟩) hslash
  · simp [hback]

/-- A path with a single slash is split there. -/
theorem split_unique {a b a' b' : Str} (ha : '/' ∉ a) (hb : '/' ∉ b)
    (h : a ++ '/' :: b = a' ++ '/' :: b') : b' = b := by
  rcases List.append_eq_append_iff.mp h with ⟨as, rfl, hrest⟩ | ⟨as, rfl, hrest⟩
  · cases as with
    | nil => simpa using hrest.symm
    | cons x as =>
      obtain ⟨rfl, rfl⟩ := List.cons_eq_cons.mp hrest
      simp at hb
  · cases as with
    | nil => simpa using hrest
    | cons x as =>
      obtain ⟨rfl, rfl⟩ := List.cons_eq_cons.mp hrest
      simp at ha

/-- A bundle with a module has one at the top. -/
theorem exists_top {b : Bundle} (hparents : ∀ name ∈ b.modules, ∀ p ∈ befores name,
      ∃ m, b.modules[p]? = some m ∧ m.package = true) {name : Str} (h : name ∈ b.modules) :
    ∃ p ∈ b.modules, '.' ∉ p := by
  by_cases hdot : '.' ∈ name
  · obtain ⟨p, rest, rfl, hp⟩ := List.eq_append_cons_of_mem hdot
    obtain ⟨m, hm, -⟩ := hparents _ h p (mem_befores_iff.mpr ⟨rest, rfl⟩)
    refine ⟨p, ?_, hp⟩
    rw [Std.ExtTreeMap.mem_iff_isSome_getElem?, hm]
    rfl
  · exact ⟨name, h, hdot⟩

/-- The only module at the top that lies below a start is its package. -/
theorem init_of_top {name start rest : Str} {package : Bool} (h : isIdentifier name = true)
    (hpath : origin name package = start ++ '/' :: rest) : rest = initFile := by
  have hslash := slash_not_mem h
  have hreplace : replace '.' '/' name = name := by
    have hname : replace '.' '/' (['.'].intercalate [name]) = ['/'].intercalate [name] :=
      replace_dots (by simpa using h)
    simpa using hname
  have hpy : '/' ∉ pySuffix := by decide
  have hinit : '/' ∉ initFile := by decide
  cases package with
  | true =>
    simp only [origin, hreplace, if_true] at hpath
    exact split_unique hslash hinit hpath
  | false =>
    simp only [origin, hreplace, Bool.false_eq_true, if_false] at hpath
    have hmem : '/' ∈ name ++ pySuffix := by simp [hpath]
    rw [List.mem_append] at hmem
    exact absurd hmem (not_or.mpr ⟨hslash, hpy⟩)

theorem isData_iff {e : FileEntry} :
    pySuffix.isSuffixOf (BundleBuilder.normalize e.1) = false ↔
      ∃ path bytes, entryCall e = some (.data path bytes) := by
  simp only [entryCall]
  cases pySuffix.isSuffixOf (BundleBuilder.normalize e.1) with
  | false => simp
  | true =>
    simp only [Bool.true_eq_false, false_iff, Bool.not_true, Bool.false_eq_true, if_false]
    rintro ⟨path, bytes, h⟩
    split at h
    · obtain ⟨source, -, hcall⟩ := Option.map_eq_some_iff.mp h
      split at hcall <;> cases hcall
    · cases h

/-- Below its name a tree without the file of a package can have no modules. -/
theorem no_modules_below {es : List Entry} (hw : AllWellFormed es) (hinit : hasInit es = false)
    {root : Str} (hroot : root ≠ []) {b : Bundle} (h : bundleOf (filesOf root es) = .ok b)
    (name : Str) : name ∉ b.modules := by
  intro hname
  obtain ⟨-, hbuild⟩ := bundleOf_eq_ok.mp h
  obtain ⟨hidentifiers, hparents, -⟩ := always hbuild
  obtain ⟨p, hp, hdot⟩ := exists_top hparents hname
  have hidentifier : isIdentifier p = true :=
    hidentifiers p hp p (by simp [splitOn_of_not_mem hdot])
  obtain ⟨-, -, rfl⟩ := build_eq_ok.mp hbuild
  rw [Std.ExtTreeMap.mem_iff_isSome_getElem?, Option.isSome_iff_exists] at hp
  obtain ⟨m, hm⟩ := hp
  obtain ⟨c, hforce, hcw⟩ := (module_iff (valid_calls _)).mp hm
  obtain ⟨e, he, hec⟩ := List.mem_filterMap.mp hforce.mem
  rw [← filesOf_start hroot hw, List.mem_map] at he
  obtain ⟨e', he', rfl⟩ := he
  have hpath : origin p m.package =
      BundleBuilder.normalize root ++ '/' :: BundleBuilder.normalize e'.1 := by
    rw [← origin_of_moduleWrite hcw, (Call.of_moduleWrite hcw).2.1, (entryCall_spec hec).2.1,
      normalize_append]
  have hslash : '/' ∉ initFile := by decide
  have hfile := eq_of_normalize hslash (init_of_top hidentifier hpath)
  obtain ⟨entry, hentry, hdir, hentryName⟩ := top_of_path hw he' (hfile ▸ hslash)
  have hany : hasInit es = true := by
    rw [hasInit, List.any_eq_true]
    exact ⟨entry, hentry, by simp [hdir, hentryName, hfile]⟩
  rw [hinit] at hany
  cases hany

theorem builds_of_below {es : List Entry} (hw : AllWellFormed es) (hinit : hasInit es = false)
    {root : Str} (hroot : root ≠ []) {b : Bundle} (h : bundleOf (filesOf root es) = .ok b) :
    Builds (filesOf [] es) := by
  have hdata : ∀ e ∈ filesOf [] es, ∃ path bytes, entryCall e = some (.data path bytes) := by
    intro e he
    have hmem : (root ++ '/' :: e.1, e.2) ∈ filesOf root es := mem_filesOf_start hroot hw he
    obtain ⟨hcalls, hbuild⟩ := bundleOf_eq_ok.mp h
    obtain ⟨c, hc⟩ := Option.ne_none_iff_exists'.mp (hcalls _ hmem)
    have hcall : ∃ path bytes, entryCall (root ++ '/' :: e.1, e.2) = some (.data path bytes) := by
      cases c with
      | data path bytes => exact ⟨path, bytes, hc⟩
      | module name source =>
        obtain ⟨-, -, rfl⟩ := build_eq_ok.mp hbuild
        exact absurd ((mem_modules_iff (valid_calls _)).mpr
          ⟨_, List.mem_filterMap.mpr ⟨_, hmem, hc⟩, rfl⟩) (no_modules_below hw hinit hroot h name)
      | package name source =>
        obtain ⟨-, -, rfl⟩ := build_eq_ok.mp hbuild
        exact absurd ((mem_modules_iff (valid_calls _)).mpr
          ⟨_, List.mem_filterMap.mpr ⟨_, hmem, hc⟩, rfl⟩) (no_modules_below hw hinit hroot h name)
    refine isData_iff.mp ?_
    have hpy := isData_iff.mpr hcall
    rw [Bool.eq_false_iff, ne_eq, List.isSuffixOf_iff_suffix, normalize_append] at hpy
    rw [Bool.eq_false_iff, ne_eq, List.isSuffixOf_iff_suffix]
    intro hsuffix
    exact hpy (hsuffix.trans ((List.suffix_cons _ _).trans (List.suffix_append _ _)))
  refine ⟨fun e he hnone => ?_, fun c hc name hsubject => ?_⟩
  · obtain ⟨path, bytes, hcall⟩ := hdata e he
    rw [hnone] at hcall
    cases hcall
  · obtain ⟨e, he, hec⟩ := List.mem_filterMap.mp hc
    obtain ⟨path, bytes, hcall⟩ := hdata e he
    rw [hec] at hcall
    cases hcall
    cases hsubject

/-! ## When the builders agree -/

section Agree

variable {T : Tree}

/-- Names are distinct, so the file of a package is not a directory as well. -/
theorem hasInit_of_initDir (h : hasInitDir T.entries = true) : hasInit T.entries = false := by
  by_contra hinit
  rw [Bool.not_eq_false, hasInit, List.any_eq_true] at hinit
  rw [hasInitDir, List.any_eq_true] at h
  obtain ⟨e, he, hfile⟩ := hinit
  obtain ⟨e', he', hdir⟩ := h
  simp only [Bool.and_eq_true, Bool.not_eq_true', decide_eq_true_eq] at hfile hdir
  have hsame := List.inj_on_of_nodup_map T.distinct he he' (hfile.2.trans hdir.2.symm)
  rw [hsame, hdir.1] at hfile
  cases hfile.1

theorem dir_builds {root : Str} (hroot : T.root = some root) {listing : List Entry}
    (hl : Reorder T.entries listing) {b : Bundle}
    (h : fromDir T.path T.root listing = .ok b) : T.Buildable := by
  have hw := (hl.trans (reorder_arrangeAll _)).wellFormed T.wellFormed
  rw [fromDir_listing hroot hl] at h
  refine ⟨by simp [hroot], arrangeAll listing, hl.trans (reorder_arrangeAll _), ?_⟩
  cases hdir : hasInitDir T.entries with
  | false =>
    rw [hdir, Bool.or_false, ← start_eq hroot] at h
    exact builds_iff.mpr ⟨b, h⟩
  | true =>
    have hinit := hasInit_of_initDir hdir
    rw [hdir, Bool.or_true, if_pos rfl] at h
    rw [start_eq hroot, hinit, if_neg (by simp)]
    refine builds_of_below hw ?_ (root_ne_nil hroot) h
    rw [(hl.trans (reorder_arrangeAll _)).hasInit_eq, hinit]

/-- A bundle that every listing gives holds what each file says. -/
theorem says_of_all {b : Bundle}
    (h : ∀ listing, Reorder T.entries listing → bundleOf (filesOf T.start listing) = .ok b)
    {e : FileEntry} (he : e ∈ T.files) {c : Call} (hc : entryCall e = some c) :
    b.files[c.path]? = some c.bytes ∧
      ∀ name m, c.moduleWrite = some (name, m) → b.modules[name]? = some m := by
  obtain ⟨listing, before, hl, hlast⟩ := exists_last T.entries T.start e he
  have hb := h listing hl
  rw [hlast] at hb
  exact says_of_last hc hb

theorem no_clash_of_all {b : Bundle}
    (h : ∀ listing, Reorder T.entries listing → bundleOf (filesOf T.start listing) = .ok b)
    {e e' : FileEntry} (he : e ∈ T.files) (he' : e' ∈ T.files) : ¬ Clash e e' := by
  rintro ⟨c, c', hc, hc', hsubject, hdiffer⟩
  obtain ⟨hfile, hmodule⟩ := says_of_all h he hc
  obtain ⟨hfile', hmodule'⟩ := says_of_all h he' hc'
  have hpath : c.path = c'.path := by
    rcases c.writes with ⟨name, m, hw⟩ | ⟨path, bytes, hw⟩
    · obtain ⟨m', hw'⟩ :=
        Call.moduleWrite_of_subject (hsubject.symm.trans (Call.of_moduleWrite hw).1)
      have hm : m = m' :=
        Option.some.inj ((hmodule name m hw).symm.trans (hmodule' name m' hw'))
      rw [← (Call.of_moduleWrite hw).2.1, ← (Call.of_moduleWrite hw').2.1, hm]
    · have hs := (Call.of_dataWrite hw).1
      rw [hsubject] at hs
      cases c' with
      | data path' bytes' =>
        cases hs
        exact (Call.of_dataWrite hw).2.1
      | module name source => cases hs
      | package name source => cases hs
  rw [← hpath, hfile] at hfile'
  rcases hdiffer with hne | hne
  · exact hne hpath
  · exact hne (Option.some.inj hfile')

theorem cond_of_agree (h : T.Agree) (hb : T.Buildable) :
    (∀ e ∈ T.files, ∀ e' ∈ T.files, ¬ Clash e e') ∧
      (hasInitDir T.entries = true → T.files = []) := by
  obtain ⟨hroot, listing, hl, hbuilds⟩ := hb
  obtain ⟨root, hroot⟩ := Option.ne_none_iff_exists'.mp hroot
  obtain ⟨b, hb⟩ := builds_iff.mp hbuilds
  have hdir : fromDir T.path T.root T.entries = .ok b := by
    rw [h T.entries listing (.refl _) hl, fromEmbedded_listing hroot hl, hb]
  have hall : ∀ listing, Reorder T.entries listing →
      bundleOf (filesOf T.start listing) = .ok b := by
    intro listing' hl'
    rw [← fromEmbedded_listing hroot hl', ← h T.entries listing' (.refl _) hl']
    exact hdir
  refine ⟨fun e he e' he' => no_clash_of_all hall he he', fun hinitDir => ?_⟩
  have hinit := hasInit_of_initDir hinitDir
  have hstart : T.start = [] := by simp [start_eq hroot, hinit]
  rw [fromDir_listing hroot (.refl _), hinitDir, Bool.or_true, if_pos rfl] at hdir
  have hempty := hall T.entries (.refl _)
  rw [hstart] at hempty
  rw [Tree.files, hstart]
  exact no_files_of_initDir T.wellFormed (reorder_arrangeAll _) (root_ne_nil hroot) hempty hdir

theorem agree_of_cond (h : T.Buildable → (∀ e ∈ T.files, ∀ e' ∈ T.files, ¬ Clash e e') ∧
    (hasInitDir T.entries = true → T.files = [])) : T.Agree := by
  intro listing listing' hl hl' b
  cases hroot : T.root with
  | none => simp [fromDir, fromEmbedded]
  | some root =>
    rw [← hroot]
    by_cases hb : T.Buildable
    · obtain ⟨hclash, hempty⟩ := h hb
      have hla := hl.trans (reorder_arrangeAll listing)
      rw [fromDir_listing hroot hl, fromEmbedded_listing hroot hl']
      cases hdir : hasInitDir T.entries with
      | false =>
        rw [Bool.or_false, ← start_eq hroot]
        rw [← bundleOf_perm hclash (hla.files_perm T.start) b,
          ← bundleOf_perm hclash (hl'.files_perm T.start) b]
      | true =>
        have hinit := hasInit_of_initDir hdir
        have hstart : T.start = [] := by simp [start_eq hroot, hinit]
        have hfiles : filesOf [] T.entries = [] := by
          have hnone := hempty hdir
          rwa [Tree.files, hstart] at hnone
        have hbelow := filesOf_start (root_ne_nil hroot) (hla.wellFormed T.wellFormed)
        have hnone := hla.files_perm []
        have hnone' := hl'.files_perm []
        rw [hfiles, List.nil_perm] at hnone hnone'
        rw [hnone, List.map_nil] at hbelow
        rw [Bool.or_true, if_pos rfl, hstart, ← hbelow, hnone']
    · constructor
      · intro hok
        exact absurd (dir_builds hroot hl hok) hb
      · intro hok
        rw [fromEmbedded_listing hroot hl'] at hok
        exact absurd ⟨by simp [hroot], listing', hl', builds_iff.mpr ⟨b, hok⟩⟩ hb

end Agree

/-- The two builders agree on a tree exactly if no bundle can be built of it, or no two files clash
and no directory stands in the place of the package's file beside other files. -/
theorem agree_iff (T : Tree) :
    T.Agree ↔ (T.Buildable →
      (∀ e ∈ T.files, ∀ e' ∈ T.files, ¬ Clash e e') ∧
        (hasInitDir T.entries = true → T.files = [])) :=
  ⟨cond_of_agree, agree_of_cond⟩

/-- A module beside a package of its name. -/
def moduleBesidePackage : Tree where
  path := "plugins/p".toList
  root := some ['p']
  entries := [.file "x.py".toList ByteArray.empty, .dir ['x'] [.file initFile ByteArray.empty]]
  root_ne := by decide
  distinct := by decide
  wellFormed := by
    have hname : ∀ name : Str, name = "x.py".toList ∨ name = ['x'] ∨ name = initFile →
        name ≠ [] ∧ '/' ∉ name := by
      rintro name (rfl | rfl | rfl) <;> decide
    exact ⟨hname _ (.inl rfl), ⟨hname _ (.inr (.inl rfl)), by decide,
      hname _ (.inr (.inr rfl)), trivial⟩, trivial⟩

/-- The one that is listed last is in the bundle. -/
theorem depends_on_listing : ¬ ∀ T : Tree, T.Agree := by
  intro h
  have hagree := h moduleBesidePackage
  have hfirst := (hagree _ _ (.refl _) (.refl _) _).mpr rfl
  have hsecond := (hagree _ _ (.refl _) (.swap _ _ _) _).mpr rfl
  have hsame := Except.ok.inj (hfirst.symm.trans hsecond)
  have hfound := congrArg (fun b : Bundle => (b.modules[(['x'] : Str)]?).map BundleModule.package) hsame
  exact absurd hfound (by decide)

end GuestPy.Bundles
