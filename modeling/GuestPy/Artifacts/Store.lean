import GuestPy.Artifacts.Backends
import GuestPy.Artifacts.Tree

/-!
# The store of bundles

The guests of a process share one store. Bundles are prepared in any order and more than once,
preparing one may fail half way, and meanwhile the disk is used for other things.

* `Request.Effect` says what a request may change, carried out or not, and `Request.Of` which
  requests are made for a bundle.
* `keeps_materialize`: what is done for a bundle stays in its own directory, and leaves nothing
  there that is not on the way to a file.
* `stored`: what has been prepared stays as it is, whatever comes later, and there is nothing else
  in the store.
-/

namespace GuestPy.Artifacts

open Bundles (Bundle)
open Bundles.BundleBuilder (replace validateDotted)
open CPythonNativeExtensions Paths Component

/-! ## Prepared bundles -/

namespace MaterializedBundle

def sourceOrigin (m : MaterializedBundle) (relative : Str) : Option Str :=
  match validateRelative relative with
  | .ok validated => some (push m.root validated)
  | .error _ => none

def packagePath (fs : FileSystem) (d : Disk) (m : MaterializedBundle) (dotted : Str) :
    Option Str :=
  let path := push m.root (replace '.' '/' dotted)
  if d.hasDir fs.cwd path then some path else none

end MaterializedBundle

/-! ## The store -/

/-- What happens in the process. `reported` are the suffixes that the interpreter reports. -/
inductive StoreEvent where
  | prepare (id : Nat) (reported : List Str)
  /-- Something else happens to the disk. -/
  | elsewhere (change : Disk → Disk)

namespace StoreEvent

/-- The bundles are known by their numbers. -/
def step (fs : FileSystem) (root : Str) (bundles : Nat → Bundle) (s : Storage) :
    StoreEvent → Storage
  | prepare id reported => (materialize fs root id (bundles id) (extensionSuffixes reported) s).2
  | elsewhere change => { s with disk := change s.disk }

def after (fs : FileSystem) (root : Str) (bundles : Nat → Bundle) (s : Storage)
    (history : List StoreEvent) : Storage :=
  history.foldl (step fs root bundles) s

end StoreEvent

/-! ## What is assumed of the disk -/

/-- What a request may change, whether it is carried out, in part or not at all. -/
def Request.Effect (cwd : Location) (d d' : Disk) : Request → Prop
  | .createDirAll path => ∀ l, d'.node l ≠ d.node l →
      l ∈ trail cwd (components path) ∧ d.node l = none ∧ d'.node l = some .dir
  | .write path _ => ∀ l, d'.node l ≠ d.node l →
      l = Disk.place cwd path ∧ d.node l ≠ some .dir ∧ ∃ bytes, d'.node l = some (.file bytes)
  | .removeDirAll path => ∀ l, d'.node l ≠ d.node l →
      Disk.place cwd path <+: l ∧ d'.node l = none

/-- A request that fails is carried out in part at most. -/
def FileSystem.Careful (fs : FileSystem) : Prop :=
  ∀ (r : Request) (d : Disk), r.Effect fs.cwd d (fs.failure r d).2

/-- The directories on the way to the store are there. -/
structure Rooted (cwd : Location) (root : Str) (d : Disk) : Prop where
  way : ∀ l ∈ trail cwd (components root), d.node l = some .dir
  home : d.node (Disk.place cwd root) = some .dir

/-- A new store, in a directory of its own. -/
structure Fresh (cwd : Location) (root : Str) (s : Storage) : Prop extends
    Rooted cwd root s.disk where
  empty : ∀ l, Below cwd root l → s.disk.node l = none
  bundles : ∀ id, s.bundles id = none

/-- Nobody else uses the directory, or takes it away. -/
def Elsewhere (cwd : Location) (root : Str) (change : Disk → Disk) : Prop :=
  ∀ d l, Disk.place cwd root <+: l ∨ l ∈ trail cwd (components root) →
    (change d).node l = d.node l

/-- What there may be at names below the directory of a bundle. -/
inductive Grown (bundle : Bundle) (names : List Str) : Node → Prop
  | dir {path : Str} : path ∈ bundle.files → names <+: diskNames path →
      names ≠ diskNames path → Grown bundle names .dir
  | file {path : Str} (bytes : ByteArray) : path ∈ bundle.files → names = diskNames path →
      Grown bundle names (.file bytes)

/-! ## Directories of bundles -/

def bundleName (id : Nat) : Str := s!"bundle-{id}".toList

theorem bundleName_eq (id : Nat) : bundleName id = "bundle-".toList ++ id.repr.toList :=
  String.toList_append

theorem bundleName_inj {id id' : Nat} (h : bundleName id = bundleName id') : id = id' := by
  rw [bundleName_eq, bundleName_eq] at h
  exact Nat.repr_inj.mp (String.toList_injective (List.append_cancel_left h))

theorem isName_bundleName (id : Nat) : IsName (bundleName id) := by
  have hslash : '/' ∉ bundleName id := by
    rw [bundleName_eq, List.mem_append, not_or]
    refine ⟨by decide, fun hmem => ?_⟩
    rw [Nat.toList_repr] at hmem
    exact absurd (Nat.isDigit_of_mem_toDigits (by decide) (by decide) hmem) (by decide)
  refine isName_iff.mpr ⟨hslash, ?_⟩
  rw [bundleName_eq]
  refine ⟨nofun, ?_, ?_⟩
  · exact fun h => absurd (List.cons.inj h).1 (by decide)
  · exact fun h => absurd (List.cons.inj h).1 (by decide)

section

variable {fs : FileSystem} {cwd : Location} {root : Str} {id : Nat} {path : Str}

theorem components_bundleDir :
    components (bundleDir root id) = components root ++ [.normal (bundleName id)] :=
  components_push_name root (isName_bundleName id)

theorem place_bundleDir :
    Disk.place cwd (bundleDir root id) = Disk.place cwd root ++ [bundleName id] := by
  unfold Disk.place
  rw [components_bundleDir, locate_append]
  rfl

theorem components_onDisk_bundleDir (h : ∀ n ∈ diskNames path, IsName n) :
    components (onDisk (bundleDir root id) path) =
      components root ++ (bundleName id :: diskNames path).map .normal := by
  rw [onDisk, components_push_join _ h, components_bundleDir, List.append_assoc]
  rfl

theorem place_onDisk_bundleDir (h : ∀ n ∈ diskNames path, IsName n) :
    Disk.place cwd (onDisk (bundleDir root id) path) =
      Disk.place cwd root ++ bundleName id :: diskNames path := by
  rw [place_onDisk cwd _ h, place_bundleDir, List.append_assoc]
  rfl

/-- On the way to names below the directory of a bundle. -/
theorem mem_trail_bundleDir {names : List Str} {l : Location}
    (h : l ∈ trail cwd (components root ++ (bundleName id :: names).dropLast.map .normal)) :
    l ∈ trail cwd (components root) ∨ ∃ p, p <+: names ∧ p ≠ names ∧
      l = Disk.place cwd root ++ bundleName id :: p := by
  rw [trail_append] at h
  rcases List.mem_append.mp h with hway | hbelow
  · exact Or.inl hway
  · obtain ⟨p, hp, hprefix, rfl⟩ := mem_trail_names.mp hbelow
    by_cases hnames : names = []
    · rw [hnames] at hprefix
      exact absurd (List.prefix_nil.mp hprefix) hp
    · rw [List.dropLast_cons_of_ne_nil hnames] at hprefix
      cases p with
      | nil => exact absurd rfl hp
      | cons n p =>
        obtain ⟨rfl, hrest⟩ := List.cons_prefix_cons.mp hprefix
        refine Or.inr ⟨p, hrest.trans (List.dropLast_prefix _), ?_, rfl⟩
        rintro rfl
        have hlength := hrest.length_le
        have hpos := List.length_pos_of_ne_nil hnames
        rw [List.length_dropLast] at hlength
        omega

theorem mem_way {names : List Str} {l : Location}
    (hcomponents : components path = components root ++ (bundleName id :: names).map .normal)
    (h : l ∈ Disk.way cwd path) :
    l ∈ trail cwd (components root) ∨ ∃ p, p <+: names ∧ p ≠ names ∧
      l = Disk.place cwd root ++ bundleName id :: p := by
  have hne : (bundleName id :: names).map normal ≠ [] := List.cons_ne_nil _ _
  refine mem_trail_bundleDir ?_
  unfold Disk.way at h
  rwa [hcomponents, List.dropLast_append_of_ne_nil hne, ← List.map_dropLast] at h

/-- The directory of a file is that of its bundle, or below it. -/
theorem parent_onDisk_bundleDir (h : ∀ n ∈ diskNames path, IsName n) :
    ∃ dir, parent (onDisk (bundleDir root id) path) = some dir ∧
      components dir =
        components root ++ (bundleName id :: diskNames path).dropLast.map .normal := by
  have hnames : ∀ n ∈ bundleName id :: diskNames path, IsName n := by
    intro n hn
    rcases List.mem_cons.mp hn with rfl | hn
    · exact isName_bundleName id
    · exact h n hn
  obtain ⟨dir, hdir, hcomponents⟩ := parent_push_join root hnames (List.cons_ne_nil _ _)
  refine ⟨dir, ?_, hcomponents⟩
  rw [← hdir]
  exact parent_congr ((components_onDisk_bundleDir h).trans (components_push_join root hnames).symm)

end

/-! ## What is done for a bundle -/

/-- The requests that are made for a bundle. -/
inductive Request.Of (root : Str) (id : Nat) (bundle : Bundle) : Request → Prop
  | createDirAll {path dir : Str} : path ∈ bundle.files →
      components dir =
        components root ++ (bundleName id :: diskNames path).dropLast.map .normal →
      Request.Of root id bundle (.createDirAll dir)
  | write {path : Str} (bytes : ByteArray) : path ∈ bundle.files →
      (∀ n ∈ diskNames path, IsName n) →
      Request.Of root id bundle (.write (onDisk (bundleDir root id) path) bytes)
  | removeDirAll : Request.Of root id bundle (.removeDirAll (bundleDir root id))

/-- The bundle has nothing in its directory but what it may have there. -/
structure Owned (cwd : Location) (root : Str) (id : Nat) (bundle : Bundle) (d : Disk) : Prop
    extends Rooted cwd root d where
  outside : ∀ l ∈ trail cwd (components root), ¬ Below cwd root l
  grown : ∀ names n, d.node (Disk.place cwd root ++ bundleName id :: names) = some n →
    Grown bundle names n

/-- Nothing happens outside the directory of the bundle. -/
def Aside (cwd : Location) (root : Str) (id : Nat) (d d' : Disk) : Prop :=
  ∀ l, ¬ Disk.place cwd (bundleDir root id) <+: l → d'.node l = d.node l

section

variable {fs : FileSystem} {cwd : Location} {root : Str} {id : Nat} {bundle : Bundle}
  {d d' : Disk} {r : Request} {s : Storage} {suffixes : List Str}

theorem below_of_bundleDir {l : Location} (h : Disk.place cwd (bundleDir root id) <+: l) :
    Below cwd root l := by
  rw [place_bundleDir] at h
  refine ⟨(List.prefix_append _ _).trans h, ?_⟩
  rintro rfl
  have hlength := h.length_le
  rw [List.length_append, List.length_singleton] at hlength
  omega

/-- Whatever changes is below the directory of the bundle, and may be there. -/
theorem Request.Of.changes (hr : r.Of root id bundle) (h : Rooted cwd root d)
    (heffect : r.Effect cwd d d') {l : Location} (hl : d'.node l ≠ d.node l) :
    ∃ names, l = Disk.place cwd root ++ bundleName id :: names ∧
      ∀ n, d'.node l = some n → Grown bundle names n := by
  cases hr with
  | @createDirAll path dir hpath hcomponents =>
    obtain ⟨hmem, hnone, hdir⟩ := heffect l hl
    rw [hcomponents] at hmem
    rcases mem_trail_bundleDir hmem with hway | ⟨names, hprefix, hne, rfl⟩
    · rw [h.way l hway] at hnone
      cases hnone
    · refine ⟨names, rfl, fun n hn => ?_⟩
      obtain rfl : Node.dir = n := Option.some.inj (hdir.symm.trans hn)
      exact .dir hpath hprefix hne
  | @write path bytes hpath hnames =>
    obtain ⟨rfl, -, bytes', hbytes⟩ := heffect l hl
    rw [place_onDisk_bundleDir hnames] at hbytes ⊢
    refine ⟨_, rfl, fun n hn => ?_⟩
    obtain rfl := Option.some.inj (hbytes.symm.trans hn)
    exact .file bytes' hpath rfl
  | removeDirAll =>
    obtain ⟨⟨names, rfl⟩, hnone⟩ := heffect l hl
    rw [place_bundleDir, List.append_assoc] at hnone ⊢
    refine ⟨names, rfl, fun n hn => ?_⟩
    cases hnone.symm.trans hn

theorem Request.Of.keeps (hr : r.Of root id bundle) (h : Owned cwd root id bundle d)
    (heffect : r.Effect cwd d d') : Owned cwd root id bundle d' ∧ Aside cwd root id d d' := by
  have haside : Aside cwd root id d d' := by
    intro l hl
    by_contra hne
    obtain ⟨names, rfl, -⟩ := hr.changes h.toRooted heffect hne
    refine hl ?_
    rw [place_bundleDir]
    exact ⟨names, List.append_assoc _ _ _⟩
  have hsame : ∀ l, ¬ Below cwd root l → d'.node l = d.node l := fun l hl =>
    haside l fun hbelow => hl (below_of_bundleDir hbelow)
  refine ⟨⟨⟨fun l hl => ?_, ?_⟩, h.outside, fun names n hn => ?_⟩, haside⟩
  · rw [hsame l (h.outside l hl), h.way l hl]
  · rw [hsame _ fun hbelow => hbelow.2 rfl, h.home]
  · by_cases hne : d'.node (Disk.place cwd root ++ bundleName id :: names) =
        d.node (Disk.place cwd root ++ bundleName id :: names)
    · exact h.grown names n (hne ▸ hn)
    · obtain ⟨names', heq, hgrown⟩ := hr.changes h.toRooted heffect hne
      obtain rfl := (List.cons.inj (List.append_cancel_left heq)).2
      exact hgrown n hn

/-- The discipline of what is done for a bundle. -/
def owning (cwd : Location) (root : Str) (id : Nat) (bundle : Bundle) : Discipline Storage where
  inv s := Owned cwd root id bundle s.disk
  future s s' := Aside cwd root id s.disk s'.disk
  unwound _ := True
  refl _ _ _ := rfl
  trans h h' l hl := (h' l hl).trans (h l hl)

theorem effect_of_perform (h : r.perform cwd d = some d') : r.Effect cwd d d' := by
  cases r with
  | createDirAll path =>
    obtain ⟨hdirs, hgrows, hsame⟩ := Disk.createDirAll_spec h
    intro l hl
    have hmem : l ∈ trail cwd (components path) := by
      by_contra hmem
      exact hl (hsame l hmem)
    refine ⟨hmem, ?_, hdirs l hmem⟩
    by_contra hsome
    obtain ⟨n, hn⟩ := Option.ne_none_iff_exists'.mp hsome
    exact hl ((hgrows l n hn).trans hn.symm)
  | write path bytes =>
    obtain ⟨-, hfree, hfile, hsame⟩ := Disk.write_spec h
    intro l hl
    obtain rfl : l = Disk.place cwd path := by
      by_contra hne
      exact hl (hsame l hne)
    exact ⟨rfl, hfree, bytes, hfile⟩
  | removeDirAll path =>
    intro l hl
    by_cases hbelow : Disk.place cwd path <+: l
    · exact ⟨hbelow, Disk.removeDirAll_below h hbelow⟩
    · exact absurd (Disk.removeDirAll_ne h hbelow) hl

theorem keeps_ask (hfs : fs.Careful) (hr : r.Of root id bundle) :
    Keeps (owning fs.cwd root id bundle) s (ask fs r) fun _ _ => True := by
  intro hs
  have heffect : r.Effect fs.cwd s.disk (ask fs r s).2.disk := by
    unfold ask
    dsimp only
    split
    · rename_i disk hperform
      split at hperform
      · cases hperform
      · exact effect_of_perform hperform
    · exact hfs r s.disk
  obtain ⟨howned, haside⟩ := hr.keeps hs heffect
  exact ⟨howned, haside, fun _ _ => trivial, fun _ => trivial⟩

theorem keeps_writeFile (hfs : fs.Careful) {relative : Str} (hpath : relative ∈ bundle.files)
    (contents : ByteArray) (t : Tables) :
    Keeps (owning fs.cwd root id bundle) s
      (writeFile fs (bundleDir root id) suffixes relative contents t) fun _ _ => True := by
  refine Keeps.bind (Keeps.ofExcept (Q := fun validated _ =>
    validateRelative relative = .ok validated) fun _ h => h) fun validated s₁ _ hvalid => ?_
  obtain ⟨hcomponents, rfl⟩ := validateRelative_eq_ok_iff.mp hvalid
  have hnames := isName_diskNames hcomponents
  obtain ⟨dir, hparent, hdir⟩ : ∃ dir, parent (onDisk (bundleDir root id) relative) = some dir ∧
      components dir = components root ++
        (bundleName id :: diskNames relative).dropLast.map .normal :=
    parent_onDisk_bundleDir hnames
  refine Keeps.bind (Keeps.forEach (J := fun _ => True) trivial fun dir' hdir' s₂ _ => ?_)
    fun _ s₂ _ _ => ?_
  · rw [Option.mem_toList] at hdir'
    obtain rfl : dir = dir' := Option.some.inj (hparent.symm.trans hdir')
    exact keeps_ask hfs (.createDirAll hpath hdir)
  · exact Keeps.bind (keeps_ask hfs (.write contents hpath hnames)) fun _ _ _ _ =>
      Keeps.pure trivial

theorem keeps_writeFiles (hfs : fs.Careful) {files : List (Str × ByteArray)}
    (hfiles : ∀ file ∈ files, file.1 ∈ bundle.files) (t : Tables) :
    Keeps (owning fs.cwd root id bundle) s (writeFiles fs (bundleDir root id) suffixes files t)
      fun _ _ => True := by
  induction files generalizing t s with
  | nil => exact Keeps.pure trivial
  | cons file files ih =>
    obtain ⟨hfile, hrest⟩ := List.forall_mem_cons.mp hfiles
    exact Keeps.bind (keeps_writeFile hfs hfile file.2 t) fun t' _ _ _ => ih hrest t'

/-! ## What has been prepared -/

/-- What the paths of a bundle lead to, without their empty parts and dots. -/
def writes (bundle : Bundle) : List (List Str × ByteArray) :=
  bundle.files.toList.map fun file => (diskNames file.1, file.2)

/-- The files of the bundle can be found and read. -/
structure Recorded (cwd : Location) (dir : Str) (bundle : Bundle) (m : MaterializedBundle)
    (d : Disk) : Prop where
  root : m.root = dir
  valid : ∀ path ∈ bundle.files, validateRelative path = .ok (join (diskNames path))
  read : ∀ path bytes, lastWrite (writes bundle) (diskNames path) = some bytes →
    d.read cwd (onDisk dir path) = some bytes

theorem isName_of_valid {path : Str} (h : validateRelative path = .ok (join (diskNames path))) :
    ∀ n ∈ diskNames path, IsName n :=
  isName_diskNames (validateRelative_eq_ok_iff.mp h).1

/-- The names that are written are those of a file. -/
theorem exists_of_lastWrite {path : Str} {bytes : ByteArray}
    (h : lastWrite (writes bundle) (diskNames path) = some bytes) :
    ∃ path', bundle.files[path']? = some bytes ∧ diskNames path' = diskNames path := by
  obtain ⟨⟨path', bytes'⟩, hfile, heq⟩ := List.mem_map.mp (mem_of_lastWrite_eq_some h)
  obtain ⟨hnames, rfl⟩ := Prod.mk.inj heq
  exact ⟨path', mem_toList_files.mp hfile, hnames⟩

theorem mem_files_of_getElem? {path : Str} {bytes : ByteArray}
    (h : bundle.files[path]? = some bytes) : path ∈ bundle.files := by
  rw [Std.ExtTreeMap.mem_iff_isSome_getElem?, h]
  rfl

theorem valid_of_writeFiles {dir : Str} {files : List (Str × ByteArray)} {t t' : Tables}
    {s' : Storage} (h : writeFiles fs dir suffixes files t s = (.ok t', s')) :
    ∀ file ∈ files, validateRelative file.1 = .ok (join (diskNames file.1)) := by
  induction files generalizing t s with
  | nil => exact nofun
  | cons file files ih =>
    obtain ⟨t₁, s₁, hfile, hrest⟩ := Host.bind_eq_ok.mp h
    refine List.forall_mem_cons.mpr ⟨?_, ih hrest⟩
    obtain ⟨validated, s₂, hvalidate, -⟩ := Host.bind_eq_ok.mp hfile
    cases hvalid : validateRelative file.1 with
    | error e =>
      rw [hvalid] at hvalidate
      cases hvalidate
    | ok validated' => rw [(validateRelative_eq_ok_iff.mp hvalid).2]

theorem recorded_of_written {dir : Str} {m : MaterializedBundle} {s' : Storage}
    (h : writeBundle fs dir bundle suffixes s = (.ok m, s')) :
    Recorded fs.cwd dir bundle m s'.disk := by
  obtain ⟨hall, rfl⟩ := writeBundle_spec h
  obtain ⟨t, s₁, hfiles, hrest⟩ := Host.bind_eq_ok.mp h
  have hvalid : ∀ path ∈ bundle.files,
      validateRelative path = .ok (join (diskNames path)) := by
    intro path hpath
    rw [← Std.ExtTreeMap.mem_keys, ← Std.ExtTreeMap.map_fst_toList_eq_keys] at hpath
    obtain ⟨file, hfile, rfl⟩ := List.mem_map.mp hpath
    exact valid_of_writeFiles hfiles file hfile
  refine ⟨rfl, hvalid, fun path bytes hlast => ?_⟩
  obtain ⟨path', hpath', hnames⟩ := exists_of_lastWrite hlast
  refine hall.read ?_ (by rw [Option.or_eq_some_iff]; exact Or.inl hlast)
  rw [← hnames]
  exact isName_of_valid (hvalid path' (mem_files_of_getElem? hpath'))

theorem Recorded.of_same {m : MaterializedBundle}
    (h : Recorded cwd (bundleDir root id) bundle m d) (hrooted : Rooted cwd root d')
    (hsame : ∀ l, Disk.place cwd (bundleDir root id) <+: l → d'.node l = d.node l) :
    Recorded cwd (bundleDir root id) bundle m d' := by
  refine ⟨h.root, h.valid, fun path bytes hlast => ?_⟩
  obtain ⟨path', hpath', hnames⟩ := exists_of_lastWrite hlast
  have hpath : ∀ n ∈ diskNames path, IsName n := by
    rw [← hnames]
    exact isName_of_valid (h.valid path' (mem_files_of_getElem? hpath'))
  have hbelow : ∀ names, Disk.place cwd (bundleDir root id) <+:
      Disk.place cwd root ++ bundleName id :: names := by
    intro names
    rw [place_bundleDir]
    exact ⟨names, List.append_assoc _ _ _⟩
  refine Disk.read_of_same (fun l hl hdir => ?_) ?_ (h.read path bytes hlast)
  · rcases mem_way (components_onDisk_bundleDir hpath) hl with hway | ⟨names, -, -, rfl⟩
    · exact hrooted.way l hway
    · rw [hsame _ (hbelow names), hdir]
  · rw [place_onDisk_bundleDir hpath, hsame _ (hbelow _)]

/-- **Preparing a bundle leaves the rest of the disk alone**, and if it succeeds the files are
there. -/
theorem keeps_materialize (hfs : fs.Careful)
    (hrecorded : ∀ m, s.bundles id = some m →
      Recorded fs.cwd (bundleDir root id) bundle m s.disk) :
    Keeps (owning fs.cwd root id bundle) s (materialize fs root id bundle suffixes)
      fun m s' => Recorded fs.cwd (bundleDir root id) bundle m s'.disk := by
  have hfiles : ∀ file ∈ bundle.files.toList, file.1 ∈ bundle.files := fun file hfile =>
    mem_files_of_getElem? (mem_toList_files.mp hfile)
  refine Keeps.get ?_
  cases hregistered : s.bundles id with
  | some m => exact Keeps.pure (hrecorded m hregistered)
  | none =>
    refine Keeps.bind (Keeps.attempt (R := fun r s' => ∀ m, r = .ok m →
      Recorded fs.cwd (bundleDir root id) bundle m s'.disk) ?_ fun _ _ _ => nofun)
        fun r s' _ hr => ?_
    · refine Keeps.of_result ?_ fun m s' hwritten m' hm => ?_
      · exact Keeps.bind (keeps_writeFiles hfs hfiles _) fun _ _ _ _ => Keeps.pure trivial
      · cases hm
        exact recorded_of_written hwritten
    · cases r with
      | ok m =>
        exact Keeps.bind (Keeps.modify (R := fun _ s' =>
          Recorded fs.cwd (bundleDir root id) bundle m s'.disk) (fun h => h) (fun _ _ => rfl)
            (hr m rfl)) fun _ _ _ h => Keeps.pure h
      | error e =>
        exact Keeps.bind (Keeps.attempt (R := fun _ _ => True) (keeps_ask hfs .removeDirAll)
          fun _ _ _ => trivial) fun _ _ _ _ => Keeps.throw

theorem materialize_of_registered {m : MaterializedBundle} (h : s.bundles id = some m) :
    materialize fs root id bundle suffixes s = (.ok m, s) := by
  unfold materialize
  rw [Host.get_bind, h]
  rfl

end

/-! ## Runs -/

/-- The invariant of the store. -/
structure Kept (cwd : Location) (root : Str) (bundles : Nat → Bundle) (prepared : Nat → Prop)
    (s : Storage) : Prop extends Rooted cwd root s.disk where
  outside : ∀ l ∈ trail cwd (components root), ¬ Below cwd root l
  tree : ∀ names n, names ≠ [] → s.disk.node (Disk.place cwd root ++ names) = some n →
    ∃ id below, prepared id ∧ names = bundleName id :: below ∧ Grown (bundles id) below n
  recorded : ∀ id m, s.bundles id = some m →
    Recorded cwd (bundleDir root id) (bundles id) m s.disk

namespace Kept

variable {fs : FileSystem} {cwd : Location} {root : Str} {bundles : Nat → Bundle}
  {prepared prepared' : Nat → Prop} {s : Storage}

theorem mono (h : Kept cwd root bundles prepared s) (hp : ∀ id, prepared id → prepared' id) :
    Kept cwd root bundles prepared' s where
  toRooted := h.toRooted
  outside := h.outside
  tree names n hne hn := by
    obtain ⟨id, below, hid, hnames, hgrown⟩ := h.tree names n hne hn
    exact ⟨id, below, hp id hid, hnames, hgrown⟩
  recorded := h.recorded

theorem of_fresh (h : Fresh cwd root s) : Kept cwd root bundles prepared s where
  toRooted := h.toRooted
  outside l hl hbelow := by
    have hdir := h.way l hl
    rw [h.empty l hbelow] at hdir
    cases hdir
  tree names n hne hn := by
    rw [h.empty _ ⟨List.prefix_append _ _, fun heq => hne (List.append_right_eq_self.mp heq)⟩] at hn
    cases hn
  recorded id m hm := by
    rw [h.bundles id] at hm
    cases hm

theorem owned (h : Kept cwd root bundles prepared s) (id : Nat) :
    Owned cwd root id (bundles id) s.disk where
  toRooted := h.toRooted
  outside := h.outside
  grown names n hn := by
    obtain ⟨id', below, -, hnames, hgrown⟩ := h.tree _ n (List.cons_ne_nil _ _) hn
    obtain ⟨hid, rfl⟩ := List.cons.inj hnames
    rwa [bundleName_inj hid]

/-- What is done for a bundle. -/
theorem prepare (hfs : fs.Careful) (h : Kept fs.cwd root bundles prepared s) (id : Nat)
    (suffixes : List Str) :
    Kept fs.cwd root bundles (fun id' => id' = id ∨ prepared id')
        (materialize fs root id (bundles id) suffixes s).2 ∧
      Aside fs.cwd root id s.disk (materialize fs root id (bundles id) suffixes s).2.disk := by
  have hkeeps : Keeps (owning fs.cwd root id (bundles id)) s
      (materialize fs root id (bundles id) suffixes)
      fun m s' => Recorded fs.cwd (bundleDir root id) (bundles id) m s'.disk :=
    keeps_materialize hfs (h.recorded id)
  obtain ⟨howned, haside, hresult, -⟩ := hkeeps (h.owned id)
  rcases hrun : materialize fs root id (bundles id) suffixes s with ⟨o, s'⟩
  rw [hrun] at howned haside hresult
  refine ⟨⟨howned.toRooted, howned.outside, fun names n hne hn => ?_, fun id' m hm => ?_⟩, haside⟩
  · by_cases hbelow : Disk.place fs.cwd (bundleDir root id) <+: Disk.place fs.cwd root ++ names
    · rw [place_bundleDir] at hbelow
      obtain ⟨below, heq⟩ := hbelow
      rw [List.append_assoc] at heq
      obtain rfl := List.append_cancel_left heq
      exact ⟨id, below, Or.inl rfl, rfl, howned.grown below n hn⟩
    · rw [haside _ hbelow] at hn
      obtain ⟨id', below, hid, hnames, hgrown⟩ := h.tree names n hne hn
      exact ⟨id', below, Or.inr hid, hnames, hgrown⟩
  · -- the directories of two bundles are apart
    have hother : id' ≠ id → s.bundles id' = some m →
        Recorded fs.cwd (bundleDir root id') (bundles id') m s'.disk := by
      intro hne hm
      refine (h.recorded id' m hm).of_same howned.toRooted fun l hl => haside l fun hl' => ?_
      rw [place_bundleDir] at hl hl'
      have heq := (List.prefix_of_prefix_length_le hl hl' (by simp)).eq_of_length (by simp)
      exact hne (bundleName_inj (List.singleton_inj.mp (List.append_cancel_left heq)))
    rcases materialize_cases hrun with ⟨m', hm', rfl, rfl⟩ | ⟨m', s₁, -, rfl, hbundles⟩ |
      ⟨hfails, hbundles⟩
    · exact h.recorded id' m hm
    · rw [hbundles, Function.update_apply] at hm
      split at hm
      · rename_i hid
        subst hid
        cases hm
        exact hresult m rfl
      · rename_i hid
        exact hother hid hm
    · rw [hbundles] at hm
      by_cases hid : id' = id
      · subst hid
        rw [materialize_of_registered hm] at hrun
        exact absurd (Prod.mk.inj hrun).1.symm (hfails m)
      · exact hother hid hm

theorem elsewhere (h : Kept cwd root bundles prepared s) {change : Disk → Disk}
    (hchange : Elsewhere cwd root change) :
    Kept cwd root bundles prepared { s with disk := change s.disk } := by
  have hrooted : Rooted cwd root (change s.disk) :=
    ⟨fun l hl => (hchange _ l (Or.inr hl)).trans (h.way l hl),
      (hchange _ _ (Or.inl (List.prefix_refl _))).trans h.home⟩
  refine ⟨hrooted, h.outside, fun names n hne hn => ?_, fun id m hm => ?_⟩
  · rw [hchange _ _ (Or.inl (List.prefix_append _ _))] at hn
    exact h.tree names n hne hn
  · exact (h.recorded id m hm).of_same hrooted fun l hl =>
      hchange _ l (Or.inl (below_of_bundleDir hl).1)

end Kept

/-- The bundle has been asked for. -/
def Prepared (history : List StoreEvent) (id : Nat) : Prop :=
  ∃ reported, .prepare id reported ∈ history

/-- What holds of the store. -/
structure Stored (fs : FileSystem) (root : Str) (bundles : Nat → Bundle)
    (history : List StoreEvent) (s : Storage) : Prop where
  /-- At the origin of a file are its bytes, or those of a file whose path leads there as well. -/
  origin : ∀ id m, s.bundles id = some m → ∀ path ∈ (bundles id).files, ∃ origin path' bytes,
    m.sourceOrigin path = some origin ∧ (bundles id).files[path']? = some bytes ∧
      diskNames path' = diskNames path ∧ s.disk.read fs.cwd origin = some bytes
  /-- A package has a path just if there are files in it. -/
  package : ∀ id m, s.bundles id = some m → ∀ dotted, validateDotted dotted = .ok () →
    ((m.packagePath fs s.disk dotted).isSome = true ↔ ∃ path ∈ (bundles id).files,
      dotted.splitOn '.' <+: diskNames path ∧ dotted.splitOn '.' ≠ diskNames path)
  only : ∀ l, Below fs.cwd root l → s.disk.node l ≠ none → ∃ id, Prepared history id ∧
    ∃ path ∈ (bundles id).files, l <+: Disk.place fs.cwd root ++ bundleName id :: diskNames path
  aside : ∀ id reported, Aside fs.cwd root id s.disk
    ((StoreEvent.prepare id reported).step fs root bundles s).disk
  again : ∀ id m suffixes, s.bundles id = some m →
    materialize fs root id (bundles id) suffixes s = (.ok m, s)

section

variable {fs : FileSystem} {root : Str} {bundles : Nat → Bundle} {s : Storage}

/-- **The invariant holds after every run.** -/
theorem kept_after (hfs : fs.Careful) (hfresh : Fresh fs.cwd root s) {history : List StoreEvent}
    (helse : ∀ change, .elsewhere change ∈ history → Elsewhere fs.cwd root change) :
    Kept fs.cwd root bundles (Prepared history)
      (StoreEvent.after fs root bundles s history) := by
  induction history using List.reverseRecOn with
  | nil => exact Kept.of_fresh hfresh
  | append_singleton history event ih =>
    have hkept := ih fun change h => helse change (List.mem_append_left _ h)
    unfold StoreEvent.after at hkept ⊢
    rw [List.foldl_append]
    cases event with
    | prepare id reported =>
      refine (hkept.prepare hfs id (extensionSuffixes reported)).1.mono fun id' hid => ?_
      rcases hid with rfl | ⟨reported', hmem⟩
      · exact ⟨reported, List.mem_append_right _ (List.mem_singleton_self _)⟩
      · exact ⟨reported', List.mem_append_left _ hmem⟩
    | elsewhere change =>
      have hchange := helse change (List.mem_append_right _ (List.mem_singleton_self _))
      refine (hkept.elsewhere hchange).mono fun id' ⟨reported, hmem⟩ => ?_
      exact ⟨reported, List.mem_append_left _ hmem⟩

namespace Recorded

variable {cwd : Location} {id : Nat} {bundle : Bundle} {m : MaterializedBundle} {d : Disk}

theorem origin {dir : Str} (h : Recorded cwd dir bundle m d) {path : Str}
    (hpath : path ∈ bundle.files) : ∃ origin path' bytes, m.sourceOrigin path = some origin ∧
      bundle.files[path']? = some bytes ∧ diskNames path' = diskNames path ∧
        d.read cwd origin = some bytes := by
  obtain ⟨bytes, hlast⟩ : ∃ bytes, lastWrite (writes bundle) (diskNames path) = some bytes := by
    rw [← Option.ne_none_iff_exists', ne_eq, lastWrite_eq_none_iff]
    rw [Std.ExtTreeMap.mem_iff_isSome_getElem?, Option.isSome_iff_exists] at hpath
    obtain ⟨bytes, hbytes⟩ := hpath
    exact fun hnone => hnone _ (List.mem_map.mpr ⟨_, mem_toList_files.mpr hbytes, rfl⟩) rfl
  obtain ⟨path', hpath', hnames⟩ := exists_of_lastWrite hlast
  refine ⟨onDisk dir path, path', bytes, ?_, hpath', hnames, h.read path bytes hlast⟩
  unfold MaterializedBundle.sourceOrigin
  rw [h.valid path hpath, h.root]
  rfl

/-- A file of the bundle is on the disk. -/
theorem node (h : Recorded cwd (bundleDir root id) bundle m d) {path : Str}
    (hpath : path ∈ bundle.files) :
    ∃ bytes, d.node (Disk.place cwd root ++ bundleName id :: diskNames path) =
      some (.file bytes) := by
  obtain ⟨origin, path', bytes, horigin, -, -, hread⟩ := h.origin hpath
  unfold MaterializedBundle.sourceOrigin at horigin
  rw [h.valid path hpath, h.root] at horigin
  obtain rfl : onDisk (bundleDir root id) path = origin := Option.some.inj horigin
  have hnode := (Disk.read_eq_some_iff.mp hread).2
  rw [place_onDisk_bundleDir (isName_of_valid (h.valid path hpath))] at hnode
  exact ⟨bytes, hnode⟩

end Recorded

/-- The parts of a name with dots between them lead from the directory of a bundle. -/
theorem splitOn_replace {dotted : Str} (h : '/' ∉ dotted) :
    (replace '.' '/' dotted).splitOn '/' = dotted.splitOn '.' := by
  induction dotted with
  | nil => rfl
  | cons c dotted ih =>
    rw [List.mem_cons, not_or] at h
    have hrest := ih h.2
    change ((if c = '.' then '/' else c) :: replace '.' '/' dotted).splitOn '/' = _
    rw [List.splitOn_cons_eq_if_modifyHead, List.splitOn_cons_eq_if_modifyHead, hrest]
    by_cases hdot : c = '.'
    · simp [hdot]
    · simp [hdot, Ne.symm h.1]

theorem slash_not_mem_dotted {dotted : Str} (h : validateDotted dotted = .ok ()) :
    '/' ∉ dotted := by
  intro hmem
  have hjoin : ['.'].intercalate (dotted.splitOn '.') = dotted := List.intercalate_splitOn '.'
  rw [← hjoin] at hmem
  rcases mem_intercalate hmem with hdot | ⟨component, hcomponent, hmem⟩
  · cases hdot
  · exact Bundles.not_mem_of_isIdentifier (Bundles.identifiers_of_valid h hcomponent) (by decide)
      hmem

theorem isName_of_isIdentifier {name : Str}
    (h : Bundles.BundleBuilder.isIdentifier name = true) : IsName name := by
  have hdot : '.' ∉ name := Bundles.not_mem_of_isIdentifier h (by decide)
  refine isName_iff.mpr ⟨Bundles.not_mem_of_isIdentifier h (by decide), ?_, ?_, ?_⟩
  · rintro rfl
    cases h
  · rintro rfl
    exact hdot (List.mem_singleton_self _)
  · rintro rfl
    exact hdot List.mem_cons_self

theorem Kept.package {prepared : Nat → Prop} (h : Kept fs.cwd root bundles prepared s) {id : Nat}
    {m : MaterializedBundle} (hm : s.bundles id = some m) {dotted : Str}
    (hdotted : validateDotted dotted = .ok ()) :
    (m.packagePath fs s.disk dotted).isSome = true ↔ ∃ path ∈ (bundles id).files,
      dotted.splitOn '.' <+: diskNames path ∧ dotted.splitOn '.' ≠ diskNames path := by
  have hrecorded := h.recorded id m hm
  have hsplit := splitOn_replace (slash_not_mem_dotted hdotted)
  have hnames : ∀ n ∈ (replace '.' '/' dotted).splitOn '/', IsName n := by
    rw [hsplit]
    exact fun n hn => isName_of_isIdentifier (Bundles.identifiers_of_valid hdotted hn)
  obtain ⟨hplain, hparts⟩ := components_of_names hnames
  have hcomponents : components (push m.root (replace '.' '/' dotted)) =
      components root ++ (bundleName id :: dotted.splitOn '.').map normal := by
    rw [components_push _ hplain, hparts, hsplit, hrecorded.root, components_bundleDir,
      List.append_assoc]
    rfl
  have hplace : Disk.place fs.cwd (push m.root (replace '.' '/' dotted)) =
      Disk.place fs.cwd root ++ bundleName id :: dotted.splitOn '.' := by
    unfold Disk.place
    rw [hcomponents, locate_append, locate_names]
  have hdir : (m.packagePath fs s.disk dotted).isSome = true ↔
      s.disk.hasDir fs.cwd (push m.root (replace '.' '/' dotted)) = true := by
    unfold MaterializedBundle.packagePath
    dsimp only
    split
    · rename_i hhas
      exact iff_of_true rfl hhas
    · rename_i hhas
      exact iff_of_false nofun hhas
  rw [hdir, Disk.hasDir_iff, hplace]
  constructor
  · rintro ⟨-, hnode⟩
    cases (h.owned id).grown _ _ hnode with
    | dir hpath hprefix hne => exact ⟨_, hpath, hprefix, hne⟩
  · rintro ⟨path, hpath, ⟨rest, hrest⟩, hne⟩
    obtain ⟨bytes, hnode⟩ := hrecorded.node hpath
    -- a file lies below each of the directories
    have hdirs : ∀ p, p <+: dotted.splitOn '.' →
        s.disk.node (Disk.place fs.cwd root ++ bundleName id :: p) = some .dir := by
      rintro p ⟨q, hq⟩
      have hbelow : q ++ rest ≠ [] := by
        intro hnil
        rw [(List.append_eq_nil_iff.mp hnil).2, List.append_nil] at hrest
        exact hne hrest
      refine Disk.dir_of_below hbelow ?_
      rw [List.append_assoc, List.cons_append, ← List.append_assoc p, hq, hrest, hnode]
      exact nofun
    refine ⟨fun l hl => ?_, hdirs _ (List.prefix_refl _)⟩
    rcases mem_way hcomponents hl with hway | ⟨p, hp, -, rfl⟩
    · exact h.way l hway
    · exact hdirs p hp

/-- **What has been prepared stays, and nothing else is in the store.** -/
theorem stored (hfs : fs.Careful) (hfresh : Fresh fs.cwd root s) {history : List StoreEvent}
    (helse : ∀ change, .elsewhere change ∈ history → Elsewhere fs.cwd root change) :
    Stored fs root bundles history (StoreEvent.after fs root bundles s history) := by
  have hkept : Kept fs.cwd root bundles (Prepared history)
      (StoreEvent.after fs root bundles s history) := kept_after hfs hfresh helse
  constructor
  · exact fun id m hm path hpath => (hkept.recorded id m hm).origin hpath
  · exact fun id m hm dotted hdotted => hkept.package hm hdotted
  · rintro l ⟨⟨names, rfl⟩, hne⟩ hnode
    obtain ⟨n, hn⟩ := Option.ne_none_iff_exists'.mp hnode
    have hnames : names ≠ [] := by
      rintro rfl
      exact hne (List.append_nil _)
    obtain ⟨id, below, hid, rfl, hgrown⟩ := hkept.tree names n hnames hn
    refine ⟨id, hid, ?_⟩
    cases hgrown with
    | dir hpath hprefix _ =>
      refine ⟨_, hpath, ?_⟩
      exact List.prefix_append_right_inj _ |>.mpr (List.cons_prefix_cons.mpr ⟨rfl, hprefix⟩)
    | file bytes hpath hnames =>
      subst hnames
      exact ⟨_, hpath, List.prefix_refl _⟩
  · exact fun id reported => (hkept.prepare hfs id (extensionSuffixes reported)).2
  · exact fun id m suffixes hm => materialize_of_registered hm

end

/-! ### A run -/

/-- The file that fills the disk. -/
def spool : Location := ["spool".toList]

/-- As long as the spool is there, files are made but nothing is written to them. -/
def full : FileSystem where
  cwd := []
  refuses r d :=
    match r with
    | .write _ _ => (d.node spool).isSome
    | _ => false
  failure r d :=
    match r with
    | .write path _ => ("no space left on device", (d.write [] path ⟨#[]⟩).getD d)
    | _ => ("the operation failed", d)

theorem careful_full : full.Careful := by
  intro r d
  cases r with
  | createDirAll path => exact fun l hl => absurd rfl hl
  | removeDirAll path => exact fun l hl => absurd rfl hl
  | write path bytes =>
    intro l hl
    change ((d.write [] path ⟨#[]⟩).getD d).node l ≠ d.node l at hl
    change _ ∧ _ ∧ ∃ bytes, ((d.write [] path ⟨#[]⟩).getD d).node l = some (.file bytes)
    cases hwrite : d.write [] path ⟨#[]⟩ with
    | none =>
      rw [hwrite] at hl
      exact absurd rfl hl
    | some d' =>
      rw [hwrite] at hl
      obtain ⟨-, hfree, hnode, hsame⟩ := Disk.write_spec hwrite
      have hplace : l = Disk.place [] path := by
        by_contra hne
        exact hl (hsame l hne)
      subst hplace
      exact ⟨rfl, hfree, _, hnode⟩

/-- The directory of a store and the spool. -/
def storage : Storage :=
  ⟨((Disk.empty.mkdir ["tmp".toList]).bind (Disk.put spool ⟨#[0]⟩)).getD Disk.empty, [],
    fun _ => none⟩

theorem fresh_storage : Fresh [] tmp storage := by
  have hsome : ((Disk.empty.mkdir ["tmp".toList]).bind (Disk.put spool ⟨#[0]⟩)).isSome = true := by
    decide +kernel
  obtain ⟨d, hd⟩ := Option.isSome_iff_exists.mp hsome
  obtain ⟨d₁, hmade, hput⟩ := Option.bind_eq_some_iff.mp hd
  obtain ⟨hdir, -, hsame₁⟩ := Disk.mkdir_spec hmade
  obtain ⟨-, -, hsame⟩ := Disk.put_spec hput
  have hdisk : storage.disk = d := by
    unfold storage
    rw [hd]
    rfl
  have hplace : Disk.place [] tmp = ["tmp".toList] := by decide +kernel
  have hway : trail [] (components tmp) = [[], ["tmp".toList]] := by decide +kernel
  have hhome : d.node ["tmp".toList] = some .dir := by rw [hsame _ (by decide), hdir]
  refine ⟨⟨fun l hl => ?_, ?_⟩, fun l hl => ?_, fun _ => rfl⟩
  · rw [hway] at hl
    rw [hdisk]
    rcases List.mem_cons.mp hl with rfl | hl
    · exact d.root
    · rw [List.mem_singleton.mp hl, hhome]
  · rw [hdisk, hplace, hhome]
  · rw [Below, hplace] at hl
    have hspool : l ≠ spool := by
      rintro rfl
      exact absurd hl.1 (by decide)
    rw [hdisk, hsame l hspool, hsame₁ l hl.2]
    refine if_neg ?_
    rintro rfl
    exact absurd hl.1 (by decide)

/-- Somebody takes the spool away. -/
def unspool (d : Disk) : Disk := d.remove spool (by decide)

theorem elsewhere_unspool : Elsewhere [] tmp unspool := by
  have hplace : Disk.place [] tmp = ["tmp".toList] := by decide +kernel
  have hway : trail [] (components tmp) = [[], ["tmp".toList]] := by decide +kernel
  intro d l hl
  have hspool : ¬ spool <+: l := by
    rw [hplace, hway] at hl
    rcases hl with ⟨names, rfl⟩ | hl
    · intro h
      exact absurd (List.cons_prefix_cons.mp h).1 (by decide)
    · rcases List.mem_cons.mp hl with rfl | hl
      · decide
      · rw [List.mem_singleton.mp hl]
        decide
  exact if_neg hspool

/-- Two bundles with the same files. The first one cannot be prepared while the disk is full. -/
def preparations : List StoreEvent :=
  [.prepare 1 [], .elsewhere unspool, .prepare 1 [], .prepare 2 []]

theorem stored_preparations :
    ((StoreEvent.after full tmp (fun _ => bundleOfCalls neighbours) storage
        [.prepare 1 []]).bundles 1).isSome = false ∧
      ((StoreEvent.after full tmp (fun _ => bundleOfCalls neighbours) storage
        preparations).bundles 1).isSome = true ∧
      Stored full tmp (fun _ => bundleOfCalls neighbours) preparations
        (StoreEvent.after full tmp (fun _ => bundleOfCalls neighbours) storage preparations) := by
  refine ⟨by decide +kernel, by decide +kernel, stored careful_full fresh_storage fun change h => ?_⟩
  rcases List.mem_cons.mp h with h | h
  · cases h
  rcases List.mem_cons.mp h with h | h
  · cases h
    exact elsewhere_unspool
  rcases List.mem_cons.mp h with h | h
  · cases h
  · cases List.mem_singleton.mp h

end GuestPy.Artifacts
