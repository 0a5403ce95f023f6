import GuestPy.Artifacts.Materialized
import GuestPy.Library.Writes

/-!
# The tree of a bundle

What is on disk once a bundle has been written below a directory.

* `Confined` says that nothing is written elsewhere, and holds of every bundle that can be written
  (`WroteAll.confined`).
* `Faithful` says that each file of the bundle has a place of its own, where its bytes are read.
  Paths with empty parts or dots in them may lead to one place (`WroteAll.read`), so this takes
  paths that are `Separate` (`tree_iff`).
-/

namespace GuestPy.Artifacts

open Bundles CPythonNativeExtensions Paths

variable {fs : FileSystem} {root : Str} {suffixes : List Str} {s s₁ s' : Storage}
  {files : List (Str × ByteArray)} {bundle : Bundle}

/-! ## A faithful tree -/

/-- A place strictly below a directory. -/
def Below (cwd : Location) (root : Str) (loc : Location) : Prop :=
  Disk.place cwd root <+: loc ∧ loc ≠ Disk.place cwd root

/-- Files are written strictly below the directory, and nothing is removed. -/
def Request.Within (cwd : Location) (root : Str) : Request → Prop
  | .createDirAll path => Disk.place cwd root <+: Disk.place cwd path
  | .write path _ => Below cwd root (Disk.place cwd path)
  | .removeDirAll _ => False

/-- Nothing happens outside the directory, but that it is created itself. -/
structure Confined (fs : FileSystem) (root : Str) (s s' : Storage) : Prop where
  requests : ∃ asked, s'.requests = s.requests ++ asked ∧ ∀ r ∈ asked, r.Within fs.cwd root
  elsewhere : ∀ loc, s'.disk.node loc ≠ s.disk.node loc → Below fs.cwd root loc ∨
    loc ∈ trail fs.cwd (Paths.components root) ∧ s.disk.node loc = none ∧
      s'.disk.node loc = some .dir

/-- The files of the bundle are on disk, each at a place of its own. -/
structure Faithful (fs : FileSystem) (root : Str) (bundle : Bundle) (s : Storage) : Prop where
  contents : ∀ (path : Str) (bytes : ByteArray), bundle.files[path]? = some bytes →
    s.disk.read fs.cwd (onDisk root path) = some bytes
  places : ∀ path ∈ bundle.files, ∀ path' ∈ bundle.files,
    Disk.place fs.cwd (onDisk root path) = Disk.place fs.cwd (onDisk root path') → path = path'

/-- Paths differ even without their empty parts and dots. -/
def Separate (bundle : Bundle) : Prop :=
  ∀ path ∈ bundle.files, ∀ path' ∈ bundle.files, diskNames path = diskNames path' → path = path'

instance (bundle : Bundle) : Decidable (Separate bundle) :=
  decidable_of_iff (∀ path ∈ bundle.files.keys, ∀ path' ∈ bundle.files.keys,
    diskNames path = diskNames path' → path = path')
    (by simp only [Std.ExtTreeMap.mem_keys, Separate])

/-! ## A file -/

namespace Wrote

variable {relative : Str} {contents : ByteArray}

theorem read (h : Wrote fs root relative contents s s') :
    s'.disk.read fs.cwd (onDisk root relative) = some contents := by
  obtain ⟨dir, disk, -, -, hwrite, -⟩ := h.steps
  exact Disk.read_of_write hwrite

/-- A file with other names stays. -/
theorem read_ne (h : Wrote fs root relative contents s s') {path : Str}
    (hpath : ∀ n ∈ diskNames path, IsName n) (hne : diskNames path ≠ diskNames relative)
    {bytes : ByteArray} (hread : s.disk.read fs.cwd (onDisk root path) = some bytes) :
    s'.disk.read fs.cwd (onDisk root path) = some bytes := by
  obtain ⟨dir, disk, -, hcreate, hwrite, -⟩ := h.steps
  refine Disk.read_of_write_ne hwrite ?_ ((Disk.createDirAll_spec hcreate).2.1.read hread)
  rw [place_onDisk fs.cwd root hpath, place_onDisk fs.cwd root h.names]
  exact fun heq => hne (List.append_cancel_left heq)

theorem below (h : Wrote fs root relative contents s s') :
    Below fs.cwd root (Disk.place fs.cwd (onDisk root relative)) := by
  rw [Below, place_onDisk fs.cwd root h.names]
  exact ⟨List.prefix_append _ _, fun heq => h.named (List.append_right_eq_self.mp heq)⟩

theorem confined (h : Wrote fs root relative contents s s') : Confined fs root s s' := by
  obtain ⟨dir, disk, hparent, hcreate, hwrite, hrequests⟩ := h.steps
  have hbelow := h.below
  obtain ⟨dir', hparent', hdir⟩ := parent_push_join root h.names h.named
  obtain rfl : dir' = dir := Option.some.inj (hparent'.symm.trans hparent)
  have hcomponents : ∀ n ∈ (diskNames relative).dropLast, IsName n := fun n hn =>
    h.names n (List.dropLast_subset _ hn)
  obtain ⟨hdirs, hgrows, hsame⟩ := Disk.createDirAll_spec hcreate
  obtain ⟨-, -, -, hsame'⟩ := Disk.write_spec hwrite
  rw [hdir, trail_append] at hdirs hsame
  refine ⟨⟨_, hrequests, ?_⟩, fun loc hloc => ?_⟩
  · simp only [List.mem_cons, List.not_mem_nil, or_false]
    rintro r (rfl | rfl)
    · change Disk.place fs.cwd root <+: Disk.place fs.cwd dir'
      rw [Disk.place, Disk.place, hdir, locate_append, locate_names]
      exact List.prefix_append _ _
    · exact hbelow
  · by_cases hfile : loc = Disk.place fs.cwd (onDisk root relative)
    · exact Or.inl (hfile ▸ hbelow)
    · rw [hsame' loc hfile] at hloc ⊢
      have hmem : loc ∈ trail fs.cwd (Paths.components root) ++
          trail (locate fs.cwd (Paths.components root))
            ((diskNames relative).dropLast.map .normal) := by
        by_contra hnot
        exact hloc (hsame loc hnot)
      rcases List.mem_append.mp hmem with hroot | hinner
      · refine Or.inr ⟨hroot, ?_, hdirs loc hmem⟩
        -- what was there before is still the same
        by_contra hsome
        obtain ⟨n, hn⟩ := Option.ne_none_iff_exists'.mp hsome
        exact hloc ((hgrows loc n hn).trans hn.symm)
      · exact Or.inl (below_of_mem_trail hinner)

end Wrote

/-! ## All files -/

theorem Confined.refl (fs : FileSystem) (root : Str) (s : Storage) : Confined fs root s s :=
  ⟨⟨[], by simp, nofun⟩, fun _ h => absurd rfl h⟩

theorem Confined.trans (h : Confined fs root s s₁) (h' : Confined fs root s₁ s') :
    Confined fs root s s' := by
  obtain ⟨asked, hasked, hwithin⟩ := h.requests
  obtain ⟨asked', hasked', hwithin'⟩ := h'.requests
  refine ⟨⟨asked ++ asked', by rw [hasked', hasked, List.append_assoc], fun r hr => ?_⟩,
    fun loc hloc => ?_⟩
  · rcases List.mem_append.mp hr with hr | hr
    · exact hwithin r hr
    · exact hwithin' r hr
  · by_cases hsecond : s'.disk.node loc = s₁.disk.node loc
    · rw [hsecond] at hloc ⊢
      exact h.elsewhere loc hloc
    · rcases h'.elsewhere loc hsecond with hbelow | ⟨hmem, hnone, hdir⟩
      · exact Or.inl hbelow
      · by_cases hfirst : s₁.disk.node loc = s.disk.node loc
        · exact Or.inr ⟨hmem, hfirst ▸ hnone, hdir⟩
        · rcases h.elsewhere loc hfirst with hbelow | ⟨-, -, hdir'⟩
          · exact Or.inl hbelow
          · rw [hnone] at hdir'
            cases hdir'

namespace WroteAll

/-- **Whatever can be written is confined.** -/
theorem confined (h : WroteAll fs root files s s') : Confined fs root s s' := by
  induction h with
  | nil s => exact Confined.refl fs root s
  | cons hfile _ ih => exact hfile.confined.trans ih

/-- **What is read is what was written last to the names, or was there before.** -/
theorem read (h : WroteAll fs root files s s') {path : Str}
    (hpath : ∀ n ∈ diskNames path, IsName n) {bytes : ByteArray}
    (hbytes : (lastWrite (files.map fun file => (diskNames file.1, file.2)) (diskNames path)).or
      (s.disk.read fs.cwd (onDisk root path)) = some bytes) :
    s'.disk.read fs.cwd (onDisk root path) = some bytes := by
  induction h with
  | nil s => exact hbytes
  | @cons relative contents files s s₁ s' hfile _ ih =>
    apply ih
    simp only [List.map_cons, lastWrite, Option.or_assoc] at hbytes
    rw [Option.or_eq_some_iff] at hbytes ⊢
    rcases hbytes with hlater | ⟨hnone, hhere⟩
    · exact Or.inl hlater
    · refine Or.inr ⟨hnone, ?_⟩
      by_cases hnames : diskNames relative = diskNames path
      · rw [if_pos hnames, Option.some_or, Option.some.injEq] at hhere
        rw [onDisk, ← hnames, ← hhere]
        exact hfile.read
      · rw [if_neg hnames, Option.none_or] at hhere
        exact hfile.read_ne hpath (Ne.symm hnames) hhere

end WroteAll

/-- Where paths are separate, no two files are written to the same names. -/
theorem Separate.functional (h : Separate bundle) :
    Functional (bundle.files.toList.map fun file => (diskNames file.1, file.2)) := by
  intro w hw w' hw' heq
  obtain ⟨⟨path, bytes⟩, hfile, rfl⟩ := List.mem_map.mp hw
  obtain ⟨⟨path', bytes'⟩, hfile', rfl⟩ := List.mem_map.mp hw'
  rw [mem_toList_files] at hfile hfile'
  have hmem : ∀ {p : Str} {b : ByteArray}, bundle.files[p]? = some b → p ∈ bundle.files := by
    intro p b hp
    rw [Std.ExtTreeMap.mem_iff_isSome_getElem?, hp]
    rfl
  obtain rfl := h path (hmem hfile) path' (hmem hfile') heq
  exact Option.some.inj (hfile.symm.trans hfile')

theorem faithful_iff_separate (h : WroteAll fs root bundle.files.toList s s') :
    Faithful fs root bundle s' ↔ Separate bundle := by
  have hnames : ∀ path ∈ bundle.files, ∀ n ∈ diskNames path, IsName n := by
    intro path hpath
    rw [Std.ExtTreeMap.mem_iff_isSome_getElem?, Option.isSome_iff_exists] at hpath
    obtain ⟨bytes, hbytes⟩ := hpath
    exact h.names _ (mem_toList_files.mpr hbytes)
  constructor
  · intro hfaithful path hpath path' hpath' heq
    refine hfaithful.places path hpath path' hpath' ?_
    rw [onDisk, onDisk, heq]
  · intro hseparate
    refine ⟨fun path bytes hbytes => ?_, fun path hpath path' hpath' heq => ?_⟩
    · have hmem := mem_toList_files.mpr hbytes
      have hlast := (lastWrite_eq_some_iff_mem hseparate.functional).mpr
        (List.mem_map.mpr ⟨_, hmem, rfl⟩)
      exact h.read (h.names _ hmem) (by rw [hlast, Option.some_or])
    · rw [place_onDisk fs.cwd root (hnames path hpath),
        place_onDisk fs.cwd root (hnames path' hpath')] at heq
      exact hseparate path hpath path' hpath' (List.append_cancel_left heq)

/-- A tree is confined and faithful exactly if no two paths are the same without their empty parts
and dots. -/
theorem tree_iff {m : MaterializedBundle}
    (h : writeBundle fs root bundle suffixes s = (.ok m, s')) :
    Confined fs root s s' ∧ Faithful fs root bundle s' ↔ Separate bundle := by
  obtain ⟨hall, -⟩ := writeBundle_spec h
  rw [faithful_iff_separate hall]
  exact and_iff_right hall.confined

/-- Two files in a directory. -/
def neighbours : List Call :=
  [.data "a/b".toList ⟨#[1]⟩, .data "a/c".toList ⟨#[2]⟩]

theorem tree_neighbours : ∃ m s',
    writeBundle faultless tmp (bundleOfCalls neighbours) [] blank = (.ok m, s') ∧
      Confined faultless tmp blank s' ∧ Faithful faultless tmp (bundleOfCalls neighbours) s' := by
  have hok : isOk (writeBundle faultless tmp (bundleOfCalls neighbours) []) blank = true := by
    decide +kernel
  obtain ⟨m, s', hwritten⟩ := exists_of_isOk hok
  exact ⟨m, s', hwritten, (tree_iff hwritten).mpr (by decide +kernel)⟩

/-- Two paths that differ in an empty part only. -/
def doubled : List Call :=
  [.data "a/b".toList ⟨#[1]⟩, .data "a//b".toList ⟨#[2]⟩]

/-- Both files are written to one place. -/
theorem not_faithful_doubled : ¬ ∀ (fs : FileSystem) (root : Str) (bundle : Bundle)
    (suffixes : List Str) (s s' : Storage) (m : MaterializedBundle), Accepted bundle →
      writeBundle fs root bundle suffixes s = (.ok m, s') →
        Confined fs root s s' ∧ Faithful fs root bundle s' := by
  intro h
  have hok : isOk (writeBundle faultless tmp (bundleOfCalls doubled) []) blank = true := by
    decide +kernel
  obtain ⟨m, s', hwritten⟩ := exists_of_isOk hok
  obtain ⟨-, hfaithful⟩ := h _ _ _ _ _ _ _ ⟨doubled, rfl⟩ hwritten
  have hplaces := hfaithful.places "a/b".toList (by decide +kernel) "a//b".toList
    (by decide +kernel) (by decide +kernel)
  exact absurd hplaces (by decide)

end GuestPy.Artifacts
