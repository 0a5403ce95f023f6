import GuestPy.Library.Paths

/-!
# A file system

A tree of directories and files, without links, in which names that differ are different names.

* `createDirAll`, `write`, `read` and `removeDirAll` follow a path. They fail where a directory on
  the way is missing, or where there is a file in its place.
* `read_of_write`: what has been written is read, and `read_of_write_ne` says that other files stay.
* `createDirAll_spec` and `write_spec` say what changes.
-/

namespace GuestPy

open Paths

inductive Node where
  | dir
  | file (bytes : ByteArray)
  deriving DecidableEq

/-- What is at each place. Whatever there is lies in a directory. -/
structure Disk where
  node : Location → Option Node
  root : node [] = some .dir
  closed : ∀ loc name, node (loc ++ [name]) ≠ none → node loc = some .dir

namespace Disk

/-- The root and nothing else. -/
def empty : Disk where
  node loc := if loc = [] then some .dir else none
  root := rfl
  closed loc name h := absurd (if_neg (by simp)) h

def isDir (d : Disk) (loc : Location) : Bool := decide (d.node loc = some .dir)

/-- Puts something in a directory, and not in the place of one. -/
def set (d : Disk) (loc : Location) (n : Node) (hparent : d.node loc.dropLast = some .dir)
    (hfree : d.node loc ≠ some .dir) : Disk where
  node := Function.update d.node loc (some n)
  root := by
    have hne : loc ≠ [] := fun heq => hfree (heq ▸ d.root)
    rw [Function.update_of_ne hne.symm, d.root]
  closed := by
    intro l name h
    by_cases hl : l = loc
    · subst hl
      rw [Function.update_of_ne (by simp)] at h
      exact absurd (d.closed l name h) hfree
    · rw [Function.update_of_ne hl]
      by_cases hchild : l ++ [name] = loc
      · subst hchild
        rwa [List.dropLast_concat] at hparent
      · rw [Function.update_of_ne hchild] at h
        exact d.closed l name h

def mkdir (loc : Location) (d : Disk) : Option Disk :=
  if d.node loc = some .dir then some d
  else if h : d.node loc = none ∧ d.node loc.dropLast = some .dir then
    some (d.set loc .dir h.2 (by rw [h.1]; exact nofun))
  else none

def put (loc : Location) (bytes : ByteArray) (d : Disk) : Option Disk :=
  if h : d.node loc.dropLast = some .dir ∧ d.node loc ≠ some .dir then
    some (d.set loc (.file bytes) h.1 h.2)
  else none

/-- Takes out what is at a place other than the root, or below it. -/
def remove (d : Disk) (loc : Location) (h : loc ≠ []) : Disk where
  node l := if loc <+: l then none else d.node l
  root := by rw [if_neg (by simpa using h), d.root]
  closed l name hl := by
    by_cases hbelow : loc <+: l ++ [name]
    · exact absurd (if_pos hbelow) hl
    · rw [if_neg hbelow] at hl
      rw [if_neg fun h => hbelow (h.trans (List.prefix_append _ _))]
      exact d.closed l name hl

/-! ## Following a path -/

def createDirs (ls : List Location) (d : Disk) : Option Disk := ls.foldlM (fun d l => d.mkdir l) d

/-- The directories on the way to a path. -/
def way (cwd : Location) (path : Text) : List Location := trail cwd (components path).dropLast

/-- Where a path leads. -/
def place (cwd : Location) (path : Text) : Location := locate cwd (components path)

/-- The path leads through directories, and may be the path of a file. -/
def leads (cwd : Location) (path : Text) (d : Disk) : Bool :=
  endsInName path && (way cwd path).all d.isDir

/-- `fs::create_dir_all`. -/
def createDirAll (cwd : Location) (path : Text) (d : Disk) : Option Disk :=
  if path = [] then some d else d.createDirs (trail cwd (components path))

/-- `fs::write`. -/
def write (cwd : Location) (path : Text) (bytes : ByteArray) (d : Disk) : Option Disk :=
  if d.leads cwd path then d.put (place cwd path) bytes else none

/-- `fs::read`. -/
def read (cwd : Location) (path : Text) (d : Disk) : Option ByteArray :=
  if d.leads cwd path then
    match d.node (place cwd path) with
    | some (.file bytes) => some bytes
    | _ => none
  else none

/-- `Path::is_dir`. -/
def hasDir (cwd : Location) (path : Text) (d : Disk) : Bool :=
  (way cwd path).all d.isDir && d.isDir (place cwd path)

/-- `fs::remove_dir_all`. -/
def removeDirAll (cwd : Location) (path : Text) (d : Disk) : Option Disk :=
  if h : d.node (place cwd path) = some .dir ∧ place cwd path ≠ [] then
    some (d.remove (place cwd path) h.2)
  else none

/-! ## What changes -/

variable {d d' : Disk} {cwd loc : Location} {path path' : Text} {bytes bytes' : ByteArray}

/-- What there was is still there. -/
def Grows (d d' : Disk) : Prop := ∀ l n, d.node l = some n → d'.node l = some n

theorem Grows.refl (d : Disk) : Grows d d := fun _ _ h => h

theorem Grows.trans {d'' : Disk} (h : Grows d d') (h' : Grows d' d'') : Grows d d'' :=
  fun l n hl => h' l n (h l n hl)

theorem mkdir_spec (h : d.mkdir loc = some d') :
    d'.node loc = some .dir ∧ Grows d d' ∧ ∀ l, l ≠ loc → d'.node l = d.node l := by
  unfold mkdir at h
  split at h
  · rename_i hdir
    cases h
    exact ⟨hdir, Grows.refl d, fun _ _ => rfl⟩
  · split at h
    · rename_i hfree
      cases h
      refine ⟨Function.update_self .., fun l n hl => ?_, fun l hl => Function.update_of_ne hl ..⟩
      have hne : l ≠ loc := by
        rintro rfl
        rw [hfree.1] at hl
        cases hl
      exact (Function.update_of_ne hne ..).trans hl
    · cases h

theorem put_spec (h : d.put loc bytes = some d') :
    d.node loc ≠ some .dir ∧ d'.node loc = some (.file bytes) ∧
      ∀ l, l ≠ loc → d'.node l = d.node l := by
  unfold put at h
  split at h
  · rename_i hfree
    cases h
    exact ⟨hfree.2, Function.update_self .., fun l hl => Function.update_of_ne hl ..⟩
  · cases h

theorem createDirs_spec {ls : List Location} (h : d.createDirs ls = some d') :
    (∀ l ∈ ls, d'.node l = some .dir) ∧ Grows d d' ∧ ∀ l, l ∉ ls → d'.node l = d.node l := by
  induction ls generalizing d with
  | nil =>
    cases h
    exact ⟨nofun, Grows.refl _, fun _ _ => rfl⟩
  | cons l ls ih =>
    obtain ⟨d₁, hmkdir, hrest⟩ := Option.bind_eq_some_iff.mp h
    obtain ⟨hdir, hgrows, hsame⟩ := mkdir_spec hmkdir
    obtain ⟨hdirs, hgrows', hsame'⟩ := ih hrest
    refine ⟨fun x hx => ?_, hgrows.trans hgrows', fun x hx => ?_⟩
    · rcases List.mem_cons.mp hx with rfl | hx
      · exact hgrows' x .dir hdir
      · exact hdirs x hx
    · rw [List.mem_cons, not_or] at hx
      rw [hsame' x hx.2, hsame x hx.1]

theorem createDirAll_spec (h : d.createDirAll cwd path = some d') :
    (∀ l ∈ trail cwd (components path), d'.node l = some .dir) ∧ Grows d d' ∧
      ∀ l, l ∉ trail cwd (components path) → d'.node l = d.node l := by
  unfold createDirAll at h
  split at h
  · rename_i hpath
    cases h
    subst hpath
    exact ⟨nofun, Grows.refl _, fun _ _ => rfl⟩
  · exact createDirs_spec h

theorem write_spec (h : d.write cwd path bytes = some d') :
    d.leads cwd path = true ∧ d.node (place cwd path) ≠ some .dir ∧
      d'.node (place cwd path) = some (.file bytes) ∧
        ∀ l, l ≠ place cwd path → d'.node l = d.node l := by
  unfold write at h
  split at h
  · rename_i hleads
    exact ⟨hleads, put_spec h⟩
  · cases h

theorem removeDirAll_below (h : d.removeDirAll cwd path = some d') {l : Location}
    (hl : place cwd path <+: l) : d'.node l = none := by
  unfold removeDirAll at h
  split at h
  · cases h
    exact if_pos hl
  · cases h

theorem removeDirAll_ne (h : d.removeDirAll cwd path = some d') {l : Location}
    (hl : ¬ place cwd path <+: l) : d'.node l = d.node l := by
  unfold removeDirAll at h
  split at h
  · cases h
    exact if_neg hl
  · cases h

/-! ## Reading -/

theorem read_eq_some_iff :
    d.read cwd path = some bytes ↔
      d.leads cwd path = true ∧ d.node (place cwd path) = some (.file bytes) := by
  unfold read
  split
  · rename_i hleads
    split
    · rename_i heq
      simp [hleads, heq]
    · rename_i hne
      constructor
      · exact nofun
      · rintro ⟨-, heq⟩
        exact absurd heq (hne bytes)
  · rename_i hleads
    simp [hleads]

theorem leads_mono (hdirs : ∀ l, d.node l = some .dir → d'.node l = some .dir)
    (h : d.leads cwd path = true) : d'.leads cwd path = true := by
  unfold leads isDir at h ⊢
  simp only [Bool.and_eq_true, List.all_eq_true, decide_eq_true_eq] at h ⊢
  exact ⟨h.1, fun l hl => hdirs l (h.2 l hl)⟩

/-- A file stays where directories are created. -/
theorem Grows.read (h : Grows d d') (hread : d.read cwd path = some bytes) :
    d'.read cwd path = some bytes := by
  rw [read_eq_some_iff] at hread ⊢
  exact ⟨leads_mono (fun l hl => h l _ hl) hread.1, h _ _ hread.2⟩

/-- A file stays while nothing happens to it and to the directories on the way. -/
theorem read_of_same (hway : ∀ l ∈ way cwd path, d.node l = some .dir → d'.node l = some .dir)
    (hplace : d'.node (place cwd path) = d.node (place cwd path))
    (h : d.read cwd path = some bytes) : d'.read cwd path = some bytes := by
  rw [read_eq_some_iff] at h ⊢
  refine ⟨?_, hplace.trans h.2⟩
  have hleads := h.1
  unfold leads isDir at hleads ⊢
  simp only [Bool.and_eq_true, List.all_eq_true, decide_eq_true_eq] at hleads ⊢
  exact ⟨hleads.1, fun l hl => hway l hl (hleads.2 l hl)⟩

theorem hasDir_iff :
    d.hasDir cwd path = true ↔
      (∀ l ∈ way cwd path, d.node l = some .dir) ∧ d.node (place cwd path) = some .dir := by
  simp only [hasDir, isDir, Bool.and_eq_true, List.all_eq_true, decide_eq_true_eq]

/-- What lies below a place lies in a directory there. -/
theorem dir_of_below {names : List Text} (hne : names ≠ []) (h : d.node (loc ++ names) ≠ none) :
    d.node loc = some .dir := by
  induction names using List.reverseRecOn with
  | nil => exact absurd rfl hne
  | append_singleton names n ih =>
    rw [← List.append_assoc] at h
    have hdir := d.closed _ _ h
    by_cases hnil : names = []
    · rwa [hnil, List.append_nil] at hdir
    · exact ih hnil (by rw [hdir]; exact nofun)

theorem dirs_of_write (h : d.write cwd path bytes = some d') :
    ∀ l, d.node l = some .dir → d'.node l = some .dir := by
  obtain ⟨-, hfree, -, hsame⟩ := write_spec h
  intro l hl
  have hne : l ≠ place cwd path := by
    rintro rfl
    exact hfree hl
  rw [hsame l hne, hl]

/-- **What has been written is read.** -/
theorem read_of_write (h : d.write cwd path bytes = some d') : d'.read cwd path = some bytes := by
  obtain ⟨hleads, -, hfile, -⟩ := write_spec h
  exact read_eq_some_iff.mpr ⟨leads_mono (dirs_of_write h) hleads, hfile⟩

/-- **A file elsewhere stays.** -/
theorem read_of_write_ne (h : d.write cwd path bytes = some d')
    (hne : place cwd path' ≠ place cwd path) (hread : d.read cwd path' = some bytes') :
    d'.read cwd path' = some bytes' := by
  obtain ⟨-, -, -, hsame⟩ := write_spec h
  rw [read_eq_some_iff] at hread ⊢
  exact ⟨leads_mono (dirs_of_write h) hread.1, (hsame _ hne).trans hread.2⟩

end Disk

end GuestPy
