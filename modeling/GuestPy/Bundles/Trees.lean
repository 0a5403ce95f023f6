import GuestPy.Bundles.Entries

/-!
# Bundles of directories

`from_dir`, which reads a directory with a stack of the directories still to be read, and
`from_embedded`, which recurses into an embedded one.

* `Reorder` relates the listings of a directory, which differ in the order of entries at any depth.
* `fromEmbedded_eq` and `fromDir_eq` say that either inserts the files of a listing in its order:
  of the listing it is given, and of a listing with the files first, last name first
  (`arrangeAll`).
-/

namespace GuestPy.Bundles

open BundleBuilder Results

/-! ## Directory trees -/

inductive Entry where
  | file (name : Str) (contents : ByteArray)
  | dir (name : Str) (entries : List Entry)

namespace Entry

def name : Entry → Str
  | .file name _ => name
  | .dir name _ => name

def isDir : Entry → Bool
  | .file _ _ => false
  | .dir _ _ => true

end Entry

mutual

def Entry.WellFormed : Entry → Prop
  | .file name _ => name ≠ [] ∧ '/' ∉ name
  | .dir name entries =>
    (name ≠ [] ∧ '/' ∉ name) ∧ (entries.map Entry.name).Nodup ∧ AllWellFormed entries

def AllWellFormed : List Entry → Prop
  | [] => True
  | e :: es => e.WellFormed ∧ AllWellFormed es

end

/-- A directory, in some listing. The root is the name of its path, if that is UTF-8. -/
structure Tree where
  path : Str
  root : Option Str
  entries : List Entry
  root_ne : root ≠ some []
  distinct : (entries.map Entry.name).Nodup
  wellFormed : AllWellFormed entries

def joinPath (relative name : Str) : Str := if relative = [] then name else relative ++ '/' :: name

mutual

def Entry.files (relative : Str) : Entry → List FileEntry
  | .file name contents => [(joinPath relative name, contents)]
  | .dir name entries => filesOf (joinPath relative name) entries

/-- The files below a directory, in the order of the listing. -/
def filesOf (relative : Str) : List Entry → List FileEntry
  | [] => []
  | e :: es => e.files relative ++ filesOf relative es

end

theorem filesOf_eq (relative : Str) (es : List Entry) :
    filesOf relative es = es.flatMap (Entry.files relative) := by
  induction es with
  | nil => rfl
  | cons e es ih => rw [filesOf, ih, List.flatMap_cons]

theorem filesOf_append (relative : Str) (es es' : List Entry) :
    filesOf relative (es ++ es') = filesOf relative es ++ filesOf relative es' := by
  simp [filesOf_eq]

def initFile : Str := initName ++ pySuffix

/-! ## Embedded directories -/

/-- Entries of `include_dir`, with their paths below the embedded directory. -/
inductive DirEntry where
  | dir (path : Str) (entries : List DirEntry)
  | file (path : Str) (contents : ByteArray)

mutual

def Entry.embed (relative : Str) : Entry → DirEntry
  | .file name contents => .file (joinPath relative name) contents
  | .dir name entries => .dir (joinPath relative name) (embedAll (joinPath relative name) entries)

def embedAll (relative : Str) : List Entry → List DirEntry
  | [] => []
  | e :: es => e.embed relative :: embedAll relative es

end

def fileName (path : Str) : Option Str := (path.splitOn '/').getLast?

def DirEntry.isInit : DirEntry → Bool
  | .file path _ => fileName path = some initFile
  | .dir _ _ => false

def normalizedPath (start : Option Str) (path : Str) : Str :=
  match start with
  | some start => start ++ '/' :: path
  | none => path

mutual

def insertEmbedded (start : Option Str) : DirEntry → BundleBuilder → Except Err BundleBuilder
  | .dir _ entries, b => insertEmbeddedDir start entries b
  | .file path contents, b =>
    insertEntry (normalizedPath start path, contents) b

def insertEmbeddedDir (start : Option Str) :
    List DirEntry → BundleBuilder → Except Err BundleBuilder
  | [], b => .ok b
  | e :: es, b => do
    let b ← insertEmbedded start e b
    insertEmbeddedDir start es b

end

def fromEmbedded (root : Option Str) (entries : List DirEntry) : Except Err Bundle :=
  match root with
  | none => .error (.bundle "<embedded>" "path has no UTF-8 name")
  | some root => do
    let b ← insertEmbeddedDir (if entries.any DirEntry.isInit then some root else none) entries {}
    b.build

/-! ## Directories on disk -/

mutual

def Entry.dirs : Entry → Nat
  | .file _ _ => 0
  | .dir _ entries => dirsOf entries + 1

def dirsOf : List Entry → Nat
  | [] => 0
  | e :: es => e.dirs + dirsOf es

end

theorem dirsOf_eq (es : List Entry) : dirsOf es = (es.map Entry.dirs).sum := by
  induction es with
  | nil => rfl
  | cons e es ih => rw [dirsOf, ih, List.map_cons, List.sum_cons]

/-- Directories still to be read, the next one first, with their relative paths. -/
abbrev Directories := List (List Entry × Str)

/-- How many directories are still to be read, and to be found. -/
def Directories.left (directories : Directories) : Nat :=
  (directories.map fun d => dirsOf d.1 + 1).sum

def sortByName (es : List Entry) : List Entry := es.insertionSort fun e e' => e.name ≤ e'.name

/-- The loop over the children of a directory. -/
def visit (relative : Str) :
    List Entry → Directories → BundleBuilder → Except Err (Directories × BundleBuilder)
  | [], directories, b => .ok (directories, b)
  | .dir name entries :: children, directories, b =>
    visit relative children ((entries, joinPath relative name) :: directories) b
  | .file name contents :: children, directories, b => do
    let b ← insertEntry (joinPath relative name, contents) b
    visit relative children directories b

theorem visit_left {relative : Str} {children : List Entry} {directories directories' : Directories}
    {b b' : BundleBuilder} (h : visit relative children directories b = .ok (directories', b')) :
    directories'.left = directories.left + dirsOf children := by
  induction children generalizing directories b with
  | nil =>
    cases h
    rfl
  | cons e children ih =>
    cases e with
    | dir name entries =>
      rw [ih h]
      simp only [Directories.left, List.map_cons, List.sum_cons, dirsOf, Entry.dirs]
      omega
    | file name contents =>
      obtain ⟨b₁, -, h⟩ := bind_eq_ok.mp h
      rw [ih h]
      simp only [dirsOf, Entry.dirs]
      omega

theorem dirsOf_children (es : List Entry) : dirsOf (sortByName es).reverse = dirsOf es := by
  rw [dirsOf_eq, dirsOf_eq]
  exact (((List.reverse_perm _).trans (List.perm_insertionSort _ _)).map _).sum_eq

/-- The loop over the directories. -/
def readDirs (directories : Directories) (b : BundleBuilder) : Except Err BundleBuilder :=
  match directories with
  | [] => .ok b
  | (entries, relative) :: rest =>
    match _h : visit relative (sortByName entries).reverse rest b with
    | .error e => .error e
    | .ok (directories, b) => readDirs directories b
termination_by directories.left
decreasing_by
  have hleft := visit_left _h
  rw [dirsOf_children] at hleft
  simp only [Directories.left, List.map_cons, List.sum_cons] at hleft ⊢
  omega

def fromDir (path : Str) (root : Option Str) (entries : List Entry) : Except Err Bundle :=
  match root with
  | none => .error (.bundle (String.ofList path) "path has no UTF-8 name")
  | some root => do
    let start := if entries.any (·.name = initFile) then root else []
    let b ← readDirs [(entries, start)] {}
    b.build

/-! ## Listings -/

/-- The same entries in another order, at any depth. -/
inductive Reorder : List Entry → List Entry → Prop where
  | nil : Reorder [] []
  | cons (e : Entry) {es es' : List Entry} (h : Reorder es es') : Reorder (e :: es) (e :: es')
  | dir (name : Str) {ds ds' es es' : List Entry} (hd : Reorder ds ds') (h : Reorder es es') :
    Reorder (.dir name ds :: es) (.dir name ds' :: es')
  | swap (e e' : Entry) (es : List Entry) : Reorder (e :: e' :: es) (e' :: e :: es)
  | trans {es es' es'' : List Entry} (h : Reorder es es') (h' : Reorder es' es'') : Reorder es es''

namespace Reorder

theorem refl (es : List Entry) : Reorder es es := by
  induction es with
  | nil => exact .nil
  | cons e es ih => exact .cons e ih

theorem of_perm {es es' : List Entry} (h : es.Perm es') : Reorder es es' := by
  induction h with
  | nil => exact .nil
  | cons e _ ih => exact .cons e ih
  | swap e e' es => exact .swap _ _ _
  | trans _ _ ih ih' => exact ih.trans ih'

/-- Listings have the same files. -/
theorem files_perm {es es' : List Entry} (h : Reorder es es') (relative : Str) :
    (filesOf relative es).Perm (filesOf relative es') := by
  induction h generalizing relative with
  | nil => exact .nil
  | cons e _ ih => exact (ih relative).append_left _
  | dir name _ _ ihd ih => exact (ihd _).append (ih relative)
  | swap e e' es =>
    simp only [filesOf, ← List.append_assoc]
    exact List.perm_append_comm.append_right _
  | trans _ _ ih ih' => exact (ih relative).trans (ih' relative)

/-- Listings have the same names, of files and of directories. -/
theorem heads_perm {es es' : List Entry} (h : Reorder es es') :
    (es.map fun e => (e.isDir, e.name)).Perm (es'.map fun e => (e.isDir, e.name)) := by
  induction h with
  | nil => exact .nil
  | cons e _ ih => exact ih.cons _
  | dir name _ _ _ ih => exact ih.cons _
  | swap e e' es => exact .swap _ _ _
  | trans _ _ ih ih' => exact ih.trans ih'

theorem has_iff {es es' : List Entry} (h : Reorder es es') (isDir : Bool) (name : Str) :
    (∃ e ∈ es, e.isDir = isDir ∧ e.name = name) ↔ ∃ e ∈ es', e.isDir = isDir ∧ e.name = name := by
  have hmem := h.heads_perm.mem_iff (a := (isDir, name))
  simpa only [List.mem_map, Prod.mk.injEq] using hmem

end Reorder

mutual

/-- Some listing has the file last. -/
theorem Entry.exists_last : ∀ (entry : Entry) (relative : Str) (e : FileEntry),
    e ∈ entry.files relative → ∃ entry' before,
      (∀ es es', Reorder es es' → Reorder (entry :: es) (entry' :: es')) ∧
        entry'.files relative = before ++ [e]
  | .file name contents, relative, e, he => by
    rw [Entry.files, List.mem_singleton] at he
    subst he
    exact ⟨.file name contents, [], fun _ _ h => .cons _ h, rfl⟩
  | .dir name ds, relative, e, he => by
    obtain ⟨ds', before, hd, hlast⟩ := exists_last ds (joinPath relative name) e he
    exact ⟨.dir name ds', before, fun _ _ h => .dir name hd h, hlast⟩

theorem exists_last : ∀ (es : List Entry) (relative : Str) (e : FileEntry),
    e ∈ filesOf relative es → ∃ es' before, Reorder es es' ∧ filesOf relative es' = before ++ [e]
  | [], _, _, he => by cases he
  | entry :: es, relative, e, he => by
    rw [filesOf, List.mem_append] at he
    rcases he with he | he
    · obtain ⟨entry', before, hd, hlast⟩ := Entry.exists_last entry relative e he
      refine ⟨es ++ [entry'], filesOf relative es ++ before, ?_, ?_⟩
      · exact (hd es es (.refl es)).trans (.of_perm (List.perm_append_singleton _ _).symm)
      · simp [filesOf_append, filesOf, hlast]
    · obtain ⟨es', before, h, hlast⟩ := exists_last es relative e he
      refine ⟨entry :: es', entry.files relative ++ before, .cons entry h, ?_⟩
      simp [filesOf, hlast]

end

/-! ## The order of `from_embedded` -/

mutual

theorem insertEmbedded_eq (start : Option Str) : ∀ (entry : Entry) (relative : Str)
    (b : BundleBuilder), insertEmbedded start (entry.embed relative) b =
      insertAll ((entry.files relative).map fun e => (normalizedPath start e.1, e.2)) b
  | .file name contents, relative, b => by
    simp [Entry.embed, insertEmbedded, Entry.files, insertAll]
  | .dir name ds, relative, b => insertEmbeddedDir_eq start ds (joinPath relative name) b

theorem insertEmbeddedDir_eq (start : Option Str) : ∀ (es : List Entry) (relative : Str)
    (b : BundleBuilder), insertEmbeddedDir start (embedAll relative es) b =
      insertAll ((filesOf relative es).map fun e => (normalizedPath start e.1, e.2)) b
  | [], _, _ => rfl
  | entry :: es, relative, b => by
    rw [embedAll, insertEmbeddedDir, insertEmbedded_eq start entry relative b, filesOf,
      List.map_append, insertAll_append]
    refine congrArg _ (funext fun b' => ?_)
    exact insertEmbeddedDir_eq start es relative b'

end

/-- A relative path below a start. -/
def below (start relative : Str) : Str := if relative = [] then start else start ++ '/' :: relative

theorem joinPath_below {start name : Str} (hstart : start ≠ []) (relative : Str) :
    joinPath (below start relative) name = start ++ '/' :: joinPath relative name := by
  by_cases hrelative : relative = []
  · simp [joinPath, below, hrelative, hstart]
  · simp [joinPath, below, hrelative]

theorem joinPath_ne_nil {relative name : Str} (h : name ≠ []) : joinPath relative name ≠ [] := by
  unfold joinPath
  split
  · exact h
  · simp

mutual

theorem Entry.files_below {start : Str} (hstart : start ≠ []) : ∀ (entry : Entry),
    entry.WellFormed → ∀ relative : Str,
      ((entry.files relative).map fun e => (start ++ '/' :: e.1, e.2)) =
        entry.files (below start relative)
  | .file name contents, _, relative => by
    simp [Entry.files, joinPath_below hstart]
  | .dir name ds, h, relative => by
    have hname : joinPath relative name ≠ [] := joinPath_ne_nil h.1.1
    rw [Entry.files, filesOf_below hstart ds h.2.2, Entry.files, joinPath_below hstart, below,
      if_neg hname]

theorem filesOf_below {start : Str} (hstart : start ≠ []) : ∀ (es : List Entry),
    AllWellFormed es → ∀ relative : Str,
      ((filesOf relative es).map fun e => (start ++ '/' :: e.1, e.2)) =
        filesOf (below start relative) es
  | [], _, _ => rfl
  | entry :: es, h, relative => by
    rw [filesOf, List.map_append, Entry.files_below hstart entry h.1, filesOf_below hstart es h.2,
      filesOf]

end

/-- The files of a tree that starts at `start`. -/
theorem filesOf_start {start : Str} (hstart : start ≠ []) {es : List Entry}
    (h : AllWellFormed es) :
    ((filesOf [] es).map fun e => (start ++ '/' :: e.1, e.2)) = filesOf start es :=
  filesOf_below hstart es h []

theorem mem_filesOf_start {start : Str} (hstart : start ≠ []) {es : List Entry}
    (h : AllWellFormed es) {e : FileEntry} (he : e ∈ filesOf [] es) :
    (start ++ '/' :: e.1, e.2) ∈ filesOf start es := by
  rw [← filesOf_start hstart h]
  exact List.mem_map_of_mem he

/-! ## The order of `from_dir` -/

/-- Files first, last name first, and then directories. -/
def arrange (es : List Entry) : List Entry :=
  (sortByName es).reverse.filter (!·.isDir) ++ (sortByName es).filter (·.isDir)

mutual

def Entry.arrangeAll : Entry → Entry
  | .file name contents => .file name contents
  | .dir name entries => .dir name (arrange (arrangeEach entries))

def arrangeEach : List Entry → List Entry
  | [] => []
  | e :: es => e.arrangeAll :: arrangeEach es

end

/-- The listing that `from_dir` follows. -/
def arrangeAll (es : List Entry) : List Entry := arrange (arrangeEach es)

theorem arrangeEach_eq (es : List Entry) : arrangeEach es = es.map Entry.arrangeAll := by
  induction es with
  | nil => rfl
  | cons e es ih => rw [arrangeEach, ih, List.map_cons]

@[simp] theorem Entry.isDir_arrangeAll (e : Entry) : e.arrangeAll.isDir = e.isDir := by
  cases e <;> rfl

@[simp] theorem Entry.name_arrangeAll (e : Entry) : e.arrangeAll.name = e.name := by
  cases e <;> rfl

theorem reorder_arrange (es : List Entry) : Reorder es (arrange es) := by
  refine .of_perm ?_
  have hsort := (List.perm_insertionSort (fun e e' : Entry => e.name ≤ e'.name) es).symm
  have hsplit := List.filter_append_perm (·.isDir) (sortByName es)
  refine (hsort.trans hsplit.symm).trans (List.perm_append_comm.trans ?_)
  exact ((List.reverse_perm _).symm.filter _).append_right _

mutual

theorem Entry.reorder_arrangeAll : ∀ (entry : Entry) {es es' : List Entry}, Reorder es es' →
    Reorder (entry :: es) (entry.arrangeAll :: es')
  | .file _ _, _, _, h => .cons _ h
  | .dir name ds, _, _, h => .dir name ((reorder_arrangeEach ds).trans (reorder_arrange _)) h

theorem reorder_arrangeEach : ∀ es : List Entry, Reorder es (arrangeEach es)
  | [] => .nil
  | entry :: es => Entry.reorder_arrangeAll entry (reorder_arrangeEach es)

end

theorem reorder_arrangeAll (es : List Entry) : Reorder es (arrangeAll es) :=
  (reorder_arrangeEach es).trans (reorder_arrange _)

theorem sortByName_arrangeEach (es : List Entry) :
    sortByName (arrangeEach es) = (sortByName es).map Entry.arrangeAll := by
  rw [arrangeEach_eq]
  refine (List.map_insertionSort (fun e e' => e.name ≤ e'.name) (fun e e' => e.name ≤ e'.name)
    Entry.arrangeAll _ ?_).symm
  simp

/-- The directories among the children, with their paths. -/
def directoriesOf (relative : Str) (children : List Entry) : Directories :=
  children.filterMap fun
    | .dir name entries => some (entries, joinPath relative name)
    | .file _ _ => none

theorem visit_eq (relative : Str) (children : List Entry) (directories : Directories)
    (b : BundleBuilder) :
    visit relative children directories b = do
      let b ← insertAll (filesOf relative (children.filter (!·.isDir))) b
      return ((directoriesOf relative children).reverse ++ directories, b) := by
  induction children generalizing directories b with
  | nil => rfl
  | cons e children ih =>
    cases e with
    | dir name entries =>
      rw [visit, ih]
      simp [directoriesOf, Entry.isDir]
    | file name contents =>
      rw [visit]
      simp only [ih, directoriesOf, Entry.isDir, Bool.not_false, List.filter_cons_of_pos, filesOf,
        Entry.files, insertAll_append, bind_assoc]
      simp [insertAll]

/-- What is still to be inserted, directory by directory. -/
def pending (directories : Directories) : List FileEntry :=
  directories.flatMap fun d => filesOf d.2 (arrangeAll d.1)

theorem pending_directoriesOf (relative : Str) (children : List Entry) :
    pending (directoriesOf relative children) =
      filesOf relative ((children.filter (·.isDir)).map Entry.arrangeAll) := by
  induction children with
  | nil => rfl
  | cons e children ih =>
    cases e with
    | dir name entries =>
      simp only [directoriesOf, pending, Entry.isDir, List.filter_cons_of_pos, List.map_cons,
        filesOf, List.filterMap_cons, List.flatMap_cons, Entry.arrangeAll, Entry.files] at ih ⊢
      rw [ih]
      rfl
    | file name contents => exact ih

theorem pending_cons (entries : List Entry) (relative : Str) (rest : Directories) :
    pending ((entries, relative) :: rest) =
      filesOf relative ((sortByName entries).reverse.filter (!·.isDir)) ++
        pending ((directoriesOf relative (sortByName entries).reverse).reverse ++ rest) := by
  have hfiles : (((sortByName entries).map Entry.arrangeAll).reverse.filter (!·.isDir)) =
      (sortByName entries).reverse.filter (!·.isDir) := by
    rw [← List.map_reverse, List.filter_map]
    have hsame : ∀ e ∈ (sortByName entries).reverse.filter (!·.isDir),
        e.arrangeAll = id e := by
      intro e he
      cases e with
      | file name contents => rfl
      | dir name ds => simp [Entry.isDir] at he
    simpa [Function.comp_def] using List.map_congr_left hsame
  have hdirs : pending (directoriesOf relative (sortByName entries)) =
      filesOf relative (((sortByName entries).map Entry.arrangeAll).filter (·.isDir)) := by
    rw [pending_directoriesOf, List.filter_map]
    simp [Function.comp_def]
  have hreverse : (directoriesOf relative (sortByName entries).reverse).reverse =
      directoriesOf relative (sortByName entries) := by
    simp [directoriesOf, List.filterMap_reverse]
  rw [hreverse]
  simp only [pending, List.flatMap_cons, List.flatMap_append] at hdirs ⊢
  rw [hdirs, arrangeAll, arrange, sortByName_arrangeEach, hfiles, filesOf_append,
    List.append_assoc]

theorem readDirs_eq (directories : Directories) (b : BundleBuilder) :
    readDirs directories b = insertAll (pending directories) b := by
  induction directories, b using readDirs.induct with
  | case1 b =>
    rw [readDirs]
    rfl
  | case2 b entries relative rest e h =>
    rw [readDirs, pending_cons, insertAll_append]
    split
    · rename_i e' h'
      rw [visit_eq] at h'
      cases hfiles : insertAll
          (filesOf relative ((sortByName entries).reverse.filter (!·.isDir))) b with
      | error e'' =>
        rw [hfiles] at h'
        cases h'
        rfl
      | ok b' =>
        rw [hfiles] at h'
        cases h'
    · rename_i h'
      rw [h'] at h
      cases h
  | case3 b entries relative rest directories b' h ih =>
    rw [readDirs, pending_cons, insertAll_append]
    split
    · rename_i h'
      rw [h'] at h
      cases h
    · rename_i directories' b'' h'
      rw [h] at h'
      cases h'
      rw [visit_eq] at h
      obtain ⟨b₁, hfiles, h⟩ := bind_eq_ok.mp h
      cases h
      rw [ih, hfiles, ok_bind]

/-- `from_dir` inserts the files of the arranged listing. -/
theorem fromDir_eq (path root : Str) (es : List Entry) :
    fromDir path (some root) es =
      bundleOf (filesOf (if es.any (·.name = initFile) then root else []) (arrangeAll es)) := by
  simp only [fromDir, readDirs_eq, pending, List.flatMap_cons, List.flatMap_nil, List.append_nil]
  rfl

theorem fileName_joinPath {name : Str} (h : '/' ∉ name) : fileName (joinPath [] name) = some name := by
  simp [fileName, joinPath, splitOn_of_not_mem h]

theorem any_isInit {es : List Entry} (h : AllWellFormed es) :
    (embedAll [] es).any DirEntry.isInit = es.any fun e => !e.isDir && e.name = initFile := by
  induction es with
  | nil => rfl
  | cons e es ih =>
    rw [embedAll, List.any_cons, List.any_cons, ih h.2]
    congr 1
    cases e with
    | dir name ds => rfl
    | file name contents =>
      have hname := fileName_joinPath h.1.2
      by_cases hinit : name = initFile
      · subst hinit
        simp [Entry.embed, DirEntry.isInit, Entry.isDir, Entry.name, hname]
      · simp [Entry.embed, DirEntry.isInit, Entry.isDir, Entry.name, hname, hinit]

/-- `from_embedded` inserts the files in the order of the listing. -/
theorem fromEmbedded_eq {root : Str} (hroot : root ≠ []) {es : List Entry} (h : AllWellFormed es) :
    fromEmbedded (some root) (embedAll [] es) =
      bundleOf (filesOf (if es.any fun e => !e.isDir && e.name = initFile then root else []) es) := by
  simp only [fromEmbedded, any_isInit h, insertEmbeddedDir_eq]
  split
  · have hbelow := filesOf_below hroot es h []
    simp only [below, if_true] at hbelow
    simp only [normalizedPath, hbelow]
    rfl
  · simp only [normalizedPath, Prod.eta, List.map_id']
    rfl

end GuestPy.Bundles
