import GuestPy.Artifacts.Materialized

/-!
# Which artifact a name gets

Several files may map to one name, with suffixes of which some are more specific. The loader tries
the longest first, but `write_bundle` keeps the last file in the order of paths.

* `path_eq_of_rank`: the files of one name differ in their suffixes.
* `Selects` says that the file with the first suffix is selected, and what is listed besides.
* `selection_iff`: this takes a bundle in which the first suffix is on the last file.
-/

namespace GuestPy.Artifacts

open Bundles BundleBuilder CPythonNativeExtensions

variable {fs : FileSystem} {root : Str} {reported suffixes : List Str} {s s' : Storage}
  {bundle : Bundle} {m : MaterializedBundle} {name path path' : Str} {bytes bytes' : ByteArray}

/-! ## The file of a name -/

/-- A file with a supported suffix that maps to a name. -/
structure Candidate (suffixes : List Str) (bundle : Bundle) (name path : Str) (bytes : ByteArray) :
    Prop where
  file : bundle.files[path]? = some bytes
  named : compatibleName path suffixes = some name

/-- The file of a name whose suffix comes first. -/
structure Preferred (suffixes : List Str) (bundle : Bundle) (name path : Str) (bytes : ByteArray) :
    Prop extends Candidate suffixes bundle name path bytes where
  first : ∀ path' bytes', Candidate suffixes bundle name path' bytes' →
    rank suffixes path ≤ rank suffixes path'

/-- No suffix that is reported, and that a file of the name ends in, is longer than that of the
path. -/
def Longest (reported : List Str) (bundle : Bundle) (name path : Str) : Prop :=
  ∃ suffix ∈ reported, suffix <:+ path ∧ ∀ path' bytes',
    Candidate (extensionSuffixes reported) bundle name path' bytes' →
      ∀ t ∈ reported, t <:+ path' → byteLength t ≤ byteLength suffix

/-- A file with a native ending whose parts are identifiers, but without a supported suffix, is
listed under its name. The file name counts up to its first dot. -/
def Lists (reported : List Str) (bundle : Bundle) (m : MaterializedBundle) : Prop :=
  ∀ (dirs : List Str) (basename rest ending : Str), ending ∈ nativeEndings →
    (∀ l ∈ dirs ++ [basename], isIdentifier l = true) → '/' ∉ rest → IsExtension rest →
      ['/'].intercalate (dirs ++ [basename ++ rest]) ++ ending ∈ bundle.files →
        (∀ t ∈ reported, ¬ t <:+ ['/'].intercalate (dirs ++ [basename ++ rest]) ++ ending) →
          ∃ paths, m.incompatible[['.'].intercalate (dirs ++ [basename])]? = some paths ∧
            ['/'].intercalate (dirs ++ [basename ++ rest]) ++ ending ∈ paths

/-- What `names` yields. -/
def Names (suffixes : List Str) (bundle : Bundle) (m : MaterializedBundle) : Prop :=
  m.names.Nodup ∧ ∀ name, name ∈ m.names ↔
    ∃ path ∈ bundle.files, logicalName suffixes path = some name

/-- The most specific suffix decides, and nothing is missing. -/
structure Selects (reported : List Str) (bundle : Bundle) (m : MaterializedBundle) : Prop where
  selected : ∀ name path bytes, Candidate (extensionSuffixes reported) bundle name path bytes →
    ∃ path' bytes', Preferred (extensionSuffixes reported) bundle name path' bytes' ∧
      Longest reported bundle name path' ∧ m.modules[name]? = some (artifact m.root path' bytes')
  listed : Lists reported bundle m
  names : Names (extensionSuffixes reported) bundle m

/-- The last file of a name in the order of paths. -/
structure Last (suffixes : List Str) (bundle : Bundle) (name path : Str) (bytes : ByteArray) :
    Prop where
  named : compatibleName path suffixes = some name
  last : ∃ before after, bundle.files.toList = before ++ (path, bytes) :: after ∧
    ∀ file ∈ after, compatibleName file.1 suffixes ≠ some name

/-- Of the files of a name, the last is the one with the first suffix, or does not differ from
it. -/
def LastIsPreferred (suffixes : List Str) (bundle : Bundle) : Prop :=
  ∀ name path bytes path' bytes', Preferred suffixes bundle name path bytes →
    Last suffixes bundle name path' bytes' → diskNames path' = diskNames path ∧ bytes' = bytes

/-! ## Files of a name -/

/-- A name tells the identifiers that it consists of. -/
theorem eq_of_intercalate {ls ls' : List Str} (hne : ls ≠ []) (hne' : ls' ≠ [])
    (h : ∀ l ∈ ls, isIdentifier l = true) (h' : ∀ l ∈ ls', isIdentifier l = true)
    (heq : ['.'].intercalate ls = ['.'].intercalate ls') : ls = ls' := by
  have hsplit : (['.'].intercalate ls).splitOn '.' = ls :=
    List.splitOn_intercalate '.' (fun l hl => dot_not_mem (h l hl)) hne
  have hsplit' : (['.'].intercalate ls').splitOn '.' = ls' :=
    List.splitOn_intercalate '.' (fun l hl => dot_not_mem (h' l hl)) hne'
  rw [← hsplit, heq, hsplit']

/-- **Files of one name differ in their suffixes.** -/
theorem path_eq_of_rank (h : compatibleName path suffixes = some name)
    (h' : compatibleName path' suffixes = some name)
    (hrank : rank suffixes path = rank suffixes path') : path = path' := by
  obtain ⟨suffix, dirs, basename, hfind, hpath, hidentifiers, hname⟩ :=
    compatibleName_eq_some_iff.mp h
  obtain ⟨suffix', dirs', basename', hfind', hpath', hidentifiers', hname'⟩ :=
    compatibleName_eq_some_iff.mp h'
  have hsuffix := getElem?_rank hfind
  rw [hrank, getElem?_rank hfind', Option.some.injEq] at hsuffix
  have hparts : dirs ++ [basename] = dirs' ++ [basename'] :=
    eq_of_intercalate (by simp) (by simp) hidentifiers hidentifiers' (hname ▸ hname')
  rw [hpath, hpath', hsuffix, hparts]

theorem Preferred.unique (h : Preferred suffixes bundle name path bytes)
    (h' : Preferred suffixes bundle name path' bytes') : path = path' ∧ bytes = bytes' := by
  have hrank := Nat.le_antisymm (h.first path' bytes' h'.toCandidate)
    (h'.first path bytes h.toCandidate)
  obtain rfl := path_eq_of_rank h.named h'.named hrank
  exact ⟨rfl, Option.some.inj (h.file.symm.trans h'.file)⟩

theorem Candidate.exists_preferred (h : Candidate suffixes bundle name path bytes) :
    ∃ path' bytes', Preferred suffixes bundle name path' bytes' := by
  classical
  let IsRank (k : Nat) : Prop := ∃ path bytes, Candidate suffixes bundle name path bytes ∧
    rank suffixes path = k
  have hsome : ∃ k, IsRank k := ⟨_, path, bytes, h, rfl⟩
  obtain ⟨path', bytes', hcandidate, hrank⟩ := Nat.find_spec hsome
  refine ⟨path', bytes', hcandidate, fun path'' bytes'' hcandidate' => ?_⟩
  rw [hrank]
  exact Nat.find_min' hsome ⟨path'', bytes'', hcandidate', rfl⟩

/-- The file with the first suffix has the longest. -/
theorem Preferred.longest (h : Preferred (extensionSuffixes reported) bundle name path bytes) :
    Longest reported bundle name path := by
  obtain ⟨suffix, -, -, hfind, -⟩ := compatibleName_eq_some_iff.mp h.named
  obtain ⟨hmem, hsuffix⟩ := suffix_of_find? hfind
  refine ⟨suffix, mem_extensionSuffixes.mp hmem, hsuffix,
    fun path' bytes' hcandidate t ht hend => ?_⟩
  obtain ⟨suffix', -, -, hfind', -⟩ := compatibleName_eq_some_iff.mp hcandidate.named
  have hfirst : AtLeastAsLong suffix suffix' :=
    atLeastAsLong_of_rank (extensionSuffixes_pairwise reported) (getElem?_rank hfind)
      (getElem?_rank hfind') (h.first path' bytes' hcandidate)
  exact (longest_of_find? hfind' ht (List.isSuffixOf_iff_suffix.mpr hend)).trans hfirst

/-! ## What is written -/

/-- What is selected is what the last file left. -/
theorem modules_eq_some_iff (h : writeBundle fs root bundle suffixes s = (.ok m, s'))
    {v : Extensions.NativeArtifact} :
    m.modules[name]? = some v ↔
      ∃ path bytes, Last suffixes bundle name path bytes ∧ v = artifact root path bytes := by
  obtain ⟨-, rfl⟩ := writeBundle_spec h
  dsimp only
  rw [modules_recordAll, Std.ExtTreeMap.getElem?_empty, Option.or_none,
    lastWrite_filterMap_eq_some_iff]
  have hwrite : ∀ file w, moduleWrite suffixes root file = some w ↔
      compatibleName file.1 suffixes = some w.1 ∧ w.2 = artifact root file.1 file.2 := by
    intro file w
    unfold moduleWrite
    cases compatibleName file.1 suffixes <;> simp [Prod.ext_iff, eq_comm]
  simp only [hwrite]
  constructor
  · rintro ⟨before, ⟨path, bytes⟩, after, hfiles, ⟨hnamed, rfl⟩, hafter⟩
    exact ⟨path, bytes, ⟨hnamed, before, after, hfiles, fun file hfile hname =>
      hafter file hfile ⟨name, _⟩ ⟨hname, rfl⟩ rfl⟩, rfl⟩
  · rintro ⟨path, bytes, ⟨hnamed, before, after, hfiles, hafter⟩, rfl⟩
    exact ⟨before, ⟨path, bytes⟩, after, hfiles, ⟨hnamed, rfl⟩, fun file hfile w hw hname =>
      hafter file hfile (hname ▸ hw.1)⟩

theorem Candidate.exists_last (h : writeBundle fs root bundle suffixes s = (.ok m, s'))
    (hc : Candidate suffixes bundle name path bytes) :
    ∃ path' bytes', Last suffixes bundle name path' bytes' := by
  have hmem : name ∈ m.modules := by
    obtain ⟨-, rfl⟩ := writeBundle_spec h
    exact mem_modules_recordAll.mpr ⟨_, mem_toList_files.mpr hc.file, hc.named⟩
  rw [Std.ExtTreeMap.mem_iff_isSome_getElem?, Option.isSome_iff_exists] at hmem
  obtain ⟨v, hv⟩ := hmem
  obtain ⟨path', bytes', hlast, -⟩ := (modules_eq_some_iff h).mp hv
  exact ⟨path', bytes', hlast⟩

theorem Last.mem (h : Last suffixes bundle name path bytes) :
    (path, bytes) ∈ bundle.files.toList := by
  obtain ⟨before, after, hfiles, -⟩ := h.last
  simp [hfiles]

/-- **Whatever cannot be loaded is listed.** -/
theorem lists_of_written
    (h : writeBundle fs root bundle (extensionSuffixes reported) s = (.ok m, s')) :
    Lists reported bundle m := by
  obtain ⟨-, rfl⟩ := writeBundle_spec h
  intro dirs basename rest ending hending hidentifiers hslash hrest hfile hsuffixes
  have hcompatible : compatibleName (['/'].intercalate (dirs ++ [basename ++ rest]) ++ ending)
      (extensionSuffixes reported) = none := by
    rw [Option.eq_none_iff_forall_ne_some]
    intro name hname
    obtain ⟨suffix, -, -, hfind, -⟩ := compatibleName_eq_some_iff.mp hname
    obtain ⟨hmem, hend⟩ := suffix_of_find? hfind
    exact hsuffixes suffix (mem_extensionSuffixes.mp hmem) hend
  have hincompatible : incompatibleName (['/'].intercalate (dirs ++ [basename ++ rest]) ++ ending) =
      some (['.'].intercalate (dirs ++ [basename])) := by
    rw [incompatibleName_eq, stripEnding_eq_some_iff.mpr ⟨ending, hending, rfl⟩]
    exact cutName_eq_some_iff.mpr ⟨dirs, basename, rest, rfl, hslash, hrest, hidentifiers, rfl⟩
  have hmem : ['/'].intercalate (dirs ++ [basename ++ rest]) ++ ending ∈
      incompatibleFiles (extensionSuffixes reported) bundle.files.toList
        (['.'].intercalate (dirs ++ [basename])) := by
    refine List.mem_filter.mpr ⟨?_, by simp [hcompatible, hincompatible]⟩
    rwa [Std.ExtTreeMap.map_fst_toList_eq_keys, Std.ExtTreeMap.mem_keys]
  refine ⟨_, ?_, hmem⟩
  rw [incompatible_recordAll, if_neg (List.ne_nil_of_mem hmem), Std.ExtTreeMap.getElem?_empty]
  rfl

section

variable (h : writeBundle fs root bundle (extensionSuffixes reported) s = (.ok m, s'))

include h

theorem artifact_eq_iff (hpath : (path, bytes) ∈ bundle.files.toList)
    (hpath' : (path', bytes') ∈ bundle.files.toList) :
    artifact m.root path bytes = artifact m.root path' bytes' ↔
      diskNames path = diskNames path' ∧ bytes = bytes' := by
  obtain ⟨hall, -⟩ := writeBundle_spec h
  exact artifact_inj (hall.names _ hpath) (hall.names _ hpath')

theorem selected_last (hlast : Last (extensionSuffixes reported) bundle name path bytes) :
    m.modules[name]? = some (artifact m.root path bytes) := by
  obtain ⟨-, hm⟩ := writeBundle_spec h
  have hroot : m.root = root := by rw [hm]
  rw [hroot]
  exact (modules_eq_some_iff h).mpr ⟨path, bytes, hlast, rfl⟩

theorem lastIsPreferred_of_selects (hselects : Selects reported bundle m) :
    LastIsPreferred (extensionSuffixes reported) bundle := by
  intro name path bytes path' bytes' hpreferred hlast
  obtain ⟨path₁, bytes₁, hpreferred₁, -, hselected⟩ :=
    hselects.selected name path bytes hpreferred.toCandidate
  obtain ⟨rfl, rfl⟩ := hpreferred.unique hpreferred₁
  rw [selected_last h hlast, Option.some.injEq] at hselected
  exact (artifact_eq_iff h hlast.mem (mem_toList_files.mpr hpreferred.file)).mp hselected

theorem selects_of_lastIsPreferred
    (hcond : LastIsPreferred (extensionSuffixes reported) bundle) :
    Selects reported bundle m := by
  refine ⟨fun name path bytes hcandidate => ?_, lists_of_written h, nodup_names m,
    fun name => mem_names_iff h⟩
  obtain ⟨path₁, bytes₁, hpreferred⟩ := hcandidate.exists_preferred
  obtain ⟨path', bytes', hlast⟩ := hcandidate.exists_last h
  have hsame := hcond name path₁ bytes₁ path' bytes' hpreferred hlast
  refine ⟨path₁, bytes₁, hpreferred, hpreferred.longest, ?_⟩
  rw [selected_last h hlast, Option.some.injEq]
  exact (artifact_eq_iff h hlast.mem (mem_toList_files.mpr hpreferred.file)).mpr hsame

/-- The most specific suffix decides exactly if it is, for each name, on the last file. -/
theorem selection_iff :
    Selects reported bundle m ↔ LastIsPreferred (extensionSuffixes reported) bundle :=
  ⟨lastIsPreferred_of_selects h, selects_of_lastIsPreferred h⟩

end

/-- It is enough that among the files of a name the suffixes never get shorter. -/
theorem lastIsPreferred_of_pairwise (h : bundle.files.toList.Pairwise fun file file' =>
    compatibleName file.1 suffixes = compatibleName file'.1 suffixes →
      compatibleName file.1 suffixes ≠ none → rank suffixes file'.1 ≤ rank suffixes file.1) :
    LastIsPreferred suffixes bundle := by
  intro name path bytes path' bytes' hpreferred hlast
  obtain ⟨before, after, hfiles, hafter⟩ := hlast.last
  have hcandidate : Candidate suffixes bundle name path' bytes' :=
    ⟨mem_toList_files.mp hlast.mem, hlast.named⟩
  have hmem := mem_toList_files.mpr hpreferred.file
  rw [hfiles] at h hmem
  rcases List.mem_append.mp hmem with hbefore | hmem
  · -- the preferred file comes before the last one, so the last has no longer a suffix
    have hrank := (List.pairwise_append.mp h).2.2 _ hbefore _ List.mem_cons_self
      (hpreferred.named.trans hlast.named.symm) (by rw [hpreferred.named]; exact nofun)
    have hsame := path_eq_of_rank hpreferred.named hlast.named
      (Nat.le_antisymm (hpreferred.first path' bytes' hcandidate) hrank)
    subst hsame
    exact ⟨rfl, Option.some.inj (hcandidate.file.symm.trans hpreferred.file)⟩
  · rcases List.mem_cons.mp hmem with hsame | hlater
    · cases hsame
      exact ⟨rfl, rfl⟩
    · exact absurd hpreferred.named (hafter _ hlater)

/-! ## Examples of bundles -/

/-- Of the two files of one name, the one for one version of the interpreter comes last. -/
def taggedLast : List Call :=
  [.package "plugin".toList "", .data "plugin/native.abi3.so".toList ⟨#[1]⟩,
    .data "plugin/native.cpython-312-x86_64-linux-gnu.so".toList ⟨#[2]⟩,
    .data "plugin/legacy.pyd".toList ⟨#[3]⟩]

theorem selects_taggedLast : ∃ m s',
    writeBundle faultless tmp (bundleOfCalls taggedLast) (extensionSuffixes linuxSuffixes) blank =
      (.ok m, s') ∧ Selects linuxSuffixes (bundleOfCalls taggedLast) m := by
  have hok : isOk (writeBundle faultless tmp (bundleOfCalls taggedLast)
      (extensionSuffixes linuxSuffixes)) blank = true := by decide +kernel
  obtain ⟨m, s', hwritten⟩ := exists_of_isOk hok
  exact ⟨m, s', hwritten,
    (selection_iff hwritten).mpr (lastIsPreferred_of_pairwise (by decide +kernel))⟩

/-- An extension for one version of the interpreter, and one that says nothing of versions. -/
def twoBuilds : List Call :=
  [.package "plugin".toList "",
    .data "plugin/native.cpython-312-x86_64-linux-gnu.so".toList ⟨#[1]⟩,
    .data "plugin/native.so".toList ⟨#[2]⟩]

/-- The file with the shorter suffix comes later, and is selected. -/
theorem not_selects_twoBuilds : ¬ ∀ (fs : FileSystem) (root : Str) (bundle : Bundle)
    (reported : List Str) (s s' : Storage) (m : MaterializedBundle), Accepted bundle →
      writeBundle fs root bundle (extensionSuffixes reported) s = (.ok m, s') →
        Selects reported bundle m := by
  intro h
  have hok : isOk (writeBundle faultless tmp (bundleOfCalls twoBuilds)
      (extensionSuffixes linuxSuffixes)) blank = true := by decide +kernel
  obtain ⟨m, s', hwritten⟩ := exists_of_isOk hok
  have hcond := lastIsPreferred_of_selects hwritten (h _ _ _ _ _ _ _ ⟨twoBuilds, rfl⟩ hwritten)
  have hrank : rank (extensionSuffixes linuxSuffixes)
      "plugin/native.cpython-312-x86_64-linux-gnu.so".toList = 0 := by decide +kernel
  have hpreferred : Preferred (extensionSuffixes linuxSuffixes) (bundleOfCalls twoBuilds)
      "plugin.native".toList "plugin/native.cpython-312-x86_64-linux-gnu.so".toList ⟨#[1]⟩ :=
    ⟨⟨by decide +kernel, by decide +kernel⟩, fun _ _ _ => by rw [hrank]; exact Nat.zero_le _⟩
  have hlast : Last (extensionSuffixes linuxSuffixes) (bundleOfCalls twoBuilds)
      "plugin.native".toList "plugin/native.so".toList ⟨#[2]⟩ :=
    ⟨by decide +kernel, (bundleOfCalls twoBuilds).files.toList.dropLast, [], by decide +kernel,
      nofun⟩
  obtain ⟨hnames, -⟩ := hcond _ _ _ _ _ hpreferred hlast
  exact absurd hnames (by decide +kernel)

end GuestPy.Artifacts
