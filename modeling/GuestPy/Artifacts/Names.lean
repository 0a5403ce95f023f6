import GuestPy.Bundles.Entries
import GuestPy.Library.Paths

/-!
# Names of native extensions

The module names that the files of a bundle have as native extensions. On CPython a path has the
name of what stands before a supported suffix; otherwise, and on other backends, the name is cut at
the first dot of the file name.

* `compatibleName_eq_some_iff` and `cutName_eq_some_iff` say which paths have which names.
* `extensionSuffixes_pairwise`: the suffixes that CPython tries first are the longest.
* `logicalName_eq_claim`: where the suffixes are ordinary ones, both rules give the same names.
-/

namespace GuestPy.Artifacts

open Bundles BundleBuilder DottedName

/-! ## Endings -/

/-- `str::strip_suffix`. -/
def stripSuffix (ending path : Str) : Option Str :=
  if ending.isSuffixOf path then some (path.take (path.length - ending.length)) else none

def nativeEndings : List Str := [".so".toList, ".pyd".toList, ".dylib".toList]

def stripEnding (path : Str) : Option Str := nativeEndings.findSome? (stripSuffix · path)

/-- The name of components that are all identifiers. -/
def moduleName (parts : List Str) (basename : Str) : Option Str :=
  if (parts ++ [basename]).all isIdentifier then some (['.'].intercalate (parts ++ [basename]))
  else none

/-- The name of a path without its ending, where the file name is cut at its first dot. -/
def cutName (stripped : Str) : Option Str := do
  let parts := stripped.splitOn '/'
  let filename ← parts.getLast?
  moduleName parts.dropLast (head filename)

/-- `str::len`, which counts bytes. -/
def byteLength (s : Str) : Nat := (s.map Char.utf8Size).sum

/-- The order of `Reverse` of the lengths. -/
def AtLeastAsLong (s t : Str) : Prop := byteLength t ≤ byteLength s

instance : DecidableRel AtLeastAsLong := fun _ _ => inferInstanceAs (Decidable (_ ≤ _))

instance : Std.Total AtLeastAsLong := ⟨fun s t => Nat.le_total (byteLength t) (byteLength s)⟩

instance : IsTrans Str AtLeastAsLong := ⟨fun _ _ _ h h' => Nat.le_trans h' h⟩

namespace CPythonNativeExtensions

/-- `extension_suffixes`, of those that `importlib.machinery` reports. The sort is stable. -/
def extensionSuffixes (reported : List Str) : List Str :=
  (reported.insertionSort AtLeastAsLong).destutter (· ≠ ·)

def nativeEnding (path : Str) : Bool := nativeEndings.any (·.isSuffixOf path)

def compatibleName (path : Str) (suffixes : List Str) : Option Str := do
  let suffix ← suffixes.find? (·.isSuffixOf path)
  let stripped := path.take (path.length - suffix.length)
  let parts := stripped.splitOn '/'
  let basename ← parts.getLast?
  moduleName parts.dropLast basename

def incompatibleName (path : Str) : Option Str :=
  if !nativeEnding path then none else stripEnding path >>= cutName

end CPythonNativeExtensions

def UnsupportedNativeExtensions.claim (path : Str) : Option Str :=
  stripEnding (normalize path) >>= cutName

open CPythonNativeExtensions UnsupportedNativeExtensions

/-! ## Which paths have names -/

theorem stripSuffix_eq_some_iff {ending path stripped : Str} :
    stripSuffix ending path = some stripped ↔ path = stripped ++ ending := by
  unfold stripSuffix
  rw [Option.ite_none_right_eq_some, Option.some.injEq, List.isSuffixOf_iff_suffix]
  constructor
  · rintro ⟨⟨before, rfl⟩, rfl⟩
    simp
  · rintro rfl
    exact ⟨List.suffix_append _ _, by simp⟩

/-- The endings differ in their last characters. -/
theorem eq_of_append_ending {ending ending' stripped stripped' : Str}
    (h : ending ∈ nativeEndings) (h' : ending' ∈ nativeEndings)
    (heq : stripped ++ ending = stripped' ++ ending') : ending = ending' := by
  have hlast : ending.getLast? = ending'.getLast? := by
    have hne : ∀ e ∈ nativeEndings, e ≠ [] := by decide
    have hends := congrArg List.getLast? heq
    rwa [List.getLast?_append_of_ne_nil _ (hne _ h),
      List.getLast?_append_of_ne_nil _ (hne _ h')] at hends
  have hdiffer : ∀ e ∈ nativeEndings, ∀ e' ∈ nativeEndings, e.getLast? = e'.getLast? → e = e' := by
    decide
  exact hdiffer _ h _ h' hlast

theorem stripEnding_eq_some_iff {path stripped : Str} :
    stripEnding path = some stripped ↔ ∃ ending ∈ nativeEndings, path = stripped ++ ending := by
  unfold stripEnding
  constructor
  · intro h
    obtain ⟨ending, hending, hsome⟩ := List.exists_of_findSome?_eq_some h
    exact ⟨ending, hending, stripSuffix_eq_some_iff.mp hsome⟩
  · rintro ⟨ending, hending, hpath⟩
    cases hfind : nativeEndings.findSome? (stripSuffix · path) with
    | none =>
      have hnone := List.findSome?_eq_none_iff.mp hfind ending hending
      rw [stripSuffix_eq_some_iff.mpr hpath] at hnone
      cases hnone
    | some stripped' =>
      obtain ⟨ending', hending', hsome⟩ := List.exists_of_findSome?_eq_some hfind
      have hpath' := stripSuffix_eq_some_iff.mp hsome
      rw [hpath] at hpath'
      obtain rfl := eq_of_append_ending hending hending' hpath'
      rw [List.append_cancel_right hpath']

theorem moduleName_eq_some_iff {parts : List Str} {basename name : Str} :
    moduleName parts basename = some name ↔
      (∀ l ∈ parts ++ [basename], isIdentifier l = true) ∧
        name = ['.'].intercalate (parts ++ [basename]) := by
  unfold moduleName
  rw [Option.ite_none_right_eq_some, List.all_eq_true, Option.some.injEq, eq_comm (b := name)]

/-- The parts of a path, the last of which may be anything without a separator. -/
theorem splitOn_path {dirs : List Str} {filename : Str} (hdirs : ∀ l ∈ dirs, isIdentifier l = true)
    (hfilename : '/' ∉ filename) :
    (['/'].intercalate (dirs ++ [filename])).splitOn '/' = dirs ++ [filename] := by
  refine List.splitOn_intercalate '/' (fun l hl => ?_) (by simp)
  rcases List.mem_append.mp hl with hl | hl
  · exact slash_not_mem (hdirs l hl)
  · rwa [List.mem_singleton.mp hl]

theorem exists_parts (path : Str) : ∃ dirs filename, path.splitOn '/' = dirs ++ [filename] ∧
    path = ['/'].intercalate (dirs ++ [filename]) := by
  have hne : path.splitOn '/' ≠ [] := List.splitOn_ne_nil _ _
  refine ⟨_, _, (List.dropLast_append_getLast hne).symm, ?_⟩
  rw [List.dropLast_append_getLast hne, List.intercalate_splitOn]

theorem suffix_of_find? {path suffix : Str} {suffixes : List Str}
    (h : suffixes.find? (·.isSuffixOf path) = some suffix) :
    suffix ∈ suffixes ∧ suffix <:+ path := by
  have hsuffix := List.find?_some h
  exact ⟨List.mem_of_find?_eq_some h, List.isSuffixOf_iff_suffix.mp hsuffix⟩

theorem eq_stripped {path suffix stripped : Str} (h : path = stripped ++ suffix) :
    path.take (path.length - suffix.length) = stripped := by
  subst h
  simp

/-- A path with a supported suffix consists of identifiers before that. -/
theorem compatibleName_eq_some_iff {path : Str} {suffixes : List Str} {name : Str} :
    compatibleName path suffixes = some name ↔
      ∃ suffix dirs basename, suffixes.find? (·.isSuffixOf path) = some suffix ∧
        path = ['/'].intercalate (dirs ++ [basename]) ++ suffix ∧
          (∀ l ∈ dirs ++ [basename], isIdentifier l = true) ∧
            name = ['.'].intercalate (dirs ++ [basename]) := by
  unfold compatibleName
  simp only [Option.bind_eq_bind, Option.bind_eq_some_iff, moduleName_eq_some_iff]
  constructor
  · rintro ⟨suffix, hfind, basename, hlast, hidentifiers, rfl⟩
    obtain ⟨-, stripped, hstripped⟩ := suffix_of_find? hfind
    have hpath := hstripped.symm
    rw [eq_stripped hpath] at hlast hidentifiers ⊢
    obtain ⟨dirs, filename, hsplit, hstripped⟩ := exists_parts stripped
    rw [hsplit] at hlast hidentifiers ⊢
    rw [List.getLast?_concat, Option.some.injEq] at hlast
    rw [List.dropLast_concat] at hidentifiers ⊢
    subst hlast
    exact ⟨suffix, dirs, filename, hfind, hstripped ▸ hpath, hidentifiers, rfl⟩
  · rintro ⟨suffix, dirs, basename, hfind, hpath, hidentifiers, rfl⟩
    have hdirs : ∀ l ∈ dirs, isIdentifier l = true := fun l hl =>
      hidentifiers l (List.mem_append_left _ hl)
    have hsplit := splitOn_path hdirs (slash_not_mem (hidentifiers basename (by simp)))
    refine ⟨suffix, hfind, basename, ?_, ?_⟩
    · rw [eq_stripped hpath, hsplit, List.getLast?_concat]
    · rw [eq_stripped hpath, hsplit, List.dropLast_concat]
      exact ⟨hidentifiers, rfl⟩

theorem head_eq_of_not_mem {filename : Str} (h : '.' ∉ filename) : head filename = filename := by
  unfold head
  cases hsplit : splitOnce '.' filename with
  | none => rfl
  | some split =>
    have heq := splitOnce_eq_some hsplit
    exact absurd (by simp [heq]) h

theorem head_append {basename : Str} (h : '.' ∉ basename) (rest : Str) :
    head (basename ++ '.' :: rest) = basename := by
  have hsplit : splitOnce '.' (basename ++ '.' :: rest) = some (basename, rest) := by
    induction basename with
    | nil => simp [splitOnce]
    | cons c cs ih =>
      rw [List.mem_cons, not_or] at h
      simp [splitOnce, ih h.2, Ne.symm h.1]
  simp [head, hsplit]

/-- What may follow the name of a file: nothing, or a dot and more. -/
def IsExtension (rest : Str) : Prop := rest = [] ∨ rest.head? = some '.'

theorem head_extended {basename rest : Str} (h : '.' ∉ basename) (hrest : IsExtension rest) :
    head (basename ++ rest) = basename := by
  rcases hrest with rfl | hdot
  · rw [List.append_nil, head_eq_of_not_mem h]
  · obtain ⟨after, rfl⟩ := List.head?_eq_some_iff.mp hdot
    exact head_append h after

theorem exists_extension (filename : Str) :
    ∃ rest, filename = head filename ++ rest ∧ IsExtension rest := by
  unfold head
  cases hsplit : splitOnce '.' filename with
  | none => exact ⟨[], by simp, Or.inl rfl⟩
  | some split => exact ⟨_, splitOnce_eq_some hsplit, Or.inr rfl⟩

/-- A path that is cut consists of identifiers, but for what follows the first dot of the file. -/
theorem cutName_eq_some_iff {stripped name : Str} :
    cutName stripped = some name ↔
      ∃ dirs basename rest, stripped = ['/'].intercalate (dirs ++ [basename ++ rest]) ∧
        '/' ∉ rest ∧ IsExtension rest ∧ (∀ l ∈ dirs ++ [basename], isIdentifier l = true) ∧
          name = ['.'].intercalate (dirs ++ [basename]) := by
  unfold cutName
  simp only [Option.bind_eq_bind, Option.bind_eq_some_iff, moduleName_eq_some_iff]
  constructor
  · rintro ⟨filename, hlast, hidentifiers, rfl⟩
    obtain ⟨dirs, filename', hsplit, hstripped⟩ := exists_parts stripped
    have hslash : '/' ∉ filename' := Paths.not_mem_of_mem_splitOn (by rw [hsplit]; simp)
    rw [hsplit] at hlast hidentifiers ⊢
    rw [List.getLast?_concat, Option.some.injEq] at hlast
    rw [List.dropLast_concat] at hidentifiers ⊢
    subst hlast
    obtain ⟨rest, hfilename, hrest⟩ := exists_extension filename'
    refine ⟨dirs, head filename', rest, ?_, ?_, hrest, hidentifiers, rfl⟩
    · rw [← hfilename, hstripped]
    · rw [hfilename] at hslash
      exact fun h => hslash (List.mem_append_right _ h)
  · rintro ⟨dirs, basename, rest, rfl, hrest, hext, hidentifiers, rfl⟩
    have hbasename := hidentifiers basename (by simp)
    have hdirs : ∀ l ∈ dirs, isIdentifier l = true := fun l hl =>
      hidentifiers l (List.mem_append_left _ hl)
    have hslash : '/' ∉ basename ++ rest := by
      rw [List.mem_append, not_or]
      exact ⟨slash_not_mem hbasename, hrest⟩
    have hsplit := splitOn_path hdirs hslash
    refine ⟨basename ++ rest, ?_, ?_⟩
    · rw [hsplit, List.getLast?_concat]
    · rw [hsplit, List.dropLast_concat, head_extended (dot_not_mem hbasename) hext]
      exact ⟨hidentifiers, rfl⟩

/-! ## Suffixes in order -/

theorem mem_destutter {l : List Str} {s : Str} : s ∈ l.destutter (· ≠ ·) ↔ s ∈ l := by
  have hmem : ∀ (l : List Str) (t : Str), s ∈ l.destutter' (· ≠ ·) t ↔ s = t ∨ s ∈ l := by
    intro l
    induction l with
    | nil => simp
    | cons x l ih =>
      intro t
      by_cases hx : t = x
      · subst hx
        rw [List.destutter'_cons_neg (h := by simp), ih, List.mem_cons]
        tauto
      · rw [List.destutter'_cons_pos (h := hx), List.mem_cons, ih, List.mem_cons]
  cases l with
  | nil => simp
  | cons x l => rw [List.destutter_cons', hmem, List.mem_cons]

theorem mem_extensionSuffixes {reported : List Str} {s : Str} :
    s ∈ extensionSuffixes reported ↔ s ∈ reported := by
  unfold extensionSuffixes
  rw [mem_destutter, List.mem_insertionSort]

/-- The longest suffixes come first. -/
theorem extensionSuffixes_pairwise (reported : List Str) :
    (extensionSuffixes reported).Pairwise AtLeastAsLong :=
  (List.pairwise_insertionSort _ _).sublist (List.destutter_sublist _ _)

/-- Where the first suffix that a path ends in stands. -/
def rank (suffixes : List Str) (path : Str) : Nat := suffixes.findIdx (·.isSuffixOf path)

/-- A suffix that is found stands at the rank of the path. -/
theorem getElem?_rank {suffixes : List Str} {path suffix : Str}
    (h : suffixes.find? (·.isSuffixOf path) = some suffix) :
    suffixes[rank suffixes path]? = some suffix := by
  unfold rank
  induction suffixes with
  | nil => cases h
  | cons s suffixes ih =>
    rw [List.findIdx_cons]
    rw [List.find?_cons] at h
    cases hs : s.isSuffixOf path with
    | true =>
      rw [hs] at h
      simpa using h
    | false =>
      rw [hs] at h
      simpa using ih h

/-- A suffix at a lower rank is at least as long. -/
theorem atLeastAsLong_of_rank {suffixes : List Str} (h : suffixes.Pairwise AtLeastAsLong)
    {i j : Nat} {s t : Str} (hs : suffixes[i]? = some s) (ht : suffixes[j]? = some t)
    (hij : i ≤ j) : AtLeastAsLong s t := by
  obtain ⟨hi, rfl⟩ := List.getElem?_eq_some_iff.mp hs
  obtain ⟨hj, rfl⟩ := List.getElem?_eq_some_iff.mp ht
  rcases Nat.lt_or_eq_of_le hij with hlt | rfl
  · exact List.pairwise_iff_getElem.mp h i j hi hj hlt
  · exact Nat.le_refl _

/-- The suffix that is found is the longest of those that the path ends in. -/
theorem longest_of_find? {reported : List Str} {path suffix t : Str}
    (h : (extensionSuffixes reported).find? (·.isSuffixOf path) = some suffix)
    (ht : t ∈ reported) (hpath : t.isSuffixOf path = true) : AtLeastAsLong suffix t := by
  obtain ⟨j, hj, rfl⟩ := List.getElem_of_mem (mem_extensionSuffixes.mpr ht)
  refine atLeastAsLong_of_rank (extensionSuffixes_pairwise reported) (getElem?_rank h)
    (List.getElem?_eq_getElem hj) ?_
  by_contra hlt
  have hnot := List.not_of_lt_findIdx (Nat.lt_of_not_le hlt)
  rw [hpath] at hnot
  cases hnot

/-! ## The two rules -/

/-- An ordinary suffix of native extensions. -/
structure IsNativeSuffix (suffix : Str) : Prop where
  dot : suffix.head? = some '.'
  slash : '/' ∉ suffix
  ending : nativeEnding suffix = true

theorem nativeEnding_iff {path : Str} :
    nativeEnding path = true ↔ ∃ stripped, stripEnding path = some stripped := by
  unfold nativeEnding
  rw [List.any_eq_true]
  simp only [stripEnding_eq_some_iff, List.isSuffixOf_iff_suffix]
  constructor
  · rintro ⟨ending, hending, stripped, rfl⟩
    exact ⟨stripped, ending, hending, rfl⟩
  · rintro ⟨stripped, ending, hending, rfl⟩
    exact ⟨ending, hending, List.suffix_append _ _⟩

theorem incompatibleName_eq (path : Str) :
    incompatibleName path = stripEnding path >>= cutName := by
  unfold incompatibleName
  cases hstrip : stripEnding path with
  | none =>
    have hending : nativeEnding path ≠ true := by
      rw [ne_eq, nativeEnding_iff, hstrip]
      exact nofun
    simp [hending]
  | some stripped => simp [nativeEnding_iff.mpr ⟨stripped, hstrip⟩]

theorem claim_eq {path : Str} (h : '\\' ∉ path) : claim path = incompatibleName path := by
  have hnormalize : normalize path = path := by
    refine (List.map_congr_left fun c hc => ?_).trans (List.map_id path)
    rw [if_neg, id_eq]
    rintro rfl
    exact h hc
  rw [claim, hnormalize, incompatibleName_eq]

/-- **Where a supported suffix is ordinary, cutting gives the same name.** -/
theorem incompatibleName_of_compatibleName {path name : Str} {suffixes : List Str}
    (hsuffixes : ∀ s ∈ suffixes, IsNativeSuffix s)
    (h : compatibleName path suffixes = some name) : incompatibleName path = some name := by
  obtain ⟨suffix, dirs, basename, hfind, rfl, hidentifiers, hname⟩ :=
    compatibleName_eq_some_iff.mp h
  have hsuffix := hsuffixes suffix (suffix_of_find? hfind).1
  obtain ⟨rest, hstrip⟩ := nativeEnding_iff.mp hsuffix.ending
  obtain ⟨ending, hending, rfl⟩ := stripEnding_eq_some_iff.mp hstrip
  have hrest : IsExtension rest := by
    cases rest with
    | nil => exact Or.inl rfl
    | cons c cs => exact Or.inr hsuffix.dot
  have hslash : '/' ∉ rest := fun hmem => hsuffix.slash (List.mem_append_left _ hmem)
  have hpath : ['/'].intercalate (dirs ++ [basename]) ++ (rest ++ ending) =
      ['/'].intercalate (dirs ++ [basename ++ rest]) ++ ending := by
    by_cases hdirs : dirs = []
    · simp [hdirs]
    · simp [intercalate_concat '/' hdirs]
  rw [incompatibleName_eq, hpath, stripEnding_eq_some_iff.mpr ⟨ending, hending, rfl⟩]
  exact cutName_eq_some_iff.mpr ⟨dirs, basename, rest, rfl, hslash, hrest, hidentifiers, hname⟩

example : compatibleName "plugin/_native.cpython-313-x86_64-linux-gnu.so".toList
    [".cpython-313-x86_64-linux-gnu.so".toList, ".so".toList] = some "plugin._native".toList := by
  decide +kernel

/-- The name that a file of a bundle maps to. -/
def logicalName (suffixes : List Str) (path : Str) : Option Str :=
  (compatibleName path suffixes).or (incompatibleName path)

/-- Both rules give the same names to the paths of a bundle. -/
theorem logicalName_eq_claim {suffixes : List Str} (hsuffixes : ∀ s ∈ suffixes, IsNativeSuffix s)
    {path : Str} (h : '\\' ∉ path) : logicalName suffixes path = claim path := by
  unfold logicalName
  rw [claim_eq h]
  cases hname : compatibleName path suffixes with
  | none => rfl
  | some name => rw [incompatibleName_of_compatibleName hsuffixes hname, Option.some_or]

end GuestPy.Artifacts
