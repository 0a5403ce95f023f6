import GuestPy.Library.Results
import GuestPy.Bundles.Consistency

/-!
# Files as entries of a bundle

`insert_entry`, which makes a module or a data entry of a file. A file that is accepted is what
one call of the builder would add (`entryCall`, `insertEntry_eq`), so a walk over files is a run of
calls (`insertAll_build`).
-/

namespace GuestPy.Bundles

open DottedName BundleBuilder Results

/-! ## Inserting a file -/

/-- A path and what the file holds. -/
abbrev FileEntry := Str × ByteArray

def stripPy (filename : Str) : Str := filename.take (filename.length - pySuffix.length)

/-- The components of the path of a source file, without the suffix. -/
def components (normalized : Str) : List Str × Str :=
  let parts := normalized.splitOn '/'
  (parts.dropLast, stripPy (parts.getLast?.getD []))

def dotted (parts : List Str) (stem : Str) : Str :=
  ['.'].intercalate (if stem = initName then parts else parts ++ [stem])

def insertEntry (e : FileEntry) (b : BundleBuilder) : Except Err BundleBuilder :=
  let normalized := normalize e.1
  let b := { b with files := b.files.insert normalized e.2 }
  if !pySuffix.isSuffixOf normalized then
    .ok { b with data := b.data.insert normalized e.2 }
  else
    let (parts, stem) := components normalized
    match (parts ++ [stem]).find? (!isIdentifier ·) with
    | some component => .error (invalidName normalized component)
    | none =>
      match String.fromUTF8? e.2 with
      | none => .error (.bundle (String.ofList normalized) "source is not valid UTF-8")
      | some source => .ok (b.insertModule (dotted parts stem) source (stem = initName))

/-- The call that adds what the file adds. There is none for a source that is not valid, and for
one that would be a package without a name. -/
def entryCall (e : FileEntry) : Option Call :=
  let normalized := normalize e.1
  if !pySuffix.isSuffixOf normalized then some (.data e.1 e.2)
  else
    let (parts, stem) := components normalized
    if (parts ++ [stem]).all isIdentifier && dotted parts stem ≠ [] then
      (String.fromUTF8? e.2).map fun source =>
        if stem = initName then .package (dotted parts stem) source
        else .module (dotted parts stem) source
    else none

/-! ## Names and paths -/

theorem map_intercalate (f : Char → Char) (c : Char) (ls : List Str) :
    ([c].intercalate ls).map f = [f c].intercalate (ls.map fun l => l.map f) := by
  induction ls with
  | nil => rfl
  | cons l ls ih =>
    cases ls with
    | nil => simp
    | cons l' ls => simp_all [List.intercalate_cons_cons]

theorem intercalate_concat (c : Char) {ls : List Str} (hne : ls ≠ []) (l : Str) :
    [c].intercalate (ls ++ [l]) = [c].intercalate ls ++ c :: l := by
  induction ls with
  | nil => exact absurd rfl hne
  | cons x xs ih =>
    by_cases hxs : xs = []
    · subst hxs
      simp [List.intercalate_cons_cons]
    · rw [List.cons_append, List.intercalate_cons_of_ne_nil (by simp), ih hxs,
        List.intercalate_cons_of_ne_nil hxs]
      simp

theorem splitOn_of_not_mem {c : Char} {s : Str} (h : c ∉ s) : s.splitOn c = [s] := by
  have hjoin : ([c].intercalate [s]).splitOn c = [s] :=
    List.splitOn_intercalate c (by simpa using h) (by simp)
  simpa using hjoin

/-- What is in an identifier may be in any of its places but the first. -/
theorem not_mem_of_isIdentifier {name : Str} (h : isIdentifier name = true) {c : Char}
    (hc : (c = '_' || c.isAlphanum) = false) : c ∉ name := by
  intro hmem
  cases name with
  | nil => cases hmem
  | cons x xs =>
    simp only [isIdentifier, Bool.and_eq_true, List.all_eq_true] at h
    rcases List.mem_cons.mp hmem with rfl | hmem
    · simp only [Char.isAlphanum] at hc
      simp_all
    · exact absurd (h.2 c hmem) (by rw [hc]; decide)

theorem dot_not_mem {name : Str} (h : isIdentifier name = true) : '.' ∉ name :=
  not_mem_of_isIdentifier h (by decide)

theorem slash_not_mem {name : Str} (h : isIdentifier name = true) : '/' ∉ name :=
  not_mem_of_isIdentifier h (by decide)

theorem replace_dots {ls : List Str} (h : ∀ l ∈ ls, isIdentifier l = true) :
    replace '.' '/' (['.'].intercalate ls) = ['/'].intercalate ls := by
  have hls : ls.map (fun l => l.map fun c => if c = '.' then '/' else c) = ls := by
    refine (List.map_congr_left fun l hl => ?_).trans (List.map_id ls)
    refine (List.map_congr_left fun c hc => ?_).trans (List.map_id l)
    rw [if_neg, id_eq]
    rintro rfl
    exact dot_not_mem (h l hl) hc
  rw [replace, map_intercalate, hls, if_pos rfl]

theorem validateDotted_of_components {ls : List Str} (hne : ['.'].intercalate ls ≠ [])
    (h : ∀ l ∈ ls, isIdentifier l = true) : validateDotted (['.'].intercalate ls) = .ok () := by
  have hls : ls ≠ [] := by
    rintro rfl
    exact hne rfl
  have hsplit : (['.'].intercalate ls).splitOn '.' = ls :=
    List.splitOn_intercalate '.' (fun l hl => dot_not_mem (h l hl)) hls
  have hfind : ls.find? (fun component => !isIdentifier component) = none := by
    rw [List.find?_eq_none]
    intro l hl
    simp [h l hl]
  simp [validateDotted, hne, hsplit, hfind]

/-- A path of a source file is its components with the suffix. -/
theorem path_of_components {normalized : Str} (h : pySuffix.isSuffixOf normalized = true) :
    normalized = ['/'].intercalate
      ((components normalized).1 ++ [(components normalized).2 ++ pySuffix]) := by
  have hjoin : ['/'].intercalate (normalized.splitOn '/') = normalized :=
    List.intercalate_splitOn '/'
  have hne : normalized.splitOn '/' ≠ [] := List.splitOn_ne_nil _ _
  obtain ⟨parts, filename, hparts⟩ : ∃ parts filename, normalized.splitOn '/' = parts ++ [filename] :=
    ⟨_, _, (List.dropLast_append_getLast hne).symm⟩
  have hsuffix : pySuffix <:+ normalized := List.isSuffixOf_iff_suffix.mp h
  have hfilename : pySuffix <:+ filename := by
    by_cases hempty : parts = []
    · rw [← hjoin, hparts, hempty] at hsuffix
      simpa using hsuffix
    · have hend : '/' :: filename <:+ normalized := by
        rw [← hjoin, hparts, intercalate_concat '/' hempty]
        exact List.suffix_append _ _
      rcases List.suffix_or_suffix_of_suffix hsuffix hend with hshort | hlong
      · rcases List.suffix_cons_iff.mp hshort with heq | hshort
        · exact absurd (congrArg List.head? heq) (by simp [pySuffix])
        · exact hshort
      · exact absurd (hlong.subset List.mem_cons_self) (by decide)
  obtain ⟨stem, rfl⟩ := hfilename
  have hstem : stripPy (stem ++ pySuffix) = stem := by simp [stripPy]
  simp only [components, hparts, List.dropLast_concat, List.getLast?_concat, Option.getD_some, hstem]
  rw [← hparts, hjoin]

theorem origin_dotted {parts : List Str} {stem : Str}
    (h : ∀ l ∈ parts ++ [stem], isIdentifier l = true) (hne : dotted parts stem ≠ []) :
    origin (dotted parts stem) (stem = initName) =
      ['/'].intercalate (parts ++ [stem ++ pySuffix]) := by
  unfold dotted at hne ⊢
  by_cases hinit : stem = initName
  · rw [if_pos hinit] at hne ⊢
    have hparts : parts ≠ [] := by
      rintro rfl
      exact hne rfl
    have hreplace := replace_dots fun l hl => h l (List.mem_append_left _ hl)
    simp only [origin, hinit, decide_true, if_true, hreplace, intercalate_concat '/' hparts]
  · rw [if_neg hinit]
    have hreplace := replace_dots h
    simp only [origin, hinit, decide_false, Bool.false_eq_true, if_false, hreplace]
    by_cases hparts : parts = []
    · simp [hparts]
    · simp [intercalate_concat '/' hparts]

/-! ## A file as a call -/

/-- A file with a call adds what the call adds. -/
theorem entryCall_spec {e : FileEntry} {c : Call} (h : entryCall e = some c) :
    c.invalid = none ∧ c.path = normalize e.1 ∧ c.bytes = e.2 ∧
      ∀ b : BundleBuilder, b.error = none → insertEntry e b = .ok (c.apply b) := by
  unfold entryCall at h
  by_cases hpy : pySuffix.isSuffixOf (normalize e.1) = true
  · have hpath := path_of_components hpy
    rcases hparts : components (normalize e.1) with ⟨parts, stem⟩
    simp only [hpy, hparts, Bool.not_true, Bool.false_eq_true, if_false] at h hpath
    split at h
    · rename_i hvalid
      rw [Bool.and_eq_true, List.all_eq_true, decide_eq_true_eq] at hvalid
      obtain ⟨hidentifiers, hne⟩ := hvalid
      have hfind : (parts ++ [stem]).find? (fun component => !isIdentifier component) = none := by
        rw [List.find?_eq_none]
        intro l hl
        simp [hidentifiers l hl]
      have hdotted : validateDotted (dotted parts stem) = .ok () := by
        refine validateDotted_of_components hne fun l hl => hidentifiers l ?_
        split at hl
        · exact List.mem_append_left _ hl
        · exact hl
      have horigin := origin_dotted hidentifiers hne
      obtain ⟨source, hsource, rfl⟩ := Option.map_eq_some_iff.mp h
      have hbytes : source.toUTF8 = e.2 := by
        unfold String.fromUTF8? at hsource
        split at hsource
        · cases hsource
          rfl
        · cases hsource
      have hinsert : ∀ b : BundleBuilder, b.error = none → insertEntry e b =
          .ok (b.insertModule (dotted parts stem) source (stem = initName)) := by
        intro b hb
        simp only [insertEntry, hpy, hparts, hfind, hsource, Bool.not_true, Bool.false_eq_true,
          if_false, insertModule, hb, hdotted, horigin, ← hpath, hbytes]
        congr 2
        ext path
        simp only [Std.ExtTreeMap.getElem?_insert]
        split <;> simp_all
      by_cases hinit : stem = initName
      · subst hinit
        simp only [if_true, decide_true] at horigin hinsert ⊢
        exact ⟨by simp [Call.invalid, hdotted], horigin.trans hpath.symm, hbytes, hinsert⟩
      · simp only [hinit, if_false, decide_false] at horigin hinsert ⊢
        exact ⟨by simp [Call.invalid, hdotted], horigin.trans hpath.symm, hbytes, hinsert⟩
    · cases h
  · simp only [hpy, Bool.not_false, if_true, Option.some.injEq] at h
    subst h
    refine ⟨rfl, rfl, rfl, fun b _ => ?_⟩
    simp [insertEntry, hpy, Call.apply, insertData]

theorem insertModule_error_ne_none {name : Str} {source : String} {package : Bool}
    {b : BundleBuilder} (h : b.error ≠ none ∨ name = []) :
    (insertModule name source package b).error ≠ none := by
  unfold insertModule
  cases hb : b.error with
  | some e => simp [hb]
  | none =>
    rcases h with h | rfl
    · exact absurd hb h
    · simp [validateDotted]

/-- An error stays. -/
theorem insertEntry_error {e : FileEntry} {b b' : BundleBuilder} (hb : b.error ≠ none)
    (h : insertEntry e b = .ok b') : b'.error ≠ none := by
  simp only [insertEntry] at h
  split at h
  · cases h
    exact hb
  · split at h
    · cases h
    · split at h
      · cases h
      · cases h
        exact insertModule_error_ne_none (.inl hb)

/-- A file without a call fails, at once or when the bundle is built. -/
theorem insertEntry_of_none {e : FileEntry} (h : entryCall e = none) {b b' : BundleBuilder}
    (hb : insertEntry e b = .ok b') : b'.error ≠ none := by
  simp only [entryCall] at h
  simp only [insertEntry] at hb
  split at hb
  · simp_all
  · rename_i hpy
    rw [if_neg hpy] at h
    split at hb
    · cases hb
    · rename_i hfind
      have hidentifiers : ((components (BundleBuilder.normalize e.1)).1 ++
          [(components (BundleBuilder.normalize e.1)).2]).all isIdentifier = true := by
        rw [List.all_eq_true]
        intro l hl
        simpa using List.find?_eq_none.mp hfind l hl
      split at hb
      · cases hb
      · rename_i source hsource
        cases hb
        refine insertModule_error_ne_none (.inr ?_)
        by_contra hne
        simp [hidentifiers, hne, hsource] at h

/-- Files with the same path are about the same. -/
theorem subject_of_path {e e' : FileEntry} {c c' : Call} (h : entryCall e = some c)
    (h' : entryCall e' = some c') (hpath : BundleBuilder.normalize e.1 = BundleBuilder.normalize e'.1) :
    c.subject = c'.subject := by
  simp only [entryCall, hpath] at h h'
  split at h
  · rename_i hpy
    rw [if_pos hpy] at h'
    cases h
    cases h'
    simp [Call.subject, hpath]
  · rename_i hpy
    rw [if_neg hpy] at h'
    split at h
    · rename_i hvalid
      rw [if_pos hvalid] at h'
      obtain ⟨source, -, rfl⟩ := Option.map_eq_some_iff.mp h
      obtain ⟨source', -, rfl⟩ := Option.map_eq_some_iff.mp h'
      split <;> rfl
    · cases h

/-! ## Many files -/

def insertAll (es : List FileEntry) (b : BundleBuilder) : Except Err BundleBuilder :=
  es.foldlM (fun b e => insertEntry e b) b

theorem insertAll_append (es es' : List FileEntry) (b : BundleBuilder) :
    insertAll (es ++ es') b = insertAll es b >>= insertAll es' := by
  simp [insertAll, List.foldlM_append]
  rfl

/-- A walk over files that all have calls is a run. -/
theorem insertAll_of_calls {es : List FileEntry} (h : ∀ e ∈ es, entryCall e ≠ none)
    {b : BundleBuilder} (hb : b.error = none) :
    insertAll es b = .ok ((es.filterMap entryCall).foldl (fun b c => c.apply b) b) := by
  induction es generalizing b with
  | nil => rfl
  | cons e es ih =>
    obtain ⟨c, hc⟩ := Option.ne_none_iff_exists'.mp (h e List.mem_cons_self)
    obtain ⟨hvalid, -, -, hinsert⟩ := entryCall_spec hc
    have happly : (c.apply b).error = none := by rw [Call.apply_of_valid hb hvalid]
    have hrest := ih (fun e' he' => h e' (List.mem_cons_of_mem _ he')) happly
    rw [List.filterMap_cons_some hc, List.foldl_cons, ← hrest]
    change insertEntry e b >>= insertAll es = _
    rw [hinsert b hb, ok_bind]

theorem insertAll_error {es : List FileEntry} {b b' : BundleBuilder} (hb : b.error ≠ none)
    (h : insertAll es b = .ok b') : b'.error ≠ none := by
  induction es generalizing b with
  | nil =>
    cases h
    exact hb
  | cons e es ih =>
    obtain ⟨b₁, hb₁, h⟩ := bind_eq_ok.mp h
    exact ih (insertEntry_error hb hb₁) h

theorem insertAll_of_none {es : List FileEntry} {e : FileEntry} (he : e ∈ es)
    (hcall : entryCall e = none) {b b' : BundleBuilder} (h : insertAll es b = .ok b') :
    b'.error ≠ none := by
  obtain ⟨before, after, rfl⟩ := List.append_of_mem he
  rw [insertAll_append] at h
  obtain ⟨b₁, -, h⟩ := bind_eq_ok.mp h
  obtain ⟨b₂, hb₂, h⟩ := bind_eq_ok.mp h
  exact insertAll_error (insertEntry_of_none hcall hb₂) h

/-- What is built of files, one after another. -/
def bundleOf (es : List FileEntry) : Except Err Bundle := insertAll es {} >>= build

/-- A bundle is built of files that all have calls, with what the calls add. -/
theorem bundleOf_eq_ok {es : List FileEntry} {b : Bundle} :
    bundleOf es = .ok b ↔
      (∀ e ∈ es, entryCall e ≠ none) ∧ (run (es.filterMap entryCall)).build = .ok b := by
  constructor
  · intro h
    obtain ⟨builder, hbuilder, hbuild⟩ := bind_eq_ok.mp h
    have hcalls : ∀ e ∈ es, entryCall e ≠ none := by
      intro e he hnone
      exact insertAll_of_none he hnone hbuilder (build_eq_ok.mp hbuild).1
    refine ⟨hcalls, ?_⟩
    rw [insertAll_of_calls hcalls rfl] at hbuilder
    cases hbuilder
    exact hbuild
  · rintro ⟨hcalls, hbuild⟩
    exact bind_eq_ok.mpr ⟨_, insertAll_of_calls hcalls rfl, hbuild⟩

end GuestPy.Bundles
