import GuestPy.Bundles.Builder

/-!
# Consistent bundles

The maps of a bundle overlap: a module and a data entry also have a file each. A call replaces
what an earlier call said of the same module or data entry, but not the file that it wrote.

* A call is `InForce` if no later one is about the same module or data entry. `module_iff`,
  `data_iff` and `file_iff` say what the maps hold in terms of calls.
* `consistent_iff_orderly` says for which calls the maps fit together.
-/

namespace GuestPy.Bundles

open DottedName BundleBuilder

/-- The maps of a bundle fit together. -/
structure Consistent (b : Bundle) : Prop where
  identifiers : ∀ name ∈ b.modules, ∀ component ∈ name.splitOn '.', isIdentifier component = true
  parents : ∀ name ∈ b.modules, ∀ p ∈ befores name, ∃ m, b.modules[p]? = some m ∧ m.package = true
  origins : ∀ (name name' : Str) (m m' : BundleModule), b.modules[name]? = some m →
    b.modules[name']? = some m' → m.origin = m'.origin → name = name'
  sources : ∀ (name : Str) (m : BundleModule), b.modules[name]? = some m →
    b.files[m.origin]? = some m.source.toUTF8
  entries : ∀ (path : Str) (bytes : ByteArray), b.data[path]? = some bytes →
    b.files[path]? = some bytes
  files : ∀ path ∈ b.files,
    (∃ (name : Str) (m : BundleModule), b.modules[name]? = some m ∧ m.origin = path) ∨
      path ∈ b.data
  root : ∀ name, b.root = some name ↔
    (name ∈ b.modules ∧ '.' ∉ name) ∧ ∀ other ∈ b.modules, '.' ∉ other → other = name

/-! ## Calls in force -/

/-- What a call is about. -/
inductive Subject where
  | module (dotted : Str)
  | data (path : Str)

def Call.subject : Call → Subject
  | .module dotted _ => .module dotted
  | .package dotted _ => .module dotted
  | .data path _ => .data (normalize path)

/-- No later call is about the same module or data entry. -/
def InForce (calls : List Call) (c : Call) : Prop :=
  ∃ before after, calls = before ++ c :: after ∧ ∀ c' ∈ after, c'.subject ≠ c.subject

/-- The last call that writes its file. -/
def LastWriter (calls : List Call) (c : Call) : Prop :=
  ∃ before after, calls = before ++ c :: after ∧ ∀ c' ∈ after, c'.path ≠ c.path

/-- What calls write is still in force, for one module at most, and not overwritten. -/
structure Orderly (calls : List Call) : Prop where
  kept : ∀ c ∈ calls, ∃ c', InForce calls c' ∧ c'.path = c.path
  single : ∀ c c', InForce calls c → InForce calls c' → c.path = c'.path →
    ∀ name name', c.subject = .module name → c'.subject = .module name' → name = name'
  same : ∀ c c', InForce calls c → LastWriter calls c' → c.path = c'.path → c.bytes = c'.bytes

theorem Call.moduleWrite_of_subject {c : Call} {name : Str} (h : c.subject = .module name) :
    ∃ m, c.moduleWrite = some (name, m) := by
  cases c <;> cases h <;> exact ⟨_, rfl⟩

theorem Call.of_moduleWrite {c : Call} {name : Str} {m : BundleModule}
    (h : c.moduleWrite = some (name, m)) :
    c.subject = .module name ∧ m.origin = c.path ∧ m.source.toUTF8 = c.bytes := by
  cases c <;> cases h <;> exact ⟨rfl, rfl, rfl⟩

theorem Call.of_dataWrite {c : Call} {path : Str} {bytes : ByteArray}
    (h : c.dataWrite = some (path, bytes)) :
    c.subject = .data path ∧ c.path = path ∧ c.bytes = bytes := by
  cases c with
  | data path' bytes' =>
    cases h
    exact ⟨rfl, rfl, rfl⟩
  | _ => cases h

/-- A call is about a module and writes it, or about a data entry and writes that. -/
theorem Call.writes (c : Call) :
    (∃ name m, c.moduleWrite = some (name, m)) ∨ ∃ path bytes, c.dataWrite = some (path, bytes) := by
  cases c with
  | module dotted source => exact .inl ⟨_, _, rfl⟩
  | package dotted source => exact .inl ⟨_, _, rfl⟩
  | data path bytes => exact .inr ⟨_, _, rfl⟩

theorem inForce_iff_of_write {ν : Type} {calls : List Call} {f : Call → Option (Str × ν)}
    (subject : Str → Subject)
    (hsubject : ∀ c k, c.subject = subject k ↔ ∃ v, f c = some (k, v)) {k : Str} {v : ν} :
    lastWrite (calls.filterMap f) k = some v ↔ ∃ c, InForce calls c ∧ f c = some (k, v) := by
  rw [lastWrite_filterMap_eq_some_iff]
  constructor
  · rintro ⟨before, c, after, rfl, hc, hafter⟩
    refine ⟨c, ⟨before, after, rfl, fun c' hc' heq => ?_⟩, hc⟩
    rw [(hsubject c k).mpr ⟨v, hc⟩] at heq
    obtain ⟨v', hv'⟩ := (hsubject c' k).mp heq
    exact hafter c' hc' _ hv' rfl
  · rintro ⟨c, ⟨before, after, rfl, hafter⟩, hc⟩
    refine ⟨before, c, after, rfl, hc, fun c' hc' w hw heq => ?_⟩
    obtain ⟨k', v'⟩ := w
    dsimp only at heq
    subst heq
    exact hafter c' hc'
      (((hsubject c' _).mpr ⟨v', hw⟩).trans ((hsubject c _).mpr ⟨v, hc⟩).symm)

section Maps

variable {calls : List Call} (h : ∀ c ∈ calls, c.invalid = none)

include h

theorem module_iff {name : Str} {m : BundleModule} :
    (run calls).modules[name]? = some m ↔
      ∃ c, InForce calls c ∧ c.moduleWrite = some (name, m) := by
  rw [(run_maps h).2.1]
  refine inForce_iff_of_write Subject.module fun c k => ⟨?_, ?_⟩
  · exact Call.moduleWrite_of_subject
  · rintro ⟨m, hm⟩
    exact (Call.of_moduleWrite hm).1

theorem data_iff {path : Str} {bytes : ByteArray} :
    (run calls).data[path]? = some bytes ↔
      ∃ c, InForce calls c ∧ c.dataWrite = some (path, bytes) := by
  rw [(run_maps h).2.2.1]
  refine inForce_iff_of_write Subject.data fun c k => ⟨?_, ?_⟩
  · intro hc
    cases c <;> cases hc
    exact ⟨_, rfl⟩
  · rintro ⟨m, hm⟩
    exact (Call.of_dataWrite hm).1

theorem file_iff {path : Str} {bytes : ByteArray} :
    (run calls).files[path]? = some bytes ↔
      ∃ c, LastWriter calls c ∧ c.path = path ∧ c.bytes = bytes := by
  rw [(run_maps h).2.2.2, ← List.filterMap_eq_map, lastWrite_filterMap_eq_some_iff]
  constructor
  · rintro ⟨before, c, after, rfl, hc, hafter⟩
    cases hc
    exact ⟨c, ⟨before, after, rfl, fun c' hc' => hafter c' hc' _ rfl⟩, rfl, rfl⟩
  · rintro ⟨c, ⟨before, after, rfl, hafter⟩, rfl, rfl⟩
    refine ⟨before, c, after, rfl, rfl, fun c' hc' w hw => ?_⟩
    cases hw
    exact hafter c' hc'

theorem mem_files_iff {path : Str} :
    path ∈ (run calls).files ↔ ∃ c ∈ calls, c.path = path := by
  rw [Std.ExtTreeMap.mem_iff_isSome_getElem?, (run_maps h).2.2.2, Option.isSome_iff_ne_none, ne_eq,
    lastWrite_eq_none_iff]
  simp

end Maps

/-! ## Which calls keep a bundle consistent -/

theorem identifiers_of_valid {dotted : Str} (h : validateDotted dotted = .ok ()) {component : Str}
    (hc : component ∈ dotted.splitOn '.') : isIdentifier component = true := by
  unfold validateDotted at h
  split at h
  · cases h
  · split at h
    · cases h
    · rename_i hfind
      have hall := List.find?_eq_none.mp hfind component hc
      simpa using hall

theorem Call.validates {c : Call} {name : Str} {m : BundleModule} (h : c.invalid = none)
    (hw : c.moduleWrite = some (name, m)) : validateDotted name = .ok () := by
  cases c with
  | data path bytes => cases hw
  | module dotted source =>
    cases hw
    simp only [Call.invalid] at h
    split at h
    · cases h
    · assumption
  | package dotted source =>
    cases hw
    simp only [Call.invalid] at h
    split at h
    · cases h
    · assumption

section Orderly

variable {calls : List Call} {b : Bundle}

theorem InForce.mem {c : Call} (h : InForce calls c) : c ∈ calls := by
  obtain ⟨before, after, rfl, -⟩ := h
  simp

/-- What holds of every bundle that is built. -/
theorem always (h : (run calls).build = .ok b) :
    (∀ name ∈ b.modules, ∀ component ∈ name.splitOn '.', isIdentifier component = true) ∧
      (∀ name ∈ b.modules, ∀ p ∈ befores name,
        ∃ m, b.modules[p]? = some m ∧ m.package = true) ∧
      ∀ name, b.root = some name ↔
        (name ∈ b.modules ∧ '.' ∉ name) ∧ ∀ other ∈ b.modules, '.' ∉ other → other = name := by
  obtain ⟨herror, hparents, rfl⟩ := build_eq_ok.mp h
  have hvalid := valid_of_run herror
  refine ⟨fun name hname component hc => ?_, fun name hname p hp => ?_, fun name => root_eq_some_iff⟩
  · rw [Std.ExtTreeMap.mem_iff_isSome_getElem?, Option.isSome_iff_exists] at hname
    obtain ⟨m, hm⟩ := hname
    obtain ⟨c, hforce, hw⟩ := (module_iff hvalid).mp hm
    exact identifiers_of_valid (Call.validates (hvalid c hforce.mem) hw) hc
  · exact isPackage_iff.mp (hparents name hname p hp)

theorem orderly_of_consistent (h : (run calls).build = .ok b) (hb : Consistent b) :
    Orderly calls := by
  obtain ⟨herror, -, rfl⟩ := build_eq_ok.mp h
  have hvalid := valid_of_run herror
  constructor
  · intro c hc
    rcases hb.files c.path ((mem_files_iff hvalid).mpr ⟨c, hc, rfl⟩) with ⟨name, m, hm, ho⟩ | hd
    · obtain ⟨c', hforce, hw⟩ := (module_iff hvalid).mp hm
      exact ⟨c', hforce, (Call.of_moduleWrite hw).2.1.symm.trans ho⟩
    · rw [Std.ExtTreeMap.mem_iff_isSome_getElem?, Option.isSome_iff_exists] at hd
      obtain ⟨bytes, hbytes⟩ := hd
      obtain ⟨c', hforce, hw⟩ := (data_iff hvalid).mp hbytes
      exact ⟨c', hforce, (Call.of_dataWrite hw).2.1⟩
  · intro c c' hforce hforce' hpath name name' hname hname'
    obtain ⟨m, hw⟩ := Call.moduleWrite_of_subject hname
    obtain ⟨m', hw'⟩ := Call.moduleWrite_of_subject hname'
    refine hb.origins name name' m m' ((module_iff hvalid).mpr ⟨c, hforce, hw⟩)
      ((module_iff hvalid).mpr ⟨c', hforce', hw'⟩) ?_
    rw [(Call.of_moduleWrite hw).2.1, (Call.of_moduleWrite hw').2.1, hpath]
  · intro c c' hforce hlast hpath
    have hfile := (file_iff hvalid).mpr ⟨c', hlast, rfl, rfl⟩
    rw [← hpath] at hfile
    rcases c.writes with ⟨name, m, hw⟩ | ⟨path, bytes, hw⟩
    · obtain ⟨-, horigin, hbytes⟩ := Call.of_moduleWrite hw
      have hsource := hb.sources name m ((module_iff hvalid).mpr ⟨c, hforce, hw⟩)
      rw [horigin, hbytes] at hsource
      exact Option.some.inj (hsource.symm.trans hfile)
    · obtain ⟨-, rfl, rfl⟩ := Call.of_dataWrite hw
      have hentry := hb.entries _ _ ((data_iff hvalid).mpr ⟨c, hforce, hw⟩)
      exact Option.some.inj (hentry.symm.trans hfile)

/-- A file holds what a call in force for its path says. -/
theorem file_of_inForce (hvalid : ∀ c ∈ calls, c.invalid = none) (ho : Orderly calls) {c : Call}
    (hforce : InForce calls c) : (run calls).files[c.path]? = some c.bytes := by
  have hmem := (mem_files_iff hvalid).mpr ⟨c, hforce.mem, rfl⟩
  rw [Std.ExtTreeMap.mem_iff_isSome_getElem?, Option.isSome_iff_exists] at hmem
  obtain ⟨bytes, hbytes⟩ := hmem
  obtain ⟨c', hlast, hpath, rfl⟩ := (file_iff hvalid).mp hbytes
  rw [hbytes, ho.same c c' hforce hlast hpath.symm]

theorem consistent_of_orderly (h : (run calls).build = .ok b) (ho : Orderly calls) :
    Consistent b := by
  obtain ⟨hidentifiers, hparents, hroot⟩ := always h
  obtain ⟨herror, -, rfl⟩ := build_eq_ok.mp h
  have hvalid := valid_of_run herror
  refine ⟨hidentifiers, hparents, ?_, ?_, ?_, ?_, hroot⟩
  · intro name name' m m' hm hm' horigin
    obtain ⟨c, hforce, hw⟩ := (module_iff hvalid).mp hm
    obtain ⟨c', hforce', hw'⟩ := (module_iff hvalid).mp hm'
    obtain ⟨hname, hpath, -⟩ := Call.of_moduleWrite hw
    obtain ⟨hname', hpath', -⟩ := Call.of_moduleWrite hw'
    exact ho.single c c' hforce hforce' (hpath.symm.trans (horigin.trans hpath')) _ _ hname hname'
  · intro name m hm
    obtain ⟨c, hforce, hw⟩ := (module_iff hvalid).mp hm
    obtain ⟨-, hpath, hbytes⟩ := Call.of_moduleWrite hw
    rw [hpath, hbytes]
    exact file_of_inForce hvalid ho hforce
  · intro path bytes hbytes
    obtain ⟨c, hforce, hw⟩ := (data_iff hvalid).mp hbytes
    obtain ⟨-, rfl, rfl⟩ := Call.of_dataWrite hw
    exact file_of_inForce hvalid ho hforce
  · intro path hpath
    obtain ⟨c, hc, rfl⟩ := (mem_files_iff hvalid).mp hpath
    obtain ⟨c', hforce, hsame⟩ := ho.kept c hc
    rw [← hsame]
    rcases c'.writes with ⟨name, m, hw⟩ | ⟨path, bytes, hw⟩
    · exact .inl ⟨name, m, (module_iff hvalid).mpr ⟨c', hforce, hw⟩, (Call.of_moduleWrite hw).2.1⟩
    · refine .inr ?_
      rw [Std.ExtTreeMap.mem_iff_isSome_getElem?, (Call.of_dataWrite hw).2.1,
        (data_iff hvalid).mpr ⟨c', hforce, hw⟩]
      rfl

end Orderly

/-- A bundle is consistent exactly if the calls were orderly, and the first invalid call decides
the error. -/
theorem consistent_iff_orderly (calls : List Call) :
    (∀ b, (run calls).build = .ok b → (Consistent b ↔ Orderly calls)) ∧
      ∀ before c after e, calls = before ++ c :: after → (∀ c' ∈ before, c'.invalid = none) →
        c.invalid = some e → (run calls).build = .error e := by
  constructor
  · exact fun b h => ⟨orderly_of_consistent h, consistent_of_orderly h⟩
  · rintro before c after e rfl hbefore hc
    simp [build, run_of_invalid hbefore hc]

/-- The file of a package stays when the package is replaced by a module. -/
theorem leaves_stale_file :
    ¬ ∀ (calls : List Call) (b : Bundle), (run calls).build = .ok b → Consistent b := by
  intro h
  have hb := h [.package ['a'] "", .module ['a'] ""] _ rfl
  rcases hb.files "a/__init__.py".toList (by decide) with ⟨name, m, hm, horigin⟩ | hdata
  · have hvalid : ∀ c ∈ [Call.package ['a'] "", .module ['a'] ""], c.invalid = none :=
      valid_of_run rfl
    have hlast := ((run_maps hvalid).2.1 name).symm.trans hm
    simp only [List.filterMap_cons, Call.moduleWrite, List.filterMap_nil, lastWrite,
      Option.none_or] at hlast
    by_cases hname : ['a'] = name
    · simp only [hname, if_true, Option.some_or, Option.some.injEq] at hlast
      subst hlast hname
      exact absurd horigin (by decide)
    · simp [hname] at hlast
  · exact absurd hdata (by decide)

end GuestPy.Bundles
