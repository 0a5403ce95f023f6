import GuestPy.Imports.Importlib

/-!
# Relative names and components

What `absolutise` and `prefixes` do to the text of a name, said by its components.

* `ancestor_eq_some_iff`: to drop a component `levels` times leaves all but the last `levels`.
* `Importlib.resolveBits` is `_resolve_name` of importlib, which splits from the right, and
  `resolveBits_eq_some_iff` says that it finds the same name.
* `prefixes_eq_map` lists the prefixes of a name, and `isDenied_iff_components` says when one of
  them is denied.
-/

namespace GuestPy

namespace DottedName

def components (name : Str) : List Str := name.splitOn '.'

/-- The name that has the components. -/
def dotted (parts : List Str) : Str := ['.'].intercalate parts

/-! ## Splitting a name -/

theorem dotted_components (name : Str) : dotted (components name) = name :=
  List.intercalate_splitOn '.'

theorem components_ne_nil (name : Str) : components name ≠ [] :=
  List.splitOn_ne_nil '.' name

theorem components_append (before after : Str) :
    components (before ++ '.' :: after) = components before ++ components after :=
  List.splitOn_append_cons_self before after

theorem components_of_not_mem {name : Str} (h : '.' ∉ name) : components name = [name] :=
  List.splitOn_eq_singleton h

theorem components_of_rsplitOnce {name before after : Str}
    (h : rsplitOnce '.' name = some (before, after)) :
    components name = components before ++ [after] := by
  have hname : name = before ++ '.' :: after := rsplitOnce_eq_some h
  have hafter : components after = [after] := components_of_not_mem (not_mem_of_rsplitOnce h)
  rw [hname, components_append, hafter]

/-- A component can be dropped `levels` times just if more than that are there, and all but the
last `levels` remain. -/
theorem ancestor_eq_some_iff {package base : Str} {levels : Nat} :
    ancestor package levels = some base ↔
      levels < (components package).length ∧
        base = dotted ((components package).take ((components package).length - levels)) := by
  induction levels generalizing package with
  | zero =>
    have hpos : 0 < (components package).length :=
      List.length_pos_of_ne_nil (components_ne_nil package)
    simp only [ancestor, Nat.sub_zero, List.take_length, dotted_components, hpos, true_and,
      Option.some.injEq]
    exact eq_comm
  | succ levels ih =>
    cases hsplit : rsplitOnce '.' package with
    | none =>
      have hparts : components package = [package] :=
        components_of_not_mem (not_mem_of_rsplitOnce_eq_none hsplit)
      simp [ancestor, hsplit, hparts]
    | some split =>
      obtain ⟨before, after⟩ := split
      have hparts : components package = components before ++ [after] :=
        components_of_rsplitOnce hsplit
      have hlength : (components package).length = (components before).length + 1 := by
        simp [hparts]
      have htake : (components package).take ((components package).length - (levels + 1)) =
          (components before).take ((components before).length - levels) := by
        rw [hlength, hparts, List.take_append_of_le_length (by omega)]
        congr 1
        omega
      have hstep : ancestor package (levels + 1) = ancestor before levels := by
        simp only [ancestor, hsplit]
      rw [hstep, ih, htake, hlength, Nat.add_lt_add_iff_right]

/-! ## Prefixes -/

theorem dotted_cons_cons (c : Char) (part : Str) (parts : List Str) :
    dotted ((c :: part) :: parts) = c :: dotted (part :: parts) := by
  cases parts with
  | nil => simp [dotted]
  | cons next parts => simp [dotted, List.intercalate_cons_cons]

/-- The prefixes of a name have its first components, one of them, then two, and so on. -/
theorem prefixes_eq_map (name : Str) :
    prefixes name = (components name).inits.tail.map dotted := by
  induction name with
  | nil => rfl
  | cons c name ih =>
    obtain ⟨part, parts, hparts⟩ := List.exists_cons_of_ne_nil (components_ne_nil name)
    rw [hparts] at ih
    by_cases hc : c = '.'
    · have hcons : components (c :: name) = [] :: part :: parts := by
        have happend := components_append [] name
        rw [List.nil_append, hparts] at happend
        rw [hc, happend]
        rfl
      have hprefixes : prefixes (c :: name) = [] :: (prefixes name).map ('.' :: ·) := by
        simp [prefixes, befores, hc]
      rw [hprefixes, ih, hcons]
      simp [List.inits, Function.comp_def, dotted]
    · have hcons : components (c :: name) = (c :: part) :: parts := by
        have hhead := List.splitOn_cons_eq_if_modifyHead c name (a := '.')
        change components (c :: name) = _ at hhead
        change components name = _ at hparts
        rw [hhead, if_neg (by simpa using hc)]
        change (components name).modifyHead _ = _
        rw [hparts]
        rfl
      have hprefixes : prefixes (c :: name) = (prefixes name).map (c :: ·) := by
        simp [prefixes, befores, hc]
      rw [hprefixes, ih, hcons]
      simp [List.inits, Function.comp_def, dotted_cons_cons]

theorem getLast?_prefixes (name : Str) : (prefixes name).getLast? = some name := by
  simp [prefixes]

/-- The prefixes of a name go by its components, not by its characters. -/
theorem mem_prefixes_iff_components {p name : Str} :
    p ∈ prefixes name ↔ ∃ parts, parts ≠ [] ∧ parts <+: components name ∧ p = dotted parts := by
  obtain ⟨part, parts, hparts⟩ := List.exists_cons_of_ne_nil (components_ne_nil name)
  rw [prefixes_eq_map, hparts]
  simp only [List.inits, List.tail_cons, List.map_map, List.mem_map, List.mem_inits,
    Function.comp_apply]
  constructor
  · intro h
    obtain ⟨first, hfirst, rfl⟩ := h
    exact ⟨part :: first, List.cons_ne_nil _ _, List.cons_prefix_cons.mpr ⟨rfl, hfirst⟩, rfl⟩
  · intro h
    obtain ⟨first, hne, hfirst, rfl⟩ := h
    cases first with
    | nil => exact absurd rfl hne
    | cons part' first =>
      obtain ⟨rfl, hrest⟩ := List.cons_prefix_cons.mp hfirst
      exact ⟨first, hrest, rfl⟩

theorem isDenied_iff_components {denied : Str → Bool} {name : Str} :
    isDenied denied name = true ↔
      ∃ parts, parts ≠ [] ∧ parts <+: components name ∧ denied (dotted parts) = true := by
  rw [isDenied_iff]
  constructor
  · intro h
    obtain ⟨p, hp, hdenied⟩ := h
    obtain ⟨parts, hne, hparts, rfl⟩ := mem_prefixes_iff_components.mp hp
    exact ⟨parts, hne, hparts, hdenied⟩
  · intro h
    obtain ⟨parts, hne, hparts, hdenied⟩ := h
    exact ⟨dotted parts, mem_prefixes_iff_components.mpr ⟨parts, hne, hparts, rfl⟩, hdenied⟩

end DottedName

/-! ## The name that importlib finds -/

namespace Importlib

open DottedName

/-- `str.rsplit`, with a bound on how often it splits. -/
def rsplit (c : Char) : Nat → Str → List Str
  | 0, s => [s]
  | maxsplit + 1, s =>
    match rsplitOnce c s with
    | some (before, after) => rsplit c maxsplit before ++ [after]
    | none => [s]

/-- `_resolve_name`, as importlib writes it. -/
def resolveBits (name package : Str) (level : Nat) : Option Str :=
  let bits := rsplit '.' (level - 1) package
  if bits.length < level then none
  else bits.head?.map fun base => if name = [] then base else base ++ '.' :: name

/-- The first of the bits is what is left when a component has been dropped as often as the
bound allows. -/
theorem rsplit_spec (maxsplit : Nat) (s : Str) :
    match ancestor s maxsplit with
    | some base => ∃ rest, rsplit '.' maxsplit s = base :: rest ∧ rest.length = maxsplit
    | none => (rsplit '.' maxsplit s).length ≤ maxsplit := by
  induction maxsplit generalizing s with
  | zero => exact ⟨[], rfl, rfl⟩
  | succ maxsplit ih =>
    cases hsplit : rsplitOnce '.' s with
    | none =>
      have hnone : ancestor s (maxsplit + 1) = none := by simp only [ancestor, hsplit]
      have hbits : rsplit '.' (maxsplit + 1) s = [s] := by simp only [rsplit, hsplit]
      simp [hnone, hbits]
    | some split =>
      obtain ⟨before, after⟩ := split
      have hstep : ancestor s (maxsplit + 1) = ancestor before maxsplit := by
        simp only [ancestor, hsplit]
      have hbits : rsplit '.' (maxsplit + 1) s = rsplit '.' maxsplit before ++ [after] := by
        simp only [rsplit, hsplit]
      have hbefore := ih before
      rw [hstep, hbits]
      cases hancestor : ancestor before maxsplit with
      | none =>
        rw [hancestor] at hbefore
        simpa using hbefore
      | some base =>
        rw [hancestor] at hbefore
        obtain ⟨rest, hrest, hlength⟩ := hbefore
        exact ⟨rest ++ [after], by rw [hrest, List.cons_append], by simp [hlength]⟩

theorem resolveBits_eq {name package : Str} {level : Nat} (hlevel : 1 ≤ level) :
    resolveBits name package level = (ancestor package (level - 1)).map (join · name) := by
  have hbits := rsplit_spec (level - 1) package
  unfold resolveBits
  cases hancestor : ancestor package (level - 1) with
  | none =>
    rw [hancestor] at hbits
    have hlt : (rsplit '.' (level - 1) package).length < level := by
      have hle : (rsplit '.' (level - 1) package).length ≤ level - 1 := hbits
      omega
    simp [hlt]
  | some base =>
    rw [hancestor] at hbits
    obtain ⟨rest, hrest, hlength⟩ := hbits
    have hge : ¬ (rsplit '.' (level - 1) package).length < level := by
      rw [hrest, List.length_cons]
      omega
    simp only [hge, if_false]
    rw [hrest]
    rfl

/-- What an import that is delegated resolves a name to. -/
theorem resolveName_eq_ok_iff {package name full : Str} {level : Nat} (hlevel : 1 ≤ level) :
    resolveName package name level = .ok full ↔
      package ≠ [] ∧ resolveBits name package level = some full := by
  rw [resolveBits_eq hlevel]
  unfold resolveName
  by_cases hpackage : package = []
  · simp [hpackage]
  · cases hancestor : ancestor package (level - 1) with
    | none => simp [hpackage]
    | some base => simp [hpackage]

end Importlib

namespace DottedName

variable {Ex : Type}

theorem absolutise_eq_ok_iff {package name full : Str} {level : Nat} :
    (absolutise package name level : Except (Error Ex) Str) = .ok full ↔
      package ≠ [] ∧ (ancestor package (level - 1)).map (join · name) = some full := by
  unfold absolutise
  by_cases hpackage : package = []
  · simp [hpackage]
  · cases hancestor : ancestor package (level - 1) with
    | none => simp [hpackage]
    | some base => simp [hpackage]

theorem absolutise_eq_error_iff {package name : Str} {level : Nat} :
    (∃ e, (absolutise package name level : Except (Error Ex) Str) = .error e) ↔
      package = [] ∨ ancestor package (level - 1) = none := by
  unfold absolutise
  by_cases hpackage : package = []
  · simp [hpackage]
  · cases hancestor : ancestor package (level - 1) with
    | none => simp [hpackage]
    | some base => simp [hpackage]

/-- Too many levels leave no component. -/
theorem ancestor_eq_none_iff {package : Str} {levels : Nat} :
    ancestor package levels = none ↔ (components package).length ≤ levels := by
  constructor
  · intro h
    by_contra hlt
    have hsome := ancestor_eq_some_iff.mpr ⟨Nat.lt_of_not_le hlt, rfl⟩
    rw [h] at hsome
    cases hsome
  · intro hle
    cases hancestor : ancestor package levels with
    | none => rfl
    | some base =>
      have hlt := (ancestor_eq_some_iff.mp hancestor).1
      omega

/-- **Relative names are resolved as in Python.** A level drops one component less than its
number, and what a name lies in is told by its components. -/
theorem resolves_as_importlib (package name : Str) (level : Nat) (hlevel : 1 ≤ level) :
    (∀ full, (absolutise package name level : Except (Error Ex) Str) = .ok full ↔
      package ≠ [] ∧ Importlib.resolveBits name package level = some full) ∧
    (∀ full, (absolutise package name level : Except (Error Ex) Str) = .ok full →
      full = join (dotted ((components package).take ((components package).length - (level - 1))))
        name) ∧
    ((∃ e, (absolutise package name level : Except (Error Ex) Str) = .error e) ↔
      package = [] ∨ (components package).length < level) ∧
    (∀ n, prefixes n = (components n).inits.tail.map dotted ∧ (prefixes n).getLast? = some n) ∧
    ∀ denied n, isDenied denied n = true ↔
      ∃ parts, parts ≠ [] ∧ parts <+: components n ∧ denied (dotted parts) = true := by
  refine ⟨fun full => ?_, fun full hfull => ?_, ?_, fun n => ?_,
    fun denied n => isDenied_iff_components⟩
  · rw [absolutise_eq_ok_iff, Importlib.resolveBits_eq hlevel]
  · obtain ⟨-, hmap⟩ := absolutise_eq_ok_iff.mp hfull
    obtain ⟨base, hbase, rfl⟩ := Option.map_eq_some_iff.mp hmap
    rw [(ancestor_eq_some_iff.mp hbase).2]
  · rw [absolutise_eq_error_iff, ancestor_eq_none_iff]
    have hlt : (components package).length ≤ level - 1 ↔ (components package).length < level := by
      omega
    rw [hlt]
  · exact ⟨prefixes_eq_map n, getLast?_prefixes n⟩

theorem resolves_two_levels :
    (absolutise "a.b".toList "c".toList 2 : Except (Error Unit) Str) = .ok "a.c".toList :=
  ((resolves_as_importlib "a.b".toList "c".toList 2 (by decide)).1 _).mpr
    ⟨by decide, by decide⟩

end DottedName

end GuestPy
