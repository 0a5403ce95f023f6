import GuestPy.Errors

/-!
# Dotted module names

A module name is a list of characters. `prefixes` lists the packages a name lies in,
shortest first, and the name itself; a name is denied when one of its prefixes is.

* `mem_prefixes_iff` says what the prefixes of a name are, and `mem_prefixes_trans` that
  they are closed under taking prefixes. So what is not denied has no denied prefix
  (`not_denied_of_mem_prefixes`).
* `absolutise` resolves a relative name against a package.
-/

namespace GuestPy

/-- The characters of a `str`. -/
abbrev Str := List Char

instance decidableMemNames (name : Str) (names : List Str) : Decidable (name ∈ names) :=
  inferInstance

namespace DottedName

/-! ## Splitting -/

def splitOnce (c : Char) : Str → Option (Str × Str)
  | [] => none
  | x :: xs => if x = c then some ([], xs) else (splitOnce c xs).map fun p => (x :: p.1, p.2)

def rsplitOnce (c : Char) : Str → Option (Str × Str)
  | [] => none
  | x :: xs =>
    match rsplitOnce c xs with
    | some (before, after) => some (x :: before, after)
    | none => if x = c then some ([], xs) else none

/-- What stands before each dot, shortest first. -/
def befores : Str → List Str
  | [] => []
  | x :: xs =>
    if x = '.' then [] :: (befores xs).map (x :: ·) else (befores xs).map (x :: ·)

def prefixes (name : Str) : List Str := befores name ++ [name]

def head (name : Str) : Str :=
  match splitOnce '.' name with
  | some (before, _) => before
  | none => name

def parent (name : Str) : Option (Str × Str) := rsplitOnce '.' name

def isDenied (denied : Str → Bool) (name : Str) : Bool := (prefixes name).any denied

/-! ## Prefixes -/

theorem mem_befores_iff {p name : Str} : p ∈ befores name ↔ ∃ rest, name = p ++ '.' :: rest := by
  induction name generalizing p with
  | nil =>
    constructor
    · intro h
      cases h
    · rintro ⟨rest, h⟩
      cases p <;> cases h
  | cons x xs ih =>
    have hmap : p ∈ (befores xs).map (x :: ·) ↔
        ∃ q rest, p = x :: q ∧ xs = q ++ '.' :: rest := by
      constructor
      · intro h
        obtain ⟨q, hq, rfl⟩ := List.mem_map.1 h
        obtain ⟨rest, hrest⟩ := ih.1 hq
        exact ⟨q, rest, rfl, hrest⟩
      · rintro ⟨q, rest, rfl, hrest⟩
        exact List.mem_map.2 ⟨q, ih.2 ⟨rest, hrest⟩, rfl⟩
    have hcons : (∃ q rest, p = x :: q ∧ xs = q ++ '.' :: rest) ↔
        p ≠ [] ∧ ∃ rest, x :: xs = p ++ '.' :: rest := by
      constructor
      · rintro ⟨q, rest, rfl, rfl⟩
        exact ⟨List.cons_ne_nil _ _, rest, rfl⟩
      · rintro ⟨hp, rest, h⟩
        cases p with
        | nil => exact absurd rfl hp
        | cons y q =>
          injection h with hy hq
          exact ⟨q, rest, by rw [hy], hq⟩
    unfold befores
    by_cases hx : x = '.'
    · rw [if_pos hx, List.mem_cons, hmap, hcons]
      constructor
      · rintro (rfl | ⟨-, h⟩)
        · exact ⟨xs, by rw [hx, List.nil_append]⟩
        · exact h
      · intro h
        by_cases hp : p = []
        · exact Or.inl hp
        · exact Or.inr ⟨hp, h⟩
    · rw [if_neg hx, hmap, hcons]
      refine ⟨fun h => h.2, fun h => ⟨?_, h⟩⟩
      rintro rfl
      obtain ⟨rest, hrest⟩ := h
      injection hrest with hd _
      exact hx hd

/-- The prefixes of a name are the name and what stands before its dots. -/
theorem mem_prefixes_iff {p name : Str} :
    p ∈ prefixes name ↔ p = name ∨ ∃ rest, name = p ++ '.' :: rest := by
  unfold prefixes
  rw [List.mem_append, List.mem_singleton, mem_befores_iff, or_comm]

theorem self_mem_prefixes (name : Str) : name ∈ prefixes name :=
  mem_prefixes_iff.2 (Or.inl rfl)

theorem mem_prefixes_trans {p q name : Str} (hp : p ∈ prefixes q) (hq : q ∈ prefixes name) :
    p ∈ prefixes name := by
  rw [mem_prefixes_iff] at hp hq ⊢
  rcases hp with rfl | ⟨rest, rfl⟩
  · exact hq
  · rcases hq with rfl | ⟨rest', rfl⟩
    · exact Or.inr ⟨rest, rfl⟩
    · exact Or.inr ⟨rest ++ '.' :: rest', by simp only [List.append_assoc, List.cons_append]⟩

theorem splitOnce_eq_some {c : Char} {name before after : Str}
    (h : splitOnce c name = some (before, after)) : name = before ++ c :: after := by
  induction name generalizing before with
  | nil => cases h
  | cons x xs ih =>
    unfold splitOnce at h
    by_cases hx : x = c
    · rw [if_pos hx] at h
      cases h
      rw [hx, List.nil_append]
    · rw [if_neg hx] at h
      rcases hs : splitOnce c xs with _ | ⟨b, a⟩
      · rw [hs] at h
        cases h
      · rw [hs] at h
        cases h
        rw [ih hs, List.cons_append]

theorem head_mem_prefixes (name : Str) : head name ∈ prefixes name := by
  unfold head
  rcases hs : splitOnce '.' name with _ | ⟨before, after⟩
  · exact self_mem_prefixes name
  · exact mem_prefixes_iff.2 (Or.inr ⟨after, splitOnce_eq_some hs⟩)

theorem not_mem_of_rsplitOnce_eq_none {c : Char} {name : Str} (h : rsplitOnce c name = none) :
    c ∉ name := by
  induction name with
  | nil => exact List.not_mem_nil
  | cons x xs ih =>
    unfold rsplitOnce at h
    cases hxs : rsplitOnce c xs with
    | some split =>
      rw [hxs] at h
      cases h
    | none =>
      rw [hxs] at h
      by_cases hx : x = c
      · simp only [if_pos hx] at h
        cases h
      · intro hmem
        rcases List.mem_cons.1 hmem with rfl | hmem
        · exact hx rfl
        · exact ih hxs hmem

theorem rsplitOnce_eq_none {c : Char} {name : Str} (h : c ∉ name) : rsplitOnce c name = none := by
  induction name with
  | nil => rfl
  | cons x xs ih =>
    rw [List.mem_cons, not_or] at h
    rw [rsplitOnce, ih h.2]
    exact if_neg fun hx => h.1 hx.symm

theorem rsplitOnce_append {c : Char} {before after : Str} (h : c ∉ after) :
    rsplitOnce c (before ++ c :: after) = some (before, after) := by
  induction before with
  | nil =>
    rw [List.nil_append, rsplitOnce, rsplitOnce_eq_none h]
    exact if_pos rfl
  | cons x xs ih => rw [List.cons_append, rsplitOnce, ih]

theorem rsplitOnce_eq_some {c : Char} {name before after : Str}
    (h : rsplitOnce c name = some (before, after)) : name = before ++ c :: after := by
  induction name generalizing before with
  | nil => cases h
  | cons x xs ih =>
    unfold rsplitOnce at h
    cases hxs : rsplitOnce c xs with
    | some split =>
      rw [hxs] at h
      cases h
      rw [ih hxs, List.cons_append]
    | none =>
      rw [hxs] at h
      by_cases hx : x = c
      · simp only [if_pos hx] at h
        cases h
        rw [hx, List.nil_append]
      · simp only [if_neg hx] at h
        cases h

/-- The separator does not occur after the last separator. -/
theorem not_mem_of_rsplitOnce {c : Char} {name before after : Str}
    (h : rsplitOnce c name = some (before, after)) : c ∉ after := by
  induction name generalizing before with
  | nil => cases h
  | cons x xs ih =>
    unfold rsplitOnce at h
    cases hxs : rsplitOnce c xs with
    | some split =>
      rw [hxs] at h
      cases h
      exact ih hxs
    | none =>
      rw [hxs] at h
      by_cases hx : x = c
      · simp only [if_pos hx] at h
        cases h
        exact not_mem_of_rsplitOnce_eq_none hxs
      · simp only [if_neg hx] at h
        cases h

/-! ## Denial -/

theorem isDenied_iff {denied : Str → Bool} {name : Str} :
    isDenied denied name = true ↔ ∃ p ∈ prefixes name, denied p = true := by
  unfold isDenied
  exact List.any_eq_true

/-- A package that is denied denies what lies in it. -/
theorem isDenied_of_mem_prefixes {denied : Str → Bool} {p name : Str}
    (h : isDenied denied p = true) (hp : p ∈ prefixes name) : isDenied denied name = true := by
  obtain ⟨q, hq, hd⟩ := isDenied_iff.1 h
  exact isDenied_iff.2 ⟨q, mem_prefixes_trans hq hp, hd⟩

theorem not_denied_of_mem_prefixes {denied : Str → Bool} {p name : Str}
    (h : isDenied denied name = false) (hp : p ∈ prefixes name) : isDenied denied p = false := by
  rcases hd : isDenied denied p with _ | _
  · rfl
  · rw [isDenied_of_mem_prefixes hd hp] at h
    cases h

example : prefixes "a.b.c".toList = ["a".toList, "a.b".toList, "a.b.c".toList] := by decide

/-! ## Relative names -/

/-- Drops the last component `levels` times. -/
def ancestor (package : Str) : Nat → Option Str
  | 0 => some package
  | levels + 1 =>
    match rsplitOnce '.' package with
    | some (before, _) => ancestor before levels
    | none => none

def join (base name : Str) : Str := if name = [] then base else base ++ '.' :: name

def absolutise {Ex : Type} (package name : Str) (level : Nat) : Except (Error Ex) Str :=
  if package = [] then
    .error (.import (String.ofList name) "attempted relative import with no known parent package")
  else
    match ancestor package (level - 1) with
    | some base => .ok (join base name)
    | none =>
      .error (.import (String.ofList name) "attempted relative import beyond top-level package")

end DottedName

end GuestPy
