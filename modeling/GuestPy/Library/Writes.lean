import Mathlib

/-!
# Writes to keys

A list of writes, of which the last one to a key is in force.

* `lastWrite` is what a key holds at the end (`getElem?_foldl_insert`).
* `lastWrite_filterMap_eq_some_iff` says which step of a run wrote it.
* As long as no two writes to a key differ, their order does not matter (`lastWrite_perm`).
-/

namespace GuestPy

variable {α κ ν : Type} [DecidableEq κ]

/-- What is written last to a key. -/
def lastWrite : List (κ × ν) → κ → Option ν
  | [], _ => none
  | w :: ws, k => (lastWrite ws k).or (if w.1 = k then some w.2 else none)

theorem lastWrite_append (ws ws' : List (κ × ν)) (k : κ) :
    lastWrite (ws ++ ws') k = (lastWrite ws' k).or (lastWrite ws k) := by
  induction ws with
  | nil => simp [lastWrite]
  | cons w ws ih => simp [lastWrite, ih, Option.or_assoc]

theorem lastWrite_concat (ws : List (κ × ν)) (w : κ × ν) (k : κ) :
    lastWrite (ws ++ [w]) k = if w.1 = k then some w.2 else lastWrite ws k := by
  rw [lastWrite_append]
  by_cases h : w.1 = k
  · simp [lastWrite, h]
  · simp [lastWrite, h]

/-- What is written may be changed beforehand. -/
theorem lastWrite_map {μ : Type} (f : ν → μ) (ws : List (κ × ν)) (k : κ) :
    lastWrite (ws.map fun w => (w.1, f w.2)) k = (lastWrite ws k).map f := by
  induction ws with
  | nil => rfl
  | cons w ws ih =>
    rw [List.map_cons, lastWrite, lastWrite, ih, Option.map_or]
    split <;> rfl

theorem mem_of_lastWrite_eq_some {ws : List (κ × ν)} {k : κ} {v : ν}
    (h : lastWrite ws k = some v) : (k, v) ∈ ws := by
  induction ws with
  | nil => cases h
  | cons w ws ih =>
    rw [lastWrite, Option.or_eq_some_iff] at h
    rcases h with h | ⟨-, h⟩
    · exact List.mem_cons_of_mem _ (ih h)
    · split at h
      · rename_i hk
        cases h
        exact hk ▸ List.mem_cons_self
      · cases h

theorem lastWrite_eq_none_iff {ws : List (κ × ν)} {k : κ} :
    lastWrite ws k = none ↔ ∀ w ∈ ws, w.1 ≠ k := by
  induction ws with
  | nil => simp [lastWrite]
  | cons w ws ih => simp [lastWrite, ih, and_comm]

/-- The step of a run that writes what a key holds at the end. -/
theorem lastWrite_filterMap_eq_some_iff {f : α → Option (κ × ν)} {as : List α} {k : κ} {v : ν} :
    lastWrite (as.filterMap f) k = some v ↔
      ∃ before a after, as = before ++ a :: after ∧ f a = some (k, v) ∧
        ∀ a' ∈ after, ∀ w, f a' = some w → w.1 ≠ k := by
  induction as with
  | nil => simp [lastWrite]
  | cons a as ih =>
    have hsplit : lastWrite ((a :: as).filterMap f) k =
        (lastWrite (as.filterMap f) k).or (lastWrite (f a).toList k) := by
      cases hf : f a <;> simp [hf, lastWrite]
    rw [hsplit, Option.or_eq_some_iff, ih]
    constructor
    · rintro (⟨before, a', after, rfl, hfa, hafter⟩ | ⟨hnone, hfa⟩)
      · exact ⟨a :: before, a', after, rfl, hfa, hafter⟩
      · refine ⟨[], a, as, rfl, ?_, ?_⟩
        · cases hf : f a with
          | none => simp [hf, lastWrite] at hfa
          | some w =>
            simp only [hf, Option.toList_some, lastWrite, Option.none_or,
              Option.ite_none_right_eq_some, Option.some.injEq] at hfa
            obtain ⟨rfl, rfl⟩ := hfa
            rfl
        · intro a' ha' w hw
          exact lastWrite_eq_none_iff.mp hnone w (List.mem_filterMap.mpr ⟨a', ha', hw⟩)
    · rintro ⟨before, a', after, has, hfa, hafter⟩
      cases before with
      | nil =>
        obtain ⟨rfl, rfl⟩ := List.cons_eq_cons.mp has
        refine .inr ⟨?_, by simp [hfa, lastWrite]⟩
        rw [lastWrite_eq_none_iff]
        intro w hw
        obtain ⟨a', ha', hw⟩ := List.mem_filterMap.mp hw
        exact hafter a' ha' w hw
      | cons b before =>
        obtain ⟨rfl, rfl⟩ := List.cons_eq_cons.mp has
        exact .inl ⟨before, a', after, rfl, hfa, hafter⟩

/-- No two writes to a key differ. -/
def Functional (ws : List (κ × ν)) : Prop := ∀ w ∈ ws, ∀ w' ∈ ws, w.1 = w'.1 → w.2 = w'.2

theorem lastWrite_eq_some_iff_mem {ws : List (κ × ν)} (h : Functional ws) {k : κ} {v : ν} :
    lastWrite ws k = some v ↔ (k, v) ∈ ws := by
  constructor
  · intro hlast
    rw [← List.filterMap_some (l := ws), lastWrite_filterMap_eq_some_iff] at hlast
    obtain ⟨before, w, after, rfl, hw, -⟩ := hlast
    cases hw
    simp
  · intro hmem
    cases hlast : lastWrite ws k with
    | none => exact absurd rfl (lastWrite_eq_none_iff.mp hlast _ hmem)
    | some v' =>
      rw [← List.filterMap_some (l := ws), lastWrite_filterMap_eq_some_iff] at hlast
      obtain ⟨before, w, after, hws, hw, -⟩ := hlast
      cases hw
      have hsame : v' = v := h (k, v') (by simp [hws]) _ hmem rfl
      rw [hsame]

theorem lastWrite_perm {ws ws' : List (κ × ν)} (hp : ws.Perm ws') (h : Functional ws) (k : κ) :
    lastWrite ws k = lastWrite ws' k := by
  have h' : Functional ws' := by
    intro w hw w' hw'
    exact h w (hp.mem_iff.mpr hw) w' (hp.mem_iff.mpr hw')
  ext v
  rw [lastWrite_eq_some_iff_mem h, lastWrite_eq_some_iff_mem h', hp.mem_iff]

/-- A map into which the writes are inserted one after another. -/
theorem getElem?_foldl_insert {cmp : κ → κ → Ordering} [Std.TransCmp cmp] [Std.LawfulEqCmp cmp]
    (ws : List (κ × ν)) (m : Std.ExtTreeMap κ ν cmp) (k : κ) :
    (ws.foldl (fun m w => m.insert w.1 w.2) m)[k]? = (lastWrite ws k).or m[k]? := by
  induction ws generalizing m with
  | nil => simp [lastWrite]
  | cons w ws ih =>
    rw [List.foldl_cons, ih, Std.ExtTreeMap.getElem?_insert]
    simp only [lastWrite, Option.or_assoc, Std.LawfulEqCmp.compare_eq_iff_eq]
    split <;> simp

end GuestPy
