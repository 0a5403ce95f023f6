import GuestPy.Engines.Entry

/-!
# Releasing objects

A handle releases its object on whatever thread it is dropped on, in an engine or outside. The
objects of RustPython may only be dropped inside. The end of a thread, which drops what `DEFERRED`
still holds back outside of any engine, is left out.

* `Kept` is what every event keeps of a thread: what was released on it has been dropped or is
  held back, and nothing is held back in `DEFERRED` while the thread is in an engine.
* `released`: no object is lost or dropped twice, each is dropped on its thread, and inside an
  engine if the interpreter is RustPython.
-/

namespace GuestPy.Engines

variable {backend : Backend} {t : Thread}

/-- What an event releases. -/
def Event.released : Event → Option ObjectId
  | .release o => some o
  | _ => none

/-- What a thread holds back. -/
def Thread.held (t : Thread) : List ObjectId := t.entries.flatMap Entry.taken ++ t.deferred

/-- What has become of the objects that a thread released. -/
structure Kept (backend : Backend) (released : List ObjectId) (t : Thread) : Prop where
  count : ∀ o, (t.dropped.map Prod.fst).count o + t.held.count o = released.count o
  deferred : t.entries ≠ [] → t.deferred = []
  cpython : backend = .cpython → t.held = []
  inside : backend = .rustpython → ∀ d ∈ t.dropped, d.2 ≠ none

/-- What holds of the objects released on a thread. -/
structure Released (backend : Backend) (t : ThreadId) (history : List (ThreadId × Event)) :
    Prop extends Kept backend ((own t history).filterMap Event.released)
      ((World.after backend history).threads t) where
  /-- In an engine nothing is held back any more once the deferred objects are dropped. -/
  settled : within t history ≠ [] →
    (∀ entry ∈ ((World.after backend history).threads t).entries, entry.taken = []) →
      ((World.after backend history).threads t).held = []

theorem kept_drop {released : List ObjectId} {o : ObjectId} (h : Kept backend released t)
    (hactive : backend = .rustpython → t.activeInterrupt ≠ none) :
    Kept backend (released ++ [o]) (t.drop o) where
  count o' := by
    have hcount := h.count o'
    change ((t.dropped ++ [(o, t.activeInterrupt)]).map Prod.fst).count o' + t.held.count o' = _
    rw [List.map_append, List.count_append, List.count_append]
    change _ + [o].count o' + _ = _
    omega
  deferred := h.deferred
  cpython := h.cpython
  inside hbackend d hd := by
    rcases List.mem_append.mp hd with hd | hd
    · exact h.inside hbackend d hd
    · rw [List.mem_singleton.mp hd]
      exact hactive hbackend

theorem kept_enter {released : List ObjectId} (h : Kept backend released t) (e : EngineId) :
    Kept backend released (t.enter backend e) := by
  cases backend with
  | cpython =>
    obtain ⟨-, hdeferred⟩ := List.append_eq_nil_iff.mp (h.cpython rfl)
    exact ⟨h.count, fun _ => hdeferred, h.cpython, nofun⟩
  | rustpython =>
    refine ⟨fun o => ?_, fun _ => rfl, nofun, h.inside⟩
    have hcount := h.count o
    simp only [Thread.held, Thread.enter, InterruptScope.new, List.flatMap_cons,
      List.count_append, List.count_nil] at hcount ⊢
    omega

theorem kept_collect {released : List ObjectId} (h : Kept backend released t)
    (hactive : t.entries ≠ [] → t.activeInterrupt ≠ none) :
    Kept backend released t.collect := by
  unfold Thread.collect
  split
  next scope o taken entries hentries =>
    have hne : t.entries ≠ [] := hentries ▸ List.cons_ne_nil _ _
    refine ⟨fun o' => ?_, fun _ => h.deferred hne, fun hbackend => ?_, fun hbackend d hd => ?_⟩
    · have hcount := h.count o'
      simp only [Thread.held, Thread.drop, hentries, List.flatMap_cons, List.map_append,
        List.map_cons, List.map_nil, List.count_append, List.count_cons, List.count_nil]
        at hcount ⊢
      omega
    · have hheld := h.cpython hbackend
      simp [Thread.held, hentries] at hheld
    · rcases List.mem_append.mp hd with hd | hd
      · exact h.inside hbackend d hd
      · rw [List.mem_singleton.mp hd]
        exact hactive hne
  next => exact h

theorem kept_leave {released : List ObjectId} (h : Kept backend released t)
    (hactive : t.entries ≠ [] → t.activeInterrupt ≠ none) : Kept backend released t.leave := by
  unfold Thread.leave
  split
  next => exact h
  next entry entries hentries =>
    have hne : t.entries ≠ [] := hentries ▸ List.cons_ne_nil _ _
    rw [foldl_drop]
    refine ⟨fun o => ?_, fun _ => h.deferred hne, fun hbackend => ?_, fun hbackend d hd => ?_⟩
    · have hcount := h.count o
      simp only [Thread.held, InterruptScope.drop, hentries, List.flatMap_cons, List.map_append,
        List.map_map, Function.comp_def, List.map_id', List.count_append] at hcount ⊢
      omega
    · have hheld := h.cpython hbackend
      simp only [Thread.held, hentries, List.flatMap_cons, List.append_eq_nil_iff] at hheld
      exact List.append_eq_nil_iff.mpr ⟨hheld.1.2, hheld.2⟩
    · rcases List.mem_append.mp hd with hd | hd
      · exact h.inside hbackend d hd
      · obtain ⟨o, -, rfl⟩ := List.mem_map.mp hd
        exact hactive hne

/-- What is released in no engine waits for the next one. -/
theorem kept_release {released : List ObjectId} (h : Kept backend released t)
    (hactive : t.entries ≠ [] → t.activeInterrupt ≠ none) (o : ObjectId) :
    Kept backend (released ++ [o]) (t.release backend o) := by
  cases backend with
  | cpython => exact kept_drop h nofun
  | rustpython =>
    unfold Thread.release
    dsimp only
    by_cases hset : t.currentVmIsSet = true
    · rw [if_pos hset]
      refine kept_drop h fun _ => hactive ?_
      rintro hentries
      simp [Thread.currentVmIsSet, hentries] at hset
    · rw [if_neg hset]
      have hentries : t.entries = [] := by simpa [Thread.currentVmIsSet] using hset
      refine ⟨fun o' => ?_, fun hne => absurd hentries hne, nofun, h.inside⟩
      have hcount := h.count o'
      simp only [Thread.held, List.count_append] at hcount ⊢
      omega

theorem kept_step {released : List ObjectId} (h : Kept backend released t)
    (hactive : t.entries ≠ [] → t.activeInterrupt ≠ none) (event : Event) :
    Kept backend (released ++ event.released.toList) (t.step backend event) := by
  cases event with
  | release o => exact kept_release h hactive o
  | enter e => exact (List.append_nil released).symm ▸ kept_enter h e
  | collect => exact (List.append_nil released).symm ▸ kept_collect h hactive
  | leave => exact (List.append_nil released).symm ▸ kept_leave h hactive
  | _ => exact (List.append_nil released).symm ▸ h

/-- A thread that runs `enter` is in an engine. -/
theorem activeInterrupt_ne_none (backend : Backend) (history : List (ThreadId × Event))
    (t : ThreadId) (h : ((World.after backend history).threads t).entries ≠ []) :
    ((World.after backend history).threads t).activeInterrupt ≠ none := by
  have hnested := nested_after backend history t
  rw [hnested.head]
  cases hengines : within t history with
  | nil => exact absurd (hnested.eq_nil_iff.mpr hengines) h
  | cons e engines => exact nofun

theorem kept_after (backend : Backend) (t : ThreadId) (history : List (ThreadId × Event)) :
    Kept backend ((own t history).filterMap Event.released)
      ((World.after backend history).threads t) := by
  induction history using List.reverseRecOn with
  | nil => exact ⟨fun _ => rfl, fun _ => rfl, fun _ => rfl, nofun⟩
  | append_singleton history event ih =>
    have hactive := activeInterrupt_ne_none backend history t
    rw [World.after_concat, threads_step]
    unfold own at ih ⊢
    rw [List.filterMap_append, List.filterMap_append]
    obtain ⟨t', event⟩ := event
    by_cases ht : t' = t
    · subst ht
      have hlast : [event].filterMap Event.released = event.released.toList := by
        cases h : event.released <;> simp [h]
      simpa [hlast] using kept_step ih hactive event
    · simpa [ht] using ih

/-- **No object is lost or dropped twice.** -/
theorem released (backend : Backend) (t : ThreadId) (history : List (ThreadId × Event)) :
    Released backend t history where
  toKept := kept_after backend t history
  settled hwithin htaken := by
    have hkept := kept_after backend t history
    have hne : ((World.after backend history).threads t).entries ≠ [] := fun hentries =>
      hwithin ((nested_after backend history t).eq_nil_iff.mp hentries)
    unfold Thread.held
    rw [hkept.deferred hne, List.append_nil, List.flatMap_eq_nil_iff]
    exact htaken

end GuestPy.Engines
