import GuestPy.Guest.Activity

/-!
# The stack of active guests and the depths

The stack is shared by all guests, the depth counters are not. `Balanced` says that they
agree: each guest has as many entries as its depth, so the innermost guest is one that is
active.

* `step_cases` lists all that an action does to the stack, the tokens and the depths.
* `Consistent` holds in every state: the depths count the tokens, and the stack is as long
  as there are tokens. So no assertion of a destructor fails (`drop_isSome`).
* `balanced_iff_dropsInnermost` is the exact condition on a run: a destructor removes the
  last entry, whichever guest it is of, so each token has to be dropped while its guest is
  the innermost one.
-/

namespace GuestPy.RuntimeInner

/-! ## Reading the state -/

section Reading

variable {r : RuntimeInner} {g x : GuestId} {inner : GuestInner} {i : Option GuestInner}

theorem set_guests_self : (r.set g i).guests g = i := Function.update_self ..

theorem set_guests_of_ne (h : x ≠ g) : (r.set g i).guests x = r.guests x :=
  Function.update_of_ne h ..

theorem depth_of_guests (h : r.guests g = some inner) : r.depth g = inner.activity.depth := by
  rw [depth, h]

theorem depth_of_none (h : r.guests g = none) : r.depth g = 0 := by
  rw [depth, h]

theorem depth_congr {r' : RuntimeInner} (h : r'.guests x = r.guests x) :
    r'.depth x = r.depth x := by
  rw [depth, depth, h]

theorem depth_set_self : (r.set g (some inner)).depth g = inner.activity.depth :=
  depth_of_guests set_guests_self

theorem depth_set_of_ne (h : x ≠ g) : (r.set g i).depth x = r.depth x :=
  depth_congr (set_guests_of_ne h)

/-- Replacing a guest by one of the same depth changes no depth. -/
theorem depth_set_same (hd : inner.activity.depth = r.depth g) :
    (r.set g (some inner)).depth x = r.depth x := by
  by_cases h : x = g
  · subst h
    rw [depth_set_self, hd]
  · exact depth_set_of_ne h

theorem innermost_eq_some (h : r.innermost = some g) :
    ∃ rest, r.active = g :: rest ∧ ∃ inner, r.guests g = some inner := by
  unfold innermost at h
  rcases ha : r.active with _ | ⟨y, rest⟩
  · rw [ha] at h
    cases h
  · rw [ha] at h
    obtain ⟨hy, hs⟩ := Option.filter_eq_some_iff.1 h
    cases hy
    exact ⟨rest, rfl, Option.isSome_iff_exists.1 hs⟩

end Reading

/-! ## What an action does -/

/-- No identifier comes into use. -/
structure Grows (r r' : RuntimeInner) : Prop where
  nextId : r'.nextId = r.nextId
  absent : ∀ x, r.guests x = none → r'.guests x = none

/-- The stack, the tokens and the depths stay. -/
structure Quiet (r r' : RuntimeInner) : Prop extends Grows r r' where
  active : r'.active = r.active
  tokens : r'.tokens = r.tokens
  depth : ∀ x, r'.depth x = r.depth x

/-- The next identifier goes to a new guest. -/
structure Built (g : GuestId) (r r' : RuntimeInner) : Prop where
  value : g.value = r.nextId
  nextId : r'.nextId = r.nextId + 1
  active : r'.active = r.active
  tokens : r'.tokens = r.tokens
  inactive : r'.depth g = 0
  others : ∀ x, x ≠ g → r'.guests x = r.guests x

/-- A token of `g` is taken. -/
structure Pushed (g : GuestId) (r r' : RuntimeInner) : Prop extends Grows r r' where
  active : r'.active = g :: r.active
  tokens : r'.tokens = g :: r.tokens
  depth : r'.depth g = r.depth g + 1
  others : ∀ x, x ≠ g → r'.depth x = r.depth x

/-- A token of `g` is dropped, and the last entry of the stack goes. -/
structure Popped (g : GuestId) (r r' : RuntimeInner) : Prop extends Grows r r' where
  held : g ∈ r.tokens
  active : ∃ top, r.active = top :: r'.active
  tokens : r'.tokens = r.tokens.erase g
  depth : r'.depth g + 1 = r.depth g
  others : ∀ x, x ≠ g → r'.depth x = r.depth x

/-- What holds whatever the order of the actions. -/
structure Consistent (r : RuntimeInner) : Prop where
  counted : ∀ x, r.depth x = r.tokens.count x
  length : r.active.length = r.tokens.length
  fresh : ∀ x : GuestId, r.nextId ≤ x.value → r.guests x = none

section Operations

variable {r r' : RuntimeInner} {g : GuestId} {inner : GuestInner} {activation : Activation}
  {Ex : Type}

theorem Quiet.refl (r : RuntimeInner) : Quiet r r :=
  ⟨⟨rfl, fun _ h => h⟩, rfl, rfl, fun _ => rfl⟩

theorem Quiet.trans {r'' : RuntimeInner} (h : Quiet r r') (h' : Quiet r' r'') : Quiet r r'' where
  nextId := h'.nextId.trans h.nextId
  absent x hx := h'.absent x (h.absent x hx)
  active := h'.active.trans h.active
  tokens := h'.tokens.trans h.tokens
  depth x := (h'.depth x).trans (h.depth x)

theorem grows_set (hg : r.guests g = some inner) (i : Option GuestInner) :
    Grows r (r.set g i) := by
  refine ⟨rfl, fun x hx => ?_⟩
  by_cases hxg : x = g
  · subst hxg
    rw [hx] at hg
    cases hg
  · rw [set_guests_of_ne hxg, hx]

/-- A guest is freed only when no token of it is left, so at depth 0. -/
theorem quiet_release (hc : r.depth g = r.tokens.count g) : Quiet r (r.release g) := by
  unfold release
  rcases hg : r.guests g with _ | inner
  · exact .refl r
  · by_cases h : inner.handles = 0 ∧ r.tokens.count g = 0
    · simp only [h, and_self, if_true]
      refine ⟨grows_set hg none, rfl, rfl, fun x => ?_⟩
      by_cases hx : x = g
      · subst hx
        rw [depth_of_none set_guests_self, hc, h.2]
      · exact depth_set_of_ne hx
    · simp only [h, if_false]
      exact .refl r

theorem quiet_update {f : GuestInner → GuestInner}
    (hf : ∀ inner, (f inner).activity.depth = inner.activity.depth) :
    Quiet r (r.update g f) := by
  unfold update
  rcases hg : r.guests g with _ | inner
  · exact .refl r
  · exact ⟨grows_set hg _, rfl, rfl, fun _ => depth_set_same (by rw [hf, depth_of_guests hg])⟩

theorem quiet_or_built (policy : ExecutionPolicy) :
    Quiet r (r.build policy) ∨ ∃ g, Built g r (r.build policy) := by
  unfold build takeNextId
  by_cases hn : r.nextId < u64Max
  · rcases hg : GuestId.fromU64 r.nextId with _ | g
    · simp only [hn, if_true, hg]
      exact Or.inl (.refl r)
    · simp only [hn, if_true, hg]
      exact Or.inr ⟨g, GuestId.fromU64_eq_some hg, rfl, rfl, rfl, depth_set_self,
        fun x hx => set_guests_of_ne hx⟩
  · simp only [hn, if_false]
    exact Or.inl (.refl r)

theorem pushed_new (hg : r.guests g = some inner)
    (h : ActiveGuest.new r g inner activation = (.ok r' : Except (Error Ex) _)) :
    Pushed g r r' := by
  unfold ActiveGuest.new at h
  split at h
  · next activity hb =>
    cases h
    have hd : activity.depth = inner.activity.depth + 1 := GuestActivity.begin_depth hb
    have hgrows := grows_set hg (some { inner with activity })
    refine ⟨⟨hgrows.nextId, hgrows.absent⟩, rfl, rfl, ?_, fun x hx => depth_set_of_ne hx⟩
    calc RuntimeInner.depth _ g
        = activity.depth := depth_set_self
      _ = r.depth g + 1 := by rw [hd, depth_of_guests hg]
  · cases h

/-- The way in takes a token, unless its guest is the innermost one. -/
theorem enterWith_cases (hg : r.guests g = some inner)
    (h : enterWith r g inner activation = (.ok r' : Except (Error Ex) _)) :
    (r.innermost = some g ∧ r' = r) ∨ Pushed g r r' := by
  unfold enterWith at h
  split at h
  · cases h
  · split at h
    · next hi =>
      cases h
      exact Or.inl ⟨by simpa [isInnermost] using hi, rfl⟩
    · exact Or.inr (pushed_new hg h)

/-- No assertion of the destructor fails. -/
theorem drop_isSome (hr : Consistent r) (hg : g ∈ r.tokens) (hi : r.guests g = some inner) :
    ∃ r', ActiveGuest.drop r g inner = some r' ∧ Popped g r r' := by
  have hcount : 0 < r.tokens.count g := List.count_pos_iff.2 hg
  have hdepth : r.depth g = inner.activity.depth := depth_of_guests hi
  have hpos : 0 < inner.activity.depth := by
    rw [← hdepth, hr.counted]
    exact hcount
  obtain ⟨activity, hfinish, hd⟩ := GuestActivity.finish_of_pos hpos
  rcases ha : r.active with _ | ⟨top, rest⟩
  · have hlen := hr.length
    rw [ha, List.length_nil] at hlen
    rw [List.eq_nil_of_length_eq_zero hlen.symm] at hg
    cases hg
  · let popped : RuntimeInner :=
      { ({ r with active := rest } : RuntimeInner).set g (some { inner with activity }) with
        tokens := r.tokens.erase g }
    have hpopped : popped.depth g + 1 = r.depth g := by
      have h : popped.depth g = activity.depth := depth_of_guests set_guests_self
      rw [h, hd, hdepth]
      omega
    have hcounted : popped.depth g = popped.tokens.count g := by
      have h : popped.tokens.count g = r.tokens.count g - 1 := List.count_erase_self
      have h' := hr.counted g
      omega
    have hquiet : Quiet popped (popped.release g) := quiet_release hcounted
    have hgrows := grows_set hi (some { inner with activity })
    refine ⟨popped.release g, ?_, ⟨hquiet.nextId, fun x hx => ?_⟩, hg, ⟨top, ?_⟩,
      hquiet.tokens, ?_, fun x hx => ?_⟩
    · unfold ActiveGuest.drop pop
      rw [ha, hfinish]
    · exact hquiet.absent x (hgrows.absent x hx)
    · rw [hquiet.active, ha]
      rfl
    · rw [hquiet.depth, hpopped]
    · rw [hquiet.depth]
      exact depth_congr (set_guests_of_ne hx)

end Operations

/-! ## One step -/

/-- An action builds a guest, takes a token, drops the token it is about, or leaves the
stack, the tokens and the depths alone. -/
theorem step_cases {r : RuntimeInner} (hr : Consistent r) (a : Action) :
    Quiet r (r.step a) ∨ (∃ g, Built g r (r.step a)) ∨ (∃ g, Pushed g r (r.step a)) ∨
      ∃ g, a = .drop g ∧ Popped g r (r.step a) := by
  cases a with
  | build policy =>
    rcases quiet_or_built (r := r) policy with h | h
    · exact Or.inl h
    · exact Or.inr (Or.inl h)
  | begin g activation =>
    rcases hg : r.guests g with _ | inner
    · simp only [step, hg]
      exact Or.inl (.refl r)
    · rcases hn : (ActiveGuest.new r g inner activation : Except (Error Unit) _) with e | r'
      · simp only [step, hg, hn]
        exact Or.inl (.refl r)
      · simp only [step, hg, hn]
        exact Or.inr (Or.inr (Or.inl ⟨g, pushed_new hg hn⟩))
  | enter g activation =>
    rcases hg : r.guests g with _ | inner
    · simp only [step, hg]
      exact Or.inl (.refl r)
    · rcases hn : (enterWith r g inner activation : Except (Error Unit) _) with e | r'
      · simp only [step, hg, hn]
        exact Or.inl (.refl r)
      · simp only [step, hg, hn]
        rcases enterWith_cases hg hn with ⟨-, rfl⟩ | h
        · exact Or.inl (.refl r')
        · exact Or.inr (Or.inr (Or.inl ⟨g, h⟩))
  | drop g =>
    by_cases ht : g ∈ r.tokens
    · rcases hg : r.guests g with _ | inner
      · simp only [step, hg, ht, if_true]
        exact Or.inl (.refl r)
      · obtain ⟨r', hd, hp⟩ := drop_isSome hr ht hg
        simp only [step, hg, ht, if_true, hd, Option.getD_some]
        exact Or.inr (Or.inr (Or.inr ⟨g, rfl, hp⟩))
    · simp only [step, ht, if_false]
      exact Or.inl (.refl r)
  | clone g => exact Or.inl (quiet_update fun _ => rfl)
  | forget g =>
    have h : Quiet r (r.update g fun inner => { inner with handles := inner.handles - 1 }) :=
      quiet_update fun _ => rfl
    exact Or.inl (h.trans (quiet_release (by rw [h.depth, h.tokens, hr.counted])))
  | close g => exact Or.inl (quiet_update fun _ => rfl)
  | signal g answer => exact Or.inl (quiet_update fun _ => rfl)
  | tick nanos => exact Or.inl ⟨⟨rfl, fun _ h => h⟩, rfl, rfl, fun _ => rfl⟩

theorem Grows.fresh {r r' : RuntimeInner} (h : Grows r r') (hr : Consistent r) :
    ∀ x : GuestId, r'.nextId ≤ x.value → r'.guests x = none :=
  fun x hx => h.absent x (hr.fresh x (h.nextId ▸ hx))

theorem Pushed.consistent {r r' : RuntimeInner} {g : GuestId} (h : Pushed g r r')
    (hr : Consistent r) : Consistent r' := by
  refine ⟨fun x => ?_, ?_, h.fresh hr⟩
  · rw [h.tokens]
    by_cases hx : x = g
    · rw [hx, h.depth, List.count_cons_self, hr.counted]
    · rw [h.others x hx, List.count_cons_of_ne (Ne.symm hx), hr.counted]
  · rw [h.active, h.tokens, List.length_cons, List.length_cons, hr.length]

theorem consistent_step (r : RuntimeInner) (a : Action) (hr : Consistent r) :
    Consistent (r.step a) := by
  rcases step_cases hr a with h | ⟨g, h⟩ | ⟨g, h⟩ | ⟨g, -, h⟩
  · refine ⟨fun x => ?_, ?_, h.fresh hr⟩
    · rw [h.depth, h.tokens, hr.counted]
    · rw [h.active, h.tokens, hr.length]
  · have hnone : r.guests g = none := hr.fresh g (Nat.le_of_eq h.value.symm)
    refine ⟨fun x => ?_, ?_, fun x hx => ?_⟩
    · rw [h.tokens, ← hr.counted]
      by_cases hx : x = g
      · rw [hx, h.inactive, depth_of_none hnone]
      · exact depth_congr (h.others x hx)
    · rw [h.active, h.tokens, hr.length]
    · rw [h.nextId] at hx
      have hne : x ≠ g := by
        rintro rfl
        have := h.value
        omega
      rw [h.others x hne]
      exact hr.fresh x (by omega)
  · exact h.consistent hr
  · obtain ⟨top, htop⟩ := h.active
    refine ⟨fun x => ?_, ?_, h.fresh hr⟩
    · rw [h.tokens]
      by_cases hx : x = g
      · have hd := h.depth
        rw [hx, List.count_erase_self, ← hr.counted]
        omega
      · rw [h.others x hx, List.count_erase_of_ne hx, hr.counted]
    · have hlen := hr.length
      rw [htop, List.length_cons] at hlen
      rw [h.tokens, List.length_erase_of_mem h.held]
      omega

theorem consistent_new : Consistent new :=
  ⟨fun _ => rfl, rfl, fun _ _ => rfl⟩

/-! ## Balance -/

/-- Each guest has as many entries on the stack as its depth. So the innermost guest is
active, and whoever gets in, gets in to an active guest. -/
structure Balanced (r : RuntimeInner) : Prop where
  entries : ∀ g, r.active.count g = r.depth g
  innermost : ∀ g, r.innermost = some g → 0 < r.depth g
  entered : ∀ g inner activation r', r.guests g = some inner →
    enterWith r g inner activation = (.ok r' : Except (Error Unit) _) → 0 < r'.depth g

/-- A token is dropped only while its guest has the last entry of the stack. -/
def DropsInnermost (r : RuntimeInner) (a : Action) : Prop :=
  ∀ g, a = .drop g → g ∈ r.tokens → r.active.head? = some g

theorem balanced_iff_entries {r : RuntimeInner} :
    Balanced r ↔ ∀ g, r.active.count g = r.depth g := by
  refine ⟨fun h => h.entries, fun h => ?_⟩
  have hinnermost : ∀ g, r.innermost = some g → 0 < r.depth g := by
    intro g hg
    obtain ⟨rest, hactive, -⟩ := innermost_eq_some hg
    rw [← h g, hactive, List.count_cons_self]
    exact Nat.succ_pos _
  refine ⟨h, hinnermost, fun g inner activation r' hg hr => ?_⟩
  rcases enterWith_cases hg hr with ⟨hi, rfl⟩ | hp
  · exact hinnermost g hi
  · rw [hp.depth]
    exact Nat.succ_pos _

/-- A pop takes the right entry away exactly when the guest of the token has the last one. -/
theorem Popped.entries_iff {r r' : RuntimeInner} {g : GuestId} (h : Popped g r r')
    (hr : ∀ x, r.active.count x = r.depth x) :
    (∀ x, r'.active.count x = r'.depth x) ↔ r.active.head? = some g := by
  obtain ⟨top, htop⟩ := h.active
  have hcount : ∀ x, (top :: r'.active).count x = r.depth x := fun x => htop ▸ hr x
  have hdepth := h.depth
  rw [htop, List.head?_cons]
  constructor
  · intro hx
    by_contra hne
    have hne : top ≠ g := fun h => hne (congrArg some h)
    have hg := hcount g
    rw [List.count_cons_of_ne hne, hx] at hg
    omega
  · intro hg x
    have hg : top = g := Option.some.inj hg
    subst hg
    by_cases hx : x = top
    · have hg := hcount top
      rw [List.count_cons_self] at hg
      rw [hx]
      omega
    · rw [h.others x hx, ← hcount x, List.count_cons_of_ne (Ne.symm hx)]

theorem step_balanced_iff {r : RuntimeInner} (hr : Consistent r) (hb : Balanced r) (a : Action) :
    Balanced (r.step a) ↔ DropsInnermost r a := by
  rw [balanced_iff_entries] at hb ⊢
  by_cases hdrop : ∃ g, a = .drop g ∧ g ∈ r.tokens
  · obtain ⟨g, rfl, hg⟩ := hdrop
    have hiff : DropsInnermost r (.drop g) ↔ r.active.head? = some g :=
      ⟨fun h => h g rfl hg, fun h x hx _ => by cases hx; exact h⟩
    rw [hiff]
    have hd : 0 < r.depth g := by
      rw [hr.counted]
      exact List.count_pos_iff.2 hg
    rcases hi : r.guests g with _ | inner
    · rw [depth_of_none hi] at hd
      omega
    · obtain ⟨r', hr', hp⟩ := drop_isSome hr hg hi
      have hstep : r.step (.drop g) = r' := by
        simp only [step, hg, hi, if_true, hr', Option.getD_some]
      rw [hstep]
      exact hp.entries_iff hb
  · have hd : DropsInnermost r a := fun g ha hg => absurd ⟨g, ha, hg⟩ hdrop
    refine ⟨fun _ => hd, fun _ x => ?_⟩
    rcases step_cases hr a with h | ⟨g, h⟩ | ⟨g, h⟩ | ⟨g, ha, h⟩
    · rw [h.active, h.depth, hb]
    · rw [h.active, hb]
      by_cases hx : x = g
      · rw [hx, h.inactive, depth_of_none (hr.fresh g (Nat.le_of_eq h.value.symm))]
      · exact (depth_congr (h.others x hx)).symm
    · rw [h.active]
      by_cases hx : x = g
      · rw [hx, List.count_cons_self, h.depth, hb]
      · rw [List.count_cons_of_ne (Ne.symm hx), h.others x hx, hb]
    · exact absurd ⟨g, ha, h.held⟩ hdrop

/-- **The stack and the depths agree throughout a run exactly when every token of the run is
dropped while its guest is the innermost one.** -/
theorem balanced_iff_dropsInnermost (as : List Action) :
    Throughout step Balanced new as ↔ Along step DropsInnermost new as :=
  throughout_iff_along consistent_step (fun _ a hr hb => step_balanced_iff hr hb a)
    consistent_new (balanced_iff_entries.2 fun _ => rfl)

/-- Two guests, a token of each, and the first token is dropped first: the second guest has
lost its entry, and the first, now inactive, is the innermost one. -/
theorem not_balanced_of_drop_order : ¬ ∀ as, Throughout step Balanced new as := by
  intro h
  let first : GuestId := ⟨1, by decide⟩
  let second : GuestId := ⟨2, by decide⟩
  have hrun := h [.build .new, .build .new, .begin first .operation, .begin second .operation,
    .drop first]
  have hlast := hrun.2.2.2.2.2.entries second
  exact absurd hlast (by decide)

end GuestPy.RuntimeInner
