import GuestPy.Payloads.Store

/-!
# Borrows of payloads

Host code that holds a guard relies on the payload behind it: `Deref` of a guard panics on an
object without one. The invariant of the store shows that this never happens, whatever else runs
while the guard is held.

* `sound_perform` is the step lemma.
* `guards_never_dangle` is about all runs of both backends.
* `through_final`: through a guard one reads what was last written through it, and nothing else
  that runs changes it.
-/

namespace GuestPy.Payloads

open Borrows Store

variable {O V : Type} {B : Backend O V} {s s' : Store O}

/-! ## Guards of one object -/

theorem mem_guardsOf {p : GuardId × Guard} {x : ObjectId} :
    p ∈ s.guardsOf x ↔ p ∈ s.guards ∧ p.2.object = x := by
  simp [Store.guardsOf, List.mem_filter]

theorem kindsOf_eq_nil_iff {x : ObjectId} :
    s.kindsOf x = [] ↔ ∀ p ∈ s.guards, p.2.object ≠ x := by
  simp [Store.kindsOf, Store.guardsOf, List.filter_eq_nil_iff]

/-- Nothing refers to an object that does not exist. -/
theorem object_ne_of_none (h : Sound B s) {x : ObjectId} (hx : s.objects x = none)
    {p : GuardId × Guard} (hp : p ∈ s.guards) : p.2.object ≠ x := by
  rintro rfl
  have hlive := h.live p hp
  simp [Backend.through, hx] at hlive

/-- Where an object can be borrowed exclusively, nothing is borrowed from it. -/
theorem kindsOf_of_take_exclusive (h : Sound B s) {x : ObjectId} {cell : Cell O} {flag : Flag}
    (hx : s.objects x = some cell) (hflag : cell.flag.take .exclusive = some flag) :
    s.kindsOf x = [] := by
  have hcounts := Flag.counts_take (h.flags x cell hx) hflag
  exact (List.cons_eq_cons.mp (hcounts.compatible List.mem_cons_self)).2

/-- An exclusive guard is the only one of its object. -/
theorem guardsOf_of_exclusive (h : Sound B s) {g : GuardId} {gd : Guard}
    (hg : s.guard g = some gd) (hk : gd.kind = .exclusive) :
    s.guardsOf gd.object = [(g, gd)] := by
  have hmem : (g, gd) ∈ s.guardsOf gd.object := mem_guardsOf.mpr ⟨mem_of_guard hg, rfl⟩
  obtain ⟨cell, hcell⟩ := object_of_guard h hg
  have hkinds : s.kindsOf gd.object = [.exclusive] :=
    (h.flags _ _ hcell).compatible (List.mem_map.mpr ⟨_, hmem, hk⟩)
  obtain ⟨p, hp⟩ : ∃ p, s.guardsOf gd.object = [p] := by
    rw [← List.length_eq_one_iff, ← List.length_map (f := fun p : GuardId × Guard => p.2.kind)]
    exact congrArg List.length hkinds
  rw [hp] at hmem ⊢
  rw [List.mem_singleton.mp hmem]

/-! ## Steps -/

theorem through_set_of_ne {x : ObjectId} {cell : Cell O} {gd : Guard} (h : gd.object ≠ x) :
    B.through (s.set x cell) gd = B.through s gd := by
  simp only [Backend.through, set_objects_of_ne _ _ h]

theorem through_set_same {cell : Cell O} {gd : Guard} :
    B.through (s.set gd.object cell) gd = B.payload gd.type cell.content := by
  simp only [Backend.through, set_objects_same, Option.bind_some]

theorem through_setFlag {x : ObjectId} {cell : Cell O} {flag : Flag} {gd : Guard}
    (hx : s.objects x = some cell) :
    B.through (s.set x { cell with flag := flag }) gd = B.through s gd := by
  by_cases hobject : gd.object = x
  · subst hobject
    rw [through_set_same]
    simp only [Backend.through, hx, Option.bind_some]
  · exact through_set_of_ne hobject

theorem fresh_set (h : Sound B s) {x : ObjectId} {cell cell' : Cell O}
    (hx : s.objects x = some cell) :
    ∀ y, (s.set x cell').nextObject ≤ y → (s.set x cell').objects y = none := by
  intro y hy
  have hnone : s.objects y = none := h.fresh y hy
  have hyx : y ≠ x := by
    rintro rfl
    rw [hx] at hnone
    cases hnone
  rw [set_objects_of_ne _ _ hyx]
  exact hnone

theorem sound_add (h : Sound B s) (c : Class) (o : O) : Sound B (s.add ⟨c, o, .unused⟩) where
  fresh x hx := by
    have hlt : s.nextObject < x := hx
    change (s.set s.nextObject _).objects x = none
    rw [set_objects_of_ne _ _ hlt.ne']
    exact h.fresh x hlt.le
  ids := h.ids
  flags x cell hx := by
    change (s.set s.nextObject _).objects x = some cell at hx
    change cell.flag.Counts (s.kindsOf x)
    by_cases hxn : x = s.nextObject
    · subst hxn
      rw [set_objects_same] at hx
      cases hx
      have hnone := h.fresh _ (Nat.le_refl _)
      rw [kindsOf_eq_nil_iff.mpr fun p hp => object_ne_of_none h hnone hp]
      exact Flag.counts_unused
    · rw [set_objects_of_ne _ _ hxn] at hx
      exact h.flags x cell hx
  live p hp := by
    have hne := object_ne_of_none h (h.fresh _ (Nat.le_refl _)) hp
    change (B.through (s.set s.nextObject _) p.2).isSome
    rw [through_set_of_ne hne]
    exact h.live p hp

/-- The content of an object is replaced, and no other guard sees it. -/
theorem sound_setContent (h : Sound B s) {x : ObjectId} {cell : Cell O} {content : O}
    (hx : s.objects x = some cell)
    (hlive : ∀ p ∈ s.guards, p.2.object = x → (B.payload p.2.type content).isSome) :
    Sound B (s.set x { cell with content := content }) where
  fresh := fresh_set h hx
  ids := h.ids
  flags y cell' hy := by
    rw [kindsOf_eq_of_guards y (set_guards s x _)]
    by_cases hyx : y = x
    · subst hyx
      rw [set_objects_same] at hy
      cases hy
      exact h.flags y cell hx
    · rw [set_objects_of_ne _ _ hyx] at hy
      exact h.flags y cell' hy
  live p hp := by
    by_cases hpx : p.2.object = x
    · subst hpx
      rw [through_set_same]
      exact hlive p hp rfl
    · rw [through_set_of_ne hpx]
      exact h.live p hp

theorem sound_hold (h : Sound B s) {k : Kind} {type : TypeId} {x : ObjectId} {cell : Cell O}
    {flag : Flag} (hx : s.objects x = some cell) (hflag : cell.flag.take k = some flag)
    (hv : (B.payload type cell.content).isSome) :
    Sound B ((s.set x { cell with flag := flag }).hold ⟨x, k, type⟩) where
  fresh := fresh_set h hx
  ids p hp := by
    rcases List.mem_cons.mp hp with rfl | hp
    · exact Nat.lt_succ_self _
    · exact (h.ids p hp).trans (Nat.lt_succ_self _)
  flags y cell' hy := by
    rw [kindsOf_hold, kindsOf_eq_of_guards y (set_guards s x _)]
    by_cases hyx : y = x
    · subst hyx
      rw [hold_objects, set_objects_same] at hy
      cases hy
      rw [if_pos rfl]
      exact Flag.counts_take (h.flags y cell hx) hflag
    · rw [hold_objects, set_objects_of_ne _ _ hyx] at hy
      rw [if_neg fun heq => hyx heq.symm]
      exact h.flags y cell' hy
  live p hp := by
    change (B.through (s.set x { cell with flag := flag }) p.2).isSome
    rw [through_setFlag hx]
    rcases List.mem_cons.mp hp with rfl | hp
    · simpa only [Backend.through, hx, Option.bind_some] using hv
    · exact h.live p hp

/-- What is borrowed from the objects once a guard is dropped. -/
theorem kindsOf_letGo {g : GuardId} {gd : Guard} (hg : s.guard g = some gd) (x : ObjectId) :
    (s.kindsOf x).Perm (if gd.object = x then gd.kind :: (s.letGo g).kindsOf x
      else (s.letGo g).kindsOf x) := by
  obtain ⟨before, after, hguards, hletGo⟩ := guard_split hg
  by_cases hx : gd.object = x
  · simp only [Store.kindsOf, Store.guardsOf, hguards, hletGo, hx, List.filter_append,
      List.map_append, if_true, beq_self_eq_true, List.filter_cons, List.map_cons]
    exact List.perm_middle
  · simp [Store.kindsOf, Store.guardsOf, hguards, hletGo, hx]

theorem mem_guards_letGo {g : GuardId} {gd : Guard} (hg : s.guard g = some gd)
    {p : GuardId × Guard} (hp : p ∈ (s.letGo g).guards) : p ∈ s.guards := by
  obtain ⟨before, after, hguards, hletGo⟩ := guard_split hg
  rw [hletGo] at hp
  rw [hguards]
  exact (List.sublist_cons_self _ _).append_left before |>.mem hp

theorem sound_letGo (h : Sound B s) {g : GuardId} {gd : Guard} {cell : Cell O}
    (hg : s.guard g = some gd) (hx : s.objects gd.object = some cell) :
    Sound B ((s.set gd.object { cell with flag := cell.flag.give }).letGo g) where
  fresh := fresh_set h hx
  ids p hp := h.ids p (mem_guards_letGo hg hp)
  flags y cell' hy := by
    rw [letGo_objects] at hy
    change cell'.flag.Counts ((s.letGo g).kindsOf y)
    have hperm := kindsOf_letGo hg y
    by_cases hy' : y = gd.object
    · subst hy'
      rw [set_objects_same] at hy
      cases hy
      rw [if_pos rfl] at hperm
      exact Flag.counts_give ((h.flags _ _ hx).perm hperm)
    · rw [set_objects_of_ne _ _ hy'] at hy
      rw [if_neg fun heq => hy' heq.symm] at hperm
      exact (h.flags y cell' hy).perm hperm
  live p hp := by
    change (B.through (s.set gd.object _) p.2).isSome
    rw [through_setFlag hx]
    exact h.live p (mem_guards_letGo hg hp)

theorem sound_step {op : Op V} {r : Reply V} (h : Sound B s) (hstep : Step B s op r s') :
    Sound B s' := by
  cases hstep with
  | stay => exact h
  | alloc type c o => exact sound_add h c o
  | @set type x cell flag v hx hflag =>
    have hnone := kindsOf_eq_nil_iff.mp (kindsOf_of_take_exclusive h hx hflag)
    exact sound_setContent h hx fun p hp hpx => absurd hpx (hnone p hp)
  | borrow hx hflag hv => exact sound_hold h hx hflag hv
  | @write g gd cell v hg hk hx =>
    refine sound_setContent h hx fun p hp hpx => ?_
    have hp' : p ∈ s.guardsOf gd.object := mem_guardsOf.mpr ⟨hp, hpx⟩
    rw [guardsOf_of_exclusive h hg hk] at hp'
    rw [List.mem_singleton.mp hp', B.payload_setPayload]
    rfl
  | drop hg hx => exact sound_letGo h hg hx

theorem sound_perform (op : Op V) (h : Sound B s) : Sound B (B.perform s op).2 :=
  sound_step h (step_perform h op)

theorem sound_final (ops : List (Op V)) : Sound B (final B.perform Store.new ops) :=
  invariant_final (fun _ op h => sound_perform op h) sound_new ops

/-! ## No guard dangles -/

/-- What host code may rely on after a run: no step of it panicked, what is borrowed from an
object goes together, and a borrow is refused as such exactly if it does not go with that. -/
structure Guarded (B : Backend O V) (ops : List (Op V)) : Prop where
  no_panic : ∀ r ∈ answers B.perform Store.new ops, r ≠ .panic
  compatible : ∀ x, Compatible ((final B.perform Store.new ops).kindsOf x)
  refused_iff : ∀ k type x cell, (final B.perform Store.new ops).objects x = some cell →
    B.of type cell.content = true →
      ((B.perform (final B.perform Store.new ops) (.borrow k type (.object x))).1 =
        .error (borrowed k) ↔ ¬ Compatible (k :: (final B.perform Store.new ops).kindsOf x))

theorem no_panic_of_step {op : Op V} {r : Reply V} (hstep : Step B s op r s') : r ≠ .panic := by
  cases hstep with
  | stay hr => exact hr
  | alloc => exact nofun
  | set => exact nofun
  | borrow => exact nofun
  | write => exact nofun
  | drop => exact nofun

theorem compatible_kindsOf (h : Sound B s) (x : ObjectId) : Compatible (s.kindsOf x) := by
  cases hx : s.objects x with
  | none =>
    rw [kindsOf_eq_nil_iff.mpr fun p hp => object_ne_of_none h hx hp]
    exact nofun
  | some cell => exact (h.flags x cell hx).compatible

theorem borrowed_iff (h : Sound B s) {k : Kind} {type : TypeId} {x : ObjectId} {cell : Cell O}
    (hx : s.objects x = some cell) (hof : B.of type cell.content = true) :
    (B.perform s (.borrow k type (.object x))).1 = .error (borrowed k) ↔
      ¬ Compatible (k :: s.kindsOf x) := by
  have hfind : B.find type s (.object x) = .here x cell := by
    simp only [Backend.find, hx, hof, if_true]
  rw [← Flag.take_eq_none_iff (h.flags x cell hx)]
  simp only [Backend.perform, Backend.performBorrow, hfind]
  cases hflag : cell.flag.take k with
  | none => simp
  | some flag =>
    cases hv : B.payload type cell.content with
    | none => simp [missingPayload, borrowed]
    | some v => simp

theorem guarded (B : Backend O V) (ops : List (Op V)) : Guarded B ops where
  no_panic := forall_answers (fun _ op h => sound_perform op h)
    (fun _ op h => no_panic_of_step (step_perform h op)) sound_new ops
  compatible := compatible_kindsOf (sound_final ops)
  refused_iff _ _ _ _ hx hof := borrowed_iff (sound_final ops) hx hof

/-- **In every run of host code, on either backend, no guard is left without a payload of its type,
and a payload is never borrowed exclusively together with any other borrow.** -/
theorem guards_never_dangle (refusal : Class → String) (ops : List (Op V)) :
    Guarded RustPython.classes ops ∧ Guarded (CPython.classes refusal) ops :=
  ⟨guarded _ ops, guarded _ ops⟩

/-! ## What a guard sees -/

/-- What a step writes through a guard. -/
def written (g : GuardId) (gd : Guard) : Op V → Option V
  | .write g' v => if g' = g ∧ gd.kind = .exclusive then some v else none
  | _ => none

/-- What is written last through a guard. -/
def lastThrough (g : GuardId) (gd : Guard) (ops : List (Op V)) : Option V :=
  (ops.filterMap (written g gd)).getLast?

theorem lastThrough_cons (g : GuardId) (gd : Guard) (op : Op V) (ops : List (Op V)) :
    lastThrough g gd (op :: ops) = (lastThrough g gd ops).or (written g gd op) := by
  unfold lastThrough
  cases hop : written g gd op with
  | none => simp [hop]
  | some v =>
    simp only [List.filterMap_cons, hop, List.getLast?_cons]
    cases (ops.filterMap (written g gd)).getLast? <;> rfl

theorem guard_hold {g : GuardId} {gd : Guard} (hne : g ≠ s.nextGuard) (hg : s.guard g = some gd)
    (gd' : Guard) : (s.hold gd').guard g = some gd := by
  change List.lookup g ((s.nextGuard, gd') :: s.guards) = some gd
  rw [List.lookup_cons, beq_false_of_ne hne]
  exact hg

theorem guard_letGo {g g' : GuardId} {gd gd' : Guard} (hne : g ≠ g')
    (hg : s.guard g = some gd) (hg' : s.guard g' = some gd') :
    (s.letGo g').guard g = some gd := by
  obtain ⟨before, after, hguards, hletGo⟩ := guard_split hg'
  change List.lookup g (s.letGo g').guards = some gd
  change List.lookup g s.guards = some gd at hg
  rw [hguards, List.lookup_append, List.lookup_cons, beq_false_of_ne hne] at hg
  rw [hletGo, List.lookup_append]
  exact hg

/-- A step that does not drop a guard keeps it, and changes what is seen through it only if it
writes through it. -/
theorem through_step {op : Op V} {r : Reply V} {g : GuardId} {gd : Guard} (h : Sound B s)
    (hg : s.guard g = some gd) (hop : op ≠ .drop g) (hstep : Step B s op r s') :
    s'.guard g = some gd ∧ B.through s' gd = (written g gd op).or (B.through s gd) := by
  cases hstep with
  | stay _ hwrite =>
    refine ⟨hg, ?_⟩
    have hnone : written g gd op = none := by
      cases op with
      | write g' v =>
        refine if_neg ?_
        rintro ⟨rfl, hk⟩
        exact hwrite g' v gd rfl hg hk
      | _ => rfl
    rw [hnone, Option.none_or]
  | alloc type c o =>
    have hne := object_ne_of_none h (h.fresh _ (Nat.le_refl _)) (mem_of_guard hg)
    exact ⟨hg, through_set_of_ne hne⟩
  | @set type x cell flag v hx hflag =>
    have hnone := kindsOf_eq_nil_iff.mp (kindsOf_of_take_exclusive h hx hflag)
    exact ⟨hg, through_set_of_ne (hnone _ (mem_of_guard hg))⟩
  | @borrow k type x cell flag hx hflag hv =>
    have hne : g ≠ s.nextGuard := (h.ids _ (mem_of_guard hg)).ne
    exact ⟨guard_hold (s := s.set x { cell with flag := flag }) hne hg _, through_setFlag hx⟩
  | @write g' gd' cell v hg' hk hx =>
    refine ⟨hg, ?_⟩
    by_cases hobject : gd.object = gd'.object
    · have hmem : (g, gd) ∈ s.guardsOf gd'.object := mem_guardsOf.mpr ⟨mem_of_guard hg, hobject⟩
      rw [guardsOf_of_exclusive h hg' hk] at hmem
      cases List.mem_singleton.mp hmem
      rw [through_set_same, B.payload_setPayload]
      simp [written, hk]
    · rw [through_set_of_ne hobject]
      have hne : g' ≠ g := by
        rintro rfl
        rw [hg] at hg'
        cases hg'
        exact hobject rfl
      simp [written, hne]
  | @drop g' gd' cell hg' hx =>
    have hne : g ≠ g' := fun heq => hop (congrArg _ heq.symm)
    exact ⟨guard_letGo (s := s.set gd'.object { cell with flag := cell.flag.give }) hne hg hg',
      through_setFlag hx⟩

/-- Whatever runs while a guard is held, what is seen through it at the end is what was written
last through it. -/
theorem through_final {g : GuardId} {gd : Guard} (h : Sound B s) (hg : s.guard g = some gd)
    {ops : List (Op V)} (hops : Op.drop g ∉ ops) :
    (final B.perform s ops).guard g = some gd ∧
      B.through (final B.perform s ops) gd = (lastThrough g gd ops).or (B.through s gd) := by
  induction ops generalizing s with
  | nil => exact ⟨hg, rfl⟩
  | cons op ops ih =>
    obtain ⟨hop, hops⟩ := List.ne_and_not_mem_of_not_mem_cons hops
    obtain ⟨hg', hthrough⟩ := through_step h hg hop.symm (step_perform h op)
    obtain ⟨hguard, hfinal⟩ := ih (sound_perform op h) hg' hops
    refine ⟨hguard, ?_⟩
    rw [final_cons, hfinal, hthrough, lastThrough_cons, Option.or_assoc]

/-- **A guard that host code holds reads what was last written through it, and until then what it
read at first, in whatever order other host code runs meanwhile.** -/
theorem read_of_guard (B : Backend O V) (before after : List (Op V)) (g : GuardId) (gd : Guard)
    (hg : (final B.perform Store.new before).guard g = some gd) (hafter : Op.drop g ∉ after) :
    ∃ v, (B.perform (final B.perform Store.new before) (.read g)).1 = .payload v ∧
      (B.perform (final B.perform Store.new (before ++ after)) (.read g)).1 =
        .payload ((lastThrough g gd after).getD v) := by
  have h := sound_final (B := B) before
  obtain ⟨v, hv⟩ := through_isSome h hg
  obtain ⟨hguard, hthrough⟩ := through_final h hg hafter
  have happend : final B.perform Store.new (before ++ after) =
      final B.perform (final B.perform Store.new before) after := List.foldl_append
  have hlast : (lastThrough g gd after).or (some v) = some ((lastThrough g gd after).getD v) := by
    cases lastThrough g gd after <;> rfl
  refine ⟨v, ?_, ?_⟩
  · simp only [Backend.perform, Backend.performRead, hg, hv]
  · rw [happend]
    simp only [Backend.perform, Backend.performRead, hguard, hthrough, hv, hlast]

def headers : Class := ⟨"Headers", true, "type", true, fun _ => rfl⟩

/-- A payload is borrowed exclusively, and assigned to while others try to replace and read it. -/
theorem read_of_guard_write : ∃ v : Nat,
    ((CPython.classes fun _ => "").perform (final (CPython.classes fun _ => "").perform Store.new
      [.alloc 0 headers, .setPayload 0 (.object 0) 1, .borrow .exclusive 0 (.object 0)])
        (.read 0)).1 = .payload v ∧
    ((CPython.classes fun _ => "").perform (final (CPython.classes fun _ => "").perform Store.new
      ([.alloc 0 headers, .setPayload 0 (.object 0) 1, .borrow .exclusive 0 (.object 0)] ++
        [.setPayload 0 (.object 0) 5, .write 0 7, .borrow .shared 0 (.object 0)])) (.read 0)).1 =
      .payload ((lastThrough 0 ⟨0, .exclusive, 0⟩ [.setPayload 0 (.object 0) 5, .write 0 7,
        .borrow .shared 0 (.object 0)]).getD v) :=
  read_of_guard _ _ _ 0 ⟨0, .exclusive, 0⟩ rfl (by simp)

end GuestPy.Payloads
