import GuestPy.Host.Registration
import GuestPy.Library.Results

/-!
# Owners of classes

A guest sees the modules of its runtime and its own, and a later module replaces an earlier one of
the same name. Each class has an owner among them, and a class with requirements may have one only.

* `GuestBindings.new` passes over the modules once. Modules are allocated, so two may be alike and
  still be distinct.
* `Live` says which modules are bound under their names.
* `sound_iff`: owners are live, and a set of modules is refused just where it is ambiguous, if and
  only if replaced modules make no difference to either.
-/

namespace GuestPy.Owners

open Exceptions (Err)
open Registration (ClassSpec ModuleSpec)

abbrev ModuleId := Nat

/-- The modules that have been allocated, and the payload types of the classes that require their
module. -/
structure Modules where
  heap : ModuleId → ModuleSpec
  requires : Nat → Bool
  name : Nat → String

namespace Modules

variable (ms : Modules)

/-- The classes of a module and their host bases. -/
def lineage (m : ModuleId) : List ClassSpec := (ms.heap m).classes.flatMap ClassSpec.hostLineage

/-- The module has the class, or a class below it. -/
def declares (m : ModuleId) (p : Nat) : Bool := (ms.lineage m).any fun c => c.payload == p

end Modules

/-! ## Bindings -/

/-- The modules under their names, and the owners of classes. -/
structure GuestBindings where
  specs : Str → Option ModuleId
  owners : Nat → Option ModuleId

namespace GuestBindings

variable (ms : Modules)

def own (m : ModuleId) (owners : Nat → Option ModuleId) (c : ClassSpec) :
    Except Err (Nat → Option ModuleId) :=
  match owners c.payload with
  | none => .ok (Function.update owners c.payload (some m))
  | some m' =>
    if ms.requires c.payload && m' != m then
      .error (.unsupported ("host class " ++ ms.name c.payload ++
        " requires its module and is registered on both " ++ String.ofList (ms.heap m').name ++
        " and " ++ String.ofList (ms.heap m).name))
    else .ok owners

def bind (b : GuestBindings) (m : ModuleId) : Except Err GuestBindings := do
  let owners ← (ms.lineage m).foldlM (own ms m) b.owners
  return ⟨Function.update b.specs (ms.heap m).name (some m), owners⟩

/-- The modules of `GuestBindings::new`: those of the runtime, then those of the guest. -/
def new (runtime guest : List ModuleId) : Except Err GuestBindings :=
  (runtime ++ guest).foldlM (bind ms) ⟨fun _ => none, fun _ => none⟩

end GuestBindings

/-! ## Live modules -/

section

variable (ms : Modules)

/-- No module after it has its name. -/
def Live (l : List ModuleId) (m : ModuleId) : Prop :=
  ∃ before after, l = before ++ m :: after ∧ ∀ m' ∈ after, (ms.heap m').name ≠ (ms.heap m).name

/-- Two distinct modules have a class that requires its module. -/
def Clash (among : ModuleId → Prop) : Prop :=
  ∃ p, ms.requires p = true ∧ ∃ m m', m ≠ m' ∧ among m ∧ among m' ∧
    ms.declares m p = true ∧ ms.declares m' p = true

/-- Each class has a live owner, and modules are refused just if two live ones clash. -/
structure Sound (runtime guest : List ModuleId) : Prop where
  owners : ∀ b, GuestBindings.new ms runtime guest = .ok b → ∀ p m, b.owners p = some m →
    b.specs (ms.heap m).name = some m ∧ ms.declares m p = true
  refused : (∃ e, GuestBindings.new ms runtime guest = .error e) ↔
    Clash ms (Live ms (runtime ++ guest))

/-- Where modules clash, live ones do, and otherwise the first module with a class is live. -/
structure Undisturbed (l : List ModuleId) : Prop where
  clash : Clash ms (· ∈ l) → Clash ms (Live ms l)
  first : ¬ Clash ms (· ∈ l) → ∀ p m, l.find? (fun m => ms.declares m p) = some m → Live ms l m

end

/-! ## What is owned -/

section

variable {ms : Modules}

theorem own_eq_ok {m : ModuleId} {c : ClassSpec} {o o' : Nat → Option ModuleId} :
    GuestBindings.own ms m o c = .ok o' ↔
      (∀ p, o' p = (o p).or (if c.payload == p then some m else none)) ∧
        (ms.requires c.payload = true → o' c.payload = some m) := by
  unfold GuestBindings.own
  cases howner : o c.payload with
  | none =>
    have hupdate : ∀ p, Function.update o c.payload (some m) p =
        (o p).or (if c.payload == p then some m else none) := by
      intro p
      by_cases hp : c.payload = p
      · subst hp
        simp [howner]
      · simp [hp, Function.update_of_ne (Ne.symm hp)]
    constructor
    · intro h
      cases h
      exact ⟨hupdate, fun _ => Function.update_self ..⟩
    · rintro ⟨h, -⟩
      exact congrArg Except.ok (funext fun p => (hupdate p).trans (h p).symm)
  | some m' =>
    have hkept : ∀ p, (o p).or (if c.payload == p then some m else none) = o p := by
      intro p
      by_cases hp : c.payload = p
      · subst hp
        rw [howner]
        rfl
      · simp [hp]
    simp only [hkept]
    by_cases hclash : (ms.requires c.payload && m' != m) = true
    · rw [if_pos hclash]
      obtain ⟨hrequires, hne⟩ := Bool.and_eq_true_iff.mp hclash
      constructor
      · nofun
      · rintro ⟨h, hm⟩
        have heq : some m' = some m := howner.symm.trans ((h _).symm.trans (hm hrequires))
        exact absurd (Option.some.inj heq) (bne_iff_ne.mp hne)
    · rw [if_neg hclash]
      constructor
      · intro h
        cases h
        refine ⟨fun _ => rfl, fun hrequires => ?_⟩
        by_contra hne
        refine hclash (Bool.and_eq_true_iff.mpr ⟨hrequires, bne_iff_ne.mpr fun heq => hne ?_⟩)
        rw [howner, heq]
      · rintro ⟨h, -⟩
        exact congrArg Except.ok (funext fun p => (h p).symm)

/-- The classes that are passed, each with its module. -/
def occurrences (ms : Modules) (l : List ModuleId) : List (ModuleId × ClassSpec) :=
  l.flatMap fun m => (ms.lineage m).map (m, ·)

/-- The first module is the owner, and a class with requirements has no other. -/
theorem foldlM_own_eq_ok {xs : List (ModuleId × ClassSpec)} {o o' : Nat → Option ModuleId} :
    xs.foldlM (fun o x => GuestBindings.own ms x.1 o x.2) o = .ok o' ↔
      (∀ p, o' p = (o p).or ((xs.find? fun x => x.2.payload == p).map Prod.fst)) ∧
        ∀ x ∈ xs, ms.requires x.2.payload = true → o' x.2.payload = some x.1 := by
  induction xs generalizing o with
  | nil =>
    constructor
    · intro h
      cases h
      exact ⟨fun p => (Option.or_none ..).symm, nofun⟩
    · rintro ⟨h, -⟩
      have heq : o' = o := funext fun p => (h p).trans (Option.or_none ..)
      rw [heq]
      rfl
  | cons x xs ih =>
    have hfirst : ∀ p, (((x :: xs).find? fun x => x.2.payload == p).map Prod.fst) =
        (if x.2.payload == p then some x.1 else none).or
          ((xs.find? fun x => x.2.payload == p).map Prod.fst) := by
      intro p
      rw [List.find?_cons]
      cases x.2.payload == p <;> rfl
    simp only [List.foldlM_cons, Results.bind_eq_ok, ih, own_eq_ok, hfirst]
    constructor
    · rintro ⟨o₁, ⟨hown, hx⟩, hrest, hxs⟩
      have hboth : ∀ p, o' p = (o p).or ((if x.2.payload == p then some x.1 else none).or
          ((xs.find? fun x => x.2.payload == p).map Prod.fst)) := by
        intro p
        rw [hrest, hown, Option.or_assoc]
      refine ⟨hboth, fun y hy hrequires => ?_⟩
      rcases List.mem_cons.mp hy with rfl | hy
      · rw [hrest, hx hrequires]
        rfl
      · exact hxs y hy hrequires
    · rintro ⟨hboth, hall⟩
      refine ⟨fun p => (o p).or (if x.2.payload == p then some x.1 else none),
        ⟨fun _ => rfl, fun hrequires => ?_⟩, fun p => ?_, fun y hy => ?_⟩
      · have hx := hall x List.mem_cons_self hrequires
        rw [hboth, ← Option.or_assoc] at hx
        simp only [beq_self_eq_true, if_true] at hx ⊢
        cases howner : o x.2.payload with
        | none => rfl
        | some m =>
          rw [howner] at hx
          exact hx
      · rw [hboth, Option.or_assoc]
      · exact hall y (List.mem_cons_of_mem _ hy)

/-- The first module with the class. -/
theorem find?_occurrences (l : List ModuleId) (p : Nat) :
    ((occurrences ms l).find? fun x => x.2.payload == p).map Prod.fst =
      l.find? fun m => ms.declares m p := by
  induction l with
  | nil => rfl
  | cons m l ih =>
    have hhere : (((ms.lineage m).map (m, ·)).find? fun x => x.2.payload == p).map Prod.fst =
        if ms.declares m p then some m else none := by
      unfold Modules.declares
      induction ms.lineage m with
      | nil => rfl
      | cons c cs ih =>
        rw [List.map_cons, List.find?_cons, List.any_cons]
        cases c.payload == p with
        | true => rfl
        | false => exact ih
    unfold occurrences at ih ⊢
    rw [List.flatMap_cons, List.find?_append, Option.map_or, ih, hhere, List.find?_cons]
    cases ms.declares m p <;> rfl

theorem mem_occurrences {l : List ModuleId} {x : ModuleId × ClassSpec} :
    x ∈ occurrences ms l ↔ x.1 ∈ l ∧ x.2 ∈ ms.lineage x.1 := by
  obtain ⟨m, c⟩ := x
  simp only [occurrences, List.mem_flatMap, List.mem_map, Prod.mk.injEq]
  constructor
  · rintro ⟨m', hm', c', hc', rfl, rfl⟩
    exact ⟨hm', hc'⟩
  · rintro ⟨hm, hc⟩
    exact ⟨m, hm, c, hc, rfl, rfl⟩

theorem declares_iff {m : ModuleId} {p : Nat} :
    ms.declares m p = true ↔ ∃ c ∈ ms.lineage m, c.payload = p := by
  unfold Modules.declares
  simp only [List.any_eq_true, beq_iff_eq]

/-! ## What is bound -/

theorem live_append {l : List ModuleId} {m m' : ModuleId} :
    Live ms (l ++ [m']) m ↔
      m = m' ∨ Live ms l m ∧ (ms.heap m').name ≠ (ms.heap m).name := by
  constructor
  · rintro ⟨before, after, heq, hafter⟩
    rcases List.eq_nil_or_concat after with rfl | ⟨rest, last, rfl⟩
    · exact Or.inl (List.append_inj_right' heq rfl |> List.singleton_inj.mp |> Eq.symm)
    · rw [List.concat_eq_append, ← List.cons_append, ← List.append_assoc] at heq
      obtain ⟨rfl, hlast⟩ := List.append_inj' heq rfl
      cases hlast
      refine Or.inr ⟨⟨before, rest, rfl, fun n hn => hafter n ?_⟩, hafter m' ?_⟩
      · rw [List.concat_eq_append]
        exact List.mem_append_left _ hn
      · rw [List.concat_eq_append]
        exact List.mem_append_right _ (List.mem_singleton_self _)
  · rintro (rfl | ⟨⟨before, after, rfl, hafter⟩, hne⟩)
    · exact ⟨l, [], rfl, nofun⟩
    · refine ⟨before, after ++ [m'], by simp, fun n hn => ?_⟩
      rcases List.mem_append.mp hn with hn | hn
      · exact hafter n hn
      · rw [List.mem_singleton.mp hn]
        exact hne

theorem Live.mem {l : List ModuleId} {m : ModuleId} (h : Live ms l m) : m ∈ l := by
  obtain ⟨before, after, rfl, -⟩ := h
  exact List.mem_append_right _ List.mem_cons_self

/-- Every module is bound under its name, until another one is. -/
structure Bound (ms : Modules) (l : List ModuleId) (b : GuestBindings) : Prop where
  specs : ∀ n m, b.specs n = some m ↔ Live ms l m ∧ (ms.heap m).name = n
  owners : ∀ p, b.owners p = l.find? fun m => ms.declares m p

theorem foldlM_bind_eq_ok {l : List ModuleId} {b b' : GuestBindings} :
    l.foldlM (GuestBindings.bind ms) b = .ok b' ↔
      b'.specs = l.foldl (fun specs m => Function.update specs (ms.heap m).name (some m))
        b.specs ∧
      (occurrences ms l).foldlM (fun o x => GuestBindings.own ms x.1 o x.2) b.owners =
        .ok b'.owners := by
  induction l generalizing b with
  | nil =>
    obtain ⟨specs, owners⟩ := b
    obtain ⟨specs', owners'⟩ := b'
    constructor
    · intro h
      cases h
      exact ⟨rfl, rfl⟩
    · rintro ⟨h, h'⟩
      cases h
      cases h'
      rfl
  | cons m l ih =>
    have hoccurrences : occurrences ms (m :: l) =
        (ms.lineage m).map (m, ·) ++ occurrences ms l := rfl
    rw [List.foldlM_cons, Results.bind_eq_ok, hoccurrences, List.foldlM_append, Results.bind_eq_ok,
      List.foldlM_map, List.foldl_cons]
    constructor
    · rintro ⟨b₁, hb₁, h⟩
      obtain ⟨owners, howners, heq⟩ := Results.bind_eq_ok.mp hb₁
      cases heq
      obtain ⟨hspecs, hrest⟩ := ih.mp h
      exact ⟨hspecs, owners, howners, hrest⟩
    · rintro ⟨hspecs, owners, howners, hrest⟩
      exact ⟨_, Results.bind_eq_ok.mpr ⟨owners, howners, rfl⟩, ih.mpr ⟨hspecs, hrest⟩⟩

theorem specs_foldl (l : List ModuleId) (n : Str) (m : ModuleId) :
    l.foldl (fun specs m => Function.update specs (ms.heap m).name (some m))
        (fun _ => none) n = some m ↔ Live ms l m ∧ (ms.heap m).name = n := by
  induction l using List.reverseRecOn with
  | nil =>
    constructor
    · nofun
    · rintro ⟨h, -⟩
      cases h.mem
  | append_singleton l m' ih =>
    rw [List.foldl_append, List.foldl_cons, List.foldl_nil, live_append]
    by_cases hn : n = (ms.heap m').name
    · subst hn
      rw [Function.update_self]
      constructor
      · intro h
        cases h
        exact ⟨Or.inl rfl, rfl⟩
      · rintro ⟨rfl | ⟨-, hne⟩, hname⟩
        · rfl
        · exact absurd hname.symm hne
    · rw [Function.update_of_ne hn, ih]
      constructor
      · rintro ⟨hlive, rfl⟩
        exact ⟨Or.inr ⟨hlive, Ne.symm hn⟩, rfl⟩
      · rintro ⟨rfl | ⟨hlive, -⟩, hname⟩
        · exact absurd hname.symm hn
        · exact ⟨hlive, hname⟩

theorem bound_of_new {runtime guest : List ModuleId} {b : GuestBindings}
    (h : GuestBindings.new ms runtime guest = .ok b) : Bound ms (runtime ++ guest) b := by
  obtain ⟨hspecs, howners⟩ := foldlM_bind_eq_ok.mp h
  constructor
  · intro n m
    rw [hspecs]
    exact specs_foldl (runtime ++ guest) n m
  · intro p
    rw [(foldlM_own_eq_ok.mp howners).1 p, ← find?_occurrences]
    rfl

/-- Modules are accepted just if no two of them clash, whether they are live or not. -/
theorem new_eq_ok_iff (runtime guest : List ModuleId) :
    (∃ b, GuestBindings.new ms runtime guest = .ok b) ↔ ¬ Clash ms (· ∈ runtime ++ guest) := by
  constructor
  · rintro ⟨b, hb⟩ ⟨p, hrequires, m, m', hne, hm, hm', hdeclares, hdeclares'⟩
    have hown := (foldlM_own_eq_ok.mp (foldlM_bind_eq_ok.mp hb).2).2
    have howner : ∀ n, n ∈ runtime ++ guest → ms.declares n p = true → b.owners p = some n := by
      intro n hn hdeclares
      obtain ⟨c, hc, rfl⟩ := declares_iff.mp hdeclares
      exact hown (n, c) (mem_occurrences.mpr ⟨hn, hc⟩) hrequires
    exact hne (Option.some.inj ((howner m hm hdeclares).symm.trans (howner m' hm' hdeclares')))
  · intro hclash
    refine ⟨⟨_, fun p => ((occurrences ms (runtime ++ guest)).find?
      fun x => x.2.payload == p).map Prod.fst⟩, foldlM_bind_eq_ok.mpr ⟨rfl, ?_⟩⟩
    refine foldlM_own_eq_ok.mpr ⟨fun p => rfl, ?_⟩
    rintro ⟨m, c⟩ hx hrequires
    obtain ⟨hm, hc⟩ := mem_occurrences.mp hx
    have hdeclares : ms.declares m c.payload = true := declares_iff.mpr ⟨c, hc, rfl⟩
    change ((occurrences ms (runtime ++ guest)).find? fun x => x.2.payload == c.payload).map
      Prod.fst = some m
    rw [find?_occurrences]
    cases hfind : (runtime ++ guest).find? fun m => ms.declares m c.payload with
    | none => exact absurd hdeclares (List.find?_eq_none.mp hfind m hm)
    | some m' =>
      have hdeclares' := List.find?_some hfind
      by_contra hne
      refine hclash ⟨c.payload, hrequires, m, m', fun heq => hne ?_, hm,
        List.mem_of_find?_eq_some hfind, hdeclares, hdeclares'⟩
      rw [heq]

/-- **Owners are sound just if replaced modules make no difference.** -/
theorem sound_iff (ms : Modules) (runtime guest : List ModuleId) :
    Sound ms runtime guest ↔ Undisturbed ms (runtime ++ guest) := by
  have hrefused : (∃ e, GuestBindings.new ms runtime guest = .error e) ↔
      Clash ms (· ∈ runtime ++ guest) := by
    rw [← not_iff_not, ← new_eq_ok_iff]
    cases GuestBindings.new ms runtime guest with
    | ok b => exact ⟨fun _ => ⟨b, rfl⟩, fun _ ⟨_, he⟩ => nomatch he⟩
    | error e => exact ⟨fun h => absurd ⟨e, rfl⟩ h, fun ⟨_, hb⟩ => nomatch hb⟩
  have hlive : Clash ms (Live ms (runtime ++ guest)) → Clash ms (· ∈ runtime ++ guest) := by
    rintro ⟨p, hrequires, m, m', hne, hm, hm', hdeclares⟩
    exact ⟨p, hrequires, m, m', hne, hm.mem, hm'.mem, hdeclares⟩
  constructor
  · rintro ⟨howners, hiff⟩
    refine ⟨fun hclash => hiff.mp (hrefused.mpr hclash), fun hclash p m hfind => ?_⟩
    obtain ⟨b, hb⟩ := (new_eq_ok_iff runtime guest).mpr hclash
    have hbound := bound_of_new hb
    have hm : b.owners p = some m := (hbound.owners p).trans hfind
    exact ((hbound.specs _ m).mp (howners b hb p m hm).1).1
  · rintro ⟨hclash, hfirst⟩
    refine ⟨fun b hb p m hm => ?_, hrefused.trans ⟨hclash, hlive⟩⟩
    have hbound := bound_of_new hb
    have hfind := (hbound.owners p).symm.trans hm
    have hdeclares := List.find?_some hfind
    have hm := hfirst ((new_eq_ok_iff runtime guest).mp ⟨b, hb⟩) p m hfind
    exact ⟨(hbound.specs _ m).mpr ⟨hm, rfl⟩, hdeclares⟩

/-! ### A module that is replaced -/

/-- Two modules of one name, which both have the class 0. -/
def shapes : Modules where
  heap := fun _ => Registration.Registrations.module Registration.derived ⟨"shapes".toList, [0]⟩
  requires := fun _ => false
  name := fun _ => "Base"

theorem not_sound_of_replaced :
    ¬ ∀ (ms : Modules) (runtime guest : List ModuleId), Sound ms runtime guest := by
  intro h
  obtain ⟨howners, -⟩ := h shapes [0] [1]
  obtain ⟨hspec, -⟩ := howners _ rfl 0 0 rfl
  have hname : (some 1 : Option ModuleId) = some 0 := hspec
  cases hname

end

end GuestPy.Owners
