import GuestPy.Marshal.Binding

/-!
# Accounting for arguments

A host callable that is written by hand makes its accesses in any order. What it has been handed
is known by marks, and `rest_keywords` takes whatever is not marked.

* `Access` lists the accesses, and `run` makes them, up to the first that fails.
* `Separate` says of a plan that no argument is asked for by name or index more than once.
* `given` and `handed` say what the accesses take, from the call alone, and `run_eq` that it is what
  they are handed.
* `accounted_iff`: arguments are accounted for if and only if none is asked for by name after
  `rest_keywords`, and none that was supplied twice goes to `rest_keywords` unnoticed.
-/

namespace GuestPy.Marshal

open Results

variable {V D W : Type}

namespace Args

/-- `rest_keywords`: whatever has no mark yet. -/
def restKeywords (args : Args V) : List (Str × V) × Args V :=
  (((args.keyword.zip args.consumedKeyword).filter fun entry => !entry.2).map Prod.fst,
    { args with consumedKeyword := args.consumedKeyword.map fun _ => true })

def splitReceiver (args : Args V) : Except Err (V × Args V) :=
  match args.positional with
  | [] => .error (.conversion "missing required receiver")
  | receiver :: positional =>
    .ok (receiver, { args with
      positional := positional
      consumedPositional := args.consumedPositional.tail })

end Args

/-! ## Accesses -/

/-- How an access converts an argument, and what it says if it needs one that is not there. -/
inductive Demand (D : Type) where
  | required (descriptor : D) (message : String)
  | optional (descriptor : D)
  | borrow (descriptor : D) (message : String)
  | borrowMut (descriptor : D) (message : String)

inductive Access (D : Type) where
  | value (argument : Argument) (demand : Demand D)
  | rest (descriptor : D) (index : Nat)
  | restKeywords (descriptor : D)
  | splitReceiver

namespace Access

def required (descriptor : D) (index : Nat) (name : Str) : Access D :=
  value (.named index name)
    (.required descriptor s!"missing required argument '{String.ofList name}'")

def optional (descriptor : D) (index : Nat) (name : Str) : Access D :=
  value (.named index name) (.optional descriptor)

def requiredPositional (descriptor : D) (index : Nat) (name : Str) : Access D :=
  value (.positional index)
    (.required descriptor s!"missing required positional argument '{String.ofList name}'")

def optionalPositional (descriptor : D) (index : Nat) : Access D :=
  value (.positional index) (.optional descriptor)

def requiredKeyword (descriptor : D) (name : Str) : Access D :=
  value (.keyword name)
    (.required descriptor s!"missing required keyword argument '{String.ofList name}'")

def optionalKeyword (descriptor : D) (name : Str) : Access D :=
  value (.keyword name) (.optional descriptor)

def borrow (descriptor : D) (index : Nat) (name : Str) : Access D :=
  value (.positional index)
    (.borrow descriptor s!"missing required positional argument '{String.ofList name}'")

def borrowMut (descriptor : D) (index : Nat) (name : Str) : Access D :=
  value (.positional index)
    (.borrowMut descriptor s!"missing required positional argument '{String.ofList name}'")

/-- What the access takes out of the arguments, and what it leaves. -/
def take : Access D → Args V → List V × Args V
  | value argument _, args => ((args.value argument).1.toList, (args.value argument).2)
  | rest _ index, args => args.restValues index
  | restKeywords _, args => (args.restKeywords.1.map Prod.snd, args.restKeywords.2)
  | splitReceiver, args =>
    match args.splitReceiver with
    | .ok (receiver, args) => ([receiver], args)
    | .error _ => ([], args)

end Access

/-- What the host gets from an access. -/
inductive Answer (V W : Type) where
  | received (received : Received W)
  | keywords (values : List (Str × W))
  | receiver (value : V)

namespace Conversions

variable (c : Conversions V D W)

def demand : Demand D → Args V → Argument → Except Err (Received W × Args V)
  | .required descriptor message, args, argument =>
    required (c.fromGuest descriptor) message args argument
  | .optional descriptor, args, argument => c.optional descriptor args argument
  | .borrow descriptor message, args, argument =>
    required (c.fromGuestRef descriptor) message args argument
  | .borrowMut descriptor message, args, argument =>
    required (c.fromGuestMut descriptor) message args argument

def collectKeywords (descriptor : D) : List (Str × V) → Except Err (List (Str × W))
  | [] => .ok []
  | (name, value) :: entries => do
    let value ← c.fromGuest descriptor value
    return (name, value) :: (← collectKeywords descriptor entries)

def access : Access D → Args V → Except Err (Answer V W × Args V)
  | .value argument demand, args => do
    let (received, args) ← c.demand demand args argument
    return (.received received, args)
  | .rest descriptor index, args => do
    let (received, args) ← c.rest descriptor args index
    return (.received received, args)
  | .restKeywords descriptor, args => do
    let (entries, args) := args.restKeywords
    return (.keywords (← c.collectKeywords descriptor entries), args)
  | .splitReceiver, args => do
    let (receiver, args) ← args.splitReceiver
    return (.receiver receiver, args)

/-- The accesses of a call, which ends with the first that fails: what the host has been handed,
and the arguments that are left. -/
def run : List (Access D) → Args V → List V × Except Err (Args V)
  | [], args => ([], .ok args)
  | a :: plan, args =>
    match c.access a args with
    | .ok (_, args') => ((a.take args).1 ++ (run plan args').1, (run plan args').2)
    | .error e => ([], .error e)

end Conversions

/-! ## Arguments and where they were supplied -/

inductive Origin where
  | positional (index : Nat)
  | keyword (name : Str)
  deriving DecidableEq

structure Supplied (V : Type) where
  origin : Origin
  value : V

def suppliedPositional (positional : List V) : List (Supplied V) :=
  positional.mapIdx fun i v => ⟨.positional i, v⟩

def suppliedKeyword (keyword : List (Str × V)) : List (Str × Supplied V) :=
  keyword.map fun entry => (entry.1, ⟨.keyword entry.1, entry.2⟩)

/-- A call, with arguments that tell where they were supplied. -/
def call (positional : List V) (keyword : List (Str × V)) : Args (Supplied V) :=
  .new (suppliedPositional positional) (suppliedKeyword keyword)

/-! ## Plans -/

/-- An access, and the number of receivers that have been split off before it. -/
abbrev Place (D : Type) := Nat × Access D

namespace Place

def isRestKeywords (x : Place D) : Bool :=
  match x.2 with
  | .restKeywords _ => true
  | _ => false

/-- Does the access ask for the argument at the position of the call? -/
def asksPosition (x : Place D) (p : Nat) : Bool :=
  match x.2 with
  | .value (.positional index) _ => x.1 + index == p
  | .value (.named index _) _ => x.1 + index == p
  | .rest _ index => decide (x.1 + index ≤ p)
  | .splitReceiver => x.1 == p
  | _ => false

def asksName (x : Place D) (name : Str) : Bool :=
  match x.2 with
  | .value (.named _ asked) _ => asked == name
  | .value (.keyword asked) _ => asked == name
  | _ => false

/-- Does the access look the name up, with as many positional arguments? -/
def looksUp (supplied : Nat) (x : Place D) (name : Str) : Bool :=
  match x.2 with
  | .value (.named index asked) _ => asked == name && decide (supplied ≤ x.1 + index)
  | .value (.keyword asked) _ => asked == name
  | _ => false

/-- Does the access ask for the position and, failing that, for the name? -/
def names (x : Place D) (p : Nat) (name : Str) : Bool :=
  match x.2 with
  | .value (.named index asked) _ => x.1 + index == p && asked == name
  | _ => false

/-- No position and no name is asked for by both. -/
def Apart (x y : Place D) : Prop :=
  (∀ p, ¬ (x.asksPosition p = true ∧ y.asksPosition p = true)) ∧
    ∀ name, ¬ (x.asksName name = true ∧ y.asksName name = true)

instance : Std.Symm (Apart (D := D)) where
  symm _ _ h := ⟨fun p hp => h.1 p hp.symm, fun name hn => h.2 name hn.symm⟩

end Place

/-- The accesses of a plan, in their places. -/
def places : Nat → List (Access D) → List (Place D)
  | _, [] => []
  | base, .splitReceiver :: plan => (base, .splitReceiver) :: places (base + 1) plan
  | base, a :: plan => (base, a) :: places base plan

/-- Every position and every name is asked for at most once. -/
def Separate (plan : List (Access D)) : Prop := (places 0 plan).Pairwise Place.Apart

section

variable (c : Conversions (Supplied V) D W) (positional : List V) (keyword : List (Str × V))

/-- The accesses and `finish` succeed. -/
def Succeeds (plan : List (Access D)) : Prop :=
  ∃ args, (c.run plan (call positional keyword)).2 = .ok args ∧ args.finish = .ok ()

/-- Arguments are handed out once, `finish` finds just the calls all of whose arguments have been,
and an argument that was supplied twice is refused. -/
structure Accounted (plan : List (Access D)) : Prop where
  once : ((c.run plan (call positional keyword)).1.map Supplied.origin).Nodup
  finish : ∀ args, (c.run plan (call positional keyword)).2 = .ok args →
    (args.finish = .ok () ↔
      (∀ p < positional.length,
        .positional p ∈ (c.run plan (call positional keyword)).1.map Supplied.origin) ∧
      ∀ entry ∈ keyword,
        .keyword entry.1 ∈ (c.run plan (call positional keyword)).1.map Supplied.origin)
  twice : ∀ x ∈ places 0 plan, ∀ p < positional.length, ∀ entry ∈ keyword,
    x.names p entry.1 = true → ¬ Succeeds c positional keyword plan

/-! ## What is handed out -/

/-- What an access takes after `before` has been handed out. -/
def given (before : List (Supplied V)) (x : Place D) : List (Supplied V) :=
  let supplied (index : Nat) := (suppliedPositional positional)[x.1 + index]?
  let named (name : Str) := lookup (suppliedKeyword keyword) name
  match x.2 with
  | .value (.positional index) _ => (supplied index).toList
  | .value (.named index name) _ => ((supplied index).or (named name)).toList
  | .value (.keyword name) _ => (named name).toList
  | .rest _ index => (suppliedPositional positional).drop (x.1 + index)
  | .restKeywords _ =>
    ((suppliedKeyword keyword).filter fun entry =>
      decide (Origin.keyword entry.1 ∉ before.map Supplied.origin)).map Prod.snd
  | .splitReceiver => (supplied 0).toList

/-- What accesses take, the last access first. -/
def handed : List (Place D) → List (Supplied V)
  | [] => []
  | x :: before => handed before ++ given positional keyword (handed before) x

end

/-- What the access is given is enough, and converts. -/
def Access.Accepts (c : Conversions V D W) (a : Access D) (given : List V) : Prop :=
  match a with
  | .value _ (.required descriptor _) =>
    given ≠ [] ∧ ∀ v ∈ given, ∃ w, c.fromGuest descriptor v = .ok w
  | .value _ (.optional descriptor) => ∀ v ∈ given, ∃ w, c.fromOption descriptor v = .ok w
  | .value _ (.borrow descriptor _) =>
    given ≠ [] ∧ ∀ v ∈ given, ∃ w, c.fromGuestRef descriptor v = .ok w
  | .value _ (.borrowMut descriptor _) =>
    given ≠ [] ∧ ∀ v ∈ given, ∃ w, c.fromGuestMut descriptor v = .ok w
  | .rest descriptor _ => ∀ v ∈ given, ∃ w, c.fromGuest descriptor v = .ok w
  | .restKeywords descriptor => ∀ v ∈ given, ∃ w, c.fromGuest descriptor v = .ok w
  | .splitReceiver => given ≠ []

section

variable (c : Conversions (Supplied V) D W) (positional : List V) (keyword : List (Str × V))

/-- Every access is given enough, the last access first. -/
def GoesThrough : List (Place D) → Prop
  | [] => True
  | x :: before =>
    GoesThrough before ∧ x.2.Accepts c (given positional keyword (handed positional keyword before) x)

/-- A keyword that was supplied is looked up by its name after `rest_keywords`. -/
def LooksBack (plan : List (Access D)) : Prop :=
  ∃ before x after, places 0 plan = before ++ x :: after ∧
    GoesThrough c positional keyword (x :: before.reverse) ∧
    (∃ y ∈ before, y.isRestKeywords = true) ∧
    ∃ entry ∈ keyword, x.looksUp positional.length entry.1 = true

/-- An argument was supplied twice, the plan has `rest_keywords`, all accesses are given enough,
and all positions are asked for. -/
structure Unnoticed (plan : List (Access D)) : Prop where
  twice : ∃ x ∈ places 0 plan, ∃ p < positional.length, ∃ entry ∈ keyword,
    x.names p entry.1 = true
  rest : ∃ y ∈ places 0 plan, y.isRestKeywords = true
  through : GoesThrough c positional keyword (places 0 plan).reverse
  asked : ∀ p < positional.length, ∃ x ∈ places 0 plan, x.asksPosition p = true

end

/-! ## What an access takes -/

section

variable {positional : List V} {keyword : List (Str × V)} {before : List (Supplied V)}

theorem positional_mem_supplied {i p : Nat} :
    Origin.positional p ∈ ((suppliedPositional positional)[i]?).toList.map Supplied.origin ↔
      i = p ∧ p < positional.length := by
  unfold suppliedPositional
  rw [List.getElem?_mapIdx]
  cases h : positional[i]? with
  | none =>
    rw [List.getElem?_eq_none_iff] at h
    simp only [Option.map_none, Option.toList_none, List.map_nil, List.not_mem_nil, false_iff]
    omega
  | some v =>
    obtain ⟨hlt, -⟩ := List.getElem?_eq_some_iff.mp h
    simp only [Option.map_some, Option.toList_some, List.map_singleton, List.mem_singleton,
      Origin.positional.injEq]
    omega

theorem keyword_not_mem_supplied {i : Nat} {k : Str} :
    Origin.keyword k ∉ ((suppliedPositional positional)[i]?).toList.map Supplied.origin := by
  unfold suppliedPositional
  rw [List.getElem?_mapIdx]
  cases positional[i]? with
  | none => simp
  | some v => simp

theorem lookup_supplied (name : Str) :
    lookup (suppliedKeyword keyword) name =
      (lookup keyword name).map fun v => ⟨.keyword name, v⟩ := by
  unfold lookup suppliedKeyword
  rw [List.find?_map]
  induction keyword with
  | nil => rfl
  | cons entry keyword ih =>
    simp only [List.find?_cons, Function.comp_apply] at ih ⊢
    cases h : entry.1 == name with
    | true =>
      rw [← beq_iff_eq.mp h]
      rfl
    | false => exact ih

theorem lookup_isSome_iff {name : Str} :
    (lookup keyword name).isSome = true ↔ name ∈ keyword.map Prod.fst := by
  unfold lookup
  rw [Option.isSome_map, List.find?_isSome, List.mem_map]
  simp only [beq_iff_eq]

theorem keyword_mem_named {name k : Str} :
    Origin.keyword k ∈ (lookup (suppliedKeyword keyword) name).toList.map Supplied.origin ↔
      name = k ∧ k ∈ keyword.map Prod.fst := by
  rw [lookup_supplied, ← lookup_isSome_iff]
  constructor
  · intro h
    cases hfind : lookup keyword name with
    | none =>
      rw [hfind] at h
      cases h
    | some v =>
      rw [hfind] at h
      cases Origin.keyword.inj (List.mem_singleton.mp h)
      exact ⟨rfl, by rw [hfind]; rfl⟩
  · rintro ⟨rfl, h⟩
    obtain ⟨v, hv⟩ := Option.isSome_iff_exists.mp h
    rw [hv]
    exact List.mem_singleton_self _

theorem positional_not_mem_named {name : Str} {p : Nat} :
    Origin.positional p ∉ (lookup (suppliedKeyword keyword) name).toList.map Supplied.origin := by
  rw [lookup_supplied]
  cases lookup keyword name with
  | none => simp
  | some v => simp

theorem mem_suppliedPositional_drop {i : Nat} {o : Origin} :
    o ∈ ((suppliedPositional positional).drop i).map Supplied.origin ↔
      ∃ p, i ≤ p ∧ p < positional.length ∧ o = .positional p := by
  unfold suppliedPositional
  rw [List.mem_map]
  constructor
  · rintro ⟨s, hs, rfl⟩
    obtain ⟨j, hj⟩ := List.mem_iff_getElem?.mp hs
    rw [List.getElem?_drop, List.getElem?_mapIdx] at hj
    obtain ⟨v, hv, rfl⟩ := Option.map_eq_some_iff.mp hj
    obtain ⟨hlt, -⟩ := List.getElem?_eq_some_iff.mp hv
    exact ⟨i + j, Nat.le_add_right _ _, hlt, rfl⟩
  · rintro ⟨p, hle, hlt, rfl⟩
    refine ⟨⟨.positional p, positional[p]⟩, List.mem_iff_getElem?.mpr ⟨p - i, ?_⟩, rfl⟩
    rw [List.getElem?_drop, List.getElem?_mapIdx, Nat.add_sub_cancel' hle,
      List.getElem?_eq_getElem hlt]
    rfl

theorem mem_left_keywords {p : Str → Bool} {o : Origin} :
    o ∈ (((suppliedKeyword keyword).filter fun entry => p entry.1).map Prod.snd).map
        Supplied.origin ↔ ∃ k ∈ keyword.map Prod.fst, p k = true ∧ o = .keyword k := by
  unfold suppliedKeyword
  simp only [List.mem_map, List.mem_filter]
  constructor
  · rintro ⟨s, ⟨e, ⟨⟨entry, hentry, rfl⟩, hp⟩, rfl⟩, rfl⟩
    exact ⟨entry.1, ⟨entry, hentry, rfl⟩, hp, rfl⟩
  · rintro ⟨k, ⟨entry, hentry, rfl⟩, hp, rfl⟩
    exact ⟨_, ⟨_, ⟨⟨entry, hentry, rfl⟩, hp⟩, rfl⟩, rfl⟩

theorem positional_mem_given {x : Place D} {p : Nat} :
    Origin.positional p ∈ (given positional keyword before x).map Supplied.origin ↔
      x.asksPosition p = true ∧ p < positional.length := by
  obtain ⟨base, a⟩ := x
  unfold given Place.asksPosition
  cases a with
  | value argument demand =>
    cases argument with
    | positional index =>
      simp only [positional_mem_supplied, beq_iff_eq]
    | named index name =>
      simp only [beq_iff_eq]
      rw [← positional_mem_supplied]
      cases (suppliedPositional positional)[base + index]? with
      | none => exact iff_of_false positional_not_mem_named (by simp)
      | some v => rfl
    | keyword name => exact iff_of_false positional_not_mem_named (by simp)
  | rest descriptor index =>
    simp only [mem_suppliedPositional_drop, Origin.positional.injEq, decide_eq_true_eq]
    constructor
    · rintro ⟨q, hle, hlt, rfl⟩
      exact ⟨hle, hlt⟩
    · rintro ⟨hle, hlt⟩
      exact ⟨p, hle, hlt, rfl⟩
  | restKeywords descriptor =>
    refine iff_of_false ?_ (by simp)
    rw [mem_left_keywords (p := fun k => decide (Origin.keyword k ∉ before.map Supplied.origin))]
    rintro ⟨k, -, -, h⟩
    cases h
  | splitReceiver => simp only [positional_mem_supplied, beq_iff_eq, Nat.add_zero]

theorem keyword_mem_given {x : Place D} {k : Str} :
    Origin.keyword k ∈ (given positional keyword before x).map Supplied.origin ↔
      k ∈ keyword.map Prod.fst ∧ (x.looksUp positional.length k = true ∨
        x.isRestKeywords = true ∧ Origin.keyword k ∉ before.map Supplied.origin) := by
  obtain ⟨base, a⟩ := x
  unfold given Place.looksUp Place.isRestKeywords
  cases a with
  | value argument demand =>
    cases argument with
    | positional index => exact iff_of_false keyword_not_mem_supplied (by simp)
    | named index name =>
      simp only [Bool.and_eq_true, beq_iff_eq, decide_eq_true_eq, Bool.false_eq_true, false_and,
        or_false]
      cases h : (suppliedPositional positional)[base + index]? with
      | none =>
        have hle : positional.length ≤ base + index := by
          simpa [suppliedPositional] using h
        rw [Option.none_or, keyword_mem_named]
        simp only [hle, true_and, and_comm]
      | some v =>
        have hlt : ¬ positional.length ≤ base + index := by
          obtain ⟨hlt, -⟩ := List.getElem?_eq_some_iff.mp h
          simpa [suppliedPositional] using hlt
        refine iff_of_false (fun hk => ?_) (by simp [hlt])
        exact keyword_not_mem_supplied (i := base + index) (by rw [h]; exact hk)
    | keyword name =>
      simp only [keyword_mem_named, beq_iff_eq, Bool.false_eq_true, false_and, or_false, and_comm]
  | rest descriptor index =>
    refine iff_of_false ?_ (by simp)
    simp only [mem_suppliedPositional_drop]
    rintro ⟨p, -, -, h⟩
    cases h
  | restKeywords descriptor =>
    simp only [mem_left_keywords (p := fun k => decide (Origin.keyword k ∉
      before.map Supplied.origin)), decide_eq_true_eq, Bool.false_eq_true, true_and, false_or]
    constructor
    · rintro ⟨k', hk', hnot, h⟩
      cases h
      exact ⟨hk', hnot⟩
    · rintro ⟨hk, hnot⟩
      exact ⟨k, hk, hnot, rfl⟩
  | splitReceiver => exact iff_of_false keyword_not_mem_supplied (by simp)

theorem nodup_given (hk : (keyword.map Prod.fst).Nodup) (x : Place D) :
    ((given positional keyword before x).map Supplied.origin).Nodup := by
  have hoption : ∀ o : Option (Supplied V), (o.toList.map Supplied.origin).Nodup := by
    intro o
    cases o with
    | none => exact List.nodup_nil
    | some v => exact List.nodup_singleton _
  obtain ⟨base, a⟩ := x
  unfold given
  cases a with
  | value argument demand =>
    cases argument with
    | positional index => exact hoption _
    | named index name => exact hoption _
    | keyword name => exact hoption _
  | rest descriptor index =>
    have horigins : (suppliedPositional positional).map Supplied.origin =
        (List.range positional.length).map Origin.positional := by
      refine List.ext_getElem? fun j => ?_
      unfold suppliedPositional
      rw [List.getElem?_map, List.getElem?_mapIdx, List.getElem?_map]
      by_cases hj : j < positional.length
      · rw [List.getElem?_eq_getElem hj, List.getElem?_range hj]
        rfl
      · rw [List.getElem?_eq_none (Nat.le_of_not_lt hj), List.getElem?_eq_none (by simpa using hj)]
        rfl
    have hsub : (((suppliedPositional positional).drop (base + index)).map
        Supplied.origin).Sublist ((List.range positional.length).map Origin.positional) :=
      horigins ▸ (List.drop_sublist _ _).map _
    exact (List.nodup_range.map fun _ _ => Origin.positional.inj).sublist hsub
  | restKeywords descriptor =>
    have horigins : ∀ l : List (Str × V), ((((suppliedKeyword l).filter fun entry =>
        decide (Origin.keyword entry.1 ∉ before.map Supplied.origin)).map Prod.snd).map
          Supplied.origin).Sublist ((l.map Prod.fst).map Origin.keyword) := by
      intro l
      have hall : ((suppliedKeyword l).map Prod.snd).map Supplied.origin =
          (l.map Prod.fst).map Origin.keyword := by
        unfold suppliedKeyword
        simp only [List.map_map]
        rfl
      rw [← hall]
      exact (List.filter_sublist.map _).map _
    exact (hk.map fun _ _ => Origin.keyword.inj).sublist (horigins keyword)
  | splitReceiver => exact hoption _

end

/-! ## What the marks say -/

namespace Access

/-- The number of receivers that have been split off after the access. -/
def next (base : Nat) : Access D → Nat
  | splitReceiver => base + 1
  | _ => base

end Access

theorem places_cons (base : Nat) (a : Access D) (plan : List (Access D)) :
    places base (a :: plan) = (base, a) :: places (a.next base) plan := by
  cases a <;> rfl

/-- Just what has been handed out is marked, and the receivers are gone. -/
structure Marked (positional : List V) (keyword : List (Str × V)) (before : List (Supplied V))
    (base : Nat) (args : Args (Supplied V)) : Prop where
  left : args.positional = (suppliedPositional positional).drop base
  keywords : args.keyword = suppliedKeyword keyword
  marks : Marks args (fun j => decide (Origin.positional (base + j) ∈ before.map Supplied.origin))
    fun k => decide (Origin.keyword k ∈ before.map Supplied.origin)
  receivers : ∀ p < base, p < positional.length →
    Origin.positional p ∈ before.map Supplied.origin

section

variable {positional : List V} {keyword : List (Str × V)} {before : List (Supplied V)} {base : Nat}
  {args : Args (Supplied V)}

theorem marked_call (positional : List V) (keyword : List (Str × V)) :
    Marked positional keyword [] 0 (call positional keyword) where
  left := rfl
  keywords := rfl
  marks := by simpa [call] using marks_new (suppliedPositional positional) (suppliedKeyword keyword)
  receivers := nofun

theorem Marks.congr {args : Args V} {P P' : Nat → Bool} {K K' : Str → Bool} (h : Marks args P K)
    (hP : ∀ j < args.positional.length, P j = P' j)
    (hK : ∀ k ∈ args.keyword.map Prod.fst, K k = K' k) : Marks args P' K' where
  positional j := by
    rw [h.positional]
    cases hj : args.positional[j]? with
    | none => rfl
    | some v => exact congrArg some (hP j (List.getElem?_eq_some_iff.mp hj).1)
  keyword j := by
    rw [h.keyword]
    cases hj : args.keyword[j]? with
    | none => rfl
    | some entry =>
      exact congrArg some (hK entry.1 (List.mem_map.mpr ⟨entry, List.mem_of_getElem? hj, rfl⟩))

theorem restKeywords_eq {args : Args V} {P : Nat → Bool} {K : Str → Bool} (hm : Marks args P K) :
    args.restKeywords.1 = args.keyword.filter (fun entry => !K entry.1) ∧
      SameCall args args.restKeywords.2 ∧ Marks args.restKeywords.2 P fun _ => true := by
  have hmarks : args.consumedKeyword = args.keyword.map fun entry => K entry.1 := by
    refine List.ext_getElem? fun j => ?_
    rw [hm.keyword, List.getElem?_map]
  refine ⟨?_, ⟨rfl, rfl⟩, hm.positional, fun j => ?_⟩
  · unfold Args.restKeywords
    rw [hmarks]
    induction args.keyword with
    | nil => rfl
    | cons entry entries ih =>
      simp only [List.map_cons, List.zip_cons_cons, List.filter_cons]
      cases K entry.1 with
      | true => exact ih
      | false => exact congrArg (entry :: ·) ih
  · change (args.consumedKeyword.map fun _ => true)[j]? = _
    rw [List.getElem?_map, hm.keyword, Option.map_map]
    rfl

theorem keys_suppliedKeyword (keyword : List (Str × V)) :
    (suppliedKeyword keyword).map Prod.fst = keyword.map Prod.fst := by
  unfold suppliedKeyword
  rw [List.map_map]
  rfl

/-- Marks that an access adds are for what it takes. -/
theorem Marked.extend (h : Marked positional keyword before base args) {x : Place D}
    {args' : Args (Supplied V)} (hsame : SameCall args args') {P : Nat → Bool} {K : Str → Bool}
    (hm : Marks args' P K)
    (hP : ∀ j, base + j < positional.length → (P j = true ↔
      Origin.positional (base + j) ∈ before.map Supplied.origin ∨
        x.asksPosition (base + j) = true))
    (hK : ∀ k ∈ keyword.map Prod.fst, (K k = true ↔
      Origin.keyword k ∈ before.map Supplied.origin ∨
        x.looksUp positional.length k = true ∨ x.isRestKeywords = true)) :
    Marked positional keyword (before ++ given positional keyword before x) base args' := by
  refine ⟨hsame.1.trans h.left, hsame.2.trans h.keywords, hm.congr (fun j hj => ?_)
    (fun k hk => ?_), fun p hp hlt => ?_⟩
  · rw [hsame.1, h.left, List.length_drop, suppliedPositional, List.length_mapIdx] at hj
    have hlt : base + j < positional.length := by omega
    rw [Bool.eq_iff_iff, hP j hlt, decide_eq_true_eq, List.map_append, List.mem_append,
      positional_mem_given]
    simp only [hlt, and_true]
  · rw [hsame.2, h.keywords, keys_suppliedKeyword] at hk
    rw [Bool.eq_iff_iff, hK k hk, decide_eq_true_eq, List.map_append, List.mem_append,
      keyword_mem_given]
    simp only [hk, true_and]
    tauto
  · rw [List.map_append]
    exact List.mem_append_left _ (h.receivers p hp hlt)

theorem Marked.getElem? (h : Marked positional keyword before base args) (index : Nat) :
    args.positional[index]? = (suppliedPositional positional)[base + index]? := by
  rw [h.left, List.getElem?_drop]

theorem take_value (args : Args V) (argument : Argument) (demand : Demand D) :
    (Access.value argument demand).take args =
      ((args.value argument).1.toList, (args.value argument).2) := rfl

/-- An access takes what it is given by the call, and marks that. -/
def HandsOut (positional : List V) (keyword : List (Str × V)) (before : List (Supplied V))
    (base : Nat) (args : Args (Supplied V)) (a : Access D) : Prop :=
  (a.take args).1 = given positional keyword before (base, a) ∧
    Marked positional keyword (before ++ given positional keyword before (base, a)) (a.next base)
      (a.take args).2

section HandsOut

variable (h : Marked positional keyword before base args)

include h

theorem Marked.nodup_keys (hk : (keyword.map Prod.fst).Nodup) :
    (args.keyword.map Prod.fst).Nodup := by
  rw [h.keywords, keys_suppliedKeyword]
  exact hk

theorem handsOut_positional (index : Nat) (demand : Demand D) :
    HandsOut positional keyword before base args (.value (.positional index) demand) := by
  obtain ⟨args', hsame, hm, hvalue⟩ := takePositional_eq h.marks index
  have htake : (Access.value (.positional index) demand).take args =
      ((args.positional[index]?).toList, args') := by
    rw [take_value]
    change ((args.takePositional index).1.toList, (args.takePositional index).2) = _
    rw [hvalue]
  unfold HandsOut
  rw [htake, h.getElem?]
  refine ⟨rfl, h.extend hsame hm (fun j _ => ?_) fun k _ => ?_⟩
  · simp [Place.asksPosition, @eq_comm _ index]
  · simp [Place.looksUp, Place.isRestKeywords]

theorem handsOut_named (hk : (keyword.map Prod.fst).Nodup) (index : Nat) (name : Str)
    (demand : Demand D) :
    HandsOut positional keyword before base args (.value (.named index name) demand) := by
  obtain ⟨args', hsame, hm, hvalue⟩ := value_named_eq (h.nodup_keys hk) h.marks index name
  have htake : (Access.value (.named index name) demand).take args =
      (((args.positional[index]?).or (lookup args.keyword name)).toList, args') := by
    rw [take_value, hvalue]
  unfold HandsOut
  rw [htake, h.getElem?, h.keywords]
  refine ⟨rfl, h.extend hsame hm (fun j _ => ?_) fun k _ => ?_⟩
  · simp [Place.asksPosition, @eq_comm _ index]
  · rw [h.getElem?]
    simp [Place.looksUp, Place.isRestKeywords, suppliedPositional]

theorem handsOut_keyword (hk : (keyword.map Prod.fst).Nodup) (name : Str) (demand : Demand D) :
    HandsOut positional keyword before base args (.value (.keyword name) demand) := by
  obtain ⟨args', hsame, hm, hvalue⟩ := takeKeyword_eq (h.nodup_keys hk) h.marks name
  have htake : (Access.value (.keyword name) demand).take args =
      ((lookup args.keyword name).toList, args') := by
    rw [take_value]
    change ((args.takeKeyword name).1.toList, (args.takeKeyword name).2) = _
    rw [hvalue]
  unfold HandsOut
  rw [htake, h.keywords]
  refine ⟨rfl, h.extend hsame hm (fun j _ => ?_) fun k _ => ?_⟩
  · simp [Place.asksPosition]
  · simp [Place.looksUp, Place.isRestKeywords]

theorem handsOut_rest (descriptor : D) (index : Nat) :
    HandsOut positional keyword before base args (.rest descriptor index) := by
  obtain ⟨args', hsame, hm, hvalue⟩ := restValues_eq h.marks index
  have htake : (Access.rest descriptor index).take args = (args.positional.drop index, args') :=
    hvalue
  unfold HandsOut
  rw [htake, h.left, List.drop_drop]
  refine ⟨rfl, h.extend hsame hm (fun j _ => ?_) fun k _ => ?_⟩
  · simp [Place.asksPosition]
  · simp [Place.looksUp, Place.isRestKeywords]

theorem handsOut_restKeywords (descriptor : D) :
    HandsOut positional keyword before base args (.restKeywords descriptor) := by
  obtain ⟨hvalue, hsame, hm⟩ := restKeywords_eq h.marks
  refine ⟨?_, h.extend hsame hm (fun j _ => ?_) fun k _ => ?_⟩
  · change args.restKeywords.1.map Prod.snd = _
    rw [hvalue, h.keywords]
    simp only [given, decide_not]
  · simp [Place.asksPosition]
  · simp [Place.looksUp, Place.isRestKeywords]

/-- Without arguments there is no receiver to split off. -/
theorem handsOut_splitReceiver_nil (hleft : args.positional = []) :
    HandsOut positional keyword before base args (.splitReceiver : Access D) := by
  have htake : (Access.splitReceiver : Access D).take args = ([], args) := by
    simp only [Access.take, Args.splitReceiver, hleft]
  have hnone : (suppliedPositional positional)[base + 0]? = none := by
    rw [← h.getElem?, hleft]
    rfl
  have hge : positional.length ≤ base := by
    simpa [suppliedPositional] using hnone
  have hgiven : given positional keyword before (base, (Access.splitReceiver : Access D)) = [] := by
    unfold given
    simp only [hnone, Option.toList_none]
  unfold HandsOut
  rw [htake, hgiven, List.append_nil]
  refine ⟨rfl, ?_, h.keywords, h.marks.congr (fun j hj => ?_) (fun _ _ => rfl),
    fun p _ hlt => h.receivers p (hlt.trans_le hge) hlt⟩
  · rw [hleft, List.drop_eq_nil_of_le]
    simp only [suppliedPositional, List.length_mapIdx, Access.next]
    omega
  · rw [hleft] at hj
    cases hj

/-- The receiver goes, and the places of the others count from the next one. -/
theorem handsOut_splitReceiver_cons {receiver : Supplied V} {rest : List (Supplied V)}
    (hleft : args.positional = receiver :: rest) :
    HandsOut positional keyword before base args (.splitReceiver : Access D) := by
  have htake : (Access.splitReceiver : Access D).take args = ([receiver], { args with
      positional := rest
      consumedPositional := args.consumedPositional.tail }) := by
    simp only [Access.take, Args.splitReceiver, hleft]
  have hsome : (suppliedPositional positional)[base + 0]? = some receiver := by
    rw [← h.getElem?, hleft]
    rfl
  have hgiven : given positional keyword before (base, (Access.splitReceiver : Access D)) =
      [receiver] := by
    unfold given
    simp only [hsome, Option.toList_some]
  have hmem : ∀ p, Origin.positional p ∈
      (before ++ given positional keyword before (base, (Access.splitReceiver : Access D))).map
        Supplied.origin ↔
      Origin.positional p ∈ before.map Supplied.origin ∨ base = p ∧ p < positional.length := by
    intro p
    rw [List.map_append, List.mem_append, positional_mem_given]
    simp only [Place.asksPosition, beq_iff_eq]
  unfold HandsOut
  rw [htake, ← hgiven]
  refine ⟨rfl, ?_, h.keywords, ⟨fun j => ?_, fun j => ?_⟩, fun p hp hlt => ?_⟩
  · have hdrop : (suppliedPositional positional).drop (base + 1) =
        ((suppliedPositional positional).drop base).tail := List.tail_drop.symm
    exact (hdrop.trans (by rw [← h.left, hleft]; rfl)).symm
  · have hmark := h.marks.positional (j + 1)
    rw [hleft, List.getElem?_cons_succ] at hmark
    change args.consumedPositional.tail[j]? = _
    rw [List.getElem?_tail, hmark]
    refine congrArg (fun b => Option.map (fun _ => b) rest[j]?) ?_
    rw [decide_eq_decide, hmem]
    change _ ↔ Origin.positional (base + 1 + j) ∈ _ ∨ base = base + 1 + j ∧ _
    have hindex : base + 1 + j = base + (j + 1) := by omega
    rw [hindex]
    constructor
    · exact Or.inl
    · rintro (hmem | ⟨heq, -⟩)
      · exact hmem
      · omega
  · have hmark := h.marks.keyword j
    change args.consumedKeyword[j]? = _
    rw [hmark]
    refine congrArg (fun f => Option.map f args.keyword[j]?) (funext fun entry => ?_)
    rw [decide_eq_decide, List.map_append, List.mem_append, keyword_mem_given]
    simp [Place.looksUp, Place.isRestKeywords]
  · rw [hmem]
    have hp : p < base + 1 := hp
    by_cases hbase : p = base
    · exact Or.inr ⟨hbase.symm, hlt⟩
    · exact Or.inl (h.receivers p (by omega) hlt)

theorem handsOut (hk : (keyword.map Prod.fst).Nodup) (a : Access D) :
    HandsOut positional keyword before base args a := by
  cases a with
  | value argument demand =>
    cases argument with
    | positional index => exact handsOut_positional h index demand
    | named index name => exact handsOut_named h hk index name demand
    | keyword name => exact handsOut_keyword h hk name demand
  | rest descriptor index => exact handsOut_rest h descriptor index
  | restKeywords descriptor => exact handsOut_restKeywords h descriptor
  | splitReceiver =>
    cases hleft : args.positional with
    | nil => exact handsOut_splitReceiver_nil h hleft
    | cons receiver rest => exact handsOut_splitReceiver_cons h hleft

end HandsOut

end

/-! ## Runs -/

section

variable {c : Conversions V D W} {args : Args V}

theorem required_cases (convert : V → Except Err W) (message : String) (argument : Argument) :
    (((args.value argument).1.toList ≠ [] ∧
        ∀ v ∈ (args.value argument).1.toList, ∃ w, convert v = .ok w) ∧
      ∃ r, Conversions.required convert message args argument =
        .ok (r, (args.value argument).2)) ∨
    (¬ ((args.value argument).1.toList ≠ [] ∧
        ∀ v ∈ (args.value argument).1.toList, ∃ w, convert v = .ok w) ∧
      ∃ e, Conversions.required convert message args argument = .error e) := by
  unfold Conversions.required
  rcases args.value argument with ⟨o, args'⟩
  cases o with
  | none => exact Or.inr ⟨fun h => h.1 rfl, _, rfl⟩
  | some v =>
    cases hv : convert v with
    | ok w =>
      refine Or.inl ⟨⟨by simp, fun u hu => ⟨w, ?_⟩⟩, .value w, by simp only [hv]; rfl⟩
      rw [List.mem_singleton.mp hu]
      exact hv
    | error e =>
      refine Or.inr ⟨fun h => ?_, e, by simp only [hv]; rfl⟩
      obtain ⟨w, hw⟩ := h.2 v (List.mem_singleton_self v)
      cases hv.symm.trans hw

theorem optional_cases (descriptor : D) (argument : Argument) :
    ((∀ v ∈ (args.value argument).1.toList, ∃ w, c.fromOption descriptor v = .ok w) ∧
      ∃ r, c.optional descriptor args argument = .ok (r, (args.value argument).2)) ∨
    (¬ (∀ v ∈ (args.value argument).1.toList, ∃ w, c.fromOption descriptor v = .ok w) ∧
      ∃ e, c.optional descriptor args argument = .error e) := by
  unfold Conversions.optional
  rcases args.value argument with ⟨o, args'⟩
  cases o with
  | none => exact Or.inl ⟨nofun, _, rfl⟩
  | some v =>
    cases hv : c.fromOption descriptor v with
    | ok w =>
      refine Or.inl ⟨fun u hu => ⟨w, ?_⟩, .optional w, by simp only [hv]; rfl⟩
      rw [List.mem_singleton.mp hu]
      exact hv
    | error e =>
      refine Or.inr ⟨fun h => ?_, e, by simp only [hv]; rfl⟩
      obtain ⟨w, hw⟩ := h v (List.mem_singleton_self v)
      cases hv.symm.trans hw

/-- A list converts just if each of its values does. -/
theorem collect_cases {α β : Type} (convert : α → Except Err W) (pair : α → W → β)
    (collect : List α → Except Err (List β)) (hnil : collect [] = .ok [])
    (hcons : ∀ a as, collect (a :: as) = do
      let w ← convert a
      return pair a w :: (← collect as)) (as : List α) :
    ((∀ a ∈ as, ∃ w, convert a = .ok w) ∧ ∃ bs, collect as = .ok bs) ∨
      (¬ (∀ a ∈ as, ∃ w, convert a = .ok w) ∧ ∃ e, collect as = .error e) := by
  induction as with
  | nil => exact Or.inl ⟨nofun, [], hnil⟩
  | cons a as ih =>
    rw [hcons]
    cases ha : convert a with
    | error e =>
      refine Or.inr ⟨fun h => ?_, e, rfl⟩
      obtain ⟨w, hw⟩ := h a List.mem_cons_self
      cases ha.symm.trans hw
    | ok w =>
      rcases ih with ⟨hall, bs, hbs⟩ | ⟨hnot, e, he⟩
      · exact Or.inl ⟨List.forall_mem_cons.mpr ⟨⟨w, ha⟩, hall⟩, pair a w :: bs, by rw [hbs]; rfl⟩
      · exact Or.inr ⟨fun h => hnot (List.forall_mem_cons.mp h).2, e, by rw [he]; rfl⟩

/-- An access fails just if it is not given enough, or if what it is given does not convert. -/
theorem access_cases (c : Conversions V D W) (a : Access D) (args : Args V) :
    (a.Accepts c (a.take args).1 ∧ ∃ t, c.access a args = .ok (t, (a.take args).2)) ∨
      (¬ a.Accepts c (a.take args).1 ∧ ∃ e, c.access a args = .error e) := by
  cases a with
  | value argument demand =>
    rw [take_value]
    have hdemand : ((Access.value argument demand).Accepts c (args.value argument).1.toList ∧
          ∃ r, c.demand demand args argument = .ok (r, (args.value argument).2)) ∨
        (¬ (Access.value argument demand).Accepts c (args.value argument).1.toList ∧
          ∃ e, c.demand demand args argument = .error e) := by
      cases demand with
      | required descriptor message => exact required_cases _ message argument
      | borrow descriptor message => exact required_cases _ message argument
      | borrowMut descriptor message => exact required_cases _ message argument
      | optional descriptor => exact optional_cases descriptor argument
    unfold Conversions.access
    rcases hdemand with ⟨haccepts, r, hr⟩ | ⟨hnot, e, he⟩
    · exact Or.inl ⟨haccepts, .received r, by simp only [hr]; rfl⟩
    · exact Or.inr ⟨hnot, e, by simp only [he]; rfl⟩
  | rest descriptor index =>
    have hrest := collect_cases (c.fromGuest descriptor) (fun _ w => w) (c.collectRest descriptor)
      rfl (fun _ _ => rfl) (args.restValues index).1
    rcases hrest with ⟨haccepts, ws, hws⟩ | ⟨hnot, e, he⟩
    · refine Or.inl ⟨haccepts, .received (.rest ws), ?_⟩
      simp only [Conversions.access, Conversions.rest, hws]
      rfl
    · refine Or.inr ⟨hnot, e, ?_⟩
      simp only [Conversions.access, Conversions.rest, he]
      rfl
  | restKeywords descriptor =>
    have hrest := collect_cases (fun entry => c.fromGuest descriptor entry.2)
      (fun entry w => (entry.1, w)) (c.collectKeywords descriptor) rfl (fun _ _ => rfl)
      args.restKeywords.1
    have hvalues : (Access.restKeywords descriptor).Accepts c
        ((Access.restKeywords descriptor).take args).1 ↔
          ∀ entry ∈ args.restKeywords.1, ∃ w, c.fromGuest descriptor entry.2 = .ok w := by
      change (∀ v ∈ args.restKeywords.1.map Prod.snd, _) ↔ _
      exact List.forall_mem_map
    rw [hvalues]
    rcases hrest with ⟨haccepts, ws, hws⟩ | ⟨hnot, e, he⟩
    · refine Or.inl ⟨haccepts, .keywords ws, ?_⟩
      simp only [Conversions.access, hws]
      rfl
    · refine Or.inr ⟨hnot, e, ?_⟩
      simp only [Conversions.access, he]
      rfl
  | splitReceiver =>
    cases hleft : args.positional with
    | nil =>
      refine Or.inr ⟨fun h => h ?_, .conversion "missing required receiver", ?_⟩
      · simp only [Access.take, Args.splitReceiver, hleft]
      · simp only [Conversions.access, Args.splitReceiver, hleft]
        rfl
    | cons receiver rest =>
      refine Or.inl ⟨?_, .receiver receiver, ?_⟩
      · simp only [Access.take, Args.splitReceiver, hleft, Access.Accepts]
        exact List.cons_ne_nil _ _
      · simp only [Conversions.access, Args.splitReceiver, hleft, Access.take]
        rfl

end

section

variable {c : Conversions (Supplied V) D W} {positional : List V} {keyword : List (Str × V)}

theorem asksName_of_looksUp {x : Place D} {n : Nat} {k : Str} (h : x.looksUp n k = true) :
    x.asksName k = true := by
  obtain ⟨base, a⟩ := x
  unfold Place.looksUp at h
  unfold Place.asksName
  cases a with
  | value argument demand =>
    cases argument with
    | positional index => cases h
    | named index name => exact (Bool.and_eq_true_iff.mp h).1
    | keyword name => exact h
  | _ => cases h

theorem positional_mem_handed {l : List (Place D)} {p : Nat} :
    Origin.positional p ∈ (handed positional keyword l).map Supplied.origin ↔
      p < positional.length ∧ ∃ x ∈ l, x.asksPosition p = true := by
  induction l with
  | nil => exact iff_of_false List.not_mem_nil fun h => nomatch h.2
  | cons x l ih =>
    unfold handed
    rw [List.map_append, List.mem_append, ih, positional_mem_given, List.exists_mem_cons_iff,
      and_comm (b := p < positional.length), ← and_or_left, or_comm]

theorem keyword_mem_handed {l : List (Place D)} {k : Str} :
    Origin.keyword k ∈ (handed positional keyword l).map Supplied.origin ↔
      k ∈ keyword.map Prod.fst ∧
        ∃ x ∈ l, x.looksUp positional.length k = true ∨ x.isRestKeywords = true := by
  induction l with
  | nil => exact iff_of_false List.not_mem_nil fun h => nomatch h.2
  | cons x l ih =>
    unfold handed
    rw [List.map_append, List.mem_append, keyword_mem_given, List.exists_mem_cons_iff]
    constructor
    · rintro (h | ⟨hk, hx | ⟨hx, -⟩⟩)
      · exact ⟨(ih.mp h).1, Or.inr (ih.mp h).2⟩
      · exact ⟨hk, Or.inl (Or.inl hx)⟩
      · exact ⟨hk, Or.inl (Or.inr hx)⟩
    · rintro ⟨hk, (hx | hx) | hl⟩
      · exact Or.inr ⟨hk, Or.inl hx⟩
      · by_cases hbefore : Origin.keyword k ∈ (handed positional keyword l).map Supplied.origin
        · exact Or.inl hbefore
        · exact Or.inr ⟨hk, Or.inr ⟨hx, hbefore⟩⟩
      · exact Or.inl (ih.mpr ⟨hk, hl⟩)

theorem handed_suffix (positional : List V) (keyword : List (Str × V)) (l l' : List (Place D)) :
    ∃ rest, handed positional keyword (l ++ l') = handed positional keyword l' ++ rest := by
  induction l with
  | nil => exact ⟨[], (List.append_nil _).symm⟩
  | cons x l ih =>
    obtain ⟨rest, hrest⟩ := ih
    refine ⟨rest ++ given positional keyword (handed positional keyword (l ++ l')) x, ?_⟩
    rw [← List.append_assoc, ← hrest]
    rfl

theorem goesThrough_suffix {l l' : List (Place D)} (h : GoesThrough c positional keyword (l ++ l')) :
    GoesThrough c positional keyword l' := by
  induction l with
  | nil => exact h
  | cons x l ih => exact ih h.1

/-- The accesses up to the first that fails, and what they have handed out. -/
theorem run_eq (hk : (keyword.map Prod.fst).Nodup) {before : List (Place D)} {base : Nat}
    {args : Args (Supplied V)} (hbefore : GoesThrough c positional keyword before)
    (h : Marked positional keyword (handed positional keyword before) base args)
    (plan : List (Access D)) :
    ∃ l after, places base plan = l ++ after ∧
      GoesThrough c positional keyword (l.reverse ++ before) ∧
      handed positional keyword before ++ (c.run plan args).1 =
        handed positional keyword (l.reverse ++ before) ∧
      ((after = [] ∧ ∃ base' args', (c.run plan args).2 = .ok args' ∧
          Marked positional keyword (handed positional keyword (l.reverse ++ before)) base' args') ∨
        ∃ x after', after = x :: after' ∧ (∃ e, (c.run plan args).2 = .error e) ∧
          ¬ GoesThrough c positional keyword (x :: (l.reverse ++ before))) := by
  induction plan generalizing before base args with
  | nil => exact ⟨[], [], rfl, hbefore, List.append_nil _, Or.inl ⟨rfl, base, args, rfl, h⟩⟩
  | cons a plan ih =>
    obtain ⟨htake, hmarked⟩ := handsOut h hk a
    unfold Conversions.run
    rcases access_cases c a args with ⟨haccepts, t, ht⟩ | ⟨hnot, e, he⟩
    · rw [htake] at haccepts
      have hthrough : GoesThrough c positional keyword ((base, a) :: before) :=
        ⟨hbefore, haccepts⟩
      obtain ⟨l, after, hplaces, hgoes, hhanded, hrest⟩ := ih hthrough hmarked
      have hreverse : ((base, a) :: l).reverse ++ before = l.reverse ++ (base, a) :: before := by
        rw [List.reverse_cons, List.append_assoc]
        rfl
      refine ⟨(base, a) :: l, after, ?_, ?_, ?_, ?_⟩
      · rw [places_cons, hplaces]
        rfl
      · rw [hreverse]
        exact hgoes
      · rw [hreverse, ← hhanded]
        simp only [ht, htake, handed, List.append_assoc]
      · rw [hreverse]
        simp only [ht]
        exact hrest
    · rw [htake] at hnot
      refine ⟨[], (base, a) :: places (a.next base) plan, ?_, hbefore, ?_,
        Or.inr ⟨_, _, rfl, ?_, ?_⟩⟩
      · exact places_cons base a plan
      · simp only [he, List.append_nil, List.reverse_nil, List.nil_append]
      · simp only [he]
        exact ⟨e, rfl⟩
      · exact fun hgoes => hnot hgoes.2

theorem nodup_handed (hk : (keyword.map Prod.fst).Nodup) {l : List (Place D)}
    (hseparate : l.Pairwise Place.Apart)
    (hback : ∀ after x before, l = after ++ x :: before → (∃ y ∈ before, y.isRestKeywords = true) →
      ∀ k ∈ keyword.map Prod.fst, x.looksUp positional.length k = false) :
    ((handed positional keyword l).map Supplied.origin).Nodup := by
  induction l with
  | nil => exact List.nodup_nil
  | cons x l ih =>
    obtain ⟨hx, hl⟩ := List.pairwise_cons.mp hseparate
    have hbefore := ih hl fun after y before hy => hback (x :: after) y before (by rw [hy]; rfl)
    unfold handed
    rw [List.map_append]
    refine List.nodup_append.mpr ⟨hbefore, nodup_given hk x, ?_⟩
    rintro o ho o' ho' rfl
    cases o with
    | positional p =>
      obtain ⟨-, y, hy, hasks⟩ := positional_mem_handed.mp ho
      exact (hx y hy).1 p ⟨(positional_mem_given.mp ho').1, hasks⟩
    | keyword k =>
      obtain ⟨hmem, hlooks | ⟨-, hfresh⟩⟩ := keyword_mem_given.mp ho'
      · obtain ⟨-, y, hy, hy' | hrest⟩ := keyword_mem_handed.mp ho
        · exact (hx y hy).2 k ⟨asksName_of_looksUp hlooks, asksName_of_looksUp hy'⟩
        · have hnot := hback [] x l rfl ⟨y, hy, hrest⟩ k hmem
          rw [hlooks] at hnot
          cases hnot
      · exact hfresh ho

/-- What has been handed out when a run ends, and whether it has come to its end. -/
theorem run_call (c : Conversions (Supplied V) D W) (positional : List V)
    (hk : (keyword.map Prod.fst).Nodup) (plan : List (Access D)) :
    ∃ l after, places 0 plan = l ++ after ∧ GoesThrough c positional keyword l.reverse ∧
      (c.run plan (call positional keyword)).1 = handed positional keyword l.reverse ∧
      ((after = [] ∧ ∃ base args, (c.run plan (call positional keyword)).2 = .ok args ∧
          Marked positional keyword (handed positional keyword l.reverse) base args) ∨
        ∃ x after', after = x :: after' ∧
          (∃ e, (c.run plan (call positional keyword)).2 = .error e) ∧
          ¬ GoesThrough c positional keyword (x :: l.reverse)) := by
  have hempty : GoesThrough c positional keyword [] := trivial
  have hrun := run_eq hk hempty (marked_call positional keyword) plan
  simp only [List.append_nil] at hrun
  exact hrun

theorem finish_iff {before : List (Supplied V)} {base : Nat} {args : Args (Supplied V)}
    (h : Marked positional keyword before base args) :
    args.finish = .ok () ↔
      (∀ p < positional.length, .positional p ∈ before.map Supplied.origin) ∧
        ∀ entry ∈ keyword, .keyword entry.1 ∈ before.map Supplied.origin := by
  rw [finish_ok h.marks, h.left, h.keywords]
  simp only [decide_eq_true_eq, List.length_drop, suppliedPositional, List.length_mapIdx,
    suppliedKeyword, List.forall_mem_map]
  refine and_congr ⟨fun hall p hp => ?_, fun hall j hj => hall (base + j) (by omega)⟩ Iff.rfl
  by_cases hbase : p < base
  · exact h.receivers p hbase hp
  · have hleft := hall (p - base) (by omega)
    rw [Nat.add_sub_cancel' (by omega)] at hleft
    exact hleft

/-- A call succeeds just if its accesses go through and leave nothing. -/
theorem succeeds_iff (hk : (keyword.map Prod.fst).Nodup) (plan : List (Access D)) :
    Succeeds c positional keyword plan ↔
      GoesThrough c positional keyword (places 0 plan).reverse ∧
      (∀ p < positional.length, ∃ x ∈ places 0 plan, x.asksPosition p = true) ∧
      ∀ entry ∈ keyword, ∃ x ∈ places 0 plan,
        x.looksUp positional.length entry.1 = true ∨ x.isRestKeywords = true := by
  obtain ⟨l, after, hplaces, hgoes, -, ⟨rfl, base, args, hok, hmarked⟩ |
    ⟨x, after', rfl, ⟨e, he⟩, hstops⟩⟩ := run_call c positional hk plan
  · rw [List.append_nil] at hplaces
    have hsucceeds : Succeeds c positional keyword plan ↔ args.finish = .ok () := by
      constructor
      · rintro ⟨args', hok', hfinish⟩
        cases hok.symm.trans hok'
        exact hfinish
      · exact fun hfinish => ⟨args, hok, hfinish⟩
    rw [hsucceeds, finish_iff hmarked, hplaces]
    simp only [positional_mem_handed, keyword_mem_handed, List.mem_reverse]
    constructor
    · rintro ⟨hpositional, hkeyword⟩
      exact ⟨hgoes, fun p hp => (hpositional p hp).2, fun entry hentry => (hkeyword entry hentry).2⟩
    · rintro ⟨-, hpositional, hkeyword⟩
      exact ⟨fun p hp => ⟨hp, hpositional p hp⟩, fun entry hentry =>
        ⟨List.mem_map_of_mem hentry, hkeyword entry hentry⟩⟩
  · constructor
    · rintro ⟨args, hok, -⟩
      cases he.symm.trans hok
    · rintro ⟨hall, -⟩
      rw [hplaces, List.reverse_append, List.reverse_cons, List.append_assoc] at hall
      exact absurd (goesThrough_suffix hall) hstops

/-- Nothing is handed out twice just if `rest_keywords` is not looked back on. -/
theorem once_iff (hk : (keyword.map Prod.fst).Nodup) {plan : List (Access D)}
    (hplan : Separate plan) :
    ((c.run plan (call positional keyword)).1.map Supplied.origin).Nodup ↔
      ¬ LooksBack c positional keyword plan := by
  obtain ⟨l, after, hplaces, hgoes, hhanded, hends⟩ := run_call c positional hk plan
  rw [hhanded]
  constructor
  · rintro hnodup ⟨before, x, after', hsplit, hthrough, ⟨y, hy, hrest⟩, entry, hentry, hlooks⟩
    -- the run has got to the access
    have hprefix : ∃ rest, l = (before ++ [x]) ++ rest := by
      have heq : l ++ after = (before ++ [x]) ++ after' := by
        rw [← hplaces, hsplit, List.append_assoc]
        rfl
      rcases List.append_eq_append_iff.mp heq with ⟨rest, hbefore, hafter⟩ | ⟨rest, hl, -⟩
      · cases rest with
        | nil => exact ⟨[], by rw [← List.append_nil l, ← hbefore, List.append_nil]⟩
        | cons z rest =>
          rcases hends with ⟨rfl, -⟩ | ⟨z', after'', rfl, -, hstops⟩
          · cases hafter
          · cases hafter
            refine absurd (goesThrough_suffix (l := rest.reverse) ?_) hstops
            have hreverse : x :: before.reverse = rest.reverse ++ z :: l.reverse := by
              have := congrArg List.reverse hbefore
              simpa using this
            rw [← hreverse]
            exact hthrough
      · exact ⟨rest, hl⟩
    obtain ⟨rest, rfl⟩ := hprefix
    rw [List.reverse_append, List.reverse_append] at hnodup
    obtain ⟨more, hmore⟩ :=
      handed_suffix positional keyword rest.reverse ([x].reverse ++ before.reverse)
    rw [hmore, List.map_append] at hnodup
    have hfirst := (List.nodup_append.mp hnodup).1
    have hboth : handed positional keyword ([x].reverse ++ before.reverse) =
        handed positional keyword before.reverse ++
          given positional keyword (handed positional keyword before.reverse) x := rfl
    rw [hboth, List.map_append] at hfirst
    have hkey : entry.1 ∈ keyword.map Prod.fst := List.mem_map_of_mem hentry
    refine (List.nodup_append.mp hfirst).2.2 (.keyword entry.1) ?_ (.keyword entry.1) ?_ rfl
    · exact keyword_mem_handed.mpr ⟨hkey, y, List.mem_reverse.mpr hy, Or.inr hrest⟩
    · exact keyword_mem_given.mpr ⟨hkey, Or.inl hlooks⟩
  · intro hback
    refine nodup_handed hk ?_ fun before x after' hsplit ⟨y, hy, hrest⟩ k hkey => ?_
    · unfold Separate at hplan
      rw [hplaces] at hplan
      exact List.pairwise_reverse.mpr ((List.pairwise_append.mp hplan).1.imp symm)
    · by_contra hlooks
      rw [Bool.not_eq_false] at hlooks
      obtain ⟨entry, hentry, rfl⟩ := List.mem_map.mp hkey
      have hl : l = after'.reverse ++ x :: before.reverse := by
        have := congrArg List.reverse hsplit
        simpa using this
      refine hback ⟨after'.reverse, x, before.reverse ++ after, ?_, ?_,
        ⟨y, List.mem_reverse.mpr hy, hrest⟩, entry, hentry, hlooks⟩
      · rw [hplaces, hl, List.append_assoc]
        rfl
      · rw [List.reverse_reverse]
        rw [hsplit] at hgoes
        exact goesThrough_suffix hgoes

/-- What was supplied twice is noticed, unless `rest_keywords` has taken it. -/
theorem twice_iff (hk : (keyword.map Prod.fst).Nodup) {plan : List (Access D)}
    (hplan : Separate plan) :
    (∀ x ∈ places 0 plan, ∀ p < positional.length, ∀ entry ∈ keyword,
      x.names p entry.1 = true → ¬ Succeeds c positional keyword plan) ↔
        ¬ Unnoticed c positional keyword plan := by
  constructor
  · rintro htwice ⟨⟨x, hx, p, hp, entry, hentry, hnames⟩, ⟨y, hy, hrest⟩, hthrough, hasked⟩
    refine htwice x hx p hp entry hentry hnames ((succeeds_iff hk plan).mpr ⟨hthrough, hasked, ?_⟩)
    exact fun _ _ => ⟨y, hy, Or.inr hrest⟩
  · intro hnoticed x hx p hp entry hentry hnames hsucceeds
    obtain ⟨hthrough, hasked, hkeyword⟩ := (succeeds_iff hk plan).mp hsucceeds
    refine hnoticed ⟨⟨x, hx, p, hp, entry, hentry, hnames⟩, ?_, hthrough, hasked⟩
    obtain ⟨y, hy, hlooks | hrest⟩ := hkeyword entry hentry
    · exfalso
      have hname : x.asksName entry.1 = true ∧ x.looksUp positional.length entry.1 = false := by
        obtain ⟨base, a⟩ := x
        unfold Place.names at hnames
        unfold Place.asksName Place.looksUp
        cases a with
        | value argument demand =>
          cases argument with
          | named index name =>
            simp only [Bool.and_eq_true, beq_iff_eq] at hnames
            obtain ⟨hindex, rfl⟩ := hnames
            have hlt : ¬ positional.length ≤ base + index := by omega
            simp [hlt]
          | _ => cases hnames
        | _ => cases hnames
      have hne : x ≠ y := by
        rintro rfl
        rw [hname.2] at hlooks
        cases hlooks
      exact (List.Pairwise.forall hplan hx hy hne).2 entry.1
        ⟨hname.1, asksName_of_looksUp hlooks⟩
    · exact ⟨y, hy, hrest⟩

/-- **Arguments are accounted for just if `rest_keywords` neither takes a keyword that is looked up
later, nor hides one that was supplied twice.** -/
theorem accounted_iff (c : Conversions (Supplied V) D W) (positional : List V)
    (keyword : List (Str × V)) (hk : (keyword.map Prod.fst).Nodup) (plan : List (Access D))
    (hplan : Separate plan) :
    Accounted c positional keyword plan ↔
      ¬ LooksBack c positional keyword plan ∧ ¬ Unnoticed c positional keyword plan := by
  have hfinish : ∀ args, (c.run plan (call positional keyword)).2 = .ok args →
      (args.finish = .ok () ↔
        (∀ p < positional.length,
          .positional p ∈ (c.run plan (call positional keyword)).1.map Supplied.origin) ∧
        ∀ entry ∈ keyword,
          .keyword entry.1 ∈ (c.run plan (call positional keyword)).1.map Supplied.origin) := by
    intro args hargs
    obtain ⟨l, after, -, -, hhanded, ⟨-, base, args', hok, hmarked⟩ | ⟨x, after', -, ⟨e, he⟩, -⟩⟩ :=
      run_call c positional hk plan
    · cases hok.symm.trans hargs
      rw [hhanded]
      exact finish_iff hmarked
    · cases he.symm.trans hargs
  rw [← once_iff hk hplan, ← twice_iff hk hplan]
  exact ⟨fun h => ⟨h.once, h.twice⟩, fun h => ⟨h.1, hfinish, h.2⟩⟩

end

/-! ### A named parameter and the other keywords -/

/-- Numbers that convert to themselves. -/
def counted : Conversions (Supplied Nat) Unit Nat where
  isNone _ := false
  fromGuest _ s := .ok s.value
  fromGuestRef _ s := .ok s.value
  fromGuestMut _ s := .ok s.value
  enter := 0
  receiver _ := .ok 0
  context _ := .ok 0

/-- The parameter `a`, and all other keywords. -/
def namedAndKeywords : List (Access Unit) := [.required () 0 ['a'], .restKeywords ()]

theorem separate_namedAndKeywords : Separate namedAndKeywords := by
  refine List.pairwise_cons.mpr ⟨?_, List.pairwise_singleton _ _⟩
  intro y hy
  rw [List.mem_singleton.mp hy]
  constructor
  · rintro p ⟨-, hp⟩
    cases hp
  · rintro name ⟨-, hn⟩
    cases hn

theorem accounted_named : Accounted counted [1] [(['b'], 2)] namedAndKeywords := by
  refine (accounted_iff counted [1] [(['b'], 2)] (by decide) namedAndKeywords
    separate_namedAndKeywords).mpr ⟨?_, ?_⟩
  · rintro ⟨before, x, after, hsplit, -, -, entry, hentry, hlooks⟩
    have hx : x ∈ places 0 namedAndKeywords := by
      rw [hsplit]
      exact List.mem_append_right _ List.mem_cons_self
    rw [List.mem_singleton.mp hentry] at hlooks
    rcases List.mem_cons.mp hx with rfl | hx
    · cases hlooks
    · rw [List.mem_singleton.mp hx] at hlooks
      cases hlooks
  · rintro ⟨⟨x, hx, p, -, entry, hentry, hnames⟩, -, -, -⟩
    rw [List.mem_singleton.mp hentry] at hnames
    rcases List.mem_cons.mp hx with rfl | hx
    · cases (Bool.and_eq_true_iff.mp hnames).2
    · rw [List.mem_singleton.mp hx] at hnames
      cases hnames

/-- The call has `a` by position and by keyword, and succeeds. -/
theorem not_accounted_of_twice :
    ¬ ∀ (V D W : Type) (c : Conversions (Supplied V) D W) (positional : List V)
      (keyword : List (Str × V)) (plan : List (Access D)), (keyword.map Prod.fst).Nodup →
        Separate plan → Accounted c positional keyword plan := by
  intro h
  have haccounted := h Nat Unit Nat counted [1] [(['a'], 2)] namedAndKeywords (by decide)
    separate_namedAndKeywords
  exact haccounted.twice _ List.mem_cons_self 0 (by decide) _ List.mem_cons_self rfl ⟨_, rfl, rfl⟩

end GuestPy.Marshal