import GuestPy.Guest.Conversion

/-!
# Conversions yield exceptions

A class that is looked up is checked: it is a subclass of what the dictionary of builtins has as
`BaseException`. What its call returns is not checked.

* `Kept` says that objects stay instances of their classes, and `Intact` that the dictionary has
  `BaseException` and a `SystemError` that is a subclass of it.
* `Ordinary` is what the conversion relies on where guest code runs: both stay so, and a call of a
  class returns an instance of it.
* `delivers_convert`: then it yields an exception.
-/

namespace GuestPy.Raising

open Exceptions Host
open Boundary (Site)

variable {types : TypeId → HostException} {Ω T α : Type}

/-! ## Instances -/

def Instance (i : Interpreter types) (x c : ObjectId) : Prop :=
  x < i.heap.next ∧ i.heap.IsInstance x c

instance (i : Interpreter types) (x c : ObjectId) : Decidable (Instance i x c) :=
  inferInstanceAs (Decidable (_ ∧ _))

/-- Objects stay instances of their classes, and classes keep their bases. -/
structure Kept (i i' : Interpreter types) : Prop where
  next : i.heap.next ≤ i'.heap.next
  instances : ∀ x c, Instance i x c → Instance i' x c
  bases : ∀ c b, c < i.heap.next → b ∈ (i.heap.objects c).mro → b ∈ (i'.heap.objects c).mro

/-- The builtins that a conversion needs are there, and what the interpreter refers to has been
allocated. -/
structure Intact (base system : ObjectId) (i : Interpreter types) : Prop where
  baseException : i.builtins "BaseException".toList = some base
  systemError : i.builtins "SystemError".toList = some system
  derived : base ∈ (i.heap.objects system).mro
  keyError : i.keyError < i.heap.next
  keyDerived : base ∈ (i.heap.objects i.keyError).mro
  builtins : ∀ name c, i.builtins name = some c → c < i.heap.next
  realised : ∀ key c, i.cache.realisedException key = some c → c < i.heap.next
  classes : ∀ x, x < i.heap.next → (i.heap.objects x).class < i.heap.next
  own : ∀ c, c < i.heap.next → (i.heap.objects c).mro = [] ∨ c ∈ (i.heap.objects c).mro

/-- A subclass of something is a class, and so it is a subclass of itself. -/
theorem Intact.mem_mro {base system b c : ObjectId} {i : Interpreter types}
    (h : Intact base system i) (hc : c < i.heap.next) (hb : b ∈ (i.heap.objects c).mro) :
    c ∈ (i.heap.objects c).mro := by
  rcases h.own c hc with hnil | hmem
  · rw [hnil] at hb
    cases hb
  · exact hmem

section

variable {base system : ObjectId} {i i' i'' : Interpreter types}

theorem Kept.refl (i : Interpreter types) : Kept i i :=
  ⟨le_refl _, fun _ _ h => h, fun _ _ _ h => h⟩

theorem Kept.trans (h : Kept i i') (h' : Kept i' i'') : Kept i i'' where
  next := h.next.trans h'.next
  instances x c hx := h'.instances x c (h.instances x c hx)
  bases c b hc hb := h'.bases c b (hc.trans_le h.next) (h.bases c b hc hb)

/-- The builtins stay, and so do instances and bases. -/
def preserving (types : TypeId → HostException) (base system : ObjectId) :
    Discipline (Interpreter types) where
  inv := Intact base system
  future := Kept
  unwound _ := True
  refl := Kept.refl
  trans := Kept.trans

theorem kept_of_objects (hclasses : ∀ x, x < i.heap.next → (i.heap.objects x).class < i.heap.next)
    (hnext : i.heap.next ≤ i'.heap.next)
    (hobjects : ∀ x, x < i.heap.next → i'.heap.objects x = i.heap.objects x) : Kept i i' where
  next := hnext
  instances := by
    rintro x c ⟨hx, hc⟩
    refine ⟨hx.trans_le hnext, ?_⟩
    unfold Heap.IsInstance at hc ⊢
    rw [hobjects x hx, hobjects _ (hclasses x hx)]
    exact hc
  bases c b hc hb := by
    rw [hobjects c hc]
    exact hb

theorem kept_of_quiet (h : Intact base system i) (hquiet : Quiet i i') : Kept i i' :=
  kept_of_objects h.classes hquiet.next hquiet.objects

/-- A new object of a class that has been allocated. -/
theorem intact_allocate {o : ObjectId → Object} (h : Intact base system i)
    (ho : (o i.heap.next).class < i.heap.next)
    (hmro : (o i.heap.next).mro = [] ∨ i.heap.next ∈ (o i.heap.next).mro) :
    Intact base system (i.withHeap fun h => (h.allocate o).2) where
  baseException := h.baseException
  systemError := h.systemError
  derived := by
    have hlt := h.builtins _ _ h.systemError
    rw [(ExceptionRealiser.quiet_allocate o i).objects _ hlt]
    exact h.derived
  keyError := h.keyError.trans_le (Nat.le_succ _)
  keyDerived := by
    change base ∈ (((i.withHeap _).heap.objects i.keyError)).mro
    rw [(ExceptionRealiser.quiet_allocate o i).objects _ h.keyError]
    exact h.keyDerived
  builtins name c hc := (h.builtins name c hc).trans_le (Nat.le_succ _)
  realised key c hc := (h.realised key c hc).trans_le (Nat.le_succ _)
  classes x hx := by
    rcases Nat.lt_succ_iff_lt_or_eq.mp hx with hlt | rfl
    · rw [(ExceptionRealiser.quiet_allocate o i).objects _ hlt]
      exact (h.classes x hlt).trans_le (Nat.le_succ _)
    · change (Function.update i.heap.objects i.heap.next _ i.heap.next).class < _
      rw [Function.update_self]
      exact ho.trans_le (Nat.le_succ _)
  own c hc := by
    rcases Nat.lt_succ_iff_lt_or_eq.mp hc with hlt | rfl
    · rw [(ExceptionRealiser.quiet_allocate o i).objects _ hlt]
      exact h.own c hlt
    · change (Function.update i.heap.objects i.heap.next _ i.heap.next).mro = [] ∨
        i.heap.next ∈ (Function.update i.heap.objects i.heap.next _ i.heap.next).mro
      rw [Function.update_self]
      exact hmro

theorem instance_allocate {o : ObjectId → Object} {c : ObjectId}
    (ho : (o i.heap.next).class < i.heap.next)
    (hc : c ∈ (i.heap.objects (o i.heap.next).class).mro) :
    Instance (i.withHeap fun h => (h.allocate o).2) i.heap.next c := by
  refine ⟨Nat.lt_succ_self _, ?_⟩
  have hself : ((i.withHeap fun h => (h.allocate o).2).heap.objects i.heap.next) =
      o i.heap.next := Function.update_self ..
  unfold Heap.IsInstance
  rw [hself, (ExceptionRealiser.quiet_allocate o i).objects _ ho]
  exact hc

end

/-! ## Lookups -/

namespace Lookup

open ExceptionRealiser Interpreter

variable {base system : ObjectId} {i : Interpreter types}

/-- The object of an error is an exception. -/
def Proper (base : ObjectId) (e : Err) (i : Interpreter types) : Prop :=
  ∀ x, HostError.objectOf e = some x → Instance i x base

abbrev Orderly (base system : ObjectId) (i : Interpreter types)
    (m : Host (Interpreter types) Err α) (Q : α → Interpreter types → Prop) : Prop :=
  Delivers (preserving types base system) i m Q (Proper base)

theorem orderly_allocate {o : ObjectId → Object}
    (ho : Intact base system i → (o i.heap.next).class < i.heap.next)
    (hmro : (o i.heap.next).mro = [] ∨ i.heap.next ∈ (o i.heap.next).mro) :
    Orderly base system i (allocate o) fun x i' =>
      x = i.heap.next ∧ i' = i.withHeap fun h => (h.allocate o).2 := by
  refine .assume fun h => .get ?_
  refine .bind (.modify (R := fun _ i' => i' = i.withHeap fun h => (h.allocate o).2)
    (fun h => intact_allocate h (ho h) hmro)
    (kept_of_quiet h (quiet_allocate o i)) rfl) ?_
  rintro _ _ _ rfl
  exact .pure ⟨rfl, rfl⟩

theorem orderly_builtin (name : Str) :
    Orderly base system i (builtin name) fun c i' =>
      i'.builtins name = some c ∧ c < i'.heap.next := by
  refine .assume fun h => .get ?_
  split
  · next c hc => exact .pure ⟨hc, h.builtins name c hc⟩
  · refine .bind (orderly_allocate (fun h => h.keyError) (Or.inl rfl)) ?_
    rintro _ _ - ⟨rfl, rfl⟩
    refine .get (.throw ?_)
    rintro x hx
    cases hx
    exact instance_allocate h.keyError h.keyDerived

theorem orderly_create (module name : Str) (b : ObjectId) :
    Orderly base system i (create module name b) fun c i' => c < i'.heap.next := by
  refine .bind (orderly_builtin _) ?_
  rintro metaclass i₁ - ⟨-, hlt⟩
  refine .get (.mono (orderly_allocate (fun _ => hlt) (Or.inr List.mem_cons_self)) ?_
    fun _ _ _ h => h)
  rintro _ _ - ⟨rfl, rfl⟩
  exact Nat.lt_succ_self _

/-- A class that passes the check is a subclass of `BaseException`. -/
theorem orderly_exceptionClass (cls : ExceptionClass) {value : ObjectId}
    (hvalue : value < i.heap.next) :
    Orderly base system i (exceptionClass cls value) fun c i' =>
      c < i'.heap.next ∧ base ∈ (i'.heap.objects c).mro := by
  refine .bind (orderly_builtin _) ?_
  rintro b i₁ hkept ⟨hb, -⟩
  refine .assume fun h => .get (.ite (fun hmem => .pure ?_) fun _ => .throw nofun)
  obtain rfl : base = b := Option.some.inj (h.baseException.symm.trans hb)
  exact ⟨hvalue.trans_le hkept.next, hmem⟩

theorem orderly_baseOf {host : ExceptionKey → Host (Interpreter types) Err ObjectId}
    {spec : ExceptionSpec types}
    (hhost : ∀ key, Orderly base system i (host key) fun c i' => c < i'.heap.next) :
    Orderly base system i (baseOf host spec) fun c i' => c < i'.heap.next := by
  unfold baseOf
  split
  · exact hhost _
  · split
    · exact .mono (orderly_builtin _) (fun _ _ _ h => h.2) fun _ _ _ h => h
    · exact .throw nofun

theorem realised_setRealised_cases {cache : RealisationCache types} {key key' : ExceptionKey}
    {c x : ObjectId} (h : (cache.setRealisedException key c).realisedException key' = some x) :
    x = c ∨ cache.realisedException key' = some x := by
  by_cases hne : key' = key
  · obtain ⟨e, he, hx⟩ := Option.bind_eq_some_iff.mp h
    change (cache.exceptions.setRealised key c).entry key' = some e at he
    rw [Interned.entry_setRealised, if_pos hne] at he
    obtain ⟨e', -, rfl⟩ := Option.map_eq_some_iff.mp he
    exact Or.inl (Option.some.inj hx).symm
  · rw [RealisationCache.realised_setRealised_of_ne hne] at h
    exact Or.inr h

theorem intact_setRealised {key : ExceptionKey} {c : ObjectId} (h : Intact base system i)
    (hc : c < i.heap.next) :
    Intact base system { i with cache := i.cache.setRealisedException key c } :=
  { h with
    realised := by
      intro key' x hx
      rcases realised_setRealised_cases hx with rfl | hx
      · exact hc
      · exact h.realised key' x hx }

theorem orderly_host (depth : Nat) (key : ExceptionKey) (i : Interpreter types) :
    Orderly base system i (host depth key) fun c i' => c < i'.heap.next := by
  induction depth generalizing key i with
  | zero => exact .stuck
  | succ depth ih =>
    refine .assume fun h => .get ?_
    split
    · next c hc => exact .pure (h.realised key c hc)
    · split
      · refine .bind (orderly_baseOf fun key => ih key i) fun b i₁ _ hb => ?_
        refine .bind (orderly_exceptionClass _ hb) fun b' i₂ _ _ => ?_
        refine .bind (orderly_create _ _ _) fun c i₃ _ hc => ?_
        refine .bind (.modify (R := fun _ i' => c < i'.heap.next)
          (fun h => intact_setRealised h hc) ?_ hc) fun _ _ _ hc => .pure hc
        exact ⟨le_refl _, fun _ _ h => h, fun _ _ _ h => h⟩
      · exact .throw nofun

end Lookup

/-! ## The guest -/

/-- An object that an error would be raised as, or one of its causes. -/
inductive Carries : HostError T → ObjectId → Prop
  | here {e : HostError T} {x : ObjectId} : e.carried = some x → Carries e x
  | cause {e cause : HostError T} {x : ObjectId} :
    e.asRaise.cause = some cause → Carries cause x → Carries e x

/-- The guest exceptions in an error are exceptions. -/
def Sane (base : ObjectId) (e : HostError T) (w : World types Ω) : Prop :=
  ∀ x, Carries e x → Instance w.interpreter x base

theorem Sane.mono {base : ObjectId} {e : HostError T} {w w' : World types Ω} (h : Sane base e w)
    (hkept : Kept w.interpreter w'.interpreter) : Sane base e w' :=
  fun x hx => hkept.instances x base (h x hx)

theorem Sane.cause {base : ObjectId} {e cause : HostError T} {w : World types Ω}
    (h : Sane base e w) (hcause : e.asRaise.cause = some cause) : Sane base cause w :=
  fun x hx => h x (.cause hcause hx)

theorem sane_plain {base : ObjectId} {e : Err} {w : World types Ω}
    (h : Lookup.Proper base e w.interpreter) : Sane base (.plain e : HostError T) w := by
  intro x hx
  cases hx with
  | here hcarried => exact h x hcarried
  | cause hcause _ => cases hcause

/-- What guest code does here leaves the builtins as they are, and objects in their classes. An
error that it ends in carries exceptions. -/
structure Behaves (base system : ObjectId) (w : World types Ω)
    (r : Except (HostError T) α × World types Ω) : Prop where
  intact : Intact base system r.2.interpreter
  kept : Kept w.interpreter r.2.interpreter
  sane : ∀ e, r.1 = .error e → Sane base e r.2

/-- A guest in which `BaseException` and `SystemError` are what they are, and in which calls of
classes return instances of them. A `SystemError` can be constructed. -/
structure Ordinary (M : Backend types Ω T) (base system : ObjectId) : Prop where
  str : ∀ text w, Intact base system w.interpreter →
    Intact base system (M.str text w).2.interpreter ∧
      Kept w.interpreter (M.str text w).2.interpreter
  toGuest : ∀ t w, Intact base system w.interpreter → Behaves base system w (M.toGuest t w)
  qualified : ∀ module qualname w, Intact base system w.interpreter →
    Behaves base system w (M.qualified module qualname w)
  allocated : ∀ module qualname w c, Intact base system w.interpreter →
    (M.qualified module qualname w).1 = .ok c →
      c < (M.qualified module qualname w).2.interpreter.heap.next
  call : ∀ c values w, Intact base system w.interpreter → c < w.interpreter.heap.next →
    Behaves base system w (M.call c values w)
  instances : ∀ c values w x, Intact base system w.interpreter → c < w.interpreter.heap.next →
    (M.call c values w).1 = .ok x → ∀ b ∈ (w.interpreter.heap.objects c).mro,
      Instance (M.call c values w).2.interpreter x b
  setAttr : ∀ x name y w, Intact base system w.interpreter →
    Behaves base system w (M.setAttr x name y w)
  constructs : ∀ w, Intact base system w.interpreter → ∃ x w', M.call system [] w = (.ok x, w')

/-- The discipline of the interpreter, for all that there is. -/
def preservingWorld (types : TypeId → HostException) (Ω : Type) (base system : ObjectId) :
    Discipline (World types Ω) where
  inv w := Intact base system w.interpreter
  future w w' := Kept w.interpreter w'.interpreter
  unwound _ := True
  refl _ := .refl _
  trans h h' := h.trans h'

abbrev Proceeds (base system : ObjectId) (w : World types Ω)
    (m : Host (World types Ω) (HostError T) α) (Q : α → World types Ω → Prop) : Prop :=
  Delivers (preservingWorld types Ω base system) w m Q (Sane base)

section

variable {base system : ObjectId} {M : Backend types Ω T} {site : Site} {w : World types Ω}

theorem proceeds_onInterpreter {m : Host (Interpreter types) Err α}
    {Q : α → Interpreter types → Prop} (h : Lookup.Orderly base system w.interpreter m Q) :
    Proceeds (T := T) base system w (onInterpreter m) fun a w' => Q a w'.interpreter := by
  have hmapped : Delivers (preserving types base system) w.interpreter
      (Host.mapErr HostError.plain m : Host (Interpreter types) (HostError T) α) Q
      fun e i => Sane base e ({ w with interpreter := i } : World types Ω) :=
    .mapErr (h.mono (fun _ _ _ hq => hq) fun e i _ hproper => sane_plain hproper)
  exact hmapped.zoom (fun hw => hw) (fun i hi hkept => ⟨hi, hkept⟩) (fun _ _ hq => hq)
    (fun _ _ he => he) fun _ _ => trivial

theorem proceeds_total {f : World types Ω → Except (HostError T) α × World types Ω}
    {Q : α → World types Ω → Prop}
    (h : Intact base system w.interpreter → Behaves base system w (f w))
    (hQ : Intact base system w.interpreter → ∀ a, (f w).1 = .ok a → Q a (f w).2) :
    Proceeds base system w (Host.total f) Q :=
  .total (fun hw => (h hw).intact) (fun hw => (h hw).kept) hQ fun hw => (h hw).sane

theorem sane_unexpected {message : String} :
    Sane base (.plain (.unexpected message) : HostError T) w := sane_plain nofun

theorem proceeds_value (hM : Ordinary M base system) (v : RaiseValue T) :
    Proceeds base system w (M.value site v) fun _ _ => True := by
  have hstr : ∀ text, Proceeds base system w (M.makeStr text) fun _ _ => True := fun text =>
    ⟨fun hw => ⟨(hM.str text w hw).1, (hM.str text w hw).2, fun _ _ => trivial, nofun⟩,
      fun _ => nofun⟩
  cases v with
  | text text => exact hstr text
  | guest thunk =>
    cases site with
    | runtime => exact .throw sane_unexpected
    | guest =>
      cases thunk with
      | string value => exact hstr value
      | value t => exact proceeds_total (hM.toGuest t w) fun _ _ _ => trivial

/-- A class that is looked up is a subclass of `BaseException`. -/
theorem proceeds_classOf (hM : Ordinary M base system) (depth : Nat) (cls : ExceptionClass) :
    Proceeds base system w (M.classOf site depth cls) fun c w' =>
      c < w'.interpreter.heap.next ∧ base ∈ (w'.interpreter.heap.objects c).mro := by
  refine .bind (Q := fun c w' => c < w'.interpreter.heap.next) ?_ fun c w' _ hc =>
    proceeds_onInterpreter (Lookup.orderly_exceptionClass cls hc)
  cases cls with
  | builtin name =>
    exact .mono (proceeds_onInterpreter (Lookup.orderly_builtin name)) (fun _ _ _ h => h.2)
      fun _ _ _ h => h
  | host module name => exact proceeds_onInterpreter (Lookup.orderly_host depth _ _)
  | typed id name => exact proceeds_onInterpreter (Lookup.orderly_host depth _ _)
  | guest module qualname =>
    cases site with
    | guest =>
      exact proceeds_total (hM.qualified module qualname w) fun hw c hc =>
        hM.allocated module qualname w c hw hc
    | runtime => exact .throw sane_unexpected

/-- What is known of the exception that an attempt has made. -/
def Made (M : Backend types Ω T) (site : Site) (base : ObjectId) (cls : ExceptionClass)
    (w : World types Ω) (x : ObjectId) (w' : World types Ω) : Prop :=
  Instance w'.interpreter x base ∧
    ∃ c w₁, Found M site cls w c w₁ ∧ Instance w'.interpreter x c

theorem Made.mono {cls : ExceptionClass} {x : ObjectId} {w' w'' : World types Ω}
    (h : Made M site base cls w x w') (hkept : Kept w'.interpreter w''.interpreter) :
    Made M site base cls w x w'' := by
  obtain ⟨hx, c, w₁, hfound, hc⟩ := h
  exact ⟨hkept.instances x base hx, c, w₁, hfound, hkept.instances x c hc⟩

theorem proceeds_setAttribute (hM : Ordinary M base system) (x : ObjectId)
    (p : Str × RaiseValue T) :
    Proceeds base system w (M.setAttribute site x p) fun _ _ => True :=
  .bind (proceeds_value hM p.2) fun y w' _ _ =>
    proceeds_total (hM.setAttr x p.1 y w') fun _ _ _ => trivial

/-- A step after which the exception is still what it is. -/
theorem proceeds_made {m : Host (World types Ω) (HostError T) α} {cls : ExceptionClass}
    {x : ObjectId} {w₀ : World types Ω} (hm : Proceeds base system w m fun _ _ => True)
    (h : Made M site base cls w₀ x w) :
    Proceeds base system w m fun _ w' => Made M site base cls w₀ x w' :=
  hm.mono (fun _ _ hkept _ => h.mono hkept) fun _ _ _ h => h

theorem proceeds_assemble (hM : Ordinary M base system) (depth : Nat) (r : Raise T) :
    Proceeds base system w (M.assemble site depth r) (Made M site base r.class w) := by
  refine .bind (Delivers.run (proceeds_classOf hM depth r.class)) ?_
  rintro c w₁ - ⟨⟨hlt, hderived⟩, hfound⟩
  refine .assume fun hw₁ => ?_
  refine .bind (Q := fun _ w₂ => Kept w₁.interpreter w₂.interpreter)
    (.collect (.refl _) fun v w₂ hkept => ?_) fun values w₂ _ hkept => ?_
  · exact (proceeds_value hM v).mono (fun _ _ hkept' _ => hkept.trans hkept') fun _ _ _ h => h
  · have hlt₂ := hlt.trans_le hkept.next
    refine .bind (proceeds_total (Q := Made M site base r.class w)
      (fun hw => hM.call c values w₂ hw hlt₂) fun hw x hx => ?_) fun x w₃ _ hmade => ?_
    · have hall := hM.instances c values w₂ x hw hlt₂ hx
      refine ⟨hall base (hkept.bases c base hlt hderived), c, w₁, ⟨depth, hfound⟩, hall c ?_⟩
      exact hkept.bases c c hlt (hw₁.mem_mro hlt hderived)
    · refine .bind (.forEach hmade fun p w₄ hmade' => ?_) fun _ w₄ _ hmade' => .pure hmade'
      exact proceeds_made (proceeds_setAttribute hM x p) hmade'

theorem proceeds_linkCause (hM : Ordinary M base system) (x y : ObjectId) :
    Proceeds base system w (M.linkCause x y) fun _ _ => True :=
  .bind (Q := fun _ _ => True) (proceeds_total (hM.setAttr x _ y w) fun _ _ _ => trivial)
    fun _ w' _ _ => proceeds_total (hM.setAttr x _ _ w') fun _ _ _ => trivial

/-- An attempt makes an exception of the class that it looks up, unless the error has an object. -/
theorem proceeds_raiseValue (hM : Ordinary M base system)
    {convert : HostError T → Host (World types Ω) (HostError T) ObjectId}
    (hconvert : ∀ cause w, Sane base cause w →
      Proceeds base system w (convert cause) fun y w' => Instance w'.interpreter y base)
    (depth : Nat) {e : HostError T} (he : Sane base e w) :
    Proceeds base system w (M.raiseValue site convert depth e) fun x w' =>
      Instance w'.interpreter x base ∧
        (e.carried = none → Made M site base e.asRaise.class w x w') := by
  cases hcarried : e.carried with
  | some x =>
    unfold Backend.raiseValue
    rw [hcarried]
    exact .pure ⟨he x (.here hcarried), nofun⟩
  | none =>
    rw [raiseValue_of_not_carried hcarried]
    refine .bind (proceeds_assemble hM depth e.asRaise) fun x w₁ hkept hmade => ?_
    cases hcause : e.asRaise.cause with
    | none => exact .pure ⟨hmade.1, fun _ => hmade⟩
    | some cause =>
      refine .bind (hconvert cause w₁ ((he.cause hcause).mono hkept)) fun y w₂ hkept' _ => ?_
      refine .bind (proceeds_made (proceeds_linkCause hM x y) (hmade.mono hkept')) ?_
      exact fun _ w₃ _ hmade' => .pure ⟨hmade'.1, fun _ => hmade'⟩

/-! ## The last resort -/

theorem onInterpreter_eq_ok {m : Host (Interpreter types) Err α} {a : α}
    (h : m w.interpreter = (.ok a, w.interpreter)) :
    onInterpreter (T := T) m w = (.ok a, w) := by
  unfold onInterpreter Host.zoom
  have hmapped : (Host.mapErr HostError.plain m : Host _ (HostError T) α) w.interpreter =
      (.ok a, w.interpreter) := mapErr_eq_ok.mpr h
  rw [hmapped]

theorem builtin_eq_ok {i : Interpreter types} {name : Str} {c : ObjectId}
    (h : i.builtins name = some c) : ExceptionRealiser.builtin name i = (.ok c, i) := by
  unfold ExceptionRealiser.builtin
  rw [get_bind, h]
  rfl

theorem exceptionClass_eq_ok {i : Interpreter types} {cls : ExceptionClass} {b c : ObjectId}
    (hb : i.builtins "BaseException".toList = some b) (hc : b ∈ (i.heap.objects c).mro) :
    ExceptionRealiser.exceptionClass cls c i = (.ok c, i) := by
  unfold ExceptionRealiser.exceptionClass
  rw [bind_of_ok (builtin_eq_ok hb), get_bind, if_pos hc]
  rfl

theorem classOf_builtin_eq_ok {depth : Nat} {name : Str} {b c : ObjectId}
    (hb : w.interpreter.builtins "BaseException".toList = some b)
    (hname : w.interpreter.builtins name = some c) (hc : b ∈ (w.interpreter.heap.objects c).mro) :
    M.classOf site depth (.builtin name) w = (.ok c, w) :=
  (bind_of_ok (onInterpreter_eq_ok (builtin_eq_ok hname))).trans
    (onInterpreter_eq_ok (exceptionClass_eq_ok hb hc))

theorem bareSystemError_eq_ok {x : ObjectId} {w' : World types Ω}
    (hw : Intact base system w.interpreter) (hcall : M.call system [] w = (.ok x, w')) :
    M.bareSystemError site w = (.ok x, w') :=
  (bind_of_ok (classOf_builtin_eq_ok hw.baseException hw.systemError hw.derived)).trans
    (total_eq_ok.mpr hcall)

theorem proceeds_fallback (hM : Ordinary M base system) :
    Proceeds base system w (M.fallback site) fun x w' => Instance w'.interpreter x base := by
  have hbare : Proceeds base system w (M.bareSystemError site) fun x w' =>
      Instance w'.interpreter x base := by
    refine .bind (proceeds_classOf hM 0 _) fun c w₁ _ hc => ?_
    exact proceeds_total (fun hw => hM.call c [] w₁ hw hc.1) fun hw x hx =>
      hM.instances c [] w₁ x hw hc.1 hx base hc.2
  have hreturns : Intact base system w.interpreter →
      ∃ x w', M.bareSystemError site w = (.ok x, w') := by
    intro hw
    obtain ⟨x, w', hcall⟩ := hM.constructs w hw
    exact ⟨x, w', bareSystemError_eq_ok hw hcall⟩
  have hsure : Delivers (preservingWorld types Ω base system) w (M.bareSystemError site)
      (fun x w' => Instance w'.interpreter x base) fun _ _ => False := hbare.of_returns hreturns
  refine .bind (Q := fun r w' => ∃ x, r = .ok x ∧ Instance w'.interpreter x base)
    (.attempt (hsure.mono (fun x _ _ hx => ⟨x, rfl, hx⟩) fun _ _ _ hfalse => hfalse.elim)) ?_
  rintro _ w' - ⟨x, rfl, hx⟩
  exact .pure hx

/-- The conversion yields an exception. -/
theorem proceeds_convert (hM : Ordinary M base system) (fuel : Nat) {e : HostError T}
    {w : World types Ω} (he : Sane base e w) :
    Proceeds base system w (M.convert site fuel e) fun x w' =>
      Instance w'.interpreter x base := by
  induction fuel generalizing e w with
  | zero => exact .stuck
  | succ fuel ih =>
    have hattempt : ∀ {e : HostError T} {w : World types Ω}, Sane base e w →
        Proceeds base system w (Host.attempt (M.raiseValue site (M.convert site fuel) fuel e))
          fun r w' => (∃ x, r = .ok x ∧ Instance w'.interpreter x base) ∨
            ∃ e₁, r = .error e₁ ∧ Sane base e₁ w' := fun he =>
      .attempt ((proceeds_raiseValue hM (fun _ _ h => ih h) fuel he).mono
        (fun x _ _ hx => Or.inl ⟨x, rfl, hx.1⟩) fun e₁ _ _ he₁ => Or.inr ⟨e₁, rfl, he₁⟩)
    refine .bind (hattempt he) ?_
    rintro _ w₁ - (⟨x, rfl, hx⟩ | ⟨e₁, rfl, he₁⟩)
    · exact .pure hx
    · refine .bind (hattempt he₁) ?_
      rintro _ w₂ - (⟨x, rfl, hx⟩ | ⟨e₂, rfl, -⟩)
      · exact .pure hx
      · exact proceeds_fallback hM

end

end GuestPy.Raising
