import GuestPy.Marshal.Args

/-!
# Binding arguments as Python does

`pythonBind` binds the arguments of a call in the three passes of Python: the positional ones
in order, then the keywords into places that are still open, and then every required parameter
must be bound. The accesses that the macro generates go through the parameters once, and know
what is left only by marks.

* `Marks` relates the marks to what the accesses so far take, and `expressions_eq` says what the
  accesses give and mark.
* `pythonBind_iff` says what the three passes give in the same terms.
-/

namespace GuestPy.Marshal

open Results

variable {V D W : Type}

/-! ## Python's binding -/

inductive Binding (V : Type) where
  | absent
  | argument (value : V)
  | surplus (values : List V)

abbrev Slot (V D : Type) := Parameter D × Binding V

def Binding.isAbsent : Binding V → Bool
  | .absent => true
  | _ => false

def Binding.ofOption : Option V → Binding V
  | some value => .argument value
  | none => .absent

namespace Parameter

def byKeyword (p : Parameter D) : Bool :=
  match p.role with
  | .value _ _ => true
  | .keyword _ _ => true
  | _ => false

def isRequired (p : Parameter D) : Bool :=
  match p.role with
  | .value _ «optional» => !«optional»
  | .positional _ «optional» => !«optional»
  | .keyword _ «optional» => !«optional»
  | .borrow _ _ => true
  | _ => false

end Parameter

/-- The positional arguments in the order of the parameters, and what is left over. -/
def fillPositional : List (Parameter D) → List V → List (Slot V D) × List V
  | [], values => ([], values)
  | p :: ps, values =>
    if p.isRest then
      let (slots, left) := fillPositional ps []
      ((p, .surplus values) :: slots, left)
    else if p.consumesPositional then
      let (slots, left) := fillPositional ps values.tail
      ((p, .ofOption values.head?) :: slots, left)
    else
      let (slots, left) := fillPositional ps values
      ((p, .absent) :: slots, left)

/-- May the keyword fill the place? -/
def isOpen (name : Str) (slot : Slot V D) : Bool :=
  slot.1.name == name && slot.1.byKeyword && slot.2.isAbsent

def fillKeyword (name : Str) (value : V) : List (Slot V D) → Option (List (Slot V D))
  | [] => none
  | slot :: slots =>
    if isOpen name slot then some ((slot.1, .argument value) :: slots)
    else (fillKeyword name value slots).map (slot :: ·)

def fillKeywords : List (Str × V) → List (Slot V D) → Option (List (Slot V D))
  | [], slots => some slots
  | (name, value) :: keyword, slots =>
    match fillKeyword name value slots with
    | some slots => fillKeywords keyword slots
    | none => none

def isSatisfied (slot : Slot V D) : Bool := !slot.1.isRequired || !slot.2.isAbsent

def pythonBind (ps : List (Parameter D)) (positional : List V) (keyword : List (Str × V)) :
    Option (List (Slot V D)) :=
  match fillPositional ps positional with
  | (slots, []) =>
    match fillKeywords keyword slots with
    | some slots => if slots.all isSatisfied then some slots else none
    | none => none
  | (_, _ :: _) => none

/-- What a parameter receives for what is bound to it. -/
def Conversions.receive (c : Conversions V D W) (slot : Slot V D) : Except Err (Received W) :=
  let name := String.ofList slot.1.name
  match slot.1.role, slot.2 with
  | .value descriptor false, .argument value => do
    return .value (← c.fromGuest descriptor value)
  | .value _ false, _ => .error (.conversion s!"missing required argument '{name}'")
  | .positional descriptor false, .argument value => do
    return .value (← c.fromGuest descriptor value)
  | .positional _ false, _ =>
    .error (.conversion s!"missing required positional argument '{name}'")
  | .keyword descriptor false, .argument value => do
    return .value (← c.fromGuest descriptor value)
  | .keyword _ false, _ => .error (.conversion s!"missing required keyword argument '{name}'")
  | .value descriptor true, .argument value => do
    return .optional (← c.fromOption descriptor value)
  | .positional descriptor true, .argument value => do
    return .optional (← c.fromOption descriptor value)
  | .keyword descriptor true, .argument value => do
    return .optional (← c.fromOption descriptor value)
  | .value _ true, _ => .ok (.optional none)
  | .positional _ true, _ => .ok (.optional none)
  | .keyword _ true, _ => .ok (.optional none)
  | .rest descriptor, .surplus values => do
    return .rest (← c.collectRest descriptor values)
  | .rest _, _ => .ok (.rest [])
  | .borrow valueType false, .argument value => do
    return .value (← c.fromGuestRef valueType value)
  | .borrow valueType true, .argument value => do
    return .value (← c.fromGuestMut valueType value)
  | .borrow _ _, _ => .error (.conversion s!"missing required positional argument '{name}'")
  | .enter, _ => .ok (.value c.enter)
  | .this valueType _, _ => do return .value (← c.receiver valueType)
  | .context valueType, _ => do return .value (← c.context valueType)

/-! ## What a parameter takes -/

section Takes

def lookup (keyword : List (Str × V)) (name : Str) : Option V :=
  (keyword.find? fun entry => entry.1 == name).map Prod.snd

/-- What is bound to a parameter, from the call alone. -/
def direct (positional : List V) (keyword : List (Str × V)) (p : Parameter D) : Binding V :=
  match p.role with
  | .value _ _ => .ofOption ((positional[p.guestIndex]?).or (lookup keyword p.name))
  | .positional _ _ => .ofOption positional[p.guestIndex]?
  | .borrow _ _ => .ofOption positional[p.guestIndex]?
  | .keyword _ _ => .ofOption (lookup keyword p.name)
  | .rest _ => .surplus (positional.drop p.guestIndex)
  | _ => .absent

/-- Does the access of the parameter take the positional argument? -/
def takesPositional (j : Nat) (p : Parameter D) : Bool :=
  match p.role with
  | .value _ _ => j == p.guestIndex
  | .positional _ _ => j == p.guestIndex
  | .borrow _ _ => j == p.guestIndex
  | .rest _ => decide (p.guestIndex ≤ j)
  | _ => false

/-- Does the access of the parameter take the keyword? -/
def takesKeyword (positional : List V) (name : Str) (p : Parameter D) : Bool :=
  match p.role with
  | .value _ _ => p.name == name && positional[p.guestIndex]?.isNone
  | .keyword _ _ => p.name == name
  | _ => false

/-- Marked are exactly the positional arguments in `P` and the keywords in `K`. -/
structure Marks (args : Args V) (P : Nat → Bool) (K : Str → Bool) : Prop where
  positional : ∀ j : Nat, args.consumedPositional[j]? = (args.positional[j]?).map fun _ => P j
  keyword : ∀ j : Nat, args.consumedKeyword[j]? = (args.keyword[j]?).map fun entry : Str × V => K entry.1

/-- The same call, with other marks. -/
def SameCall (args args' : Args V) : Prop :=
  args'.positional = args.positional ∧ args'.keyword = args.keyword

theorem marks_new (positional : List V) (keyword : List (Str × V)) :
    Marks (Args.new positional keyword) (fun _ => false) fun _ => false where
  positional j := by
    simp only [Args.new, List.getElem?_replicate]
    split
    · rename_i h
      simp [List.getElem?_eq_getElem h]
    · rename_i h
      simp [List.getElem?_eq_none (Nat.le_of_not_gt h)]
  keyword j := by
    simp only [Args.new, List.getElem?_replicate]
    split
    · rename_i h
      simp [List.getElem?_eq_getElem h]
    · rename_i h
      simp [List.getElem?_eq_none (Nat.le_of_not_gt h)]

theorem takePositional_eq {args : Args V} {P : Nat → Bool} {K : Str → Bool}
    (hm : Marks args P K) (index : Nat) :
    ∃ args', SameCall args args' ∧ Marks args' (fun j => P j || j == index) K ∧
      args.takePositional index = (args.positional[index]?, args') := by
  unfold Args.takePositional
  cases h : args.positional[index]? with
  | none =>
    refine ⟨args, ⟨rfl, rfl⟩, ⟨fun j => ?_, hm.keyword⟩, rfl⟩
    rw [hm.positional j]
    by_cases hj : j = index
    · subst hj
      simp [h]
    · have hne : (j == index) = false := by simpa using hj
      simp [hne]
  | some v =>
    refine ⟨{ args with consumedPositional := args.consumedPositional.set index true },
      ⟨rfl, rfl⟩, ⟨fun j => ?_, hm.keyword⟩, rfl⟩
    simp only [List.getElem?_set, hm.positional j]
    by_cases hj : j = index
    · subst hj
      have hlt : j < args.consumedPositional.length := by
        by_contra hge
        have := hm.positional j
        rw [List.getElem?_eq_none (Nat.le_of_not_gt hge), h] at this
        cases this
      simp [h, hlt]
    · have hne : (j == index) = false := by simpa using hj
      simp [hne, Ne.symm hj]

theorem takeKeyword_eq {args : Args V} {P : Nat → Bool} {K : Str → Bool}
    (hk : (args.keyword.map Prod.fst).Nodup) (hm : Marks args P K) (name : Str) :
    ∃ args', SameCall args args' ∧ Marks args' P (fun k => K k || name == k) ∧
      args.takeKeyword name = (lookup args.keyword name, args') := by
  unfold Args.takeKeyword
  cases h : args.keyword.findIdx? fun entry => entry.1 == name with
  | none =>
    have hnone : ∀ entry ∈ args.keyword, (entry.1 == name) = false := by
      simpa [List.findIdx?_eq_none_iff] using h
    refine ⟨args, ⟨rfl, rfl⟩, ⟨hm.positional, fun j => ?_⟩, ?_⟩
    · rw [hm.keyword j]
      cases hj : args.keyword[j]? with
      | none => rfl
      | some entry =>
        have hne := hnone entry (List.mem_of_getElem? hj)
        rw [beq_eq_false_iff_ne] at hne
        simp [Ne.symm hne]
    · have hfind : (args.keyword.find? fun entry => entry.1 == name) = none := by
        simpa [List.find?_eq_none] using hnone
      simp [lookup, hfind]
  | some index =>
    obtain ⟨hlt, hname, hfirst⟩ := List.findIdx?_eq_some_iff_getElem.mp h
    refine ⟨{ args with consumedKeyword := args.consumedKeyword.set index true },
      ⟨rfl, rfl⟩, ⟨hm.positional, fun j => ?_⟩, ?_⟩
    · simp only [List.getElem?_set, hm.keyword j]
      by_cases hj : j = index
      · subst hj
        have hlength : j < args.consumedKeyword.length := by
          by_contra hge
          have := hm.keyword j
          rw [List.getElem?_eq_none (Nat.le_of_not_gt hge), List.getElem?_eq_getElem hlt] at this
          cases this
        have hname' : name = args.keyword[j].1 := (beq_iff_eq.mp hname).symm
        simp [hlength, List.getElem?_eq_getElem hlt, hname']
      · simp only [Ne.symm hj, if_false]
        cases hentry : args.keyword[j]? with
        | none => rfl
        | some entry =>
          have hne : name ≠ entry.1 := by
            rintro rfl
            obtain ⟨hjlt, hje⟩ := List.getElem?_eq_some_iff.mp hentry
            have hj' : j < (args.keyword.map Prod.fst).length := by simpa using hjlt
            have hindex : index < (args.keyword.map Prod.fst).length := by simpa using hlt
            have hsame : (args.keyword.map Prod.fst)[j] = (args.keyword.map Prod.fst)[index] := by
              simp only [List.getElem_map, hje]
              exact (beq_iff_eq.mp hname).symm
            exact hj (hk.getElem_inj_iff.mp hsame)
          simp [hne]
    · have hfind : (args.keyword.find? fun entry => entry.1 == name) = some args.keyword[index] := by
        rw [List.find?_eq_some_iff_getElem]
        exact ⟨hname, index, hlt, rfl, fun j hj => by simpa using hfirst j hj⟩
      simp [lookup, hfind, List.getElem?_eq_getElem hlt]

theorem restValues_eq {args : Args V} {P : Nat → Bool} {K : Str → Bool}
    (hm : Marks args P K) (index : Nat) :
    ∃ args', SameCall args args' ∧ Marks args' (fun j => P j || decide (index ≤ j)) K ∧
      args.restValues index = (args.positional.drop index, args') := by
  unfold Args.restValues
  split
  · refine ⟨{ args with
      consumedPositional := args.consumedPositional.take index ++
        (args.consumedPositional.drop index).map fun _ => true },
      ⟨rfl, rfl⟩, ⟨fun j => ?_, hm.keyword⟩, rfl⟩
    by_cases hj : j < index
    · have hne : decide (index ≤ j) = false := by simpa using hj
      by_cases hlt : j < args.consumedPositional.length
      · have hfirst : j < (args.consumedPositional.take index).length := by simp; omega
        rw [List.getElem?_append_left hfirst, List.getElem?_take_of_lt hj, hm.positional j]
        simp [hne]
      · have hnone : args.positional[j]? = none := by
          have := hm.positional j
          rw [List.getElem?_eq_none (Nat.le_of_not_gt hlt)] at this
          simpa using this.symm
        rw [hnone, List.getElem?_eq_none]
        · rfl
        · simp
          omega
    · have hle : decide (index ≤ j) = true := by simpa using hj
      have hsame := hm.positional j
      cases hv : args.positional[j]? with
      | none =>
        rw [hv, Option.map_none, List.getElem?_eq_none_iff] at hsame
        rw [List.getElem?_eq_none]
        · rfl
        · simp
          omega
      | some v =>
        rw [hv, Option.map_some] at hsame
        obtain ⟨hlt, -⟩ := List.getElem?_eq_some_iff.mp hsame
        rw [List.getElem?_append_right (by simp; omega)]
        have hmin : min index args.consumedPositional.length = index := by omega
        simp only [List.length_take, hmin, List.getElem?_map, List.getElem?_drop]
        rw [Nat.add_sub_cancel' (by omega), hsame]
        simp [hle]
  · rename_i hlength
    refine ⟨args, ⟨rfl, rfl⟩, ⟨fun j => ?_, hm.keyword⟩, ?_⟩
    · rw [hm.positional j]
      by_cases hj : j < args.positional.length
      · have hne : decide (index ≤ j) = false := by
          simp only [decide_eq_false_iff_not]
          omega
        simp [hne]
      · simp [List.getElem?_eq_none (Nat.le_of_not_gt hj)]
    · rw [List.drop_eq_nil_of_le (by omega)]

theorem value_named_eq {args : Args V} {P : Nat → Bool} {K : Str → Bool}
    (hk : (args.keyword.map Prod.fst).Nodup) (hm : Marks args P K) (index : Nat) (name : Str) :
    ∃ args', SameCall args args' ∧
      Marks args' (fun j => P j || j == index)
        (fun k => K k || (name == k && args.positional[index]?.isNone)) ∧
      args.value (.named index name) =
        ((args.positional[index]?).or (lookup args.keyword name), args') := by
  obtain ⟨args₁, hsame, hmarks, htake⟩ := takePositional_eq hm index
  unfold Args.value
  cases h : args.positional[index]? with
  | some v =>
    rw [h] at htake
    exact ⟨args₁, hsame, by simpa using hmarks, by simp [htake]⟩
  | none =>
    rw [h] at htake
    obtain ⟨args₂, hsame₂, hmarks₂, htake₂⟩ := takeKeyword_eq (hsame.2 ▸ hk) hmarks name
    refine ⟨args₂, ⟨hsame₂.1.trans hsame.1, hsame₂.2.trans hsame.2⟩, by simpa using hmarks₂, ?_⟩
    simp [htake, htake₂, hsame.2]

variable (c : Conversions V D W)

/-- An access gives what its parameter receives, and marks what the parameter takes. -/
theorem expression_eq {args : Args V} {P : Nat → Bool} {K : Str → Bool}
    (hk : (args.keyword.map Prod.fst).Nodup) (hm : Marks args P K) (p : Parameter D) :
    ∃ args', SameCall args args' ∧
      Marks args' (fun j => P j || takesPositional j p)
        (fun k => K k || takesKeyword args.positional k p) ∧
      c.expression p args = do
        return (← c.receive (p, direct args.positional args.keyword p), args') := by
  obtain ⟨name, index, role⟩ := p
  cases role with
  | value descriptor o =>
    obtain ⟨args', hsame, hmarks, hvalue⟩ := value_named_eq hk hm index name
    refine ⟨args', hsame, hmarks, ?_⟩
    cases o <;> cases h : (args.positional[index]?).or (lookup args.keyword name) <;>
      simp [Conversions.expression, Conversions.required, Conversions.optional, hvalue, h,
        Conversions.receive, direct, Binding.ofOption, pure_eq_ok]
  | positional descriptor o =>
    obtain ⟨args', hsame, hmarks, hvalue⟩ := takePositional_eq hm index
    refine ⟨args', hsame, by simpa [takesPositional, takesKeyword] using hmarks, ?_⟩
    cases o <;> cases h : args.positional[index]? <;>
      simp [Conversions.expression, Conversions.required, Conversions.optional, Args.value, hvalue,
        h, Conversions.receive, direct, Binding.ofOption, pure_eq_ok]
  | keyword descriptor o =>
    obtain ⟨args', hsame, hmarks, hvalue⟩ := takeKeyword_eq hk hm name
    refine ⟨args', hsame, by simpa [takesPositional, takesKeyword] using hmarks, ?_⟩
    cases o <;> cases h : lookup args.keyword name <;>
      simp [Conversions.expression, Conversions.required, Conversions.optional, Args.value, hvalue,
        h, Conversions.receive, direct, Binding.ofOption, pure_eq_ok]
  | rest descriptor =>
    obtain ⟨args', hsame, hmarks, hvalue⟩ := restValues_eq hm index
    refine ⟨args', hsame, by simpa [takesPositional, takesKeyword] using hmarks, ?_⟩
    simp [Conversions.expression, Conversions.rest, hvalue, Conversions.receive, direct]
  | borrow valueType m =>
    obtain ⟨args', hsame, hmarks, hvalue⟩ := takePositional_eq hm index
    refine ⟨args', hsame, by simpa [takesPositional, takesKeyword] using hmarks, ?_⟩
    cases m <;> cases h : args.positional[index]? <;>
      simp [Conversions.expression, Conversions.required, Args.value, hvalue, h,
        Conversions.receive, direct, Binding.ofOption]
  | enter => exact ⟨args, ⟨rfl, rfl⟩, by simpa [takesPositional, takesKeyword] using hm, rfl⟩
  | this valueType borrowed =>
    refine ⟨args, ⟨rfl, rfl⟩, by simpa [takesPositional, takesKeyword] using hm, ?_⟩
    simp [Conversions.expression, Conversions.receive]
  | context valueType =>
    refine ⟨args, ⟨rfl, rfl⟩, by simpa [takesPositional, takesKeyword] using hm, ?_⟩
    simp [Conversions.expression, Conversions.receive]

/-! ### All accesses -/

def receiveAll : List (Slot V D) → Except Err (List (Received W))
  | [] => .ok []
  | slot :: slots => do
    let received ← c.receive slot
    let receiveds ← receiveAll slots
    return received :: receiveds

theorem receiveAll_ok {slots : List (Slot V D)} {ws : List (Received W)} :
    receiveAll c slots = .ok ws ↔ List.Forall₂ (fun slot w => c.receive slot = .ok w) slots ws := by
  induction slots generalizing ws with
  | nil =>
    constructor
    · intro h
      cases h
      exact .nil
    · intro h
      cases h
      rfl
  | cons slot slots ih =>
    constructor
    · intro h
      obtain ⟨w, hw, h⟩ := bind_eq_ok.mp h
      obtain ⟨ws', hws', h⟩ := bind_eq_ok.mp h
      cases h
      exact .cons hw (ih.mp hws')
    · intro h
      cases h with
      | cons hw hws => simp [receiveAll, hw, ih.mpr hws, pure_eq_ok]

theorem expressions_eq {ps : List (Parameter D)} {args : Args V} {P : Nat → Bool} {K : Str → Bool}
    (hk : (args.keyword.map Prod.fst).Nodup) (hm : Marks args P K) :
    ∃ args', SameCall args args' ∧
      Marks args' (fun j => P j || ps.any (takesPositional j))
        (fun k => K k || ps.any (takesKeyword args.positional k)) ∧
      c.expressions ps args = do
        return (← receiveAll c
          (ps.map fun p => (p, direct args.positional args.keyword p)), args') := by
  induction ps generalizing args P K with
  | nil => exact ⟨args, ⟨rfl, rfl⟩, by simpa using hm, rfl⟩
  | cons p ps ih =>
    obtain ⟨args₁, hsame₁, hmarks₁, hfirst⟩ := expression_eq c hk hm p
    obtain ⟨args₂, hsame₂, hmarks₂, hrest⟩ := ih (hsame₁.2 ▸ hk) hmarks₁
    refine ⟨args₂, ⟨hsame₂.1.trans hsame₁.1, hsame₂.2.trans hsame₁.2⟩, ?_, ?_⟩
    · simpa [Bool.or_assoc, hsame₁.1] using hmarks₂
    · rw [hsame₁.1, hsame₁.2] at hrest
      simp only [Conversions.expressions, hfirst, List.map_cons, receiveAll]
      cases c.receive (p, direct args.positional args.keyword p) with
      | error e => rfl
      | ok w =>
        simp only [ok_bind, pure_eq_ok, hrest]
        cases receiveAll c (ps.map fun p => (p, direct args.positional args.keyword p)) with
        | error e => rfl
        | ok ws => rfl

theorem finish_ok {args : Args V} {P : Nat → Bool} {K : Str → Bool} (hm : Marks args P K) :
    args.finish = .ok () ↔
      (∀ j < args.positional.length, P j = true) ∧
        ∀ entry ∈ args.keyword, K entry.1 = true := by
  have hpositional : args.consumedPositional.any (!·) = false ↔
      ∀ j < args.positional.length, P j = true := by
    rw [List.any_eq_false]
    constructor
    · intro h j hj
      have hmark := hm.positional j
      rw [List.getElem?_eq_getElem hj, Option.map_some] at hmark
      simpa using h _ (List.mem_of_getElem? hmark)
    · intro h b hb
      obtain ⟨j, hj⟩ := List.mem_iff_getElem?.mp hb
      rw [hm.positional j] at hj
      obtain ⟨v, hv, rfl⟩ := Option.map_eq_some_iff.mp hj
      obtain ⟨hlt, -⟩ := List.getElem?_eq_some_iff.mp hv
      simp [h j hlt]
  have hzip : ∀ entry b, (entry, b) ∈ args.keyword.zip args.consumedKeyword ↔
      entry ∈ args.keyword ∧ b = K entry.1 := by
    intro entry b
    rw [List.mem_iff_getElem?]
    constructor
    · rintro ⟨j, hj⟩
      obtain ⟨hentry, hb⟩ := List.getElem?_zip_eq_some.mp hj
      rw [hm.keyword j, hentry, Option.map_some] at hb
      exact ⟨List.mem_of_getElem? hentry, (Option.some.inj hb).symm⟩
    · rintro ⟨hentry, rfl⟩
      obtain ⟨j, hj⟩ := List.mem_iff_getElem?.mp hentry
      exact ⟨j, List.getElem?_zip_eq_some.mpr ⟨hj, by rw [hm.keyword j, hj, Option.map_some]⟩⟩
  have hkeyword : ((args.keyword.zip args.consumedKeyword).find? fun entry => !entry.2) = none ↔
      ∀ entry ∈ args.keyword, K entry.1 = true := by
    rw [List.find?_eq_none]
    constructor
    · intro h entry hentry
      simpa using h (entry, K entry.1) ((hzip _ _).mpr ⟨hentry, rfl⟩)
    · rintro h ⟨entry, b⟩ hmem
      obtain ⟨hentry, rfl⟩ := (hzip _ _).mp hmem
      simp [h entry hentry]
  rw [← hpositional, ← hkeyword]
  unfold Args.finish
  split
  · rename_i h
    simp [h]
  · rename_i h
    split
    · rename_i hfind
      simp [hfind]
    · rename_i hfind
      simpa [hfind] using h

/-- The accesses succeed if each parameter receives something and nothing is left over. -/
theorem argumentSetup_ok {ps : List (Parameter D)} {positional : List V}
    {keyword : List (Str × V)} (hk : (keyword.map Prod.fst).Nodup) {ws : List (Received W)} :
    c.argumentSetup ps (Args.new positional keyword) = .ok ws ↔
      List.Forall₂ (fun slot w => c.receive slot = .ok w)
          (ps.map fun p => (p, direct positional keyword p)) ws ∧
        (∀ j < positional.length, ps.any (takesPositional j) = true) ∧
          ∀ entry ∈ keyword, ps.any (takesKeyword positional entry.1) = true := by
  obtain ⟨args', hsame, hmarks, hrun⟩ :=
    expressions_eq c hk (marks_new positional keyword)
  have hfinish := finish_ok hmarks
  simp only [hsame.1, hsame.2, Args.new, Bool.false_or] at hfinish
  rw [← hfinish, ← receiveAll_ok, Conversions.argumentSetup, hrun]
  simp only [Args.new]
  cases receiveAll c (ps.map fun p => (p, direct positional keyword p)) with
  | error e => simp
  | ok ws' =>
    simp only [ok_bind, pure_eq_ok]
    cases args'.finish with
    | error e => simp
    | ok u => simp

end Takes

/-! ## The passes of Python -/

section Passes

/-- Each parameter knows how many before it take a positional argument, and the rest parameter
is the last one. -/
def Placed : Nat → List (Parameter D) → Prop
  | _, [] => True
  | n, p :: ps =>
    p.guestIndex = n ∧ (p.isRest = true → ps = []) ∧
      Placed (if p.consumesPositional then n + 1 else n) ps

/-- What the first pass binds to a parameter. -/
def placed (positional : List V) (p : Parameter D) : Binding V :=
  match p.role with
  | .value _ _ => .ofOption positional[p.guestIndex]?
  | .positional _ _ => .ofOption positional[p.guestIndex]?
  | .borrow _ _ => .ofOption positional[p.guestIndex]?
  | .rest _ => .surplus (positional.drop p.guestIndex)
  | _ => .absent

theorem fillPositional_eq {ps : List (Parameter D)} {n : Nat} (hp : Placed n ps)
    (positional : List V) :
    ∃ left, fillPositional ps (positional.drop n) =
        (ps.map fun p => (p, placed positional p), left) ∧
      (left = [] ↔ ∀ j, n ≤ j → j < positional.length → ps.any (takesPositional j) = true) := by
  induction ps generalizing n with
  | nil =>
    refine ⟨positional.drop n, rfl, ?_⟩
    rw [List.drop_eq_nil_iff]
    constructor
    · intro h j hj hlt
      omega
    · intro h
      by_contra hlt
      simpa using h n le_rfl (by omega)
  | cons p ps ih =>
    obtain ⟨name, index, role⟩ := p
    obtain ⟨hindex, hrest, hps⟩ := hp
    dsimp only at hindex
    subst hindex
    have hhead : (positional.drop index).head? = positional[index]? := by
      rw [List.head?_drop]
    have htail : (positional.drop index).tail = positional.drop (index + 1) := by
      rw [List.tail_drop]
    -- A parameter that takes its own place leaves the later ones to the others.
    have hnext : ∀ left : List V,
        (left = [] ↔ ∀ j, index + 1 ≤ j → j < positional.length →
          ps.any (takesPositional j) = true) →
        (left = [] ↔ ∀ j, index ≤ j → j < positional.length →
          (j == index || ps.any (takesPositional j)) = true) := by
      intro left hleft
      rw [hleft]
      constructor
      · intro h j hj hlt
        by_cases he : j = index
        · simp [he]
        · simp [h j (by omega) hlt]
      · intro h j hj hlt
        have hne : (j == index) = false := by
          simp only [beq_eq_false_iff_ne]
          omega
        simpa [hne] using h j (by omega) hlt
    cases role with
    | value | positional | borrow =>
      obtain ⟨left, hfill, hleft⟩ := ih hps
      refine ⟨left, ?_, by simpa [takesPositional] using hnext left hleft⟩
      simp only [Parameter.consumesPositional, if_true] at hfill
      simp [fillPositional, Parameter.isRest, Parameter.consumesPositional, placed, hhead, htail,
        hfill]
    | rest descriptor =>
      have hnil := hrest rfl
      subst hnil
      refine ⟨[], rfl, ?_⟩
      simp only [List.any_cons, List.any_nil, Bool.or_false, takesPositional, decide_eq_true_eq,
        true_iff]
      exact fun j hj _ => hj
    | keyword | enter | this | context =>
      obtain ⟨left, hfill, hleft⟩ := ih hps
      refine ⟨left, ?_, by simpa [takesPositional, Parameter.consumesPositional] using hleft⟩
      simp only [Parameter.consumesPositional, Bool.false_eq_true, if_false] at hfill
      simp [fillPositional, Parameter.isRest, Parameter.consumesPositional, placed, hfill]

/-- What a keyword makes of a place. -/
def fill (name : Str) (value : V) (slot : Slot V D) : Slot V D :=
  if isOpen name slot then (slot.1, .argument value) else slot

theorem fill_open {name : Str} {slot : Slot V D} (h : isOpen name slot = true) (value : V) :
    fill name value slot = (slot.1, .argument value) := if_pos h

theorem fill_closed {name : Str} {slot : Slot V D} (h : isOpen name slot = false) (value : V) :
    fill name value slot = slot := by
  simp [fill, h]

theorem fill_name (name : Str) (value : V) (slot : Slot V D) :
    (fill name value slot).1 = slot.1 := by
  unfold fill
  split <;> rfl

theorem fillKeyword_iff {name : Str} {value : V} {slots slots' : List (Slot V D)}
    (hn : (slots.map fun slot => slot.1.name).Nodup) :
    fillKeyword name value slots = some slots' ↔
      (∃ slot ∈ slots, isOpen name slot = true) ∧ slots' = slots.map (fill name value) := by
  induction slots generalizing slots' with
  | nil => simp [fillKeyword]
  | cons slot slots ih =>
    rw [List.map_cons, List.nodup_cons] at hn
    by_cases hopen : isOpen name slot = true
    · have hname : slot.1.name = name := by
        simp only [isOpen, Bool.and_eq_true, beq_iff_eq] at hopen
        exact hopen.1.1
      -- No other parameter has the name.
      have hothers : slots.map (fill name value) = slots := by
        rw [List.map_congr_left, List.map_id]
        intro other hother
        have hne : other.1.name ≠ name := by
          rintro rfl
          exact hn.1 (hname ▸ List.mem_map_of_mem hother)
        simp [fill, isOpen, hne]
      simp only [fillKeyword, hopen, if_true, List.map_cons, hothers, fill_open hopen,
        List.mem_cons, exists_eq_or_imp, true_or, true_and, Option.some.injEq]
      exact eq_comm
    · simp only [Bool.not_eq_true] at hopen
      simp only [fillKeyword, hopen, Bool.false_eq_true, if_false, Option.map_eq_some_iff,
        ih hn.2, List.mem_cons, exists_eq_or_imp, false_or, List.map_cons]
      constructor
      · rintro ⟨slots₁, ⟨hex, rfl⟩, rfl⟩
        exact ⟨hex, by rw [fill_closed hopen]⟩
      · rintro ⟨hex, rfl⟩
        exact ⟨_, ⟨hex, rfl⟩, by rw [fill_closed hopen]⟩

/-- What all keywords make of a place. -/
def settleSlot (keyword : List (Str × V)) (slot : Slot V D) : Slot V D :=
  if slot.1.byKeyword && slot.2.isAbsent then (slot.1, .ofOption (lookup keyword slot.1.name))
  else slot

theorem settleSlot_fill {name : Str} {value : V} {keyword : List (Str × V)}
    (slot : Slot V D) :
    settleSlot keyword (fill name value slot) = settleSlot ((name, value) :: keyword) slot := by
  by_cases hopen : isOpen name slot = true
  · have hparts := hopen
    simp only [isOpen, Bool.and_eq_true, beq_iff_eq] at hparts
    obtain ⟨⟨hname, hby⟩, habsent⟩ := hparts
    have hlookup : lookup ((name, value) :: keyword) slot.1.name = some value := by
      simp [lookup, hname]
    rw [fill_open hopen, settleSlot, settleSlot, if_neg (by simp [Binding.isAbsent]),
      if_pos (by simp [hby, habsent]), hlookup]
    rfl
  · simp only [Bool.not_eq_true] at hopen
    by_cases hplace : (slot.1.byKeyword && slot.2.isAbsent) = true
    · have hne : (name == slot.1.name) = false := by
        by_contra h
        simp only [Bool.not_eq_false, beq_iff_eq] at h
        simp only [Bool.and_eq_true] at hplace
        simp [isOpen, h, hplace.1, hplace.2] at hopen
      simp [fill_closed hopen, settleSlot, hplace, lookup, hne]
    · simp [fill_closed hopen, settleSlot, hplace]

theorem isOpen_fill {name other : Str} {value : V} (h : other ≠ name) (slot : Slot V D) :
    isOpen other (fill name value slot) = isOpen other slot := by
  by_cases hopen : isOpen name slot = true
  · have hname : slot.1.name = name := by
      simp only [isOpen, Bool.and_eq_true, beq_iff_eq] at hopen
      exact hopen.1.1
    have hne : (slot.1.name == other) = false := by
      simp only [beq_eq_false_iff_ne, hname]
      exact h.symm
    rw [fill_open hopen]
    simp [isOpen, hne]
  · rw [fill_closed (by simpa using hopen)]

theorem fillKeywords_iff {keyword : List (Str × V)} {slots slots' : List (Slot V D)}
    (hn : (slots.map fun slot => slot.1.name).Nodup) (hk : (keyword.map Prod.fst).Nodup) :
    fillKeywords keyword slots = some slots' ↔
      (∀ entry ∈ keyword, ∃ slot ∈ slots, isOpen entry.1 slot = true) ∧
        slots' = slots.map (settleSlot keyword) := by
  induction keyword generalizing slots with
  | nil =>
    have hnone : slots.map (settleSlot ([] : List (Str × V))) = slots := by
      rw [List.map_congr_left, List.map_id]
      intro slot _
      unfold settleSlot
      split
      · rename_i h
        obtain ⟨p, b⟩ := slot
        cases b with
        | absent => rfl
        | argument value => simp [Binding.isAbsent] at h
        | surplus values => simp [Binding.isAbsent] at h
      · rfl
    simp only [fillKeywords, hnone, List.not_mem_nil, false_imp_iff, implies_true, true_and,
      Option.some.injEq]
    exact eq_comm
  | cons entry keyword ih =>
    obtain ⟨name, value⟩ := entry
    rw [List.map_cons, List.nodup_cons] at hk
    have hnames : ((slots.map (fill name value)).map fun slot => slot.1.name).Nodup := by
      simpa [Function.comp_def, fill_name] using hn
    have hothers : (∀ entry ∈ keyword, ∃ slot ∈ slots.map (fill name value),
          isOpen entry.1 slot = true) ↔
        ∀ entry ∈ keyword, ∃ slot ∈ slots, isOpen entry.1 slot = true := by
      refine forall₂_congr fun entry hentry => ?_
      have hne : entry.1 ≠ name := by
        rintro rfl
        exact hk.1 (List.mem_map.mpr ⟨entry, hentry, rfl⟩)
      simp only [List.mem_map, exists_exists_and_eq_and, isOpen_fill hne]
    have hsettle : (slots.map (fill name value)).map (settleSlot keyword) =
        slots.map (settleSlot ((name, value) :: keyword)) := by
      simp [Function.comp_def, settleSlot_fill]
    cases hfirst : fillKeyword name value slots with
    | none =>
      simp only [fillKeywords, hfirst, List.mem_cons, forall_eq_or_imp, reduceCtorEq, false_iff,
        not_and]
      rintro ⟨hex, -⟩
      have hsome : fillKeyword name value slots = some (slots.map (fill name value)) :=
        (fillKeyword_iff hn).mpr ⟨hex, rfl⟩
      rw [hfirst] at hsome
      cases hsome
    | some slots₁ =>
      obtain ⟨hex, rfl⟩ := (fillKeyword_iff hn).mp hfirst
      simp only [fillKeywords, hfirst, ih hnames hk.2, hothers, hsettle, List.mem_cons,
        forall_eq_or_imp, hex, true_and]

theorem direct_eq (positional : List V) (keyword : List (Str × V)) (p : Parameter D) :
    settleSlot keyword (p, placed positional p) = (p, direct positional keyword p) := by
  obtain ⟨name, index, role⟩ := p
  cases role with
  | value descriptor o =>
    cases h : positional[index]? <;>
      simp [settleSlot, placed, direct, h, Parameter.byKeyword, Binding.ofOption,
        Binding.isAbsent]
  | keyword descriptor o =>
    simp [settleSlot, placed, direct, Parameter.byKeyword, Binding.isAbsent]
  | _ => simp [settleSlot, placed, direct, Parameter.byKeyword]

theorem isOpen_placed (positional : List V) (name : Str) (p : Parameter D) :
    isOpen name (p, placed positional p) = takesKeyword positional name p := by
  obtain ⟨pname, index, role⟩ := p
  cases role with
  | value descriptor o =>
    cases h : positional[index]? <;>
      simp [isOpen, placed, takesKeyword, h, Parameter.byKeyword, Binding.ofOption,
        Binding.isAbsent]
  | keyword descriptor o =>
    simp [isOpen, placed, takesKeyword, Parameter.byKeyword, Binding.isAbsent]
  | _ => simp [isOpen, placed, takesKeyword, Parameter.byKeyword]

/-- The three passes together. -/
theorem pythonBind_iff {ps : List (Parameter D)} (hp : Placed 0 ps)
    (hn : (ps.map Parameter.name).Nodup) {positional : List V} {keyword : List (Str × V)}
    (hk : (keyword.map Prod.fst).Nodup) {slots : List (Slot V D)} :
    pythonBind ps positional keyword = some slots ↔
      (∀ j < positional.length, ps.any (takesPositional j) = true) ∧
        (∀ entry ∈ keyword, ps.any (takesKeyword positional entry.1) = true) ∧
          (∀ slot ∈ slots, isSatisfied slot = true) ∧
            slots = ps.map fun p => (p, direct positional keyword p) := by
  obtain ⟨left, hfill, hleft⟩ := fillPositional_eq hp positional
  simp only [List.drop_zero, Nat.zero_le, forall_const] at hfill hleft
  have hnames : ((ps.map fun p => (p, placed positional p)).map
      fun slot : Slot V D => slot.1.name).Nodup := by
    simpa [Function.comp_def] using hn
  have hopen : (∀ entry ∈ keyword, ∃ slot ∈ ps.map fun p => (p, placed positional p),
        isOpen entry.1 slot = true) ↔
      ∀ entry ∈ keyword, ps.any (takesKeyword positional entry.1) = true := by
    refine forall₂_congr fun entry _ => ?_
    simp [isOpen_placed]
  have hdirect : (ps.map fun p => (p, placed positional p)).map (settleSlot keyword) =
      ps.map fun p => (p, direct positional keyword p) := by
    simp [Function.comp_def, direct_eq]
  rw [← hleft, ← hopen]
  unfold pythonBind
  rw [hfill]
  cases left with
  | cons v left => simp
  | nil =>
    simp only [true_and]
    cases hkeywords : fillKeywords keyword (ps.map fun p => (p, placed positional p)) with
    | none =>
      simp only [reduceCtorEq, false_iff, not_and]
      intro hall
      have hsome := (fillKeywords_iff hnames hk).mpr ⟨hall, rfl⟩
      rw [hkeywords] at hsome
      cases hsome
    | some slots₁ =>
      obtain ⟨hall, rfl⟩ := (fillKeywords_iff hnames hk).mp hkeywords
      rw [hdirect]
      dsimp only
      rw [← List.all_eq_true]
      by_cases hsatisfied : (ps.map fun p => (p, direct positional keyword p)).all isSatisfied = true
      · rw [if_pos hsatisfied]
        constructor
        · intro h
          cases h
          exact ⟨hall, hsatisfied, rfl⟩
        · rintro ⟨-, -, rfl⟩
          rfl
      · rw [if_neg hsatisfied]
        constructor
        · intro h
          cases h
        · rintro ⟨-, hslots, rfl⟩
          exact absurd hslots hsatisfied

end Passes

/-! ## What the macro accepts -/

section Accepted

theorem number_placed {inputs : List (Typed D)} {n : Nat} {ps : List (Parameter D)}
    (h : Parameter.number inputs n = .ok ps)
    (hrest : ∀ before p after, ps = before ++ p :: after → p.isRest = true → after = []) :
    Placed n ps := by
  induction inputs generalizing n ps with
  | nil =>
    cases h
    trivial
  | cons typed inputs ih =>
    obtain ⟨p, hp, h⟩ := bind_eq_ok.mp h
    obtain ⟨ps', hps, h⟩ := bind_eq_ok.mp h
    cases h
    have hindex : p.guestIndex = n := by
      unfold Parameter.new at hp
      split at hp
      · cases hp
      · obtain ⟨role, _, hp⟩ := bind_eq_ok.mp hp
        cases hp
        rfl
    refine ⟨hindex, fun hp => hrest [] p ps' rfl hp, ih hps ?_⟩
    intro before q after hq
    exact hrest (p :: before) q after (by simp [hq])

theorem number_names {inputs : List (Typed D)} {n : Nat} {ps : List (Parameter D)}
    (h : Parameter.number inputs n = .ok ps) : ps.map Parameter.name = inputs.map Typed.name := by
  induction inputs generalizing n ps with
  | nil =>
    cases h
    rfl
  | cons typed inputs ih =>
    obtain ⟨p, hp, h⟩ := bind_eq_ok.mp h
    obtain ⟨ps', hps, h⟩ := bind_eq_ok.mp h
    cases h
    have hname : p.name = typed.name := by
      unfold Parameter.new at hp
      split at hp
      · cases hp
      · obtain ⟨role, _, hp⟩ := bind_eq_ok.mp hp
        cases hp
        rfl
    simp [hname, ih hps]

theorem parseAll_number {inputs : List (Typed D)} {ps : List (Parameter D)}
    (h : Parameter.parseAll inputs = .ok ps) :
    Parameter.number inputs 0 = .ok ps ∧
      ∀ position, ps.findIdx? Parameter.isRest = some position → position + 1 = ps.length := by
  obtain ⟨ps', hnumber, h⟩ := bind_eq_ok.mp h
  split at h
  · cases h
  · split at h
    · cases h
    · split at h
      · rename_i position hposition
        split at h
        · cases h
        · rename_i hlast
          cases h
          refine ⟨hnumber, fun position' hposition' => ?_⟩
          rw [hposition] at hposition'
          cases hposition'
          omega
      · rename_i hnone
        cases h
        refine ⟨hnumber, fun position hposition => ?_⟩
        rw [hnone] at hposition
        cases hposition

theorem parseAll_placed {inputs : List (Typed D)} {ps : List (Parameter D)}
    (h : Parameter.parseAll inputs = .ok ps) : Placed 0 ps := by
  obtain ⟨hnumber, hlast⟩ := parseAll_number h
  refine number_placed hnumber ?_
  rintro before p after rfl hp
  have hmem : p ∈ before ++ p :: after := by simp
  cases hfirst : (before ++ p :: after).findIdx? Parameter.isRest with
  | none =>
    have := List.findIdx?_eq_none_iff.mp hfirst p hmem
    rw [hp] at this
    cases this
  | some position =>
    have hlength := hlast position hfirst
    obtain ⟨hlt, -, hbefore⟩ := List.findIdx?_eq_some_iff_getElem.mp hfirst
    by_contra hafter
    have hpos : before.length < position := by
      have := List.length_pos_iff.mpr hafter
      simp only [List.length_append, List.length_cons] at hlength
      omega
    have hnot := hbefore before.length hpos
    simp [hp] at hnot

end Accepted

/-! ## The two agree -/

section Agree

variable (c : Conversions V D W)

/-- What a required parameter receives is there. -/
theorem isSatisfied_of_receive {slot : Slot V D} {w : Received W} (h : c.receive slot = .ok w) :
    isSatisfied slot = true := by
  obtain ⟨⟨name, index, role⟩, b⟩ := slot
  cases b with
  | argument value => simp [isSatisfied, Binding.isAbsent]
  | surplus values => simp [isSatisfied, Binding.isAbsent]
  | absent =>
    cases role with
    | value descriptor o => cases o <;> first | rfl | cases h
    | positional descriptor o => cases o <;> first | rfl | cases h
    | keyword descriptor o => cases o <;> first | rfl | cases h
    | borrow valueType m => cases m <;> cases h
    | _ => rfl

theorem received_of_mem {slots : List (Slot V D)} {ws : List (Received W)}
    (h : List.Forall₂ (fun slot w => c.receive slot = .ok w) slots ws) {slot : Slot V D}
    (hslot : slot ∈ slots) : ∃ w, c.receive slot = .ok w := by
  induction h with
  | nil => cases hslot
  | cons hw _ ih =>
    rcases List.mem_cons.mp hslot with rfl | hslot
    · exact ⟨_, hw⟩
    · exact ih hslot

theorem exists_received {slots : List (Slot V D)}
    (h : ∀ slot ∈ slots, ∃ w, c.receive slot = .ok w) :
    ∃ ws, List.Forall₂ (fun slot w => c.receive slot = .ok w) slots ws := by
  induction slots with
  | nil => exact ⟨[], .nil⟩
  | cons slot slots ih =>
    obtain ⟨w, hw⟩ := h slot List.mem_cons_self
    obtain ⟨ws, hws⟩ := ih fun other hother => h other (List.mem_cons_of_mem _ hother)
    exact ⟨w :: ws, .cons hw hws⟩

/-- The accesses succeed if Python binds the call and what it binds converts. -/
theorem argumentSetup_iff {inputs : List (Typed D)} {ps : List (Parameter D)}
    (hparse : Parameter.parseAll inputs = .ok ps) (hn : (inputs.map Typed.name).Nodup)
    {positional : List V} {keyword : List (Str × V)} (hk : (keyword.map Prod.fst).Nodup)
    {ws : List (Received W)} :
    c.argumentSetup ps (Args.new positional keyword) = .ok ws ↔
      ∃ slots, pythonBind ps positional keyword = some slots ∧
        List.Forall₂ (fun slot w => c.receive slot = .ok w) slots ws := by
  have hnames : (ps.map Parameter.name).Nodup := by
    rwa [number_names (parseAll_number hparse).1]
  have hbind := fun slots : List (Slot V D) =>
    @pythonBind_iff _ _ ps (parseAll_placed hparse) hnames positional keyword hk slots
  rw [argumentSetup_ok c hk]
  constructor
  · rintro ⟨hreceive, hpositional, hkeyword⟩
    refine ⟨_, (hbind _).mpr ⟨hpositional, hkeyword, ?_, rfl⟩, hreceive⟩
    intro slot hslot
    obtain ⟨w, hw⟩ := received_of_mem c hreceive hslot
    exact isSatisfied_of_receive c hw
  · rintro ⟨slots, hslots, hreceive⟩
    obtain ⟨hpositional, hkeyword, -, rfl⟩ := (hbind slots).mp hslots
    exact ⟨hreceive, hpositional, hkeyword⟩

/-- When what is bound converts, the accesses and `finish` succeed exactly if Python binds the
call, and each parameter receives what is bound to it. -/
theorem argumentSetup_binds {inputs : List (Typed D)} {ps : List (Parameter D)}
    (hparse : Parameter.parseAll inputs = .ok ps) (hn : (inputs.map Typed.name).Nodup)
    {positional : List V} {keyword : List (Str × V)} (hk : (keyword.map Prod.fst).Nodup)
    (hconv : ∀ slots, pythonBind ps positional keyword = some slots →
      ∀ slot ∈ slots, ∃ w, c.receive slot = .ok w) :
    ((∃ ws, c.argumentSetup ps (Args.new positional keyword) = .ok ws) ↔
        ∃ slots, pythonBind ps positional keyword = some slots) ∧
      ∀ ws slots, c.argumentSetup ps (Args.new positional keyword) = .ok ws →
        pythonBind ps positional keyword = some slots →
          List.Forall₂ (fun slot w => c.receive slot = .ok w) slots ws := by
  refine ⟨⟨?_, ?_⟩, ?_⟩
  · rintro ⟨ws, hws⟩
    obtain ⟨slots, hslots, -⟩ := (argumentSetup_iff c hparse hn hk).mp hws
    exact ⟨slots, hslots⟩
  · rintro ⟨slots, hslots⟩
    obtain ⟨ws, hws⟩ := exists_received c (hconv slots hslots)
    exact ⟨ws, (argumentSetup_iff c hparse hn hk).mpr ⟨slots, hslots, hws⟩⟩
  · intro ws slots hws hslots
    obtain ⟨slots', hslots', hreceive⟩ := (argumentSetup_iff c hparse hn hk).mp hws
    rw [hslots] at hslots'
    cases hslots'
    exact hreceive

end Agree

/-- Numbers that convert to themselves, with `0` for `None`. -/
def numbers : Conversions Nat Unit Nat where
  isNone n := n == 0
  fromGuest _ n := .ok n
  fromGuestRef _ n := .ok n
  fromGuestMut _ n := .ok n
  enter := 0
  receiver _ := .ok 0
  context _ := .ok 0

/-- `a` and an optional `b` by position or keyword, `k` by keyword, and the rest. -/
def signature : List (Typed Unit) :=
  [{ name := ['a'], options := {}, type := (), shape := .plain () },
    { name := ['b'], options := {}, type := (), shape := .option () },
    { name := ['k'], options := { kw := true }, type := (), shape := .plain () },
    { name := ['r'], options := { rest := true }, type := (), shape := .vec () }]

def parsed : List (Parameter Unit) :=
  [⟨['a'], 0, .value () false⟩, ⟨['b'], 1, .value () true⟩, ⟨['k'], 2, .keyword () false⟩,
    ⟨['r'], 2, .rest ()⟩]

theorem argumentSetup_binds_signature :
    ((∃ ws, numbers.argumentSetup parsed (Args.new [1] [(['k'], 2), (['b'], 0)]) = .ok ws) ↔
        ∃ slots, pythonBind parsed [1] [(['k'], 2), (['b'], 0)] = some slots) ∧
      ∀ ws slots, numbers.argumentSetup parsed (Args.new [1] [(['k'], 2), (['b'], 0)]) = .ok ws →
        pythonBind parsed [1] [(['k'], 2), (['b'], 0)] = some slots →
          List.Forall₂ (fun slot w => numbers.receive slot = .ok w) slots ws := by
  have hparse : Parameter.parseAll signature = .ok parsed := rfl
  refine argumentSetup_binds numbers hparse (by decide) (by decide) ?_
  rintro slots hslots slot hslot
  cases hslots
  simp only [List.mem_cons, List.not_mem_nil, or_false] at hslot
  rcases hslot with rfl | rfl | rfl | rfl
  · exact ⟨.value 1, rfl⟩
  · exact ⟨.optional none, rfl⟩
  · exact ⟨.value 2, rfl⟩
  · exact ⟨.rest [], rfl⟩

end GuestPy.Marshal
