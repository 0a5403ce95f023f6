import GuestPy.Marshal.Native

/-!
# Native values come back

What a host gives to a guest and takes back at the same type is the value it was.

* `Native.Has` says which values a type of the standard library has, and `Value.Lossless` that no
  `Some` in a value becomes `None`, and that the keys of its maps and the elements of its sets are
  hashable and distinct in Python.
* A guest may find the elements of a set in any order. `Obj.Alike` and `Value.Alike` are equality
  up to these orders.
* `returns`: the object for a value is read as that value, in whatever order its sets are.
* `intFromGuest_spec`: an integer is read at a type just if it is in the range of the type.
-/

namespace GuestPy.Marshal

open Results

variable {F σ ε α β : Type}

/-! ## Computations that only read -/

/-- In every state the computation returns the value, and it leaves the state alone. -/
def Yields (m : Host σ ε α) (a : α) : Prop := ∀ s, m s = (.ok a, s)

namespace Yields

theorem pure (a : α) : Yields (Pure.pure a : Host σ ε α) a := fun _ => rfl

theorem bind {m : Host σ ε α} {f : α → Host σ ε β} {a : α} {b : β} (h : Yields m a)
    (hf : Yields (f a) b) : Yields (m >>= f) b := by
  intro s
  change Host.bind m f s = _
  unfold Host.bind
  rw [h s]
  exact hf s

theorem eachItem {f : α → Host σ ε β} {as : List α} {bs : List β}
    (h : List.Forall₂ (fun a b => Yields (f a) b) as bs) : Yields (GuestPy.eachItem f as) bs := by
  induction h with
  | nil => exact pure []
  | cons ha _ ih => exact ha.bind (ih.bind (pure _))

end Yields

/-! ## Values of a type -/

section Values

variable [Floats F]

mutual

/-- The values of a type. `Iterable` and `Mapping` are only read, and a union is a type of the
host program. -/
def Native.Has : Native → Value F → Prop
  | .unit, .unit => True
  | .bool, .bool _ => True
  | .int k _, .int n => k.fits n = true
  | .f32, .float x => Floats.single x = x
  | .f64, .float _ => True
  | .char, .char _ => True
  | .string, .str _ => True
  | .bytes, .bytes _ => True
  | .option _, .none => True
  | .option t, .some v => t.Has v
  | .tuple ts, .tuple vs => Native.HasAll ts vs
  | .vec t, .list vs => ∀ v ∈ vs, t.Has v
  | .array t length, .list vs => vs.length = length ∧ ∀ v ∈ vs, t.Has v
  | .map key value, .map es => ∀ e ∈ es, key.Has e.1 ∧ value.Has e.2
  | .set t, .set vs => ∀ v ∈ vs, t.Has v
  | _, _ => False

def Native.HasAll : List Native → List (Value F) → Prop
  | [], [] => True
  | t :: ts, v :: vs => t.Has v ∧ Native.HasAll ts vs
  | _, _ => False

end

/-- The objects can be the keys of one dictionary. -/
def Keyed (keys : List (Obj F)) : Prop :=
  (∀ key ∈ keys, key.hashable = true) ∧ DistinctKeys keys

mutual

def Value.Lossless : Value F → Prop
  | .some v => toGuest v ≠ .ok .none ∧ v.Lossless
  | .tuple vs => Value.AllLossless vs
  | .list vs => Value.AllLossless vs
  | .map es =>
    (∀ ps, toGuestEntries es = .ok ps → Keyed (ps.map Prod.fst)) ∧ Value.EntriesLossless es
  | .set vs => (∀ os, toGuestAll vs = .ok os → Keyed os) ∧ Value.AllLossless vs
  | .variant _ v => v.Lossless
  | _ => True

def Value.AllLossless : List (Value F) → Prop
  | [] => True
  | v :: vs => v.Lossless ∧ Value.AllLossless vs

def Value.EntriesLossless : List (Value F × Value F) → Prop
  | [] => True
  | (key, value) :: es => key.Lossless ∧ value.Lossless ∧ Value.EntriesLossless es

end

theorem Value.AllLossless.mem {vs : List (Value F)} (h : Value.AllLossless vs) {v : Value F}
    (hv : v ∈ vs) : v.Lossless := by
  induction vs with
  | nil => cases hv
  | cons w vs ih =>
    obtain ⟨hw, hvs⟩ := h
    rcases List.mem_cons.mp hv with rfl | hv
    · exact hw
    · exact ih hvs hv

theorem Value.EntriesLossless.mem {es : List (Value F × Value F)} (h : Value.EntriesLossless es)
    {e : Value F × Value F} (he : e ∈ es) : e.1.Lossless ∧ e.2.Lossless := by
  induction es with
  | nil => cases he
  | cons d es ih =>
    obtain ⟨hkey, hvalue, hes⟩ := h
    rcases List.mem_cons.mp he with rfl | he
    · exact ⟨hkey, hvalue⟩
    · exact ih hes he

end Values

/-- The same object, but its sets may give their elements in another order. A set has no set in
it, and no key of a dictionary has one. -/
inductive Obj.Alike : Obj F → Obj F → Prop
  | same (o : Obj F) : Obj.Alike o o
  | list {xs ys : List (Obj F)} : List.Forall₂ Obj.Alike xs ys → Obj.Alike (.list xs) (.list ys)
  | tuple {xs ys : List (Obj F)} :
    List.Forall₂ Obj.Alike xs ys → Obj.Alike (.tuple xs) (.tuple ys)
  | dict {ps qs : List (Obj F × Obj F)} : ps.map Prod.fst = qs.map Prod.fst →
    List.Forall₂ Obj.Alike (ps.map Prod.snd) (qs.map Prod.snd) → Obj.Alike (.dict ps) (.dict qs)
  | set {xs ys : List (Obj F)} : xs.Perm ys → Obj.Alike (.set xs) (.set ys)

/-- The same value: the order of the elements of a set does not matter. -/
inductive Value.Alike : Value F → Value F → Prop
  | same (v : Value F) : Value.Alike v v
  | some {v w : Value F} : Value.Alike v w → Value.Alike (.some v) (.some w)
  | tuple {vs ws : List (Value F)} :
    List.Forall₂ Value.Alike vs ws → Value.Alike (.tuple vs) (.tuple ws)
  | list {vs ws : List (Value F)} :
    List.Forall₂ Value.Alike vs ws → Value.Alike (.list vs) (.list ws)
  | map {es ds : List (Value F × Value F)} : es.map Prod.fst = ds.map Prod.fst →
    List.Forall₂ Value.Alike (es.map Prod.snd) (ds.map Prod.snd) → Value.Alike (.map es) (.map ds)
  | set {vs ws : List (Value F)} : vs.Perm ws → Value.Alike (.set vs) (.set ws)

/-! ## Dictionaries and sets that can be built -/

section Building

variable [Floats F]

theorem insertAll_of_hashable {ps pairs : List (Obj F × Obj F)}
    (h : ∀ p ∈ pairs, p.1.hashable = true) : ∃ qs, Obj.insertAll ps pairs = .ok qs := by
  induction pairs generalizing ps with
  | nil => exact ⟨ps, rfl⟩
  | cons p pairs ih =>
    obtain ⟨key, value⟩ := p
    have hkey : key.hashable = true := h (key, value) List.mem_cons_self
    simp only [Obj.insertAll, hkey, if_true]
    exact ih fun q hq => h q (List.mem_cons_of_mem _ hq)

theorem dict_of_keyed {ps : List (Obj F × Obj F)} (h : Keyed (ps.map Prod.fst)) :
    dict ps = .ok (.dict ps) := by
  obtain ⟨qs, hqs⟩ : ∃ qs, Obj.insertAll [] ps = .ok qs :=
    insertAll_of_hashable fun p hp => h.1 p.1 (List.mem_map_of_mem hp)
  have hdict : dict ps = .ok (.dict qs) := by
    unfold dict
    rw [hqs]
  rw [hdict, dict_distinct h.2 hdict]

theorem addAll_of_keyed {xs os : List (Obj F)} (hd : DistinctKeys (xs ++ os))
    (h : ∀ o ∈ os, o.hashable = true) : Obj.addAll xs os = .ok (xs ++ os) := by
  induction os generalizing xs with
  | nil => simp [Obj.addAll]
  | cons o os ih =>
    have hnew : xs.any (·.eqv o) = false := by
      rw [List.any_eq_false]
      intro x hx
      have hpairs := (List.pairwise_append.mp hd).2.2
      simp [hpairs x hx o List.mem_cons_self]
    have ho : o.hashable = true := h o List.mem_cons_self
    have hrest : Obj.addAll (xs ++ [o]) os = .ok (xs ++ [o] ++ os) :=
      ih (by simpa using hd) fun o' ho' => h o' (List.mem_cons_of_mem _ ho')
    simpa [Obj.addAll, hnew, ho] using hrest

end Building

/-! ## Reading -/

section Reading

variable [Floats F] {engine : Engine} {code : Code σ F}

/-- The object is read as the value, and as the same up to orders where its sets give their
elements in other orders. -/
structure Comes (engine : Engine) (code : Code σ F) (t : Native) (v : Value F) (o : Obj F) :
    Prop where
  exact : Yields (fromGuest engine code t o) v
  alike : ∀ o', o.Alike o' → ∃ v', Yields (fromGuest engine code t o') v' ∧ v.Alike v'

/-- An object without sets is the only one like it. -/
theorem Comes.of_alone {t : Native} {v : Value F} {o : Obj F}
    (h : Yields (fromGuest engine code t o) v) (halone : ∀ o', o.Alike o' → o' = o) :
    Comes engine code t v o where
  exact := h
  alike o' ho' := ⟨v, halone o' ho' ▸ h, .same v⟩

theorem gives_items {t : Native} {vs : List (Value F)}
    (h : ∀ v ∈ vs, ∃ o, toGuest v = .ok o ∧ Comes engine code t v o) :
    ∃ os, toGuestAll vs = .ok os ∧ List.Forall₂ (Comes engine code t) vs os := by
  induction vs with
  | nil => exact ⟨[], rfl, .nil⟩
  | cons v vs ih =>
    obtain ⟨o, ho, hcome⟩ := h v List.mem_cons_self
    obtain ⟨os, hos, hcomes⟩ := ih fun w hw => h w (List.mem_cons_of_mem _ hw)
    exact ⟨o :: os, by simp [toGuestAll, ho, hos, pure_eq_ok], .cons hcome hcomes⟩

theorem gives_pairs {key value : Native} {es : List (Value F × Value F)}
    (hkey : ∀ e ∈ es, ∃ o, toGuest e.1 = .ok o ∧ Comes engine code key e.1 o)
    (hvalue : ∀ e ∈ es, ∃ o, toGuest e.2 = .ok o ∧ Comes engine code value e.2 o) :
    ∃ ps, toGuestEntries es = .ok ps ∧
      List.Forall₂ (fun e p => Comes engine code key e.1 p.1 ∧ Comes engine code value e.2 p.2)
        es ps := by
  induction es with
  | nil => exact ⟨[], rfl, .nil⟩
  | cons e es ih =>
    obtain ⟨k, hk, hcomek⟩ := hkey e List.mem_cons_self
    obtain ⟨x, hx, hcomex⟩ := hvalue e List.mem_cons_self
    obtain ⟨ps, hps, hcomes⟩ := ih (fun d hd => hkey d (List.mem_cons_of_mem _ hd))
      fun d hd => hvalue d (List.mem_cons_of_mem _ hd)
    exact ⟨(k, x) :: ps, by simp [toGuestEntries, hk, hx, hps, pure_eq_ok],
      .cons ⟨hcomek, hcomex⟩ hcomes⟩

theorem reads_items {t : Native} {vs : List (Value F)} {os : List (Obj F)}
    (h : List.Forall₂ (Comes engine code t) vs os) :
    Yields (eachItem (fromGuest engine code t) os) vs := by
  refine Yields.eachItem ?_
  induction h with
  | nil => exact .nil
  | cons ho _ ih => exact .cons ho.exact ih

theorem reads_items_alike {t : Native} {vs : List (Value F)} {os os' : List (Obj F)}
    (h : List.Forall₂ (Comes engine code t) vs os) (ha : List.Forall₂ Obj.Alike os os') :
    ∃ vs', Yields (eachItem (fromGuest engine code t) os') vs' ∧ List.Forall₂ Value.Alike vs vs' := by
  induction h generalizing os' with
  | nil =>
    cases ha
    exact ⟨[], Yields.pure [], .nil⟩
  | cons ho _ ih =>
    cases ha with
    | cons ha has =>
      obtain ⟨v', hv', hlike⟩ := ho.alike _ ha
      obtain ⟨vs', hvs', hlikes⟩ := ih has
      exact ⟨v' :: vs', hv'.bind (hvs'.bind (Yields.pure _)), .cons hlike hlikes⟩

/-- The elements of a set in another order are the same elements. -/
theorem reads_items_perm {t : Native} {vs : List (Value F)} {os os' : List (Obj F)}
    (h : List.Forall₂ (Comes engine code t) vs os) (hp : os.Perm os') :
    ∃ vs', Yields (eachItem (fromGuest engine code t) os') vs' ∧ vs.Perm vs' := by
  obtain ⟨vs', hvs', hperm⟩ := List.perm_comp_forall₂ hp.symm h.flip
  exact ⟨vs', reads_items hvs'.flip, hperm.symm⟩

theorem reads_pairs {key value : Native} {es : List (Value F × Value F)}
    {ps : List (Obj F × Obj F)}
    (h : List.Forall₂ (fun e p => Comes engine code key e.1 p.1 ∧ Comes engine code value e.2 p.2)
      es ps) :
    Yields (eachItem (pairOf (fromGuest engine code key) (fromGuest engine code value)) ps) es := by
  refine Yields.eachItem ?_
  induction h with
  | nil => exact .nil
  | cons ho _ ih => exact .cons (ho.1.exact.bind (ho.2.exact.bind (Yields.pure _))) ih

theorem reads_pairs_alike {key value : Native} {es : List (Value F × Value F)}
    {ps qs : List (Obj F × Obj F)}
    (h : List.Forall₂ (fun e p => Comes engine code key e.1 p.1 ∧ Comes engine code value e.2 p.2)
      es ps)
    (hkeys : ps.map Prod.fst = qs.map Prod.fst)
    (ha : List.Forall₂ Obj.Alike (ps.map Prod.snd) (qs.map Prod.snd)) :
    ∃ ds, Yields (eachItem (pairOf (fromGuest engine code key) (fromGuest engine code value)) qs) ds ∧
      es.map Prod.fst = ds.map Prod.fst ∧
      List.Forall₂ Value.Alike (es.map Prod.snd) (ds.map Prod.snd) := by
  induction h generalizing qs with
  | nil =>
    cases qs with
    | nil => exact ⟨[], Yields.pure [], rfl, .nil⟩
    | cons q qs => cases ha
  | @cons e p es ps ho _ ih =>
    cases qs with
    | nil => cases ha
    | cons q qs =>
      obtain ⟨k, x⟩ := q
      obtain ⟨hk, hks⟩ := List.cons.inj hkeys
      obtain ⟨hx, hxs⟩ := List.forall₂_cons.mp ha
      obtain ⟨v', hv', hlike⟩ := ho.2.alike x hx
      obtain ⟨ds, hds, hfst, hsnd⟩ := ih hks hxs
      have hkey : Yields (fromGuest engine code key k) e.1 := by
        have hread := ho.1.exact
        rw [hk] at hread
        exact hread
      have hpair : Yields (pairOf (fromGuest engine code key) (fromGuest engine code value) (k, x))
          (e.1, v') := by
        unfold pairOf
        exact hkey.bind (hv'.bind (Yields.pure (e.1, v')))
      exact ⟨(e.1, v') :: ds, hpair.bind (hds.bind (Yields.pure _)), by simp [hfst],
        .cons hlike hsnd⟩

/-! ### Integers -/

/-- **Integers are read exactly.** Reading succeeds just if the integer is in the range. -/
theorem intFromGuest_spec (k : IntType) (narrow : k.isNarrow = true) (o : Obj F) (n : Int)
    (hn : o.index = some n) :
    (k.fits n = true → Yields (fromGuest engine code (.int k narrow) o) (.int n)) ∧
      (k.fits n = false → ∃ e, ∀ s, fromGuest engine code (.int k narrow) o s = (.err e, s)) := by
  have hint : o.isInt = true := by cases o <;> first | rfl | cases hn
  simp only [fromGuest, intFromGuest, hint, Bool.not_true, Bool.false_eq_true, if_false]
  cases hsigned : k.signed with
  | true =>
    simp only [if_true, Obj.asI64, Obj.extract, hn]
    constructor
    · intro hfits
      have hi64 : IntType.i64.fits n = true := IntType.fits_i64_of_signed narrow hsigned hfits
      simp only [hi64, if_true]
      refine Yields.bind (Yields.pure n) ?_
      simp only [hfits, if_true]
      exact Yields.pure _
    · intro hout
      by_cases hi64 : IntType.i64.fits n = true
      · refine ⟨.conversion s!"{n} does not fit in {k.name}", fun s => ?_⟩
        simp only [hi64, if_true]
        change (if k.fits n = true then _ else _ : Host σ Err (Value F)) s = _
        simp only [hout, Bool.false_eq_true, if_false]
        rfl
      · refine ⟨Obj.raise "OverflowError", fun s => ?_⟩
        simp only [hi64]
        rfl
  | false =>
    simp only [Bool.false_eq_true, if_false, Obj.asU64, Obj.extract, hn]
    constructor
    · intro hfits
      have hu64 : IntType.u64.fits n = true := IntType.fits_u64_of_unsigned narrow hsigned hfits
      simp only [hu64, hfits, if_true]
      exact Yields.pure _
    · intro hout
      by_cases hu64 : IntType.u64.fits n = true
      · refine ⟨.conversion s!"{n} does not fit in {k.name}", fun s => ?_⟩
        simp only [hu64, hout, Bool.false_eq_true, if_false, if_true]
        rfl
      · refine ⟨.conversion "a negative int cannot be converted to an unsigned integer",
          fun s => ?_⟩
        simp only [hu64]
        rfl

/-! ### Containers -/

theorem returns_option {t : Native} {v : Value F} {o : Obj F} (ho : toGuest v = .ok o)
    (hne : toGuest v ≠ .ok .none) (hcome : Comes engine code t v o) :
    ∃ o, toGuest (.some v) = .ok o ∧ Comes engine code (.option t) (.some v) o := by
  have hnone : o.isNone = false := by
    cases o with
    | none => exact absurd ho hne
    | _ => rfl
  have hread : ∀ {o' v'}, o'.isNone = false → Yields (fromGuest engine code t o') v' →
      Yields (fromGuest engine code (.option t) o') (.some v') := by
    intro o' v' hn hv'
    simp only [fromGuest, hn, Bool.false_eq_true, if_false]
    exact hv'.bind (Yields.pure _)
  refine ⟨o, ho, hread hnone hcome.exact, fun o' ho' => ?_⟩
  obtain ⟨v', hv', hlike⟩ := hcome.alike o' ho'
  have hnone' : o'.isNone = false := by
    cases ho' with
    | same => exact hnone
    | _ => rfl
  exact ⟨.some v', hread hnone' hv', .some hlike⟩

theorem returns_tuple {ts : List Native} {vs : List (Value F)}
    (h : ∃ os, toGuestAll vs = .ok os ∧ os.length = ts.length ∧
      Yields (fromGuestAll engine code ts os) vs ∧ ∀ os', List.Forall₂ Obj.Alike os os' →
        ∃ vs', Yields (fromGuestAll engine code ts os') vs' ∧ List.Forall₂ Value.Alike vs vs') :
    ∃ o, toGuest (.tuple vs) = .ok o ∧ Comes engine code (.tuple ts) (.tuple vs) o := by
  obtain ⟨os, hos, hlength, hread, halike⟩ := h
  have hwhole : ∀ {os' vs'}, os'.length = ts.length → Yields (fromGuestAll engine code ts os') vs' →
      Yields (fromGuest engine code (.tuple ts) (.tuple os')) (.tuple vs') := by
    intro os' vs' hlen hvs'
    simp only [fromGuest, hlen, ne_eq, not_true_eq_false, if_false]
    exact hvs'.bind (Yields.pure _)
  refine ⟨.tuple os, by simp [toGuest, hos, pure_eq_ok], hwhole hlength hread, fun o' ho' => ?_⟩
  cases ho' with
  | same => exact ⟨.tuple vs, hwhole hlength hread, .same _⟩
  | tuple hall =>
    obtain ⟨vs', hvs', hlikes⟩ := halike _ hall
    exact ⟨.tuple vs', hwhole (hall.length_eq.symm.trans hlength) hvs', .tuple hlikes⟩

section Items

variable {t : Native} {vs : List (Value F)}

theorem returns_vec (h : ∀ v ∈ vs, ∃ o, toGuest v = .ok o ∧ Comes engine code t v o) :
    ∃ o, toGuest (.list vs) = .ok o ∧ Comes engine code (.vec t) (.list vs) o := by
  obtain ⟨os, hos, hcomes⟩ := gives_items h
  have hread : Yields (fromGuest engine code (.vec t) (.list os)) (.list vs) :=
    (reads_items hcomes).bind (Yields.pure _)
  refine ⟨.list os, by simp [toGuest, hos, pure_eq_ok], hread, fun o' ho' => ?_⟩
  cases ho' with
  | same => exact ⟨.list vs, hread, .same _⟩
  | list hall =>
    obtain ⟨vs', hvs', hlikes⟩ := reads_items_alike hcomes hall
    exact ⟨.list vs', hvs'.bind (Yields.pure _), .list hlikes⟩

theorem returns_array (h : ∀ v ∈ vs, ∃ o, toGuest v = .ok o ∧ Comes engine code t v o) :
    ∃ o, toGuest (.list vs) = .ok o ∧ Comes engine code (.array t vs.length) (.list vs) o := by
  obtain ⟨os, hos, hcomes⟩ := gives_items h
  have hlen : os.length = vs.length := hcomes.length_eq.symm
  have hwhole : ∀ {os' vs'}, os'.length = vs.length →
      Yields (eachItem (fromGuest engine code t) os') vs' →
        Yields (fromGuest engine code (.array t vs.length) (.list os')) (.list vs') := by
    intro os' vs' hlen' hvs'
    simp only [fromGuest, hlen', ne_eq, not_true_eq_false, if_false]
    exact hvs'.bind (Yields.pure _)
  have hread := hwhole hlen (reads_items hcomes)
  refine ⟨.list os, by simp [toGuest, hos, pure_eq_ok], hread, fun o' ho' => ?_⟩
  cases ho' with
  | same => exact ⟨.list vs, hread, .same _⟩
  | list hall =>
    obtain ⟨vs', hvs', hlikes⟩ := reads_items_alike hcomes hall
    exact ⟨.list vs', hwhole (hall.length_eq.symm.trans hlen) hvs', .list hlikes⟩

theorem returns_set (hkeyed : ∀ os, toGuestAll vs = .ok os → Keyed os)
    (h : ∀ v ∈ vs, ∃ o, toGuest v = .ok o ∧ Comes engine code t v o) :
    ∃ o, toGuest (.set vs) = .ok o ∧ Comes engine code (.set t) (.set vs) o := by
  obtain ⟨os, hos, hcomes⟩ := gives_items h
  have hadd : Obj.addAll [] os = .ok os := addAll_of_keyed (hkeyed os hos).2 (hkeyed os hos).1
  have hgiven : toGuest (.set vs) = .ok (.set os) := by
    simp [toGuest, hos, hadd, pure_eq_ok]
  have hread : Yields (fromGuest engine code (.set t) (.set os)) (.set vs) :=
    (reads_items hcomes).bind (Yields.pure _)
  refine ⟨.set os, hgiven, hread, fun o' ho' => ?_⟩
  cases ho' with
  | same => exact ⟨.set vs, hread, .same _⟩
  | set hperm =>
    obtain ⟨vs', hvs', hsame⟩ := reads_items_perm hcomes hperm
    exact ⟨.set vs', hvs'.bind (Yields.pure _), .set hsame⟩

end Items

theorem returns_map {key value : Native} {es : List (Value F × Value F)}
    (hkeyed : ∀ ps, toGuestEntries es = .ok ps → Keyed (ps.map Prod.fst))
    (hkey : ∀ e ∈ es, ∃ o, toGuest e.1 = .ok o ∧ Comes engine code key e.1 o)
    (hvalue : ∀ e ∈ es, ∃ o, toGuest e.2 = .ok o ∧ Comes engine code value e.2 o) :
    ∃ o, toGuest (.map es) = .ok o ∧ Comes engine code (.map key value) (.map es) o := by
  obtain ⟨ps, hps, hcomes⟩ := gives_pairs hkey hvalue
  have hgiven : toGuest (.map es) = .ok (.dict ps) := by
    simp only [toGuest, hps, ok_bind]
    exact dict_of_keyed (hkeyed ps hps)
  have hread : Yields (fromGuest engine code (.map key value) (.dict ps)) (.map es) :=
    (reads_pairs hcomes).bind (Yields.pure _)
  refine ⟨.dict ps, hgiven, hread, fun o' ho' => ?_⟩
  cases ho' with
  | same => exact ⟨.map es, hread, .same _⟩
  | dict hkeys hall =>
    obtain ⟨ds, hds, hfst, hsnd⟩ := reads_pairs_alike hcomes hkeys hall
    exact ⟨.map ds, hds.bind (Yields.pure _), .map hfst hsnd⟩

/-! ### Along the type -/

mutual

/-- The value is given to the guest as an object that comes back as the value. -/
theorem returns : ∀ {t : Native} {v : Value F}, t.Has v → v.Lossless →
    ∃ o, toGuest v = .ok o ∧ Comes engine code t v o
  | .unit, .unit, _, _ => ⟨.none, rfl, .of_alone (Yields.pure _) fun _ h => by cases h; rfl⟩
  | .bool, .bool b, _, _ => ⟨.bool b, rfl, .of_alone (Yields.pure _) fun _ h => by cases h; rfl⟩
  | .int k narrow, .int n, h, _ =>
    ⟨.int n, rfl, .of_alone ((intFromGuest_spec k narrow (.int n) n rfl).1 h)
      fun _ h => by cases h; rfl⟩
  | .f32, .float x, h, _ => by
    have hx : Floats.single x = x := h
    have hread : Yields (fromGuest engine code .f32 (.float x)) (.float (Floats.single x)) :=
      (Yields.pure x).bind (Yields.pure _)
    rw [hx] at hread
    exact ⟨.float x, rfl, .of_alone hread fun _ h => by cases h; rfl⟩
  | .f64, .float x, _, _ =>
    ⟨.float x, rfl, .of_alone (Yields.pure _) fun _ h => by cases h; rfl⟩
  | .char, .char c, _, _ =>
    ⟨.str [c], rfl, .of_alone (Yields.pure _) fun _ h => by cases h; rfl⟩
  | .string, .str s, _, _ =>
    ⟨.str s, rfl, .of_alone (Yields.pure _) fun _ h => by cases h; rfl⟩
  | .bytes, .bytes b, _, _ =>
    ⟨.bytes b, rfl, .of_alone (Yields.pure _) fun _ h => by cases h; rfl⟩
  | .option t, .none, _, _ => ⟨.none, rfl, .of_alone (Yields.pure _) fun _ h => by cases h; rfl⟩
  | .option t, .some v, h, ⟨hne, hl⟩ => by
    have hv : t.Has v := h
    obtain ⟨o, ho, hcome⟩ := returns hv hl
    exact returns_option ho hne hcome
  | .tuple ts, .tuple vs, h, hl => returns_tuple (returnsAll h hl)
  | .vec t, .list vs, h, hl => returns_vec fun v hv => returns (h v hv) (hl.mem hv)
  | .array t length, .list vs, ⟨hlength, h⟩, hl => by
    subst hlength
    exact returns_array fun v hv => returns (h v hv) (hl.mem hv)
  | .map key value, .map es, h, ⟨hkeyed, hl⟩ =>
    returns_map hkeyed (fun e he => returns (h e he).1 (hl.mem he).1)
      fun e he => returns (h e he).2 (hl.mem he).2
  | .set t, .set vs, h, ⟨hkeyed, hl⟩ =>
    returns_set hkeyed fun v hv => returns (h v hv) (hl.mem hv)

theorem returnsAll : ∀ {ts : List Native} {vs : List (Value F)}, Native.HasAll ts vs →
    Value.AllLossless vs → ∃ os, toGuestAll vs = .ok os ∧ os.length = ts.length ∧
      Yields (fromGuestAll engine code ts os) vs ∧
      ∀ os', List.Forall₂ Obj.Alike os os' →
        ∃ vs', Yields (fromGuestAll engine code ts os') vs' ∧ List.Forall₂ Value.Alike vs vs'
  | [], [], _, _ => by
    refine ⟨[], rfl, rfl, Yields.pure [], fun os' hos' => ?_⟩
    cases hos'
    exact ⟨[], Yields.pure [], .nil⟩
  | t :: ts, v :: vs, ⟨h, hs⟩, ⟨hl, hls⟩ => by
    obtain ⟨o, ho, hcome⟩ := returns h hl
    obtain ⟨os, hos, hlength, hread, halike⟩ := returnsAll hs hls
    refine ⟨o :: os, by simp [toGuestAll, ho, hos, pure_eq_ok], by simp [hlength],
      hcome.exact.bind (hread.bind (Yields.pure _)), fun os' hos' => ?_⟩
    cases hos' with
    | cons ho' hos' =>
      obtain ⟨v', hv', hlike⟩ := hcome.alike _ ho'
      obtain ⟨vs', hvs', hlikes⟩ := halike _ hos'
      exact ⟨v' :: vs', hv'.bind (hvs'.bind (Yields.pure _)), .cons hlike hlikes⟩

end

/-- **Native values come back.** A value that is given to a guest and taken back at its type is
the same, whatever order the guest has for sets, and an integer is read at a type just if it is in
the range of the type, as that integer. -/
theorem native_roundTrip (engine : Engine) (code : Code σ F) :
    (∀ (t : Native) (v : Value F), t.Has v → v.Lossless → ∃ o, toGuest v = .ok o ∧
      (∀ s, fromGuest engine code t o s = (.ok v, s)) ∧
      ∀ o', o.Alike o' → ∃ v', (∀ s, fromGuest engine code t o' s = (.ok v', s)) ∧ v.Alike v') ∧
    ∀ (k : IntType) (narrow : k.isNarrow = true) (o : Obj F) (n : Int), o.index = some n → ∀ s,
      ((∃ v, (fromGuest engine code (.int k narrow) o s).1 = .ok v) ↔ k.fits n = true) ∧
      ∀ v, (fromGuest engine code (.int k narrow) o s).1 = .ok v → v = .int n := by
  constructor
  · intro t v hv hl
    obtain ⟨o, ho, hcome⟩ := returns hv hl
    exact ⟨o, ho, hcome.exact, hcome.alike⟩
  · intro k narrow o n hn s
    have hspec : (k.fits n = true → Yields (fromGuest engine code (.int k narrow) o) (.int n)) ∧
        (k.fits n = false → ∃ e, ∀ s, fromGuest engine code (.int k narrow) o s = (.err e, s)) :=
      intFromGuest_spec k narrow o n hn
    obtain ⟨hin, hout⟩ := hspec
    cases hfits : k.fits n with
    | true =>
      have hread := hin hfits s
      simp [hread]
    | false =>
      obtain ⟨e, he⟩ := hout hfits
      simp [he s]

end Reading

/-! ### Scores -/

/-- Texts, each with lists of sets of numbers, where a set may be missing. -/
def scoresType : Native := .map .string (.vec (.option (.set (.int .u8 rfl))))

def scores : Value Int :=
  .map [(.str "ada".toList, .list [.some (.set [.int 1, .int 255]), .none]),
    (.str "bob".toList, .list [])]

/-- A guest that has no iterators of its own. -/
def noCode : Code Unit Int where
  fuel := 0
  hasAttr := fun _ _ s => (false, s)
  iter := fun _ => Host.stuck
  next := fun _ => Host.stuck
  keys := fun _ => Host.stuck
  getItem := fun _ _ => Host.stuck
  chars := fun _ => []

theorem has_scores : scoresType.Has scores := by
  simp [scoresType, scores, Native.Has]
  decide

theorem lossless_scores : scores.Lossless := by
  have hset : Keyed [Obj.int (F := Int) 1, .int 255] := by
    refine ⟨by simp [Obj.hashable], ?_⟩
    unfold DistinctKeys
    decide
  have hkeys : Keyed [Obj.str (F := Int) "ada".toList, .str "bob".toList] := by
    refine ⟨by simp [Obj.hashable], ?_⟩
    unfold DistinctKeys
    decide
  refine ⟨fun ps hps => ?_, trivial, ⟨⟨nofun, fun os hos => ?_, trivial, trivial, trivial⟩,
    trivial, trivial⟩, trivial, trivial, trivial⟩
  · cases hps
    exact hkeys
  · cases hos
    exact hset

theorem native_roundTrip_scores : ∃ o, toGuest scores = .ok o ∧
    (∀ s, fromGuest .cpython noCode scoresType o s = (.ok scores, s)) ∧
      ∀ o', o.Alike o' →
        ∃ v', (∀ s, fromGuest .cpython noCode scoresType o' s = (.ok v', s)) ∧ scores.Alike v' :=
  (native_roundTrip .cpython noCode).1 scoresType scores has_scores lossless_scores

end GuestPy.Marshal
