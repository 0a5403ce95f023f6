import GuestPy.Marshal.Fitting

/-!
# The first variant that fits

Decoding a union gives the first variant that the value fits, unless the search comes to a value
that makes an attempt fail with an exception of the interpreter (`decodes_iff`): such a failure is
taken for one of the guest, and ends the search.

A value `Restorable` at a type can be told from the others by the guest, and by the variants
before its own. `Finds` follows the search for it along the type.
-/

namespace GuestPy.Marshal

open Results

variable {F σ : Type}

/-! ## What is found -/

section Finds

variable {ε α β : Type}

/-- In every state the search finds the value. -/
def Finds (r : Search σ ε α) (a : α) : Prop := ∀ s, (r s).1 = .ok a

/-- In no state does the value fit. -/
def Refuses (r : Search σ ε α) : Prop := ∀ s, (r s).1 = .err .unfit

namespace Finds

theorem pure (a : α) : Finds (Pure.pure a : Search σ ε α) a := fun _ => rfl

theorem bind {r : Search σ ε α} {g : α → Search σ ε β} {a : α} {b : β} (h : Finds r a)
    (hg : Finds (g a) b) : Finds (r >>= g) b := by
  intro s
  have hs := h s
  change (Host.bind r g s).1 = .ok b
  unfold Host.bind
  rcases hr : r s with ⟨o, s'⟩
  rw [hr] at hs
  dsimp only at hs
  subst hs
  exact hg s'

theorem first {r r' : Search σ ε α} {a : α} (h : Finds r a) : Finds (Search.orNext r r') a := by
  intro s
  have hs := h s
  unfold Search.orNext
  rcases hr : r s with ⟨o, s'⟩
  rw [hr] at hs
  dsimp only at hs
  subst hs
  rfl

theorem next {r r' : Search σ ε α} {a : α} (hr : Refuses r) (h : Finds r' a) :
    Finds (Search.orNext r r') a := by
  intro s
  have hs := hr s
  unfold Search.orNext
  rcases hr' : r s with ⟨o, s'⟩
  rw [hr'] at hs
  dsimp only at hs
  subst hs
  exact h s'

theorem eachItem {f : α → Search σ ε β} {as : List α} {bs : List β}
    (h : List.Forall₂ (fun a b => Finds (f a) b) as bs) : Finds (GuestPy.eachItem f as) bs := by
  induction h with
  | nil => exact pure []
  | cons ha _ ih => exact ha.bind (ih.bind (pure _))

end Finds

theorem Refuses.bind {r : Search σ ε α} {g : α → Search σ ε β} (h : Refuses r) :
    Refuses (r >>= g) := by
  intro s
  have hs := h s
  change (Host.bind r g s).1 = .err .unfit
  unfold Host.bind
  rcases hr : r s with ⟨o, s'⟩
  rw [hr] at hs
  dsimp only at hs
  subst hs
  rfl

end Finds

/-! ## Values that come back -/

section Restorable

variable [Floats F] (engine : Engine) (code : Code σ F)

mutual

/-- Values of a type, of which no `Some` becomes `None`, no map or set has equal keys, and no
union has an earlier variant that the value fits as well. -/
def Restorable : Native → Value F → Prop
  | .unit, .unit => True
  | .bool, .bool _ => True
  | .int k _, .int n => k.fits n = true
  | .f32, .float x => Floats.single x = x
  | .f64, .float _ => True
  | .char, .char _ => True
  | .string, .str _ => True
  | .bytes, .bytes _ => True
  | .option _, .none => True
  | .option t, .some v => toGuest v ≠ .ok .none ∧ Restorable t v
  | .tuple ts, .tuple vs => RestorableAll ts vs
  | .vec t, .list vs => ∀ v ∈ vs, Restorable t v
  | .array t length, .list vs => vs.length = length ∧ ∀ v ∈ vs, Restorable t v
  | .map key value, .map es =>
    (∀ ps, toGuestEntries es = .ok ps → DistinctKeys (ps.map Prod.fst)) ∧
      ∀ e ∈ es, Restorable key e.1 ∧ Restorable value e.2
  | .set t, .set vs =>
    (∀ os, toGuestAll vs = .ok os → DistinctKeys os) ∧ ∀ v ∈ vs, Restorable t v
  | .union ts, .variant index v => RestorableAt ts index v
  | _, _ => False

def RestorableAll : List Native → List (Value F) → Prop
  | [], [] => True
  | t :: ts, v :: vs => Restorable t v ∧ RestorableAll ts vs
  | _, _ => False

def RestorableAt : List Native → Nat → Value F → Prop
  | t :: _, 0, v => Restorable t v
  | t :: ts, index + 1, v =>
    (∀ o, toGuest v = .ok o → Refuses (fit engine code t o)) ∧ RestorableAt ts index v
  | [], _, _ => False

end

end Restorable

section Given

variable [Floats F]

/-- The guest is given the object for the value. -/
def Gives (v : Value F) (o : Obj F) : Prop := toGuest v = .ok o

theorem toGuestAll_ok {vs : List (Value F)} {os : List (Obj F)} (h : toGuestAll vs = .ok os) :
    List.Forall₂ Gives vs os := by
  induction vs generalizing os with
  | nil =>
    cases h
    exact .nil
  | cons v vs ih =>
    obtain ⟨o, ho, h⟩ := bind_eq_ok.mp h
    obtain ⟨os', hos, h⟩ := bind_eq_ok.mp h
    cases h
    exact .cons ho (ih hos)

theorem toGuestEntries_ok {es : List (Value F × Value F)} {ps : List (Obj F × Obj F)}
    (h : toGuestEntries es = .ok ps) :
    List.Forall₂ (fun e p => Gives e.1 p.1 ∧ Gives e.2 p.2) es ps := by
  induction es generalizing ps with
  | nil =>
    cases h
    exact .nil
  | cons e es ih =>
    obtain ⟨k, hk, h⟩ := bind_eq_ok.mp h
    obtain ⟨v, hv, h⟩ := bind_eq_ok.mp h
    obtain ⟨ps', hps, h⟩ := bind_eq_ok.mp h
    cases h
    exact .cons ⟨hk, hv⟩ (ih hps)

theorem addAll_distinct {xs os ys : List (Obj F)} (hd : DistinctKeys (xs ++ os))
    (h : Obj.addAll xs os = .ok ys) : ys = xs ++ os := by
  induction os generalizing xs with
  | nil =>
    cases h
    simp
  | cons o os ih =>
    have hnew : xs.any (·.eqv o) = false := by
      rw [List.any_eq_false]
      intro x hx
      rw [DistinctKeys, List.pairwise_append] at hd
      simp [hd.2.2 x hx o List.mem_cons_self]
    rw [Obj.addAll, hnew] at h
    split at h
    · have := ih (by simpa using hd) h
      simpa using this
    · cases h

end Given

/-! ## Following the search -/

section Follow

variable [Floats F] {engine : Engine} {code : Code σ F}

theorem found_items {t : Native} {vs : List (Value F)} {os : List (Obj F)}
    (h : List.Forall₂ Gives vs os)
    (hfind : ∀ v ∈ vs, ∀ o, Gives v o → Finds (fit engine code t o) v) :
    Finds (eachItem (fit engine code t) os) vs := by
  refine Finds.eachItem ?_
  induction h with
  | nil => exact .nil
  | cons ho _ ih =>
    exact .cons (hfind _ List.mem_cons_self _ ho)
      (ih fun v hv => hfind v (List.mem_cons_of_mem _ hv))

theorem found_pairs {key value : Native} {es : List (Value F × Value F)}
    {ps : List (Obj F × Obj F)}
    (h : List.Forall₂ (fun e p => Gives e.1 p.1 ∧ Gives e.2 p.2) es ps)
    (hkey : ∀ e ∈ es, ∀ o, Gives e.1 o → Finds (fit engine code key o) e.1)
    (hvalue : ∀ e ∈ es, ∀ o, Gives e.2 o → Finds (fit engine code value o) e.2) :
    Finds (eachItem (pairOf (fit engine code key) (fit engine code value)) ps) es := by
  refine Finds.eachItem ?_
  induction h with
  | nil => exact .nil
  | cons ho _ ih =>
    refine .cons ?_ (ih (fun e he => hkey e (List.mem_cons_of_mem _ he))
      fun e he => hvalue e (List.mem_cons_of_mem _ he))
    exact (hkey _ List.mem_cons_self _ ho.1).bind
      ((hvalue _ List.mem_cons_self _ ho.2).bind (Finds.pure _))

omit [Floats F] in
theorem found_int {k : IntType} (narrow : k.isNarrow = true) {n : Int} (h : k.fits n = true) :
    Finds (fitInt k (.int n : Obj F) : Search σ Err (Value F)) (.int n) := by
  have hin : (k.signed && !IntType.i64.fits n) = false := by
    cases hsigned : k.signed with
    | false => rfl
    | true => simp [IntType.fits_i64_of_signed narrow hsigned h]
  simp only [fitInt, Obj.index, hin, h, Bool.false_eq_true, if_false, if_true]
  exact Finds.pure _

mutual

/-- What was given to the guest fits its own type as the value it was. -/
theorem fit_toGuest : ∀ {t : Native} {v : Value F}, Restorable engine code t v →
    ∀ o, Gives v o → Finds (fit engine code t o) v
  | .unit, .unit, _, o, ho => by
    cases ho
    exact Finds.pure _
  | .bool, .bool b, _, o, ho => by
    cases ho
    exact Finds.pure _
  | .int k narrow, .int n, h, o, ho => by
    cases ho
    exact found_int narrow h
  | .f32, .float x, h, o, ho => by
    cases ho
    have hx : Floats.single x = x := h
    have hfound := Finds.pure (σ := σ) (ε := Err) (Value.float x)
    simpa [fit, fitFloat, hx] using hfound
  | .f64, .float x, _, o, ho => by
    cases ho
    exact Finds.pure _
  | .char, .char c, _, o, ho => by
    cases ho
    exact Finds.pure _
  | .string, .str s, _, o, ho => by
    cases ho
    exact Finds.pure _
  | .bytes, .bytes b, _, o, ho => by
    cases ho
    exact Finds.pure _
  | .option t, .none, _, o, ho => by
    cases ho
    exact Finds.pure _
  | .option t, .some v, ⟨hne, h⟩, o, ho => by
    have hv : Gives v o := by simpa [Gives, toGuest] using ho
    have hfind := (fit_toGuest h o hv).bind (g := fun v => Pure.pure (Value.some v))
      (Finds.pure (Value.some v))
    cases o with
    | none => exact absurd hv hne
    | _ => exact hfind
  | .tuple ts, .tuple vs, h, o, ho => by
    obtain ⟨os, hos, ho⟩ := bind_eq_ok.mp (by simpa only [Gives, toGuest] using ho)
    cases ho
    obtain ⟨hlength, hfind⟩ := fitAll_toGuest h os (toGuestAll_ok hos)
    simp only [fit, hlength, if_true]
    exact hfind.bind (Finds.pure _)
  | .vec t, .list vs, h, o, ho => by
    obtain ⟨os, hos, ho⟩ := bind_eq_ok.mp (by simpa only [Gives, toGuest] using ho)
    cases ho
    have hfind := found_items (toGuestAll_ok hos) fun v hv => fit_toGuest (h v hv)
    exact hfind.bind (Finds.pure _)
  | .array t length, .list vs, ⟨hlength, h⟩, o, ho => by
    obtain ⟨os, hos, ho⟩ := bind_eq_ok.mp (by simpa only [Gives, toGuest] using ho)
    cases ho
    have hsame := (toGuestAll_ok hos).length_eq
    have hfind := found_items (toGuestAll_ok hos) fun v hv => fit_toGuest (h v hv)
    simp only [fit, ← hsame, hlength, if_true]
    exact hfind.bind (Finds.pure _)
  | .map key value, .map es, ⟨hd, h⟩, o, ho => by
    obtain ⟨ps, hps, ho⟩ := bind_eq_ok.mp (by simpa only [Gives, toGuest] using ho)
    have ho := dict_distinct (hd ps hps) ho
    subst ho
    have hfind := found_pairs (toGuestEntries_ok hps) (fun e he => fit_toGuest (h e he).1)
      fun e he => fit_toGuest (h e he).2
    exact hfind.bind (Finds.pure _)
  | .set t, .set vs, ⟨hd, h⟩, o, ho => by
    obtain ⟨os, hos, ho⟩ := bind_eq_ok.mp (by simpa only [Gives, toGuest] using ho)
    obtain ⟨ys, hys, ho⟩ := bind_eq_ok.mp ho
    cases ho
    have hys := addAll_distinct (by simpa using hd os hos) hys
    simp only [List.nil_append] at hys
    subst hys
    have hfind := found_items (toGuestAll_ok hos) fun v hv => fit_toGuest (h v hv)
    exact hfind.bind (Finds.pure _)
  | .union ts, .variant index v, h, o, ho => by
    have hv : Gives v o := by simpa [Gives, toGuest] using ho
    have hfind := fitFirst_toGuest h 0 o hv
    simpa [fit] using hfind

theorem fitAll_toGuest : ∀ {ts : List Native} {vs : List (Value F)},
    RestorableAll engine code ts vs → ∀ os, List.Forall₂ Gives vs os →
      os.length = ts.length ∧ Finds (fitAll engine code ts os) vs
  | [], [], _, _, .nil => ⟨rfl, Finds.pure _⟩
  | _ :: _, _ :: _, ⟨h, hs⟩, _, .cons ho hos => by
    obtain ⟨hlength, hfind⟩ := fitAll_toGuest hs _ hos
    exact ⟨by simp [hlength], (fit_toGuest h _ ho).bind (hfind.bind (Finds.pure _))⟩

theorem fitFirst_toGuest : ∀ {ts : List Native} {index : Nat} {v : Value F},
    RestorableAt engine code ts index v → ∀ (start : Nat) (o : Obj F), Gives v o →
      Finds (fitFirst engine code ts start o) (.variant (start + index) v)
  | _ :: _, 0, v, h, start, o, ho => by
    have hfind := (fit_toGuest h o ho).bind (g := fun v => Pure.pure (Value.variant start v))
      (Finds.pure (Value.variant start v))
    exact hfind.first
  | _ :: _, index + 1, v, ⟨hrefuses, h⟩, start, o, ho => by
    have hnext := fitFirst_toGuest h (start + 1) o ho
    rw [show start + 1 + index = start + (index + 1) by omega] at hnext
    exact Finds.next (hrefuses o ho).bind hnext

end

/-! ## Decoding a union -/

/-- The search for the first variant comes to a value whose conversion raises an exception of the
interpreter. -/
def Blocked (engine : Engine) (code : Code σ F) (t : Native) (o : Obj F) (s : σ) : Prop :=
  (fit engine code t o (s, false)).2.2 = true

/-- A union decodes to the first variant that fits, and a value that was given to the guest to
itself, exactly if the search is not blocked. -/
theorem decodes_iff (engine : Engine) (code : Code σ F) (ts : List Native) (o : Obj F) (s : σ) :
    (Agrees isConversion IsSlip (fromGuest engine code (.union ts) o s)
        (fit engine code (.union ts) o (s, false)) ∧
      ∀ index v, Restorable engine code (.union ts) (.variant index v) → toGuest v = .ok o →
        (fromGuest engine code (.union ts) o s).1 = .ok (.variant index v)) ↔
      ¬ Blocked engine code (.union ts) o s := by
  have hsim := (fromGuest_sim engine code (.union ts) o).agrees_iff s
  rw [Blocked, Bool.not_eq_true, ← hsim]
  constructor
  · exact fun h => h.1
  · intro hagrees
    refine ⟨hagrees, fun index v hv ho => ?_⟩
    have hfound := fit_toGuest hv o (by simpa [Gives, toGuest] using ho) (s, false)
    obtain ⟨-, hend⟩ := hagrees
    rw [hfound] at hend
    split at hend
    · rename_i heq heq'
      cases heq'
      rw [heq, hend]
    · rename_i heq'
      cases heq'
    · rename_i heq'
      cases heq'
    · rename_i heq'
      cases heq'
    · rename_i heq'
      cases heq'
    · cases hend

/-- No class of the guest can be iterated, or has keys. -/
def Code.inert : Code Unit Int where
  fuel := 0
  hasAttr _ _ s := (false, s)
  iter _ := Host.throw "TypeError"
  next _ := Host.throw "TypeError"
  keys _ := Host.throw "AttributeError"
  getItem _ _ := Host.throw "TypeError"
  chars _ := []

/-- An integer that fits the second variant is too large for the first one to read. -/
theorem stops_before_fit :
    ¬ ∀ (engine : Engine) (code : Code Unit Int) (ts : List Native) (o : Obj Int) (s : Unit),
      Agrees isConversion IsSlip (fromGuest engine code (.union ts) o s)
        (fit engine code (.union ts) o (s, false)) := by
  intro h
  have hend := (h .cpython Code.inert [.int .i64 rfl, .int .u64 rfl] (.int (2 ^ 63)) ()).2
  have hfit : (fit .cpython Code.inert (.union [.int .i64 rfl, .int .u64 rfl])
      (.int (2 ^ 63) : Obj Int) ((), false)).1 = .ok (.variant 1 (.int (2 ^ 63))) := rfl
  have hfails : (fromGuest .cpython Code.inert (.union [.int .i64 rfl, .int .u64 rfl])
      (.int (2 ^ 63) : Obj Int) ()).1 = .err (Obj.raise "OverflowError") := rfl
  rw [hfit, hfails] at hend
  exact hend

end Follow

end GuestPy.Marshal
