import GuestPy.Host.Calls

/-!
# One type object for each host class

Whoever asks for a class of a runtime is to get the same type object, and to get an answer at
all. A class is entered in the cache when it is finished, so a request that is made before
that begins a realisation of its own.

* `Single` is the invariant: as long as no class is requested while a realisation of it is
  underway, an answer that was given is the one in the cache, and realisations do not nest twice.
* `Onward` is what a computation guarantees to its caller: the realisations that are underway
  are those that were, and the cache has nothing new for them.
* `oneClass_of_afresh`: under that condition there is one type object for each class, and
  requests end.
* `not_oneClass_of_own_constant` is a class that has a constant of its own type.
-/

namespace GuestPy.Classes

/-- The type object of a class, without those of its bases. -/
def classObject (answer : Lineage) : Option Nat := answer.head?.map HostClass.id

namespace Request

/-- Answers to requests for one class are one type object. -/
def Agrees : Request → Request → Prop
  | answered payload answer, answered payload' answer' =>
    payload = payload' → classObject answer = classObject answer'
  | _, _ => True

/-- The class is not requested while a realisation of it is underway. -/
def Afresh : Request → Prop
  | made _ underway => underway = false
  | answered _ _ => True

instance : ∀ r r' : Request, Decidable (r.Agrees r')
  | answered payload answer, answered payload' answer' =>
    inferInstanceAs (Decidable (payload = payload' → classObject answer = classObject answer'))
  | answered .., made .. => inferInstanceAs (Decidable True)
  | made .., _ => inferInstanceAs (Decidable True)

instance : DecidablePred Afresh
  | made _ underway => inferInstanceAs (Decidable (underway = false))
  | answered _ _ => inferInstanceAs (Decidable True)

end Request

def OneClass (w : World) : Prop := ∀ r ∈ w.requests, ∀ r' ∈ w.requests, r.Agrees r'

def Afresh (w : World) : Prop := ∀ r ∈ w.requests, r.Afresh

instance (w : World) : Decidable (OneClass w) :=
  inferInstanceAs (Decidable (∀ r ∈ w.requests, ∀ r' ∈ w.requests, r.Agrees r'))

instance (w : World) : Decidable (Afresh w) :=
  inferInstanceAs (Decidable (∀ r ∈ w.requests, r.Afresh))

/-! ## Code that requests classes -/

def Op.isRequest : Op → Bool
  | .import .. => true
  | .registered .. => true
  | _ => false

def Call.isRaise : Call → Bool
  | .raise _ => true
  | _ => false

/-- A program that does nothing but request classes. -/
def Requesting {α : Type} : Prog Op (Reply Err Unit) α → Prop
  | .ret _ => True
  | .call op next => op.isRequest = true ∧ ∀ r, Requesting (next r)

/-- Code that requests classes while others are realised. Raising an error runs none of it. -/
structure Requests (code : Code) : Prop where
  requesting : ∀ w c, Requesting (code w c)
  raising : ∀ w c, c.isRaise = true → ∃ a, code w c = .ret a

/-- Whatever is requested gets an answer or an error, as long as no class is requested while a
realisation of it is underway. -/
def RequestsEnd (w : World) : Prop :=
  ∃ depth, ∀ (code : Code) (op : Op) (fuel : Nat), Requests code → op.isRequest = true →
    depth ≤ fuel → Afresh (classes.perform code fuel op w).2 →
      (classes.perform code fuel op w).1 ≠ .stuck

/-! ## The invariant -/

/-- What the cache has for a class. -/
def realisedAs (w : World) (payload : Nat) : Option Lineage :=
  (w.classes payload).bind InternedEntry.realised

/-- As long as all requests are made afresh, answers come from the cache, and realisations that
are underway are of different classes. All classes that are declared are `known`. -/
structure Single (known : Nat → Prop) (w : World) : Prop where
  answered : Afresh w → ∀ payload answer, .answered payload answer ∈ w.requests →
    realisedAs w payload = some answer
  nodup : Afresh w → w.realising.Nodup
  registered : ∀ payload ∈ w.realising, (w.classes payload).isSome = true
  declared : ∀ payload, (w.classes payload).isSome = true → known payload
  finite : ∃ all : List Nat, ∀ payload, (w.classes payload).isSome = true → payload ∈ all

/-- What a computation guarantees to its caller. -/
structure Onward (w w' : World) : Prop where
  realising : w'.realising = w.realising
  requests : w.requests <:+ w'.requests
  registered : ∀ payload, (w.classes payload).isSome = true → (w'.classes payload).isSome = true
  kept : Afresh w' → ∀ payload answer, realisedAs w payload = some answer →
    realisedAs w' payload = some answer
  underway : Afresh w' → ∀ payload ∈ w.realising, realisedAs w' payload = realisedAs w payload

theorem Afresh.of_suffix {w w' : World} (h : Afresh w') (hs : w.requests <:+ w'.requests) :
    Afresh w := fun r hr => h r (hs.subset hr)

theorem Onward.refl (w : World) : Onward w w where
  realising := rfl
  requests := List.suffix_refl _
  registered _ h := h
  kept _ _ _ h := h
  underway _ _ _ := rfl

theorem Onward.trans {w w' w'' : World} (h : Onward w w') (h' : Onward w' w'') :
    Onward w w'' where
  realising := h'.realising.trans h.realising
  requests := h.requests.trans h'.requests
  registered payload hp := h'.registered payload (h.registered payload hp)
  kept hfresh payload answer hp :=
    h'.kept hfresh payload answer (h.kept (hfresh.of_suffix h'.requests) payload answer hp)
  underway hfresh payload hp :=
    (h'.underway hfresh payload (h.realising ▸ hp)).trans
      (h.underway (hfresh.of_suffix h'.requests) payload hp)

def singleDiscipline (known : Nat → Prop) : Discipline World where
  inv := Single known
  future := Onward
  unwound _ := True
  refl := Onward.refl
  trans := Onward.trans

/-- As `Keeps`, and the fuel is used up only by code that is `free`, or after a class was
requested while a realisation of it was underway. -/
abbrev Sure {α : Type} (known : Nat → Prop) (free : Prop) (w : World) (m : Host World Err α)
    (Q : α → World → Prop) : Prop :=
  Ends (singleDiscipline known) w m Q (fun _ => True) fun w' => Afresh w' → free

section Updates

variable {known : Nat → Prop} {w w' : World} {payload : Nat}

/-- The invariant reads the cache, the realisations and the requests only. -/
theorem Single.congr (h : Single known w) (hc : w'.classes = w.classes)
    (hr : w'.realising = w.realising) (hq : w'.requests = w.requests) : Single known w' := by
  obtain ⟨runtime, classes, objects, makers, realising, requests, obtained, events, calls⟩ := w'
  subst hc hr hq
  exact ⟨h.answered, h.nodup, h.registered, h.declared, h.finite⟩

theorem Onward.congr (hc : w'.classes = w.classes) (hr : w'.realising = w.realising)
    (hq : w'.requests = w.requests) : Onward w w' := by
  have hrealised : ∀ payload, realisedAs w' payload = realisedAs w payload := fun payload =>
    congrArg (fun c => (c payload).bind InternedEntry.realised) hc
  exact
    { realising := hr
      requests := hq ▸ List.suffix_refl _
      registered := fun _ h => hc ▸ h
      kept := fun _ payload _ h => (hrealised payload).trans h
      underway := fun _ payload _ => hrealised payload }

theorem single_request (h : Single known w) : Single known (w.request payload) := by
  have hsuffix : w.requests <:+ (w.request payload).requests := List.suffix_cons _ _
  exact
    { answered := fun hfresh q answer hq => by
        rcases List.mem_cons.1 hq with hq | hq
        · cases hq
        · exact h.answered (hfresh.of_suffix hsuffix) q answer hq
      nodup := fun hfresh => h.nodup (hfresh.of_suffix hsuffix)
      registered := h.registered
      declared := h.declared
      finite := h.finite }

theorem onward_request : Onward w (w.request payload) :=
  { Onward.refl w with
    requests := List.suffix_cons _ _
    kept := fun _ _ _ h => h
    underway := fun _ _ _ => rfl }

/-- A class that is requested afresh is not being realised. -/
theorem not_underway (h : Afresh (w.request payload)) : payload ∉ w.realising := by
  intro hmem
  have hfresh : w.realising.contains payload = false := h _ List.mem_cons_self
  rw [List.contains_iff_mem.2 hmem] at hfresh
  cases hfresh

theorem single_answer {answer : Lineage} (ha : Afresh w → realisedAs w payload = some answer)
    (h : Single known w) : Single known (w.answer payload answer) := by
  have hsuffix : w.requests <:+ (w.answer payload answer).requests := List.suffix_cons _ _
  exact
    { answered := fun hfresh q answer' hq => by
        have hbefore : Afresh w := hfresh.of_suffix hsuffix
        rcases List.mem_cons.1 hq with hq | hq
        · cases hq
          exact ha hbefore
        · exact h.answered hbefore q answer' hq
      nodup := fun hfresh => h.nodup (hfresh.of_suffix hsuffix)
      registered := h.registered
      declared := h.declared
      finite := h.finite }

theorem onward_answer (answer : Lineage) : Onward w (w.answer payload answer) :=
  { Onward.refl w with
    requests := List.suffix_cons _ _
    kept := fun _ _ _ h => h
    underway := fun _ _ _ => rfl }

theorem single_setOut (hp : Afresh w → payload ∉ w.realising)
    (hregistered : (w.classes payload).isSome = true) (h : Single known w) :
    Single known (w.setOut payload) where
  answered := h.answered
  nodup hfresh := List.nodup_cons.2 ⟨hp hfresh, h.nodup hfresh⟩
  registered q hq := by
    rcases List.mem_cons.1 hq with rfl | hq
    · exact hregistered
    · exact h.registered q hq
  declared := h.declared
  finite := h.finite

theorem single_arrive (h : Single known w) : Single known w.arrive where
  answered := h.answered
  nodup hfresh := (h.nodup hfresh).sublist (List.tail_sublist _)
  registered q hq := h.registered q (List.mem_of_mem_tail hq)
  declared := h.declared
  finite := h.finite

/-- A realisation that comes to its end was underway by itself. -/
theorem Onward.arrive {t : World} (h : Onward (w.setOut payload) t) :
    Onward w t.arrive where
  realising := congrArg List.tail h.realising
  requests := h.requests
  registered := h.registered
  kept := h.kept
  underway hfresh q hq := h.underway hfresh q (List.mem_cons_of_mem _ hq)

theorem realisedAs_setRealised {answer : Lineage} (h : (w.classes payload).isSome = true) :
    realisedAs (w.setRealised payload answer) payload = some answer := by
  obtain ⟨entry, hentry⟩ := Option.isSome_iff_exists.1 h
  show (Function.update w.classes payload _ payload).bind _ = _
  rw [Function.update_self, hentry]
  rfl

theorem realisedAs_setRealised_of_ne {answer : Lineage} {q : Nat} (h : q ≠ payload) :
    realisedAs (w.setRealised payload answer) q = realisedAs w q := by
  show (Function.update w.classes payload _ q).bind _ = _
  rw [Function.update_of_ne h]
  rfl

theorem isSome_setRealised {answer : Lineage} (q : Nat) :
    ((w.setRealised payload answer).classes q).isSome = (w.classes q).isSome := by
  show (Function.update w.classes payload _ q).isSome = _
  by_cases hq : q = payload
  · subst hq
    rw [Function.update_self, Option.isSome_map]
  · rw [Function.update_of_ne hq]

/-- A class that is finished is entered in the cache. -/
theorem single_setRealised {answer : Lineage} (hnone : Afresh w → realisedAs w payload = none)
    (h : Single known w) : Single known (w.setRealised payload answer) where
  answered hfresh q answer' hq := by
    have hbefore := h.answered hfresh q answer' hq
    have hne : q ≠ payload := by
      rintro rfl
      rw [hnone hfresh] at hbefore
      cases hbefore
    exact (realisedAs_setRealised_of_ne hne).trans hbefore
  nodup := h.nodup
  registered q hq := (isSome_setRealised q).trans (h.registered q hq)
  declared q hq := h.declared q ((isSome_setRealised q).symm.trans hq)
  finite := by
    obtain ⟨all, hall⟩ := h.finite
    exact ⟨all, fun q hq => hall q ((isSome_setRealised q).symm.trans hq)⟩

theorem onward_setRealised {answer : Lineage} (hnone : Afresh w → realisedAs w payload = none)
    (hp : Afresh w → payload ∉ w.realising) : Onward w (w.setRealised payload answer) where
  realising := rfl
  requests := List.suffix_refl _
  registered q hq := (isSome_setRealised q).trans hq
  kept hfresh q answer' hq := by
    have hne : q ≠ payload := by
      rintro rfl
      rw [hnone hfresh] at hq
      cases hq
    exact (realisedAs_setRealised_of_ne hne).trans hq
  underway hfresh q hq := by
    have hne : q ≠ payload := by
      rintro rfl
      exact hp hfresh hq
    exact realisedAs_setRealised_of_ne hne

/-- Declaring classes realises none. -/
theorem intern_spec (classes : Nat → Option InternedEntry) (spec : ClassSpec) (q : Nat) :
    ((World.intern classes spec q).bind InternedEntry.realised =
        (classes q).bind InternedEntry.realised) ∧
      ((classes q).isSome = true → (World.intern classes spec q).isSome = true) ∧
        ((World.intern classes spec q).isSome = true →
          (classes q).isSome = true ∨ q = spec.payload) := by
  unfold World.intern
  split
  · exact ⟨rfl, id, Or.inl⟩
  · next hnone =>
    by_cases hq : q = spec.payload
    · subst hq
      rw [Function.update_self]
      rw [Option.not_isSome_iff_eq_none.1 hnone]
      exact ⟨rfl, nofun, fun _ => Or.inr rfl⟩
    · rw [Function.update_of_ne hq]
      exact ⟨rfl, id, Or.inl⟩

theorem fold_intern_spec (specs : List ClassSpec) (classes : Nat → Option InternedEntry)
    (q : Nat) :
    ((specs.foldl World.intern classes q).bind InternedEntry.realised =
        (classes q).bind InternedEntry.realised) ∧
      ((classes q).isSome = true → (specs.foldl World.intern classes q).isSome = true) ∧
        ((specs.foldl World.intern classes q).isSome = true →
          (classes q).isSome = true ∨ q ∈ specs.map ClassSpec.payload) := by
  induction specs generalizing classes with
  | nil => exact ⟨rfl, id, Or.inl⟩
  | cons spec rest ih =>
    obtain ⟨hrealised, hsome, hback⟩ := ih (World.intern classes spec)
    obtain ⟨hrealised', hsome', hback'⟩ := intern_spec classes spec q
    refine ⟨hrealised.trans hrealised', fun h => hsome (hsome' h), fun h => ?_⟩
    rcases hback h with h | h
    · rcases hback' h with h | rfl
      · exact Or.inl h
      · exact Or.inr List.mem_cons_self
    · exact Or.inr (List.mem_cons_of_mem _ h)

theorem realisedAs_absorbClass (spec : ClassSpec) (q : Nat) :
    realisedAs (w.absorbClass spec) q = realisedAs w q :=
  (fold_intern_spec spec.hostLineage w.classes q).1

theorem isSome_absorbClass (spec : ClassSpec) {q : Nat} (h : (w.classes q).isSome = true) :
    ((w.absorbClass spec).classes q).isSome = true :=
  (fold_intern_spec spec.hostLineage w.classes q).2.1 h

theorem single_absorbClass (spec : ClassSpec) (hknown : ∀ payload, known payload)
    (h : Single known w) : Single known (w.absorbClass spec) where
  answered hfresh q answer hq :=
    (realisedAs_absorbClass spec q).trans (h.answered hfresh q answer hq)
  nodup := h.nodup
  registered q hq := isSome_absorbClass spec (h.registered q hq)
  declared q _ := hknown q
  finite := by
    obtain ⟨all, hall⟩ := h.finite
    refine ⟨all ++ spec.hostLineage.map ClassSpec.payload, fun q hq => ?_⟩
    apply List.mem_append.2
    exact ((fold_intern_spec spec.hostLineage w.classes q).2.2 hq).imp_left (hall q)

theorem onward_absorbClass (spec : ClassSpec) : Onward w (w.absorbClass spec) where
  realising := rfl
  requests := List.suffix_refl _
  registered _ := isSome_absorbClass spec
  kept _ q _ hq := (realisedAs_absorbClass spec q).trans hq
  underway _ q _ := realisedAs_absorbClass spec q

end Updates

/-! ## Realising -/

section Calls

variable {known : Nat → Prop} {free : Prop} {callout : Call → Host World Err Bool} {depth : Nat}
  {w : World}
  {g : GuestId} {α : Type} {Q : α → World → Prop}

theorem sure_modify {f : World → World} (hinv : Single known w → Single known (f w))
    (hfut : Onward w (f w)) :
    Sure known free w (Host.modify f) fun _ w' => w' = f w :=
  Ends.modify hinv hfut rfl

/-- An update that leaves the cache, the realisations and the requests as they are. -/
theorem sure_same {f : World → World} (hc : (f w).classes = w.classes)
    (hr : (f w).realising = w.realising) (hq : (f w).requests = w.requests) :
    Sure known free w (Host.modify f) fun _ _ => True :=
  Ends.modify (fun h => Single.congr h hc hr hq) (Onward.congr hc hr hq) trivial

/-- More realisations are underway than `depth`. -/
def Deep (depth : Nat) (w : World) : Prop := depth < w.realising.length

theorem Deep.later {w' : World} (h : Deep depth w) (hw : Onward w w') : Deep depth w' := by
  unfold Deep
  rw [hw.realising]
  exact h

section Realising

variable (hcall : ∀ c w, Deep depth w → Sure known free w (callout c) fun _ _ => True)

include hcall

theorem sure_callable (slot : Slot) (hw : Deep depth w) :
    Sure known free w (callable callout g slot) fun _ _ => True :=
  Ends.bind (hcall _ w hw) fun _ _ _ _ => Ends.pure trivial

theorem sure_accessor (present : Bool) (slot : Slot) (hw : Deep depth w) :
    Sure known free w (accessor callout g present slot) fun _ _ => True :=
  Ends.ite (fun _ => sure_callable hcall slot hw) fun _ => Ends.pure trivial

mutual

theorem sure_declaration (path : List String) (w : World) (hw : Deep depth w) :
    ∀ d : Declaration, Sure known free w (d.realise callout g path) fun _ _ => True
  | .method => sure_callable hcall _ hw
  | .classMethod => sure_callable hcall _ hw
  | .staticMethod => sure_callable hcall _ hw
  | .function => sure_callable hcall _ hw
  | .property get set del => by
    apply Ends.bind (sure_accessor hcall get _ hw)
    intro getter w1 h1 _
    apply Ends.bind (sure_accessor hcall set _ (hw.later h1))
    intro setter w2 h2 _
    apply Ends.bind (sure_accessor hcall del _ ((hw.later h1).later h2))
    intro deleter w3 h3 _
    apply Ends.bind (hcall _ w3 (((hw.later h1).later h2).later h3))
    exact fun _ _ _ _ => Ends.pure trivial
  | .value => Ends.bind (hcall _ w hw) fun _ _ _ _ => Ends.pure trivial
  | .object members => by
    apply Ends.bind (sure_namespace path w hw members)
    intro bodies w1 h1 _
    exact Ends.bind (hcall _ w1 (hw.later h1)) fun _ _ _ _ => Ends.pure trivial

theorem sure_namespace (path : List String) (w : World) (hw : Deep depth w) :
    ∀ members : Namespace, Sure known free w (members.realise callout g path) fun _ _ => True
  | .nil => Ends.pure trivial
  | .cons name member rest => by
    apply Ends.bind (sure_declaration (path ++ [name]) w hw member)
    intro bodies w1 h1 _
    apply Ends.bind (hcall _ w1 (hw.later h1))
    intro _ w2 h2 _
    apply Ends.bind (sure_namespace path w2 ((hw.later h1).later h2) rest)
    exact fun _ _ _ _ => Ends.pure trivial

end

namespace ClassRealiser

theorem sure_create (payload : Nat) (name : String) (members statics : Namespace)
    (bases : Lineage) (hw : Deep depth w) :
    Sure known free w (create callout g payload name members statics bases) fun _ _ => True := by
  apply Ends.bind (hcall _ w hw)
  intro _ w1 h1 _
  have hw1 : Deep depth w1 := hw.later h1
  apply Ends.bind (hcall _ w1 hw1)
  intro _ w2 h2 _
  have hw2 : Deep depth w2 := hw1.later h2
  apply Ends.bind (sure_namespace hcall [] w2 hw2 members)
  intro bodies w3 h3 _
  have hw3 : Deep depth w3 := hw2.later h3
  apply Ends.bind (hcall _ w3 hw3)
  intro _ w4 h4 _
  have hw4 : Deep depth w4 := hw3.later h4
  apply Ends.bind (hcall _ w4 hw4)
  intro _ w5 h5 _
  have hw5 : Deep depth w5 := hw4.later h5
  apply Ends.bind (sure_callable hcall .new hw5)
  intro new w6 h6 _
  have hw6 : Deep depth w6 := hw5.later h6
  apply Ends.bind (hcall _ w6 hw6)
  intro _ w7 h7 _
  have hw7 : Deep depth w7 := hw6.later h7
  apply Ends.bind (sure_callable hcall .init hw7)
  intro init w8 h8 _
  have hw8 : Deep depth w8 := hw7.later h8
  apply Ends.bind (hcall _ w8 hw8)
  intro _ w9 h9 _
  have hw9 : Deep depth w9 := hw8.later h9
  apply Ends.bind (hcall _ w9 hw9)
  intro _ w10 h10 _
  have hw10 : Deep depth w10 := hw9.later h10
  apply Ends.get
  apply Ends.bind (sure_same (f := World.make g) rfl rfl rfl)
  rintro _ w11 h11 -
  apply Ends.bind (sure_namespace hcall [] w11 (hw10.later h11) statics)
  exact fun _ _ _ _ => Ends.pure trivial

omit hcall in
theorem sure_answer {payload : Nat} {lineage : Lineage}
    (hl : Afresh w → realisedAs w payload = some lineage) :
    Sure known free w (answer payload lineage) fun _ _ => True :=
  Ends.bind (sure_modify (single_answer hl) (onward_answer lineage)) fun _ _ _ _ =>
    Ends.pure trivial

omit hcall in
/-- While a realisation is underway, the cache gets nothing for its class. -/
theorem sure_underway {payload : Nat} {m : Host World Err α}
    (hp : Afresh w → payload ∉ w.realising) (hregistered : (w.classes payload).isSome = true)
    (hnone : realisedAs w payload = none)
    (hm : Sure known free (w.setOut payload) m fun _ _ => True) :
    Sure known free w (underway payload m) fun _ w' =>
      (Afresh w' → realisedAs w' payload = none) ∧ (w'.classes payload).isSome = true ∧
        (Afresh w' → payload ∉ w'.realising) := by
  refine Ends.guarded rfl (single_setOut hp hregistered) hm ?_ ?_ (fun _ h => h)
    (fun _ _ => trivial) fun _ h => h
  · exact fun t ht hlater => ⟨single_arrive ht, hlater.arrive⟩
  · intro _ t hlater _
    have harrive : Onward w t.arrive := hlater.arrive
    refine ⟨fun hfresh => ?_, harrive.registered payload hregistered, fun hfresh => ?_⟩
    · exact (hlater.underway hfresh payload List.mem_cons_self).trans hnone
    · rw [harrive.realising]
      exact hp (hfresh.of_suffix harrive.requests)

mutual

/-- A class that is requested afresh is realised once: nothing that runs meanwhile enters it in
the cache. -/
theorem sure_realise (w : World) (hw : depth ≤ w.realising.length) : ∀ spec : ClassSpec,
    Sure known free w (realise callout g spec) fun _ _ => True
  | .mk payload name bases members statics => by
    unfold realise
    apply Ends.bind (sure_modify single_request onward_request)
    rintro _ w1 - rfl
    apply Ends.assume
    intro hw1
    apply Ends.get
    rcases hentry : (w.request payload).classes payload with _ | entry
    · exact Ends.throw trivial
    have hregistered : ((w.request payload).classes payload).isSome = true := by
      rw [hentry]
      rfl
    have hcached : realisedAs (w.request payload) payload = entry.realised := by
      unfold realisedAs
      rw [hentry]
      rfl
    rcases hrealised : entry.realised with _ | lineage
    · simp only [hrealised]
      have hdeep : Deep depth ((w.request payload).setOut payload) := Nat.lt_succ_of_le hw
      have hmade : Sure known free ((w.request payload).setOut payload) (do
          let found ← ClassRealiser.bases callout g bases
          create callout g payload name members statics found) fun _ _ => True := by
        apply Ends.bind (sure_bases _ hdeep bases)
        intro found w2 h2 _
        exact sure_create hcall payload name members statics found (hdeep.later h2)
      apply Ends.bind (sure_underway (not_underway (w := w)) hregistered
        (hcached.trans hrealised) hmade)
      rintro lineage w2 - ⟨hnone, hsome, hout⟩
      apply Ends.bind (sure_modify (single_setRealised hnone) (onward_setRealised hnone hout))
      rintro _ w3 - rfl
      exact sure_answer fun _ => realisedAs_setRealised hsome
    · simp only [hrealised]
      exact sure_answer fun _ => hcached.trans hrealised

theorem sure_bases (w : World) (hw : Deep depth w) : ∀ specs : ClassBases,
    Sure known free w (bases callout g specs) fun _ _ => True
  | .nil => Ends.pure trivial
  | .host base rest => by
    apply Ends.bind (sure_realise w (Nat.le_of_lt hw) base)
    intro found w1 h1 _
    apply Ends.bind (sure_bases w1 (hw.later h1) rest)
    exact fun _ _ _ _ => Ends.pure trivial
  | .imported module qualname rest => by
    apply Ends.bind (hcall _ w hw)
    intro isClass w1 h1 _
    exact Ends.ite (fun _ => sure_bases w1 (hw.later h1) rest) fun _ => Ends.throw trivial

end

theorem sure_realiseRegistered (payload : Nat) (hw : depth ≤ w.realising.length) :
    Sure known free w (realiseRegistered callout g payload) fun _ _ => True := by
  apply Ends.get
  split
  · exact sure_realise hcall w hw _
  · exact Ends.throw trivial

end ClassRealiser

end Realising

/-! ## Entering -/

theorem sure_underToken {r : RuntimeInner} {m : Host World Err α}
    (hm : ∀ f, Sure known free (w.withRuntime f) m fun _ _ => True) :
    Sure known free w (underToken g r m) fun _ _ => True := by
  refine Ends.guarded rfl (fun h => Single.congr h rfl rfl rfl) (hm _) ?_ (fun _ _ _ h => h)
    (fun _ h => h) (fun _ h => h) fun _ h => h
  intro t ht hlater
  refine ⟨Single.congr ht rfl rfl rfl, ?_⟩
  have htake : Onward w (w.withRuntime fun _ => r) := Onward.congr rfl rfl rfl
  exact (htake.trans hlater).trans (Onward.congr rfl rfl rfl)

section Entering

variable (hraise : ∀ c w, c.isRaise = true → Sure known free w (callout c) fun _ _ => True)

include hraise

theorem sure_raise {e : Err} : Sure known free w (raise (α := α) callout e) fun _ _ => True :=
  Ends.bind (hraise _ w rfl) fun _ _ _ _ => Ends.throw trivial

theorem sure_guestEnterWith {inner : GuestInner} {m : Host World Err α}
    (hm : ∀ f, Sure known free (w.withRuntime f) m fun _ _ => True) :
    Sure known free w (guestEnterWith callout g inner m) fun _ _ => True := by
  apply Ends.get
  split
  · exact sure_raise hraise
  · apply sure_underToken
    intro f
    apply Ends.bind (Ends.attempt (R := fun _ _ => True) (Ends.mono (hm f)
      (fun _ _ _ _ => trivial) (fun _ _ _ _ => trivial) fun _ _ h => h))
    intro r _ _ _
    cases r with
    | ok a => exact Ends.pure trivial
    | error e => exact sure_raise hraise

omit hraise in
theorem sure_enter {m : Host World Err α}
    (hm : ∀ f, Sure known free (w.withRuntime f) m fun _ _ => True) :
    Sure known free w (enter g m) fun _ _ => True := by
  apply Ends.get
  split
  · exact Ends.throw trivial
  · refine Ends.ite (fun _ => Ends.throw trivial) fun _ => Ends.ite (fun _ => ?_) fun _ => ?_
    · exact hm id
    · split
      · exact Ends.throw trivial
      · exact sure_underToken hm

theorem sure_importClass {byHost : Bool} {m : Host World Err Lineage}
    (hm : ∀ f, Sure known free (w.withRuntime f) m fun _ _ => True) :
    Sure known free w (importClass callout g byHost m) fun _ _ => True := by
  have henter : Sure known free w (enterForImport callout g byHost m) fun _ _ => True := by
    apply Ends.ite
    · exact fun _ => sure_enter hm
    · intro _
      apply Ends.get
      split
      · exact sure_raise hraise
      · exact sure_guestEnterWith hraise hm
  apply Ends.bind henter
  intro lineage w' _ _
  exact sure_same rfl rfl rfl

end Entering

/-- A request for a class, made while `depth` realisations are underway. -/
theorem sure_request
    (hcall : ∀ c w, Deep depth w ∨ c.isRaise = true → Sure known free w (callout c) fun _ _ => True)
    {op : Op} (hop : op.isRequest = true) (hw : depth ≤ w.realising.length) :
    Sure known free w (performOp callout op) fun _ _ => True := by
  have hdeep : ∀ c w, Deep depth w → Sure known free w (callout c) fun _ _ => True :=
    fun c w h => hcall c w (Or.inl h)
  have hraise : ∀ c w, c.isRaise = true → Sure known free w (callout c) fun _ _ => True :=
    fun c w h => hcall c w (Or.inr h)
  cases op with
  | «import» g byHost spec =>
    exact sure_importClass hraise fun f =>
      ClassRealiser.sure_realise hdeep (w.withRuntime f) hw spec
  | registered g byHost payload =>
    exact sure_importClass hraise fun f =>
      ClassRealiser.sure_realiseRegistered hdeep (w := w.withRuntime f) payload hw
  | activity a => cases hop
  | absorb spec => cases hop
  | call caller i j k => cases hop

/-- Any operation, with code that is free. -/
theorem sure_performOp (hknown : ∀ payload, known payload)
    (hcall : ∀ c w, Sure known free w (callout c) fun _ _ => True) (op : Op) :
    Sure known free w (performOp callout op) fun _ _ => True := by
  have hlog : ∀ (e : Event) (w : World),
      Sure known free w (Host.modify (World.log e)) fun _ _ => True :=
    fun _ _ => sure_same rfl rfl rfl
  have hraise : ∀ c w, c.isRaise = true → Sure known free w (callout c) fun _ _ => True :=
    fun c w _ => hcall c w
  cases op with
  | activity a => exact sure_same rfl rfl rfl
  | absorb spec =>
    exact Ends.modify (single_absorbClass spec hknown) (onward_absorbClass spec) trivial
  | «import» g byHost spec => exact sure_request (fun c w _ => hcall c w) rfl (Nat.zero_le _)
  | registered g byHost payload =>
    exact sure_request (fun c w _ => hcall c w) rfl (Nat.zero_le _)
  | call caller i j k =>
    apply Ends.get
    split
    · refine Ends.ite (fun _ => Ends.pure trivial) fun _ => ?_
      split
      · exact Ends.pure trivial
      · split
        · exact Ends.pure trivial
        · apply Ends.get
          split
          · exact Ends.bind (hlog _ _) fun _ _ _ _ => sure_raise hraise
          · split
            · exact Ends.bind (hlog _ _) fun _ _ _ _ => sure_raise hraise
            · apply Ends.bind (hlog _ _)
              intro _ w1 _ _
              apply sure_guestEnterWith hraise
              exact fun f => Ends.bind (hcall _ _) fun _ _ _ _ => Ends.pure trivial
    · exact Ends.pure trivial

end Calls

/-! ## Runs -/

theorem single_tick {known : Nat → Prop} {w : World} (h : Single known w) :
    Single known w.tick :=
  h.congr rfl rfl rfl

theorem onward_tick (w : World) : Onward w w.tick := Onward.congr rfl rfl rfl

theorem single_new : Single (fun _ => True) World.new where
  answered _ _ _ h := nomatch h
  nodup _ := List.nodup_nil
  registered _ h := nomatch h
  declared _ _ := trivial
  finite := ⟨[], fun _ h => nomatch h⟩

theorem single_run (code : Code) (fuel : Nat) (script : Script) :
    Single (fun _ => True) (runScript code fuel script) := by
  have hperform : ∀ op w, Keeps (singleDiscipline fun _ => True) w
      (classes.perform code fuel op) fun _ _ => True :=
    System.keeps_perform (S := classes) (fun _ => single_tick) onward_tick
      (fun _ hcall op _ => (sure_performOp (fun _ => trivial)
        (fun c w => Ends.of_keeps (hcall c w) (fun _ => trivial) fun _ _ => trivial) op).1) fuel
  exact (System.keeps_run hperform script World.new single_new).1

/-! ### Requests end -/

section Depth

variable {known : List Nat} {code : Code} {depth : Nat}

/-- A program that requests classes, while enough of them are realised. -/
theorem sure_program {perform : Op → Host World Err Unit}
    (h : ∀ op w, op.isRequest = true → depth ≤ w.realising.length →
      Sure (· ∈ known) False w (perform op) fun _ _ => True)
    (p : Prog Op (Reply Err Unit) (Except Err Bool)) (hp : Requesting p) {w : World}
    (hw : depth ≤ w.realising.length) :
    Sure (· ∈ known) False w (p.run perform) fun _ _ => True := by
  induction p generalizing w with
  | ret a => exact Ends.pure trivial
  | call op next ih =>
    have hop : Sure (· ∈ known) False w (Host.observe (perform op)) fun _ _ => True :=
      Ends.observe (Ends.mono (h op w hp.1 hw) (fun _ _ _ _ => trivial) (fun _ _ _ _ => trivial)
        fun _ _ h => h) fun _ _ _ => trivial
    apply Ends.bind hop
    intro r w1 h1 _
    have hw1 : depth ≤ w1.realising.length := h1.realising ▸ hw
    exact ih r (hp.2 r) hw1

/-- Realisations nest at most as deep as there are classes, so a request runs out of fuel only
if one was made for a class that was being realised. -/
theorem sure_perform (hcode : Requests code) (fuel : Nat) {op : Op} (hop : op.isRequest = true)
    {w : World} (hfuel : known.length < fuel + w.realising.length) :
    Sure (· ∈ known) False w (classes.perform code fuel op) fun _ _ => True := by
  induction fuel generalizing op w with
  | zero =>
    apply Ends.assume
    intro hw
    apply Ends.stuck
    intro hfresh
    have hsub : w.realising ⊆ known := fun payload hp =>
      hw.declared payload (hw.registered payload hp)
    have hle := ((hw.nodup hfresh).subperm hsub).length_le
    omega
  | succ fuel ih =>
    refine sure_request (fun c w' hw' => ?_) hop (Nat.le_refl _)
    apply Ends.get
    apply Ends.bind (Ends.modify (R := fun _ w1 => Onward w' w1) single_tick (onward_tick w')
      (onward_tick w'))
    intro _ w1 h1 _
    apply Ends.bind (Q := fun _ _ => True)
    · rcases hw' with hdeep | hraise
      · have hdeep1 : w.realising.length + 1 ≤ w1.realising.length := h1.realising ▸ hdeep
        exact sure_program (fun op w2 hop hw2 => ih hop (by omega)) _ (hcode.requesting w' c)
          hdeep1
      · obtain ⟨a, ha⟩ := hcode.raising w' c hraise
        rw [ha]
        exact Ends.pure trivial
    · exact fun _ _ _ _ => Ends.ofExcept (fun _ _ => trivial) fun _ _ => trivial

end Depth

theorem requestsEnd_of_single {w : World} (h : Single (fun _ => True) w) : RequestsEnd w := by
  obtain ⟨all, hall⟩ := h.finite
  refine ⟨all.length + 1, fun code op fuel hcode hop hfuel hfresh hstuck => ?_⟩
  have hsingle : Single (· ∈ all) w := ⟨h.answered, h.nodup, h.registered, hall, h.finite⟩
  have hroom : all.length < fuel + w.realising.length := by omega
  exact ((sure_perform hcode fuel hop hroom).2 hsingle).2 hstuck hfresh

/-- **There is one type object for each class, and requests end, in every run in which no class
is requested while a realisation of it is underway.** -/
theorem oneClass_of_afresh (code : Code) (fuel : Nat) (script : Script)
    (h : Afresh (runScript code fuel script)) :
    OneClass (runScript code fuel script) ∧ RequestsEnd (runScript code fuel script) := by
  have hsingle := single_run code fuel script
  refine ⟨fun r hr r' hr' => ?_, requestsEnd_of_single hsingle⟩
  cases r with
  | made payload underway => trivial
  | answered payload answer =>
    cases r' with
    | made payload' underway => trivial
    | answered payload' answer' =>
      rintro rfl
      have hcached := hsingle.answered h payload answer hr
      rw [hsingle.answered h payload answer' hr'] at hcached
      rw [Option.some.inj hcached]

/-- Two guests import one class. -/
theorem oneClass_of_afresh_vector :
    OneClass (runScript idleCode 2 constructAfterDrop) ∧
      RequestsEnd (runScript idleCode 2 constructAfterDrop) :=
  oneClass_of_afresh idleCode 2 constructAfterDrop (by decide +kernel)

/-! ## A constant of its own type -/

def point : ClassSpec := .mk 0 "Point" .nil .nil (.cons "ORIGIN" .value .nil)

/-- The factory of the constant makes an instance of the class when it is called first. -/
def originCode : Code := fun w call =>
  match call with
  | .value g _ =>
    if w.realising.length ≤ 1 then
      .call (.registered g true 0) fun _ => .ret (.ok true)
    else
      .ret (.ok true)
  | _ => .ret (.ok true)

def importPoint : Script :=
  .call (.absorb point) fun _ =>
    .call (.activity (.build .new)) fun _ =>
      .call (.import (guest 0) true point) fun _ =>
        .ret ()

/-- The instance is not one of the class that the module gets. -/
theorem not_oneClass_of_own_constant :
    ¬ ∀ (code : Code) (fuel : Nat) (script : Script), OneClass (runScript code fuel script) := by
  intro h
  exact absurd (h originCode 2 importPoint) (by decide +kernel)

end GuestPy.Classes
