import GuestPy.Host.Class

/-!
# Whom the members of a host class run for

A callable of a host class runs for the guest that it was wrapped for, and that is the guest
whose import made the type object. Another guest that imports the class is handed the same
type object.

* `Sound` is the invariant: the callables of a type object are wrapped for the guest that
  it was made for, wherever the type object has got to.
* `runsForCaller_iff_madeForCaller` is the exact condition on a run: every member has to be
  called by the guest that its class was made for.
* `not_runsForCaller_of_dropped_maker` is a run in which a second guest is refused, because
  the first one is gone.
-/

namespace GuestPy.Classes

/-- The type object was made, and its callables are wrapped for the guest it was made for. -/
def Made (w : World) (c : HostClass) : Prop :=
  ∃ g, w.makers c.id = some g ∧ ∀ b ∈ c.bodies, b.guest = g

namespace Event

/-- The host body runs with an `Enter` for the guest whose code calls. -/
def RunsForCaller : Event → Prop
  | called caller _ _ _ outcome => outcome = .ok caller

/-- The class was made for the guest whose code calls, and that guest's own policy lets an
operation begin. -/
def MadeForCaller (makers : Nat → Option GuestId) : Event → Prop
  | called caller c _ admits _ => makers c.id = some caller ∧ admits = true

/-- What decides the outcome of a call. -/
def Lawful (w : World) : Event → Prop
  | called caller c body admits outcome =>
    Made w c ∧ body ∈ c.bodies ∧ (outcome = .ok caller ↔ body.guest = caller ∧ admits = true)

instance : DecidablePred RunsForCaller := fun (called caller _ _ _ outcome) =>
  match outcome with
  | .ok g => decidable_of_iff (g = caller) ⟨fun h => h ▸ rfl, Except.ok.inj⟩
  | .error _ => isFalse fun h => nomatch h

instance (makers : Nat → Option GuestId) : DecidablePred (MadeForCaller makers) :=
  fun (called _ _ _ _ _) => inferInstanceAs (Decidable (_ ∧ _))

end Event

/-! ## The invariant -/

/-- What is kept as realised was made. -/
def CacheMade (w : World) (classes : Nat → Option InternedEntry) : Prop :=
  ∀ payload entry lineage, classes payload = some entry →
    entry.realised = some lineage → ∀ c ∈ lineage, Made w c

structure Sound (w : World) : Prop where
  fresh : ∀ n, w.objects ≤ n → w.makers n = none
  cached : CacheMade w w.classes
  obtained : ∀ g, ∀ lineage ∈ w.obtained g, ∀ c ∈ lineage, Made w c
  events : ∀ e ∈ w.events, e.Lawful w

/-- Type objects stay, and the guests they were made for. -/
def Later (w w' : World) : Prop := ∀ n g, w.makers n = some g → w'.makers n = some g

def discipline : Discipline World where
  inv := Sound
  future := Later
  unwound _ := True
  refl _ _ _ h := h
  trans h h' n g hg := h' n g (h n g hg)

abbrev Safe {α : Type} (w : World) (m : Host World Err α) (Q : α → World → Prop) : Prop :=
  Keeps discipline w m Q

section Invariant

variable {w w' : World} {c : HostClass} {g : GuestId}

theorem Made.later (h : Made w c) (hw : Later w w') : Made w' c := by
  obtain ⟨g, hg, hb⟩ := h
  exact ⟨g, hw _ g hg, hb⟩

theorem Event.Lawful.later {e : Event} (h : e.Lawful w) (hw : Later w w') : e.Lawful w' := by
  obtain ⟨hm, hb, ho⟩ := h
  exact ⟨hm.later hw, hb, ho⟩

/-- The invariant reads the type objects, the cache and the events only. -/
theorem Sound.congr (h : Sound w) (ho : w'.objects = w.objects) (hm : w'.makers = w.makers)
    (hc : w'.classes = w.classes) (hg : w'.obtained = w.obtained)
    (he : w'.events = w.events) : Sound w' := by
  have hl : Later w w' := fun n g hn => by rw [hm]; exact hn
  constructor
  · rw [ho, hm]
    exact h.fresh
  · intro payload entry lineage hp hr c hcl
    rw [hc] at hp
    exact (h.cached payload entry lineage hp hr c hcl).later hl
  · intro g lineage hlin c hcl
    rw [hg] at hlin
    exact (h.obtained g lineage hlin c hcl).later hl
  · intro e hev
    rw [he] at hev
    exact (h.events e hev).later hl

theorem sound_withRuntime (f : RuntimeInner → RuntimeInner) (h : Sound w) :
    Sound (w.withRuntime f) :=
  h.congr rfl rfl rfl rfl rfl

theorem sound_request (payload : Nat) (h : Sound w) : Sound (w.request payload) :=
  h.congr rfl rfl rfl rfl rfl

theorem sound_answer (payload : Nat) (lineage : Lineage) (h : Sound w) :
    Sound (w.answer payload lineage) :=
  h.congr rfl rfl rfl rfl rfl

theorem sound_setOut (payload : Nat) (h : Sound w) : Sound (w.setOut payload) :=
  h.congr rfl rfl rfl rfl rfl

theorem sound_arrive (h : Sound w) : Sound w.arrive := h.congr rfl rfl rfl rfl rfl

theorem later_make (h : Sound w) : Later w (w.make g) := by
  intro n x hn
  have hne : n ≠ w.objects := by
    rintro rfl
    rw [h.fresh _ (Nat.le_refl _)] at hn
    cases hn
  exact (Function.update_of_ne hne ..).trans hn

/-- A new type object has a number of its own. -/
theorem sound_make (h : Sound w) : Sound (w.make g) where
  fresh n hn := by
    have hle : w.objects + 1 ≤ n := hn
    have hne : n ≠ w.objects := by omega
    exact (Function.update_of_ne hne ..).trans (h.fresh n (by omega))
  cached payload entry lineage hp hr c hc :=
    (h.cached payload entry lineage hp hr c hc).later (later_make h)
  obtained x lineage hl c hc := (h.obtained x lineage hl c hc).later (later_make h)
  events e he := (h.events e he).later (later_make h)

theorem sound_setRealised {payload : Nat} {lineage : Lineage} (h : Sound w)
    (hl : ∀ c ∈ lineage, Made w c) : Sound (w.setRealised payload lineage) where
  fresh := h.fresh
  cached p entry lineage' hp hr c hc := by
    have hu : Function.update w.classes payload _ p = some entry := hp
    by_cases hpp : p = payload
    · subst hpp
      rw [Function.update_self, Option.map_eq_some_iff] at hu
      obtain ⟨old, -, rfl⟩ := hu
      cases hr
      exact hl c hc
    · rw [Function.update_of_ne hpp] at hu
      exact h.cached p entry lineage' hu hr c hc
  obtained := h.obtained
  events := h.events

/-- Declaring a class realises nothing. -/
theorem sound_absorbClass (spec : ClassSpec) (h : Sound w) : Sound (w.absorbClass spec) where
  fresh := h.fresh
  cached := by
    have hintern : ∀ (classes : Nat → Option InternedEntry) (spec : ClassSpec),
        CacheMade w classes → CacheMade w (World.intern classes spec) := by
      intro classes spec hclasses p entry lineage hp hr
      unfold World.intern at hp
      split at hp
      · exact hclasses p entry lineage hp hr
      · by_cases hpp : p = spec.payload
        · subst hpp
          rw [Function.update_self] at hp
          cases hp
          cases hr
        · rw [Function.update_of_ne hpp] at hp
          exact hclasses p entry lineage hp hr
    have hfold : ∀ (specs : List ClassSpec) (classes : Nat → Option InternedEntry),
        CacheMade w classes → CacheMade w (specs.foldl World.intern classes) := by
      intro specs
      induction specs with
      | nil => exact fun _ hclasses => hclasses
      | cons spec rest ih => exact fun classes hclasses => ih _ (hintern classes spec hclasses)
    exact hfold spec.hostLineage w.classes h.cached
  obtained := h.obtained
  events := h.events

theorem sound_hand {lineage : Lineage} (h : Sound w) (hl : ∀ c ∈ lineage, Made w c) :
    Sound (w.hand g lineage) where
  fresh := h.fresh
  cached := h.cached
  obtained x lineage' hx c hc := by
    have hmem : lineage' ∈ Function.update w.obtained g (lineage :: w.obtained g) x := hx
    by_cases hxg : x = g
    · subst hxg
      rw [Function.update_self] at hmem
      rcases List.mem_cons.1 hmem with rfl | hold
      · exact hl c hc
      · exact h.obtained x lineage' hold c hc
    · rw [Function.update_of_ne hxg] at hmem
      exact h.obtained x lineage' hmem c hc
  events := h.events

theorem sound_log {e : Event} (h : Sound w) (he : e.Lawful w) : Sound (w.log e) where
  fresh := h.fresh
  cached := h.cached
  obtained := h.obtained
  events e' he' := by
    rcases List.mem_cons.1 he' with rfl | hold
    · exact he
    · exact h.events e' hold

end Invariant

/-! ## Realising -/

section Realising

variable {callout : Call → Host World Err Bool}
  (hcall : ∀ c w, Safe w (callout c) fun _ _ => True) {w : World} {g : GuestId}

include hcall

theorem safe_callable (slot : Slot) :
    Safe w (callable callout g slot) fun bodies _ => ∀ b ∈ bodies, b.guest = g := by
  apply Keeps.bind (hcall _ w)
  intro _ _ _ _
  apply Keeps.pure
  intro b hb
  rw [List.mem_singleton.1 hb]

theorem safe_accessor (present : Bool) (slot : Slot) :
    Safe w (accessor callout g present slot) fun bodies _ => ∀ b ∈ bodies, b.guest = g := by
  unfold accessor
  split
  · exact safe_callable hcall slot
  · exact Keeps.pure fun _ hb => nomatch hb

mutual

/-- Every callable of a member is wrapped for the guest that is entered. -/
theorem safe_declaration (path : List String) (w : World) : ∀ d : Declaration,
    Safe w (d.realise callout g path) fun bodies _ => ∀ b ∈ bodies, b.guest = g
  | .method => safe_callable hcall _
  | .classMethod => safe_callable hcall _
  | .staticMethod => safe_callable hcall _
  | .function => safe_callable hcall _
  | .property get set del => by
    apply Keeps.bind (safe_accessor hcall get _)
    intro getter _ _ hgetter
    apply Keeps.bind (safe_accessor hcall set _)
    intro setter _ _ hsetter
    apply Keeps.bind (safe_accessor hcall del _)
    intro deleter w' _ hdeleter
    apply Keeps.bind (hcall _ w')
    intro _ _ _ _
    apply Keeps.pure
    simp only [List.mem_append]
    rintro b ((hb | hb) | hb)
    · exact hgetter b hb
    · exact hsetter b hb
    · exact hdeleter b hb
  | .value => Keeps.bind (hcall _ w) fun _ _ _ _ => Keeps.pure fun _ hb => nomatch hb
  | .object members => by
    apply Keeps.bind (safe_namespace path w members)
    intro bodies w' _ hbodies
    exact Keeps.bind (hcall _ w') fun _ _ _ _ => Keeps.pure hbodies

theorem safe_namespace (path : List String) (w : World) : ∀ members : Namespace,
    Safe w (members.realise callout g path) fun bodies _ => ∀ b ∈ bodies, b.guest = g
  | .nil => Keeps.pure fun _ hb => nomatch hb
  | .cons name member rest => by
    apply Keeps.bind (safe_declaration (path ++ [name]) w member)
    intro bodies w1 _ hbodies
    apply Keeps.bind (hcall _ w1)
    intro _ w2 _ _
    apply Keeps.bind (safe_namespace path w2 rest)
    intro others _ _ hothers
    apply Keeps.pure
    intro b hb
    rcases List.mem_append.1 hb with hb | hb
    · exact hbodies b hb
    · exact hothers b hb

end

namespace ClassRealiser

/-- A type object that is made for `g`, and the callables that it ends up with. -/
theorem safe_create (payload : Nat) (name : String) (members statics : Namespace)
    (bases : Lineage) (hbases : ∀ c ∈ bases, Made w c) :
    Safe w (create callout g payload name members statics bases)
      fun lineage w' => ∀ c ∈ lineage, Made w' c := by
  apply Keeps.bind (hcall _ w)
  intro _ w1 h1 _
  apply Keeps.bind (hcall _ w1)
  intro _ w2 h2 _
  apply Keeps.bind (safe_namespace hcall [] w2 members)
  intro bodies w3 h3 hbodies
  apply Keeps.bind (hcall _ w3)
  intro _ w4 h4 _
  apply Keeps.bind (hcall _ w4)
  intro _ w5 h5 _
  apply Keeps.bind (safe_callable hcall .new)
  intro new w6 h6 hnew
  apply Keeps.bind (hcall _ w6)
  intro _ w7 h7 _
  apply Keeps.bind (safe_callable hcall .init)
  intro init w8 h8 hinit
  apply Keeps.bind (hcall _ w8)
  intro _ w9 h9 _
  apply Keeps.bind (Keeps.inv (hcall _ w9))
  intro _ w10 h10 ⟨_, hw10⟩
  apply Keeps.get
  have hmade : (w10.make g).makers w10.objects = some g := Function.update_self ..
  apply Keeps.bind (Keeps.modify (R := fun _ w' => w' = w10.make g) sound_make
    (later_make hw10) rfl)
  rintro _ w11 h11 rfl
  apply Keeps.bind (safe_namespace hcall [] _ statics)
  intro shared w12 h12 hshared
  have hlater : Later w w12 := by
    intro n x hn
    exact h12 n x <| h11 n x <| h10 n x <| h9 n x <| h8 n x <| h7 n x <| h6 n x <| h5 n x <|
      h4 n x <| h3 n x <| h2 n x <| h1 n x hn
  have hlineage : ∀ c ∈ (⟨w10.objects, payload, bodies ++ new ++ init ++ shared⟩ : HostClass)
      :: bases, Made w12 c := by
    intro c hc
    rcases List.mem_cons.1 hc with rfl | hc
    · refine ⟨g, h12 _ g hmade, ?_⟩
      simp only [List.mem_append]
      rintro b (((hb | hb) | hb) | hb)
      · exact hbodies b hb
      · exact hnew b hb
      · exact hinit b hb
      · exact hshared b hb
    · exact (hbases c hc).later hlater
  exact Keeps.pure hlineage

omit hcall in
theorem safe_underway {α : Type} (payload : Nat) {m : Host World Err α} {Q : α → World → Prop}
    (hm : Safe (w.setOut payload) m Q) (hQ : ∀ a w', Q a w' → Q a w'.arrive) :
    Safe w (underway payload m) Q :=
  Keeps.guarded rfl (sound_setOut payload) hm (fun _ ht hfut => ⟨sound_arrive ht, hfut⟩)
    (fun a t _ ha => hQ a t ha) fun _ h => h

omit hcall in
theorem safe_answer (payload : Nat) {lineage : Lineage} (hl : ∀ c ∈ lineage, Made w c) :
    Safe w (answer payload lineage) fun lineage w' => ∀ c ∈ lineage, Made w' c := by
  apply Keeps.bind (Keeps.modify (R := fun _ w' => Later w w') (sound_answer payload lineage)
    (fun _ _ h => h) fun _ _ h => h)
  exact fun _ _ _ hw => Keeps.pure fun c hc => (hl c hc).later hw

mutual

/-- Whether the class is in the cache or made anew, its lineage consists of type objects
that keep to the guests they were made for. -/
theorem safe_realise (w : World) : ∀ spec : ClassSpec,
    Safe w (realise callout g spec) fun lineage w' => ∀ c ∈ lineage, Made w' c
  | .mk payload name bases members statics => by
    unfold realise
    apply Keeps.bind (Keeps.modify (R := fun _ w' => w' = w.request payload)
      (sound_request payload) (fun _ _ h => h) rfl)
    rintro _ w1 - rfl
    apply Keeps.assume
    intro hw
    apply Keeps.get
    rcases hentry : (w.request payload).classes payload with _ | entry
    · exact Keeps.throw
    rcases hrealised : entry.realised with _ | lineage
    · simp only [hrealised]
      have hmade : Safe ((w.request payload).setOut payload) (do
          let found ← ClassRealiser.bases callout g bases
          create callout g payload name members statics found)
          fun lineage w' => ∀ c ∈ lineage, Made w' c := by
        apply Keeps.bind (safe_bases _ bases)
        intro found _ _ hfound
        exact safe_create hcall payload name members statics found hfound
      apply Keeps.bind (safe_underway payload hmade fun _ _ h => h)
      intro lineage w2 _ hlineage
      apply Keeps.bind (Keeps.modify (R := fun _ w' => Later w2 w')
        (fun h => sound_setRealised h hlineage) (fun _ _ h => h) fun _ _ h => h)
      intro _ w3 _ h3
      exact safe_answer payload fun c hc => (hlineage c hc).later h3
    · simp only [hrealised]
      exact safe_answer payload (hw.cached payload entry lineage hentry hrealised)

theorem safe_bases (w : World) : ∀ specs : ClassBases,
    Safe w (bases callout g specs) fun lineage w' => ∀ c ∈ lineage, Made w' c
  | .nil => Keeps.pure fun _ hc => nomatch hc
  | .host base rest => by
    apply Keeps.bind (safe_realise w base)
    intro found w1 _ hfound
    apply Keeps.bind (safe_bases w1 rest)
    intro others _ h2 hothers
    apply Keeps.pure
    intro c hc
    rcases List.mem_append.1 hc with hc | hc
    · exact (hfound c hc).later h2
    · exact hothers c hc
  | .imported module qualname rest => by
    apply Keeps.bind (hcall _ w)
    intro isClass w1 _ _
    exact Keeps.ite (fun _ => safe_bases w1 rest) fun _ => Keeps.throw

end

theorem safe_realiseRegistered (payload : Nat) :
    Safe w (realiseRegistered callout g payload) fun lineage w' => ∀ c ∈ lineage, Made w' c := by
  apply Keeps.get
  split
  · exact safe_realise hcall w _
  · exact Keeps.throw

end ClassRealiser

end Realising

/-! ## Entering -/

theorem new_ok_iff {r : RuntimeInner} {g : GuestId} {inner : GuestInner} :
    (∃ r', (ActiveGuest.new r g inner .operation : Except Err _) = .ok r') ↔
      admits r inner = true := by
  unfold ActiveGuest.new admits
  cases (inner.activity.begin (r.elapsed inner) .operation : Except Err GuestActivity) with
  | ok activity => exact ⟨fun _ => rfl, fun _ => ⟨_, rfl⟩⟩
  | error e =>
    constructor
    · rintro ⟨_, h⟩
      cases h
    · intro h
      cases h

section Entering

variable {α : Type} {callout : Call → Host World Err Bool}
  (hcall : ∀ c w, Safe w (callout c) fun _ _ => True) {w : World} {g : GuestId}

theorem safe_log {e : Event} (he : e.Lawful w) :
    Safe w (Host.modify (World.log e)) fun _ w' => w' = w.log e :=
  Keeps.modify (fun h => sound_log h he) (fun _ _ h => h) rfl

theorem safe_underToken {r : RuntimeInner} {m : Host World Err α} {Q : α → World → Prop}
    (hm : ∀ w', Later w w' → Safe w' m Q)
    (hQ : ∀ a w' f, Q a w' → Q a (World.withRuntime f w')) :
    Safe w (underToken g r m) Q :=
  Keeps.guarded rfl (sound_withRuntime _) (hm _ fun _ _ h => h)
    (fun _ ht hfut => ⟨sound_withRuntime _ ht, hfut⟩) (fun a t' _ ha => hQ a t' _ ha)
    fun _ h => h

include hcall

theorem safe_raise {e : Err} {Q : α → World → Prop} : Safe w (raise callout e) Q :=
  Keeps.bind (hcall _ w) fun _ _ _ _ => Keeps.throw

theorem safe_guestEnterWith {inner : GuestInner} {m : Host World Err α} {Q : α → World → Prop}
    (hm : ∀ w', Later w w' → Safe w' m Q)
    (hQ : ∀ a w' f, Q a w' → Q a (World.withRuntime f w')) :
    Safe w (guestEnterWith callout g inner m) Q := by
  apply Keeps.get
  split
  · exact safe_raise hcall
  · apply safe_underToken _ hQ
    intro w' hw'
    apply Keeps.bind (Keeps.attempt (R := fun r w' => ∀ a, r = .ok a → Q a w')
      ((hm w' hw').mono fun a _ _ ha b hb => Except.ok.inj hb ▸ ha) fun _ _ _ _ h => nomatch h)
    intro r _ _ hr
    cases r with
    | ok a => exact Keeps.pure (hr a rfl)
    | error e => exact safe_raise hcall

omit hcall in
theorem safe_enter {m : Host World Err α} {Q : α → World → Prop}
    (hm : ∀ w', Later w w' → Safe w' m Q)
    (hQ : ∀ a w' f, Q a w' → Q a (World.withRuntime f w')) : Safe w (enter g m) Q := by
  apply Keeps.get
  split
  · exact Keeps.throw
  · refine Keeps.ite (fun _ => Keeps.throw) fun _ => Keeps.ite (fun _ => ?_) fun _ => ?_
    · exact hm w fun _ _ h => h
    · split
      · exact Keeps.throw
      · exact safe_underToken hm hQ

theorem safe_enterForImport {byHost : Bool} {m : Host World Err α} {Q : α → World → Prop}
    (hm : ∀ w', Later w w' → Safe w' m Q)
    (hQ : ∀ a w' f, Q a w' → Q a (World.withRuntime f w')) :
    Safe w (enterForImport callout g byHost m) Q := by
  apply Keeps.ite
  · intro _
    exact safe_enter hm hQ
  · intro _
    apply Keeps.get
    split
    · exact safe_raise hcall
    · exact safe_guestEnterWith hcall hm hQ

/-- A guest is handed type objects that keep to their guests. -/
theorem safe_importClass {byHost : Bool} {m : Host World Err Lineage}
    (hm : ∀ w, Safe w m fun lineage w' => ∀ c ∈ lineage, Made w' c) :
    Safe w (importClass callout g byHost m) fun _ _ => True := by
  apply Keeps.bind (safe_enterForImport hcall (fun w' _ => hm w') fun _ _ _ h => h)
  intro lineage w' _ hl
  exact Keeps.modify (fun h => sound_hand h hl) (fun _ _ h => h) trivial

/-- The outcome of a call is decided by the guest that the callable was wrapped for. -/
theorem safe_rawBody {caller : GuestId} {inner : GuestInner} {c : HostClass} {body : RawBody}
    (hcaller : w.runtime.guests caller = some inner) (hc : Made w c) (hb : body ∈ c.bodies) :
    Safe w (rawBody callout caller c (admits w.runtime inner) body) fun _ _ => True := by
  apply Keeps.get
  rcases hguest : w.runtime.guests body.guest with _ | owner
  · have hget : (w.runtime.get body.guest : Except Err _) = .error .closed := by
      rw [RuntimeInner.get, hguest]
    rw [hget]
    apply Keeps.bind (safe_log ⟨hc, hb, ?_⟩) fun _ _ _ _ => safe_raise hcall
    constructor
    · intro h
      cases h
    · rintro ⟨hbody, -⟩
      have hbody : body.guest = caller := hbody
      rw [hbody, hcaller] at hguest
      cases hguest
  · have hget : (w.runtime.get body.guest : Except Err _) = .ok owner := by
      rw [RuntimeInner.get, hguest]
    rw [hget]
    have hsame : body.guest = caller → owner = inner := by
      rintro rfl
      rw [hguest] at hcaller
      exact Option.some.inj hcaller
    rcases hnew : (ActiveGuest.new w.runtime body.guest owner .operation : Except Err _)
      with e | r
    · simp only [hnew]
      apply Keeps.bind (safe_log ⟨hc, hb, ?_⟩) fun _ _ _ _ => safe_raise hcall
      constructor
      · intro h
        cases h
      · rintro ⟨hbody, hadmits⟩
        rw [← hsame hbody] at hadmits
        obtain ⟨r, hr⟩ := new_ok_iff (g := body.guest).2 hadmits
        rw [hnew] at hr
        cases hr
    · simp only [hnew]
      apply Keeps.bind (safe_log ⟨hc, hb, ?_⟩) fun _ _ _ _ => ?_
      · constructor
        · intro h
          have hbody : body.guest = caller := Except.ok.inj h
          refine ⟨hbody, ?_⟩
          rw [← hsame hbody]
          exact new_ok_iff.1 ⟨r, hnew⟩
        · rintro ⟨hbody, -⟩
          rw [hbody]
      · apply safe_guestEnterWith hcall (fun w' _ => ?_) fun _ _ _ _ => trivial
        exact Keeps.bind (hcall _ w') fun _ _ _ _ => Keeps.pure trivial

theorem safe_callMember (caller : GuestId) (i j k : Nat) :
    Safe w (callMember callout caller i j k) fun _ _ => True := by
  apply Keeps.assume
  intro hw
  apply Keeps.get
  split
  · next inner lineage hcaller hlineage =>
    refine Keeps.ite (fun _ => Keeps.pure trivial) fun _ => ?_
    rcases hj : lineage[j]? with _ | c
    · exact Keeps.pure trivial
    rcases hk : c.bodies[k]? with _ | body
    · simp only [hk]
      exact Keeps.pure trivial
    · simp only [hk]
      have hc : Made w c :=
        hw.obtained caller lineage (List.mem_of_getElem? hlineage) c (List.mem_of_getElem? hj)
      exact safe_rawBody hcall hcaller hc (List.mem_of_getElem? hk)
  · exact Keeps.pure trivial

theorem safe_performOp (op : Op) : Safe w (performOp callout op) fun _ _ => True := by
  cases op with
  | activity a => exact Keeps.modify (sound_withRuntime _) (fun _ _ h => h) trivial
  | absorb spec => exact Keeps.modify (sound_absorbClass spec) (fun _ _ h => h) trivial
  | «import» g byHost spec =>
    exact safe_importClass hcall fun w => ClassRealiser.safe_realise hcall w spec
  | registered g byHost payload =>
    exact safe_importClass hcall fun w => ClassRealiser.safe_realiseRegistered hcall payload
  | call caller i j k => exact safe_callMember hcall caller i j k

end Entering

/-! ## Runs -/

/-- What other code does while the host calls out. -/
abbrev Code : Type := Environment World Err Op Unit Call Bool

/-- What a host does from the top, one operation after another. -/
abbrev Script : Type := Prog Op (Reply Err Unit) Unit

/-- A runtime after a script, against given code, up to a depth of nesting. -/
def runScript (code : Code) (fuel : Nat) (script : Script) : World :=
  (script.run (classes.perform code fuel) World.new).2

/-- Every call of a member in a run satisfies `P`. -/
def Every (P : Event → Prop) (w : World) : Prop := ∀ e ∈ w.events, P e

instance (P : Event → Prop) [DecidablePred P] (w : World) : Decidable (Every P w) :=
  inferInstanceAs (Decidable (∀ e ∈ w.events, P e))

theorem sound_new : Sound World.new where
  fresh _ _ := rfl
  cached _ _ _ h := nomatch h
  obtained _ _ h := nomatch h
  events _ h := nomatch h

theorem sound_run (code : Code) (fuel : Nat) (script : Script) :
    Sound (runScript code fuel script) := by
  have htick : ∀ w, Sound w → Sound w.tick := fun w h => h.congr rfl rfl rfl rfl rfl
  have hperform : ∀ op w, Safe w (classes.perform code fuel op) fun _ _ => True :=
    System.keeps_perform (S := classes) (D := discipline) htick (fun _ _ _ h => h)
      (fun _ hcall op w => safe_performOp hcall op) fuel
  exact (System.keeps_run hperform script World.new sound_new).1

/-- In a sound world a call runs for its caller just if its class was made for the caller. -/
theorem lawful_iff {w : World} {e : Event} (h : e.Lawful w) :
    e.RunsForCaller ↔ e.MadeForCaller w.makers := by
  obtain ⟨caller, c, body, admits, outcome⟩ := e
  obtain ⟨⟨g, hmaker, hbodies⟩, hbody, houtcome⟩ := h
  have hg : body.guest = g := hbodies body hbody
  show outcome = .ok caller ↔ w.makers c.id = some caller ∧ admits = true
  rw [houtcome, hmaker, hg, Option.some_inj]

/-- **Members run in the calling guest, along a run, just if each is called by the guest
that its class was made for.** -/
theorem runsForCaller_iff_madeForCaller (code : Code) (fuel : Nat) (script : Script) :
    Every Event.RunsForCaller (runScript code fuel script) ↔
      Every (Event.MadeForCaller (runScript code fuel script).makers)
        (runScript code fuel script) := by
  have hsound := sound_run code fuel script
  exact forall₂_congr fun e he => lawful_iff (hsound.events e he)

/-! ## Two guests and one class -/

/-- The guest that is built after `n` others. -/
def guest (n : Nat) : GuestId := ⟨n + 1, Nat.succ_ne_zero n⟩

/-- Other code answers every call and does nothing else. -/
def idleCode : Code := fun _ _ => .ret (.ok true)

def vector : ClassSpec :=
  .mk 1 "Vector2" .nil (.cons "length" .method .nil) .nil

/-- Two guests import a class, the first before the second; then the host drops the first
one, and code of the second constructs an instance. -/
def constructAfterDrop : Script :=
  .call (.absorb vector) fun _ =>
    .call (.activity (.build .new)) fun _ =>
      .call (.activity (.build .new)) fun _ =>
        .call (.import (guest 0) true vector) fun _ =>
          .call (.import (guest 1) true vector) fun _ =>
            .call (.activity (.forget (guest 0))) fun _ =>
              .call (.call (guest 1) 0 0 1) fun _ =>
                .ret ()

/-- The members of the shared class are refused to the second guest. -/
theorem not_runsForCaller_of_dropped_maker :
    ¬ ∀ (code : Code) (fuel : Nat) (script : Script),
      Every Event.RunsForCaller (runScript code fuel script) := by
  intro h
  have hrun := h idleCode 2 constructAfterDrop
  exact absurd hrun (by decide +kernel)

end GuestPy.Classes
