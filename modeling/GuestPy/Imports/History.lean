import GuestPy.Imports.Dispatch
import GuestPy.Imports.Ledger

/-!
# The history of imports

Every event of a run is justified by what happened before it. This says once what an import
can do; what holds of whole runs is read off the justified histories.

* `Event.Justified` is the law of each kind of event.
* `Inv` is the invariant behind it: the borrow flags are those of the exclusive borrows in
  progress, what a guest has cached was realised for it, and the ledger is sound.
* `keeps_performOp` is the step: each operation keeps the invariant if the code it calls
  does. `justified_perform` is the run, against any code.
-/

namespace GuestPy

open DottedName

/-! ## Laws -/

/-- The name that the arguments of an import determine without running code: the absolute
name itself, or a relative one with its package in a dictionary. -/
def ImportCall.plainName (call : ImportCall) : Option Str :=
  match call.level with
  | none => some call.name
  | some (.atom (.int i)) =>
    if i = 0 then
      some call.name
    else
      match call.globals with
      | some (.dict item) =>
        match item "__package__".toList with
        | some (.str package) =>
          if package = [] then
            none
          else
            (ancestor package (i.toNat - 1)).map fun base => join base call.name
        | _ => none
      | _ => none
  | _ => none

/-- `past` has a request of `asker` that was attributed to `guest`. -/
def Attributed (past : List Event) (asker : GuestId) (guest : Option GuestId) : Prop :=
  ∃ via, .asked asker via guest ∈ past

/-- What made an event possible, in the events before it. -/
def Event.Justified (denied : GuestId → Str → Bool) (past : List Event) : Event → Prop
  | .asked asker via guest =>
    match via with
    | .dispatcher named innermost => guest = named.or innermost
    | _ => guest = some asker
  | .checked g dotted => denied g dotted = false
  | .expanding _ _ => True
  | .realised g name m =>
    (∃ dotted, name ∈ prefixes dotted ∧ (.checked g dotted ∈ past ∨ .expanding g dotted ∈ past)) ∧
      (m.maker = .guest g ∨ m.maker = .extension)
  | .delegated asker guest call target =>
    Attributed past asker guest ∧
      ∀ name, call.plainName = some name →
        target = name ∧ ∀ g, guest = some g → denied g name = false
  | .following _ _ => True
  | .found _ _ _ => True
  | .handed asker name m =>
    (∃ g, Attributed past asker (some g) ∧ .realised g name m ∈ past) ∨
      .found asker name m ∈ past ∧
        ((∃ guest call target, name ∈ prefixes target ∧
            .delegated asker guest call target ∈ past) ∨
          .following asker name ∈ past)
  | .borrowed c frames conflict => conflict = true ↔ c ∈ frames.map Frame.cell

/-- Every event is justified by the events before it. -/
def Justified (denied : GuestId → Str → Bool) : List Event → Prop
  | [] => True
  | e :: past => e.Justified denied past ∧ Justified denied past

/-- An event of a justified history is justified by events of the history. -/
theorem Justified.mem {denied : GuestId → Str → Bool} {events : List Event}
    (h : Justified denied events) {e : Event} (he : e ∈ events) :
    ∃ past, past <:+ events ∧ e.Justified denied past := by
  induction events with
  | nil => cases he
  | cons x past ih =>
    rcases List.mem_cons.1 he with rfl | he
    · exact ⟨past, List.suffix_cons e past, h.1⟩
    · obtain ⟨past', hsuffix, hj⟩ := ih h.2 he
      exact ⟨past', hsuffix.trans (List.suffix_cons x past), hj⟩

theorem Attributed.mono {past events : List Event} {asker : GuestId} {guest : Option GuestId}
    (h : Attributed past asker guest) (hs : past <:+ events) : Attributed events asker guest := by
  obtain ⟨via, hv⟩ := h
  exact ⟨via, hs.subset hv⟩

/-! ## The discipline -/

structure Inv (w : World) : Prop where
  flags : ∀ c, w.flags c = .writing ↔ c ∈ w.frames.map Frame.cell
  cached : ∀ g name m, (w.bindings g).state.realised name = some m →
    .realised g name m ∈ w.events
  extensions : ∀ name contents m, w.loadedExtensions name = some (contents, m) →
    m.maker = .extension
  justified : Justified w.denies w.events
  sound : Sound w.holdings

/-- The cell is borrowed exclusively. -/
def World.Held (w : World) (c : Cell) : Prop := c ∈ w.frames.map Frame.cell

/-- What a computation may change for its caller: it adds events, and lets the holdings grow. -/
structure Later (w w' : World) : Prop where
  events : w.events <:+ w'.events
  frames : w'.frames = w.frames
  denies : w'.denies = w.denies
  grown : Grown w.Held w.holdings w'.holdings

theorem Later.refl (w : World) : Later w w := ⟨List.suffix_refl _, rfl, rfl, .refl _ _⟩

theorem Later.trans {w w' w'' : World} (h : Later w w') (h' : Later w' w'') : Later w w'' := by
  refine ⟨h.events.trans h'.events, h'.frames.trans h.frames, h'.denies.trans h.denies,
    h.grown.trans (h'.grown.mono fun c hc => ?_)⟩
  unfold World.Held
  rw [h.frames]
  exact hc

theorem Later.mem {w w' : World} (h : Later w w') {e : Event} (he : e ∈ w.events) :
    e ∈ w'.events := h.events.subset he

/-- What is cached stays. -/
theorem Later.cached {w w' : World} (h : Later w w') {g : GuestId} {name : Str} {m : Module}
    (hm : w.holdings.cached g name = some m) : w'.holdings.cached g name = some m :=
  h.grown.kept g name m hm

def discipline : Discipline World where
  inv := Inv
  future := Later
  unwound _ := True
  refl := Later.refl
  trans := Later.trans

/-- The computation keeps the invariant and only adds events. -/
abbrev Safe {α : Type} (w : World) (m : Host World Err α) (Q : α → World → Prop) : Prop :=
  Keeps discipline w m Q

/-! ## Updates of the world -/

section Updates

variable {w : World}

theorem denies_setState (g : GuestId) (f : BindingState → BindingState) :
    (w.setState g f).denies = w.denies := by
  funext x name
  unfold World.denies
  by_cases hx : x = g
  · rw [hx, World.bindings_setState_self]
  · rw [World.bindings_setState_of_ne hx]

theorem inv_log {e : Event} (h : Inv w) (he : e.Justified w.denies w.events) :
    Inv (w.log e) where
  flags := h.flags
  cached g name m hm := List.mem_cons_of_mem _ (h.cached g name m hm)
  extensions := h.extensions
  justified := ⟨he, h.justified⟩
  sound := h.sound

theorem later_log (e : Event) : Later w (w.log e) :=
  ⟨List.suffix_cons _ _, rfl, rfl, .refl _ _⟩

/-- Writing to the ledger. -/
theorem inv_record {f : Holdings → Ledger} (h : Inv w)
    (hf : Sound ⟨w.bindings, f w.holdings⟩) : Inv (w.record f) :=
  ⟨h.flags, h.cached, h.extensions, h.justified, hf⟩

theorem later_record {f : Holdings → Ledger}
    (hf : Grown w.Held w.holdings ⟨w.bindings, f w.holdings⟩) : Later w (w.record f) :=
  ⟨List.suffix_refl _, rfl, rfl, hf⟩

theorem safe_record {f : Holdings → Ledger} {Q : World → Prop}
    (hsound : Inv w → Sound ⟨w.bindings, f w.holdings⟩)
    (hgrown : Grown w.Held w.holdings ⟨w.bindings, f w.holdings⟩) (hQ : Q (w.record f)) :
    Safe w (record f) fun _ => Q :=
  Keeps.modify (fun h => inv_record h (hsound h)) (later_record hgrown) hQ

/-- A note that says what it may. -/
theorem safe_note {f : Holdings → Ledger} {r : Record} (hf : f w.holdings = w.holdings.note r)
    (hr : Inv w → r.Lawful (r :: w.ledger.records)) :
    Safe w (record f) fun _ w' => w'.bindings = w.bindings ∧ r ∈ w'.ledger.records := by
  refine safe_record (fun h => ?_) ?_ ⟨rfl, ?_⟩
  · rw [hf]
    exact h.sound.note (hr h)
  · rw [hf]
    exact .note
  · change r ∈ (f w.holdings).records
    rw [hf]
    exact List.mem_cons_self

theorem safe_log {e : Event} (he : Inv w → e.Justified w.denies w.events) :
    Safe w (Importlib.logEvent e) fun _ w' => e ∈ w'.events :=
  Keeps.modify (fun h => inv_log h (he h)) (later_log e) List.mem_cons_self

/-- Updates outside the bindings, the borrow flags, the events and the ledger. -/
theorem safe_modify {f : World → World} {w : World} (hb : (f w).bindings = w.bindings)
    (hflags : (f w).flags = w.flags) (hframes : (f w).frames = w.frames)
    (hevents : (f w).events = w.events) (hledger : (f w).ledger = w.ledger)
    (hext : ∀ name contents m, (f w).loadedExtensions name = some (contents, m) →
      w.loadedExtensions name = some (contents, m) ∨ m.maker = .extension) :
    Safe w (Host.modify f : Host World Err Unit) fun _ _ => True := by
  have hd : (f w).denies = w.denies := by
    funext g name
    rw [World.denies, World.denies, hb]
  have hh : (f w).holdings = w.holdings := by
    unfold World.holdings
    rw [hb, hledger]
  refine Keeps.modify (fun h => ⟨?_, ?_, fun name contents m hm => ?_, ?_, ?_⟩)
    ⟨?_, hframes, hd, ?_⟩ trivial
  · rw [hflags, hframes]
    exact h.flags
  · rw [hb, hevents]
    exact h.cached
  · exact (hext name contents m hm).elim (h.extensions name contents m) id
  · rw [hd, hevents]
    exact h.justified
  · rw [hh]
    exact h.sound
  · exact hevents ▸ List.suffix_refl _
  · rw [hh]
    exact .refl _ _

theorem safe_setSys (name : Str) (m : Option Module) :
    Safe w (Host.modify (World.setSys name m)) fun _ _ => True :=
  safe_modify rfl rfl rfl rfl rfl fun _ _ _ h => Or.inl h

end Updates

/-! ## Borrows -/

section Borrows

variable {α : Type} {w : World}

/-- A borrow that is granted finds no exclusive one in progress. -/
theorem safe_access (c : Cell) :
    Safe w (access c) fun _ w' => w'.flags c ≠ .writing ∧ w'.holdings = w.holdings := by
  refine Keeps.get (Keeps.bind (Keeps.modify
    (R := fun _ w' => w'.flags = w.flags ∧ w'.holdings = w.holdings)
    (fun h => inv_log h ?_) (later_log _) ⟨rfl, rfl⟩) fun _ w' _ hw' => ?_)
  · have hc := h.flags c
    constructor
    · intro hb
      exact hc.1 (eq_of_beq hb)
    · intro hb
      rw [hc.2 hb]
      rfl
  · refine Keeps.ite (fun _ => Keeps.panic trivial) fun hc => Keeps.pure ⟨?_, hw'.2⟩
    rw [hw'.1]
    exact hc

/-- A borrow that ends at once changes nothing. -/
theorem safe_readRef (c : Cell) (read : World → α) :
    Safe w (readRef c read) fun a w' => a = read w' ∧ w'.holdings = w.holdings :=
  Keeps.bind (safe_access c) fun _ _ _ hw' => Keeps.get (Keeps.pure ⟨rfl, hw'.2⟩)

theorem inv_openFrame {fr : Frame} (h : Inv w) : Inv (w.openFrame fr) where
  flags c := by
    unfold World.openFrame
    by_cases hc : c = fr.cell
    · simp only [hc, Function.update_self, List.map_cons, List.mem_cons, true_or]
    · simp only [Function.update_of_ne hc, List.map_cons, List.mem_cons, hc, false_or]
      exact h.flags c
  cached := h.cached
  extensions := h.extensions
  justified := h.justified
  sound := h.sound

/-- The end of an exclusive borrow, at the nesting it began at. -/
theorem inv_closeFrame {fr : Frame} {frames : List Frame} (h : Inv w)
    (hframes : w.frames = fr :: frames) (hfr : fr.cell ∉ frames.map Frame.cell) :
    Inv (w.closeFrame fr) where
  flags c := by
    unfold World.closeFrame
    by_cases hc : c = fr.cell
    · simp only [hc, Function.update_self, hframes, List.tail_cons, reduceCtorEq, false_iff]
      exact hfr
    · have hflags := h.flags c
      simp only [hframes, List.map_cons, List.mem_cons, hc, false_or] at hflags
      simp only [Function.update_of_ne hc, hframes, List.tail_cons]
      exact hflags
  cached := h.cached
  extensions := h.extensions
  justified := h.justified
  sound := h.sound

theorem closeFrame_openFrame {fr : Frame} (hfree : w.flags fr.cell ≠ .writing) :
    (w.openFrame fr).closeFrame fr = w := by
  have hunused : w.flags fr.cell = .unused := by
    cases hf : w.flags fr.cell with
    | unused => rfl
    | writing => exact absurd hf hfree
  have hflags : Function.update (Function.update w.flags fr.cell .writing) fr.cell .unused =
      w.flags := by
    rw [Function.update_idem, ← hunused, Function.update_eq_self]
  unfold World.openFrame World.closeFrame
  rw [hflags, List.tail_cons]

theorem later_closeFrame (fr : Frame) {w' : World} (h : Later w w') :
    Later (w.closeFrame fr) (w'.closeFrame fr) := by
  refine ⟨h.events, congrArg List.tail h.frames, h.denies, h.grown.mono fun c hc => ?_⟩
  have hc : c ∈ w.frames.tail.map Frame.cell := hc
  rw [List.map_tail] at hc
  exact List.mem_of_mem_tail hc

/-- The state is under an exclusive borrow that was opened over `frames`, and `F` holds once the
borrow is closed. -/
structure Under (fr : Frame) (frames : List Frame) (F : World → Prop) (w : World) : Prop where
  frames : w.frames = fr :: frames
  closed : F (w.closeFrame fr)

theorem Under.mono {fr : Frame} {frames : List Frame} {F : World → Prop}
    (hF : ∀ w w', Later w w' → F w → F w') (w w' : World) (hw : Later w w')
    (h : Under fr frames F w) : Under fr frames F w' :=
  ⟨hw.frames.trans h.frames, hF _ _ (later_closeFrame fr hw) h.closed⟩

/-- An exclusive borrow is over when the body is, however it ends. -/
theorem keeps_withMut {F : World → Prop} (hF : ∀ w w', Later w w' → F w → F w') {fr : Frame}
    {body : Host World Err α} {Q : α → World → Prop}
    (hbody : ∀ w', Later w w' → w'.holdings = w.holdings → ¬ w'.Held fr.cell →
      Keeps (discipline.within (Under fr w'.frames F)) (w'.openFrame fr) body Q)
    (hQ : ∀ a w', Q a w' → Q a (w'.closeFrame fr)) :
    Keeps (discipline.within F) w (withMut fr body) Q := by
  refine Keeps.bind ((safe_access fr.cell).within fun w' => hF w w') fun _ w' _ hw' => ?_
  obtain ⟨⟨hfree, hsame⟩, hw'⟩ := hw'
  refine Keeps.assume fun hinv => ?_
  have hheld : ¬ w'.Held fr.cell := fun hc => hfree ((hinv.1.flags _).2 hc)
  have hbody := hbody w' hw' hsame hheld
  refine Keeps.guarded_by (fun h => ?_) hbody
    (fun t ht _ => ⟨⟨inv_closeFrame ht.1 ht.2.frames hheld, ht.2.closed⟩, trivial⟩)
    (fun a t _ _ ha => hQ a t ha) fun _ h => h
  refine ⟨inv_openFrame h.1, rfl, ?_⟩
  rw [closeFrame_openFrame hfree]
  exact h.2

theorem safe_withMut {fr : Frame} {body : Host World Err α} {Q : α → World → Prop}
    (hbody : ∀ w', Later w w' → Safe (w'.openFrame fr) body Q)
    (hQ : ∀ a w', Q a w' → Q a (w'.closeFrame fr)) : Safe w (withMut fr body) Q := by
  refine Keeps.of_within (keeps_withMut (fun _ _ h h' => Later.trans h' h)
    (fun w' hw' _ _ => ?_) hQ)
  exact Keeps.mono ((hbody w' hw').within fun t ht => Under.mono (fun _ _ h h' => h'.trans h) _ t ht)
    fun _ _ _ h => h.1

end Borrows

/-! ## The bindings -/

/-- The events say why `name` may be realised for `g`. -/
def Entitled (w : World) (g : GuestId) (name : Str) : Prop :=
  ∃ dotted, name ∈ prefixes dotted ∧
    (.checked g dotted ∈ w.events ∨ .expanding g dotted ∈ w.events)

theorem Entitled.mono {w w' : World} {g : GuestId} {name : Str} (h : Entitled w g name)
    (hw : w.events <:+ w'.events) : Entitled w' g name := by
  obtain ⟨dotted, hp, hd⟩ := h
  exact ⟨dotted, hp, hd.imp (fun he => hw.subset he) fun he => hw.subset he⟩

theorem denies_setRealised {w : World} (g : GuestId) (dotted : Str) (m : Option Module) :
    (w.setRealised g dotted m).denies = w.denies := denies_setState g _

theorem inv_setRealised {w : World} {g : GuestId} {dotted : Str} {m : Module} {o : Origin}
    (h : Inv w) (hg : Entitled w g dotted) (hm : m.maker = .guest g ∨ m.maker = .extension)
    (hhead : w.ledger.stack.head? = some (.realising g dotted o)) :
    Inv (((w.setRealised g dotted (some m)).record (·.caching g dotted)).log
      (.realised g dotted m)) where
  flags := h.flags
  cached x name m' hm' := by
    have hr := World.realised_setRealised g x dotted name (some m) w
    change ((w.setRealised g dotted (some m)).bindings x).state.realised name = some m' at hm'
    rw [hr] at hm'
    by_cases hx : x = g ∧ name = dotted
    · rw [if_pos hx] at hm'
      cases hm'
      rw [hx.1, hx.2]
      exact List.mem_cons_self
    · rw [if_neg hx] at hm'
      exact List.mem_cons_of_mem _ (h.cached x name m' hm')
  extensions := h.extensions
  justified := by
    change Justified (w.setRealised g dotted (some m)).denies (.realised g dotted m :: w.events)
    rw [denies_setRealised]
    exact ⟨⟨hg, hm⟩, h.justified⟩
  sound := h.sound.caching (recached_setRealised w g dotted (some m)) hhead

theorem inv_removeRealised {w : World} {g : GuestId} {dotted : Str} {since : Nat} (h : Inv w)
    (hlost : w.holdings.Always Record.Alone → w.ledger.unfailed g dotted - (since + 1) = 0 →
      (g, dotted) ∉ w.ledger.completed) :
    Inv ((w.setRealised g dotted none).record (·.removed g dotted since)) where
  flags := h.flags
  cached x name m' hm' := by
    have hr := World.realised_setRealised g x dotted name none w
    change ((w.setRealised g dotted none).bindings x).state.realised name = some m' at hm'
    rw [hr] at hm'
    by_cases hx : x = g ∧ name = dotted
    · rw [if_pos hx] at hm'
      cases hm'
    · rw [if_neg hx] at hm'
      exact h.cached x name m' hm'
  extensions := h.extensions
  justified := by
    change Justified (w.setRealised g dotted none).denies w.events
    rw [denies_setRealised]
    exact h.justified
  sound := h.sound.removed (recached_setRealised w g dotted none) hlost

/-! ### Realisations in progress -/

/-- `w` is in the midst of a realisation that began in `w₀`. -/
structure Realising (w₀ : World) (g : GuestId) (name : Str) (o : Origin) (w : World) : Prop where
  later : Later w₀ (w.record Holdings.leave)
  head : w.ledger.stack.head? = some (.realising g name o)
  begun : w₀.ledger.unfailed g name < w.ledger.unfailed g name
  completed : (g, name) ∈ w.ledger.completed → (g, name) ∈ w₀.ledger.completed ∨
    w₀.ledger.unfailed g name + 1 < w.ledger.unfailed g name

theorem later_leave {w w' : World} (h : Later w w') :
    Later (w.record Holdings.leave) (w'.record Holdings.leave) :=
  ⟨h.events, h.frames, h.denies, h.grown.leave⟩

theorem Realising.mono {w₀ : World} {g : GuestId} {name : Str} {o : Origin} (w w' : World)
    (hw : Later w w') (h : Realising w₀ g name o w) : Realising w₀ g name o w' := by
  have hunfailed : w.ledger.unfailed g name ≤ w'.ledger.unfailed g name :=
    hw.grown.unfailed g name
  refine ⟨h.later.trans (later_leave hw), ?_, h.begun.trans_le hunfailed, fun hc => ?_⟩
  · have hstack : w'.ledger.stack = w.ledger.stack := hw.grown.stack
    rw [hstack]
    exact h.head
  · have hbegun := h.begun
    rcases hw.grown.completed g name hc with hc | hlt
    · exact (h.completed hc).imp id fun hlt => hlt.trans_le hunfailed
    · have hlt : w.ledger.unfailed g name < w'.ledger.unfailed g name := hlt
      exact Or.inr (by omega)

/-- The computation stays in the realisation of `name` that began in `w₀`. -/
abbrev Stays {α : Type} (w₀ : World) (g : GuestId) (name : Str) (o : Origin) (w : World)
    (m : Host World Err α) (Q : α → World → Prop) : Prop :=
  Keeps (discipline.within (Realising w₀ g name o)) w m Q

/-- The module is in the cache, and the events say so. -/
def Placed (w : World) (g : GuestId) (name : Str) (m : Module) : Prop :=
  .realised g name m ∈ w.events ∧ w.holdings.cached g name = some m

theorem Placed.mono {w w' : World} {g : GuestId} {name : Str} {m : Module}
    (h : Placed w g name m) (hw : Later w w') : Placed w' g name m :=
  ⟨hw.mem h.1, hw.cached h.2⟩

/-- The module is in the cache, and set in its parent there. -/
structure InPlace (w : World) (g : GuestId) (name : Str) : Prop where
  cached : ∃ m, w.holdings.cached g name = some m
  linked : ∀ p last, parent name = some (p, last) →
    (∃ m, w.holdings.cached g p = some m) ∧ w.ledger.linked g name = true

theorem InPlace.mono {w w' : World} {g : GuestId} {name : Str} (h : InPlace w g name)
    (hw : Later w w') : InPlace w' g name := by
  refine ⟨?_, fun p last hp => ?_⟩
  · obtain ⟨m, hm⟩ := h.cached
    exact ⟨m, hw.cached hm⟩
  · obtain ⟨⟨m, hm⟩, hl⟩ := h.linked p last hp
    exact ⟨⟨m, hw.cached hm⟩, hw.grown.linked g p m hm name last hp hl⟩

theorem InPlace.inPlace {w : World} {g : GuestId} {name : Str} (h : InPlace w g name) :
    w.holdings.inPlace g name = true := by
  obtain ⟨m, hm⟩ := h.cached
  unfold Holdings.inPlace
  rw [hm, Option.isSome_some, Bool.true_and, Bool.or_eq_true]
  rcases hp : parent name with _ | ⟨p, last⟩
  · exact Or.inl rfl
  · exact Or.inr (h.linked p last hp).2

/-- A realisation of `name` has begun since `w`, and if one has completed, it is another. -/
def Begun (w w' : World) (g : GuestId) (name : Str) : Prop :=
  w.ledger.unfailed g name < w'.ledger.unfailed g name ∧
    ((g, name) ∈ w'.ledger.completed → (g, name) ∈ w.ledger.completed ∨
      w.ledger.unfailed g name + 1 < w'.ledger.unfailed g name)

/-- `name` is looked up on the way to a name that is being imported. -/
def AtWalk (w : World) (g : GuestId) (name : Str) : Prop :=
  ∃ dotted bound, w.ledger.stack.head? = some (.walking g dotted bound) ∧ name ∈ prefixes dotted

theorem AtWalk.mono {w w' : World} {g : GuestId} {name : Str} (h : AtWalk w g name)
    (hw : Later w w') : AtWalk w' g name := by
  obtain ⟨dotted, bound, hhead, hp⟩ := h
  have hstack : w'.ledger.stack = w.ledger.stack := hw.grown.stack
  exact ⟨dotted, bound, hstack ▸ hhead, hp⟩

section Bindings

variable {callout : Call → Host World Err Answer}
  (hcall : ∀ c w, Safe w (callout c) fun _ _ => True) {w : World} {g : GuestId}

theorem safe_cached (g : GuestId) (dotted : Str) :
    Safe w (GuestBindings.cached g dotted) fun r w' =>
      r = w.holdings.cached g dotted ∧ w'.holdings = w.holdings ∧
        ∀ m, r = some m → .realised g dotted m ∈ w'.events := by
  refine Keeps.mono (Keeps.inv (safe_readRef _ _)) fun r w' _ hr => ?_
  obtain ⟨⟨hread, hsame⟩, hinv⟩ := hr
  refine ⟨?_, hsame, fun m hm => hinv.cached g dotted m (hread.symm.trans hm)⟩
  rw [← hsame]
  exact hread

theorem safe_spec (g : GuestId) (dotted : Str) :
    Safe w (GuestBindings.spec g dotted) fun r w' =>
      r = (w.bindings g).specs dotted ∧ w' = w :=
  Keeps.get (Keeps.pure ⟨rfl, rfl⟩)

theorem safe_native (g : GuestId) (dotted : Str) :
    Safe w (GuestBindings.native g dotted) fun r w' =>
      r = (w.bindings g).natives dotted ∧ w' = w :=
  Keeps.get (Keeps.pure ⟨rfl, rfl⟩)

include hcall

/-- A call whose answer or failure does not matter. -/
theorem safe_attempt_call (c : Call) :
    Safe w (Host.attempt (callout c)) fun _ _ => True :=
  Keeps.attempt (hcall c w) fun _ _ _ => trivial

theorem stays_call {w₀ : World} {name : Str} {o : Origin} (c : Call) :
    Stays w₀ g name o w (callout c) fun _ w' => Later w w' :=
  Keeps.mono ((hcall c w).within (Realising.mono w)) fun _ _ _ h => h.2

/-- A module enters the cache while it is realised. -/
theorem keeps_cache {w₀ : World} {dotted : Str} {m : Module} {o : Origin}
    (hnone : w₀.holdings.cached g dotted = none) (hg : Entitled w g dotted)
    (hm : m.maker = .guest g ∨ m.maker = .extension) :
    Keeps (discipline.within (Realising w₀ g dotted o)) w (GuestBindings.cache callout g dotted m)
      fun _ w' => Placed w' g dotted m := by
  refine keeps_withMut Realising.mono (fun w' hw' _ hfree => Keeps.get ?_) fun _ _ h => h
  have hopen : Entitled (w'.openFrame (.writing (.bindings g))) g dotted := hg.mono hw'.events
  refine Keeps.bind (Keeps.modify
    (R := fun _ t => Placed t g dotted m)
    (fun h => ⟨inv_setRealised h.1 hopen hm h.2.closed.head, h.2.frames, ?_⟩) trivial
    ⟨List.mem_cons_self, ?_⟩) fun _ t _ ht => ?_
  · obtain ⟨hlater, hhead, hbegun, hcompleted⟩ := h.2.closed
    have hfree₀ : ¬ w₀.Held (.bindings g) := by
      unfold World.Held
      rw [← hlater.frames]
      exact hfree
    refine ⟨⟨hlater.events.trans (List.suffix_cons _ _), hlater.frames, ?_, ?_⟩, hhead, hbegun,
      hcompleted⟩
    · refine Eq.trans ?_ hlater.denies
      exact denies_setRealised g dotted (some m)
    · exact hlater.grown.caching (recached_setRealised _ g dotted (some m)) hfree₀ hnone hbegun rfl
  · exact (recached_setRealised (w'.openFrame _) g dotted (some m)).cached_self _
  · split
    · refine Keeps.bind ((safe_attempt_call hcall _).within (Under.mono Realising.mono _))
        fun _ t' _ ht' => Keeps.pure (ht.mono ht'.2)
    · exact Keeps.pure ht

omit hcall in
/-- A failed module leaves the cache, which goes back to what it was in `w₀`. -/
theorem keeps_removeCached {w₀ : World} {dotted : Str}
    (hnone : w₀.holdings.cached g dotted = none)
    (hlost : w₀.holdings.Always Record.Alone → (g, dotted) ∉ w₀.ledger.completed)
    (hbegun : w₀.ledger.unfailed g dotted < w.ledger.unfailed g dotted)
    (hcompleted : (g, dotted) ∈ w.ledger.completed → (g, dotted) ∈ w₀.ledger.completed ∨
      w₀.ledger.unfailed g dotted + 1 < w.ledger.unfailed g dotted) :
    Keeps (discipline.within (Later w₀)) w
      (GuestBindings.removeCached g dotted (w₀.ledger.unfailed g dotted)) fun _ w' =>
        w'.holdings.cached g dotted = none ∧
          w₀.ledger.unfailed g dotted ≤ w'.ledger.unfailed g dotted := by
  refine keeps_withMut (fun _ _ h h' => h'.trans h) (fun w' hw' hsame hfree => Keeps.get ?_)
    fun _ _ h => h
  have hledger : w'.ledger = w.ledger := congrArg Holdings.ledger hsame
  rw [← hledger] at hbegun hcompleted
  refine Keeps.bind (Keeps.modify (R := fun _ t => t.holdings.cached g dotted = none ∧
    w₀.ledger.unfailed g dotted ≤ t.ledger.unfailed g dotted)
    (fun h => ⟨inv_removeRealised h.1 fun hA hothers hc => ?_, h.2.frames, ?_⟩) trivial
    ⟨?_, ?_⟩) fun _ t _ ht => Keeps.pure ht
  · have hlater := h.2.closed
    have hothers : w'.ledger.unfailed g dotted - (w₀.ledger.unfailed g dotted + 1) = 0 := hothers
    rcases hcompleted hc with hc | hlt
    · exact hlost (fun r hr => hA r (hlater.grown.records hr)) hc
    · omega
  · have hlater := h.2.closed
    have hfree₀ : ¬ w₀.Held (.bindings g) := by
      unfold World.Held
      rw [← hlater.frames]
      exact hfree
    refine ⟨hlater.events, hlater.frames, ?_, ?_⟩
    · refine Eq.trans ?_ hlater.denies
      exact denies_setRealised g dotted none
    · exact hlater.grown.removed (recached_setRealised _ g dotted none) hfree₀ hnone hbegun
        hcompleted
  · exact (recached_setRealised (w'.openFrame _) g dotted none).cached_self _
  · have hself : setName w'.ledger.unfailed g dotted (w'.ledger.unfailed g dotted - 1) g dotted =
        w'.ledger.unfailed g dotted - 1 := if_pos ⟨rfl, rfl⟩
    exact (Nat.le_sub_one_of_lt hbegun).trans_eq hself.symm

/-! ### Mounting -/

omit hcall in
theorem safe_refuse {α : Type} {before : GuestBindings} {e : Err} {Q : α → World → Prop}
    (hbefore : w.bindings g = before) : Safe w (GuestBindings.refuse g before e) Q := by
  refine Keeps.bind (safe_note rfl fun _ => ?_) fun _ _ _ _ => Keeps.throw
  exact ⟨fun _ => trivial, fun _ => trivial, fun _ => trivial, hbefore⟩

omit hcall in
/-- A change of the bindings of `g`, apart from the cache, while they are borrowed. -/
theorem keeps_rebind {w₀ : World} {frames : List Frame} {f : World → World}
    (hfree : ¬ w₀.Held (.bindings g)) (hinv : Inv w → Inv (f w)) (hevents : (f w).events = w.events)
    (hframes : (f w).frames = w.frames) (hdenies : (f w).denies = w.denies)
    (hb : ∀ x, x ≠ g → (f w).bindings x = w.bindings x)
    (hcached : ∀ x, ((f w).bindings x).state.realised = (w.bindings x).state.realised)
    (hledger : ∀ held, Grown held w.holdings ⟨w.bindings, (f w).ledger⟩) :
    Keeps (discipline.within (Under (.mounting g) frames (Later w₀))) w
      (Host.modify f : Host World Err Unit) fun _ _ => True := by
  refine Keeps.modify (fun h => ⟨hinv h.1, hframes.trans h.2.frames, ?_⟩) trivial trivial
  have hlater := h.2.closed
  refine ⟨?_, ?_, hdenies.trans hlater.denies, ?_⟩
  · exact hlater.events.trans (hevents ▸ List.suffix_refl _)
  · exact (congrArg List.tail hframes).trans hlater.frames
  · exact hlater.grown.trans ((hledger _).rebind hb hcached hfree)

omit hcall in
/-- A change of what a guest has loaded and prepared. -/
theorem keeps_setState {w₀ : World} {frames : List Frame} {f : BindingState → BindingState}
    (hfree : ¬ w₀.Held (.bindings g)) (hsources : ∀ s, (f s).sources = s.sources)
    (hextensions : ∀ s, (f s).extensions = s.extensions)
    (hrealised : ∀ s, (f s).realised = s.realised) :
    Keeps (discipline.within (Under (.mounting g) frames (Later w₀))) w
      (Host.modify (World.setState g f) : Host World Err Unit) fun _ _ => True := by
  have hsame : ∀ {α : Type} (p : GuestBindings → α),
      (∀ b : GuestBindings, p { b with state := f b.state } = p b) →
        ∀ x, p ((w.setState g f).bindings x) = p (w.bindings x) := by
    intro α p hp x
    by_cases hx : x = g
    · rw [hx, World.bindings_setState_self]
      exact hp _
    · rw [World.bindings_setState_of_ne hx]
  have hcached := hsame (·.state.realised) fun b => hrealised b.state
  refine keeps_rebind hfree (fun h => ?_) rfl rfl (denies_setState g f)
    (fun x hx => World.bindings_setState_of_ne hx f w) hcached fun _ => .refl _ _
  refine ⟨h.flags, fun x name m hm => ?_, h.extensions, ?_, ?_⟩
  · rw [hcached] at hm
    exact h.cached x name m hm
  · rw [denies_setState]
    exact h.justified
  · exact h.sound.congr (hsame (·.specs) fun _ => rfl) (hsame (·.natives) fun _ => rfl)
      (hsame (·.state.sources) fun b => hsources b.state)
      (hsame (·.state.extensions) fun b => hextensions b.state) hcached rfl rfl rfl rfl rfl rfl

omit hcall in
/-- The names of a bundle are bound to its sources. -/
theorem keeps_withSources {w₀ : World} {frames : List Frame} (bundle : Bundle)
    (loader : PreparedExtensions) (hfree : ¬ w₀.Held (.bindings g)) :
    Keeps (discipline.within (Under (.mounting g) frames (Later w₀))) w
      (Host.modify fun w' =>
        (w'.setState g fun s =>
          { s with
            sources := fun name => if name ∈ bundle.names then some bundle else s.sources name
            extensions := fun name =>
              if name ∈ loader.names then some loader else s.extensions name }).record
          (·.mount g bundle (w.holdings.clashes g bundle)) : Host World Err Unit)
      fun _ _ => True := by
  have hcached : ∀ x, (withSources w.bindings g bundle loader x).state.realised =
      (w.bindings x).state.realised := withSources_realised w.bindings
  have hdenies : ∀ f l, ((w.setState g f).record l).denies = w.denies :=
    fun f _ => denies_setState g f
  refine keeps_rebind hfree (fun h => ?_) rfl rfl (hdenies _ _)
    (fun x hx => withSources_of_ne hx) hcached fun held => ?_
  · refine ⟨h.flags, fun x name m hm => ?_, h.extensions, ?_, h.sound.mount rfl⟩
    · have hm : (withSources w.bindings g bundle loader x).state.realised name = some m := hm
      rw [hcached] at hm
      exact h.cached x name m hm
    · rw [hdenies]
      exact h.justified
  · exact .of_ledger (List.subset_cons_self _ _) rfl (fun _ _ hl => hl) rfl rfl

theorem keeps_prepareBundle {w₀ : World} {frames : List Frame} (bundle : Bundle)
    {before : GuestBindings} (hfree : ¬ w₀.Held (.bindings g))
    (hbefore : w.bindings g = before) (hheld : w.Held (.bindings g)) :
    Keeps (discipline.within (Under (.mounting g) frames (Later w₀))) w
      (GuestBindings.prepareBundle callout g bundle before) fun _ _ => True := by
  have hmono : ∀ t t', Later t t' → Under (.mounting g) frames (Later w₀) t →
      Under (.mounting g) frames (Later w₀) t' := Under.mono fun _ _ h h' => h'.trans h
  refine Keeps.get ?_
  split
  · exact Keeps.bind (Keeps.pure (Q := fun _ _ => True) trivial) fun loader t _ _ =>
      Keeps.get (keeps_withSources bundle loader hfree)
  · refine Keeps.bind ((Keeps.attempt (R := fun r w' => ∀ e, r = .error e → w'.bindings g = before)
      (Keeps.mono (hcall (.prepare g bundle.id) w) fun _ _ _ _ _ h => nomatch h)
      fun e w' hw' _ _ => (hw'.grown.held g hheld).trans hbefore).within (hmono w))
      fun r w' _ hr => ?_
    rcases r with e | answer
    · exact Keeps.bind (Keeps.mono ((safe_refuse (Q := fun _ _ => False)
        (hr.1 e rfl)).within (hmono w')) fun _ _ _ h => h.1) fun _ _ _ h => h.elim
    · refine Keeps.bind (keeps_setState hfree (fun _ => rfl) (fun _ => rfl) fun _ => rfl)
        fun _ _ _ _ => ?_
      exact Keeps.bind (Keeps.pure (Q := fun _ _ => True) trivial) fun loader t _ _ =>
        Keeps.get (keeps_withSources bundle loader hfree)

theorem safe_mount (bundle : Bundle) (root : Str) :
    Safe w (GuestBindings.mount callout g bundle root) fun _ _ => True := by
  refine Keeps.get (Keeps.bind (safe_spec g root) fun spec w' _ hspec => ?_)
  obtain ⟨-, rfl⟩ := hspec
  rcases spec with _ | spec
  · refine Keeps.of_within (keeps_withMut (fun _ _ h h' => h'.trans h)
      (fun w1 hw1 hsame hfree => Keeps.get ?_) fun _ _ h => h)
    have hfree₀ : ¬ w'.Held (.bindings g) := by
      unfold World.Held
      rw [← hw1.frames]
      exact hfree
    have hbefore : (w1.openFrame (.mounting g)).bindings g = w'.bindings g :=
      congrFun (congrArg Holdings.bindings hsame) g
    have hmono : ∀ t t', Later t t' → Under (.mounting g) w1.frames (Later w') t →
        Under (.mounting g) w1.frames (Later w') t' := Under.mono fun _ _ h h' => h'.trans h
    split
    · refine Keeps.ite (fun _ => ?_) fun _ => ?_
      · refine Keeps.mono ((safe_note rfl fun _ => ?_).within (hmono _)) fun _ _ _ _ => trivial
        exact ⟨fun _ => trivial, fun _ => trivial, fun _ => trivial, trivial⟩
      · exact Keeps.mono ((safe_refuse (Q := fun _ _ => True) hbefore).within (hmono _))
          fun _ _ _ h => h.1
    · refine Keeps.bind (keeps_prepareBundle hcall bundle hfree₀ hbefore ?_) fun _ t _ _ => ?_
      · exact List.mem_cons_self
      · exact keeps_setState hfree₀ (fun _ => rfl) (fun _ => rfl) fun _ => rfl
  · exact safe_refuse rfl

end Bindings

end GuestPy
