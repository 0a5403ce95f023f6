import GuestPy.Imports.World

/-!
# The ledger of imports

The records of a run say what its imports found and did. This module says which records are
promised and on what condition, and keeps the account that the promises rest on.

* A `Record` is `Restored`, `Served` or `Reached` if it is as promised by failed imports, mounted
  bundles and bound names; `Alone`, `Clear` and `Rooted` are the conditions of the three.
* `Sound` is the account: as long as a condition has held of all records, the bindings are such
  that its promise will hold of the next one.
* `Grown` is what an import leaves alone in the bindings, however it ends.
-/

namespace GuestPy

open DottedName

/-! ## Records -/

namespace Record

/-- No other realisation of a failing module has begun meanwhile without failing. -/
def Alone : Record → Prop
  | .removed _ _ others => others = 0
  | .failed _ _ others _ _ => others = 0
  | _ => True

/-- A failed module is not in the cache, and what completed is. The cache serves nothing that
failed. Where an import succeeds, every package is in its place. -/
def Restored : Record → Prop
  | .failed _ _ _ left lost => left = none ∧ lost = []
  | .joined _ _ stale => stale = false
  | .imported _ _ _ _ _ _ linked => linked = true
  | _ => True

/-- No name of a bundle that is mounted is taken. -/
def Clear : Record → Prop
  | .mounted _ _ clash => clash = false
  | _ => True

/-- What a mounted bundle has is imported from its source, by the guest itself. -/
def Served : Record → Prop
  | .routed _ _ _ _ owners handled => owners ≠ [] → handled = true
  | .missing _ _ _ owners => owners = []
  | .imported _ _ origin _ _ owners _ => ∀ b ∈ owners, origin = some (.source b.id)
  | _ => True

/-- A mount that fails leaves the bindings as they were. -/
def Untouched : Record → Prop
  | .refused _ before after => after = before
  | _ => True

/-- A bound name is imported for the guest whose code asks for it, and its packages are bound. -/
def Rooted : Record → Prop
  | .asked asker guest _ bound rooted => bound = true → guest = some asker ∧ rooted = true
  | .walked _ _ bound rooted => bound = true → rooted = true
  | _ => True

/-- What is bound is imported by the guest itself, from the first of its bindings, and finds
everything on its way. -/
def Reached : Record → Prop
  | .asked asker guest _ bound _ => bound = true → guest = some asker
  | .routed asker g _ bound _ handled => bound = true → g = asker ∧ handled = true
  | .missing _ _ bound _ => bound = false
  | .chose _ _ origin offer => offer = some origin
  | .imported _ _ origin offer bundles _ _ => bundles = [] → offer.isSome = true → origin = offer
  | _ => True

/-- What is promised of a record among others. -/
structure Lawful (records : List Record) (r : Record) : Prop where
  restored : (∀ r ∈ records, Alone r) → r.Restored
  served : (∀ r ∈ records, Clear r) → r.Served
  reached : (∀ r ∈ records, Rooted r) → r.Reached
  untouched : r.Untouched

theorem Lawful.mono {records records' : List Record} {r : Record} (h : r.Lawful records)
    (hsub : records ⊆ records') : r.Lawful records' where
  restored ha := h.restored fun r hr => ha r (hsub hr)
  served hc := h.served fun r hr => hc r (hsub hr)
  reached hr := h.reached fun r' hr' => hr r' (hsub hr')
  untouched := h.untouched

end Record

/-! ## The account -/

namespace Holdings

/-- All records satisfy `P`. -/
def Always (P : Record → Prop) (h : Holdings) : Prop := ∀ r ∈ h.ledger.records, P r

theorem Always.tail {P : Record → Prop} {h h' : Holdings} {r : Record} (ha : h'.Always P)
    (hr : h'.ledger.records = r :: h.ledger.records) : h.Always P :=
  fun x hx => ha x (hr ▸ List.mem_cons_of_mem r hx)

/-- The mounted bundle `b` is what `name` stands for. -/
structure Serves (h : Holdings) (g : GuestId) (b : Bundle) (name : Str) : Prop where
  spec : (h.bindings g).specs name = none
  native : (h.bindings g).natives name = none
  source : (h.bindings g).state.sources name = some b
  cached : ∀ m, h.cached g name = some m → h.ledger.origins g name = some (.source b.id)
  underway : ∀ o, .realising g name o ∈ h.ledger.stack → o = .source b.id

theorem ne_of_cached {h : Holdings} {g x : GuestId} {name n : Str} {m : Module}
    (hnone : h.cached g name = none) (hm : h.cached x n = some m) : ¬ (x = g ∧ n = name) := by
  rintro ⟨rfl, rfl⟩
  rw [hnone] at hm
  cases hm

theorem Serves.offer {h : Holdings} {g : GuestId} {b : Bundle} {name : Str}
    (hs : h.Serves g b name) : h.offer g name = some (.source b.id) := by
  unfold Holdings.offer GuestBindings.offer
  rw [hs.spec, hs.native, hs.source]

end Holdings

structure Sound (h : Holdings) : Prop where
  lawful : h.Always (Record.Lawful h.ledger.records)
  completed : h.Always Record.Alone →
    ∀ x ∈ h.ledger.completed, (h.cached x.1 x.2).isSome = true
  stale : h.Always Record.Alone →
    ∀ g name, h.ledger.stale g name = true → h.cached g name = none
  serves : h.Always Record.Clear →
    ∀ g, ∀ b ∈ h.ledger.mounted g, ∀ name ∈ b.names, h.Serves g b name
  rooted : h.Always Record.Rooted →
    ∀ g dotted, .walking g dotted true ∈ h.ledger.stack →
      ∀ p ∈ prefixes dotted, (h.offer g p).isSome = true
  chosen : ∀ g name o, .realising g name o ∈ h.ledger.stack → h.ledger.mounted g = [] →
    h.offer g name = some o
  origin : ∀ g name m, h.cached g name = some m → h.ledger.mounted g = [] →
    h.ledger.origins g name = h.offer g name

namespace Sound

variable {h h' : Holdings} {g : GuestId} {name : Str}

/-- The account is about what it reads. -/
theorem congr (hs : Sound h) (hspecs : ∀ g, (h'.bindings g).specs = (h.bindings g).specs)
    (hnatives : ∀ g, (h'.bindings g).natives = (h.bindings g).natives)
    (hsources : ∀ g, (h'.bindings g).state.sources = (h.bindings g).state.sources)
    (hextensions : ∀ g, (h'.bindings g).state.extensions = (h.bindings g).state.extensions)
    (hcached : ∀ g, (h'.bindings g).state.realised = (h.bindings g).state.realised)
    (hrecords : h'.ledger.records = h.ledger.records) (hstack : h'.ledger.stack = h.ledger.stack)
    (horigins : h'.ledger.origins = h.ledger.origins) (hstale : h'.ledger.stale = h.ledger.stale)
    (hcompleted : h'.ledger.completed = h.ledger.completed)
    (hmounted : h'.ledger.mounted = h.ledger.mounted) : Sound h' := by
  have hc : h'.cached = h.cached := by
    funext g
    exact hcached g
  have ho : h'.offer = h.offer := by
    funext g name
    unfold Holdings.offer GuestBindings.offer
    rw [hspecs, hnatives, hsources, hextensions]
  have ha : ∀ {P}, h'.Always P → h.Always P := fun hP r hr => hP r (hrecords ▸ hr)
  refine ⟨?_, fun hA => ?_, fun hA => ?_, fun hC g b hb name hn => ?_, fun hR => ?_, ?_, ?_⟩
  · intro r hr
    rw [hrecords] at hr ⊢
    exact hs.lawful r hr
  · rw [hcompleted, hc]
    exact hs.completed (ha hA)
  · rw [hstale, hc]
    exact hs.stale (ha hA)
  · obtain ⟨hsp, hna, hso, hca, hun⟩ := hs.serves (ha hC) g b (hmounted ▸ hb) name hn
    refine ⟨?_, ?_, ?_, ?_, ?_⟩
    · rw [hspecs, hsp]
    · rw [hnatives, hna]
    · rw [hsources, hso]
    · rw [hc, horigins]
      exact hca
    · rw [hstack]
      exact hun
  · rw [hstack, ho]
    exact hs.rooted (ha hR)
  · rw [hstack, hmounted, ho]
    exact hs.chosen
  · rw [hc, hmounted, ho, horigins]
    exact hs.origin

theorem note {r : Record} (hs : Sound h) (hr : r.Lawful (r :: h.ledger.records)) :
    Sound ⟨h.bindings, h.note r⟩ where
  lawful x hx := by
    rcases List.mem_cons.1 hx with rfl | hx
    · exact hr
    · exact (hs.lawful x hx).mono (List.subset_cons_self _ _)
  completed ha := hs.completed (ha.tail (r := r) rfl)
  stale ha := hs.stale (ha.tail (r := r) rfl)
  serves hc g b hb name hn :=
    let hb := hs.serves (hc.tail (r := r) rfl) g b hb name hn
    ⟨hb.spec, hb.native, hb.source, hb.cached, hb.underway⟩
  rooted hr := hs.rooted (hr.tail (r := r) rfl)
  chosen := hs.chosen
  origin := hs.origin

theorem neutral {l : Ledger} (hs : Sound h) (hrecords : l.records = h.ledger.records)
    (hstack : l.stack = h.ledger.stack) (horigins : l.origins = h.ledger.origins)
    (hstale : l.stale = h.ledger.stale) (hcompleted : l.completed = h.ledger.completed)
    (hmounted : l.mounted = h.ledger.mounted) : Sound ⟨h.bindings, l⟩ :=
  hs.congr (fun _ => rfl) (fun _ => rfl) (fun _ => rfl) (fun _ => rfl) (fun _ => rfl) hrecords
    hstack horigins hstale hcompleted hmounted

/-- A name begins to be imported. -/
theorem walking {l : Ledger} {bound : Bool} (hs : Sound h)
    (hl : l = { h.ledger with stack := .walking g name bound :: h.ledger.stack })
    (hrooted : h.Always Record.Rooted → bound = true →
      ∀ p ∈ prefixes name, (h.offer g p).isSome = true) : Sound ⟨h.bindings, l⟩ := by
  subst hl
  refine ⟨hs.lawful, hs.completed, hs.stale, fun hC x b hb n hn => ?_, fun hR x n hmem => ?_,
    fun x n o hmem => ?_, hs.origin⟩
  · obtain ⟨hsp, hna, hso, hca, hun⟩ := hs.serves hC x b hb n hn
    refine ⟨hsp, hna, hso, hca, fun o ho => hun o ?_⟩
    rcases List.mem_cons.1 ho with ho | ho
    · cases ho
    · exact ho
  · rcases List.mem_cons.1 hmem with hmem | hmem
    · cases hmem
      exact hrooted hR rfl
    · exact hs.rooted hR x n hmem
  · rcases List.mem_cons.1 hmem with hmem | hmem
    · cases hmem
    · exact hs.chosen x n o hmem

/-- A module begins to be realised, from what its name stands for. -/
theorem realising {l : Ledger} {o : Origin} (hs : Sound h) (ho : h.offer g name = some o)
    (hrecords : l.records = h.ledger.records)
    (hstack : l.stack = .realising g name o :: h.ledger.stack)
    (horigins : l.origins = h.ledger.origins) (hstale : l.stale = h.ledger.stale)
    (hcompleted : l.completed = h.ledger.completed) (hmounted : l.mounted = h.ledger.mounted) :
    Sound ⟨h.bindings, l⟩ := by
  obtain ⟨records, stack, origins, linked, unfailed, stale, completed, mounted⟩ := l
  subst hrecords hstack horigins hstale hcompleted hmounted
  refine ⟨hs.lawful, hs.completed, hs.stale, fun hC x b hb n hn => ?_, fun hR x n hmem => ?_,
    fun x n o' hmem => ?_, hs.origin⟩
  · have hserves := hs.serves hC x b hb n hn
    refine ⟨hserves.spec, hserves.native, hserves.source, hserves.cached, fun o' ho' => ?_⟩
    rcases List.mem_cons.1 ho' with ho' | ho'
    · cases ho'
      exact Option.some.inj (ho.symm.trans hserves.offer)
    · exact hserves.underway o' ho'
  · rcases List.mem_cons.1 hmem with hmem | hmem
    · cases hmem
    · exact hs.rooted hR x n hmem
  · rcases List.mem_cons.1 hmem with hmem | hmem
    · cases hmem
      exact fun _ => ho
    · exact hs.chosen x n o' hmem

theorem leave (hs : Sound h) : Sound ⟨h.bindings, h.leave⟩ where
  lawful := hs.lawful
  completed := hs.completed
  stale := hs.stale
  serves hC x b hb n hn :=
    let hserves := hs.serves hC x b hb n hn
    ⟨hserves.spec, hserves.native, hserves.source, hserves.cached,
      fun o ho => hserves.underway o (List.mem_of_mem_tail ho)⟩
  rooted hR x n hmem := hs.rooted hR x n (List.mem_of_mem_tail hmem)
  chosen x n o hmem := hs.chosen x n o (List.mem_of_mem_tail hmem)
  origin := hs.origin

theorem complete (hs : Sound h) (hc : (h.cached g name).isSome = true) :
    Sound ⟨h.bindings, h.complete g name⟩ where
  lawful := hs.lawful
  completed hA x hx := by
    rcases List.mem_cons.1 hx with rfl | hx
    · exact hc
    · exact hs.completed hA x hx
  stale := hs.stale
  serves hC x b hb n hn :=
    let hserves := hs.serves hC x b hb n hn
    ⟨hserves.spec, hserves.native, hserves.source, hserves.cached, hserves.underway⟩
  rooted := hs.rooted
  chosen := hs.chosen
  origin := hs.origin

/-- Nothing that completed is lost. -/
theorem lost_eq_nil (hs : Sound h) (hA : h.Always Record.Alone) : h.lost = [] := by
  refine List.filter_eq_nil_iff.2 fun x hx hlost => ?_
  have hc := hs.completed hA x hx
  rw [Option.isNone_iff_eq_none] at hlost
  rw [hlost] at hc
  cases hc

theorem failed {since : Nat} (hs : Sound h)
    (hleft : h.ledger.unfailed g name - since = 0 → h.cached g name = none) :
    Sound ⟨h.bindings, h.failed g name since⟩ := by
  have hrecord : (Record.failed g name (h.ledger.unfailed g name - since) (h.cached g name)
      h.lost).Lawful (.failed g name (h.ledger.unfailed g name - since) (h.cached g name)
        h.lost :: h.ledger.records) := by
    refine ⟨fun hA => ⟨hleft (hA _ List.mem_cons_self), ?_⟩, fun _ => trivial, fun _ => trivial,
      trivial⟩
    exact hs.lost_eq_nil fun r hr => hA r (List.mem_cons_of_mem _ hr)
  obtain ⟨hlawful, hcompleted, hstale, hserves, hrooted, hchosen, horigin⟩ := hs.note hrecord
  refine ⟨hlawful, hcompleted, fun hA x n hst => ?_, fun hC x b hb n hn => ?_, hrooted, hchosen,
    horigin⟩
  · have hst : (if x = g ∧ n = name then true else h.ledger.stale x n) = true := hst
    by_cases hx : x = g ∧ n = name
    · rw [hx.1, hx.2]
      exact hleft (hA _ List.mem_cons_self)
    · rw [if_neg hx] at hst
      exact hstale hA x n hst
  · obtain ⟨hsp, hna, hso, hca, hun⟩ := hserves hC x b hb n hn
    exact ⟨hsp, hna, hso, hca, hun⟩

end Sound

/-- `b'` differs from `b` in the cache entry of one name. -/
structure Recached (b b' : GuestId → GuestBindings) (g : GuestId) (name : Str)
    (m : Option Module) : Prop where
  specs : ∀ x, (b' x).specs = (b x).specs
  natives : ∀ x, (b' x).natives = (b x).natives
  sources : ∀ x, (b' x).state.sources = (b x).state.sources
  extensions : ∀ x, (b' x).state.extensions = (b x).state.extensions
  realised : ∀ x n, (b' x).state.realised n =
    if x = g ∧ n = name then m else (b x).state.realised n
  others : ∀ x, x ≠ g → b' x = b x

theorem recached_setRealised (w : World) (g : GuestId) (name : Str) (m : Option Module) :
    Recached w.bindings (w.setRealised g name m).bindings g name m := by
  have hsame : ∀ {α : Type} (f : GuestBindings → α),
      (∀ b : GuestBindings, ∀ s : BindingState, s.sources = b.state.sources →
        s.extensions = b.state.extensions → f { b with state := s } = f b) →
      ∀ x, f ((w.setRealised g name m).bindings x) = f (w.bindings x) := by
    intro α f hf x
    unfold World.setRealised
    by_cases hx : x = g
    · rw [hx, World.bindings_setState_self]
      exact hf _ _ rfl rfl
    · rw [World.bindings_setState_of_ne hx]
  refine ⟨hsame (·.specs) fun _ _ _ _ => rfl, hsame (·.natives) fun _ _ _ _ => rfl,
    hsame (·.state.sources) fun _ _ h _ => h, hsame (·.state.extensions) fun _ _ _ h => h,
    fun x n => World.realised_setRealised g x name n m w, fun x hx => ?_⟩
  exact World.bindings_setState_of_ne hx _ _

namespace Recached

variable {b b' : GuestId → GuestBindings} {g : GuestId} {name : Str} {m : Option Module}

theorem offer (hb : Recached b b' g name m) (l : Ledger) (x : GuestId) (n : Str) :
    (⟨b', l⟩ : Holdings).offer x n = (b x).offer n := by
  unfold Holdings.offer GuestBindings.offer
  dsimp only
  rw [hb.specs, hb.natives, hb.sources, hb.extensions]

theorem cached_self (hb : Recached b b' g name m) (l : Ledger) :
    (⟨b', l⟩ : Holdings).cached g name = m := (hb.realised g name).trans (if_pos ⟨rfl, rfl⟩)

theorem cached_of_ne (hb : Recached b b' g name m) (l : Ledger) {x : GuestId} {n : Str}
    (hx : ¬ (x = g ∧ n = name)) :
    (⟨b', l⟩ : Holdings).cached x n = (b x).state.realised n :=
  (hb.realised x n).trans (if_neg hx)

/-- What serves another name, or this one from the same source, still does. -/
theorem serves {h : Holdings} {l : Ledger} {x : GuestId} {n : Str} {bundle : Bundle}
    (hb : Recached h.bindings b' g name m) (hs : h.Serves x bundle n)
    (hcached : ∀ m', (⟨b', l⟩ : Holdings).cached x n = some m' →
      l.origins x n = some (.source bundle.id)) (hstack : l.stack = h.ledger.stack) :
    Holdings.Serves ⟨b', l⟩ x bundle n := by
  obtain ⟨hspec, hnative, hsource, -, hunderway⟩ := hs
  refine ⟨?_, ?_, ?_, hcached, ?_⟩
  · exact (congrFun (hb.specs x) n).trans hspec
  · exact (congrFun (hb.natives x) n).trans hnative
  · exact (congrFun (hb.sources x) n).trans hsource
  · rw [hstack]
    exact hunderway

end Recached

namespace Sound

variable {h : Holdings} {b' : GuestId → GuestBindings} {g : GuestId} {name : Str}

/-- The module that is underway enters the cache. -/
theorem caching {m : Module} {o : Origin} (hs : Sound h)
    (hb : Recached h.bindings b' g name (some m))
    (hhead : h.ledger.stack.head? = some (.realising g name o)) :
    Sound ⟨b', h.caching g name⟩ := by
  have hmem : .realising g name o ∈ h.ledger.stack := List.mem_of_mem_head? hhead
  have horigins : (h.caching g name).origins = setName h.ledger.origins g name (some o) := by
    unfold Holdings.caching
    rw [hhead]
  refine ⟨hs.lawful, fun hA x hx => ?_, fun hA x n hst => ?_, fun hC x b hmounted n hn => ?_,
    fun hR x n hw p hp => ?_, fun x n o' hr hm => ?_, fun x n m' hc hm => ?_⟩
  · by_cases hx' : x.1 = g ∧ x.2 = name
    · rw [hx'.1, hx'.2, hb.cached_self]
      rfl
    · rw [hb.cached_of_ne _ hx']
      exact hs.completed hA x hx
  · have hst : (if x = g ∧ n = name then false else h.ledger.stale x n) = true := hst
    by_cases hx : x = g ∧ n = name
    · rw [if_pos hx] at hst
      cases hst
    · rw [if_neg hx] at hst
      rw [hb.cached_of_ne _ hx]
      exact hs.stale hA x n hst
  · have hserves := hs.serves hC x b hmounted n hn
    refine hb.serves hserves (fun m' hc => ?_) rfl
    rw [horigins]
    unfold setName
    by_cases hx : x = g ∧ n = name
    · rw [if_pos hx]
      obtain ⟨rfl, rfl⟩ := hx
      rw [hserves.underway o hmem]
    · rw [if_neg hx]
      rw [hb.cached_of_ne _ hx] at hc
      exact hserves.cached m' hc
  · rw [hb.offer]
    exact hs.rooted hR x n hw p hp
  · rw [hb.offer]
    exact hs.chosen x n o' hr hm
  · change (h.caching g name).origins x n = _
    rw [horigins, hb.offer]
    unfold setName
    by_cases hx : x = g ∧ n = name
    · rw [if_pos hx]
      obtain ⟨rfl, rfl⟩ := hx
      exact (hs.chosen x n o hmem hm).symm
    · rw [if_neg hx]
      rw [hb.cached_of_ne _ hx] at hc
      exact hs.origin x n m' hc hm

/-- A module leaves the cache. If none but the realisation that failed made it, nothing that
completed is lost. -/
theorem removed {since : Nat} (hs : Sound h) (hb : Recached h.bindings b' g name none)
    (hlost : h.Always Record.Alone → h.ledger.unfailed g name - (since + 1) = 0 →
      (g, name) ∉ h.ledger.completed) : Sound ⟨b', h.removed g name since⟩ := by
  have hrecord : (Record.removed g name (h.ledger.unfailed g name - (since + 1))).Lawful
      (.removed g name (h.ledger.unfailed g name - (since + 1)) :: h.ledger.records) :=
    ⟨fun _ => trivial, fun _ => trivial, fun _ => trivial, trivial⟩
  obtain ⟨hlawful, hcompleted, hstale, -, hrooted, hchosen, horigin⟩ := hs.note hrecord
  refine ⟨hlawful, fun hA x hx => ?_, fun hA x n hst => ?_, fun hC x b hmounted n hn => ?_,
    fun hR x n hw p hp => ?_, fun x n o' hr hm => ?_, fun x n m' hc hm => ?_⟩
  · have hx' : ¬ (x.1 = g ∧ x.2 = name) := by
      rintro ⟨h1, h2⟩
      refine hlost (fun r hr => hA r (List.mem_cons_of_mem _ hr)) (hA _ List.mem_cons_self) ?_
      rw [← h1, ← h2]
      exact hx
    rw [hb.cached_of_ne _ hx']
    exact hcompleted hA x hx
  · by_cases hx : x = g ∧ n = name
    · rw [hx.1, hx.2]
      exact hb.cached_self _
    · rw [hb.cached_of_ne _ hx]
      exact hstale hA x n hst
  · have hserves := hs.serves (hC.tail (h := h) rfl) x b hmounted n hn
    refine hb.serves hserves (fun m' hc => ?_) rfl
    by_cases hx : x = g ∧ n = name
    · rw [hx.1, hx.2, hb.cached_self] at hc
      cases hc
    · rw [hb.cached_of_ne _ hx] at hc
      exact hserves.cached m' hc
  · rw [hb.offer]
    exact hrooted hR x n hw p hp
  · rw [hb.offer]
    exact hchosen x n o' hr hm
  · rw [hb.offer]
    by_cases hx : x = g ∧ n = name
    · rw [hx.1, hx.2, hb.cached_self] at hc
      cases hc
    · rw [hb.cached_of_ne _ hx] at hc
      exact horigin x n m' hc hm

end Sound

/-! ## What imports find -/

section Finding

variable {h : Holdings} {g : GuestId} {name : Str}

theorem setName_true {f : GuestId → Str → Bool} {x : GuestId} {n : Str} (hf : f x n = true) :
    setName f g name true x n = true := by
  unfold setName
  split
  · rfl
  · exact hf

theorem mem_owners {b : Bundle} (hb : b ∈ h.owners g name) :
    b ∈ h.ledger.mounted g ∧ ∀ p ∈ prefixes name, p ∈ b.names := by
  obtain ⟨hmem, hall⟩ := List.mem_filter.1 hb
  exact ⟨hmem, fun p hp => of_decide_eq_true (List.all_eq_true.1 hall p hp)⟩

/-- A bundle that has a name with all its packages serves them. -/
theorem Sound.owner {b : Bundle} {p : Str} (hs : Sound h) (hC : h.Always Record.Clear)
    (hb : b ∈ h.owners g name) (hp : p ∈ prefixes name) : h.Serves g b p := by
  obtain ⟨hmem, hall⟩ := mem_owners hb
  exact hs.serves hC g b hmem p (hall p hp)

/-- Nothing is bound under a name that is looked up on the way to another. -/
theorem Sound.lack {target : Str} {bound : Bool} (hs : Sound h) (hnone : h.cached g name = none)
    (ho : h.offer g name = none)
    (hhead : h.ledger.stack.head? = some (.walking g target bound))
    (hp : name ∈ prefixes target) : Sound ⟨h.bindings, h.lack g name⟩ := by
  have hbound : h.walkBound = bound := by
    unfold Holdings.walkBound
    rw [hhead]
  have howners : h.walkOwners = h.owners g target := by
    unfold Holdings.walkOwners
    rw [hhead]
  have hmissing : (Record.missing g name h.walkBound h.walkOwners).Lawful
      (.missing g name h.walkBound h.walkOwners :: h.ledger.records) := by
    refine ⟨fun _ => trivial, fun hC => ?_, fun hR => ?_, trivial⟩
    · change h.walkOwners = []
      rw [howners]
      refine List.eq_nil_iff_forall_not_mem.2 fun b hb => ?_
      have hserves := hs.owner (fun r hr => hC r (List.mem_cons_of_mem _ hr)) hb hp
      rw [hserves.offer] at ho
      cases ho
    · change h.walkBound = false
      rw [hbound]
      cases bound with
      | false => rfl
      | true =>
        have hoffer := hs.rooted (fun r hr => hR r (List.mem_cons_of_mem _ hr)) g target
          (List.mem_of_mem_head? hhead) name hp
        rw [ho] at hoffer
        cases hoffer
  have hs' := hs.note hmissing
  refine hs'.note (r := .failed g name 0 (h.cached g name) h.lost) ?_
  refine ⟨fun hA => ⟨hnone, ?_⟩, fun _ => trivial, fun _ => trivial, trivial⟩
  exact hs'.lost_eq_nil fun r hr => hA r (List.mem_cons_of_mem _ hr)

/-- What is bound, or served by a mounted bundle, is found by its first component. -/
theorem lawful_routed {asker : GuestId} {handled : Bool} (hs : Sound h)
    (hasked : .asked asker (some g) name (h.binds asker name) (h.rooted asker name) ∈
      h.ledger.records)
    (hhandled : (h.offer g (head name)).isSome = true → handled = true) :
    (Record.routed asker g name (h.binds asker name) (h.owners g name) handled).Lawful
      (.routed asker g name (h.binds asker name) (h.owners g name) handled ::
        h.ledger.records) := by
  refine ⟨fun _ => trivial, fun hC hne => ?_, fun hR hbound => ?_, trivial⟩
  · obtain ⟨b, hb⟩ := List.exists_mem_of_ne_nil _ hne
    have hserves := hs.owner (fun r hr => hC r (List.mem_cons_of_mem _ hr)) hb
      (head_mem_prefixes name)
    apply hhandled
    rw [hserves.offer]
    rfl
  · obtain ⟨hself, hrooted⟩ := hR _ (List.mem_cons_of_mem _ hasked) hbound
    obtain rfl := Option.some.inj hself
    exact ⟨rfl, hhandled (List.all_eq_true.1 hrooted _ (head_mem_prefixes name))⟩

/-- An import that went along all its packages. -/
theorem lawful_imported {m : Module} (hs : Sound h) (hm : h.cached g name = some m)
    (hplace : ∀ p ∈ prefixes name, h.inPlace g p = true) :
    (Record.imported g name (h.ledger.origins g name) (h.offer g name) (h.ledger.mounted g)
      (h.owners g name) ((prefixes name).all (h.inPlace g))).Lawful
        (.imported g name (h.ledger.origins g name) (h.offer g name) (h.ledger.mounted g)
          (h.owners g name) ((prefixes name).all (h.inPlace g)) :: h.ledger.records) where
  restored _ := List.all_eq_true.2 hplace
  served hC _ hb :=
    let hserves := hs.owner (fun r hr => hC r (List.mem_cons_of_mem _ hr)) hb
      (self_mem_prefixes name)
    hserves.cached m hm
  reached _ hmounted _ := hs.origin g name m hm hmounted
  untouched := trivial

end Finding

/-- Before anything is imported. -/
theorem sound_new (hl : h.ledger = .new)
    (hnone : ∀ g name, (h.bindings g).state.realised name = none) : Sound h := by
  obtain ⟨bindings, ledger⟩ := h
  obtain rfl : ledger = .new := hl
  refine ⟨nofun, fun _ => nofun, fun _ _ _ => nofun, fun _ _ => nofun, fun _ _ _ => nofun,
    fun _ _ _ => nofun, fun g name m hm => ?_⟩
  have hcached := (hnone g name).symm.trans hm
  cases hcached

/-! ## Mounting -/

/-- The bindings with the names of a bundle bound to its source, and those of its loader. -/
def withSources (b : GuestId → GuestBindings) (g : GuestId) (bundle : Bundle)
    (loader : PreparedExtensions) : GuestId → GuestBindings :=
  Function.update b g
    { b g with
      state :=
        { (b g).state with
          sources := fun name => if name ∈ bundle.names then some bundle
            else (b g).state.sources name
          extensions := fun name => if name ∈ loader.names then some loader
            else (b g).state.extensions name } }

section Mounting

variable {h : Holdings} {g : GuestId} {bundle : Bundle} {loader : PreparedExtensions}

theorem withSources_of_ne {b : GuestId → GuestBindings} {x : GuestId} (hx : x ≠ g) :
    withSources b g bundle loader x = b x := Function.update_of_ne hx ..

theorem withSources_specs (b : GuestId → GuestBindings) (x : GuestId) :
    (withSources b g bundle loader x).specs = (b x).specs := by
  by_cases hx : x = g
  · rw [hx, withSources, Function.update_self]
  · rw [withSources_of_ne hx]

theorem withSources_natives (b : GuestId → GuestBindings) (x : GuestId) :
    (withSources b g bundle loader x).natives = (b x).natives := by
  by_cases hx : x = g
  · rw [hx, withSources, Function.update_self]
  · rw [withSources_of_ne hx]

theorem withSources_realised (b : GuestId → GuestBindings) (x : GuestId) :
    (withSources b g bundle loader x).state.realised = (b x).state.realised := by
  by_cases hx : x = g
  · rw [hx, withSources, Function.update_self]
  · rw [withSources_of_ne hx]

theorem withSources_sources (b : GuestId → GuestBindings) (name : Str) :
    (withSources b g bundle loader g).state.sources name =
      if name ∈ bundle.names then some bundle else (b g).state.sources name := by
  rw [withSources, Function.update_self]

theorem withSources_extensions (b : GuestId → GuestBindings) (name : Str) :
    (withSources b g bundle loader g).state.extensions name =
      if name ∈ loader.names then some loader else (b g).state.extensions name := by
  rw [withSources, Function.update_self]

/-- A name is bound if one of the four bindings has it. -/
theorem GuestBindings.offer_isSome (b : GuestBindings) (name : Str) :
    (b.offer name).isSome = ((b.specs name).isSome || (b.natives name).isSome ||
      (b.state.sources name).isSome || (b.state.extensions name).isSome) := by
  unfold GuestBindings.offer
  rcases b.specs name with _ | _ <;> rcases b.natives name with _ | _ <;>
    rcases b.state.sources name with _ | _ <;> rcases b.state.extensions name with _ | _ <;> rfl

/-- What is bound stays bound. -/
theorem offer_withSources {l : Ledger} {x : GuestId} {name : Str}
    (ho : (h.offer x name).isSome = true) :
    ((⟨withSources h.bindings g bundle loader, l⟩ : Holdings).offer x name).isSome = true := by
  unfold Holdings.offer at ho ⊢
  by_cases hx : x = g
  · subst hx
    rw [GuestBindings.offer_isSome] at ho ⊢
    dsimp only
    rw [withSources_specs, withSources_natives, withSources_sources, withSources_extensions]
    by_cases hn : name ∈ bundle.names <;> by_cases hl : name ∈ loader.names <;>
      simp only [hn, hl, if_true, if_false, Option.isSome_some, Bool.or_true, Bool.true_or]
    exact ho
  · dsimp only
    rw [withSources_of_ne hx]
    exact ho

/-- What it says that no name of a bundle is taken. -/
theorem Holdings.clashes_eq_false (hclash : h.clashes g bundle = false) {name : Str}
    (hn : name ∈ bundle.names) :
    (h.bindings g).specs name = none ∧ (h.bindings g).natives name = none ∧
      (∀ m, h.cached g name = some m → h.ledger.origins g name = some (.source bundle.id)) ∧
        (∀ o, .realising g name o ∈ h.ledger.stack → o = .source bundle.id) ∧
          ∀ b ∈ h.ledger.mounted g, name ∈ b.names → b = bundle := by
  have hname := List.any_eq_false.1 hclash name hn
  simp only [Bool.or_eq_true, not_or, Bool.not_eq_true, Option.isSome_eq_false_iff,
    Option.isNone_iff_eq_none] at hname
  obtain ⟨⟨⟨⟨hspec, hnative⟩, hcached⟩, hstack⟩, hmounted⟩ := hname
  refine ⟨hspec, hnative, fun m hm => ?_, fun o ho => ?_, fun b hb hbn => ?_⟩
  · rw [hm] at hcached
    simpa using hcached
  · have hu := List.any_eq_false.1 hstack _ ho
    simpa using hu
  · have hb' := List.any_eq_false.1 hmounted b hb
    simp only [Bool.and_eq_true, not_and, List.contains_iff_mem] at hb'
    by_contra hne
    exact hb' (bne_iff_ne.2 hne) hbn

theorem cached_withSources (l : Ledger) (x : GuestId) (n : Str) :
    (⟨withSources h.bindings g bundle loader, l⟩ : Holdings).cached x n = h.cached x n :=
  congrFun (withSources_realised h.bindings x) n

theorem serves_withSources {l : Ledger} {x : GuestId} {b : Bundle} {n : Str}
    (hspec : (h.bindings x).specs n = none) (hnative : (h.bindings x).natives n = none)
    (hsource : (withSources h.bindings g bundle loader x).state.sources n = some b)
    (hcached : ∀ m, h.cached x n = some m → h.ledger.origins x n = some (.source b.id))
    (hunderway : ∀ o, .realising x n o ∈ h.ledger.stack → o = .source b.id)
    (horigins : l.origins = h.ledger.origins) (hstack : l.stack = h.ledger.stack) :
    Holdings.Serves ⟨withSources h.bindings g bundle loader, l⟩ x b n := by
  refine ⟨?_, ?_, hsource, fun m hm => ?_, fun o ho => ?_⟩
  · exact (congrFun (withSources_specs h.bindings x) n).trans hspec
  · exact (congrFun (withSources_natives h.bindings x) n).trans hnative
  · rw [cached_withSources] at hm
    rw [horigins]
    exact hcached m hm
  · rw [hstack] at ho
    exact hunderway o ho

/-- Every mounted bundle serves its names, the new one with them. -/
theorem serves_mount {l : Ledger} (hfree : h.clashes g bundle = false)
    (hserves : ∀ x, ∀ b ∈ h.ledger.mounted x, ∀ n ∈ b.names, h.Serves x b n)
    (horigins : l.origins = h.ledger.origins) (hstack : l.stack = h.ledger.stack)
    {x : GuestId} {b : Bundle} {n : Str}
    (hb : b ∈ Function.update h.ledger.mounted g (bundle :: h.ledger.mounted g) x)
    (hn : n ∈ b.names) :
    Holdings.Serves ⟨withSources h.bindings g bundle loader, l⟩ x b n := by
  have hold : b ∈ h.ledger.mounted x →
      (withSources h.bindings g bundle loader x).state.sources n =
        (h.bindings x).state.sources n →
      Holdings.Serves ⟨withSources h.bindings g bundle loader, l⟩ x b n := by
    intro hb hsource
    obtain ⟨hspec, hnative, hsrc, hcached, hunderway⟩ := hserves x b hb n hn
    exact serves_withSources hspec hnative (hsource.trans hsrc) hcached hunderway horigins hstack
  by_cases hx : x = g
  · subst hx
    rw [Function.update_self] at hb
    by_cases hown : n ∈ bundle.names
    · obtain ⟨hspec, hnative, hcached, hunderway, hmounted⟩ :=
        Holdings.clashes_eq_false hfree hown
      have hsource : (withSources h.bindings x bundle loader x).state.sources n = some bundle := by
        rw [withSources_sources, if_pos hown]
      obtain rfl : b = bundle := by
        rcases List.mem_cons.1 hb with hb | hb
        · exact hb
        · exact hmounted b hb hn
      exact serves_withSources hspec hnative hsource hcached hunderway horigins hstack
    · have hsource : (withSources h.bindings x bundle loader x).state.sources n =
          (h.bindings x).state.sources n := by
        rw [withSources_sources, if_neg hown]
      rcases List.mem_cons.1 hb with rfl | hb
      · exact absurd hn hown
      · exact hold hb hsource
  · rw [Function.update_of_ne hx] at hb
    refine hold hb ?_
    rw [withSources_of_ne hx]

/-- A bundle is mounted. If no name of it is taken, it serves them all from now on. -/
theorem Sound.mount {clash : Bool} (hs : Sound h) (hclash : clash = h.clashes g bundle) :
    Sound ⟨withSources h.bindings g bundle loader, h.mount g bundle clash⟩ := by
  have hrecord : (Record.mounted g bundle clash).Lawful
      (.mounted g bundle clash :: h.ledger.records) :=
    ⟨fun _ => trivial, fun _ => trivial, fun _ => trivial, trivial⟩
  obtain ⟨hlawful, hcompleted, hstale, hserves, hrooted, hchosen, horigin⟩ := hs.note hrecord
  have hne : ∀ {x}, (h.mount g bundle clash).mounted x = [] →
      x ≠ g ∧ h.ledger.mounted x = [] := by
    intro x hm
    have hm : Function.update h.ledger.mounted g (bundle :: h.ledger.mounted g) x = [] := hm
    by_cases hx : x = g
    · rw [hx, Function.update_self] at hm
      cases hm
    · rw [Function.update_of_ne hx] at hm
      exact ⟨hx, hm⟩
  have hoffer : ∀ (l : Ledger) {x}, x ≠ g → ∀ n,
      (⟨withSources h.bindings g bundle loader, l⟩ : Holdings).offer x n = h.offer x n := by
    intro l x hx n
    unfold Holdings.offer
    dsimp only
    rw [withSources_of_ne hx]
  refine ⟨hlawful, fun hA x hx => ?_, fun hA x n hst => ?_, fun hC x b hb n hn => ?_,
    fun hR x n hw p hp => offer_withSources (hrooted hR x n hw p hp), fun x n o hr hm => ?_,
    fun x n m hc hm => ?_⟩
  · rw [cached_withSources]
    exact hcompleted hA x hx
  · rw [cached_withSources]
    exact hstale hA x n hst
  · have hfree : h.clashes g bundle = false := hclash ▸ hC _ List.mem_cons_self
    exact serves_mount (l := h.mount g bundle clash) hfree (hs.serves (hC.tail (h := h) rfl)) rfl
      rfl hb hn
  · obtain ⟨hx, hm⟩ := hne hm
    rw [hoffer _ hx]
    exact hchosen x n o hr hm
  · obtain ⟨hx, hm⟩ := hne hm
    rw [cached_withSources] at hc
    rw [hoffer _ hx]
    exact horigin x n m hc hm

end Mounting

/-! ## Growth -/

/-- What an import leaves alone, however it ends: what is cached stays, with what is set in it,
and nothing enters the cache or completes but by a realisation that began and did not fail. `held`
are the cells that somebody further out has borrowed for himself. -/
structure Grown (held : Cell → Prop) (h h' : Holdings) : Prop where
  records : h.ledger.records ⊆ h'.ledger.records
  stack : h'.ledger.stack = h.ledger.stack
  kept : ∀ g name m, h.cached g name = some m → h'.cached g name = some m
  linked : ∀ g name m, h.cached g name = some m → ∀ n last, parent n = some (name, last) →
    h.ledger.linked g n = true → h'.ledger.linked g n = true
  arrived : ∀ g name, h.cached g name = none → h'.cached g name ≠ none →
    h.ledger.unfailed g name < h'.ledger.unfailed g name
  unfailed : ∀ g name, h.ledger.unfailed g name ≤ h'.ledger.unfailed g name
  completed : ∀ g name, (g, name) ∈ h'.ledger.completed →
    (g, name) ∈ h.ledger.completed ∨ h.ledger.unfailed g name < h'.ledger.unfailed g name
  held : ∀ g, held (.bindings g) → h'.bindings g = h.bindings g

namespace Grown

variable {held : Cell → Prop} {h h' h'' : Holdings} {b' : GuestId → GuestBindings} {g : GuestId}
  {name : Str}

theorem refl (held : Cell → Prop) (h : Holdings) : Grown held h h where
  records := List.Subset.refl _
  stack := rfl
  kept _ _ _ hm := hm
  linked _ _ _ _ _ _ _ hl := hl
  arrived _ _ hn hne := absurd hn hne
  unfailed _ _ := le_rfl
  completed _ _ hc := Or.inl hc
  held _ _ := rfl

theorem trans (h₁ : Grown held h h') (h₂ : Grown held h' h'') : Grown held h h'' where
  records := List.Subset.trans h₁.records h₂.records
  stack := h₂.stack.trans h₁.stack
  kept g name m hm := h₂.kept g name m (h₁.kept g name m hm)
  linked g name m hm n last hp hl :=
    h₂.linked g name m (h₁.kept g name m hm) n last hp (h₁.linked g name m hm n last hp hl)
  arrived g name hn hne := by
    rcases hc : h'.cached g name with _ | m
    · exact (h₁.unfailed g name).trans_lt (h₂.arrived g name hc hne)
    · refine (h₁.arrived g name hn ?_).trans_le (h₂.unfailed g name)
      rw [hc]
      nofun
  unfailed g name := (h₁.unfailed g name).trans (h₂.unfailed g name)
  completed g name hc := by
    rcases h₂.completed g name hc with hc | hlt
    · rcases h₁.completed g name hc with hc | hlt
      · exact Or.inl hc
      · exact Or.inr (hlt.trans_le (h₂.unfailed g name))
    · exact Or.inr ((h₁.unfailed g name).trans_lt hlt)
  held g hg := (h₂.held g hg).trans (h₁.held g hg)

theorem mono {held' : Cell → Prop} (hg : Grown held h h') (hheld : ∀ c, held' c → held c) :
    Grown held' h h' :=
  { hg with held := fun g hc => hg.held g (hheld _ hc) }

/-- A change of the ledger alone that adds records and links. -/
theorem of_ledger {l : Ledger} (hrecords : h.ledger.records ⊆ l.records)
    (hstack : l.stack = h.ledger.stack)
    (hlinked : ∀ g n, h.ledger.linked g n = true → l.linked g n = true)
    (hunfailed : l.unfailed = h.ledger.unfailed) (hcompleted : l.completed = h.ledger.completed) :
    Grown held h ⟨h.bindings, l⟩ where
  records := hrecords
  stack := hstack
  kept _ _ _ hm := hm
  linked g _ _ _ n _ _ hl := hlinked g n hl
  arrived _ _ hn hne := absurd hn hne
  unfailed g n := by
    dsimp only
    rw [hunfailed]
  completed g n hc := Or.inl (by rwa [hcompleted] at hc)
  held _ _ := rfl

theorem note {r : Record} : Grown held h ⟨h.bindings, h.note r⟩ :=
  of_ledger (List.subset_cons_self _ _) rfl (fun _ _ hl => hl) rfl rfl

/-- What is underway ends. -/
theorem leave (hg : Grown held h h') :
    Grown held ⟨h.bindings, h.leave⟩ ⟨h'.bindings, h'.leave⟩ where
  records := hg.records
  stack := congrArg List.tail hg.stack
  kept := hg.kept
  linked := hg.linked
  arrived := hg.arrived
  unfailed := hg.unfailed
  completed := hg.completed
  held := hg.held

/-- A realisation has begun, and ends. -/
theorem choose {o : Origin} :
    Grown held h ⟨h.bindings, (⟨h.bindings, h.choose g name o⟩ : Holdings).leave⟩ where
  records := List.subset_cons_self _ _
  stack := rfl
  kept _ _ _ hm := hm
  linked _ _ _ _ _ _ _ hl := hl
  arrived _ _ hn hne := absurd hn hne
  unfailed x n := by
    change _ ≤ if x = g ∧ n = name then h.ledger.unfailed g name + 1 else h.ledger.unfailed x n
    split
    · next hx =>
      rw [hx.1, hx.2]
      exact Nat.le_succ _
    · exact le_rfl
  completed _ _ hc := Or.inl hc
  held _ _ := rfl

/-- A change of the bindings of one guest that leaves its cache alone. -/
theorem rebind {l : Ledger} (hb : ∀ x, x ≠ g → b' x = h.bindings x)
    (hcached : ∀ x, (b' x).state.realised = (h.bindings x).state.realised)
    (hfree : ¬ held (.bindings g)) (hl : Grown held h ⟨h.bindings, l⟩) :
    Grown held h ⟨b', l⟩ where
  records := hl.records
  stack := hl.stack
  kept x n m hm := (congrFun (hcached x) n).trans hm
  linked := hl.linked
  arrived x n hn hne := absurd ((congrFun (hcached x) n).trans hn) hne
  unfailed := hl.unfailed
  completed := hl.completed
  held x hx := by
    refine hb x fun heq => hfree ?_
    rw [← heq]
    exact hx

/-- The module of a name that was not cached, and whose realisation has begun, is cached. -/
theorem caching {m : Option Module} {l : Ledger} (hg : Grown held h h')
    (hb : Recached h'.bindings b' g name m) (hfree : ¬ held (.bindings g))
    (hnone : h.cached g name = none)
    (hbegun : h.ledger.unfailed g name < h'.ledger.unfailed g name)
    (hl : l = { h'.caching g name with origins := l.origins }) : Grown held h ⟨b', l⟩ := by
  rw [hl]
  have hne {x n m'} (hm : h.cached x n = some m') := Holdings.ne_of_cached hnone hm
  refine ⟨hg.records, hg.stack, fun x n m' hm => ?_, fun x n m' hm c last hp hl => ?_,
    fun x n hn hc => ?_, hg.unfailed, hg.completed, fun x hx => ?_⟩
  · rw [hb.cached_of_ne _ (hne hm)]
    exact hg.kept x n m' hm
  · change (if x = g ∧ (parent c).map Prod.fst = some name then false
      else h'.ledger.linked x c) = true
    rw [if_neg]
    · exact hg.linked x n m' hm c last hp hl
    · rintro ⟨hx, hpar⟩
      rw [hp] at hpar
      exact hne hm ⟨hx, Option.some.inj hpar⟩
  · by_cases hx : x = g ∧ n = name
    · rw [hx.1, hx.2]
      exact hbegun
    · rw [hb.cached_of_ne _ hx] at hc
      exact hg.arrived x n hn hc
  · refine (hb.others x fun heq => hfree ?_).trans (hg.held x hx)
    rw [← heq]
    exact hx

/-- A module that was not cached is taken out again, as its realisation has failed. -/
theorem removed {since : Nat} (hg : Grown held h h')
    (hb : Recached h'.bindings b' g name none) (hfree : ¬ held (.bindings g))
    (hnone : h.cached g name = none)
    (hbegun : h.ledger.unfailed g name < h'.ledger.unfailed g name)
    (hcompleted : (g, name) ∈ h'.ledger.completed → (g, name) ∈ h.ledger.completed ∨
      h.ledger.unfailed g name + 1 < h'.ledger.unfailed g name) :
    Grown held h ⟨b', h'.removed g name since⟩ := by
  have hne {x n m'} (hm : h.cached x n = some m') := Holdings.ne_of_cached hnone hm
  have hunfailed : ∀ x n, (h'.removed g name since).unfailed x n =
      if x = g ∧ n = name then h'.ledger.unfailed g name - 1 else h'.ledger.unfailed x n :=
    fun _ _ => rfl
  refine ⟨List.Subset.trans hg.records (List.subset_cons_self _ _), hg.stack,
    fun x n m' hm => ?_, hg.linked, fun x n hn hc => ?_, fun x n => ?_, fun x n hc => ?_,
    fun x hx => ?_⟩
  · rw [hb.cached_of_ne _ (hne hm)]
    exact hg.kept x n m' hm
  · dsimp only
    rw [hunfailed]
    by_cases hx : x = g ∧ n = name
    · rw [hx.1, hx.2, hb.cached_self] at hc
      exact absurd rfl hc
    · rw [hb.cached_of_ne _ hx] at hc
      rw [if_neg hx]
      exact hg.arrived x n hn hc
  · dsimp only
    rw [hunfailed]
    split
    · next hx =>
      rw [hx.1, hx.2]
      omega
    · exact hg.unfailed x n
  · have hc : (x, n) ∈ h'.ledger.completed := hc
    dsimp only
    rw [hunfailed]
    split
    · next hx =>
      rw [hx.1, hx.2] at hc ⊢
      exact (hcompleted hc).imp id fun hlt => by omega
    · exact hg.completed x n hc
  · refine (hb.others x fun heq => hfree ?_).trans (hg.held x hx)
    rw [← heq]
    exact hx

theorem complete (hg : Grown held h h')
    (hbegun : h.ledger.unfailed g name < h'.ledger.unfailed g name) :
    Grown held h ⟨h'.bindings, h'.complete g name⟩ where
  records := hg.records
  stack := hg.stack
  kept := hg.kept
  linked := hg.linked
  arrived := hg.arrived
  unfailed := hg.unfailed
  completed x n hc := by
    rcases List.mem_cons.1 hc with heq | hc
    · cases heq
      exact Or.inr hbegun
    · exact hg.completed x n hc
  held := hg.held

end Grown

end GuestPy
