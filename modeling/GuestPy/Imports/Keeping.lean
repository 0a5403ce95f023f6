import GuestPy.Imports.History

/-!
# Imports keep their discipline

One lemma for each function of the realiser, of the importer and of the requests. Each
keeps the invariant if the code it calls does, and what it returns is named by the events.
From these, `justified_run` and `sound_run`: the history of a run is justified and its ledger
is sound, whatever the code does that imports call.
-/

namespace GuestPy

open DottedName

/-! ## Native extensions -/

namespace PreparedExtensions

section

variable {w : World}

theorem safe_removeIfSame (name : Str) (m : Module) :
    Safe w (removeIfSame name m) fun _ _ => True := by
  refine safe_modify ?_ ?_ ?_ ?_ ?_ fun _ _ _ h => Or.inl ?_
  · split <;> rfl
  · split <;> rfl
  · split <;> rfl
  · split <;> rfl
  · split <;> rfl
  · split at h <;> exact h

theorem safe_rollback (inserted : List (Str × Module)) (child : Option (Str × Module)) :
    Safe w (rollback inserted child) fun _ _ => True :=
  Keeps.forEach trivial fun p _ _ _ => safe_removeIfSame p.1 p.2

theorem safe_registerParents (inserted parents : List (Str × Module)) :
    Safe w (registerParents inserted parents) fun _ _ => True := by
  induction parents generalizing w inserted with
  | nil => exact Keeps.pure trivial
  | cons p rest ih =>
    obtain ⟨name, parent⟩ := p
    refine Keeps.get ?_
    split
    · refine Keeps.ite (fun _ => ih inserted) fun _ => ?_
      exact Keeps.bind (safe_rollback inserted none) fun _ _ _ _ => Keeps.throw
    · exact Keeps.bind (safe_setSys name (some parent)) fun _ _ _ _ => ih _

end

section

variable {callout : Call → Host World Err Answer}
  (hcall : ∀ c w, Safe w (callout c) fun _ _ => True) {w : World}

include hcall

theorem safe_executeLoader (parents : List (Str × Module)) (dotted : Str) :
    Safe w (executeLoader callout parents dotted) fun m _ => m.maker = .extension := by
  refine Keeps.bind (hcall _ w) fun _ w1 _ _ => ?_
  refine Keeps.bind (safe_registerParents [] parents) fun inserted w2 _ _ => ?_
  refine Keeps.bind (safe_attempt_call hcall _) fun r w3 _ _ => ?_
  rcases r with e | _
  · exact Keeps.bind (safe_rollback inserted none) fun _ _ _ _ => Keeps.throw
  · refine Keeps.bind (safe_setSys dotted _) fun _ w4 _ _ => ?_
    refine Keeps.bind (safe_attempt_call hcall _) fun r w5 _ _ => ?_
    rcases r with e | _
    · exact Keeps.bind (safe_rollback inserted _) fun _ _ _ _ => Keeps.throw
    · exact Keeps.pure rfl

theorem safe_load (parents : List (Str × Module)) (dotted : Str) (contents : Nat) :
    Safe w (load callout parents dotted contents) fun m _ => m.maker = .extension := by
  refine Keeps.bind (Keeps.inv (hcall _ w)) fun _ w1 _ hw1 => Keeps.get ?_
  rcases hl : w1.loadedExtensions dotted with _ | ⟨loaded, m⟩
  · refine Keeps.get ?_
    split
    · exact Keeps.throw
    · refine Keeps.bind (hcall _ w1) fun _ w2 _ _ => ?_
      refine Keeps.bind (safe_executeLoader hcall parents dotted) fun m w3 _ hm => ?_
      refine Keeps.bind (safe_modify rfl rfl rfl rfl rfl fun name contents' m' h => ?_)
        fun _ _ _ _ => Keeps.pure hm
      by_cases hn : name = dotted
      · rw [hn] at h
        simp only [Function.update_self, Option.some.injEq, Prod.mk.injEq] at h
        exact Or.inr (h.2 ▸ hm)
      · simp only [Function.update_of_ne hn] at h
        exact Or.inl h
  · refine Keeps.ite (fun _ => Keeps.pure ?_) fun _ => Keeps.throw
    exact hw1.2.extensions dotted loaded m hl

theorem safe_realise (p : PreparedExtensions) (parents : List (Str × Module)) (dotted : Str) :
    Safe w (p.realise callout parents dotted) fun m _ => m.maker = .extension := by
  unfold realise
  split
  · exact safe_load hcall parents dotted _
  · exact Keeps.ite (fun _ => Keeps.throw) fun _ => Keeps.throw

end

end PreparedExtensions

/-! ## The realiser -/

namespace Realiser

section

variable {callout : Call → Host World Err Answer}
  (hcall : ∀ c w, Safe w (callout c) fun _ _ => True) {w w₀ : World} {g : GuestId} {o : Origin}

theorem safe_realisedParents (g : GuestId) (dotted : Str) (names : List Str) :
    Safe w (realisedParents g dotted names) fun _ _ => True := by
  induction names generalizing w with
  | nil => exact Keeps.pure trivial
  | cons name rest ih =>
    refine Keeps.ite (fun _ => Keeps.pure trivial) fun _ => ?_
    refine Keeps.bind (safe_cached g name) fun r w' _ _ => ?_
    rcases r with _ | m
    · exact Keeps.throw
    · exact Keeps.bind ih fun _ _ _ _ => Keeps.pure trivial

include hcall

theorem safe_codeFor (bundle : Bundle) (dotted : Str) :
    Safe w (codeFor callout bundle dotted) fun _ _ => True := by
  refine Keeps.bind (safe_readRef _ _) fun compiled w1 _ _ => ?_
  refine Keeps.ite (fun _ => Keeps.pure trivial) fun _ => ?_
  split
  · exact Keeps.throw
  · refine Keeps.bind (hcall _ w1) fun _ w2 _ _ => ?_
    refine safe_withMut (fun w3 _ => Keeps.get ?_) fun _ _ h => h
    refine Keeps.bind (safe_modify rfl rfl rfl rfl rfl fun _ _ _ h => Or.inl h) fun _ w4 _ _ => ?_
    refine Keeps.ite (fun _ => ?_) fun _ => Keeps.pure trivial
    exact Keeps.bind (safe_attempt_call hcall _) fun _ _ _ _ => Keeps.pure trivial

/-- A host module is cached before its members are declared. -/
theorem stays_realiseHost {spec : ModuleSpec} (hnone : w₀.holdings.cached g spec.name = none)
    (hg : Entitled w g spec.name) :
    Stays w₀ g spec.name o w (realiseHost callout g spec) fun m w' => Placed w' g spec.name m := by
  refine Keeps.bind (stays_call hcall _) fun _ w1 _ hw1 => ?_
  refine Keeps.bind (keeps_cache hcall hnone (hg.mono hw1.events) (Or.inl rfl))
    fun _ w2 _ hr => ?_
  refine Keeps.bind (Keeps.forEach
    (J := fun w' => Placed w' g spec.name ⟨.guest g, spec.name⟩) hr
    fun member _ w' hr' => ?_) fun _ w3 _ hr => ?_
  · refine Keeps.ite (fun _ => Keeps.pure hr') fun _ => ?_
    refine Keeps.bind (stays_call hcall _) fun _ w4 _ hw4 => ?_
    exact Keeps.bind (stays_call hcall _) fun _ _ _ hw5 =>
      Keeps.pure ((hr'.mono hw4).mono hw5)
  · refine Keeps.ite (fun _ => ?_) fun _ => Keeps.pure hr
    exact Keeps.bind (stays_call hcall _) fun _ _ _ hw4 => Keeps.pure (hr.mono hw4)

theorem stays_realiseNative {dotted : Str} (hnone : w₀.holdings.cached g dotted = none)
    (hg : Entitled w g dotted) :
    Stays w₀ g dotted o w (realiseNative callout g dotted) fun m w' => Placed w' g dotted m := by
  refine Keeps.bind (stays_call hcall _) fun _ w1 _ hw1 => ?_
  exact Keeps.bind (keeps_cache hcall hnone (hg.mono hw1.events) (Or.inl rfl)) fun _ _ _ hr =>
    Keeps.pure hr

/-- A module of a bundle is cached before its source is executed. -/
theorem stays_realiseBundle {dotted : Str} (bundle : Bundle)
    (hnone : w₀.holdings.cached g dotted = none) (hg : Entitled w g dotted) :
    Stays w₀ g dotted o w (realiseBundle callout g bundle dotted) fun m w' =>
      Placed w' g dotted m := by
  unfold realiseBundle
  split
  · exact Keeps.throw
  · refine Keeps.bind ((safe_readRef _ _).within (Realising.mono w)) fun p w1 _ hw1 => ?_
    rcases p with _ | p
    · exact Keeps.throw
    · refine Keeps.bind (stays_call hcall _) fun _ w2 _ hw2 => ?_
      have hg2 : Entitled w2 g dotted := hg.mono (hw1.2.trans hw2).events
      refine Keeps.bind (keeps_cache hcall hnone hg2 (Or.inl rfl)) fun _ w3 _ hr => ?_
      refine Keeps.bind ((safe_codeFor hcall bundle dotted).within (Realising.mono w3))
        fun _ w4 _ hw4 => ?_
      exact Keeps.bind (stays_call hcall _) fun _ _ _ hw5 =>
        Keeps.pure ((hr.mono hw4.2).mono hw5)

theorem stays_realiseExtension {dotted : Str} (extensions : PreparedExtensions)
    (hnone : w₀.holdings.cached g dotted = none) (hg : Entitled w g dotted) :
    Stays w₀ g dotted o w (realiseExtension callout g extensions dotted) fun m w' =>
      Placed w' g dotted m := by
  refine Keeps.bind ((safe_realisedParents g dotted _).within (Realising.mono w))
    fun parents w1 _ hw1 => ?_
  refine Keeps.bind ((extensions.safe_realise hcall parents dotted).within (Realising.mono w1))
    fun m w2 _ hm => ?_
  exact Keeps.bind (keeps_cache hcall hnone (hg.mono (hw1.2.trans hm.2).events) (Or.inr hm.1))
    fun _ _ _ hr => Keeps.pure hr

omit hcall in
/-- A realisation that has ended, one way or the other, counts as one that began. -/
theorem safe_realising {dotted : Str} {body : Host World Err Module}
    (ho : w.holdings.offer g dotted = some o)
    (hbody : Stays w g dotted o (w.record (·.choose g dotted o)) body fun m w' =>
      Placed w' g dotted m) :
    Safe w (realising g dotted o body) fun r w' =>
      Begun w w' g dotted ∧ ∀ m, r = .ok m → Placed w' g dotted m := by
  have hchosen : (Record.chose g dotted o (w.holdings.offer g dotted)).Lawful
      (.chose g dotted o (w.holdings.offer g dotted) :: w.ledger.records) :=
    ⟨fun _ => trivial, fun _ => trivial, fun _ => ho, trivial⟩
  have hattempt : Stays w g dotted o (w.record (·.choose g dotted o)) (Host.attempt body)
      fun r w' => ∀ m, r = .ok m → Placed w' g dotted m :=
    Keeps.attempt (Keeps.mono hbody fun m _ _ hm m' heq => by cases heq; exact hm)
      fun _ _ _ _ h => nomatch h
  refine Keeps.guarded_by (fun h => ?_) hattempt
    (fun t ht _ => ⟨inv_record ht.1 ht.1.sound.leave, ht.2.later⟩)
    (fun r t ht _ hr => ⟨⟨ht.2.begun, ht.2.completed⟩, hr⟩) fun _ h => h
  refine ⟨inv_record h ?_, ⟨?_, rfl, ?_, Or.inl⟩⟩
  · exact (h.sound.note hchosen).realising ho rfl rfl rfl rfl rfl rfl
  · exact ⟨List.suffix_refl _, rfl, rfl, .choose⟩
  · have hself : setName w.ledger.unfailed g dotted (w.ledger.unfailed g dotted + 1) g dotted =
        w.ledger.unfailed g dotted + 1 := if_pos ⟨rfl, rfl⟩
    exact (Nat.lt_succ_self _).trans_eq hself.symm

/-- The first of the four bindings that has the name is realised. -/
theorem safe_realiseBound {dotted : Str} (hnone : w.holdings.cached g dotted = none)
    (hg : Entitled w g dotted) (hwalk : AtWalk w g dotted) :
    Safe w (realiseBound callout g dotted) fun r w' =>
      Begun w w' g dotted ∧ ∀ m, r = .ok m → Placed w' g dotted m := by
  have hrun : ∀ {w' : World} {o : Origin} {body : Host World Err Module},
      w'.holdings = w.holdings → w.holdings.offer g dotted = some o →
      Stays w' g dotted o (w'.record (·.choose g dotted o)) body (fun m t => Placed t g dotted m) →
        Safe w' (realising g dotted o body) fun r w'' =>
          Begun w w'' g dotted ∧ ∀ m, r = .ok m → Placed w'' g dotted m := by
    intro w' o body hsame ho hbody
    refine Keeps.mono (safe_realising (hsame ▸ ho) hbody) fun r w'' _ hr =>
      ⟨?_, hr.2⟩
    have hledger : w'.ledger = w.ledger := congrArg Holdings.ledger hsame
    have hbegun := hr.1
    unfold Begun at hbegun ⊢
    rw [← hledger]
    exact hbegun
  have hoffer : w.holdings.offer g dotted = (w.bindings g).offer dotted := rfl
  unfold GuestBindings.offer at hoffer
  refine Keeps.bind (safe_spec g dotted) fun spec w1 _ hspec => ?_
  obtain ⟨hspec, rfl⟩ := hspec
  rw [← hspec] at hoffer
  rcases spec with _ | spec
  · refine Keeps.bind (safe_native g dotted) fun native w2 _ hnative => ?_
    obtain ⟨hnative, rfl⟩ := hnative
    rw [← hnative] at hoffer
    rcases native with _ | native
    · refine Keeps.bind (safe_readRef _ _) fun bundle w3 hw3 hsource => ?_
      obtain ⟨hsource, hsame3⟩ := hsource
      have hb3 : w3.bindings = w2.bindings := congrArg Holdings.bindings hsame3
      rw [hb3] at hsource
      rw [← hsource] at hoffer
      rcases bundle with _ | bundle
      · refine Keeps.bind (safe_readRef _ _) fun extensions w4 hw4 hextension => ?_
        obtain ⟨hextension, hsame4⟩ := hextension
        have hsame : w4.holdings = w2.holdings := hsame4.trans hsame3
        have hb4 : w4.bindings = w2.bindings := congrArg Holdings.bindings hsame
        rw [hb4] at hextension
        rw [← hextension] at hoffer
        have hw : Later w2 w4 := hw3.trans hw4
        rcases extensions with _ | extensions
        · obtain ⟨target, bound, hhead, hp⟩ := hwalk.mono hw
          refine Keeps.bind (safe_record (Q := fun _ => True) (fun h => ?_) ?_ trivial)
            fun _ _ _ _ => Keeps.throw
          · exact h.sound.lack (hsame ▸ hnone) (hsame ▸ hoffer) hhead hp
          · exact .of_ledger (List.subset_append_right [_, _] _) rfl (fun _ _ hl => hl) rfl rfl
        · exact hrun hsame hoffer (stays_realiseExtension hcall extensions (hsame ▸ hnone)
            (hg.mono hw.events))
      · exact hrun hsame3 hoffer (stays_realiseBundle hcall bundle (hsame3 ▸ hnone)
          (hg.mono hw3.events))
    · exact hrun rfl hoffer (stays_realiseNative hcall hnone hg)
  · obtain rfl := (w1.bindings g).named dotted spec hspec.symm
    exact hrun rfl hoffer (stays_realiseHost hcall hnone hg)

/-- A module is served from the cache or realised. If its realisation fails, it leaves the cache
as it was. -/
theorem safe_realise {dotted : Str} (hg : Entitled w g dotted) (hwalk : AtWalk w g dotted) :
    Safe w (realise callout g dotted) fun m w' => Placed w' g dotted m := by
  refine Keeps.bind (safe_cached g dotted) fun r w1 hw1 hr => ?_
  obtain ⟨hr, hsame, hevents⟩ := hr
  rw [← hsame] at hr
  rcases r with _ | m
  · have hnone : w1.holdings.cached g dotted = none := hr.symm
    have hback : ∀ t t', Later t t' → Later w1 t → Later w1 t' := fun _ _ h h' => h'.trans h
    refine Keeps.get (Keeps.of_within (Keeps.assume fun hinv => ?_))
    have hlost : w1.holdings.Always Record.Alone → (g, dotted) ∉ w1.ledger.completed := by
      intro hA hc
      have hcached := hinv.1.sound.completed hA _ hc
      rw [hnone] at hcached
      cases hcached
    refine Keeps.bind ((safe_realiseBound hcall hnone (hg.mono hw1.events)
      (hwalk.mono hw1)).within (hback w1)) fun r w2 _ hr => ?_
    obtain ⟨⟨⟨hbegun, hcompleted⟩, hplaced⟩, -⟩ := hr
    rcases r with e | m
    · refine Keeps.bind (keeps_removeCached hnone hlost hbegun hcompleted)
        fun old w3 _ hgone => ?_
      obtain ⟨hgone, hsince⟩ := hgone
      have hfail : ∀ w4, Later w3 w4 →
          Keeps (discipline.within (Later w1)) w4
            (record (·.failed g dotted (w1.ledger.unfailed g dotted)) >>= fun _ =>
              Host.throw e : Host World Err Module) fun m w' => Placed w' g dotted m := by
        intro w4 hw4
        refine Keeps.bind ((safe_record (Q := fun _ => True) (fun h => h.sound.failed fun h0 => ?_)
          ?_ trivial).within (hback w4)) fun _ _ _ _ => Keeps.throw
        · -- what entered the cache meanwhile has begun and not failed
          by_contra hne
          have harrived := hw4.grown.arrived g dotted hgone hne
          have h0 : w4.ledger.unfailed g dotted - w1.ledger.unfailed g dotted = 0 := h0
          have hlt : w3.ledger.unfailed g dotted < w4.ledger.unfailed g dotted := harrived
          omega
        · exact .of_ledger (List.subset_cons_self _ _) rfl (fun _ _ hl => hl) rfl rfl
      rcases old with _ | m
      · exact hfail w3 (Later.refl w3)
      · exact Keeps.bind ((safe_attempt_call hcall _).within (hback w3)) fun _ w4 _ hw4 =>
          hfail w4 hw4.2
    · have hm := hplaced m rfl
      refine Keeps.bind (Keeps.modify (R := fun _ t => Placed t g dotted m)
        (fun h => ⟨inv_record h.1 (h.1.sound.complete ?_), ?_⟩) trivial hm)
        fun _ _ _ ht => Keeps.pure ht
      · rw [hm.2]
        rfl
      · exact ⟨h.2.events, h.2.frames, h.2.denies, h.2.grown.complete hbegun⟩
  · refine Keeps.bind (safe_note rfl fun h => ?_) fun _ w2 hw2 _ => Keeps.pure ?_
    · refine ⟨fun hA => ?_, fun _ => trivial, fun _ => trivial, trivial⟩
      change w1.ledger.stale g dotted = false
      by_contra hstale
      have hnone := h.sound.stale (fun r hr => hA r (List.mem_cons_of_mem _ hr)) g dotted
        (Bool.eq_true_of_not_eq_false hstale)
      rw [← hr] at hnone
      cases hnone
    · exact Placed.mono ⟨hevents m rfl, hr.symm⟩ hw2

/-- The module is set in its parent. -/
theorem safe_realisePrefix {name : Str} (hg : Entitled w g name) (hwalk : AtWalk w g name) :
    Safe w (realisePrefix callout g name) fun m w' =>
      .realised g name m ∈ w'.events ∧ InPlace w' g name := by
  refine Keeps.bind (safe_realise hcall hg hwalk) fun m w1 _ hm => ?_
  split
  · next parent last hparent =>
    refine Keeps.bind (safe_cached g parent) fun p w2 hw2 hp => ?_
    obtain ⟨hp, hsame, -⟩ := hp
    rcases p with _ | p
    · exact Keeps.throw
    · have hp2 : w2.holdings.cached g parent = some p := by
        rw [hsame]
        exact hp.symm
      refine Keeps.bind (hcall _ w2) fun _ w3 hw3 _ => ?_
      have hm3 := (hm.mono hw2).mono hw3
      refine Keeps.bind (safe_record (Q := fun w' => .realised g name m ∈ w'.events ∧
        InPlace w' g name) (fun h => h.sound.neutral rfl rfl rfl rfl rfl rfl) ?_
        ⟨hm3.1, ⟨m, hm3.2⟩, fun q l hq => ?_⟩) fun _ _ _ hr => Keeps.pure hr
      · exact .of_ledger (List.Subset.refl _) rfl (fun x n hl => setName_true hl) rfl rfl
      · cases hparent.symm.trans hq
        exact ⟨⟨p, hw3.cached hp2⟩, if_pos ⟨rfl, rfl⟩⟩
  · next hparent =>
    refine Keeps.pure ⟨hm.1, ⟨m, hm.2⟩, fun q l hq => ?_⟩
    cases hparent.symm.trans hq

/-- The last module of the loop is the one of the last name, and all are in their place. -/
theorem safe_modulePrefixes {dotted : Str} (names : List Str) (m : Option Module)
    (hnames : ∀ name ∈ names, Entitled w g name ∧ AtWalk w g name)
    (hm : ∀ m', m = some m' → names = [] → .realised g dotted m' ∈ w.events)
    (hlast : ∀ name, names.getLast? = some name → name = dotted) :
    Safe w (modulePrefixes callout g names m) fun r w' =>
      (∀ m', r = some m' → .realised g dotted m' ∈ w'.events) ∧
        ∀ name ∈ names, InPlace w' g name := by
  induction names generalizing w m with
  | nil => exact Keeps.pure ⟨fun m' h => hm m' h rfl, fun _ h => nomatch h⟩
  | cons name rest ih =>
    obtain ⟨hg, hwalk⟩ := hnames name List.mem_cons_self
    refine Keeps.bind (safe_realisePrefix hcall hg hwalk) fun m1 w1 hw1 hr => ?_
    refine Keeps.mono (ih (some m1) (fun n hn => ?_) (fun m' h hrest => ?_) fun n hn => ?_)
      fun r w2 hw2 hr2 => ⟨hr2.1, fun n hn => ?_⟩
    · obtain ⟨hg, hwalk⟩ := hnames n (List.mem_cons_of_mem _ hn)
      exact ⟨hg.mono hw1.events, hwalk.mono hw1⟩
    · cases h
      subst hrest
      rw [← hlast name rfl]
      exact hr.1
    · refine hlast n ?_
      rcases rest with _ | ⟨y, ys⟩
      · cases hn
      · exact hn
    · rcases List.mem_cons.1 hn with rfl | hn
      · exact hr.2.mono hw2
      · exact hr2.2 n hn

omit hcall in
/-- The ledger is open at the name for as long as it is walked along. -/
theorem safe_walking {α : Type} {dotted : Str} {body : Host World Err α} {Q : α → World → Prop}
    (hbody : Safe (w.record (·.walk g dotted)) body Q)
    (hQ : ∀ a t, Q a t → Q a (t.record Holdings.leave)) : Safe w (walking g dotted body) Q := by
  have hwalked : (Record.walked g dotted (w.holdings.offer g dotted).isSome
      (w.holdings.rooted g dotted)).Lawful (.walked g dotted (w.holdings.offer g dotted).isSome
        (w.holdings.rooted g dotted) :: w.ledger.records) :=
    ⟨fun _ => trivial, fun _ => trivial, fun _ => trivial, trivial⟩
  refine Keeps.guarded rfl (fun h => inv_record h ?_) hbody (fun t ht hfut => ?_)
    (fun a t _ ha => hQ a t ha) fun _ h => h
  · refine (h.sound.note hwalked).walking rfl fun hR hbound => ?_
    exact List.all_eq_true.1 (hR _ List.mem_cons_self hbound)
  · refine ⟨inv_record ht ht.sound.leave, Later.trans ?_ (later_leave hfut)⟩
    exact ⟨List.suffix_refl _, rfl, rfl, .note⟩

/-- A module is realised with all the packages it lies in. -/
theorem safe_module {dotted : Str}
    (hg : .checked g dotted ∈ w.events ∨ .expanding g dotted ∈ w.events) :
    Safe w (module callout g dotted) fun m w' => .realised g dotted m ∈ w'.events := by
  have hprefixes : Safe (w.record (·.walk g dotted))
      (modulePrefixes callout g (prefixes dotted) none) fun r w' =>
        (∀ m, r = some m → .realised g dotted m ∈ w'.events) ∧
          ∀ name ∈ prefixes dotted, InPlace w' g name := by
    refine safe_modulePrefixes hcall (prefixes dotted) none
      (fun name hn => ⟨⟨dotted, hn, hg⟩, dotted, _, rfl, hn⟩) (fun _ h => nomatch h)
      fun name hn => ?_
    unfold prefixes at hn
    rw [List.getLast?_append, List.getLast?_singleton, Option.some_or] at hn
    exact (Option.some.inj hn).symm
  refine Keeps.bind (safe_walking hprefixes fun _ _ h =>
    ⟨h.1, fun n hn => ⟨(h.2 n hn).cached, (h.2 n hn).linked⟩⟩) fun r w1 _ hr => ?_
  rcases r with _ | m
  · exact Keeps.throw
  · obtain ⟨m', hm'⟩ := (hr.2 dotted (self_mem_prefixes dotted)).cached
    refine Keeps.bind (safe_note rfl fun h => lawful_imported h.sound hm' fun p hp =>
      (hr.2 p hp).inPlace) fun _ w2 hw2 _ => Keeps.pure (hw2.mem (hr.1 m rfl))

end

end Realiser

/-! ## The importer of the interpreter -/

namespace Importlib

section

variable {callout : Call → Host World Err Answer}
  (hcall : ∀ c w, Safe w (callout c) fun _ _ => True) {w : World}

include hcall

theorem safe_getItem (v : Value) (key : Str) :
    Safe w (getItem callout v key) fun a _ => ∀ item, v = .dict item → a = item key := by
  rcases v with a | item | n
  · exact Keeps.throw
  · refine Keeps.pure fun item' h => ?_
    cases h
    rfl
  · exact Keeps.bind (hcall _ w) fun _ _ _ _ => Keeps.pure fun _ h => nomatch h

/-- An integer is its own index. -/
theorem safe_asU64 (v : Value) :
    Safe w (asU64 callout v) fun n _ => ∀ i, v = .atom (.int i) → 0 ≤ i ∧ n = i.toNat := by
  have hother : ∀ {v : Value} {c : Call}, (∀ i, v ≠ .atom (.int i)) →
      Safe w (callout c >>= fun answer => Host.ofExcept (toU64 answer.item))
        fun n _ => ∀ i, v = .atom (.int i) → 0 ≤ i ∧ n = i.toNat :=
    fun hv => Keeps.bind (hcall _ w) fun _ _ _ _ =>
      Keeps.ofExcept fun _ _ i h => absurd h (hv i)
  rcases v with a | item | n
  · cases a with
    | int i =>
      refine Keeps.ofExcept fun n hn j hj => ?_
      cases hj
      unfold toU64 at hn
      by_cases hi : 0 ≤ i ∧ i < 2 ^ 64
      · simp only [hi, and_self, if_true] at hn
        cases hn
        exact ⟨hi.1, rfl⟩
      · simp only [hi, if_false] at hn
        cases hn
    | other => exact hother fun i h => nomatch h
    | none => exact Keeps.throw
    | str s => exact Keeps.throw
    | spec p => exact Keeps.throw
  · exact Keeps.throw
  · exact hother fun i h => nomatch h

theorem safe_listNames (v : Option Value) :
    Safe w (listNames callout v) fun _ _ => True := by
  rcases v with _ | v
  · exact Keeps.pure trivial
  · exact Keeps.bind (hcall _ w) fun _ _ _ _ => Keeps.pure trivial

theorem safe_packageOfName (globals : Value) :
    Safe w (packageOfName callout globals) fun _ _ => True := by
  refine Keeps.bind (safe_getItem hcall globals _) fun name w1 _ _ => ?_
  split
  · refine Keeps.bind (safe_getItem hcall globals _) fun path w2 _ _ => ?_
    refine Keeps.ite (fun _ => Keeps.pure trivial) fun _ => ?_
    split <;> exact Keeps.pure trivial
  · exact Keeps.throw

theorem safe_packageOfSpec (globals : Value) :
    Safe w (packageOfSpec callout globals) fun _ _ => True := by
  refine Keeps.bind (safe_getItem hcall globals _) fun spec w1 _ _ => ?_
  split
  · exact Keeps.pure trivial
  · exact safe_packageOfName hcall globals
  · exact safe_packageOfName hcall globals
  · exact Keeps.throw

/-- A package that a dictionary names is the package. -/
theorem safe_calcPackage (globals : Value) :
    Safe w (calcPackage callout globals) fun p _ => ∀ item package, globals = .dict item →
      item "__package__".toList = some (.str package) → p = package := by
  refine Keeps.bind (safe_getItem hcall globals _) fun a w1 _ ha => ?_
  have hspec : ∀ b, a = b → (∀ package, b ≠ some (.str package)) →
      Safe w1 (packageOfSpec callout globals) fun p _ => ∀ item package,
        globals = .dict item → item "__package__".toList = some (.str package) →
          p = package :=
    fun b hb hne => Keeps.mono (safe_packageOfSpec hcall globals)
      fun _ _ _ _ item package hg hi => absurd ((hb.symm.trans (ha item hg)).trans hi) (hne package)
  split
  · next package =>
    refine Keeps.pure fun item package' hg hi => ?_
    have h := (ha item hg).trans hi
    cases h
    rfl
  · exact hspec _ rfl fun _ h => nomatch h
  · exact hspec _ rfl fun _ h => nomatch h
  · exact Keeps.throw

omit hcall in
theorem join_eq_append (base name : Str) : ∃ pre, join base name = pre ++ name := by
  unfold join
  by_cases hn : name = []
  · rw [if_pos hn, hn]
    exact ⟨base, (List.append_nil base).symm⟩
  · rw [if_neg hn]
    exact ⟨base ++ ['.'], by simp only [List.append_assoc, List.singleton_append]⟩

omit hcall in
theorem resolveName_eq_ok {package name target : Str} {level : Nat}
    (h : resolveName package name level = .ok target) :
    ∃ base, ancestor package (level - 1) = some base ∧ target = join base name := by
  unfold resolveName at h
  by_cases hp : package = []
  · rw [if_pos hp] at h
    cases h
  · rw [if_neg hp] at h
    rcases ha : ancestor package (level - 1) with _ | base
    · rw [ha] at h
      cases h
    · rw [ha] at h
      cases h
      exact ⟨base, rfl, rfl⟩

omit hcall in
/-- A plain relative name has its package in a dictionary. -/
theorem plainName_relative {call : ImportCall} {i : Int} {name : Str}
    (hlevel : call.level = some (.atom (.int i))) (hi : i ≠ 0) (h : call.plainName = some name) :
    ∃ item package, call.globals = some (.dict item) ∧
      item "__package__".toList = some (.str package) ∧ package ≠ [] ∧
      (ancestor package (i.toNat - 1)).map (fun base => join base call.name) = some name := by
  unfold ImportCall.plainName at h
  rw [hlevel] at h
  simp only [hi, if_false] at h
  split at h
  · next item hg =>
    split at h
    · next package hp =>
      by_cases hne : package = []
      · rw [if_pos hne] at h
        cases h
      · rw [if_neg hne] at h
        exact ⟨item, package, hg, hp, hne, h⟩
    · cases h
  · cases h

omit hcall in
theorem plainName_absolute {call : ImportCall} {name : Str}
    (hlevel : call.level = none ∨ call.level = some (.atom (.int 0)))
    (h : call.plainName = some name) : name = call.name := by
  unfold ImportCall.plainName at h
  rcases hlevel with hl | hl <;> rw [hl] at h <;> exact (Option.some.inj h).symm

omit hcall in
/-- Only an integer or no level at all is plain. -/
theorem plainName_level {call : ImportCall} {v : Value} {name : Str}
    (hlevel : call.level = some v) (h : call.plainName = some name) :
    ∃ i, v = .atom (.int i) := by
  unfold ImportCall.plainName at h
  rw [hlevel] at h
  rcases v with a | item | n
  · cases a with
    | int i => exact ⟨i, rfl⟩
    | none => cases h
    | str s => cases h
    | spec p => cases h
    | other => cases h
  · cases h
  · cases h

/-- The level of a call as a number. -/
theorem safe_levelOf (call : ImportCall) :
    Safe w (levelOf callout call.level) fun n _ => ∀ name, call.plainName = some name →
      (n = 0 ∧ name = call.name) ∨
        ∃ i, call.level = some (.atom (.int i)) ∧ i ≠ 0 ∧ n = i.toNat ∧ n ≠ 0 := by
  rcases hl : call.level with _ | v
  · exact Keeps.pure fun name h => Or.inl ⟨rfl, plainName_absolute (Or.inl hl) h⟩
  · refine Keeps.mono (safe_asU64 hcall v) fun n _ _ hn name h => ?_
    obtain ⟨i, rfl⟩ := plainName_level hl h
    obtain ⟨hi, hn⟩ := hn i rfl
    by_cases h0 : i = 0
    · subst h0
      exact Or.inl ⟨hn, plainName_absolute (Or.inr hl) h⟩
    · exact Or.inr ⟨i, rfl, h0, hn, by omega⟩

/-- The name an import resolves to ends in the name it was called with, and is the plain
name where the arguments determine one. -/
theorem safe_resolve (call : ImportCall) :
    Safe w (resolve callout call) fun target _ =>
      (∃ pre, target = pre ++ call.name) ∧
        ∀ name, call.plainName = some name → target = name := by
  refine Keeps.bind (safe_levelOf hcall call) fun level w1 _ hlevel => ?_
  by_cases h0 : level = 0
  · rw [if_pos h0]
    refine Keeps.ite (fun _ => Keeps.throw) fun _ => Keeps.pure ⟨⟨[], rfl⟩, fun name h => ?_⟩
    rcases hlevel name h with ⟨-, hn⟩ | ⟨i, -, -, -, hn⟩
    · exact hn.symm
    · exact absurd h0 hn
  · rw [if_neg h0]
    rcases hg : call.globals with _ | globals
    · exact Keeps.throw
    · refine Keeps.bind (safe_calcPackage hcall globals) fun package w2 _ hpackage => ?_
      refine Keeps.ofExcept fun target ht => ?_
      obtain ⟨base, hbase, rfl⟩ := resolveName_eq_ok ht
      refine ⟨join_eq_append base call.name, fun name h => ?_⟩
      rcases hlevel name h with ⟨hz, -⟩ | ⟨i, hl, hi, hn, -⟩
      · exact absurd hz h0
      · obtain ⟨item, p, hdict, hp, -, hname⟩ := plainName_relative hl hi h
        cases hg.symm.trans hdict
        rw [← hpackage item p rfl hp, ← hn, hbase] at hname
        exact Option.some.inj hname

omit hcall in
/-- What an import returns without a from-list lies on the way to its target. -/
theorem front_mem_prefixes {name target : Str} (h : ∃ pre, target = pre ++ name) :
    front name target ∈ prefixes target := by
  obtain ⟨pre, rfl⟩ := h
  unfold front head
  rcases hs : splitOnce '.' name with _ | ⟨before, after⟩
  · rw [Nat.sub_self, Nat.sub_zero, List.take_length]
    exact self_mem_prefixes _
  · obtain rfl := splitOnce_eq_some hs
    have hlen : (pre ++ (before ++ '.' :: after)).length -
        ((before ++ '.' :: after).length - before.length) = (pre ++ before).length := by
      simp only [List.length_append, List.length_cons]
      omega
    rw [hlen, ← List.append_assoc, List.take_left]
    exact mem_prefixes_iff.2 (Or.inr ⟨after, rfl⟩)

theorem safe_findAndLoad (name : Str) :
    Safe w (findAndLoad callout name) fun _ _ => True := by
  refine Keeps.get ?_
  split
  · exact Keeps.pure trivial
  · refine Keeps.bind (hcall _ w) fun _ w1 _ _ => ?_
    refine safe_modify ?_ ?_ ?_ ?_ ?_ fun _ _ _ h => Or.inl ?_
    · split <;> rfl
    · split <;> rfl
    · split <;> rfl
    · split <;> rfl
    · split <;> rfl
    · split at h <;> exact h

omit hcall in
theorem safe_lookup (asker : GuestId) (name : Str) :
    Safe w (lookup asker name) fun m w' => .found asker name m ∈ w'.events := by
  refine Keeps.get ?_
  split
  · exact Keeps.bind (safe_log fun _ => trivial) fun _ _ _ hm => Keeps.pure hm
  · exact Keeps.throw

theorem safe_gcdImport (asker : GuestId) (target : Str) :
    Safe w (gcdImport callout asker target) fun m w' => .found asker target m ∈ w'.events := by
  refine Keeps.get ?_
  split
  · exact safe_lookup asker target
  · refine Keeps.bind (Keeps.forEach (J := fun _ => True) trivial fun name _ w' _ => ?_)
      fun _ _ _ _ => safe_lookup asker target
    exact safe_findAndLoad hcall name

theorem safe_followName (asker : GuestId) (m : Module) (target name : Str) :
    Safe w (followName callout asker m target name) fun _ _ => True := by
  refine Keeps.bind (hcall _ w) fun answer w1 _ _ => ?_
  refine Keeps.ite (fun _ => Keeps.pure trivial) fun _ => ?_
  refine Keeps.bind (safe_log fun _ => trivial) fun _ w2 hw2 hfollow => ?_
  refine Keeps.bind (Keeps.attempt (R := fun r w' => ∀ sub, r = .ok sub →
    .following asker (target ++ '.' :: name) ∈ w'.events ∧
      .found asker (target ++ '.' :: name) sub ∈ w'.events)
    (Keeps.mono (safe_gcdImport hcall asker _) fun sub w3 hw3 hfound sub' h => ?_)
    fun _ _ _ _ h => nomatch h) fun r w3 _ hr => ?_
  · cases h
    exact ⟨hw3.mem hfollow, hfound⟩
  · split
    · next sub =>
      obtain ⟨hfollow, hfound⟩ := hr sub rfl
      exact Keeps.mono (safe_log fun _ => Or.inr ⟨hfound, Or.inr hfollow⟩) fun _ _ _ _ => trivial
    · exact Keeps.pure trivial
    · exact Keeps.throw

theorem safe_handleFromlist (asker : GuestId) (m : Module) (target : Str) (names : List Str) :
    Safe w (handleFromlist callout asker m target names) fun _ _ => True := by
  refine Keeps.forEach trivial fun name _ w1 _ => Keeps.ite (fun _ => ?_) fun _ =>
    safe_followName hcall asker m target name
  refine Keeps.bind (hcall _ w1) fun answer w2 _ _ => ?_
  refine Keeps.ite (fun _ => ?_) fun _ => Keeps.pure trivial
  refine Keeps.bind (hcall _ w2) fun all w3 _ _ => ?_
  exact Keeps.forEach trivial fun name _ w4 _ => safe_followName hcall asker m target name

/-- A delegated import. For a guest it is one that the guest's denials let pass, where the
arguments determine its target. -/
theorem safe_importModule {asker : GuestId} {guest : Option GuestId} {call : ImportCall}
    (hasked : Attributed w.events asker guest)
    (hplain : ∀ name, call.plainName = some name →
      ∀ g, guest = some g → w.denies g name = false) :
    Safe w (importModule callout asker guest call) fun _ _ => True := by
  refine Keeps.bind (safe_resolve hcall call) fun target w1 hw1 htarget => ?_
  obtain ⟨hsuffix, htarget⟩ := htarget
  refine Keeps.bind (safe_log fun _ => ⟨hasked.mono hw1.events, fun name hn => ?_⟩)
    fun _ w2 hw2 hdelegated => ?_
  · refine ⟨htarget name hn, fun g hg => ?_⟩
    rw [hw1.denies]
    exact hplain name hn g hg
  refine Keeps.bind (safe_gcdImport hcall asker target) fun m w3 hw3 hfound => ?_
  refine Keeps.bind (safe_listNames hcall call.fromlist) fun names w4 hw4 _ => ?_
  have hd4 := hw4.mem (hw3.mem hdelegated)
  have hf4 := hw4.mem hfound
  refine Keeps.ite (fun _ => ?_) fun _ => ?_
  · refine Keeps.bind (safe_lookup asker _) fun top w5 hw5 htop => ?_
    have hd5 := hw5.mem hd4
    refine Keeps.bind (safe_log fun _ => Or.inr ⟨hw5.mem hf4, Or.inl ⟨guest, call, target,
      self_mem_prefixes target, hd5⟩⟩) fun _ w6 hw6 _ => ?_
    refine Keeps.bind (safe_log fun _ => Or.inr ⟨hw6.mem htop, Or.inl ⟨guest, call, target,
      front_mem_prefixes hsuffix, hw6.mem hd5⟩⟩) fun _ w7 _ _ => ?_
    exact Keeps.pure trivial
  · refine Keeps.bind (hcall _ w4) fun answer w5 hw5 _ => ?_
    have hlast : ∀ {w6 : World}, Later w5 w6 → Safe w6
        (logEvent (.handed asker target m) >>= fun _ => pure m) fun _ _ => True :=
      fun hw6 => Keeps.bind (safe_log fun _ => Or.inr ⟨hw6.mem (hw5.mem hf4), Or.inl ⟨guest,
        call, target, self_mem_prefixes target, hw6.mem (hw5.mem hd4)⟩⟩) fun _ _ _ _ =>
          Keeps.pure trivial
    refine Keeps.ite (fun _ => ?_) fun _ => ?_
    · exact Keeps.bind (safe_handleFromlist hcall asker m target names) fun _ _ hw6 _ =>
        hlast hw6
    · exact hlast (Later.refl w5)

end

end Importlib

/-! ## Requests -/

namespace Imports

open Importlib

section

variable {callout : Call → Host World Err Answer}
  (hcall : ∀ c w, Safe w (callout c) fun _ _ => True) {w : World} {asker g : GuestId}

include hcall

theorem safe_package (globals : Option Value) :
    Safe w (package callout globals) fun p _ => ∀ item package, globals = some (.dict item) →
      item "__package__".toList = some (.str package) → p = package := by
  rcases globals with _ | globals
  · exact Keeps.pure fun _ _ h => nomatch h
  · refine Keeps.bind (safe_getItem hcall globals _) fun a w1 _ ha => ?_
    have hother : ∀ b, a = b → (∀ package, b ≠ some (.str package)) →
        ∀ item package, some globals = some (.dict item) →
          item "__package__".toList = some (.str package) → [] = package :=
      fun b hb hne item package hg hi =>
        absurd ((hb.symm.trans (ha item (Option.some.inj hg))).trans hi) (hne package)
    split
    · exact Keeps.pure (hother _ rfl fun _ h => nomatch h)
    · exact Keeps.pure (hother _ rfl fun _ h => nomatch h)
    · refine Keeps.pure fun item package' hg hi => ?_
      have h := (ha item (Option.some.inj hg)).trans hi
      cases h
      rfl
    · exact Keeps.throw

omit hcall in
theorem safe_isBound (resolved : Str) :
    Safe w (isBound g resolved) fun bound w' =>
      (.checked g resolved ∈ w'.events ∧ w'.denies g resolved = false) ∧
        w'.holdings = w.holdings ∧
          ((w.holdings.offer g (head resolved)).isSome = true → bound = true) := by
  refine Keeps.get (Keeps.ite (fun _ => Keeps.throw) fun hd => ?_)
  have hd : w.denies g resolved = false := Bool.eq_false_iff.2 hd
  refine Keeps.bind (Keeps.modify (R := fun _ w1 => .checked g resolved ∈ w1.events ∧
    w1.holdings = w.holdings) (fun h => inv_log h hd) (later_log _) ⟨List.mem_cons_self, rfl⟩)
    fun _ w1 hw1 hc => ?_
  refine Keeps.mono (safe_readRef _ _) fun bound w2 hw2 hbound =>
    ⟨⟨hw2.mem hc.1, ?_⟩, hbound.2.trans hc.2, fun ho => ?_⟩
  · rw [hw2.denies, hw1.denies]
    exact hd
  · have ho : ((w.bindings g).offer (head resolved)).isSome = true := ho
    have hsame : w2.bindings = w.bindings := congrArg Holdings.bindings (hbound.2.trans hc.2)
    rw [GuestBindings.offer_isSome] at ho
    rw [hbound.1, hsame]
    dsimp only
    rw [ho, Bool.true_or]

omit hcall in
theorem safe_routes (resolved : Str) :
    Safe w (routes asker g resolved) fun _ w' =>
      .checked g resolved ∈ w'.events ∧ w'.denies g resolved = false := by
  have hasked : (Record.asked asker (some g) resolved (w.holdings.binds asker resolved)
      (w.holdings.rooted asker resolved)).Lawful (.asked asker (some g) resolved
        (w.holdings.binds asker resolved) (w.holdings.rooted asker resolved) ::
          w.ledger.records) :=
    ⟨fun _ => trivial, fun _ => trivial, fun hR hbound => (hR _ List.mem_cons_self hbound).1,
      trivial⟩
  refine Keeps.bind (safe_note rfl fun _ => hasked) fun _ w1 _ hw1 => ?_
  obtain ⟨hb1, hmem⟩ := hw1
  refine Keeps.bind (safe_isBound resolved) fun bound w2 hw2 hbound => ?_
  obtain ⟨hchecked, hsame, hhandled⟩ := hbound
  rw [← hsame] at hhandled
  have hb2 : w2.bindings = w.bindings := (congrArg Holdings.bindings hsame).trans hb1
  have hasked2 : .asked asker (some g) resolved (w2.holdings.binds asker resolved)
      (w2.holdings.rooted asker resolved) ∈ w2.holdings.ledger.records := by
    have hledger : w2.ledger = w1.ledger := congrArg Holdings.ledger hsame
    have hbinds : w2.holdings.binds asker resolved = w.holdings.binds asker resolved := by
      unfold Holdings.binds Holdings.offer World.holdings
      rw [hb2]
    have hrooted : w2.holdings.rooted asker resolved = w.holdings.rooted asker resolved := by
      unfold Holdings.rooted Holdings.offer World.holdings
      rw [hb2]
    rw [hbinds, hrooted]
    change _ ∈ w2.ledger.records
    rw [hledger]
    exact hmem
  refine Keeps.bind (safe_note rfl fun h => lawful_routed h.sound hasked2 hhandled)
    fun _ w3 hw3 _ => Keeps.pure ⟨hw3.mem hchecked.1, ?_⟩
  rw [hw3.denies]
  exact hchecked.2

theorem safe_wanted (m : Module) (names : List Str) :
    Safe w (wanted callout m names) fun _ _ => True := by
  induction names generalizing w with
  | nil => exact Keeps.pure trivial
  | cons name rest ih =>
    refine Keeps.ite (fun _ => ?_) fun _ => Keeps.bind ih fun _ _ _ _ => Keeps.pure trivial
    refine Keeps.bind (hcall _ w) fun answer w1 _ _ => Keeps.ite (fun _ => ?_) fun _ => ?_
    · refine Keeps.bind (hcall _ w1) fun all w2 _ _ => ?_
      exact Keeps.bind ih fun _ _ _ _ => Keeps.pure trivial
    · refine Keeps.bind (Keeps.pure (Q := fun _ _ => True) trivial) fun all w2 _ _ => ?_
      exact Keeps.bind ih fun _ _ _ _ => Keeps.pure trivial

theorem safe_expandName (m : Module) (dotted name : Str) :
    Safe w (expandName callout g m dotted name) fun _ _ => True := by
  refine Keeps.bind (hcall _ w) fun answer w1 _ _ => ?_
  refine Keeps.ite (fun _ => Keeps.pure trivial) fun _ => ?_
  refine Keeps.bind (safe_log fun _ => trivial) fun _ w2 _ hexp => ?_
  refine Keeps.bind (Keeps.attempt (R := fun _ _ => True)
    (Keeps.mono (Realiser.safe_module hcall (Or.inr hexp)) fun _ _ _ _ => trivial)
    fun _ _ _ => trivial) fun r w3 _ _ => ?_
  split
  · exact Keeps.pure trivial
  · exact Keeps.pure trivial
  · exact Keeps.throw

theorem safe_expand (m : Module) (dotted : Str) (names : List Str) :
    Safe w (expand callout g m dotted names) fun _ _ => True := by
  refine Keeps.bind (safe_wanted hcall m names) fun names w1 _ _ => ?_
  exact Keeps.forEach trivial fun name _ w2 _ => safe_expandName hcall m dotted name

theorem safe_delegate {call : ImportCall} (hasked : Attributed w.events asker (some g))
    (hplain : ∀ name, call.plainName = some name → w.denies g name = false) :
    Safe w (delegate callout asker g call) fun _ _ => True :=
  safe_importModule hcall hasked fun name hn g' hg => by cases hg; exact hplain name hn

theorem safe_dispatchResolved {call : ImportCall} {resolved : Str}
    (hasked : Attributed w.events asker (some g))
    (hplain : ∀ name, call.plainName = some name → name = resolved) :
    Safe w (dispatchResolved callout asker g call resolved) fun _ _ => True := by
  refine Keeps.bind (safe_routes resolved) fun bound w1 hw1 hchecked => ?_
  obtain ⟨hchecked, hdenied⟩ := hchecked
  have hasked1 := hasked.mono hw1.events
  refine Keeps.ite (fun _ => ?_) fun _ => ?_
  · refine Keeps.bind (Realiser.safe_module hcall (Or.inl hchecked)) fun m w2 hw2 hr => ?_
    refine Keeps.bind (safe_listNames hcall _) fun names w3 hw3 _ => ?_
    have hasked3 := hasked1.mono (hw2.trans hw3).events
    refine Keeps.ite (fun _ => ?_) fun _ => ?_
    · refine Keeps.bind (safe_cached g _) fun top w4 hw4 htop => ?_
      rcases top with _ | top
      · exact Keeps.throw
      · have hasked4 := hasked3.mono hw4.events
        refine Keeps.bind (safe_log fun _ => Or.inl ⟨g, hasked4, hw4.mem (hw3.mem hr)⟩)
          fun _ w5 hw5 _ => ?_
        refine Keeps.bind (safe_log fun _ => Or.inl ⟨g, hasked4.mono hw5.events,
          hw5.mem (htop.2.2 top rfl)⟩) fun _ w6 _ _ => ?_
        exact Keeps.pure trivial
    · refine Keeps.bind (safe_expand hcall m resolved names) fun _ w4 hw4 _ => ?_
      refine Keeps.bind (safe_log fun _ => Or.inl ⟨g, hasked3.mono hw4.events,
        hw4.mem (hw3.mem hr)⟩) fun _ w5 _ _ => ?_
      exact Keeps.pure trivial
  · exact safe_delegate hcall hasked1 fun name hn => (hplain name hn).symm ▸ hdenied

omit hcall in
theorem absolutise_eq_ok {package name resolved : Str} {level : Nat}
    (h : absolutise package name level = (.ok resolved : Except Err Str)) :
    ∃ base, ancestor package (level - 1) = some base ∧ resolved = join base name := by
  unfold absolutise at h
  by_cases hp : package = []
  · rw [if_pos hp] at h
    cases h
  · rw [if_neg hp] at h
    rcases ha : ancestor package (level - 1) with _ | base
    · rw [ha] at h
      cases h
    · rw [ha] at h
      cases h
      exact ⟨base, rfl, rfl⟩

theorem safe_dispatchCall (call : ImportCall) (hasked : Attributed w.events asker (some g)) :
    Safe w (dispatchCall callout asker g call) fun _ _ => True := by
  refine Keeps.bind (safe_levelOf hcall call) fun depth w1 hw1 hdepth => ?_
  have hasked1 := hasked.mono hw1.events
  refine Keeps.ite (fun h0 => ?_) fun h0 => ?_
  · refine safe_dispatchResolved hcall hasked1 fun name hn => ?_
    rcases hdepth name hn with ⟨-, h⟩ | ⟨i, -, -, -, h⟩
    · exact h
    · exact absurd h0 h
  · have hrelative : ∀ name, call.plainName = some name →
        ∃ item package, call.globals = some (.dict item) ∧
          item "__package__".toList = some (.str package) ∧ package ≠ [] ∧
          (ancestor package (depth - 1)).map (fun base => join base call.name) = some name := by
      intro name hn
      rcases hdepth name hn with ⟨h, -⟩ | ⟨i, hl, hi, hd, -⟩
      · exact absurd h h0
      · rw [hd]
        exact plainName_relative hl hi hn
    refine Keeps.bind (safe_package hcall call.globals) fun package w2 hw2 hpackage => ?_
    have hasked2 := hasked1.mono hw2.events
    refine Keeps.ite (fun hp => ?_) fun hp => ?_
    · refine safe_delegate hcall hasked2 fun name hn => ?_
      obtain ⟨item, p, hg, hi, hne, -⟩ := hrelative name hn
      exact absurd ((hpackage item p hg hi).symm.trans hp) hne
    · refine Keeps.bind (Keeps.ofExcept
        (Q := fun r _ => absolutise package call.name depth = .ok r) fun _ h => h)
        fun resolved w3 hw3 hr => ?_
      obtain ⟨base, hbase, rfl⟩ := absolutise_eq_ok hr
      refine safe_dispatchResolved hcall (hasked2.mono hw3.events) fun name hn => ?_
      obtain ⟨item, p, hg, hi, -, hname⟩ := hrelative name hn
      rw [← hpackage item p hg hi, hbase] at hname
      exact (Option.some.inj hname).symm

theorem safe_dispatch (args : Args) (hasked : Attributed w.events asker (some g)) :
    Safe w (dispatch callout asker g args) fun _ _ => True :=
  Keeps.bind (Keeps.ofExcept (Q := fun _ _ => True) fun _ _ => trivial) fun _ _ hw1 _ =>
    safe_dispatchCall hcall _ (hasked.mono hw1.events)

theorem safe_module (dotted : Str) (hasked : Attributed w.events g (some g)) :
    Safe w (module callout g dotted) fun _ _ => True := by
  refine Keeps.bind (safe_routes dotted) fun bound w1 hw1 hchecked => ?_
  obtain ⟨hchecked, hdenied⟩ := hchecked
  have hasked1 := hasked.mono hw1.events
  refine Keeps.ite (fun _ => ?_) fun _ => ?_
  · refine Keeps.bind (Realiser.safe_module hcall (Or.inl hchecked)) fun m w2 hw2 hr => ?_
    exact Keeps.bind (safe_log fun _ => Or.inl ⟨g, hasked1.mono hw2.events, hr⟩)
      fun _ _ _ _ => Keeps.pure trivial
  · refine Keeps.bind (safe_delegate hcall hasked1 fun name hn => ?_) fun top w2 _ _ => ?_
    · cases hn
      exact hdenied
    · refine Keeps.bind (Keeps.forEach (J := fun _ => True) trivial fun name _ w3 _ => ?_)
        fun _ _ _ _ => Keeps.pure trivial
      exact Keeps.bind (hcall _ w3) fun _ _ _ _ => Keeps.pure trivial

end

end Imports

/-! ## Entering a guest -/

section Entering

variable {callout : Call → Host World Err Answer}
  (hcall : ∀ c w, Safe w (callout c) fun _ _ => True) {w : World} {asker g : GuestId}
  {α : Type}

theorem inv_withRuntime {f : RuntimeInner → RuntimeInner} (h : Inv w) :
    Inv (withRuntime f w) := ⟨h.flags, h.cached, h.extensions, h.justified, h.sound⟩

theorem later_withRuntime (f : RuntimeInner → RuntimeInner) : Later w (withRuntime f w) :=
  ⟨List.suffix_refl _, rfl, rfl, .refl _ _⟩

/-- A computation under a token: the token goes however the computation ends. -/
theorem safe_underToken {r : RuntimeInner} {m : Host World Err α}
    (hm : ∀ w', Later w w' → Safe w' m fun _ _ => True) :
    Safe w (underToken g r m) fun _ _ => True := by
  refine Keeps.guarded rfl inv_withRuntime (hm _ (later_withRuntime _)) (fun t ht hfut => ?_)
    (fun _ _ _ _ => trivial) fun _ h => h
  exact ⟨inv_withRuntime ht, (later_withRuntime _).trans (hfut.trans (later_withRuntime _))⟩

include hcall

theorem safe_raise (e : Err) : Safe w (raise callout e : Host World Err α) fun _ _ => True :=
  Keeps.bind (hcall _ w) fun _ _ _ _ => Keeps.throw

theorem safe_guestEnterWith {inner : GuestInner} {m : Host World Err α}
    (hm : ∀ w', Later w w' → Safe w' m fun _ _ => True) :
    Safe w (guestEnterWith callout g inner m) fun _ _ => True := by
  refine Keeps.get ?_
  split
  · exact safe_raise hcall _
  · refine safe_underToken fun w1 hw1 => ?_
    refine Keeps.bind (Keeps.attempt (R := fun _ _ => True) (hm w1 hw1) fun _ _ _ => trivial)
      fun r w2 _ _ => ?_
    split
    · exact Keeps.pure trivial
    · exact safe_raise hcall _

omit hcall in
theorem safe_resolveExceptionTypes {m : Host World Err α} (hm : Safe w m fun _ _ => True) :
    Safe w (resolveExceptionTypes m) fun _ _ => True := by
  refine Keeps.bind (Keeps.attempt (R := fun _ _ => True) hm fun _ _ _ => trivial)
    fun r w1 _ _ => ?_
  split
  · exact Keeps.pure trivial
  · exact Keeps.bind (safe_readRef _ _) fun _ _ _ _ => Keeps.throw
  · exact Keeps.throw

omit hcall in
theorem safe_enter {m : Host World Err α}
    (hm : ∀ w', Later w w' → Safe w' m fun _ _ => True) :
    Safe w (enter g m) fun _ _ => True := by
  refine Keeps.get ?_
  split
  · exact Keeps.throw
  · refine Keeps.ite (fun _ => Keeps.throw) fun _ => Keeps.ite (fun _ => ?_) fun _ => ?_
    · exact safe_resolveExceptionTypes (hm w (Later.refl w))
    · split
      · exact Keeps.throw
      · exact safe_underToken fun w1 hw1 => safe_resolveExceptionTypes (hm w1 hw1)

theorem safe_rawBody (args : Args) : Safe w (rawBody callout g args) fun _ _ => True := by
  refine Keeps.bind (safe_log fun _ => rfl) fun _ w1 _ hasked => Keeps.get ?_
  split
  · exact safe_raise hcall _
  · exact safe_guestEnterWith hcall fun w2 hw2 =>
      Imports.safe_dispatch hcall args ⟨.hook, hw2.mem hasked⟩

theorem safe_namedGuest (globals : Option Value) :
    Safe w (namedGuest callout globals) fun _ _ => True := by
  rcases globals with _ | globals
  · exact Keeps.pure trivial
  · refine Keeps.ite (fun _ => Keeps.pure trivial) fun _ => ?_
    refine Keeps.bind (Keeps.attempt (R := fun _ _ => True) (Keeps.mono
      (Importlib.safe_getItem hcall globals _) fun _ _ _ _ => trivial) fun _ _ _ => trivial)
      fun r w1 _ _ => ?_
    split
    · refine Keeps.bind (Keeps.attempt (R := fun _ _ => True) (Keeps.mono
        (Importlib.safe_asU64 hcall _) fun _ _ _ _ => trivial) fun _ _ _ => trivial)
        fun n w2 _ _ => ?_
      split
      · exact Keeps.get (Keeps.pure trivial)
      · exact Keeps.pure trivial
    · exact Keeps.pure trivial

theorem safe_importBody (args : Args) :
    Safe w (importBody callout asker args) fun _ _ => True := by
  refine Keeps.bind (safe_namedGuest hcall _) fun named w1 _ _ => Keeps.get ?_
  refine Keeps.bind (safe_log fun _ => rfl) fun _ w2 hw2 hasked => ?_
  split
  · next hnone =>
    rw [hnone] at hasked
    refine Keeps.bind (Keeps.ofExcept (Q := fun _ _ => True) fun _ _ => trivial)
      fun call w3 hw3 _ => ?_
    refine Keeps.bind (safe_record (Q := fun _ => True) (fun h => ?_) ?_ trivial)
      fun _ w4 hw4 _ => Importlib.safe_importModule hcall ⟨_, hw4.mem (hw3.mem hasked)⟩
        fun _ _ _ h => nomatch h
    · split
      · refine h.sound.note ⟨fun _ => trivial, fun _ => trivial, fun hR hbound => ?_, trivial⟩
        exact (hR _ List.mem_cons_self hbound).1
      · exact h.sound
    · split
      · exact .note
      · exact .refl _ _
  · next g hsome =>
    rw [hsome] at hasked
    split
    · exact safe_guestEnterWith hcall fun w3 hw3 =>
        Imports.safe_dispatch hcall args ⟨_, hw3.mem hasked⟩
    · exact safe_raise hcall _

theorem safe_importModule (dotted : Str) :
    Safe w (importModule callout g dotted) fun _ _ => True := by
  refine Keeps.bind (safe_log fun _ => rfl) fun _ w1 _ hasked => ?_
  exact safe_enter fun w2 hw2 => Imports.safe_module hcall dotted ⟨.host, hw2.mem hasked⟩

theorem safe_load (bundle : Bundle) : Safe w (load callout g bundle) fun _ _ => True := by
  unfold load
  split
  · exact Keeps.throw
  · exact Keeps.bind (safe_enter fun w1 _ => safe_mount hcall bundle _) fun _ _ _ _ =>
      safe_importModule hcall _

theorem safe_realisation (c : Cell) (store : Bool) :
    Safe w (realisation callout c store) fun _ _ => True := by
  refine Keeps.ite (fun _ => safe_withMut (fun w1 _ => ?_) fun _ _ h => h) fun _ =>
    Keeps.mono (safe_readRef _ _) fun _ _ _ _ => trivial
  exact Keeps.bind (safe_attempt_call hcall _) fun _ _ _ _ => Keeps.pure trivial

/-- Each operation keeps the discipline if the code it calls does. -/
theorem safe_performOp (op : Op) : Safe w (performOp callout op) fun _ _ => True := by
  cases op with
  | hook g args => exact Keeps.bind (safe_rawBody hcall args) fun _ _ _ _ => Keeps.pure trivial
  | dispatcher asker args =>
    exact Keeps.bind (safe_importBody hcall args) fun _ _ _ _ => Keeps.pure trivial
  | guestImport g dotted =>
    exact Keeps.bind (safe_importModule hcall dotted) fun _ _ _ _ => Keeps.pure trivial
  | guestLoad g bundle =>
    exact Keeps.bind (safe_load hcall bundle) fun _ _ _ _ => Keeps.pure trivial
  | activity a =>
    exact Keeps.bind (Keeps.modify (R := fun _ _ => True) inv_withRuntime (later_withRuntime _)
      trivial) fun _ _ _ _ => Keeps.pure trivial
  | sysModules name m =>
    exact Keeps.bind (safe_setSys name m) fun _ _ _ _ => Keeps.pure trivial
  | classes store =>
    exact Keeps.bind (safe_realisation hcall .classes store) fun _ _ _ _ => Keeps.pure trivial
  | exceptions store =>
    exact Keeps.bind (safe_realisation hcall .exceptions store) fun _ _ _ _ =>
      Keeps.pure trivial

end Entering

/-! ## Runs -/

/-- What other code does while imports call out. -/
abbrev Code : Type := Environment World Err Op (Option Module) Call Answer

/-- What a host does from the top, one operation after another. -/
abbrev Script : Type := Prog Op (Reply Err (Option Module)) Unit

/-- The world after a script, against given code, up to a depth of nesting. -/
def runScript (code : Code) (fuel : Nat) (script : Script) (w : World) : World :=
  (script.run (imports.perform code fuel) w).2

/-- Everything that happened in a run satisfies `P`. -/
def Every (P : Event → Prop) (w : World) : Prop := ∀ e ∈ w.events, P e

instance (P : Event → Prop) [DecidablePred P] (w : World) : Decidable (Every P w) :=
  inferInstanceAs (Decidable (∀ e ∈ w.events, P e))

/-- A world in which nothing has been imported yet. -/
structure Initial (w : World) : Prop where
  flags : ∀ c, w.flags c = .unused
  frames : w.frames = []
  realised : ∀ g name, (w.bindings g).state.realised name = none
  extensions : ∀ name, w.loadedExtensions name = none
  events : w.events = []
  ledger : w.ledger = .new

theorem initial_new {bindings : GuestId → GuestBindings}
    (h : ∀ g name, (bindings g).state.realised name = none) : Initial (World.new bindings) :=
  ⟨fun _ => rfl, rfl, h, fun _ => rfl, rfl, rfl⟩

theorem inv_initial {w : World} (h : Initial w) : Inv w where
  flags c := by
    rw [h.flags, h.frames]
    exact ⟨fun hc => (nomatch hc), fun hc => nomatch hc⟩
  cached g name m hm := by
    rw [h.realised] at hm
    cases hm
  extensions name contents m hm := by
    rw [h.extensions] at hm
    cases hm
  justified := by
    rw [h.events]
    trivial
  sound := sound_new h.ledger h.realised

theorem inv_run (code : Code) (fuel : Nat) (script : Script) {w : World} (hw : Initial w) :
    Inv (runScript code fuel script w) ∧ Later w (runScript code fuel script w) := by
  have htick : ∀ w, Inv w → Inv w.tick :=
    fun w h => ⟨h.flags, h.cached, h.extensions, h.justified, h.sound⟩
  have hperform : ∀ op w, Safe w (imports.perform code fuel op) fun _ _ => True :=
    System.keeps_perform (S := imports) (D := discipline) htick
      (fun w => ⟨List.suffix_refl _, rfl, rfl, .refl _ _⟩)
      (fun callout hcall op w => safe_performOp hcall op) fuel
  obtain ⟨hinv, hfut, -⟩ := System.keeps_run hperform script w (inv_initial hw)
  exact ⟨hinv, hfut⟩

/-- **Whatever the code does that imports call, the history of a run is justified.** -/
theorem justified_run (code : Code) (fuel : Nat) (script : Script) {w : World}
    (hw : Initial w) :
    Justified w.denies (runScript code fuel script w).events ∧
      (runScript code fuel script w).denies = w.denies := by
  obtain ⟨hinv, hfut⟩ := inv_run code fuel script hw
  have hd : (runScript code fuel script w).denies = w.denies := hfut.denies
  exact ⟨hd ▸ hinv.justified, hd⟩

/-- **Whatever the code does that imports call, the ledger of a run is sound.** -/
theorem sound_run (code : Code) (fuel : Nat) (script : Script) {w : World} (hw : Initial w) :
    Sound (runScript code fuel script w).holdings :=
  (inv_run code fuel script hw).1.sound

end GuestPy
