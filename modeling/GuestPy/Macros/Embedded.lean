import GuestPy.Bundles.Builder
import GuestPy.Library.Paths

/-!
# Paths of embedded bundles

`bundle!` replaces the environment variables in the path of a directory before it takes the name of
the bundle from it.

* `Template` is a path that has been taken apart at its variables, each name as long as it can be.
  `Template.source_inj` says that a path is taken apart in one way only.
* `substitute_append` runs the loop over a template, `exists_template` says that every path is a
  template up to the place where the loop stops.
* `root_iff` says which paths are accepted, and which error the others give.
-/

namespace GuestPy.Macros.Embedded

open Paths
open Bundles.BundleBuilder (isIdentifier)

/-! ## Messages -/

/-- `char::escape_debug`, as it is used for a string. The characters that are printed as they are
are given. -/
def escapeDebug (printable : Char → Bool) (c : Char) : Str :=
  if c = '\x00' then ['\\', '0']
  else if c = '\t' then ['\\', 't']
  else if c = '\r' then ['\\', 'r']
  else if c = '\n' then ['\\', 'n']
  else if c = '\\' ∨ c = '"' then ['\\', c]
  else if printable c then [c]
  else "\\u\x7b".toList ++ Nat.toDigits 16 c.toNat ++ "\x7d".toList

def debug (printable : Char → Bool) (s : Str) : Str :=
  '"' :: s.flatMap (escapeDebug printable) ++ ['"']

section

variable (printable : Char → Bool)

def unparsed (tail : Str) : Str :=
  "unable to parse environment variable in ".toList ++ debug printable tail

def undefined (name : Str) : Str :=
  "environment variable ".toList ++ debug printable name ++ " is not defined".toList

def unnamed : Str := "embedded bundle path has no UTF-8 directory name".toList

/-! ## The path -/

def valid (index : Nat) (c : Char) : Bool :=
  if index = 0 then c = '_' || c.isAlpha else c = '_' || c.isAlpha || c.isDigit

/-- The `end` of the name, counted in characters, when the first `index` of them belong to it. -/
def nameEnd (index : Nat) : Str → Nat
  | [] => index
  | c :: cs => if valid index c then nameEnd (index + 1) cs else index

/-- `BundleMacro::variable`. -/
def variableAt (value : Str) : Option (Str × Str) :=
  if nameEnd 0 value ≠ 0 then some (value.splitAt (nameEnd 0 value)) else none

theorem length_of_variableAt {value name rest : Str} (h : variableAt value = some (name, rest)) :
    rest.length ≤ value.length := by
  unfold variableAt at h
  split at h
  · rw [List.splitAt_eq] at h
    obtain ⟨-, rfl⟩ := Prod.mk.inj (Option.some.inj h)
    exact (List.drop_suffix _ _).length_le
  · cases h

/-- The loop of `resolve_path`. -/
def substitute (env : Str → Option Str) (remaining resolved : Str) : Except Str Str :=
  match _hfound : remaining.dropWhile (· ≠ '$') with
  | [] => .ok (resolved ++ remaining)
  | dollar :: value =>
    match _hname : variableAt value with
    | none => .error (unparsed printable (dollar :: value))
    | some (name, rest) =>
      match env name with
      | none => .error (undefined printable name)
      | some replacement =>
        substitute env rest (resolved ++ remaining.takeWhile (· ≠ '$') ++ replacement)
termination_by remaining.length
decreasing_by
  have hrest := length_of_variableAt _hname
  have htail := (List.dropWhile_suffix (· ≠ '$') (l := remaining)).length_le
  rw [_hfound, List.length_cons] at htail
  omega

def resolvePath (env : Str → Option Str) (path : Str) : Except Str Str :=
  substitute printable env path []

/-- The root of the bundle that `BundleMacro::new` makes. -/
def root (env : Str → Option Str) (path : Str) : Except Str Str := do
  let resolved ← resolvePath printable env path
  match fileName resolved with
  | some name => .ok name
  | none => .error unnamed

end

/-! ## Templates -/

def isWord (c : Char) : Bool := c = '_' || c.isAlphanum

/-- A variable, and the text up to the next one. -/
@[ext]
structure Reference where
  name : Str
  text : Str
  identifier : isIdentifier name = true
  plain : '$' ∉ text
  maximal : text.head?.all (!isWord ·) = true

@[ext]
structure Template where
  lead : Str
  references : List Reference
  plain : '$' ∉ lead

def Reference.source (r : Reference) : Str := '$' :: r.name ++ r.text

def Reference.value (env : Str → Option Str) (r : Reference) : Option Str :=
  (env r.name).map (· ++ r.text)

namespace Template

def source (t : Template) : Str := t.lead ++ t.references.flatMap Reference.source

/-- What the path becomes. What a variable stands for is not looked at again. -/
def expand (env : Str → Option Str) (t : Template) : Option Str :=
  (t.references.mapM (Reference.value env)).map fun values => t.lead ++ values.flatten

end Template

/-- The loop stops at what is left, with an error. -/
inductive Stuck (printable : Char → Bool) (env : Str → Option Str) : Str → Str → Prop
  | unparsed {value : Str} (h : value.head?.all (!valid 0 ·) = true) :
      Stuck printable env ('$' :: value) (unparsed printable ('$' :: value))
  | undefined {name rest : Str} (hname : isIdentifier name = true)
      (hrest : rest.head?.all (!isWord ·) = true) (h : env name = none) :
      Stuck printable env ('$' :: name ++ rest) (undefined printable name)

/-! ## One name -/

theorem isWord_eq (c : Char) : isWord c = valid 1 c := by
  unfold isWord valid Char.isAlphanum
  rw [if_neg Nat.one_ne_zero, Bool.or_assoc]

theorem nameEnd_succ (index : Nat) (s : Str) :
    nameEnd (index + 1) s = index + 1 + (s.takeWhile isWord).length := by
  induction s generalizing index with
  | nil => rfl
  | cons c s ih =>
    have hvalid : valid (index + 1) c = isWord c := (isWord_eq c).symm
    unfold nameEnd
    rw [hvalid, List.takeWhile_cons]
    cases isWord c with
    | true =>
      rw [if_pos rfl, if_pos rfl, ih, List.length_cons]
      omega
    | false => rfl

/-- Where a stretch ends. -/
theorem span_append {p : Char → Bool} {s rest : Str} (hs : ∀ c ∈ s, p c = true)
    (hrest : rest.head?.all (!p ·) = true) :
    (s ++ rest).takeWhile p = s ∧ (s ++ rest).dropWhile p = rest := by
  rw [List.takeWhile_append_of_pos hs, List.dropWhile_append_of_pos hs]
  cases rest with
  | nil => exact ⟨List.append_nil s, rfl⟩
  | cons c rest =>
    have hc : ¬ p c = true := by simpa using hrest
    exact ⟨by rw [List.takeWhile_cons_of_neg hc, List.append_nil], List.dropWhile_cons_of_neg hc⟩

theorem variableAt_cons (c : Char) (s : Str) :
    variableAt (c :: s) =
      if valid 0 c then some (c :: s.takeWhile isWord, s.dropWhile isWord) else none := by
  unfold variableAt nameEnd
  cases valid 0 c with
  | false => rfl
  | true =>
    have htake : s.take (s.takeWhile isWord).length = s.takeWhile isWord := by
      nth_rewrite 2 [← List.takeWhile_append_dropWhile (p := isWord) (l := s)]
      exact List.take_left
    have hdrop : s.drop (s.takeWhile isWord).length = s.dropWhile isWord := by
      nth_rewrite 2 [← List.takeWhile_append_dropWhile (p := isWord) (l := s)]
      exact List.drop_left
    rw [if_pos rfl, if_pos rfl, nameEnd_succ, if_pos (by omega), List.splitAt_eq, Nat.zero_add,
      Nat.add_comm, List.take_succ_cons, List.drop_succ_cons, htake, hdrop]

theorem isIdentifier_cons (c : Char) (s : Str) :
    isIdentifier (c :: s) = (valid 0 c && s.all isWord) := rfl

theorem variableAt_append {name rest : Str} (hname : isIdentifier name = true)
    (hrest : rest.head?.all (!isWord ·) = true) : variableAt (name ++ rest) = some (name, rest) := by
  cases name with
  | nil => cases hname
  | cons c s =>
    rw [isIdentifier_cons, Bool.and_eq_true, List.all_eq_true] at hname
    obtain ⟨htake, hdrop⟩ := span_append hname.2 hrest
    rw [List.cons_append, variableAt_cons, if_pos hname.1, htake, hdrop]

theorem variableAt_eq_some {value name rest : Str} (h : variableAt value = some (name, rest)) :
    value = name ++ rest ∧ isIdentifier name = true ∧ rest.head?.all (!isWord ·) = true := by
  cases value with
  | nil => cases h
  | cons c s =>
    rw [variableAt_cons] at h
    split at h
    · rename_i hvalid
      obtain ⟨rfl, rfl⟩ := Prod.mk.inj (Option.some.inj h)
      refine ⟨?_, ?_, ?_⟩
      · rw [List.cons_append, List.takeWhile_append_dropWhile]
      · rw [isIdentifier_cons, hvalid, List.all_takeWhile, Bool.and_self]
      · have hstop := List.head?_dropWhile_not isWord s
        cases hhead : (s.dropWhile isWord).head? with
        | none => rfl
        | some c' =>
          rw [hhead] at hstop
          simpa using hstop
    · cases h

theorem variableAt_eq_none_iff {value : Str} :
    variableAt value = none ↔ value.head?.all (!valid 0 ·) = true := by
  cases value with
  | nil => exact iff_of_true rfl rfl
  | cons c s =>
    rw [variableAt_cons, List.head?_cons, Option.all_some]
    cases valid 0 c with
    | true => exact iff_of_false nofun nofun
    | false => exact iff_of_true rfl rfl

/-! ## One way to take a path apart -/

/-- What may follow text without variables. -/
def Stops (rest : Str) : Prop := rest = [] ∨ ∃ value, rest = '$' :: value

theorem Stops.head {rest : Str} (h : Stops rest) :
    rest.head?.all (fun c => !decide (c ≠ '$')) = true := by
  rcases h with rfl | ⟨value, rfl⟩ <;> rfl

theorem Stops.notWord {rest : Str} (h : Stops rest) : rest.head?.all (!isWord ·) = true := by
  rcases h with rfl | ⟨value, rfl⟩ <;> rfl

theorem stops_sources (rs : List Reference) : Stops (rs.flatMap Reference.source) := by
  cases rs with
  | nil => exact Or.inl rfl
  | cons r rs => exact Or.inr ⟨_, rfl⟩

theorem span_plain {text rest : Str} (htext : '$' ∉ text) (hrest : Stops rest) :
    (text ++ rest).takeWhile (· ≠ '$') = text ∧ (text ++ rest).dropWhile (· ≠ '$') = rest :=
  span_append (fun _ hc => decide_eq_true fun heq => htext (heq ▸ hc)) hrest.head

/-- A name ends where its reference says. -/
theorem Reference.variableAt_source (r : Reference) {rest : Str} (h : Stops rest) :
    variableAt (r.name ++ (r.text ++ rest)) = some (r.name, r.text ++ rest) := by
  refine variableAt_append r.identifier ?_
  have hmaximal := r.maximal
  cases htext : r.text with
  | nil => exact h.notWord
  | cons c text =>
    rw [htext] at hmaximal
    exact hmaximal

theorem plain_append_inj {text rest text' rest' : Str} (htext : '$' ∉ text) (hrest : Stops rest)
    (htext' : '$' ∉ text') (hrest' : Stops rest') (h : text ++ rest = text' ++ rest') :
    text = text' ∧ rest = rest' := by
  obtain ⟨htake, hdrop⟩ := span_plain htext hrest
  obtain ⟨htake', hdrop'⟩ := span_plain htext' hrest'
  rw [h] at htake hdrop
  exact ⟨htake.symm.trans htake', hdrop.symm.trans hdrop'⟩

theorem sources_inj {rs rs' : List Reference}
    (h : rs.flatMap Reference.source = rs'.flatMap Reference.source) : rs = rs' := by
  induction rs generalizing rs' with
  | nil =>
    cases rs' with
    | nil => rfl
    | cons r' rs' => cases h
  | cons r rs ih =>
    cases rs' with
    | nil => cases h
    | cons r' rs' =>
      have hstops := stops_sources rs
      have hstops' := stops_sources rs'
      simp only [List.flatMap_cons, Reference.source, List.cons_append, List.append_assoc,
        List.cons.injEq, true_and] at h
      have hnames := congrArg variableAt h
      rw [r.variableAt_source hstops, r'.variableAt_source hstops'] at hnames
      obtain ⟨hname, hrest⟩ := Prod.mk.inj (Option.some.inj hnames)
      obtain ⟨htext, hsources⟩ := plain_append_inj r.plain hstops r'.plain hstops' hrest
      rw [Reference.ext hname htext, ih hsources]

theorem Template.source_inj {t t' : Template} (h : t.source = t'.source) : t = t' := by
  obtain ⟨hlead, hsources⟩ := plain_append_inj t.plain (stops_sources t.references) t'.plain
    (stops_sources t'.references) h
  exact Template.ext hlead (sources_inj hsources)

/-! ## The loop -/

section

variable {printable : Char → Bool} {env : Str → Option Str} {remaining value name rest : Str}
  {dollar : Char}

theorem substitute_of_nil (h : remaining.dropWhile (· ≠ '$') = []) (resolved : Str) :
    substitute printable env remaining resolved = .ok (resolved ++ remaining) := by
  rw [substitute]
  split
  · rfl
  · rename_i heq
    cases h.symm.trans heq

theorem substitute_of_unparsed (h : remaining.dropWhile (· ≠ '$') = dollar :: value)
    (hname : variableAt value = none) (resolved : Str) :
    substitute printable env remaining resolved =
      .error (unparsed printable (dollar :: value)) := by
  rw [substitute]
  split
  · rename_i heq
    cases h.symm.trans heq
  · rename_i heq
    obtain ⟨rfl, rfl⟩ := List.cons.inj (h.symm.trans heq)
    split
    · rfl
    · rename_i hsome
      cases hname.symm.trans hsome

theorem substitute_of_name (h : remaining.dropWhile (· ≠ '$') = dollar :: value)
    (hname : variableAt value = some (name, rest)) (resolved : Str) :
    (env name = none →
      substitute printable env remaining resolved = .error (undefined printable name)) ∧
    ∀ replacement, env name = some replacement →
      substitute printable env remaining resolved =
        substitute printable env rest
          (resolved ++ remaining.takeWhile (· ≠ '$') ++ replacement) := by
  rw [substitute]
  split
  · rename_i heq
    cases h.symm.trans heq
  · rename_i heq
    obtain ⟨rfl, rfl⟩ := List.cons.inj (h.symm.trans heq)
    split
    · rename_i hnone
      cases hname.symm.trans hnone
    · rename_i hsome
      obtain ⟨rfl, rfl⟩ := Prod.mk.inj (Option.some.inj (hname.symm.trans hsome))
      refine ⟨fun henv => ?_, fun replacement henv => ?_⟩
      · rw [henv]
      · rw [henv]

/-- One turn of the loop. -/
theorem substitute_source (r : Reference) {text replacement : Str} (htext : '$' ∉ text)
    (henv : env r.name = some replacement) (hrest : Stops rest) (resolved : Str) :
    substitute printable env (text ++ (r.source ++ rest)) resolved =
      substitute printable env (r.text ++ rest) (resolved ++ text ++ replacement) := by
  have hsource : r.source ++ rest = '$' :: (r.name ++ (r.text ++ rest)) := by
    simp only [Reference.source, List.cons_append, List.append_assoc]
  obtain ⟨htake, hdrop⟩ := span_plain htext (Or.inr ⟨_, hsource⟩)
  rw [hsource] at hdrop htake ⊢
  rw [(substitute_of_name hdrop (r.variableAt_source hrest) resolved).2 replacement henv, htake]

/-- The turns that a list of references takes. -/
theorem substitute_sources {rs : List Reference} {values : List Str}
    (h : rs.mapM (Reference.value env) = some values) {text tail : Str} (htext : '$' ∉ text)
    (htail : Stops tail) (resolved : Str) :
    ∃ last resolved', '$' ∉ last ∧ resolved' ++ last = resolved ++ text ++ values.flatten ∧
      substitute printable env (text ++ (rs.flatMap Reference.source ++ tail)) resolved =
        substitute printable env (last ++ tail) resolved' := by
  induction rs generalizing text resolved values with
  | nil =>
    obtain rfl : [] = values := Option.some.inj h
    exact ⟨text, resolved, htext, (List.append_nil _).symm, rfl⟩
  | cons r rs ih =>
    rw [List.mapM_cons] at h
    obtain ⟨value, hvalue, h⟩ := Option.bind_eq_some_iff.mp h
    obtain ⟨values', hvalues, h⟩ := Option.bind_eq_some_iff.mp h
    obtain rfl : value :: values' = values := Option.some.inj h
    obtain ⟨replacement, henv, rfl⟩ := Option.map_eq_some_iff.mp hvalue
    have hstops : Stops (rs.flatMap Reference.source ++ tail) := by
      rcases stops_sources rs with hnil | ⟨value, hvalue⟩
      · rwa [hnil]
      · exact Or.inr ⟨value ++ tail, by rw [hvalue]; rfl⟩
    obtain ⟨last, resolved', hlast, hresolved, hrun⟩ :=
      ih hvalues r.plain (resolved ++ text ++ replacement)
    refine ⟨last, resolved', hlast, ?_, ?_⟩
    · rw [hresolved, List.flatten_cons]
      simp only [List.append_assoc]
    · rw [List.flatMap_cons, List.append_assoc, substitute_source r htext henv hstops, hrun]

theorem resolvePath_source {t : Template} {q : Str} (h : t.expand env = some q) :
    resolvePath printable env t.source = .ok q := by
  obtain ⟨values, hvalues, rfl⟩ := Option.map_eq_some_iff.mp h
  obtain ⟨last, resolved, hlast, hresolved, hrun⟩ :=
    substitute_sources hvalues t.plain (Or.inl rfl) []
  obtain ⟨-, hdrop⟩ := span_plain hlast (Or.inl rfl)
  rw [List.append_nil, substitute_of_nil hdrop, List.append_nil, hresolved] at hrun
  exact hrun

theorem Stuck.stops {tail e : Str} (h : Stuck printable env tail e) : Stops tail := by
  cases h <;> exact Or.inr ⟨_, rfl⟩

theorem Stuck.substitute {tail e text : Str} (h : Stuck printable env tail e) (htext : '$' ∉ text)
    (resolved : Str) : substitute printable env (text ++ tail) resolved = .error e := by
  obtain ⟨-, hdrop⟩ := span_plain htext h.stops
  cases h with
  | unparsed hvalue => exact substitute_of_unparsed hdrop (variableAt_eq_none_iff.mpr hvalue) _
  | undefined hname hrest henv =>
    exact (substitute_of_name hdrop (variableAt_append hname hrest) _).1 henv

theorem resolvePath_stuck {t : Template} {q tail e : Str} (h : t.expand env = some q)
    (hstuck : Stuck printable env tail e) :
    resolvePath printable env (t.source ++ tail) = .error e := by
  obtain ⟨values, hvalues, -⟩ := Option.map_eq_some_iff.mp h
  obtain ⟨last, resolved, hlast, -, hrun⟩ := substitute_sources hvalues t.plain hstuck.stops []
  rw [← List.append_assoc, hstuck.substitute hlast] at hrun
  exact hrun

/-- A name that has been replaced, in front of what follows it. -/
theorem Template.expand_cons {t : Template} {q lead replacement : Str} {r : Reference}
    (h : t.expand env = some q) (henv : env r.name = some replacement) (htext : r.text = t.lead)
    (hlead : '$' ∉ lead) :
    Template.expand env ⟨lead, r :: t.references, hlead⟩ = some (lead ++ (replacement ++ q)) := by
  obtain ⟨values, hvalues, rfl⟩ := Option.map_eq_some_iff.mp h
  refine Option.map_eq_some_iff.mpr ⟨(replacement ++ t.lead) :: values, ?_, ?_⟩
  · rw [List.mapM_cons]
    refine Option.bind_eq_some_iff.mpr ⟨replacement ++ t.lead, ?_, ?_⟩
    · rw [Reference.value, henv, htext, Option.map_some]
    · exact Option.bind_eq_some_iff.mpr ⟨values, hvalues, rfl⟩
  · rw [List.flatten_cons, List.append_assoc]

/-- Every path is a template up to the end, or to where the loop stops. -/
theorem exists_template (printable : Char → Bool) (env : Str → Option Str) (path : Str) :
    ∃ t q tail, t.source ++ tail = path ∧ Template.expand env t = some q ∧
      (tail = [] ∨ ∃ e, Stuck printable env tail e) := by
  induction hlength : path.length using Nat.strongRecOn generalizing path with
  | ind n ih =>
    have hsplit := List.takeWhile_append_dropWhile (p := (· ≠ '$')) (l := path)
    have hlead : '$' ∉ path.takeWhile (· ≠ '$') := fun h => by
      simpa using List.mem_takeWhile_imp h
    generalize path.takeWhile (· ≠ '$') = lead at hsplit hlead
    have hsource : (⟨lead, [], hlead⟩ : Template).source = lead := List.append_nil lead
    cases hdrop : path.dropWhile (· ≠ '$') with
    | nil =>
      rw [hdrop] at hsplit
      exact ⟨⟨lead, [], hlead⟩, _, [], by rw [hsource, hsplit], rfl, Or.inl rfl⟩
    | cons dollar value =>
      obtain rfl : dollar = '$' := by
        have hhead := List.head?_dropWhile_not (· ≠ '$') path
        rw [hdrop] at hhead
        simpa using hhead
      rw [hdrop] at hsplit
      cases hname : variableAt value with
      | none =>
        exact ⟨⟨lead, [], hlead⟩, _, '$' :: value, by rw [hsource, hsplit], rfl,
          Or.inr ⟨_, .unparsed (variableAt_eq_none_iff.mp hname)⟩⟩
      | some pair =>
        obtain ⟨name, rest⟩ := pair
        obtain ⟨rfl, hidentifier, hrest⟩ := variableAt_eq_some hname
        cases henv : env name with
        | none =>
          exact ⟨⟨lead, [], hlead⟩, _, '$' :: name ++ rest, by rw [hsource, ← hsplit]; rfl, rfl,
            Or.inr ⟨_, .undefined hidentifier hrest henv⟩⟩
        | some replacement =>
          have hshorter : rest.length < n := by
            rw [← hlength, ← hsplit, List.length_append, List.length_cons, List.length_append]
            omega
          obtain ⟨t, q, tail, rfl, hq, htail⟩ := ih rest.length hshorter rest rfl
          -- what follows the name begins with the text of its reference
          have hmaximal : t.lead.head?.all (!isWord ·) = true := by
            cases hlead' : t.lead with
            | nil => rfl
            | cons c text =>
              rw [Template.source, hlead'] at hrest
              exact hrest
          refine ⟨⟨lead, ⟨name, t.lead, hidentifier, t.plain, hmaximal⟩ :: t.references, hlead⟩, _,
            tail, ?_, Template.expand_cons hq henv rfl hlead, htail⟩
          rw [← hsplit]
          simp only [Template.source, Reference.source, List.flatMap_cons, List.append_assoc,
            List.cons_append]

end

theorem root_of_resolvePath {printable : Char → Bool} {env : Str → Option Str} {path q : Str}
    (h : resolvePath printable env path = .ok q) :
    (∀ name, root printable env path = .ok name ↔ fileName q = some name) ∧
    ∀ e, root printable env path = .error e ↔ fileName q = none ∧ e = unnamed := by
  cases hname : fileName q with
  | none =>
    have hroot : root printable env path = .error unnamed := by
      simp only [root, h, bind, Except.bind, hname]
    rw [hroot]
    exact ⟨fun name => iff_of_false nofun nofun, fun e =>
      ⟨fun he => ⟨rfl, (Except.error.inj he).symm⟩, fun he => congrArg _ he.2.symm⟩⟩
  | some name =>
    have hroot : root printable env path = .ok name := by
      simp only [root, h, bind, Except.bind, hname]
    rw [hroot]
    exact ⟨fun name' => ⟨fun hok => congrArg _ (Except.ok.inj hok), fun hsome =>
      congrArg _ (Option.some.inj hsome)⟩, fun e => iff_of_false nofun nofun⟩

/-- **A path is accepted exactly if it is a template whose variables are defined**, and what it
becomes has a name. -/
theorem root_iff (printable : Char → Bool) (env : Str → Option Str) (path : Str) :
    (∀ name, root printable env path = .ok name ↔
      ∃ t q, Template.source t = path ∧ t.expand env = some q ∧ fileName q = some name) ∧
    (∀ e, root printable env path = .error e ↔
      ∃ t q tail, Template.source t ++ tail = path ∧ t.expand env = some q ∧
        (tail = [] ∧ fileName q = none ∧ e = unnamed ∨ Stuck printable env tail e)) ∧
    ∀ t t' : Template, t.source = t'.source → t = t' := by
  have hstuck : ∀ {t q tail e}, Template.source t ++ tail = path → t.expand env = some q →
      Stuck printable env tail e → root printable env path = .error e := by
    rintro t q tail e rfl hq h
    unfold root
    rw [resolvePath_stuck hq h]
    rfl
  have hwhole : ∀ {t q}, Template.source t = path → t.expand env = some q →
      resolvePath printable env path = .ok q := by
    rintro t q rfl hq
    exact resolvePath_source hq
  refine ⟨fun name => ⟨fun h => ?_, ?_⟩, fun e => ⟨fun h => ?_, ?_⟩, fun t t' => Template.source_inj⟩
  · obtain ⟨t, q, tail, hsource, hq, rfl | ⟨e, htail⟩⟩ := exists_template printable env path
    · rw [List.append_nil] at hsource
      exact ⟨t, q, hsource, hq, ((root_of_resolvePath (hwhole hsource hq)).1 name).mp h⟩
    · cases (hstuck hsource hq htail).symm.trans h
  · rintro ⟨t, q, hsource, hq, hname⟩
    exact ((root_of_resolvePath (hwhole hsource hq)).1 name).mpr hname
  · obtain ⟨t, q, tail, hsource, hq, rfl | ⟨e', htail⟩⟩ := exists_template printable env path
    · have hsource' := hsource
      rw [List.append_nil] at hsource'
      obtain ⟨hname, rfl⟩ := ((root_of_resolvePath (hwhole hsource' hq)).2 e).mp h
      exact ⟨t, q, [], hsource, hq, Or.inl ⟨rfl, hname, rfl⟩⟩
    · obtain rfl := Except.error.inj ((hstuck hsource hq htail).symm.trans h)
      exact ⟨t, q, tail, hsource, hq, Or.inr htail⟩
  · rintro ⟨t, q, tail, hsource, hq, ⟨rfl, hname, rfl⟩ | htail⟩
    · rw [List.append_nil] at hsource
      exact ((root_of_resolvePath (hwhole hsource hq)).2 _).mpr ⟨hname, rfl⟩
    · exact hstuck hsource hq htail

end GuestPy.Macros.Embedded
