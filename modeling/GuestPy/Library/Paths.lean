import Mathlib

/-!
# Paths of a file system

The text of a path on Unix, and the components that it stands for. Repeated separators and inner
dots fall away, so different texts may stand for the same components.

* `push` and `parent` are the operations on the text. `components_push` says what is appended by
  pushing a path that is neither absolute nor begins with a dot.
* `join` puts names together. `components_join` and `parent_push_join` say what the text stands
  for.
* `locate` follows the components, and `trail` lists the places that it passes.
-/

namespace GuestPy.Paths

abbrev Text := List Char

/-- The names that lead to a place from the root of the file system. -/
abbrev Location := List Text

/-! ## Components -/

inductive Component where
  | rootDir
  | curDir
  | parentDir
  | normal (name : Text)
  deriving DecidableEq

namespace Component

/-- What a part of a path stands for, after the first one. -/
def ofPart (part : Text) : Option Component :=
  if part = [] ∨ part = ['.'] then none
  else if part = ['.', '.'] then some parentDir
  else some (normal part)

def text : Component → Text
  | rootDir => ['/']
  | curDir => ['.']
  | parentDir => ['.', '.']
  | normal name => name

end Component

open Component

/-- What a path begins with, besides names and `..`. -/
def start : List Text → List Component
  | [] :: _ :: _ => [rootDir]
  | ['.'] :: _ => [curDir]
  | _ => []

def components (path : Text) : List Component :=
  start (path.splitOn '/') ++ (path.splitOn '/').filterMap ofPart

/-- A part of a path that is a name. -/
def IsName (part : Text) : Prop := '/' ∉ part ∧ ofPart part = some (normal part)

instance (part : Text) : Decidable (IsName part) := inferInstanceAs (Decidable (_ ∧ _))

/-! ## Operations on the text -/

/-- `PathBuf::push`. -/
def push (path rest : Text) : Text :=
  if rest.head? = some '/' then rest
  else if path = [] ∨ path.getLast? = some '/' then path ++ rest
  else path ++ '/' :: rest

def ofComponents (cs : List Component) : Text := cs.foldl (fun path c => push path c.text) []

/-- `Path::parent`, up to repeated separators and inner dots. -/
def parent (path : Text) : Option Text :=
  match (components path).getLast? with
  | none => none
  | some rootDir => none
  | some _ => some (ofComponents (components path).dropLast)

/-- `Path::file_name`. -/
def fileName (path : Text) : Option Text :=
  match (components path).getLast? with
  | some (normal name) => some name
  | _ => none

/-- The names, one below the other. -/
def join (names : List Text) : Text := names.foldl push []

/-- The path ends in a name, so that it may be the path of a file. -/
def endsInName (path : Text) : Bool :=
  match ofPart ((path.splitOn '/').getLast?.getD []) with
  | some (normal _) => true
  | _ => false

/-! ## Places -/

def step (loc : Location) : Component → Location
  | rootDir => []
  | curDir => loc
  | parentDir => loc.dropLast
  | normal name => loc ++ [name]

/-- Where the components lead, where nothing on the way is a link. -/
def locate (cwd : Location) (cs : List Component) : Location := cs.foldl step cwd

/-- The places on the way. -/
def trail (cwd : Location) : List Component → List Location
  | [] => []
  | c :: cs => step cwd c :: trail (step cwd c) cs

/-! ## What is pushed -/

theorem isName_iff {part : Text} :
    IsName part ↔ '/' ∉ part ∧ part ≠ [] ∧ part ≠ ['.'] ∧ part ≠ ['.', '.'] := by
  unfold IsName ofPart
  by_cases h : part = [] ∨ part = ['.']
  · rcases h with rfl | rfl <;> simp
  · rw [not_or] at h
    by_cases hdots : part = ['.', '.']
    · subst hdots
      simp
    · simp [h.1, h.2, hdots]

theorem splitOn_name {part : Text} (h : IsName part) : part.splitOn '/' = [part] :=
  List.splitOn_eq_singleton h.1

theorem components_nil : components [] = [] := rfl

theorem components_name {part : Text} (h : IsName part) : components part = [normal part] := by
  have hne := isName_iff.mp h
  have hstart : start [part] = [] := by
    unfold start
    split
    · rename_i heq
      cases heq
    · rename_i heq
      cases heq
      exact absurd rfl hne.2.2.1
    · rfl
  simp [components, splitOn_name h, hstart, h.2]

/-- The path is relative, and does not begin with a dot. -/
def Plain (path : Text) : Prop := start (path.splitOn '/') = []

theorem plain_name {part : Text} (h : IsName part) : Plain part := by
  have hcomponents := components_name h
  unfold components at hcomponents
  rw [splitOn_name h] at hcomponents
  simpa [Plain, splitOn_name h, h.2] using hcomponents

theorem Plain.head {path : Text} (h : Plain path) : path.head? ≠ some '/' := by
  intro hhead
  obtain ⟨rest, rfl⟩ : ∃ rest, path = '/' :: rest := by
    cases path with
    | nil => cases hhead
    | cons c rest => exact ⟨rest, by rw [Option.some.inj hhead]⟩
  have hsplit : ('/' :: rest).splitOn '/' = [] :: rest.splitOn '/' :=
    List.splitOn_append_cons_self [] rest
  obtain ⟨part, parts, hparts⟩ := List.exists_cons_of_ne_nil (List.splitOn_ne_nil '/' rest)
  rw [Plain, hsplit, hparts] at h
  cases h

/-- What is appended does not change how a path begins. -/
theorem start_append {parts rest rest' : List Text} (hne : parts ≠ []) (h : rest ≠ [])
    (h' : rest' ≠ []) : start (parts ++ rest) = start (parts ++ rest') := by
  obtain ⟨part, parts, rfl⟩ := List.exists_cons_of_ne_nil hne
  obtain ⟨x, xs, rfl⟩ := List.exists_cons_of_ne_nil h
  obtain ⟨y, ys, rfl⟩ := List.exists_cons_of_ne_nil h'
  cases part with
  | nil => cases parts <;> rfl
  | cons c cs =>
    unfold start
    split <;> split <;> simp_all

theorem start_append_of_ne_nil {parts rest : List Text} (hne : parts ≠ []) (hparts : parts ≠ [[]]) :
    start (parts ++ rest) = start parts := by
  obtain ⟨part, parts, rfl⟩ := List.exists_cons_of_ne_nil hne
  cases part with
  | nil =>
    cases parts with
    | nil => exact absurd rfl hparts
    | cons y ys => rfl
  | cons c cs =>
    unfold start
    split <;> split <;> simp_all

/-- **Pushing a plain path appends its components.** -/
theorem components_push (path : Text) {rest : Text} (h : Plain rest) :
    components (push path rest) = components path ++ components rest := by
  have hrest : rest.splitOn '/' ≠ [] := List.splitOn_ne_nil _ _
  have hcomponents : components rest = (rest.splitOn '/').filterMap ofPart := by
    unfold components
    rw [h, List.nil_append]
  unfold push
  rw [if_neg h.head, hcomponents]
  by_cases hnil : path = []
  · subst hnil
    rw [if_pos (Or.inl rfl), components_nil, List.nil_append, List.nil_append, hcomponents]
  · by_cases hlast : path.getLast? = some '/'
    · -- the path ends in a separator, after which there is an empty part
      obtain ⟨before, rfl⟩ := List.getLast?_eq_some_iff.mp hlast
      have hbefore : before.splitOn '/' ≠ [] := List.splitOn_ne_nil _ _
      have hsplit : (before ++ ['/']).splitOn '/' = before.splitOn '/' ++ [[]] :=
        List.splitOn_append_cons_self before []
      have hsplit' : (before ++ '/' :: rest).splitOn '/' =
          before.splitOn '/' ++ rest.splitOn '/' := List.splitOn_append_cons_self before rest
      rw [if_pos (Or.inr hlast), List.append_assoc, List.singleton_append]
      unfold components
      rw [hsplit, hsplit', start_append hbefore hrest (List.cons_ne_nil [] []),
        List.filterMap_append, List.filterMap_append]
      simp [ofPart]
    · have hparts : path.splitOn '/' ≠ [[]] := by
        intro hempty
        have hjoin : ['/'].intercalate (path.splitOn '/') = path := List.intercalate_splitOn '/'
        rw [hempty] at hjoin
        exact hnil (by simpa using hjoin.symm)
      have hsplit : (path ++ '/' :: rest).splitOn '/' = path.splitOn '/' ++ rest.splitOn '/' :=
        List.splitOn_append_cons_self path rest
      rw [if_neg (by simp [hnil, hlast])]
      unfold components
      rw [hsplit, start_append_of_ne_nil (List.splitOn_ne_nil _ _) hparts, List.filterMap_append,
        List.append_assoc]

theorem components_push_name (path : Text) {name : Text} (h : IsName name) :
    components (push path name) = components path ++ [normal name] := by
  rw [components_push path (plain_name h), components_name h]

/-! ## Names put together -/

theorem components_join {names : List Text} (h : ∀ n ∈ names, IsName n) :
    components (join names) = names.map normal := by
  induction names using List.reverseRecOn with
  | nil => rfl
  | append_singleton names n ih =>
    have hnames : ∀ n ∈ names, IsName n := fun x hx => h x (List.mem_append_left _ hx)
    have hjoin : join (names ++ [n]) = push (join names) n := by simp [join]
    rw [hjoin, components_push_name _ (h n (by simp)), ih hnames, List.map_append,
      List.map_singleton]

theorem plain_join {names : List Text} (h : ∀ n ∈ names, IsName n) : Plain (join names) := by
  have hcomponents := components_join h
  unfold components at hcomponents
  unfold Plain
  -- a component that a path begins with is not a name
  cases hstart : start ((join names).splitOn '/') with
  | nil => rfl
  | cons c cs =>
    rw [hstart] at hcomponents
    have hname : c ∈ names.map normal := by
      rw [← hcomponents]
      simp
    obtain ⟨n, -, rfl⟩ := List.mem_map.mp hname
    unfold start at hstart
    split at hstart <;> cases hstart

theorem components_push_join (path : Text) {names : List Text} (h : ∀ n ∈ names, IsName n) :
    components (push path (join names)) = components path ++ names.map normal := by
  rw [components_push path (plain_join h), components_join h]

/-- A path of names between separators. -/
theorem components_of_names {path : Text} (h : ∀ n ∈ path.splitOn '/', IsName n) :
    Plain path ∧ components path = (path.splitOn '/').map normal := by
  obtain ⟨n, names, heq⟩ := List.exists_cons_of_ne_nil (List.splitOn_ne_nil '/' path)
  have hplain : Plain path := by
    have hn := isName_iff.mp (h n (heq ▸ List.mem_cons_self))
    unfold Plain start
    rw [heq]
    split
    · rename_i hcons
      exact absurd (List.cons.inj hcons).1 hn.2.1
    · rename_i hcons
      exact absurd (List.cons.inj hcons).1 hn.2.2.1
    · rfl
  refine ⟨hplain, ?_⟩
  unfold components
  rw [hplain, List.nil_append]
  refine List.filterMap_eq_map_iff_forall_eq_some.mpr fun part hpart => ?_
  exact (h part hpart).2

theorem getLast?_splitOn_push (path : Text) {rest : Text} (h : Plain rest) :
    ((push path rest).splitOn '/').getLast? = (rest.splitOn '/').getLast? := by
  have hrest : rest.splitOn '/' ≠ [] := List.splitOn_ne_nil _ _
  have happend : ∀ parts : List Text,
      (parts ++ rest.splitOn '/').getLast? = (rest.splitOn '/').getLast? := by
    intro parts
    rw [List.getLast?_append_of_ne_nil _ hrest]
  unfold push
  rw [if_neg h.head]
  split
  · rename_i hpath
    rcases hpath with rfl | hlast
    · rw [List.nil_append]
    · obtain ⟨before, rfl⟩ := List.getLast?_eq_some_iff.mp hlast
      rw [List.append_assoc, List.singleton_append, List.splitOn_append_cons_self, happend]
  · rw [List.splitOn_append_cons_self, happend]

/-- Only where there are names is the result the path of a file. -/
theorem endsInName_push_join (path : Text) {names : List Text} (h : ∀ n ∈ names, IsName n) :
    endsInName (push path (join names)) = true ↔ names ≠ [] := by
  unfold endsInName
  rw [getLast?_splitOn_push path (plain_join h)]
  cases names using List.reverseRecOn with
  | nil => simp [join, ofPart]
  | append_singleton names n =>
    have hn : IsName n := h n (by simp)
    have hjoin : join (names ++ [n]) = push (join names) n := by simp [join]
    rw [hjoin, getLast?_splitOn_push _ (plain_name hn), splitOn_name hn]
    simp [hn.2]

/-! ## The parent -/

/-- A part has no separator in it. -/
theorem not_mem_of_mem_splitOn {path part : Text} (h : part ∈ path.splitOn '/') : '/' ∉ part := by
  induction path generalizing part with
  | nil =>
    obtain rfl := List.mem_singleton.mp h
    exact List.not_mem_nil
  | cons c path ih =>
    rw [List.splitOn_cons_eq_if_modifyHead] at h
    obtain ⟨first, rest, hparts⟩ := List.exists_cons_of_ne_nil (List.splitOn_ne_nil '/' path)
    rw [hparts] at h ih
    by_cases hc : c = '/'
    · rw [if_pos (by simpa using hc)] at h
      rcases List.mem_cons.mp h with rfl | h
      · exact List.not_mem_nil
      · exact ih h
    · rw [if_neg (by simpa using hc), List.modifyHead_cons] at h
      rcases List.mem_cons.mp h with rfl | h
      · have hfirst := ih List.mem_cons_self
        simp [Ne.symm hc, hfirst]
      · exact ih (List.mem_cons_of_mem _ h)

/-- What comes after the beginning of a path. -/
def IsStep (c : Component) : Prop := c = parentDir ∨ ∃ n, IsName n ∧ c = normal n

theorem isStep_of_ofPart {path part : Text} {c : Component} (hpart : part ∈ path.splitOn '/')
    (h : ofPart part = some c) : IsStep c := by
  have hslash := not_mem_of_mem_splitOn hpart
  have hsome := h
  unfold ofPart at hsome
  split at hsome
  · cases hsome
  · split at hsome
    · cases hsome
      exact Or.inl rfl
    · cases hsome
      exact Or.inr ⟨part, ⟨hslash, h⟩, rfl⟩

theorem start_cases (parts : List Text) :
    start parts = [] ∨ start parts = [rootDir] ∨ start parts = [curDir] := by
  unfold start
  split
  · exact Or.inr (Or.inl rfl)
  · exact Or.inr (Or.inr rfl)
  · exact Or.inl rfl

theorem components_ofComponents (parts : List Text) {cs : List Component}
    (h : ∀ c ∈ cs, IsStep c) :
    components (ofComponents (start parts ++ cs)) = start parts ++ cs := by
  induction cs using List.reverseRecOn with
  | nil => rcases start_cases parts with heq | heq | heq <;> rw [heq] <;> rfl
  | append_singleton cs c ih =>
    have hcs := ih fun x hx => h x (List.mem_append_left _ hx)
    have hpush : ofComponents (start parts ++ (cs ++ [c])) =
        push (ofComponents (start parts ++ cs)) c.text := by
      simp [ofComponents, ← List.append_assoc]
    rw [hpush, ← List.append_assoc]
    rcases h c (by simp) with rfl | ⟨n, hn, rfl⟩
    · have hplain : Plain parentDir.text := rfl
      rw [components_push _ hplain, hcs]
      rfl
    · rw [text, components_push_name _ hn, hcs]

/-- **The parent stands for all but the last name.** -/
theorem parent_push_join (path : Text) {names : List Text} (h : ∀ n ∈ names, IsName n)
    (hne : names ≠ []) :
    ∃ dir, parent (push path (join names)) = some dir ∧
      components dir = components path ++ names.dropLast.map normal := by
  obtain ⟨before, n, rfl⟩ : ∃ before n, names = before ++ [n] :=
    ⟨_, _, (List.dropLast_append_getLast hne).symm⟩
  have hcomponents : components (push path (join (before ++ [n]))) =
      components path ++ before.map normal ++ [normal n] := by
    rw [components_push_join path h, List.map_append, List.append_assoc]
    rfl
  have hsteps : ∀ c ∈ (path.splitOn '/').filterMap ofPart ++ before.map normal, IsStep c := by
    intro c hc
    rcases List.mem_append.mp hc with hc | hc
    · obtain ⟨part, hpart, hsome⟩ := List.mem_filterMap.mp hc
      exact isStep_of_ofPart hpart hsome
    · obtain ⟨x, hx, rfl⟩ := List.mem_map.mp hc
      exact Or.inr ⟨x, h x (List.mem_append_left _ hx), rfl⟩
  refine ⟨ofComponents (components path ++ before.map normal), ?_, ?_⟩
  · simp only [parent, hcomponents, List.getLast?_concat, List.dropLast_concat]
  · rw [List.dropLast_concat]
    unfold components
    rw [List.append_assoc]
    exact components_ofComponents (path.splitOn '/') hsteps

/-- Paths with the same components have the same parent. -/
theorem parent_congr {path path' : Text} (h : components path = components path') :
    parent path = parent path' := by
  unfold parent
  rw [h]

/-! ## Where paths lead -/

theorem locate_append (cwd : Location) (cs ds : List Component) :
    locate cwd (cs ++ ds) = locate (locate cwd cs) ds := List.foldl_append

theorem trail_append (cwd : Location) (cs ds : List Component) :
    trail cwd (cs ++ ds) = trail cwd cs ++ trail (locate cwd cs) ds := by
  induction cs generalizing cwd with
  | nil => rfl
  | cons c cs ih =>
    have hrest := ih (step cwd c)
    simp only [List.cons_append, trail, hrest]
    rfl

theorem locate_names (loc : Location) (names : List Text) :
    locate loc (names.map normal) = loc ++ names := by
  induction names generalizing loc with
  | nil => simp [locate]
  | cons n names ih =>
    have hrest := ih (loc ++ [n])
    rw [List.append_assoc] at hrest
    exact hrest

/-- Below a place, a path of names passes places that lie strictly below it. -/
theorem below_of_mem_trail {loc l : Location} {names : List Text}
    (h : l ∈ trail loc (names.map normal)) : loc <+: l ∧ l ≠ loc := by
  induction names generalizing loc with
  | nil => cases h
  | cons n names ih =>
    have hn : loc <+: loc ++ [n] := List.prefix_append _ _
    rcases List.mem_cons.mp h with rfl | h
    · exact ⟨hn, by simp [step]⟩
    · obtain ⟨hbelow, hne⟩ := ih h
      refine ⟨hn.trans hbelow, ?_⟩
      rintro rfl
      have hlength := hbelow.length_le
      simp [step] at hlength

/-- The places on a path of names. -/
theorem mem_trail_names {loc l : Location} {names : List Text} :
    l ∈ trail loc (names.map normal) ↔ ∃ p, p ≠ [] ∧ p <+: names ∧ l = loc ++ p := by
  induction names generalizing loc with
  | nil =>
    constructor
    · exact nofun
    · rintro ⟨p, hne, hp, -⟩
      exact absurd (List.prefix_nil.mp hp) hne
  | cons n names ih =>
    rw [List.map_cons, trail, List.mem_cons, ih]
    constructor
    · rintro (rfl | ⟨p, -, hp, rfl⟩)
      · exact ⟨[n], List.cons_ne_nil _ _, List.prefix_append [n] names, rfl⟩
      · exact ⟨n :: p, List.cons_ne_nil _ _, List.cons_prefix_cons.mpr ⟨rfl, hp⟩,
          List.append_assoc _ _ _⟩
    · rintro ⟨p, hne, hp, rfl⟩
      cases p with
      | nil => exact absurd rfl hne
      | cons n' p =>
        obtain ⟨rfl, hrest⟩ := List.cons_prefix_cons.mp hp
        by_cases hnil : p = []
        · exact Or.inl (by rw [hnil, step])
        · exact Or.inr ⟨p, hnil, hrest, (List.append_assoc loc [n'] p).symm⟩

end GuestPy.Paths
