import Mathlib.Data.List.Induction
import PluginChain.Configuration
import PluginChain.Proofs.Store.Opening
import PluginChain.Proofs.Yaml.Tree
import PluginChain.Service

/-!
# What a configuration comes to

* `Configuration.findFile_eq_some_iff` and `findFile_eq_none_iff` say which file is used: that of the
  nearest directory around the current one.
* `Configuration.exists_load_error_iff` says when there is no configuration.
* `Configuration.load_eq_ok` says what is in one: each setting for itself comes from the environment,
  from the file, or from neither (`Environment.Decides`).
* `ConfigFile.limits_of_carries` says what the file makes of limits that it gives some of.
-/

set_option autoImplicit false

namespace PluginChain

namespace Configuration

variable {t : FileTree} {current : Place} {e : Environment}

/-! ## The nearest file -/

/-- There is a configuration file in a directory. -/
def IsIn (t : FileTree) (p : Place) : Prop := t.isThereAt [] (fileIn (FileTree.pathOf p)) = true

instance (t : FileTree) (p : Place) : Decidable (IsIn t p) := inferInstanceAs (Decidable (_ = true))

/-- A directory with a configuration file, and no directory between it and the current one has one. -/
structure IsNearest (t : FileTree) (current directory : Place) : Prop where
  around : directory <+: current
  isIn : IsIn t directory
  nearest : ∀ p, p <+: current → IsIn t p → p <+: directory

theorem IsNearest.unique {p q : Place} (hp : IsNearest t current p) (hq : IsNearest t current q) : p = q :=
  (hq.nearest p hp.around hp.isIn).eq_of_length_le (hp.nearest q hq.around hq.isIn).length_le

/-- The search looks into the current directory, and then goes up. -/
theorem findFile_concat (t : FileTree) (p : Place) (name : String) :
    findFile t (p ++ [name]) =
      if IsIn t (p ++ [name]) then some (fileIn (FileTree.pathOf (p ++ [name]))) else findFile t p := by
  have hup : ((List.range (p.length + 1)).map Nat.succ).map
      (fun n => (p ++ [name]).take ((p ++ [name]).length - n)) =
      (List.range (p.length + 1)).map fun n => p.take (p.length - n) := by
    rw [List.map_map]
    refine List.map_congr_left fun n _ => ?_
    rw [Function.comp_apply, List.length_append, List.length_singleton, Nat.add_sub_add_right]
    exact List.take_append_of_le_length (Nat.sub_le _ _)
  rw [findFile, List.length_append, List.length_singleton, List.range_succ_eq_map, List.map_cons]
  rw [List.length_append, List.length_singleton] at hup
  rw [hup, Nat.sub_zero, List.map_cons, List.find?_cons,
    List.take_of_length_le (by rw [List.length_append, List.length_singleton])]
  split
  · next h => exact (if_pos h).symm
  · next h =>
    rw [if_neg (by rw [IsIn, h]; decide)]
    rfl

theorem findFile_nil (t : FileTree) :
    findFile t [] = if IsIn t [] then some (fileIn (FileTree.pathOf [])) else none := by
  change List.find? _ [fileIn (FileTree.pathOf [])] = _
  rw [List.find?_cons]
  split
  · next h => exact (if_pos h).symm
  · next h =>
    rw [if_neg (by rw [IsIn, h]; decide)]
    rfl

theorem findFile_eq_none_iff : findFile t current = none ↔ ∀ p, p <+: current → ¬ IsIn t p := by
  induction current using List.reverseRecOn with
  | nil =>
    rw [findFile_nil]
    simp only [List.prefix_nil, forall_eq]
    split <;> simp_all
  | append_singleton p name ih =>
    rw [findFile_concat]
    simp only [List.prefix_concat_iff, forall_eq_or_imp, ← ih]
    split <;> simp_all

theorem findFile_of_isNearest {directory : Place} (h : IsNearest t current directory) :
    findFile t current = some (fileIn (FileTree.pathOf directory)) := by
  induction current using List.reverseRecOn with
  | nil =>
    obtain rfl := List.prefix_nil.1 h.around
    rw [findFile_nil, if_pos h.isIn]
  | append_singleton p name ih =>
    rw [findFile_concat]
    rcases List.prefix_concat_iff.1 h.around with rfl | haround
    · rw [if_pos h.isIn]
    · -- a file in the current directory would be nearer
      have hnot : ¬ IsIn t (p ++ [name]) := fun hin => by
        have hle := (h.nearest _ List.prefix_rfl hin).length_le
        have hle' := haround.length_le
        rw [List.length_append, List.length_singleton] at hle
        omega
      rw [if_neg hnot]
      exact ih ⟨haround, h.isIn, fun q hq => h.nearest q (hq.trans (List.prefix_append p [name]))⟩

theorem exists_isNearest {path : String} (h : findFile t current = some path) :
    ∃ directory, IsNearest t current directory := by
  induction current using List.reverseRecOn with
  | nil =>
    rw [findFile_nil] at h
    split at h
    · next hin => exact ⟨[], List.prefix_rfl, hin, fun p hp _ => hp⟩
    · cases h
  | append_singleton p name ih =>
    rw [findFile_concat] at h
    split at h
    · next hin => exact ⟨_, List.prefix_rfl, hin, fun q hq _ => hq⟩
    · next hnot =>
      obtain ⟨directory, haround, hin, hnearest⟩ := ih h
      refine ⟨directory, haround.trans (List.prefix_append p [name]), hin, fun q hq hqin => ?_⟩
      rcases List.prefix_concat_iff.1 hq with rfl | hq
      · exact absurd hqin hnot
      · exact hnearest q hq hqin

/-- **The file that is used is that of the nearest directory.** -/
theorem findFile_eq_some_iff {path : String} :
    findFile t current = some path ↔
      ∃ directory, IsNearest t current directory ∧ path = fileIn (FileTree.pathOf directory) := by
  constructor
  · intro h
    obtain ⟨directory, hnearest⟩ := exists_isNearest h
    exact ⟨directory, hnearest, Option.some.inj (h.symm.trans (findFile_of_isNearest hnearest))⟩
  · rintro ⟨directory, hnearest, rfl⟩
    exact findFile_of_isNearest hnearest

/-- In a tree whose things are in directories, the file of a directory is the one of its name there. -/
theorem isIn_iff (hclosed : t.Closed) {p : Place}
    (hnames : ∀ n ∈ p, FileTree.IsName n ∧ n.utf8ByteSize ≤ 255)
    (hlong : (fileIn (FileTree.pathOf p)).utf8ByteSize ≤ 4095) :
    IsIn t p ↔ t.lookup (p ++ [".scriptflow", "config.yaml"]) ≠ none := by
  have hinside : ∀ n ∈ p ++ [".scriptflow"], FileTree.IsName n := by
    rw [List.forall_mem_append, List.forall_mem_singleton]
    exact ⟨fun n hn => (hnames n hn).1, by decide +kernel⟩
  have hpath : fileIn (FileTree.pathOf p) = FileTree.pathOf (p ++ [".scriptflow", "config.yaml"]) := by
    rw [fileIn, FileTree.join_pathOf (fun n hn => (hnames n hn).1) (by decide +kernel),
      FileTree.join_pathOf hinside (by decide +kernel), List.append_assoc]
    rfl
  rw [IsIn, hpath]
  rw [hpath] at hlong
  refine FileTree.isThereAt_pathOf hclosed (by simp) ?_ hlong
  rw [List.forall_mem_append]
  exact ⟨hnames, by decide +kernel⟩

/-! ## What the file says -/

/-- The file at a path cannot be read, or its text is that of no configuration file. -/
def IsUnusable (t : FileTree) (path : String) : Prop :=
  (∃ why, (t.locate [] path).bind t.read = .error why) ∨
    ∃ text why, (t.locate [] path).bind t.read = .ok text ∧ ConfigFile.codec.ofYaml text = .error why

theorem exists_readFile_error_iff {path : String} :
    (∃ why, readFile t path = .error why) ↔ IsUnusable t path := by
  rw [readFile, IsUnusable]
  cases hread : (t.locate [] path).bind t.read with
  | error why => simp
  | ok text => cases hparse : ConfigFile.codec.ofYaml text <;> simp [Except.mapError, hparse]

theorem readFile_eq_ok_iff {path : String} {f : ConfigFile} :
    readFile t path = .ok f ↔
      ∃ text, (t.locate [] path).bind t.read = .ok text ∧ ConfigFile.codec.ofYaml text = .ok f := by
  rw [readFile]
  cases hread : (t.locate [] path).bind t.read with
  | error why => simp
  | ok text => cases hparse : ConfigFile.codec.ofYaml text <;> simp [Except.mapError, hparse]

/-- What the configuration file says, which is nothing where there is none. -/
inductive Says (t : FileTree) (current : Place) : ConfigFile → Prop
  | nothing (h : ∀ p, p <+: current → ¬ IsIn t p) : Says t current {}
  | file {directory : Place} {text : String} {f : ConfigFile} (h : IsNearest t current directory)
    (hread : (t.locate [] (fileIn (FileTree.pathOf directory))).bind t.read = .ok text)
    (hparse : ConfigFile.codec.ofYaml text = .ok f) : Says t current f

/-- Where the file can be used, a configuration is made of what it says. -/
theorem load_of_says {f : ConfigFile} (h : Says t current f) (e : Environment) :
    ∃ file : Option (String × ConfigFile), load t current e = resolve t file e ∧
      file.map Prod.fst = findFile t current ∧ (file.map Prod.snd).getD {} = f ∧
      (file = none → f.home = none) := by
  cases h with
  | nothing h =>
    refine ⟨none, ?_, ?_, rfl, fun _ => rfl⟩
    · rw [load, findFile_eq_none_iff.2 h]
    · rw [findFile_eq_none_iff.2 h, Option.map_none]
  | @file directory text f h hread hparse =>
    refine ⟨some (fileIn (FileTree.pathOf directory), f), ?_, ?_, rfl, nofun⟩
    · rw [load, findFile_of_isNearest h]
      simp only [readFile_eq_ok_iff.2 ⟨text, hread, hparse⟩]
    · rw [findFile_of_isNearest h, Option.map_some]

theorem unusable_or_read (t : FileTree) (current : Place) :
    (∃ directory, IsNearest t current directory ∧ IsUnusable t (fileIn (FileTree.pathOf directory))) ∨
      ∃ f, Says t current f := by
  cases hfind : findFile t current with
  | none => exact .inr ⟨_, .nothing (findFile_eq_none_iff.1 hfind)⟩
  | some path =>
    obtain ⟨directory, hnearest, rfl⟩ := findFile_eq_some_iff.1 hfind
    cases hfile : readFile t (fileIn (FileTree.pathOf directory)) with
    | error why => exact .inl ⟨directory, hnearest, exists_readFile_error_iff.1 ⟨why, hfile⟩⟩
    | ok f =>
      obtain ⟨text, hread, hparse⟩ := readFile_eq_ok_iff.1 hfile
      exact .inr ⟨f, .file hnearest hread hparse⟩

theorem Says.unique {f g : ConfigFile} (hf : Says t current f) (hg : Says t current g) : f = g := by
  cases hf with
  | nothing h =>
    cases hg with
    | nothing => rfl
    | file h' => exact absurd h'.isIn (h _ h'.around)
  | file h hread hparse =>
    cases hg with
    | nothing h' => exact absurd h.isIn (h' _ h.around)
    | file h' hread' hparse' =>
      obtain rfl := h.unique h'
      rw [hread] at hread'
      cases hread'
      rw [hparse] at hparse'
      exact Except.ok.inj hparse'

/-! ## Faults -/

/-- Nothing tells where the store is. -/
def HasNoHome (e : Environment) (f : ConfigFile) : Prop :=
  e.get? "SCRIPTFLOW_HOME" = none ∧ f.home = none ∧ e.home? = none

theorem exists_resolveHome_error_iff {file : Option (String × ConfigFile)} {f : ConfigFile}
    (hf : (file.map Prod.snd).getD {} = f) :
    (∃ why, resolveHome t file e = .error why) ↔ HasNoHome e f := by
  subst hf
  rw [HasNoHome]
  cases file with
  | none => cases hhere : e.get? "SCRIPTFLOW_HOME" <;> cases huser : e.home? <;> simp [resolveHome, hhere, huser]
  | some p =>
    obtain ⟨path, f⟩ := p
    cases hhere : e.get? "SCRIPTFLOW_HOME" <;> cases hsaid : f.home <;> cases huser : e.home? <;>
      simp [resolveHome, hhere, hsaid, huser]

/-- What the file says of the settings makes no sense if it is zero. -/
theorem exists_validate_error_iff (f : ConfigFile) :
    (∃ why, (f.settings {}).validate = .error why) ↔
      f.timeoutMillis = some 0 ∨ f.maxParallel = some 0 := by
  have hok : (∃ why, (f.settings {}).validate = .error why) ↔ ¬ (f.settings {}).validate = .ok () := by
    cases (f.settings {}).validate <;> simp
  rw [hok, Settings.validate_eq_ok_iff, ConfigFile.settings]
  cases f.timeoutMillis <;> cases f.maxParallel <;> simp [Duration.ofMillis]
  all_goals omega

theorem exists_resolve_error_iff {file : Option (String × ConfigFile)} {f : ConfigFile}
    (hf : (file.map Prod.snd).getD {} = f) :
    (∃ why, resolve t file e = .error why) ↔
      HasNoHome e f ∨ f.timeoutMillis = some 0 ∨ f.maxParallel = some 0 := by
  rw [← exists_resolveHome_error_iff hf, ← exists_validate_error_iff, resolve, hf]
  cases resolveHome t file e <;> cases (f.settings {}).validate <;> simp

/-- **When there is no configuration.**  The nearest file cannot be used, or it asks for no time or for no
step, or nothing tells where the store is. -/
theorem exists_load_error_iff :
    (∃ why, load t current e = .error why) ↔
      (∃ directory, IsNearest t current directory ∧ IsUnusable t (fileIn (FileTree.pathOf directory))) ∨
      ∃ f, Says t current f ∧ (HasNoHome e f ∨ f.timeoutMillis = some 0 ∨ f.maxParallel = some 0) := by
  constructor
  · rintro ⟨why, hwhy⟩
    refine (unusable_or_read t current).imp_right fun ⟨f, hf⟩ => ⟨f, hf, ?_⟩
    obtain ⟨file, hload, -, hsaid, -⟩ := load_of_says hf e
    exact (exists_resolve_error_iff hsaid).1 ⟨why, hload ▸ hwhy⟩
  · rintro (⟨directory, hnearest, hunusable⟩ | ⟨f, hf, hfault⟩)
    · obtain ⟨why, hwhy⟩ := exists_readFile_error_iff.2 hunusable
      refine ⟨why, ?_⟩
      rw [load, findFile_of_isNearest hnearest]
      simp only [hwhy]
    · obtain ⟨file, hload, -, hsaid, -⟩ := load_of_says hf e
      rw [hload]
      exact (exists_resolve_error_iff hsaid).2 hfault

end Configuration

/-! ## Settings -/

/-- The environment gives a setting: a variable that is a number above zero, perhaps between blanks. -/
def Environment.Gives (e : Environment) (name : String) (n : Nat) : Prop :=
  ∃ raw, e.get? name = some raw ∧ Text.natural? (Text.trim raw) = some n ∧ 1 ≤ n

/-- Where a setting comes from. -/
inductive Environment.Decides (e : Environment) (name : String) (said : Option Nat) (default : Nat) :
    Nat → Prop
  | environment {n : Nat} (h : e.Gives name n) : Decides e name said default n
  | file {n : Nat} (h : ∀ m, ¬ e.Gives name m) (hsaid : said = some n) : Decides e name said default n
  | neither (h : ∀ m, ¬ e.Gives name m) (hsaid : said = none) : Decides e name said default default

namespace Environment

variable {e : Environment}

theorem gives_iff {name : String} {n : Nat} : e.Gives name n ↔ (e.get? name).bind positive? = some n := by
  rw [Gives]
  simp only [positive?, Option.bind_eq_some_iff, Option.filter_eq_some_iff, decide_eq_true_eq]
  rfl

theorem decides (e : Environment) (name : String) (said : Option Nat) (default : Nat) :
    e.Decides name said default (((e.get? name).bind positive?).getD (said.getD default)) := by
  cases hgiven : (e.get? name).bind positive? with
  | some n => exact .environment (gives_iff.2 hgiven)
  | none =>
    have hnot : ∀ m, ¬ e.Gives name m := fun m hm => by
      rw [gives_iff, hgiven] at hm
      cases hm
    cases said with
    | some n => exact .file hnot rfl
    | none => exact .neither hnot rfl

end Environment

/-! ## Limits -/

/-- Each limit is the number that is given for it, and where none is given what holds without. -/
def Limits.GivenBy (l : Limits) (given : List (String × Data)) : Prop :=
  l.fields = standard.fields.map fun (name, word, value) =>
    (name, word, ((Entries.get? name given).map fun d => d.natural?.getD value).getD value)

namespace Limits

theorem natural?_of_accept {word : String} {x y : Data} (h : (Shape.natural word).accept x = some y) :
    ∃ n : Nat, x = .int n ∧ y.natural? = some n := by
  cases Shape.normalForm_of_accept _ h with
  | natural _ low _ =>
    obtain ⟨m, rfl⟩ := Int.eq_ofNat_of_zero_le low
    exact ⟨m, rfl, rfl⟩

/-- The limits that a tree gives some of, beside what no limit is called. -/
theorem givenBy_of_ofData? {given : List (String × Data)} {l : Limits}
    (h : codec.ofData? (codec.shape.prune (.table given)) = some l) : l.GivenBy given := by
  obtain ⟨d, haccept, hdecode⟩ := Option.bind_eq_some_iff.1 h
  obtain ⟨es, rfl, hfields⟩ := Shape.get?_of_accept_record haccept
  have hlimit : ∀ {name word : String} {value n : Nat},
      Entries.get? name (standard.fields.map fun (name, word, value) =>
        (name, Shape.natural word, some (Data.int value))) = some (.natural word, some (.int value)) →
      Data.field? name Data.natural? es = some n →
      n = ((Entries.get? name given).map fun d => d.natural?.getD value).getD value := by
    intro name word value n hfield hn
    obtain ⟨hgiven, hnot⟩ := hfields name _ hfield
    rw [Data.field?] at hn
    cases hget : Entries.get? name given with
    | none =>
      rw [hnot hget] at hn
      exact (Option.some.inj hn).symm
    | some x =>
      obtain ⟨y, hy, hes⟩ := hgiven x hget
      obtain ⟨m, rfl, hm⟩ := natural?_of_accept hy
      rw [hes, Option.bind_some, hm] at hn
      exact (Option.some.inj hn).symm
  simp only [codec, bind, Option.bind_eq_some_iff, pure, Option.some.injEq] at hdecode
  obtain ⟨operations, h₁, callLevels, h₂, depth, h₃, functionDepth, h₄, textSize, h₅, listSize, h₆,
    tableSize, h₇, rfl⟩ := hdecode
  rw [GivenBy, hlimit rfl h₁, hlimit rfl h₂, hlimit rfl h₃, hlimit rfl h₄, hlimit rfl h₅, hlimit rfl h₆,
    hlimit rfl h₇]
  rfl

end Limits

/-- **Limits that a file does not give keep their values.**  The text is read as what its tree says, and
the fields that nothing knows are passed over. -/
theorem ConfigFile.limits_of_carries {text : String} {es : List (String × Data)} {f : ConfigFile}
    (hcarries : Yaml.Carries text (.table es))
    (h : codec.ofData? (codec.shape.prune (.table es)) = some f) :
    codec.ofYaml text = .ok f ∧ (Entries.get? "sandbox" es = none → f.limits = none) ∧
      ∀ given, Entries.get? "sandbox" es = some (.table given) →
        ∃ l, f.limits = some l ∧ l.GivenBy given := by
  refine ⟨Codec.ofYaml_of_carries h rfl hcarries, ?_⟩
  obtain ⟨d, haccept, hdecode⟩ := Option.bind_eq_some_iff.1 h
  obtain ⟨es', rfl, hfields⟩ := Shape.get?_of_accept_record haccept
  obtain ⟨hgiven, hnot⟩ := hfields "sandbox" _ rfl
  have hlimits : Data.optionalField? "sandbox" Limits.codec.decode? es' = some f.limits := by
    simp only [codec, bind, Option.bind_eq_some_iff, pure, Option.some.injEq] at hdecode
    obtain ⟨_, -, _, -, _, -, _, -, limits, hlimits, rfl⟩ := hdecode
    exact hlimits
  refine ⟨fun hnone => ?_, fun given hsome => ?_⟩
  · rw [Data.optionalField?, hnot hnone] at hlimits
    exact (Option.some.inj hlimits).symm
  · obtain ⟨y, hy, hes⟩ := hgiven _ hsome
    have hlimit : Limits.codec.shape.accept (Limits.codec.shape.prune (.table given)) = some y := by
      have htable : Data.table given ≠ .null := Data.noConfusion
      have hmaybe : (Shape.maybe Limits.codec.shape).accept (Limits.codec.shape.prune (.table given)) =
          some y := hy
      rwa [Shape.accept_maybe (Shape.prune_ne_null _ htable)] at hmaybe
    obtain ⟨es'', rfl, -⟩ := Shape.get?_of_accept_record hlimit
    rw [Data.optionalField?, hes] at hlimits
    obtain ⟨l, hl, hf⟩ := Option.map_eq_some_iff.1 hlimits
    refine ⟨l, hf.symm, Limits.givenBy_of_ofData? ?_⟩
    rw [Codec.ofData?, hlimit, Option.bind_some, hl]

namespace Configuration

variable {t : FileTree} {current : Place} {e : Environment} {c : Configuration}

theorem resolve_eq_ok {file : Option (String × ConfigFile)} {f : ConfigFile}
    (hf : (file.map Prod.snd).getD {} = f) (h : resolve t file e = .ok c) :
    c.file = file.map Prod.fst ∧ c.settings = e.settings (f.settings {}) ∧
      c.limits = f.limits.getD .standard := by
  rw [resolve, hf] at h
  cases hhome : resolveHome t file e with
  | error why =>
    rw [hhome] at h
    cases h
  | ok home =>
    cases hvalid : (f.settings {}).validate with
    | error why =>
      rw [hhome] at h
      simp only [hvalid, reduceCtorEq] at h
    | ok u =>
      rw [hhome] at h
      simp only [hvalid, Except.ok.injEq] at h
      subst h
      exact ⟨rfl, rfl, rfl⟩

/-- **What is in a configuration.** -/
theorem load_eq_ok (h : load t current e = .ok c) :
    c.file = findFile t current ∧ ∃ f, Says t current f ∧
      (∃ ms, c.settings.timeout = .ofMillis ms ∧
        e.Decides "SCRIPTFLOW_TIMEOUT_MS" f.timeoutMillis 5000 ms) ∧
      e.Decides "SCRIPTFLOW_MAX_PARALLEL" f.maxParallel 10 c.settings.maxParallel ∧
      c.limits = f.limits.getD .standard ∧ c.settings.validate = .ok () := by
  rcases unusable_or_read t current with hunusable | ⟨f, hf⟩
  · obtain ⟨why, hwhy⟩ := exists_load_error_iff (e := e).2 (.inl hunusable)
    rw [hwhy] at h
    cases h
  · obtain ⟨file, hload, hfile, hsaid, -⟩ := load_of_says hf e
    rw [hload] at h
    obtain ⟨hpath, hsettings, hlimits⟩ := resolve_eq_ok hsaid h
    refine ⟨hpath.trans hfile, f, hf, ⟨_, ?_, e.decides "SCRIPTFLOW_TIMEOUT_MS" f.timeoutMillis 5000⟩, ?_,
      hlimits, validate_of_resolve h⟩
    · rw [hsettings, Environment.settings, ConfigFile.settings]
      cases (e.get? "SCRIPTFLOW_TIMEOUT_MS").bind Environment.positive? <;> cases f.timeoutMillis <;> rfl
    · rw [hsettings]
      exact e.decides "SCRIPTFLOW_MAX_PARALLEL" f.maxParallel 10

/-- **What a configuration comes to.**  The search ends at the file of the nearest directory, if one has a
file.  There is no configuration just if this file cannot be used, or asks for no time or for no step,
whatever the environment says of them, or if nothing tells where the store is.  Otherwise the time and the
number of steps are decided each for itself, limits that are not given keep their values, and a service can
be started on the settings. -/
theorem resolution (t : FileTree) (current : Place) (e : Environment) :
    (∀ path, findFile t current = some path ↔
      ∃ directory, IsNearest t current directory ∧ path = fileIn (FileTree.pathOf directory)) ∧
    (findFile t current = none ↔ ∀ p, p <+: current → ¬ IsIn t p) ∧
    (t.Closed → ∀ p, (∀ n ∈ p, FileTree.IsName n ∧ n.utf8ByteSize ≤ 255) →
      (fileIn (FileTree.pathOf p)).utf8ByteSize ≤ 4095 →
        (IsIn t p ↔ t.lookup (p ++ [".scriptflow", "config.yaml"]) ≠ none)) ∧
    ((∃ why, load t current e = .error why) ↔
      (∃ directory, IsNearest t current directory ∧ IsUnusable t (fileIn (FileTree.pathOf directory))) ∨
      ∃ f, Says t current f ∧ (HasNoHome e f ∨ f.timeoutMillis = some 0 ∨ f.maxParallel = some 0)) ∧
    (∀ c, load t current e = .ok c →
      c.file = findFile t current ∧ (∃ f, Says t current f) ∧
      (∀ f, Says t current f →
        (∃ ms, c.settings.timeout = .ofMillis ms ∧
          e.Decides "SCRIPTFLOW_TIMEOUT_MS" f.timeoutMillis 5000 ms) ∧
        e.Decides "SCRIPTFLOW_MAX_PARALLEL" f.maxParallel 10 c.settings.maxParallel ∧
        c.limits = f.limits.getD .standard) ∧
      c.settings.validate = .ok () ∧
      ∀ store files, ∃ s, Service.ofSettings c.settings c.limits store files = .ok s) ∧
    ∀ text es f, Yaml.Carries text (.table es) →
      ConfigFile.codec.ofData? (ConfigFile.codec.shape.prune (.table es)) = some f →
        ConfigFile.codec.ofYaml text = .ok f ∧
        (Entries.get? "sandbox" es = none → f.limits.getD .standard = .standard) ∧
        ∀ given, Entries.get? "sandbox" es = some (.table given) →
          (f.limits.getD .standard).GivenBy given := by
  refine ⟨fun path => findFile_eq_some_iff, findFile_eq_none_iff,
    fun hclosed p hnames hlong => isIn_iff hclosed hnames hlong, exists_load_error_iff, fun c hc => ?_,
    fun text es f hcarries hf => ?_⟩
  · obtain ⟨hfile, f, hsays, htimeout, hparallel, hlimits, hvalid⟩ := load_eq_ok hc
    refine ⟨hfile, ⟨f, hsays⟩, fun g hg => ?_, hvalid, fun store files => ?_⟩
    · obtain rfl := hsays.unique hg
      exact ⟨htimeout, hparallel, hlimits⟩
    · rw [Service.ofSettings, hvalid]
      exact ⟨_, rfl⟩
  · obtain ⟨hread, hnone, hgiven⟩ := ConfigFile.limits_of_carries hcarries hf
    refine ⟨hread, fun h => ?_, fun given h => ?_⟩
    · rw [hnone h, Option.getD_none]
    · obtain ⟨l, hl, hl'⟩ := hgiven given h
      rwa [hl, Option.getD_some]

/-- The file of the directory above, which gives one limit, and an environment that gives the time. -/
theorem resolution_above :
    let text := "engine:\n  execution_timeout_ms: 20\n  max_parallel: 3\nsandbox:\n  max_call_levels: 7\n"
    let t : FileTree := ⟨[(["a"], .directory), (["a", ".scriptflow"], .directory),
      (["a", ".scriptflow", "config.yaml"], .file text), (["a", "b"], .directory)]⟩
    let e : Environment := ⟨[("SCRIPTFLOW_HOME", "/h"), ("SCRIPTFLOW_TIMEOUT_MS", " 750 "),
      ("SCRIPTFLOW_MAX_PARALLEL", "0")], none⟩
    ∃ c f, load t ["a", "b"] e = .ok c ∧ Says t ["a", "b"] f ∧ c.settings = ⟨.ofMillis 750, 3⟩ ∧
      c.limits = { callLevels := 7 } ∧ c.settings.validate = .ok () := by
  intro text t e
  obtain ⟨c, hc, hsettings, hlimits⟩ : ∃ c, (load t ["a", "b"] e).toOption = some c ∧
      c.settings = ⟨.ofMillis 750, 3⟩ ∧ c.limits = { callLevels := 7 } := by
    refine ⟨⟨"/h", some "/a/.scriptflow/config.yaml", ⟨.ofMillis 750, 3⟩, { callLevels := 7 }⟩, ?_, rfl, rfl⟩
    simp only [load, findFile, readFile, FileTree.isThereAt, FileTree.locate_eq]
    decide +kernel
  obtain ⟨-, -, -, -, hload, -⟩ := resolution t ["a", "b"] e
  obtain ⟨-, ⟨f, hsays⟩, -, hvalid, -⟩ := hload c (eq_ok_of_toOption hc)
  exact ⟨c, f, eq_ok_of_toOption hc, hsays, hsettings, hlimits, hvalid⟩

end Configuration

end PluginChain
