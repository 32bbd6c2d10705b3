import PluginChain.Command.Run
import PluginChain.Proofs.Configuration

/-!
# Where the store is

The home that a configuration names comes from the environment, the file or the user.  What the file says is
seen from the directory that the file is in, and the home of the user is where it is: both are absolute.  What
the environment says is taken as it is, and where that is relative the store is another one in every directory.

* `Configuration.isAbsolute_home_iff` says of every configuration that its home is absolute just if the
  environment does not name a relative one.
* `Store.openAt_eq_of_isAbsolute`: a home that is absolute is the same store from everywhere.
* `CommandM.openService_anywhere` puts them together for what a command does first.
-/

set_option autoImplicit false

namespace PluginChain

open Operation

/-! ## Paths -/

namespace FileTree

variable {base path : String}

theorem isAbsolute_append (h : isAbsolute base = true) (rest : String) : isAbsolute (base ++ rest) = true := by
  rw [isAbsolute_iff] at h ⊢
  rw [String.toList_append]
  exact h.trans (List.prefix_append _ _)

theorem isAbsolute_pathOf (p : Place) : isAbsolute (pathOf p) = true :=
  isAbsolute_append (by decide +kernel) _

/-- What an absolute path is continued by does not matter. -/
theorem isAbsolute_join (h : isAbsolute base = true) (path : String) : isAbsolute (join base path) = true := by
  rw [join]
  split
  · assumption
  · split
    · exact isAbsolute_append h path
    · rw [String.append_assoc]
      exact isAbsolute_append h _

theorem ofList_cons_eq (c : Char) (cs : List Char) :
    String.ofList (c :: cs) = String.ofList [c] ++ String.ofList cs := by
  rw [← String.toList_inj, String.toList_append, String.toList_ofList, String.toList_ofList,
    String.toList_ofList, List.singleton_append]

/-- What was cut at its slashes is put together with slashes. -/
theorem intercalate_cutAtSlashes (cs : List Char) :
    "/".intercalate ((cutAtSlashes cs).map String.ofList) = String.ofList cs := by
  induction cs with
  | nil => rfl
  | cons c cs ih =>
    obtain ⟨g, gs, hcut⟩ := List.exists_cons_of_ne_nil (cutAtSlashes_ne_nil cs)
    rw [hcut, List.map_cons] at ih
    rw [cutAtSlashes, hcut]
    split
    · next hc =>
      rw [List.map_cons, List.map_cons, String.intercalate_cons_cons, ih, hc, ofList_cons_eq '/' cs]
      rfl
    · rw [List.map_cons, ofList_cons_eq c g, String.intercalate_cons_append, ih, ← ofList_cons_eq]

theorem suffix_join {name : String} (hname : '/' ∉ name.toList) (base : String) :
    name.toList <:+ (join base name).toList := by
  rw [join, isAbsolute_of_not_mem hname, if_neg Bool.false_ne_true]
  split
  · rw [String.toList_append]
    exact List.suffix_append _ _
  · rw [String.toList_append]
    exact List.suffix_append _ _

theorem toList_join {name : String} (hempty : base ≠ "") (hslash : base.endsWith "/" = false)
    (hname : '/' ∉ name.toList) : (join base name).toList = base.toList ++ '/' :: name.toList := by
  have hisEmpty : base.isEmpty = false := by
    rw [Bool.eq_false_iff, Ne, String.isEmpty_iff]
    exact hempty
  rw [join, isAbsolute_of_not_mem hname, hisEmpty, hslash, if_neg Bool.false_ne_true, if_neg (by decide),
    String.toList_append, String.toList_append, List.append_assoc]
  rfl

/-- The directory of a file in a directory that is named. -/
theorem parentOf_join_join {directory name : String} (hdirectory : '/' ∉ directory.toList)
    (hempty : directory ≠ "") (hname : '/' ∉ name.toList) (base : String) :
    parentOf (join (join base directory) name) = join base directory := by
  have hsuffix := suffix_join hdirectory base
  have hnotEmpty : join base directory ≠ "" := by
    rw [Ne, ← String.toList_eq_nil_iff]
    intro hnil
    rw [hnil, List.suffix_nil, String.toList_eq_nil_iff] at hsuffix
    exact hempty hsuffix
  have hslash : (join base directory).endsWith "/" = false := by
    rw [Bool.eq_false_iff, Ne, endsWith_slash_iff]
    intro hslash
    have hpos : 1 ≤ directory.toList.length :=
      List.length_pos_iff.2 fun h => hempty (String.toList_eq_nil_iff.1 h)
    exact hdirectory ((List.suffix_of_suffix_length_le hslash hsuffix hpos).subset (List.mem_singleton_self '/'))
  rw [parentOf, steps_append_name (toList_join hnotEmpty hslash hname) hname, List.dropLast_concat, intercalate_cutAtSlashes,
    String.ofList_toList]

end FileTree

namespace Configuration

open FileTree

variable {t : FileTree} {current : Place} {e : Environment} {c : Configuration}

/-- What a file in an absolute directory says is absolute, whether or not it is there. -/
theorem isAbsolute_resolvePath {base : String} (h : isAbsolute base = true) (t : FileTree) (path : String) :
    isAbsolute (resolvePath t base path) = true := by
  rw [resolvePath]
  split
  · assumption
  · split
    · split
      · exact isAbsolute_pathOf _
      · exact isAbsolute_join h path
    · exact isAbsolute_join h path

theorem isAbsolute_parentOf_fileIn (p : Place) : isAbsolute (parentOf (fileIn (pathOf p))) = true := by
  rw [fileIn, parentOf_join_join (by decide +kernel) (by decide) (by decide +kernel)]
  exact isAbsolute_join (isAbsolute_pathOf p) _

/-- Where the home of a configuration comes from. -/
theorem resolveHome_of_load (h : load t current e = .ok c) :
    ∃ file, resolveHome t file e = .ok c.home ∧
      ∀ path f, file = some (path, f) → ∃ p, path = fileIn (pathOf p) := by
  have hresolve : ∀ {file : Option (String × ConfigFile)}, resolve t file e = .ok c →
      resolveHome t file e = .ok c.home := by
    intro file h
    rw [resolve] at h
    split at h
    · cases h
    · cases h
    · next home hhome _ =>
      cases h
      exact hhome
  rw [load] at h
  split at h
  · refine ⟨none, hresolve h, fun path f hnone => ?_⟩
    cases hnone
  · next path hfind =>
    obtain ⟨directory, -, rfl⟩ := findFile_eq_some_iff.1 hfind
    split at h
    · cases h
    · next f hread =>
      refine ⟨_, hresolve h, ?_⟩
      rintro path' f' heq
      cases heq
      exact ⟨directory, rfl⟩

/-- What the environment says is taken as it is. -/
theorem home_eq_of_get? {v : String} (h : load t current e = .ok c)
    (hv : e.get? "SCRIPTFLOW_HOME" = some v) : c.home = v := by
  obtain ⟨file, hhome, -⟩ := resolveHome_of_load h
  rw [resolveHome, hv] at hhome
  exact (Except.ok.inj hhome).symm

/-- **Only the environment can name a relative home.** -/
theorem isAbsolute_home_iff (huser : ∀ home, e.home? = some home → isAbsolute home = true)
    (h : load t current e = .ok c) :
    isAbsolute c.home = true ↔ ∀ v, e.get? "SCRIPTFLOW_HOME" = some v → isAbsolute v = true := by
  constructor
  · intro habsolute v hv
    rwa [home_eq_of_get? h hv] at habsolute
  · intro hvalue
    obtain ⟨file, hhome, hfile⟩ := resolveHome_of_load h
    rw [resolveHome] at hhome
    split at hhome
    · next v _ hv =>
      rw [← Except.ok.inj hhome]
      exact hvalue _ hv
    · next path home _ hsaid =>
      rw [← Except.ok.inj hhome]
      obtain ⟨⟨path', f⟩, hfound, hname⟩ := Option.bind_eq_some_iff.1 hsaid
      obtain ⟨home', -, heq⟩ := Option.map_eq_some_iff.1 hname
      cases heq
      obtain ⟨p, rfl⟩ := hfile path f hfound
      exact isAbsolute_resolvePath (isAbsolute_parentOf_fileIn p) t home
    · split at hhome
      · next home hhere =>
        rw [← Except.ok.inj hhome]
        exact isAbsolute_join (huser home hhere) ".scriptflow"
      · cases hhome

end Configuration

/-! ## What is opened -/

namespace Store

open FileTree

variable {home : String}

/-- **A home that is absolute is the same store from everywhere.** -/
theorem openAt_eq_of_isAbsolute (h : isAbsolute home = true) (p q : Place) : openAt p home = openAt q home := by
  have hmake : ∀ (t : FileTree) (name : String),
      t.makeDirectories p (join home name) = t.makeDirectories q (join home name) := by
    intro t name
    rw [makeDirectories, makeDirectories, isAbsolute_join h name]
    rfl
  have hlocate : ∀ t : FileTree, t.locate p (join home ".") = t.locate q (join home ".") := by
    intro t
    rw [locate, locate, isAbsolute_join h "."]
    rfl
  unfold openAt
  simp only [hmake, hlocate]

/-- A home that is a name alone is in the directory where it is opened. -/
theorem root_of_openAt {p : Place} {t t' : FileTree} {s : Store} (hname : IsName home)
    (h : openAt p home t = .ok s t') : s.root = p ++ [home] := by
  obtain ⟨-, -, -, -, -, hroot⟩ := openAt_eq_ok_iff.1 h
  have hslash : home.endsWith "/" = false := by
    rw [Bool.eq_false_iff, Ne, endsWith_slash_iff]
    exact fun hsuffix => hname.slash (hsuffix.subset (List.mem_singleton_self '/'))
  have hsteps : steps (join home ".") = [home, "."] := by
    rw [steps_append_name (toList_join hname.ne_empty hslash (by decide)) (by decide),
      cutAtSlashes_of_not_mem hname.slash, List.map_singleton, String.ofList_toList]
    rfl
  have hstart : startOf p (join home ".") = p := by
    obtain ⟨way, hway⟩ := exists_steps_join home
    rw [startOf, (hway "." (by decide)).2, isAbsolute_of_not_mem hname.slash, if_neg Bool.false_ne_true]
  have hway := way_of_locate hroot
  rw [hsteps, hstart] at hway
  obtain ⟨q, hq, hhere⟩ := way_concat (show ([home] ++ ["."]).foldlM (enter _) p = _ from hway)
  obtain ⟨q', hq', hhome⟩ := way_concat (show ([] ++ [home]).foldlM (enter _) p = _ from hq)
  cases hq'
  rw [enter_here hhere, enter_name hname hhome]

end Store

namespace CommandM

open FileTree

theorem ofExcept_situation {α : Type} (x : Except CommandError α) (s s' : Situation) :
    (ofExcept x : CommandM α) s = (ofExcept x : CommandM α) s' := by
  cases x <;> rfl

/-- Parts that do the same in two situations do the same one after the other. -/
theorem bind_situation {α β : Type} {f : CommandM α} {g : α → CommandM β} {s s' : Situation} (hf : f s = f s')
    (hg : ∀ a, g a s = g a s') : (f >>= g) s = (f >>= g) s' := by
  change (f s >>= fun a => g a s) = (f s' >>= fun a => g a s')
  rw [hf, funext hg]

/-- From every directory with the same configuration file a command starts with the same service, unless the
environment names a relative home. -/
theorem openService_anywhere {s : Situation} {c : Console} {there : Place}
    (huser : ∀ home, s.env.home? = some home → isAbsolute home = true)
    (hvalue : ∀ v, s.env.get? "SCRIPTFLOW_HOME" = some v → isAbsolute v = true)
    (hfind : Configuration.findFile c.files there = Configuration.findFile c.files s.current) :
    openService { s with current := there } c = openService s c := by
  have hload : Configuration.load c.files there s.env = Configuration.load c.files s.current s.env := by
    rw [Configuration.load, Configuration.load, hfind]
  have hread : ∀ s' : Situation, configuration s' c =
      (ofExcept ((Configuration.load c.files s'.current s'.env).mapError .config) : CommandM _) s' c :=
    fun s' => rfl
  cases hc : Configuration.load c.files s.current s.env with
  | error why =>
    have hfail : ∀ s' : Situation, Configuration.load c.files s'.current s'.env = .error why →
        openService s' c = .error (.config why) c := by
      intro s' h
      refine bind_of_error (f := configuration s') ?_ _
      rw [hread, h]
      rfl
    rw [hfail s hc, hfail _ (hload.trans hc)]
  | ok config =>
    have habsolute : isAbsolute config.home = true :=
      (Configuration.isAbsolute_home_iff huser hc).2 hvalue
    have hopen : openStore config.home { s with current := there } = openStore config.home s := by
      funext c
      rw [openStore, openStore, Store.openAt_eq_of_isAbsolute habsolute there s.current]
    have hgo : ∀ s' : Situation, Configuration.load c.files s'.current s'.env = .ok config →
        configuration s' c = .ok config c := by
      intro s' h
      rw [hread, h]
      rfl
    refine (bind_of_ok (hgo { s with current := there } (hload.trans hc)) _).trans
      (Eq.trans ?_ (bind_of_ok (hgo s hc) _).symm)
    -- what comes behind this does not ask where the command is
    refine congrFun (bind_situation (f := openStore config.home) hopen fun store =>
      bind_situation rfl fun console => bind_situation (ofExcept_situation _ _ _) fun service => ?_) c
    refine bind_situation (f := perform (Service.load s.now) service) rfl fun result => ?_
    obtain ⟨report, service⟩ := result
    dsimp only
    split <;> rfl

end CommandM

namespace Configuration

open FileTree

variable {t : FileTree} {current : Place} {e : Environment}

/-- **Which home is the same from everywhere.**  Of a configuration the home is absolute, but for one that the
environment names by a relative path: that is the home as it stands, and one that is a name alone is another
store in every directory.  Where the same file is found the configuration is the same, and where its home is
absolute a command starts with the same service. -/
theorem home_from_anywhere (t : FileTree) (current : Place) (e : Environment)
    (huser : ∀ home, e.home? = some home → isAbsolute home = true) :
    (∀ c, load t current e = .ok c →
      (isAbsolute c.home = true ↔ ∀ v, e.get? "SCRIPTFLOW_HOME" = some v → isAbsolute v = true) ∧
      ∀ v, e.get? "SCRIPTFLOW_HOME" = some v → c.home = v ∧
        (IsName v → ∀ p files store files', Store.openAt p v files = .ok store files' →
          store.root = p ++ [v])) ∧
    ∀ there, findFile t there = findFile t current →
      load t there e = load t current e ∧
      ((∀ v, e.get? "SCRIPTFLOW_HOME" = some v → isAbsolute v = true) →
        ∀ (s : Situation) (console : Console), s.env = e → s.current = current → console.files = t →
          CommandM.openService { s with current := there } console = CommandM.openService s console) := by
  refine ⟨fun c hload => ⟨isAbsolute_home_iff huser hload, fun v hv => ⟨home_eq_of_get? hload hv, ?_⟩⟩,
    fun there hfind => ⟨?_, ?_⟩⟩
  · intro hname p files store files' hopen
    exact Store.root_of_openAt hname hopen
  · rw [load, load, hfind]
  · rintro hvalue s console rfl rfl rfl
    exact CommandM.openService_anywhere huser hvalue hfind

/-- A home that the environment names by a relative path, from two directories with the same configuration
file.  There are two stores. -/
theorem home_from_anywhere_relative :
    let t : FileTree := ⟨[(["a"], .directory), (["b"], .directory), ([".scriptflow"], .directory),
      ([".scriptflow", "config.yaml"], .file "home: data\n")]⟩
    let e : Environment := ⟨[("SCRIPTFLOW_HOME", "store"), ("HOME", "/u")], none⟩
    ∃ c, load t ["a"] e = .ok c ∧ load t ["b"] e = .ok c ∧ isAbsolute c.home = false ∧
      (∃ s t', Store.openAt ["a"] c.home t = .ok s t' ∧ s.root = ["a", "store"]) ∧
      ∃ s t', Store.openAt ["b"] c.home t = .ok s t' ∧ s.root = ["b", "store"] := by
  intro t e
  obtain ⟨c, hload⟩ : ∃ c, (load t ["a"] e).toOption = some c := by
    refine ⟨⟨"store", some "/.scriptflow/config.yaml", ⟨.ofMillis 5000, 10⟩, .standard⟩, ?_⟩
    simp only [load, findFile, readFile, FileTree.isThereAt, FileTree.locate_eq]
    decide +kernel
  replace hload := eq_ok_of_toOption hload
  have huser : ∀ home, e.home? = some home → isAbsolute home = true := by
    intro home hhome
    cases hhome
    decide +kernel
  have hfind : findFile t ["b"] = findFile t ["a"] := by
    simp only [findFile, FileTree.isThereAt, FileTree.locate_eq]
    decide +kernel
  obtain ⟨hhome, hthere⟩ := home_from_anywhere t ["a"] e huser
  obtain ⟨habsolute, hvalue⟩ := hhome c hload
  obtain ⟨hname, hroot⟩ := hvalue "store" (by decide)
  have hmake : ∀ {t t' : FileTree} {p : Place} {name : String}, '\x00' ∉ (join "store" name).toList →
      steps (join "store" name) = ["store", name] → isAbsolute (join "store" name) = false →
      ["store", name].foldlM makeStep (t, p) = .ok (t', p ++ ["store", name]) →
      t'.lookup (p ++ ["store", name]) = some .directory → t.makeDirectories p (join "store" name) = .ok t' := by
    intro t t' p name hnul hsteps hrelative hwalk hp
    refine makeDirectories_eq_ok_iff.2 ⟨?_, p ++ ["store", name], ?_, hp⟩
    · rw [any_nul_eq, List.any_eq_false]
      exact fun c hc => by simpa using fun heq : c = '\x00' => hnul (heq ▸ hc)
    · rw [hsteps, startOf, hrelative]
      exact hwalk
  have hopens : ∀ p ∈ [["a"], ["b"]], ∃ s t', Store.openAt p c.home t = .ok s t' := by
    rw [hname]
    intro p hp
    refine ⟨⟨p ++ ["store"]⟩, ?_⟩
    rcases List.mem_pair.1 hp with rfl | rfl <;>
    exact ⟨_, Store.openAt_eq_ok_iff.2 ⟨_, _,
      hmake (by decide +kernel) (by decide +kernel) (by decide +kernel) rfl rfl,
      hmake (by decide +kernel) (by decide +kernel) (by decide +kernel) rfl rfl,
      hmake (by decide +kernel) (by decide +kernel) (by decide +kernel) rfl rfl,
      by rw [FileTree.locate_eq]; decide +kernel⟩⟩
  have hstore : ∀ p ∈ [["a"], ["b"]], ∃ s t', Store.openAt p c.home t = .ok s t' ∧ s.root = p ++ ["store"] := by
    intro p hp
    obtain ⟨s, t', hopen⟩ := hopens p hp
    exact ⟨s, t', hopen, hroot (by decide) p t s t' (hname ▸ hopen)⟩
  refine ⟨c, hload, (hthere ["b"] hfind).1.trans hload, ?_, hstore ["a"] (by decide), hstore ["b"] (by decide)⟩
  rw [hname]
  decide +kernel

end Configuration

end PluginChain
