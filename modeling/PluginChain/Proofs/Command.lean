import PluginChain.Command.Run
import PluginChain.Proofs.Configuration
import PluginChain.Proofs.Service.Spared

/-!
# What a command does to the records

A command reads what it was given, opens the store, carries an operation of the service out and prints what
came of it; in which order it reads and opens depends on the command.  Its parts are told apart by what they
leave: one `Looks` and changes nothing at all, one `Prints`, one keeps all records whatever it comes to
(`Spares`) or at least where it fails (`SparesFailing`).  Behind an operation that changes a record a command
only prints, and that is why it leaves all records as they were if it fails, at whatever point.

* `Command.Asks.spares_run`: a command that only asks for something changes no record, and
  `Command.sparesFailing_run`: neither does any other one that fails.
* `Command.run_upload_eq_ok`, `Command.run_task_eq_ok` and `Command.run_process_eq_ok`: one that is about a job
  and succeeds has written this job and no other record.
* `Request.records_after`: the same for the arguments of the program and its exit code.
-/

set_option autoImplicit false

namespace PluginChain

open Operation

/-- The store that is opened in a situation is in the home that the configuration names. -/
def Situation.Opens (s : Situation) (files : FileTree) (store : Store) : Prop :=
  ∃ config opened, Configuration.load files s.current s.env = .ok config ∧
    Store.openAt s.current config.home files = .ok store opened

/-- No file is named for the id that a new job will get. -/
def Situation.IsJobNew (s : Situation) (files : FileTree) : Prop :=
  ∀ directory, files.lookup (directory ++ [s.jobId.toText ++ ".json"]) = none

namespace CommandM

variable {α β : Type}

/-! ## Kinds of parts -/

/-- Between the two, no record is another. -/
def Spared (c c' : Console) : Prop := RecordsKept [] c.files c'.files

theorem Spared.refl (c : Console) : Spared c c := RecordsKept.refl [] c.files

theorem Spared.trans {c c' c'' : Console} (h : Spared c c') (h' : Spared c' c'') : Spared c c'' :=
  RecordsKept.trans h h'

/-- Whatever this comes to, all records are kept. -/
def Spares (f : CommandM α) : Prop := ∀ s, Keeps Spared (f s)

/-- Where this fails, all records are kept. -/
def SparesFailing (f : CommandM α) : Prop := ∀ s, KeepsFailing Spared (f s)

/-- This only prints. -/
def Prints (f : CommandM α) : Prop := ∀ s c, ∃ a out err, f s c = .ok a { c with out, err }

theorem Spares.bind {f : CommandM α} {g : α → CommandM β} (hf : Spares f) (hg : ∀ a, Spares (g a)) :
    Spares (f >>= g) := fun s => (hf s).bind (fun _ _ _ => .trans) fun a => hg a s

theorem Spares.failing {f : CommandM α} (h : Spares f) : SparesFailing f := fun s => (h s).failing

theorem SparesFailing.bind {f : CommandM α} {g : α → CommandM β} (hf : Spares f)
    (hg : ∀ a, SparesFailing (g a)) : SparesFailing (f >>= g) :=
  fun s => KeepsFailing.bind (fun _ _ _ => .trans) (hf s) fun a => hg a s

theorem SparesFailing.bind_prints {f : CommandM α} {g : α → CommandM β} (hf : SparesFailing f)
    (hg : ∀ a, Prints (g a)) : SparesFailing (f >>= g) := fun s =>
  (hf s).bind_succeeds fun a c => by
    obtain ⟨b, out, err, h⟩ := hg a s c
    exact ⟨b, _, h⟩

theorem Prints.spares {f : CommandM α} (h : Prints f) : Spares f := by
  intro s c
  obtain ⟨a, out, err, hok⟩ := h s c
  rw [hok]
  exact .refl c

theorem Prints.bind {f : CommandM α} {g : α → CommandM β} (hf : Prints f) (hg : ∀ a, Prints (g a)) :
    Prints (f >>= g) := by
  intro s c
  obtain ⟨a, out, err, h⟩ := hf s c
  obtain ⟨b, out', err', h'⟩ := hg a s { c with out, err }
  exact ⟨b, out', err', (bind_of_ok h _).trans h'⟩

theorem prints_pure (a : α) : Prints (pure a) := fun _ c => ⟨a, c.out, c.err, rfl⟩

theorem prints_print (line : String) : Prints (print line) := fun _ c => ⟨(), c.out ++ line ++ "\n", c.err, rfl⟩

theorem prints_tell (line : String) : Prints (tell line) := fun _ c => ⟨(), c.out, c.err ++ line ++ "\n", rfl⟩

theorem prints_printData (d : Data) : Prints (printData d) := prints_print _

theorem prints_forM {f : α → CommandM Unit} (h : ∀ a, Prints (f a)) (as : List α) : Prints (as.forM f) := by
  induction as with
  | nil => exact prints_pure ()
  | cons a as ih => exact (h a).bind fun _ => ih

/-- This leaves the console as it is. -/
def Looks (f : CommandM α) : Prop := ∀ s, LooksOnly (f s)

theorem Looks.bind {f : CommandM α} {g : α → CommandM β} (hf : Looks f) (hg : ∀ a, Looks (g a)) :
    Looks (f >>= g) := fun s => (hf s).bind fun a => hg a s

theorem Looks.spares {f : CommandM α} (h : Looks f) : Spares f := fun s => (h s).keeps .refl

theorem looks_pure (a : α) : Looks (pure a) := fun _ => looksOnly_pure a

theorem looks_read : Looks (read : CommandM Situation) := fun _ _ => rfl

theorem looks_get : Looks (get : CommandM Console) := fun _ _ => rfl

theorem looks_ofExcept (x : Except CommandError α) : Looks (ofExcept x : CommandM α) := by
  intro s c
  cases x <;> rfl

/-! ## Input -/

theorem looks_readFile (use : FileUse) (path : String) : Looks (readFile use path) :=
  looks_get.bind fun _ => looks_read.bind fun _ => looks_ofExcept _

theorem looks_ofJson (c : Codec α) (text : String) (wrap : Json.Fault → CommandError) :
    Looks (ofJson c text wrap) := looks_ofExcept _

theorem looks_jobId (given : String) : Looks (jobId given) := looks_ofExcept _

theorem looks_readInput (file : Option String) : Looks (readInput file) := by
  have hrest : ∀ text, Looks (do
      if (Text.nonBlank? text).isNone then throw CommandError.emptyInput
      ofJson Codec.data text .badInput) := by
    intro text
    split
    · exact fun _ _ => rfl
    · exact looks_ofJson _ _ _
  cases file with
  | some path => exact (looks_readFile _ _).bind hrest
  | none => exact looks_read.bind fun s => (looks_ofExcept _).bind hrest

/-- What is given along with a task comes from a file or is left out. -/
theorem looks_given (input : Option String) : Looks (input.mapM fun path => readInput (some path)) := by
  cases input with
  | none => exact looks_pure _
  | some path => exact (looks_readInput _).bind fun _ => looks_pure _

theorem looks_configuration : Looks configuration :=
  looks_read.bind fun _ => looks_get.bind fun _ => looks_ofExcept _

/-! ## Services -/

theorem spares_openStore (home : String) : Spares (openStore home) := by
  intro s c
  have hopen := Store.spares_openAt s.current home c.files
  rw [openStore]
  cases h : Store.openAt s.current home c.files <;> rwa [h] at hopen

theorem spares_perform {act : ServiceM α} (h : Service.Spares act) (service : Service) :
    Spares (perform act service) := by
  intro s c
  have hact := h { service with files := c.files }
  rw [perform]
  cases h : act { service with files := c.files } <;> rwa [h] at hact

theorem sparesFailing_perform {act : ServiceM α} (h : Service.SparesFailing act) (service : Service) :
    SparesFailing (perform act service) := by
  intro s c e c' herror
  rw [perform] at herror
  cases hact : act { service with files := c.files } with
  | ok a s₁ =>
    rw [hact] at herror
    cases herror
  | error e s₁ =>
    rw [hact] at herror
    cases herror
    exact h _ _ _ hact

/-- To open a service makes directories at most. -/
theorem spares_openService : Spares openService := by
  refine looks_configuration.spares.bind fun config => (spares_openStore _).bind fun store =>
    looks_get.spares.bind fun _ => (looks_ofExcept _).spares.bind fun s => looks_read.spares.bind fun _ =>
    (spares_perform ((Service.keeps_load _).mono fun _ _ => Service.SameFiles.spared) s).bind fun x => ?_
  obtain ⟨report, s⟩ := x
  dsimp only
  split
  · exact (prints_tell _).spares.bind fun _ => (prints_pure s).spares
  · exact (prints_pure s).spares

theorem spares_withService {act : ServiceM α} (h : Service.Spares act) : Spares (withService act) :=
  spares_openService.bind fun s => (spares_perform h s).bind fun _ => (prints_pure _).spares

theorem sparesFailing_withService {act : ServiceM α} (h : Service.SparesFailing act) :
    SparesFailing (withService act) :=
  .bind spares_openService fun s => (sparesFailing_perform h s).bind_prints fun _ => prints_pure _

/-! ## What succeeds -/

variable {s : Situation} {c c' c'' : Console}

theorem bind_eq_ok {f : CommandM α} {g : α → CommandM β} {b : β} (h : (f >>= g) s c = .ok b c'') :
    ∃ a c', f s c = .ok a c' ∧ g a s c' = .ok b c'' := Operation.bind_eq_ok h

theorem Looks.bind_eq_ok {f : CommandM α} (hf : Looks f) {g : α → CommandM β} {b : β}
    (h : (f >>= g) s c = .ok b c') : ∃ a, f s c = .ok a c ∧ g a s c = .ok b c' := by
  obtain ⟨a, c₁, hfirst, hrest⟩ := CommandM.bind_eq_ok h
  obtain rfl := (hf s).ok hfirst
  exact ⟨a, hfirst, hrest⟩

theorem perform_eq_ok {act : ServiceM α} {service : Service} {x : α × Service}
    (h : perform act service s c = .ok x c') :
    act { service with files := c.files } = .ok x.1 x.2 ∧ c' = { c with files := x.2.files } := by
  rw [perform] at h
  cases hact : act { service with files := c.files } with
  | ok a service' =>
    rw [hact] at h
    cases h
    exact ⟨rfl, rfl⟩
  | error e service' =>
    rw [hact] at h
    cases h

theorem ofExcept_mapError_eq_ok {ε : Type} {x : Except ε α} {wrap : ε → CommandError} {a : α}
    (h : (ofExcept (x.mapError wrap) : CommandM α) s c = .ok a c') : x = .ok a := by
  cases x with
  | ok b =>
    cases h
    rfl
  | error e => cases h

theorem configuration_eq_ok {config : Configuration} (h : configuration s c = .ok config c') :
    Configuration.load c.files s.current s.env = .ok config := by
  rw [configuration] at h
  obtain ⟨_, hread, h⟩ := looks_read.bind_eq_ok h
  cases hread
  obtain ⟨_, hget, h⟩ := looks_get.bind_eq_ok h
  cases hget
  exact ofExcept_mapError_eq_ok h

theorem openStore_eq_ok {home : String} {store : Store} (h : openStore home s c = .ok store c') :
    ∃ files, Store.openAt s.current home c.files = .ok store files ∧ c' = { c with files } := by
  rw [openStore] at h
  split at h
  · next hopen =>
    cases h
    exact ⟨_, hopen, rfl⟩
  · cases h

/-- A service that was opened is on the store of the configuration, and nothing was printed. -/
theorem openService_eq_ok {service : Service} (h : openService s c = .ok service c') :
    s.Opens c.files service.store ∧ RecordsKept [] c.files c'.files ∧ c'.out = c.out := by
  have hkept := (spares_openService s).ok h
  rw [openService] at h
  obtain ⟨config, hconfig, h⟩ := looks_configuration.bind_eq_ok h
  obtain ⟨store, _, hmade, h⟩ := bind_eq_ok h
  obtain ⟨opened, hopen, rfl⟩ := openStore_eq_ok hmade
  obtain ⟨_, hget, h⟩ := looks_get.bind_eq_ok h
  cases hget
  obtain ⟨started, hstarted, h⟩ := (looks_ofExcept _).bind_eq_ok h
  obtain ⟨_, hread, h⟩ := looks_read.bind_eq_ok h
  cases hread
  obtain ⟨⟨report, loaded⟩, c₁, hload, h⟩ := bind_eq_ok h
  obtain ⟨hact, rfl⟩ := perform_eq_ok hload
  have hstarted : started.store = store := by
    have hsettings := ofExcept_mapError_eq_ok hstarted
    rw [Service.ofSettings] at hsettings
    cases hvalid : config.settings.validate with
    | error e =>
      rw [hvalid] at hsettings
      cases hsettings
    | ok u =>
      rw [hvalid] at hsettings
      cases hsettings
      rfl
  have hstore : loaded.store = store := ((Service.keeps_load s.now).ok hact).1.trans hstarted
  suffices hend : service = loaded ∧ c'.out = c.out by
    rw [hend.1, hstore]
    exact ⟨⟨config, opened, configuration_eq_ok hconfig, hopen⟩, hkept, hend.2⟩
  dsimp only at h
  split at h
  · obtain ⟨_, _, htell, h⟩ := bind_eq_ok h
    cases htell
    cases h
    exact ⟨rfl, rfl⟩
  · cases h
    exact ⟨rfl, rfl⟩

/-- An operation that succeeds on a service of its own. -/
theorem withService_eq_ok {act : ServiceM α} {a : α} (h : withService act s c = .ok a c') :
    ∃ service service' : Service, s.Opens c.files service.store ∧ RecordsKept [] c.files service.files ∧
      act service = .ok a service' ∧ c'.files = service'.files ∧ c'.out = c.out := by
  rw [withService] at h
  obtain ⟨service, c₁, hopen, h⟩ := bind_eq_ok h
  obtain ⟨hstore, hkept, hout⟩ := openService_eq_ok hopen
  obtain ⟨⟨b, service'⟩, c₂, hperform, h⟩ := bind_eq_ok h
  obtain ⟨hact, rfl⟩ := perform_eq_ok hperform
  cases h
  exact ⟨{ service with files := c₁.files }, service', hstore, hkept, hact, rfl, hout⟩

end CommandM

namespace Command

open CommandM

/-- The command only asks for something. -/
inductive Asks : Command → Prop
  | listPlugins : Asks .listPlugins
  | showPlugin (name : String) : Asks (.showPlugin name)
  | executePlugin (name : String) (file data : Option String) (params : String) :
      Asks (.executePlugin name file data params)
  | jobs (most : Nat) : Asks (.jobs most)
  | job (id : String) : Asks (.job id)
  | config : Asks .config

/-- **A command that only asks** changes no record, whether it fails or not. -/
theorem Asks.spares_run {c : Command} (h : c.Asks) : Spares c.run := by
  cases h with
  | listPlugins =>
    have hlines : ∀ plugins : List PluginInfo, Prints (plugins.forM fun p => print (pluginLine p)) :=
      prints_forM fun _ => prints_print _
    refine .bind (spares_withService Service.spares_listPlugins) fun plugins => Prints.spares ?_
    dsimp only
    split
    · exact (prints_print _).bind fun _ => hlines plugins
    · exact hlines plugins
  | showPlugin name =>
    exact .bind (spares_withService (Service.spares_pluginSource name)) fun _ => (prints_print _).spares
  | executePlugin name file data params =>
    refine .bind spares_openService fun s => ?_
    have hrest : ∀ input, Spares (do
        let params ← ofJson Codec.data params (.badOption "--params")
        printData (← perform (Service.execute name input params) s).1) := fun input =>
      (looks_ofJson _ _ _).spares.bind fun _ => (spares_perform (Service.spares_execute _ _ _) s).bind fun _ =>
        (prints_printData _).spares
    cases data with
    | some text => exact (looks_ofJson _ _ _).spares.bind hrest
    | none => exact (looks_readInput file).spares.bind hrest
  | jobs most =>
    refine .bind (spares_withService Service.spares_listJobs) fun all => Prints.spares ?_
    split
    · exact prints_print _
    · exact (prints_print _).bind fun _ => prints_forM (fun _ => prints_print _) _
  | job given =>
    exact .bind (looks_jobId given).spares fun id => (spares_withService (Service.spares_getJob id)).bind fun _ =>
      (prints_printData _).spares
  | config => exact .bind looks_configuration.spares fun _ => (prints_forM prints_print _).spares

/-- **A command that fails** has changed no record.  What stands behind a change only prints. -/
theorem sparesFailing_run (c : Command) : SparesFailing c.run := by
  cases c with
  | addPlugin name file description =>
    refine .bind spares_openService fun s => .bind (looks_readFile _ _).spares fun source =>
      .bind looks_read.spares fun _ => ?_
    exact (sparesFailing_perform (Service.sparesFailing_register _ _ _ _) s).bind_prints fun _ => prints_tell _
  | removePlugin name =>
    exact (sparesFailing_withService (Service.sparesFailing_remove name)).bind_prints fun _ => prints_tell _
  | upload file =>
    refine .bind spares_openService fun s => .bind (looks_readInput file).spares fun input =>
      .bind looks_read.spares fun _ => ?_
    exact (sparesFailing_perform (Service.sparesFailing_upload _ _ _) s).bind_prints fun _ =>
      (prints_print _).bind fun _ => prints_tell _
  | process given plugins =>
    refine .bind (looks_jobId given).spares fun id => .bind (looks_ofJson _ _ _).spares fun calls =>
      .bind looks_read.spares fun _ => ?_
    exact (sparesFailing_withService (Service.sparesFailing_process _ _ _)).bind_prints fun _ =>
      (prints_printData _).bind fun _ => prints_tell _
  | task file input =>
    refine .bind (looks_readFile _ _).spares fun text => .bind (looks_ofExcept _).spares fun parsed =>
      .bind (looks_given input).spares fun given => .bind looks_read.spares fun s => ?_
    exact (sparesFailing_withService (Service.sparesFailing_submit _ _ _ _ _)).bind_prints fun _ =>
      (prints_printData _).bind fun _ => (prints_tell _).bind fun _ => prints_tell _
  | listPlugins => exact Asks.listPlugins.spares_run.failing
  | showPlugin name => exact (Asks.showPlugin name).spares_run.failing
  | executePlugin name file data params => exact (Asks.executePlugin name file data params).spares_run.failing
  | jobs most => exact (Asks.jobs most).spares_run.failing
  | job id => exact (Asks.job id).spares_run.failing
  | config => exact Asks.config.spares_run.failing

/-! ## Commands about a job -/

variable {s : Situation} {c c' : Console}

/-- An upload writes the job whose id it prints. -/
theorem run_upload_eq_ok {file : Option String} (h : (upload file).run s c = .ok () c') :
    ∃ store input, s.Opens c.files store ∧ c'.out = c.out ++ s.jobId.toText ++ "\n" ∧
      store.JobWritten s.jobId (.uploaded s.jobId s.now input) c.files c'.files := by
  rw [run] at h
  obtain ⟨service, c₁, hopen, h⟩ := CommandM.bind_eq_ok h
  obtain ⟨hstore, hkept, hout⟩ := openService_eq_ok hopen
  obtain ⟨input, -, h⟩ := (looks_readInput file).bind_eq_ok h
  obtain ⟨_, hread, h⟩ := looks_read.bind_eq_ok h
  cases hread
  obtain ⟨⟨job, service'⟩, _, hupload, h⟩ := CommandM.bind_eq_ok h
  obtain ⟨hact, rfl⟩ := perform_eq_ok hupload
  obtain ⟨rfl, hwritten⟩ := Service.jobWritten_upload hact
  cases h
  refine ⟨service.store, input, hstore, ?_, .behind hkept hwritten⟩
  change c₁.out ++ s.jobId.toText ++ "\n" = _
  rw [hout]

/-- A task that is run is kept as the job whose id is told. -/
theorem run_task_eq_ok {file : String} {input : Option String} (h : (task file input).run s c = .ok () c') :
    ∃ (store : Store) (parsed : Task) (given : Data) (report : Report), s.Opens c.files store ∧
      c'.out = c.out ++ Json.pretty (Results.codec.encode report.results) ++ "\n" ∧
      (∃ before, c'.err = before ++ s!"[Job {s.jobId.toText}]" ++ "\n" ++ statusLine report.status ++ "\n") ∧
      store.JobWritten s.jobId (Service.jobOf s.now s.jobId parsed given report) c.files c'.files := by
  rw [run] at h
  obtain ⟨text, -, h⟩ := (looks_readFile _ _).bind_eq_ok h
  obtain ⟨parsed, -, h⟩ := (looks_ofExcept _).bind_eq_ok h
  obtain ⟨explicit, -, h⟩ := (looks_given input).bind_eq_ok h
  obtain ⟨_, hread, h⟩ := looks_read.bind_eq_ok h
  cases hread
  obtain ⟨⟨jobId, report⟩, c₁, hsubmit, h⟩ := CommandM.bind_eq_ok h
  obtain ⟨service, service', hstore, hkept, hact, hfiles, hout⟩ := withService_eq_ok hsubmit
  obtain ⟨hid, given, hwritten⟩ := Service.jobWritten_submit hact
  obtain rfl : jobId = s.jobId := hid
  cases h
  refine ⟨service.store, parsed, given, report, hstore, ?_, ⟨c₁.err, rfl⟩, ?_⟩
  · rw [← hout]
  · rw [← hfiles] at hwritten
    exact .behind hkept hwritten

/-- Calls of plugins on a job are entered into the job whose id was given. -/
theorem run_process_eq_ok {given plugins : String} (h : (process given plugins).run s c = .ok () c') :
    ∃ (store : Store) (id : Uuid) (job : Job) (report : Report), s.Opens c.files store ∧
      Uuid.parse (Text.trim given) = .ok id ∧
      c'.out = c.out ++ Json.pretty (Results.codec.encode report.results) ++ "\n" ∧
      StoreM.recordAt? Job.codec c.files (store.jobFile id) = some job ∧
      store.JobWritten id (job.applyResults s.now report.results report.status) c.files c'.files := by
  rw [run] at h
  obtain ⟨id, hid, h⟩ := (looks_jobId given).bind_eq_ok h
  obtain ⟨calls, -, h⟩ := (looks_ofJson _ _ _).bind_eq_ok h
  obtain ⟨_, hread, h⟩ := looks_read.bind_eq_ok h
  cases hread
  obtain ⟨report, c₁, hprocess, h⟩ := CommandM.bind_eq_ok h
  obtain ⟨service, service', hstore, hkept, hact, hfiles, hout⟩ := withService_eq_ok hprocess
  obtain ⟨job, hjob, hwritten⟩ := Service.jobWritten_process hact
  cases h
  refine ⟨service.store, id, job, report, hstore, ofExcept_mapError_eq_ok hid, ?_, ?_, ?_⟩
  · rw [← hout]
  · rw [← hjob]
    exact (hkept.recordAt?_eq (Store.suffix?_jobName id) (List.not_mem_nil)).symm
  · rw [← hfiles] at hwritten
    exact .behind hkept hwritten

end Command

namespace Request

variable {c : Command} {s : Situation} {files : FileTree}

theorem perform_of_ok {console : Console} (h : c.run s { files } = .ok () console) :
    (run c).perform s files = ⟨console, 0⟩ := by
  rw [perform, h]

theorem perform_of_error {e : CommandError} {console : Console} (h : c.run s { files } = .error e console) :
    (run c).perform s files = ⟨{ console with err := console.err ++ e.report }, 1⟩ := by
  rw [perform, h]

/-- The exit code tells whether a command succeeded. -/
theorem perform_code_eq_zero_iff :
    ((run c).perform s files).code = 0 ↔ ∃ console, c.run s { files } = .ok () console := by
  cases hrun : c.run s { files } with
  | ok u console =>
    rw [perform_of_ok hrun]
    exact ⟨fun _ => ⟨console, rfl⟩, fun _ => rfl⟩
  | error e console =>
    rw [perform_of_error hrun]
    exact ⟨nofun, nofun⟩

/-- What fails has changed no record, and neither have requests that run no command. -/
theorem recordsKept_of_code_ne_zero (r : Request) (h : (r.perform s files).code ≠ 0) :
    RecordsKept [] files (r.perform s files).console.files := by
  cases r with
  | version => exact .refl [] files
  | help => exact .refl [] files
  | misuse => exact .refl [] files
  | run c =>
    cases hrun : c.run s { files } with
    | ok u console => exact absurd (perform_code_eq_zero_iff.2 ⟨console, hrun⟩) h
    | error e console =>
      rw [perform_of_error hrun]
      exact c.sparesFailing_run s _ _ _ hrun

/-- **A request that fails leaves the records as they are**: every file that is named like a record is what it
was, whatever the arguments and the files are and wherever the request fails.  An upload, a task and calls of
plugins on a job that succeed have written one job in the store of the configuration, and no other record.
It is the job whose id is printed, which is added if its id is new, or the one whose id was given, which was
there before. -/
theorem records_after (args : List String) (s : Situation) (files : FileTree) :
    let done := (ofArguments args).perform s files
    (done.code ≠ 0 → RecordsKept [] files done.console.files) ∧
    (done.code = 0 →
      (∀ file, ofArguments args = .run (.upload file) →
        ∃ store input, s.Opens files store ∧ done.console.out = s.jobId.toText ++ "\n" ∧
          (s.IsJobNew files → files.lookup (store.jobFile s.jobId) = none) ∧
          store.JobWritten s.jobId (.uploaded s.jobId s.now input) files done.console.files) ∧
      (∀ file input, ofArguments args = .run (.task file input) →
        ∃ (store : Store) (task : Task) (given : Data) (report : Report), s.Opens files store ∧
          (∃ before, done.console.err =
            before ++ s!"[Job {s.jobId.toText}]" ++ "\n" ++ CommandM.statusLine report.status ++ "\n") ∧
          (s.IsJobNew files → files.lookup (store.jobFile s.jobId) = none) ∧
          store.JobWritten s.jobId (Service.jobOf s.now s.jobId task given report) files done.console.files) ∧
      (∀ given plugins, ofArguments args = .run (.process given plugins) →
        ∃ (store : Store) (id : Uuid) (job : Job) (report : Report), s.Opens files store ∧
          Uuid.parse (Text.trim given) = .ok id ∧
          StoreM.recordAt? Job.codec files (store.jobFile id) = some job ∧
          store.JobWritten id (job.applyResults s.now report.results report.status) files
            done.console.files)) := by
  intro done
  refine ⟨recordsKept_of_code_ne_zero _, fun hcode => ⟨fun file hr => ?_, fun file input hr => ?_,
    fun given plugins hr => ?_⟩⟩
  · simp only [done, hr] at hcode ⊢
    obtain ⟨console, hrun⟩ := perform_code_eq_zero_iff.1 hcode
    obtain ⟨store, input, hstore, hout, hwritten⟩ := Command.run_upload_eq_ok hrun
    rw [String.empty_append] at hout
    rw [perform_of_ok hrun]
    exact ⟨store, input, hstore, hout, fun hnew => hnew store.jobs, hwritten⟩
  · simp only [done, hr] at hcode ⊢
    obtain ⟨console, hrun⟩ := perform_code_eq_zero_iff.1 hcode
    obtain ⟨store, task, given, report, hstore, -, herr, hwritten⟩ := Command.run_task_eq_ok hrun
    rw [perform_of_ok hrun]
    exact ⟨store, task, given, report, hstore, herr, fun hnew => hnew store.jobs, hwritten⟩
  · simp only [done, hr] at hcode ⊢
    obtain ⟨console, hrun⟩ := perform_code_eq_zero_iff.1 hcode
    obtain ⟨store, id, job, report, hstore, hid, -, hjob, hwritten⟩ := Command.run_process_eq_ok hrun
    rw [perform_of_ok hrun]
    exact ⟨store, id, job, report, hstore, hid, hjob, hwritten⟩

/-- A command that fails and three that succeed, on a store with one job in it. -/
theorem records_after_commands :
    let s : Situation := {
      current := [], env := ⟨[("SCRIPTFLOW_HOME", "/")], none⟩, stdin := .ok "1", now := ⟨0, 0⟩
      taskId := ⟨1⟩, jobId := ⟨2⟩ }
    let id := "00000000-0000-0000-0000-000000000003"
    let job := "\x7b\"id\":\"00000000000000000000000000000003\",\"name\":\"\",\"input_data\":0," ++
      "\"status\":\"uploaded\",\"created_at\":\"1970-01-01T00:00:00Z\",\"updated_at\":\"1970-01-01T00:00:00Z\"\x7d"
    let files : FileTree := ⟨[
      (["t.json"], .file "\x7b\"name\":\"t\",\"steps\":[\x7b\"plugin\":\"p\"\x7d]\x7d"),
      (["jobs"], .directory),
      (["jobs", "00000000-0000-0000-0000-000000000003.json"], .file job)]⟩
    let after (args : List String) := ((ofArguments args).perform s files).console.files
    RecordsKept [] files (after ["job", "x"]) ∧
      (∃ (store : Store) (input : Data), files.lookup (store.jobFile ⟨2⟩) = none ∧
        store.JobWritten ⟨2⟩ (.uploaded ⟨2⟩ ⟨0, 0⟩ input) files (after ["upload"])) ∧
      (∃ (store : Store) (task : Task) (given : Data) (report : Report),
        files.lookup (store.jobFile ⟨2⟩) = none ∧
        store.JobWritten ⟨2⟩ (Service.jobOf ⟨0, 0⟩ ⟨2⟩ task given report) files (after ["task", "/t.json"])) ∧
      ∃ (store : Store) (other : Uuid) (old : Job) (report : Report),
        Uuid.parse (Text.trim id) = .ok other ∧
        StoreM.recordAt? Job.codec files (store.jobFile other) = some old ∧
        store.JobWritten other (old.applyResults ⟨0, 0⟩ report.results report.status) files
          (after ["process", id, "--plugins", "[]"]) := by
  intro s id job files after
  have hfails : ofArguments ["job", "x"] = .run (.job "x") := by decide +kernel
  have hupload : ofArguments ["upload"] = .run (.upload none) := by decide +kernel
  have htask : ofArguments ["task", "/t.json"] = .run (.task "/t.json" none) := by decide +kernel
  have hprocess : ofArguments ["process", id, "--plugins", "[]"] = .run (.process id "[]") := by decide +kernel
  have hcodes : ((ofArguments ["job", "x"]).perform s files).code ≠ 0 ∧
      ((ofArguments ["upload"]).perform s files).code = 0 ∧
      ((ofArguments ["task", "/t.json"]).perform s files).code = 0 ∧
      ((ofArguments ["process", id, "--plugins", "[]"]).perform s files).code = 0 := by
    rw [hfails, hupload, htask, hprocess]
    -- What a path has in it is looked for in its list of characters, so that this can be evaluated.
    simp only [perform, Command.run, CommandM.withService, CommandM.openService, CommandM.configuration,
      CommandM.readFile, Configuration.load, Configuration.findFile, Configuration.readFile,
      FileTree.isThereAt, FileTree.locate_eq]
    delta CommandM.openStore
    simp only [Store.openAt, FileTree.makeDirectories, FileTree.any_nul_eq, FileTree.locate_eq]
    decide +kernel
  have hnew : s.IsJobNew files := by
    have hlast : ∀ e ∈ files.entries, e.1.getLast? ≠ some (s.jobId.toText ++ ".json") := by decide +kernel
    intro directory
    rw [FileTree.lookup, if_neg (FileTree.append_singleton_ne_nil _ _), List.find?_eq_none.2, Option.map_none]
    intro e he hplace
    refine hlast e he ?_
    rw [of_decide_eq_true hplace, List.getLast?_concat]
  obtain ⟨hfailing, huploading, htasking, hprocessing⟩ := hcodes
  refine ⟨(records_after ["job", "x"] s files).1 hfailing, ?_, ?_, ?_⟩
  · obtain ⟨store, input, -, -, habsent, hwritten⟩ := ((records_after _ s files).2 huploading).1 none hupload
    exact ⟨store, input, habsent hnew, hwritten⟩
  · obtain ⟨store, task, given, report, -, -, habsent, hwritten⟩ :=
      ((records_after _ s files).2 htasking).2.1 _ _ htask
    exact ⟨store, task, given, report, habsent hnew, hwritten⟩
  · obtain ⟨store, other, old, report, -, hother, hold, hwritten⟩ :=
      ((records_after _ s files).2 hprocessing).2.2 _ _ hprocess
    exact ⟨store, other, old, report, hother, hold, hwritten⟩

end Request

end PluginChain
