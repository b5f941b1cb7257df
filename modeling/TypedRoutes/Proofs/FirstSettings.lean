import TypedRoutes.CommandLine.Run
import TypedRoutes.Proofs.BuiltInTemplates
import TypedRoutes.Proofs.NamedPlaces
import TypedRoutes.Proofs.RunChanges
import TypedRoutes.Proofs.StoredSettings
import TypedRoutes.Proofs.SuccessfulRuns

/-! # A run goes on with the first settings

First settings are held by the settings file of the working directory or by its manifest, and a run
that is not told otherwise begins with them, as long as no router was written in their place.
-/

namespace TypedRoutes
open TypedRoutes.Json

namespace Manifest

/-- The nearest manifest is the one in the directory itself, if there is one that can be read. -/
theorem nearest_of_readText {files : FileTree} {working : Location} {start text : String}
    {v : Value}
    (hfile : files.isFile working (Path.join start fileName) = true)
    (htext : files.readText working (Path.join start fileName) = .ok text)
    (hparse : parse text = .ok v) :
    ∃ m, nearest files working start = .ok (some m) ∧ m.path = Path.join start fileName := by
  have hroot : nearestRoot? files working start = some start := by
    unfold nearestRoot? Path.ancestors Path.ancestorsUpTo
    split <;> simp [hfile]
  have hread : ∃ m, read files working start = .ok m ∧ m.path = Path.join start fileName := by
    unfold read
    simp only [htext, hparse, Except.mapError, bind, Except.bind]
    exact ⟨_, rfl, rfl⟩
  obtain ⟨m, hm, hpath⟩ := hread
  refine ⟨m, ?_, hpath⟩
  rw [nearest, hroot]
  simp only [hm]
  rfl

end Manifest

namespace Config

variable {files files' : FileTree} {directory l : Location} {path : String} {c : Config}

/-! ## Files that hold settings -/

theorem isOrdinary_fileName : Path.IsOrdinary fileName := by decide

theorem isOrdinary_manifest : Path.IsOrdinary Manifest.fileName := by decide

/-- Where settings are that are looked for first: in their own file or, if there is none, in the
manifest. -/
inductive Held (files : FileTree) (directory : Location) (c : Config) : Location → Prop where
  | own (hnode : files.node? (directory ++ [fileName]) = some (.file (.text c.toJson.pretty))) :
      Held files directory c (directory ++ [fileName])
  | manifest (fields : List (String × Value))
      (hreadable : Readable Reader.depthLimit (.object fields))
      (hnode : files.node? (directory ++ [Manifest.fileName]) = some (.file (.text
        (Value.object (Value.insertField sectionKey c.toJson.sorted fields)).pretty)))
      (hfree : ∀ content, files.node? (directory ++ [fileName]) ≠ some (.file content)) :
      Held files directory c (directory ++ [Manifest.fileName])

theorem Held.loadBase (h : Held files directory c l) (hdirectory : files.Grounded directory)
    (hvalid : c.validate files directory = .ok ()) : loadBase files directory none = .ok c := by
  have hlocal := hdirectory.leadsTo_name isOrdinary_fileName
  unfold Config.loadBase
  cases h with
  | own hnode =>
    rw [if_pos ((hdirectory.isFile_iff hlocal).2 ⟨_, hnode⟩)]
    exact load_of_readText (FileTree.readText_of_find (hlocal.find hnode)) hvalid
  | manifest fields hreadable hnode hfree =>
    have hleads := hdirectory.leadsTo_pathOf isOrdinary_manifest
    have htext := FileTree.readText_of_find (hleads.find hnode)
    obtain ⟨m, hm, hpath⟩ := Manifest.nearest_of_readText
      ((hdirectory.isFile_iff hleads).2 ⟨_, hnode⟩) htext
      (parse_pretty (c.readable_withSection hreadable))
    have hnone : ¬files.isFile directory fileName = true := fun hfile =>
      ((hdirectory.isFile_iff hlocal).1 hfile).elim hfree
    rw [if_neg hnone, hm]
    simp only [hpath, loadSection_of_readText hreadable htext hvalid]
    rfl

/-- Settings stay held unless their file is written, or a settings file beside the manifest. -/
theorem Held.of_wrote {paths : List String} (h : Held files directory c l)
    (hwrote : files.Wrote directory paths files')
    (hpaths : ∀ path ∈ paths, ¬files'.LeadsTo directory path l ∧
      ¬files'.LeadsTo directory path (directory ++ [fileName])) : Held files' directory c l := by
  cases h with
  | own hnode => exact .own (hwrote.unchanged hnode fun path hpath => (hpaths path hpath).1)
  | manifest fields hreadable hnode hfree =>
    refine .manifest fields hreadable
      (hwrote.unchanged hnode fun path hpath => (hpaths path hpath).1) fun content hfile => ?_
    obtain hold | ⟨path, hpath, hleads⟩ := hwrote.file _ _ hfile
    · exact hfree content hold
    · exact (hpaths path hpath).2 hleads

/-! ## First settings -/

theorem mapError_eq_ok {ε ε' α : Type} {f : ε → ε'} {x : Except ε α} {a : α}
    (h : x.mapError f = .ok a) : x = .ok a := by
  cases x with
  | error e => cases h
  | ok b => exact congrArg Except.ok (Except.ok.inj h)

theorem saveSection_eq_ok (h : saveSection files directory path c = .ok files') :
    ∃ fields, Readable Reader.depthLimit (.object fields) ∧
      files.write directory path (.text
        (Value.object (Value.insertField sectionKey c.toJson.sorted fields)).pretty) =
          .ok files' := by
  unfold saveSection at h
  obtain ⟨_, -, h⟩ := bind_eq_ok h
  obtain ⟨v, hload, h⟩ := bind_eq_ok h
  obtain ⟨text, -, hparse⟩ := bind_eq_ok hload
  split at h
  · exact ⟨_, readable_of_parse (mapError_eq_ok hparse), mapError_eq_ok h⟩
  · cases h

theorem saveInitial_eq_ok {force : Bool}
    (h : saveInitial files directory path force c = .ok files') :
    if Path.fileName? path = some Manifest.fileName then
      saveSection files directory path c = .ok files'
    else files.write directory path (.text c.toJson.pretty) = .ok files' := by
  unfold saveInitial at h
  split at h
  · rename_i hname
    rw [if_pos hname]
    obtain ⟨text, -, h⟩ := bind_eq_ok h
    split at h
    · cases h
    · exact mapError_eq_ok h
  · rename_i hname
    rw [if_neg hname]
    split at h
    · cases h
    · exact mapError_eq_ok (mapError_eq_ok h)

theorem held_of_saveInitial {force : Bool} (hleads : files.LeadsTo directory path l)
    (hplace : l = directory ++ [fileName] ∨ l = directory ++ [Manifest.fileName] ∧
      ∀ content, files.node? (directory ++ [fileName]) ≠ some (.file content))
    (h : saveInitial files directory path force c = .ok files') :
    Held files' directory c l ∧ files.Keeps files' := by
  have hinitial := saveInitial_eq_ok h
  obtain rfl | ⟨rfl, hfree⟩ := hplace
  · rw [if_neg (by rw [hleads.fileName?]; decide)] at hinitial
    obtain ⟨rfl, hnode⟩ := hleads.eq_of_write hinitial
    exact ⟨.own (FileTree.node?_setNode_self (by simp)), FileTree.keeps_setFile hnode _⟩
  · rw [if_pos hleads.fileName?] at hinitial
    obtain ⟨fields, hreadable, hwrite⟩ := saveSection_eq_ok hinitial
    obtain ⟨rfl, hnode⟩ := hleads.eq_of_write hwrite
    refine ⟨.manifest fields hreadable (FileTree.node?_setNode_self (by simp)) ?_,
      FileTree.keeps_setFile hnode _⟩
    have hother : directory ++ [fileName] ≠ directory ++ [Manifest.fileName] := fun heq =>
      absurd (List.append_cancel_left heq) (by decide)
    rwa [FileTree.node?_setNode_of_ne hother]

/-! ## The client's place -/

theorem slash_notMem_of_isIdentifier {name : String} (h : isIdentifier name = true) :
    '/' ∉ name.toList := by
  intro hmem
  unfold isIdentifier at h
  split at h
  · cases h
  · rename_i c cs hname
    rw [hname] at hmem
    rw [Bool.and_eq_true, List.all_eq_true] at h
    obtain rfl | hmem := List.mem_cons.1 hmem
    · exact absurd h.1 (by decide)
    · exact absurd (h.2 _ hmem) (by decide)

theorem isIdentifier_of_validate (hvalid : c.validate files directory = .ok ()) :
    isIdentifier c.clientName = true := by
  unfold validate at hvalid
  obtain ⟨_, -, hvalid⟩ := bind_eq_ok hvalid
  obtain ⟨_, -, hvalid⟩ := bind_eq_ok hvalid
  obtain ⟨_, hname, -⟩ := bind_eq_ok hvalid
  by_contra hnot
  rw [Bool.not_eq_true] at hnot
  simp [refuse, hnot] at hname

/-- The client is written to a file of its own name. -/
theorem name_of_leadsTo_clientPath {name : String}
    (hvalid : c.validate files directory = .ok ())
    (hleads : files'.LeadsTo directory c.clientPath (l ++ [name])) :
    name = c.clientName ++ ".ts" := by
  have hslash : '/' ∉ (c.clientName ++ ".ts").toList := by
    rw [String.toList_append, List.mem_append, not_or]
    exact ⟨slash_notMem_of_isIdentifier (isIdentifier_of_validate hvalid), by decide⟩
  have hlast := hleads.getLast?
  rw [clientPath, Path.getLast?_splitOn_join _ hslash, List.getLast?_concat] at hlast
  exact (Option.some.inj hlast).symm

theorem not_leadsTo_clientPath {name : String} (hvalid : c.validate files directory = .ok ())
    (hname : name.toList.getLast? ≠ some 's') :
    ¬files'.LeadsTo directory c.clientPath (l ++ [name]) := by
  intro hleads
  rw [name_of_leadsTo_clientPath hvalid hleads, String.toList_append, List.getLast?_append] at hname
  exact hname rfl

theorem merge_unchanged (c : Config) : c.merge { verbose := none } = c := by
  simp [merge, preferring]

end Config

/-! ## Runs -/

namespace CommandLine
open TypedRoutes.Config (Held)

variable {site : Site} {s s' : Session} {c : Config}

theorem settle_init_eq_ok {options : InitOptions}
    (h : (settle (.init options)).exec site s = (.ok c, s')) :
    c = options.toConfig ∧ c.validate s.files site.directory = .ok () ∧
      Config.saveInitial s.files site.directory options.output options.force c = .ok s'.files := by
  obtain ⟨_, s₁, hvalidate, h⟩ := Action.exec_bind_eq_ok h
  obtain ⟨_, s₂, hchange, h⟩ := Action.exec_bind_eq_ok h
  obtain ⟨_, s₃, hsay, h⟩ := Action.exec_bind_eq_ok h
  rw [Action.exec_inspect] at hvalidate
  obtain ⟨hvalid, rfl⟩ := Prod.mk.inj hvalidate
  obtain ⟨files, hsave, rfl⟩ := Action.exec_change_eq_ok hchange
  obtain ⟨-, rfl⟩ := Prod.mk.inj hsay
  obtain ⟨hc, rfl⟩ := Prod.mk.inj h
  obtain rfl := Except.ok.inj hc
  exact ⟨rfl, Config.mapError_eq_ok hvalid, hsave⟩

/-- A run that is asked for nothing goes by the settings it begins with. -/
theorem settle_generate (h : Config.loadBase s.files site.directory none = .ok c) :
    (settle (.generate {})).exec site s = (.ok c, s) := by
  change (Action.inspect _ >>= _).exec site s = _
  rw [Action.exec_bind, Action.exec_inspect, h]
  change (Except.ok (c.merge { verbose := none }), s) = _
  rw [c.merge_unchanged]

/-- What a run does once its settings are known. -/
def generateAndSay (c : Config) : Action Unit := do
  let summary ← Action.generateFrom c
  if summary.endpointCount > 0 then
    Action.say (Console.usage c.clientPath c.routerPath c.clientName)

theorem exec_run {command : Command} (h : (settle command).exec site s = (.ok c, s')) :
    (run command).exec site s = (generateAndSay c).exec site s' := by
  have hrun := Action.exec_bind (settle command) generateAndSay site s
  rw [h] at hrun
  exact hrun

theorem wrote_run {command : Command} (h : (settle command).exec site s = (.ok c, s')) :
    s'.files.Wrote site.directory [c.clientPath, c.routerPath]
      ((run command).exec site s).2.files := by
  have hrest : Action.Relates site (FileTree.Wrote site.directory [c.clientPath, c.routerPath])
      (generateAndSay c) := by
    refine (Action.relates_generateFrom c).bind fun summary => ?_
    split
    · exact Action.relates_say _
    · exact Action.relates_pure _
  rw [exec_run h]
  exact hrest s'

theorem gives_generateAndSay {files files' : FileTree} {summary : Summary}
    (h : Action.Gives site (Action.generateFrom c) files summary files') :
    Action.Gives site (generateAndSay c) files () files' := by
  refine h.bind ?_
  split
  · exact Action.gives_say _
  · exact Action.gives_pure _

/-- A run that is asked for nothing goes by the settings that the first run wrote into its working
directory and went by: right after they were written, and also after all else was, unless the router
took the place of what holds them. -/
theorem first_settings_resume {options : InitOptions} {l : Location}
    (hdirectory : s.files.Grounded site.directory)
    (hleads : s.files.LeadsTo site.directory options.output l)
    (hplace : l = site.directory ++ [Config.fileName] ∨ l = site.directory ++ [Manifest.fileName] ∧
      s.files.isFile site.directory Config.fileName = false)
    (hinit : (settle (.init options)).exec site s = (.ok c, s')) :
    ∃ command, Command.ofArguments ["generate"] = .ok command ∧
      (settle command).exec site s' = (.ok c, s') ∧
      let done := ((run (.init options)).exec site s).2
      ¬done.files.LeadsTo site.directory c.routerPath l →
        ¬done.files.LeadsTo site.directory c.routerPath (site.directory ++ [Config.fileName]) →
          (settle command).exec site done = (.ok c, done) := by
  obtain ⟨-, hvalid, hsave⟩ := settle_init_eq_ok hinit
  have hfree : l = site.directory ++ [Config.fileName] ∨
      l = site.directory ++ [Manifest.fileName] ∧
        ∀ content, s.files.node? (site.directory ++ [Config.fileName]) ≠ some (.file content) := by
    refine hplace.imp_right fun ⟨hl, hnone⟩ => ⟨hl, fun content hfile => ?_⟩
    have hlocal := hdirectory.leadsTo_name Config.isOrdinary_fileName
    rw [(hdirectory.isFile_iff hlocal).2 ⟨content, hfile⟩] at hnone
    cases hnone
  obtain ⟨hheld, hkeeps⟩ := Config.held_of_saveInitial hleads hfree hsave
  have hvalid' := Config.validate_of_keeps hkeeps hvalid
  have hdirectory' := hkeeps.grounded hdirectory
  refine ⟨.generate {}, rfl, settle_generate (hheld.loadBase hdirectory' hvalid'), ?_⟩
  intro done hrouter hlocal
  have hwrote := wrote_run hinit
  -- the client's name ends in neither of the two that settings are looked for under
  have hclient : ∀ name ∈ [Config.fileName, Manifest.fileName],
      ¬done.files.LeadsTo site.directory c.clientPath (site.directory ++ [name]) :=
    fun name hname => Config.not_leadsTo_clientPath hvalid (by revert name; decide)
  have hclient' : ¬done.files.LeadsTo site.directory c.clientPath l := by
    obtain rfl | ⟨rfl, -⟩ := hplace <;> exact hclient _ (by simp)
  have hheld' : Held done.files site.directory c l := by
    refine hheld.of_wrote hwrote ?_
    simp only [List.forall_mem_cons]
    exact ⟨⟨hclient', hclient _ (by simp)⟩, ⟨hrouter, hlocal⟩, by simp⟩
  exact settle_generate (hheld'.loadBase (hwrote.keeps.grounded hdirectory')
    (Config.validate_of_keeps hwrote.keeps hvalid'))

theorem first_settings_resume_from_manifest :
    let site : Site := ⟨["shop"], basicPrograms⟩
    let s : Session := { files := ⟨[(["shop"], .directory), (["shop", "api"], .directory),
      (["shop", "package.json"], .file (.text "\x7b\"private\": true\x7d"))]⟩ }
    let options : InitOptions :=
      { entry := some "api", output := "./package.json", verbose := true }
    let done := ((run (.init options)).exec site s).2
    ((settle (.init options)).exec site s).1 = .ok options.toConfig ∧
      ∃ command, Command.ofArguments ["generate"] = .ok command ∧
        (settle command).exec site done = (.ok options.toConfig, done) := by
  intro site s options
  have hdirectory : s.files.Grounded site.directory := by
    refine ⟨fun l hl => ?_, by decide +kernel⟩
    have hall : ∀ l ∈ site.directory.inits, s.files.node? l = some .directory := by decide +kernel
    exact hall l ((List.mem_inits _ _).2 hl)
  have hleads : s.files.LeadsTo site.directory options.output
      (site.directory ++ [Manifest.fileName]) :=
    ⟨by decide, ["."], "package.json", ["shop"], by decide +kernel, by decide +kernel,
      by decide +kernel, by decide +kernel, rfl⟩
  have hfree : s.files.isFile site.directory Config.fileName = false := by decide +kernel
  have hsettle : ((settle (.init options)).exec site s).1 = .ok options.toConfig := by
    decide +kernel
  have hinit : (settle (.init options)).exec site s =
      (.ok options.toConfig, ((settle (.init options)).exec site s).2) := by
    rw [← hsettle]
  have hname : ∀ name ∈ [Config.fileName, Manifest.fileName],
      (Text.splitOn '/' options.toConfig.routerPath).getLast? ≠ some name := by decide +kernel
  have hrouter : ∀ (t : FileTree), ∀ name ∈ [Config.fileName, Manifest.fileName],
      ¬t.LeadsTo site.directory options.toConfig.routerPath (site.directory ++ [name]) := by
    intro t name hmem hleads
    exact hname name hmem (hleads.getLast?.trans List.getLast?_concat)
  obtain ⟨command, hcommand, -, hdone⟩ :=
    first_settings_resume hdirectory hleads (.inr ⟨rfl, hfree⟩) hinit
  exact ⟨hsettle, command, hcommand, hdone (hrouter _ _ (by simp)) (hrouter _ _ (by simp))⟩

/-! ### A router under the name of the settings file -/

/-- Nothing that begins with a comment is settings. -/
theorem ofText_comment (rest : String) :
    Config.ofText ("/" ++ rest) = .error (.json "expected value at line 1 column 1") := by
  have htext : ("/" ++ rest).toList = '/' :: rest.toList := by simp
  have hdecode : Config.decoder.ofText ("/" ++ rest) = .error ⟨.noValue, some ⟨1, 1⟩⟩ := by
    rw [Decoder.ofText, htext]
    rfl
  rw [Config.ofText, hdecode]
  decide +kernel

theorem settle_generate_of_comment {rest : String} (hdirectory : s.files.Grounded site.directory)
    (hnode : s.files.node? (site.directory ++ [Config.fileName]) =
      some (.file (.text ("/" ++ rest)))) :
    (settle (.generate {})).exec site s =
      (.error (.config (.json "expected value at line 1 column 1")), s) := by
  have hlocal := hdirectory.leadsTo_name Config.isOrdinary_fileName
  have hload : Config.loadBase s.files site.directory none =
      .error (.json "expected value at line 1 column 1") := by
    unfold Config.loadBase Config.load
    rw [if_pos ((hdirectory.isFile_iff hlocal).2 ⟨_, hnode⟩),
      FileTree.readText_of_find (hlocal.find hnode)]
    simp only [Except.mapError, bind, Except.bind, ofText_comment]
  change (Action.inspect _ >>= _).exec site s = _
  rw [Action.exec_bind, Action.exec_inspect, hload]
  rfl

theorem exists_writeDocument {files : FileTree} {directory : Location} {path text : String}
    (h : (writeDocument files directory path text).1 = .ok ()) (text' : String) :
    ∃ files', writeDocument files directory path text' = (.ok (), files') := by
  obtain ⟨made, hmade, hwrite⟩ := writeDocument_eq_ok.1 (Prod.ext h rfl)
  obtain ⟨l, hleads, hnode, -⟩ := FileTree.leadsTo_of_write hwrite
  exact ⟨_, writeDocument_eq_ok.2 ⟨made, hmade, hleads.write hnode _⟩⟩

/-- A router that is written under the name of the settings file is what is read there next. -/
theorem settle_generate_overwritten {options : InitOptions} {tree : Route.Tree} {content : Content}
    (hrouter : options.router = some Config.fileName)
    (hdirectory : s.files.Grounded site.directory)
    (hnode : s.files.node? (site.directory ++ [Config.fileName]) = some (.file content))
    (hvalid : options.toConfig.validate s.files site.directory = .ok ())
    (htree : (options.toConfig.buildTree s.files site.directory).1 = .ok tree)
    (hnamed : tree.belowNamed = true)
    (hclient : (writeDocument s.files site.directory options.toConfig.clientPath "").1 = .ok ()) :
    let done := ((generateAndSay options.toConfig).exec site s).2
    (settle (.generate {})).exec site done =
      (.error (.config (.json "expected value at line 1 column 1")), done) := by
  obtain ⟨client, rest, hrender⟩ := Config.renderDocuments_builtIn (c := options.toConfig)
    rfl rfl rfl hnamed s.files site.directory
  obtain ⟨files, hwriteClient⟩ := exists_writeDocument hclient client
  have hwrote := wrote_writeDocument s.files site.directory options.toConfig.clientPath client
  rw [hwriteClient] at hwrote
  have hdirectory' := hwrote.keeps.grounded hdirectory
  obtain ⟨content', hnode'⟩ := hwrote.keeps.file _ _ hnode
  have hfile : files.node? (site.directory ++ [Config.fileName]) ≠ some .directory := by
    simp [hnode']
  have hpath : options.toConfig.routerPath = Config.fileName := by
    rw [InitOptions.toConfig, hrouter]
    rfl
  have hwriteRouter : writeDocument files site.directory options.toConfig.routerPath ("/" ++ rest) =
      (.ok (), files.setNode (site.directory ++ [Config.fileName])
        (.file (.text ("/" ++ rest)))) := by
    have hparent : Path.parent? Config.fileName = some "" := by decide +kernel
    have hlocal := hdirectory'.leadsTo_name Config.isOrdinary_fileName
    rw [hpath]
    exact writeDocument_eq_ok.2 ⟨files, by simp only [makeParents, hparent], hlocal.write hfile _⟩
  obtain ⟨said, hexec⟩ := gives_generateAndSay
    (Action.gives_generateFrom rfl hvalid htree hrender hwriteClient hwriteRouter) s.said
  have hdone := settle_generate_of_comment
    (s := ⟨files.setNode (site.directory ++ [Config.fileName]) (.file (.text ("/" ++ rest))), said⟩)
    ((FileTree.keeps_setFile hfile _).grounded hdirectory')
    (FileTree.node?_setNode_self (by simp))
  intro done
  have heq : done = _ := congrArg Prod.snd hexec
  rw [heq]
  exact hdone

/-- Settings that are written first, and then a router over them. -/
theorem first_settings_overwritten :
    let site : Site := ⟨[], basicPrograms⟩
    let s : Session := { files := ⟨[(["api"], .directory)]⟩ }
    let options : InitOptions := { entry := some "api", router := some "rpc-typegen.json" }
    let first := (settle (.init options)).exec site s
    let done := ((run (.init options)).exec site s).2
    Command.ofArguments ["init", "-e", "api", "-r", "rpc-typegen.json"] = .ok (.init options) ∧
      first.1 = .ok options.toConfig ∧ s.files.isFile [] Config.fileName = false ∧
      first.2.files.isFile [] Config.fileName = true ∧
      Command.ofArguments ["generate"] = .ok (.generate {}) ∧
      ((settle (.generate {})).exec site done).1 =
        .error (.config (.json "expected value at line 1 column 1")) := by
  intro site s options
  have hdirectory (t : FileTree) : t.Grounded site.directory := by
    refine ⟨fun l hl => ?_, by decide⟩
    rw [List.prefix_nil.1 hl]
    rfl
  have hsettle : ((settle (.init options)).exec site s).1 = .ok options.toConfig := by
    decide +kernel
  have hfile : ((settle (.init options)).exec site s).2.files.isFile [] Config.fileName = true := by
    decide +kernel
  have hvalid : options.toConfig.validate ((settle (.init options)).exec site s).2.files [] =
      .ok () := by decide +kernel
  have hbuild : (options.toConfig.buildTree ((settle (.init options)).exec site s).2.files
      []).1.toOption.any (·.belowNamed) = true := by decide +kernel
  have hclient : (writeDocument ((settle (.init options)).exec site s).2.files []
      options.toConfig.clientPath "").1 = .ok () := by decide +kernel
  have hinit : (settle (.init options)).exec site s =
      (.ok options.toConfig, ((settle (.init options)).exec site s).2) := by
    rw [← hsettle]
  obtain ⟨content, hnode⟩ := ((hdirectory _).isFile_iff
    ((hdirectory _).leadsTo_name Config.isOrdinary_fileName)).1 hfile
  obtain ⟨tree, htree, hnamed⟩ : ∃ tree, (options.toConfig.buildTree
      ((settle (.init options)).exec site s).2.files []).1 = .ok tree ∧ tree.belowNamed = true := by
    cases htree : (options.toConfig.buildTree
        ((settle (.init options)).exec site s).2.files []).1 with
    | error e =>
      rw [htree] at hbuild
      cases hbuild
    | ok tree =>
      rw [htree] at hbuild
      exact ⟨tree, rfl, hbuild⟩
  have hdone := settle_generate_overwritten rfl (hdirectory _) hnode hvalid htree
    hnamed hclient
  rw [← exec_run hinit] at hdone
  exact ⟨by decide +kernel, hsettle, by decide +kernel, hfile, rfl, congrArg Prod.fst hdone⟩

end CommandLine

end TypedRoutes
