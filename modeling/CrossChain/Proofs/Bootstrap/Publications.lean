import CrossChain.Proofs.Bootstrap.Operations

/-!
# Publications

What is published of a directory of contracts.  The files of applications are gone through in order,
but each is looked up again by the name of its contract, which finds the first file of that name
(`Wasm.firstLike`).  So every application file is stored and published just when no two of them have
one name; of several versions of an application only the first is, once for each of them
(`publishAll_publications`).
-/

namespace CrossChain

/-! ## Files by name -/

namespace Wasm

/-- Whether a file has a contract that is not of the system. -/
def isApplication (file : Path) : Bool := !systemNames.contains (nameOf file)

/-- The files of applications. -/
def applications (contents : List Path) : List Path := contents.filter isApplication

/-- The first of files with a contract of the same name. -/
def firstLike (contents : List Path) (file : Path) : Path :=
  (contents.find? fun f => nameOf f == nameOf file).getD file

section Files

variable {t : FileTree} {directory : Path} {contents : List Path} {file : Path}

theorem files_eq {names : List Text} (hnames : t.names directory = .ok names) :
    files t directory = .ok (((names.filter ending.isSuffixOf).mergeSort Text.le).map fun name =>
      ⟨directory.root, directory.parts ++ [name]⟩) := by
  rw [files, hnames]
  rfl

theorem files_of_sorted {names : List Text} (hnames : t.names directory = .ok names)
    (hsorted : (names.filter ending.isSuffixOf).Pairwise fun a b => Text.le a b = true) :
    files t directory = .ok ((names.filter ending.isSuffixOf).map fun name =>
      ⟨directory.root, directory.parts ++ [name]⟩) := by
  rw [files_eq hnames, List.mergeSort_of_pairwise hsorted]

theorem applicationNames_eq (h : files t directory = .ok contents) :
    applicationNames t directory = .ok ((applications contents).map nameOf) := by
  rw [applicationNames, namesBut, h]
  exact congrArg Except.ok List.filter_map

theorem applications_subset : applications contents ⊆ contents := List.filter_sublist.subset

theorem find?_eq_firstLike (hfile : file ∈ contents) :
    (contents.find? fun f => nameOf f == nameOf file) = some (firstLike contents file) := by
  have hfound : (contents.find? fun f => nameOf f == nameOf file).isSome :=
    List.find?_isSome.2 ⟨file, hfile, beq_self_eq_true _⟩
  obtain ⟨first, hfirst⟩ := Option.isSome_iff_exists.1 hfound
  rw [firstLike, hfirst]
  rfl

theorem find_of_mem (h : files t directory = .ok contents) (hfile : file ∈ contents) :
    find t directory (nameOf file) = .ok (firstLike contents file) := by
  simp only [find, h, bind, Except.bind, find?_eq_firstLike hfile]
  rfl

theorem nameOf_firstLike (hfile : file ∈ contents) :
    nameOf (firstLike contents file) = nameOf file :=
  beq_iff_eq.1 (List.find?_some (p := fun f => nameOf f == nameOf file) (find?_eq_firstLike hfile))

theorem firstLike_mem (hfile : file ∈ contents) : firstLike contents file ∈ contents :=
  List.mem_of_find?_eq_some (find?_eq_firstLike hfile)

theorem firstLike_mem_applications (hfile : file ∈ applications contents) :
    firstLike contents file ∈ applications contents := by
  obtain ⟨hmem, happlication⟩ := List.mem_filter.1 hfile
  refine List.mem_filter.2 ⟨firstLike_mem hmem, ?_⟩
  rwa [isApplication, nameOf_firstLike hmem]

/-- Every application is the first of its name just when their names tell them apart. -/
theorem map_firstLike_eq_iff :
    (applications contents).map (firstLike contents) = applications contents ↔
      ∀ f ∈ applications contents, ∀ g ∈ applications contents, nameOf f = nameOf g → f = g := by
  constructor
  · intro h f hf g hg hname
    have hfirst : ∀ f ∈ applications contents, firstLike contents f = f :=
      List.map_inj_left.1 (h.trans (List.map_id _).symm)
    have hfound := find?_eq_firstLike (applications_subset hf)
    rw [hname, find?_eq_firstLike (applications_subset hg), hfirst f hf, hfirst g hg] at hfound
    exact (Option.some.inj hfound).symm
  · intro h
    refine (List.map_congr_left fun f hf => ?_).trans (List.map_id _)
    exact h _ (firstLike_mem_applications hf) f hf (nameOf_firstLike (applications_subset hf))

end Files

end Wasm

namespace Bootstrap

/-! ## Calls -/

/-- A file that was stored and published: the id of its code, and the transaction that published
it. -/
structure Publication where
  file : Path
  code : Int
  hash : Text

/-- The two calls of a publication: the file is stored under the name of its contract, and the code
published in the registry under that name and the version of the file. -/
def Publication.calls (registry : Contract) (p : Publication) : List Asked :=
  let name := Wasm.nameOf p.file
  [⟨.upload p.file name, .ok p.code⟩,
    ⟨.execute registry.address
      (ContractMessage.publish p.code name (Wasm.versionOf p.file)).toJson [], .ok p.hash⟩]

section Publish

variable {σ : Type} {client : ChainClient σ} (registry : Contract) {directory : Path}

/-- Every call to a chain succeeds. -/
def Answers (client : ChainClient σ) : Prop := ∀ call s, ∃ a t, client.answer call s = .ok a t

theorem publishFile_noted (h : Answers client) (file : Path) (s : Logged Asked σ) :
    ∃ (p : Publication) (t : σ), p.file = file ∧
      publishFile client.noted registry (Wasm.nameOf file) file s =
        .ok p.code ⟨s.log ++ p.calls registry, t⟩ := by
  obtain ⟨code, t, hupload⟩ := h (.upload file (Wasm.nameOf file)) s.inner
  let message := ContractMessage.publish code (Wasm.nameOf file) (Wasm.versionOf file)
  obtain ⟨hash, u, hexecute⟩ := h (.execute registry.address message.toJson []) t
  let stored : Asked := ⟨.upload file (Wasm.nameOf file), .ok code⟩
  let published : Asked := ⟨.execute registry.address message.toJson [], .ok hash⟩
  refine ⟨⟨file, code, hash⟩, u, rfl, ?_⟩
  have hstored : client.noted.upload file (Wasm.nameOf file) s = .ok code ⟨s.log ++ [stored], t⟩ :=
    Logged.noting_run_ok hupload
  have hpublished : registry.execute client.noted message [] ⟨s.log ++ [stored], t⟩ =
      .ok hash ⟨s.log ++ [stored] ++ [published], u⟩ := Logged.noting_run_ok hexecute
  rw [publishFile, Act.bind_run_ok hstored, Act.bind_run_ok hpublished, List.append_assoc]
  rfl

variable {s : Site (Logged Asked σ)} {contents : List Path}

theorem publish_noted (h : Answers client) (hfiles : Wasm.files s.files directory = .ok contents)
    {file : Path} (hfile : file ∈ contents) :
    ∃ (p : Publication) (t : σ), p.file = Wasm.firstLike contents file ∧
      publish client.noted registry directory (Wasm.nameOf file) s =
        .ok p.code ⟨s.files, s.outside.log ++ p.calls registry, t⟩ := by
  obtain ⟨p, t, hp, hrun⟩ :=
    publishFile_noted registry h (Wasm.firstLike contents file) s.outside
  rw [Wasm.nameOf_firstLike hfile] at hrun
  refine ⟨p, t, hp, ?_⟩
  rw [publish, Act.bind_run_ok (Site.ofFiles_run_ok (Wasm.find_of_mem hfiles hfile))]
  exact Site.onOutside_run_ok hrun

/-- Publishing files by their names publishes the first file of each name. -/
theorem mapM_publish_noted (h : Answers client)
    (hfiles : Wasm.files s.files directory = .ok contents) {l : List Path} (hl : l ⊆ contents) :
    ∃ (publications : List Publication) (t : σ),
      publications.map Publication.file = l.map (Wasm.firstLike contents) ∧
      ((l.map Wasm.nameOf).mapM fun name =>
          return (name, ← publish client.noted registry directory name) :
        Act (Site (Logged Asked σ)) (Table Int)) s =
        .ok (publications.map fun p => (Wasm.nameOf p.file, p.code))
          ⟨s.files, s.outside.log ++ publications.flatMap (·.calls registry), t⟩ := by
  -- Publishing leaves the files as they are, so the listing is the same for every file.
  induction l generalizing s with
  | nil =>
    refine ⟨[], s.outside.inner, rfl, ?_⟩
    rw [List.map_nil, List.mapM_nil, List.flatMap_nil, List.append_nil]
    rfl
  | cons file l ih =>
    obtain ⟨hfile, hl⟩ := List.cons_subset.1 hl
    obtain ⟨p, t, hp, hrun⟩ := publish_noted registry h hfiles hfile
    have hstep : (do return (Wasm.nameOf file, ← publish client.noted registry directory
        (Wasm.nameOf file)) : Act (Site (Logged Asked σ)) (Text × Int)) s =
        .ok (Wasm.nameOf p.file, p.code) ⟨s.files, s.outside.log ++ p.calls registry, t⟩ := by
      rw [Act.bind_run_ok hrun, hp, Wasm.nameOf_firstLike hfile]
      rfl
    obtain ⟨publications, u, hfirst, hrest⟩ :=
      ih (s := ⟨s.files, s.outside.log ++ p.calls registry, t⟩) hfiles hl
    refine ⟨p :: publications, u, by rw [List.map_cons, hp, hfirst, List.map_cons], ?_⟩
    rw [List.map_cons, List.mapM_cons, Act.bind_run_ok hstep, Act.bind_run_ok hrest,
      List.flatMap_cons, ← List.append_assoc]
    rfl

theorem publishEach_noted (h : Answers client)
    (hfiles : Wasm.files s.files directory = .ok contents) :
    ∃ (publications : List Publication) (t : σ),
      publications.map Publication.file =
        (Wasm.applications contents).map (Wasm.firstLike contents) ∧
      publishEach client.noted registry directory s =
        .ok (Table.ofPairs (publications.map fun p => (Wasm.nameOf p.file, p.code)))
          ⟨s.files, s.outside.log ++ publications.flatMap (·.calls registry), t⟩ := by
  obtain ⟨publications, t, hfirst, hrun⟩ :=
    mapM_publish_noted registry h hfiles Wasm.applications_subset
  refine ⟨publications, t, hfirst, ?_⟩
  rw [publishEach, Act.bind_run_ok (Site.ofFiles_run_ok (Wasm.applicationNames_eq hfiles)),
    Act.bind_run_ok hrun]
  rfl

/-- What is remembered of publications is no call. -/
theorem outside_publishAll [Json.Limits] (client : ChainClient σ) (cacheDirectory : Option Path)
    (s : Site σ) :
    ((publishAll client registry directory cacheDirectory).final s).outside =
      ((publishEach client registry directory).final s).outside := by
  cases cacheDirectory with
  | none =>
    have heach : publishAll client registry directory none =
        publishEach client registry directory := by
      simp only [publishAll, publishEach]
    rw [heach]
  | some d =>
    rw [publishAll_eq]
    cases hrun : publishEach client registry directory s with
    | error e t => rw [Act.final_error (Act.bind_run_error hrun), Act.final_error hrun]
    | ok codes t =>
      rw [Act.final_bind_ok hrun, Act.final_ok hrun]
      cases hremember : remember client d codes t.files with
      | ok a u => rw [Act.final_bind_ok (Site.onFiles_run_ok hremember)]; rfl
      | error e u => rw [Act.final_error (Act.bind_run_error (Site.onFiles_run_error hremember))]

/-- The calls of a publication of everything. -/
theorem publishAll_noted [Json.Limits] (h : Answers client)
    (hfiles : Wasm.files s.files directory = .ok contents) (cacheDirectory : Option Path) :
    ∃ publications : List Publication,
      ((publishAll client.noted registry directory cacheDirectory).final s).outside.log =
        s.outside.log ++ publications.flatMap (·.calls registry) ∧
      publications.map Publication.file =
        (Wasm.applications contents).map (Wasm.firstLike contents) := by
  obtain ⟨publications, t, hfirst, hrun⟩ := publishEach_noted registry h hfiles
  refine ⟨publications, ?_, hfirst⟩
  rw [outside_publishAll, Act.final_ok hrun]

/-- The file whose code a call stores, if it does that. -/
def storedFile? : ChainCall → Option Path
  | .upload file _ => some file
  | _ => none

theorem filterMap_storedFile? (publications : List Publication) :
    (publications.flatMap (·.calls registry)).filterMap (fun asked => storedFile? asked.call) =
      publications.map Publication.file := by
  rw [List.filterMap_flatMap, List.map_eq_flatMap]
  rfl

end Publish

/-! ## The law -/

/-- On a chain that refuses nothing every application file of a directory, in order, leads to one
publication: that of the first file with its name.  They are the publications of the files
themselves, each of them once, just when no two applications have one name. -/
theorem publishAll_publications [Json.Limits] {σ : Type} (client : ChainClient σ)
    (h : Answers client) (registry : Contract) (directory : Path) (cacheDirectory : Option Path)
    (s : Site (Logged Asked σ)) (contents : List Path)
    (hfiles : Wasm.files s.files directory = .ok contents) :
    ∃ publications : List Publication,
      ((publishAll client.noted registry directory cacheDirectory).final s).outside.log =
        s.outside.log ++ publications.flatMap (·.calls registry) ∧
      publications.map Publication.file =
        (Wasm.applications contents).map (Wasm.firstLike contents) ∧
      (publications.map Publication.file = Wasm.applications contents ↔
        ∀ f ∈ Wasm.applications contents, ∀ g ∈ Wasm.applications contents,
          Wasm.nameOf f = Wasm.nameOf g → f = g) := by
  obtain ⟨publications, hlog, hfirst⟩ := publishAll_noted registry h hfiles cacheDirectory
  exact ⟨publications, hlog, hfirst, hfirst ▸ Wasm.map_firstLike_eq_iff⟩

/-! ### Two directories -/

/-- A chain that numbers the code it stores and refuses nothing. -/
def obliging : ChainClient Int where
  chainId := "galileo-4"
  sender := "andr1sender"
  answer
    | .upload _ _ => fun n => .ok n (n + 1)
    | .instantiate _ _ label => return label
    | .execute _ _ _ => return text "hash"
    | .query _ _ => return Json.null
    | .balance _ _ => return (⟨"0", .str "uandr"⟩ : Coin)
    | .sendTokens _ _ => return some (text "hash")

theorem answers_obliging : Answers obliging := by
  intro call s
  cases call <;> exact ⟨_, _, rfl⟩

/-- A directory of contracts with files of the given names. -/
def contractsOf (names : List Text) : FileTree where
  entries := (Place.here.child (FileName.ofText "contracts"), .directory) ::
    names.map fun name =>
      (⟨.above 0, [FileName.ofText "contracts", FileName.ofText name]⟩, .file [])

/-- The site of a chain that did nothing yet, with such a directory. -/
def siteWith (names : List Text) : Site (Logged Asked Int) := ⟨contractsOf names, ⟨[], 1⟩⟩

/-- The files of the names. -/
def contractFiles (names : List Text) : List Path :=
  names.map fun name => ⟨[], [text "contracts", name]⟩

/-- Two applications and a contract of the system. -/
def twoNames : List Text :=
  [text "andromeda_cw20@1.0.0.wasm", text "andromeda_splitter@1.2.0.wasm",
    text "andromeda_vfs@2.0.0.wasm"]

/-- The two applications are published, each with its file. -/
theorem publishAll_publications_twoNames :
    Answers obliging ∧
      Wasm.files (contractsOf twoNames) (Path.ofText "contracts") = .ok (contractFiles twoNames) ∧
      ∃ publications : List Publication,
        ((publishAll obliging.noted ⟨.str "andr1adodb"⟩ (Path.ofText "contracts") none).final
          (siteWith twoNames)).outside.log =
          publications.flatMap (·.calls ⟨.str "andr1adodb"⟩) ∧
        publications.map Publication.file = contractFiles (twoNames.take 2) := by
  have hnames : (contractsOf twoNames).names (Path.ofText "contracts") = .ok twoNames := rfl
  have hfiles : Wasm.files (contractsOf twoNames) (Path.ofText "contracts") =
      .ok (contractFiles twoNames) := Wasm.files_of_sorted hnames (by decide +kernel)
  obtain ⟨publications, hlog, -, hall⟩ := publishAll_publications obliging answers_obliging
    ⟨.str "andr1adodb"⟩ (Path.ofText "contracts") none (siteWith twoNames) _ hfiles
  refine ⟨answers_obliging, hfiles, publications, hlog, ?_⟩
  rw [hall.2 (by decide +kernel)]
  decide +kernel

/-- Two versions of an application. -/
def twoVersions : List Text :=
  [text "andromeda_splitter@1.0.0.wasm", text "andromeda_splitter@2.0.0.wasm"]

/-- Of the two versions the first is stored twice and the second never. -/
theorem publishAll_skips_version :
    Answers obliging ∧
      Wasm.files (contractsOf twoVersions) (Path.ofText "contracts") =
        .ok (contractFiles twoVersions) ∧
      Wasm.applications (contractFiles twoVersions) = contractFiles twoVersions ∧
      ((publishAll obliging.noted ⟨.str "andr1adodb"⟩ (Path.ofText "contracts") none).final
          (siteWith twoVersions)).outside.log.filterMap (fun asked => storedFile? asked.call) =
        contractFiles [text "andromeda_splitter@1.0.0.wasm",
          text "andromeda_splitter@1.0.0.wasm"] := by
  have hnames : (contractsOf twoVersions).names (Path.ofText "contracts") = .ok twoVersions := rfl
  have hfiles : Wasm.files (contractsOf twoVersions) (Path.ofText "contracts") =
      .ok (contractFiles twoVersions) := Wasm.files_of_sorted hnames (by decide +kernel)
  obtain ⟨publications, hlog, hfirst⟩ := publishAll_noted ⟨.str "andr1adodb"⟩
    (s := siteWith twoVersions) answers_obliging hfiles none
  refine ⟨answers_obliging, hfiles, by decide +kernel, ?_⟩
  rw [hlog]
  exact (filterMap_storedFile? _ publications).trans (hfirst.trans (by decide +kernel))

end Bootstrap

end CrossChain
