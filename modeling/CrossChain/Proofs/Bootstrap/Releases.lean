import CrossChain.Proofs.Bootstrap.Publications
import CrossChain.Proofs.Text.Phrases
import Mathlib.Data.List.Nodup

/-!
# Contract files and their releases

The file of a release is named `andromeda_<name>@<version>.wasm`.  Name and version are read off the
file name by removing the family and the ending wherever they are found, so they are read back just
when the name does not hold the family and the version not the ending (`nameOf_eq_iff`,
`versionOf_eq_iff`).  A directory with the files of releases is understood, by looking a name up as
by listing the names, just when none of the names holds the family (`releases_read_back`).
-/

namespace CrossChain

namespace Wasm

/-! ## Names of files -/

/-- What the names of contract files start with. -/
def family : Text := "andromeda_"

/-- A contract in one of its versions.  Neither its name nor its version has a slash or an `@`. -/
structure Release where
  name : Text
  version : Text
  slash_not_mem : 47 ∉ name ++ version
  at_not_mem : 64 ∉ name ++ version

/-- The name of the file of a release. -/
def Release.fileName (r : Release) : Text := family ++ r.name ++ 64 :: (r.version ++ ending)

/-- The file of a release in a directory. -/
def Release.file (directory : Path) (r : Release) : Path :=
  ⟨directory.root, directory.parts ++ [r.fileName]⟩

variable {r : Release} {file : Path}

theorem Release.name_file (directory : Path) (r : Release) :
    (r.file directory).name = r.fileName := by
  rw [file, Path.name, List.getLast?_concat, Option.getD_some]

/-- Below any directory a path to the file of a release has the name of the file. -/
theorem Release.name_ofText {parent : Text} (hparent : parent = [] ∨ parent.getLast? = some 47)
    (r : Release) : (Path.ofText (parent ++ r.fileName)).name = r.fileName := by
  have hslash : 47 ∉ r.fileName := by
    have hfamily : 47 ∉ family := by decide
    have hending : 47 ∉ ending := by decide
    have hsep : (47 : CodePoint) ≠ 64 := by decide
    have hparts := r.slash_not_mem
    simp only [fileName, List.mem_append, List.mem_cons, not_or] at hparts ⊢
    exact ⟨⟨hfamily, hparts.1⟩, hsep, hparts.2, hending⟩
  exact Path.name_ofText_append hparent hslash (List.cons_ne_nil _ _)
    (fun h => absurd (List.cons.inj h).1 (by decide))

theorem nameOf_release (h : file.name = r.fileName) :
    nameOf file = Text.without family r.name := by
  have hname : 64 ∉ family ++ r.name := by
    have hfamily : 64 ∉ family := by decide
    exact fun h => (List.mem_append.1 h).elim hfamily fun h =>
      r.at_not_mem (List.mem_append_left _ h)
  rw [nameOf, h, Release.fileName, Text.before_append hname]
  exact Text.without_self_append (List.cons_ne_nil _ _) r.name

theorem versionOf_release (h : file.name = r.fileName) :
    versionOf file = Text.without ending r.version := by
  have hversion : 64 ∉ r.version ++ ending := by
    have hending : 64 ∉ ending := by decide
    exact fun h => (List.mem_append.1 h).elim (fun h => r.at_not_mem (List.mem_append_right _ h))
      hending
  rw [versionOf, h, Release.fileName, Text.afterLast_append hversion]
  exact Text.without_append_self (by decide) r.version

/-- The name of a release is read back just when it does not hold the family. -/
theorem nameOf_eq_iff (h : file.name = r.fileName) :
    nameOf file = r.name ↔ ¬ family <:+: r.name := by
  rw [nameOf_release h]
  exact Text.without_eq_self_iff (List.cons_ne_nil _ _)

/-- The version of a release is read back just when it does not hold the ending. -/
theorem versionOf_eq_iff (h : file.name = r.fileName) :
    versionOf file = r.version ↔ ¬ ending <:+: r.version := by
  rw [versionOf_release h]
  exact Text.without_eq_self_iff (List.cons_ne_nil _ _)

/-! ## Directories of releases -/

/-- The contract files of a directory are those of releases with different names. -/
structure Holds (t : FileTree) (directory : Path) (releases : List Release) : Prop where
  listed : ∃ names, t.names directory = .ok names ∧
    (names.filter ending.isSuffixOf).Perm (releases.map Release.fileName)
  names_nodup : (releases.map Release.name).Nodup

section Directory

variable {t : FileTree} {directory : Path} {releases : List Release} {contents : List Path}

theorem Holds.exists_files (h : Holds t directory releases) :
    ∃ contents, files t directory = .ok contents ∧
      contents.Perm (releases.map (·.file directory)) := by
  obtain ⟨names, hnames, hperm⟩ := h.listed
  refine ⟨((names.filter ending.isSuffixOf).mergeSort Text.le).map
    fun name => ⟨directory.root, directory.parts ++ [name]⟩, files_eq hnames, ?_⟩
  have hfiles := ((List.mergeSort_perm _ Text.le).trans hperm).map
    fun name => (⟨directory.root, directory.parts ++ [name]⟩ : Path)
  rwa [List.map_map] at hfiles

/-- What is found under a name is a file with a contract of that name. -/
theorem nameOf_of_find {name : Text} (h : find t directory name = .ok file) :
    nameOf file = name := by
  rw [find] at h
  cases hfiles : files t directory with
  | error e => rw [hfiles] at h; cases h
  | ok contents =>
    rw [hfiles] at h
    cases hfound : contents.find? fun file => nameOf file == name with
    | none => simp only [bind, Except.bind, hfound] at h; cases h
    | some first =>
      simp only [bind, Except.bind, hfound] at h
      cases h
      exact beq_iff_eq.1 (List.find?_some (p := fun f => nameOf f == name) hfound)

/-- If all names are read back, a name leads to the file of its release. -/
theorem find_release (hfiles : files t directory = .ok contents)
    (hcontents : contents.Perm (releases.map (·.file directory)))
    (hnodup : (releases.map Release.name).Nodup)
    (hread : ∀ r ∈ releases, ¬ family <:+: r.name) (hr : r ∈ releases) :
    find t directory r.name = .ok (r.file directory) := by
  have hname : ∀ {r}, r ∈ releases → nameOf (r.file directory) = r.name := fun hr =>
    (nameOf_eq_iff (Release.name_file directory _)).2 (hread _ hr)
  have hmem : r.file directory ∈ contents := hcontents.mem_iff.2 (List.mem_map_of_mem hr)
  have hfind := find_of_mem hfiles hmem
  rw [hname hr] at hfind
  -- The file that comes first has the same name, so it is that of the same release.
  obtain ⟨first, hfirst, hfile⟩ := List.mem_map.1 (hcontents.mem_iff.1 (firstLike_mem hmem))
  have hsame := nameOf_firstLike hmem
  rw [← hfile, hname hfirst, hname hr] at hsame
  rw [hfind, ← hfile, List.inj_on_of_nodup_map hnodup hfirst hr hsame]

/-! ### Listed names -/

/-- The names that are none of the system's. -/
def applicationsAmong (names : List Text) : List Text :=
  names.filter fun name => !systemNames.contains name

theorem Holds.applicationNames_perm (h : Holds t directory releases) :
    ∃ names, applicationNames t directory = .ok names ∧
      names.Perm
        (applicationsAmong ((releases.map Release.name).map (Text.without family))) := by
  obtain ⟨contents, hfiles, hcontents⟩ := h.exists_files
  have hnames : (contents.map nameOf).Perm
      ((releases.map Release.name).map (Text.without family)) := by
    refine (hcontents.map nameOf).trans (.of_eq ?_)
    rw [List.map_map, List.map_map]
    exact List.map_congr_left fun r _ => nameOf_release (r.name_file directory)
  refine ⟨_, applicationNames_eq hfiles, ?_⟩
  have hlisted : (applications contents).map nameOf = applicationsAmong (contents.map nameOf) := by
    rw [applicationsAmong, List.filter_map]
    rfl
  rw [hlisted]
  exact hnames.filter _

theorem not_family_of_system : ∀ name ∈ systemNames, ¬ family <:+: name := by decide

/-- How much of a listing a name takes up. -/
def spelledBy (name : Text) : Nat := if systemNames.contains name then 0 else name.length

/-- A name that holds the family is none of the system's, and takes up less without it. -/
theorem spelledBy_without_lt {name : Text} (h : family <:+: name) :
    spelledBy (Text.without family name) < spelledBy name := by
  have hsystem : systemNames.contains name = false :=
    Bool.eq_false_iff.2 fun hsystem => not_family_of_system name (List.contains_iff_mem.1 hsystem) h
  have hle : spelledBy (Text.without family name) ≤ (Text.without family name).length := by
    rw [spelledBy]
    split
    · exact Nat.zero_le _
    · exact Nat.le_refl _
  rw [spelledBy.eq_1 name, hsystem]
  exact Nat.lt_of_le_of_lt hle (Text.length_without_lt (List.cons_ne_nil _ _) h)

theorem spelledBy_without_le (name : Text) :
    spelledBy (Text.without family name) ≤ spelledBy name := by
  by_cases h : family <:+: name
  · exact Nat.le_of_lt (spelledBy_without_lt h)
  · rw [Text.without_of_not_infix h]

/-- How much the listing of names takes up. -/
def spelledIn (names : List Text) : Nat := (applicationsAmong names).flatten.length

theorem spelledIn_cons (name : Text) (names : List Text) :
    spelledIn (name :: names) = spelledBy name + spelledIn names := by
  rw [spelledIn, applicationsAmong, List.filter_cons, spelledBy]
  cases systemNames.contains name with
  | true => exact (Nat.zero_add _).symm
  | false => exact List.length_append

theorem spelledIn_without_le (names : List Text) :
    spelledIn (names.map (Text.without family)) ≤ spelledIn names := by
  induction names with
  | nil => exact Nat.le_refl 0
  | cons name names ih =>
    rw [List.map_cons, spelledIn_cons, spelledIn_cons]
    exact Nat.add_le_add (spelledBy_without_le name) ih

theorem spelledIn_without_lt {name : Text} {names : List Text} (hname : name ∈ names)
    (h : family <:+: name) :
    spelledIn (names.map (Text.without family)) < spelledIn names := by
  induction names with
  | nil => cases hname
  | cons first names ih =>
    rw [List.map_cons, spelledIn_cons, spelledIn_cons]
    rcases List.mem_cons.1 hname with rfl | hname
    · exact Nat.add_lt_add_of_lt_of_le (spelledBy_without_lt h) (spelledIn_without_le names)
    · exact Nat.add_lt_add_of_le_of_lt (spelledBy_without_le first) (ih hname)

/-- The names without the family, but those of the system, are the names but those of the system
just when no name holds the family. -/
theorem perm_without_iff (names : List Text) :
    (applicationsAmong (names.map (Text.without family))).Perm (applicationsAmong names) ↔
      ∀ name ∈ names, ¬ family <:+: name := by
  constructor
  · intro hperm name hname hfamily
    exact Nat.ne_of_lt (spelledIn_without_lt hname hfamily) hperm.flatten.length_eq
  · intro hread
    have hsame : names.map (Text.without family) = names :=
      (List.map_congr_left fun name hname => Text.without_of_not_infix (hread name hname)).trans
        (List.map_id names)
    rw [hsame]

end Directory

/-! ## The law -/

/-- A path to the file of a release, below any directory, gives back the name just when it does not
hold the family, and the version just when it does not hold the ending.  In a directory with the
files of releases of different names every name leads to the file of its release, and every name
that is none of the system's is listed once, just when no name holds the family. -/
theorem releases_read_back (parent : Text) (hparent : parent = [] ∨ parent.getLast? = some 47) :
    (∀ r : Release,
      (nameOf (Path.ofText (parent ++ r.fileName)) = r.name ↔ ¬ family <:+: r.name) ∧
      (versionOf (Path.ofText (parent ++ r.fileName)) = r.version ↔ ¬ ending <:+: r.version)) ∧
    ∀ (t : FileTree) (directory : Path) (releases : List Release), Holds t directory releases →
      ((∀ r ∈ releases, find t directory r.name = .ok (r.file directory)) ↔
        ∀ r ∈ releases, ¬ family <:+: r.name) ∧
      ((∃ names, applicationNames t directory = .ok names ∧
          names.Perm (applicationsAmong (releases.map Release.name))) ↔
        ∀ r ∈ releases, ¬ family <:+: r.name) := by
  refine ⟨fun r => ?_, fun t directory releases h => ⟨⟨?_, ?_⟩, ?_⟩⟩
  · have hname := Release.name_ofText hparent r
    exact ⟨nameOf_eq_iff hname, versionOf_eq_iff hname⟩
  · exact fun hfind r hr =>
      (nameOf_eq_iff (r.name_file directory)).1 (nameOf_of_find (hfind r hr))
  · intro hread r hr
    obtain ⟨contents, hfiles, hcontents⟩ := h.exists_files
    exact find_release hfiles hcontents h.names_nodup hread hr
  · obtain ⟨listed, hlisted, hperm⟩ := h.applicationNames_perm
    rw [← List.forall_mem_map (P := fun name => ¬ family <:+: name), ← perm_without_iff]
    constructor
    · rintro ⟨names, hnames, happlications⟩
      cases hlisted.symm.trans hnames
      exact hperm.symm.trans happlications
    · exact fun hsame => ⟨listed, hlisted, hperm.trans hsame⟩

/-! ### Three releases, and one that is not read back -/

/-- Two applications and a contract of the system, each in a version. -/
def threeReleases : List Release :=
  [⟨"cw20", "1.0.0", by decide, by decide⟩, ⟨"splitter", "1.2.0", by decide, by decide⟩,
    ⟨"vfs", "2.0.0", by decide, by decide⟩]

theorem holds_threeReleases :
    Holds (Bootstrap.contractsOf (threeReleases.map Release.fileName)) (Path.ofText "contracts")
      threeReleases where
  listed := ⟨threeReleases.map Release.fileName, rfl, .of_eq (by decide +kernel)⟩
  names_nodup := by decide +kernel

/-- Each of them is read back and found, and the two applications are listed. -/
theorem releases_read_back_three :
    let t := Bootstrap.contractsOf (threeReleases.map Release.fileName)
    let directory := Path.ofText "contracts"
    Holds t directory threeReleases ∧
      (∀ r ∈ threeReleases, nameOf (Path.ofText ("contracts/" ++ r.fileName)) = r.name) ∧
      (∀ r ∈ threeReleases, find t directory r.name = .ok (r.file directory)) ∧
      ∃ names, applicationNames t directory = .ok names ∧
        names.Perm [text "cw20", text "splitter"] := by
  have hread : ∀ r ∈ threeReleases, ¬ family <:+: r.name := by decide
  obtain ⟨hfile, hdirectory⟩ := releases_read_back "contracts/" (.inr rfl)
  obtain ⟨hfind, hlist⟩ := hdirectory _ _ _ holds_threeReleases
  exact ⟨holds_threeReleases, fun r hr => (hfile r).1.2 (hread r hr), hfind.2 hread,
    hlist.2 hread⟩

/-- A vault of the family's own name. -/
def vault : Release := ⟨"andromeda_vault", "1.0.0.wasm", by decide, by decide⟩

/-- Neither its name nor its version is read back; it is not found under its name, and is listed
under another. -/
theorem vault_misread :
    nameOf (Path.ofText ("contracts/" ++ vault.fileName)) ≠ vault.name ∧
      versionOf (Path.ofText ("contracts/" ++ vault.fileName)) ≠ vault.version ∧
      find (Bootstrap.contractsOf [vault.fileName]) (Path.ofText "contracts") vault.name =
        .error (.file (.noWasmFile "andromeda_vault" "contracts")) ∧
      applicationNames (Bootstrap.contractsOf [vault.fileName]) (Path.ofText "contracts") =
        .ok [text "vault"] := by
  have hnames : (Bootstrap.contractsOf [vault.fileName]).names (Path.ofText "contracts") =
      .ok [vault.fileName] := rfl
  have hfiles : files (Bootstrap.contractsOf [vault.fileName]) (Path.ofText "contracts") =
      .ok [vault.file (Path.ofText "contracts")] := files_of_sorted hnames (by decide +kernel)
  have hnone : [vault.file (Path.ofText "contracts")].find?
      (fun file => nameOf file == vault.name) = none := by decide +kernel
  refine ⟨by decide +kernel, by decide +kernel, ?_, ?_⟩
  · simp only [find, hfiles, bind, Except.bind, hnone]
    rfl
  · rw [applicationNames_eq hfiles]
    exact congrArg Except.ok (by decide +kernel)

end Wasm

end CrossChain
