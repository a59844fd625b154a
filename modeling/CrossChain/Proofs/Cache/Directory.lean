import CrossChain.Proofs.Cache.Content
import CrossChain.Proofs.Files.Tree

/-!
# The directory of the caches

Where the directory stands, the file of a chain id is the entry of one name in it.  Keeping a cache
writes that entry, as far as the cache can be written, or leaves the files as they are
(`save_cases`), and what is loaded is what the entry says (`load_of_content`).  Whatever the chain
id and the directory, keeping a cache makes no other file than that one (`file_of_save`), and only
from there is anything loaded (`content_of_load`).
-/

namespace CrossChain

namespace Cache

/-- The name of the file of a chain id. -/
def fileName (chainId : Text) : FileName := FileName.ofText (chainId ++ ".cache.json")

theorem ofText_of_scalars {s : Text} (h : ∀ c ∈ s, c.isSurrogate = false) :
    FileName.ofText s = s.flatMap Utf8.encodePoint := by
  rw [FileName.ofText, List.flatMap_def, List.flatMap_def]
  congr 1
  apply List.map_congr_left
  intro c hc
  have hscalar := Utf8.isSurrogate_eq_false.1 (h c hc)
  have hbyte : FileName.isByte c = false := by
    simp only [FileName.isByte, Bool.and_eq_false_iff, decide_eq_false_iff_not]
    omega
  rw [FileName.bytesOf, hbyte]
  rfl

/-- Different chain ids without surrogates have files of different names. -/
theorem fileName_inj {a b : Text} (ha : ∀ c ∈ a, c.isSurrogate = false)
    (hb : ∀ c ∈ b, c.isSurrogate = false) (h : fileName a = fileName b) : a = b := by
  have hsuffix : ∀ {s : Text}, (∀ c ∈ s, c.isSurrogate = false) →
      ∀ c ∈ s ++ text ".cache.json", c.isSurrogate = false := by
    intro s hs c hc
    have htext : (text ".cache.json").all (fun c => !c.isSurrogate) = true := rfl
    rcases List.mem_append.1 hc with hc | hc
    · exact hs c hc
    · simpa using List.all_eq_true.1 htext c hc
  have ha' := Utf8.complete_decodeFrom (hsuffix ha) 0 0
  have hb' := Utf8.complete_decodeFrom (hsuffix hb) 0 0
  have hsame : (a ++ text ".cache.json").flatMap Utf8.encodePoint =
      (b ++ text ".cache.json").flatMap Utf8.encodePoint := by
    rw [← ofText_of_scalars (hsuffix ha), ← ofText_of_scalars (hsuffix hb)]
    exact h
  rw [hsame, hb'] at ha'
  exact List.append_cancel_right (Except.ok.inj ha').symm

/-- The path of the file of a chain id can be used. -/
structure Storable (d : Path) (chainId : Text) : Prop where
  valid : (path d chainId).Valid
  short : (fileName chainId).length ≤ FileTree.maxName

/-! ## The path of a file -/

section Path

variable {d : Path} {chainId : Text} {t : FileTree} {home : Place}

theorem path_eq (hid : 47 ∉ chainId) :
    path d chainId = ⟨d.root, d.parts ++ [chainId ++ text ".cache.json"]⟩ := by
  have hslash : 47 ∉ chainId ++ text ".cache.json" := by
    rw [List.mem_append, not_or]
    exact ⟨hid, by decide⟩
  have hlength : 1 < (chainId ++ text ".cache.json").length := by
    rw [List.length_append]
    exact Nat.lt_of_lt_of_le (by decide) (Nat.le_add_left _ _)
  have hempty : chainId ++ text ".cache.json" ≠ [] := by
    intro h
    rw [h] at hlength
    cases hlength
  have hdot : chainId ++ text ".cache.json" ≠ text "." := by
    intro h
    rw [h] at hlength
    exact absurd hlength (by decide)
  rw [path, Path.child, Path.ofText_of_name hslash hempty hdot]
  rfl

theorem parent_path (hid : 47 ∉ chainId) : (path d chainId).parent = d := by
  rw [path_eq hid, Path.parent, List.dropLast_concat]

theorem start_path (hid : 47 ∉ chainId) : (path d chainId).start = d.start := by
  rw [path_eq hid]
  rfl

theorem ne_up : chainId ++ text ".cache.json" ≠ text ".." := by
  intro hdots
  have hlength := congrArg List.length hdots
  rw [List.length_append] at hlength
  have htail : (text ".cache.json").length = 11 := rfl
  have hdots : (text "..").length = 2 := rfl
  omega

theorem target_path (hid : 47 ∉ chainId) :
    (path d chainId).target = d.target.child (fileName chainId) := by
  have hparts : (path d chainId).parts = d.parts ++ [chainId ++ text ".cache.json"] := by
    rw [path_eq hid]
  rw [Path.target, start_path hid, hparts, List.foldl_append, List.foldl_cons, List.foldl_nil,
    Place.step, if_neg ne_up]
  rfl

/-- The way to a file goes through the directory. -/
theorem walk_path (hid : 47 ∉ chainId) (h : t.DirectoryAt d home) :
    t.walk (path d chainId).toText (path d chainId).start (path d chainId).parts =
      if FileTree.maxName < (fileName chainId).length then
        .error (.file (.nameTooLong (path d chainId).toText))
      else .ok (home.child (fileName chainId)) := by
  have hhome : t.walk (path d chainId).toText d.start d.parts = .ok home :=
    FileTree.walk_mono (fun _ h => h) (FileTree.place_eq_ok.1 h.place).2
  have hparts : (path d chainId).parts = d.parts ++ [chainId ++ text ".cache.json"] := by
    rw [path_eq hid]
  rw [start_path hid, hparts, FileTree.walk_append, hhome]
  show FileTree.walk t _ home [chainId ++ text ".cache.json"] = _
  rw [FileTree.walk, h.directory]
  simp only [if_neg ne_up]
  rfl

theorem place_path (hid : 47 ∉ chainId) (h : t.DirectoryAt d home)
    (hstorable : Storable d chainId) :
    t.place (path d chainId) = .ok (home.child (fileName chainId)) := by
  refine FileTree.place_eq_ok.2 ⟨hstorable.valid, ?_⟩
  rw [walk_path hid h, if_neg (Nat.not_lt.2 hstorable.short)]

theorem storable_of_place (hid : 47 ∉ chainId) (h : t.DirectoryAt d home) {q : Place}
    (hplace : t.place (path d chainId) = .ok q) : Storable d chainId := by
  obtain ⟨hvalid, hwalk⟩ := FileTree.place_eq_ok.1 hplace
  rw [walk_path hid h] at hwalk
  refine ⟨hvalid, Nat.not_lt.1 fun hlong => ?_⟩
  rw [if_pos hlong] at hwalk
  cases hwalk

end Path

/-! ## Keeping a cache -/

/-- Writing the file of a cache where its directory is there. -/
def rewrite (d : Path) (chainId : Text) (c : Cache) : Act FileTree Path := do
  FileTree.write (path d chainId) []
  FileTree.write (path d chainId) c.content
  if !c.isWritable then throw (.value .unwritable)
  return path d chainId

/-- How writing the file of a cache ends: with its path, if the cache can be written as a whole. -/
def written (d : Path) (chainId : Text) (c : Cache) : Except Failure Path :=
  if c.isWritable then .ok (path d chainId) else .error (.value .unwritable)

/-- The tree with the cache of a chain id in a directory, as far as it can be written. -/
def stored (t : FileTree) (home : Place) (chainId : Text) (c : Cache) : FileTree :=
  t.withEntry (home.child (fileName chainId)) (.file c.content)

section Save

variable {d : Path} {chainId : Text} {t t' : FileTree} {home : Place} {c : Cache}

/-- A file of caches can be written: no directory stands in its place. -/
structure Writable (t : FileTree) (d : Path) (home : Place) (chainId : Text) : Prop where
  storable : Storable d chainId
  free : t.entry? (home.child (fileName chainId)) ≠ some .directory

theorem written_of_isWritable (h : c.isWritable = true) :
    written d chainId c = .ok (path d chainId) := if_pos h

theorem written_eq_ok {p : Path} (h : written d chainId c = .ok p) :
    c.isWritable = true ∧ p = path d chainId := by
  rw [written] at h
  split at h
  · next hcan =>
    cases h
    exact ⟨hcan, rfl⟩
  · cases h

theorem written_eq_error {e : Failure} (h : written d chainId c = .error e) :
    c.isWritable = false ∧ e = .value .unwritable := by
  rw [written] at h
  split at h
  · cases h
  · next hcan =>
    cases h
    exact ⟨Bool.eq_false_iff.2 hcan, rfl⟩

theorem rewrite_run {q : Place} (hplace : t.place (path d chainId) = .ok q)
    (hfree : t.entry? q ≠ some .directory) (c : Cache) :
    rewrite d chainId c t =
      Act.ofExcept (written d chainId c) (t.withEntry q (.file c.content)) := by
  have hemptied := FileTree.write_run hplace hfree []
  -- The path leads to the same place after the file was emptied, since no directory went.
  have hplace' := FileTree.place_mono (FileTree.keepsDirectories_withEntry hfree (.file [])) hplace
  have hfree' : FileTree.entry? (t.withEntry q (.file [])) q ≠ some .directory := by
    rw [FileTree.entry?_withEntry_self (FileTree.names_ne_nil hfree)]
    exact nofun
  have hwritten := FileTree.write_run hplace' hfree' c.content
  rw [FileTree.withEntry_withEntry] at hwritten
  rw [rewrite, Act.bind_run_ok hemptied, Act.bind_run_ok hwritten, written]
  cases c.isWritable <;> rfl

theorem rewrite_final (c : Cache) :
    (∃ q, t.place (path d chainId) = .ok q ∧ t.entry? q ≠ some .directory ∧
      rewrite d chainId c t =
        Act.ofExcept (written d chainId c) (t.withEntry q (.file c.content))) ∨
    ∃ e, rewrite d chainId c t = .error e t := by
  cases hplace : t.place (path d chainId) with
  | error e => exact .inr ⟨e, Act.bind_run_error (FileTree.write_of_error hplace [])⟩
  | ok q =>
    by_cases hfree : t.entry? q = some .directory
    · exact .inr ⟨_, Act.bind_run_error (FileTree.write_of_directory hplace hfree [])⟩
    · exact .inl ⟨q, rfl, hfree, rewrite_run hplace hfree c⟩

theorem rewrite_cases (hid : 47 ∉ chainId) (h : t.DirectoryAt d home) (c : Cache) :
    (Writable t d home chainId ∧
      rewrite d chainId c t = Act.ofExcept (written d chainId c) (stored t home chainId c)) ∨
    ∃ e, rewrite d chainId c t = .error e t := by
  refine (rewrite_final c).imp_left ?_
  rintro ⟨q, hplace, hfree, hrun⟩
  have hstorable := storable_of_place hid h hplace
  obtain rfl : home.child (fileName chainId) = q :=
    Except.ok.inj ((place_path hid h hstorable).symm.trans hplace)
  exact ⟨⟨hstorable, hfree⟩, hrun⟩

/-- Keeping a cache ends where its directory cannot be made, or goes on with its file. -/
theorem save_ways (d : Path) (chainId : Text) (c : Cache) (t : FileTree) :
    (∃ e u, FileTree.ensureDirectory (path d chainId).parent t = .error e u ∧
      save d chainId c t = .error e u) ∨
    ∃ u, FileTree.ensureDirectory (path d chainId).parent t = .ok () u ∧
      save d chainId c t = rewrite d chainId c u := by
  cases hensured : FileTree.ensureDirectory (path d chainId).parent t with
  | error e u => exact .inl ⟨e, u, rfl, Act.bind_run_error hensured⟩
  | ok _ u => exact .inr ⟨u, rfl, Act.bind_run_ok hensured⟩

theorem save_of_ensured (hid : 47 ∉ chainId) (h : FileTree.ensureDirectory d t = .ok () t') :
    save d chainId c t = rewrite d chainId c t' := by
  rw [save, saveMade, parent_path hid]
  exact Act.bind_run_ok h

theorem save_of_refused {e : Failure} (hid : 47 ∉ chainId)
    (h : FileTree.ensureDirectory d t = .error e t') : save d chainId c t = .error e t' := by
  rw [save, saveMade, parent_path hid]
  exact Act.bind_run_error h

theorem save_run {u : FileTree} (hid : 47 ∉ chainId)
    (hensured : FileTree.ensureDirectory d t = .ok () u) (hhome : u.DirectoryAt d home)
    (h : Writable u d home chainId) (c : Cache) :
    save d chainId c t = Act.ofExcept (written d chainId c) (stored u home chainId c) :=
  (save_of_ensured hid hensured).trans (rewrite_run (place_path hid hhome h.storable) h.free c)

/-- A cache that was kept was written, as a whole, where its directory was made. -/
theorem save_eq_ok (hid : 47 ∉ chainId) {p : Path} (hsave : save d chainId c t = .ok p t') :
    ∃ u home, FileTree.ensureDirectory d t = .ok () u ∧ u.DirectoryAt d home ∧
      Writable u d home chainId ∧ c.isWritable = true ∧ p = path d chainId ∧
        t' = stored u home chainId c := by
  rcases save_ways d chainId c t with ⟨e, u, -, hrun⟩ | ⟨u, hensured, hrun⟩
  · rw [hrun] at hsave
    cases hsave
  · rw [parent_path hid] at hensured
    obtain ⟨home, hhome⟩ := FileTree.directoryAt_of_ensureDirectory hensured
    rw [hrun] at hsave
    rcases rewrite_cases hid hhome c with ⟨hwritable, hrun⟩ | ⟨e, hrun⟩
    · rw [hrun] at hsave
      obtain ⟨hwritten, rfl⟩ := Act.ofExcept_eq_ok hsave
      obtain ⟨hcan, rfl⟩ := written_eq_ok hwritten
      exact ⟨u, home, hensured, hhome, hwritable, hcan, rfl, rfl⟩
    · rw [hrun] at hsave
      cases hsave

/-- In a directory that is there a cache is kept, or it is cut off where it cannot be written, or
the files are as they were. -/
theorem save_cases (hid : 47 ∉ chainId) (h : t.DirectoryAt d home) (c : Cache) :
    (Writable t d home chainId ∧ c.isWritable = true ∧
      save d chainId c t = .ok (path d chainId) (stored t home chainId c)) ∨
    (Writable t d home chainId ∧ c.isWritable = false ∧
      save d chainId c t = .error (.value .unwritable) (stored t home chainId c)) ∨
    ∃ e, save d chainId c t = .error e t := by
  rw [save_of_ensured hid h.ensureDirectory_run]
  rcases rewrite_cases hid h c with ⟨hwritable, hrun⟩ | herror
  · rw [hrun, written]
    cases c.isWritable with
    | true => exact .inl ⟨hwritable, rfl, rfl⟩
    | false => exact .inr (.inl ⟨hwritable, rfl, rfl⟩)
  · exact .inr (.inr herror)

theorem Writable.keepsDirectories (h : Writable t d home chainId) (c : Cache) :
    t.KeepsDirectories (stored t home chainId c) :=
  FileTree.keepsDirectories_withEntry h.free (.file c.content)

theorem entry?_stored_self :
    FileTree.entry? (stored t home chainId c) (home.child (fileName chainId)) =
      some (.file c.content) :=
  FileTree.entry?_withEntry_self (home.child_names_ne_nil _) _

theorem entry?_stored_of_ne {name : FileName} (h : name ≠ fileName chainId) :
    FileTree.entry? (stored t home chainId c) (home.child name) = t.entry? (home.child name) :=
  FileTree.entry?_withEntry_of_ne (fun hplace => h (Place.child_inj hplace)) _

/-- Where keeping a cache fails, no file is new, unless the cache cannot be written. -/
theorem noNewFile_of_save_error {e : Failure} (h : save d chainId c t = .error e t') :
    t.NoNewFile t' ∨ c.isWritable = false ∧ e = .value .unwritable := by
  have hwithin := FileTree.within_ensureDirectory (path d chainId).parent
  rcases save_ways d chainId c t with ⟨e', u, hensured, hrun⟩ | ⟨u, hensured, hrun⟩
  · rw [hrun] at h
    cases h
    exact .inl (hwithin.error hensured)
  · rw [hrun] at h
    rcases rewrite_final (t := u) c with ⟨q, -, -, hwritten⟩ | ⟨e', herror⟩
    · rw [hwritten] at h
      exact .inr (written_eq_error (Act.ofExcept_eq_error h).1)
    · rw [herror] at h
      cases h
      exact .inl (hwithin.ok hensured)

/-- Once a cache was kept, no file is there that was not there before, but for the file of the chain
id with that cache. -/
theorem file_of_save {p : Path} (h : save d chainId c t = .ok p t') {q : Place}
    {content : List UInt8} (hfile : t'.entry? q = some (.file content)) :
    t.entry? q = some (.file content) ∨ q = (path d chainId).target ∧ content = c.content := by
  rcases save_ways d chainId c t with ⟨e, u, -, hrun⟩ | ⟨u, hensured, hrun⟩
  · rw [hrun] at h
    cases h
  · rw [hrun] at h
    rcases rewrite_final (t := u) c with ⟨q', hplace, hfree, hwritten⟩ | ⟨e, herror⟩
    · rw [hwritten] at h
      obtain ⟨-, rfl⟩ := Act.ofExcept_eq_ok h
      by_cases hq : q = q'
      · subst hq
        rw [FileTree.entry?_withEntry_self (FileTree.names_ne_nil hfree)] at hfile
        cases hfile
        exact .inr ⟨FileTree.eq_target_of_place hplace, rfl⟩
      · rw [FileTree.entry?_withEntry_of_ne hq] at hfile
        have hwithin := FileTree.within_ensureDirectory (path d chainId).parent
        exact .inl (hwithin.ok hensured q content hfile)
    · rw [herror] at h
      cases h

/-- After a cache was kept its directory stands somewhere, with its file in it. -/
theorem stands_of_save (hid : 47 ∉ chainId) {p : Path} (h : save d chainId c t = .ok p t') :
    ∃ home, t'.DirectoryAt d home ∧ Storable d chainId ∧
      t'.entry? (home.child (fileName chainId)) = some (.file c.content) := by
  obtain ⟨u, home, -, hhome, hwritable, -, -, rfl⟩ := save_eq_ok hid h
  exact ⟨home, hhome.mono (hwritable.keepsDirectories c), hwritable.storable, entry?_stored_self⟩

end Save

/-! ## Loading a cache -/

section Load

variable [Json.Limits] {d : Path} {chainId : Text} {t t' : FileTree} {home : Place} {c : Cache}

/-- Loading looks at the files and leaves them alone. -/
theorem within_load (d : Path) (chainId : Text) : Act.Within (· = ·) (load d chainId) := by
  refine Act.within_get.bind fun t => (Act.within_ofExcept _).bind fun found => ?_
  by_cases hnone : found.isNone = true
  · rw [if_pos hnone]
    exact Act.within_pure none
  · rw [if_neg hnone]
    cases FileTree.read t (path d chainId) with
    | ok content => exact Act.within_ofExcept _
    | error e =>
      by_cases hsystem : e.isSystem = true
      · simp only [if_pos hsystem]
        exact Act.within_pure none
      · simp only [if_neg hsystem]
        exact Act.within_throw e

theorem storable_of_load (hid : 47 ∉ chainId) (h : t.DirectoryAt d home)
    (hload : load d chainId t = .ok (some c) t') : Storable d chainId := by
  rw [load, Act.get_bind] at hload
  obtain ⟨found, u, hlook, hload⟩ := Act.bind_eq_ok hload
  have hlooked := (Act.ofExcept_eq_ok hlook).1
  unfold FileTree.look at hlooked
  split at hlooked
  · next q hq => exact storable_of_place hid h hq
  · cases hlooked
  · cases hlooked
    cases hload

/-- What is loaded is what the file of the chain id says. -/
theorem content_of_load (hload : load d chainId t = .ok (some c) t') :
    ∃ content, t.entry? (path d chainId).target = some (.file content) ∧
      ofContent content = .ok (some c) := by
  rw [load, Act.get_bind] at hload
  obtain ⟨found, u, hlook, hload⟩ := Act.bind_eq_ok hload
  by_cases hnone : found.isNone = true
  · rw [if_pos hnone] at hload
    cases hload
  · rw [if_neg hnone] at hload
    cases hread : t.read (path d chainId) with
    | ok content =>
      rw [hread] at hload
      exact ⟨content, FileTree.entry?_of_read hread, (Act.ofExcept_eq_ok hload).1⟩
    | error e =>
      rw [hread] at hload
      by_cases hsystem : e.isSystem = true
      · simp only [if_pos hsystem] at hload
        cases hload
      · simp only [if_neg hsystem] at hload
        cases hload

theorem load_of_none (hid : 47 ∉ chainId) (h : t.DirectoryAt d home)
    (hstorable : Storable d chainId) (hentry : t.entry? (home.child (fileName chainId)) = none) :
    load d chainId t = .ok none t := by
  have hlook : t.look (path d chainId) = .ok none := by
    rw [FileTree.look, place_path hid h hstorable]
    exact congrArg Except.ok hentry
  rw [load, Act.get_bind, hlook]
  rfl

theorem load_of_content (hid : 47 ∉ chainId) (h : t.DirectoryAt d home)
    (hstorable : Storable d chainId) (hsound : Sound c)
    (hentry : t.entry? (home.child (fileName chainId)) = some (.file c.content)) :
    load d chainId t = .ok (some c.reloaded) t := by
  have hlook : t.look (path d chainId) = .ok (some (.file c.content)) := by
    rw [FileTree.look, place_path hid h hstorable]
    exact congrArg Except.ok hentry
  have hread : t.read (path d chainId) = .ok c.content := by
    rw [FileTree.read, place_path hid h hstorable]
    simp only [bind, Except.bind, hentry]
    rfl
  rw [load, Act.get_bind, hlook, Act.ofExcept_ok, pure_bind, hread]
  simp only [ofContent_content hsound]
  rfl

end Load

end Cache

end CrossChain
