import CrossChain.Proofs.Cache.Loading

/-!
# Caches side by side

Keeping the cache of one chain leaves what is loaded of another as it was, unless both chain ids
lead to one file (`look_save`).  Chain ids whose files have one name lead to one file as far as
their paths can be used at all (`look_of_fileName_eq`).
-/

namespace CrossChain

namespace FileTree

variable {t t' : FileTree} {p : Path} {e : FileEntry}

/-- What is found under a path is found there while everything stays where it is. -/
theorem KeepsEntries.look (h : KeepsEntries t t') (hlook : t.look p = .ok (some e)) :
    t'.look p = .ok (some e) := by
  obtain ⟨q, hplace, hentry⟩ := place_of_look hlook
  rw [FileTree.look, place_mono h.keepsDirectories hplace]
  exact congrArg Except.ok (h q e hentry)

/-- An entry that is made elsewhere, and not over a directory, does not change what is found. -/
theorem look_withEntry_of_ne {q : Place} {e' : FileEntry} (hlook : t.look p = .ok (some e))
    (hfree : t.entry? q ≠ some .directory) (hq : p.target ≠ q) :
    (t.withEntry q e').look p = .ok (some e) := by
  obtain ⟨place, hplace, hentry⟩ := place_of_look hlook
  rw [FileTree.look, place_mono (keepsDirectories_withEntry hfree e') hplace]
  rw [← eq_target_of_place hplace] at hq
  exact congrArg Except.ok ((entry?_withEntry_of_ne hq e').trans hentry)

end FileTree

namespace Cache

variable {d : Path} {chainId other : Text} {t t' : FileTree}

/-- A cache that is loaded comes from a file under the path of its chain id. -/
theorem look_of_load [Json.Limits] {c : Cache} (hload : load d chainId t = .ok (some c) t') :
    ∃ content, t.look (path d chainId) = .ok (some (.file content)) ∧
      ofContent content = .ok (some c) := by
  obtain ⟨found, houtcome, hloads⟩ := loads d chainId t
  rw [Act.outcome, hload] at houtcome
  obtain ⟨rfl, -⟩ := Prod.mk.inj houtcome
  cases hloads with
  | @file content _ hlook reads =>
    refine ⟨content, hlook, ?_⟩
    have hrun := load_of_look_file hlook
    rw [hload] at hrun
    exact (Act.ofExcept_eq_ok hrun.symm).1

theorem load_of_look [Json.Limits] {c : Cache} {content : List UInt8}
    (hlook : t.look (path d chainId) = .ok (some (.file content)))
    (hcontent : ofContent content = .ok (some c)) : load d chainId t = .ok (some c) t := by
  rw [load_of_look_file hlook, hcontent]
  rfl

/-- From a directory on, the names of two files that are one lead to one place. -/
theorem walk_last_of_fileName_eq (hname : fileName chainId = fileName other) {blamed blamed' : Text}
    {home q : Place} (hwalk : t.walk blamed home [chainId ++ text ".cache.json"] = .ok q) :
    t.walk blamed' home [other ++ text ".cache.json"] = .ok q := by
  have hname' : FileName.ofText (chainId ++ text ".cache.json") =
      FileName.ofText (other ++ text ".cache.json") := hname
  rw [FileTree.walk] at hwalk ⊢
  split at hwalk
  · cases hwalk
  · cases hwalk
  · next hdirectory =>
    rw [if_neg ne_up, hname'] at hwalk
    rw [if_neg ne_up]
    split at hwalk
    · cases hwalk
    · next hshort =>
      rw [if_neg hshort]
      exact hwalk

/-- Where the files of two chain ids have one name and the path of one of them leads to something,
the path of the other leads there as well, if it is a path at all. -/
theorem look_of_fileName_eq (hid : 47 ∉ chainId) (hother : 47 ∉ other)
    (hname : fileName chainId = fileName other) {e : FileEntry}
    (hlook : t.look (path d chainId) = .ok (some e)) (hvalid : (path d other).Valid) :
    t.look (path d other) = .ok (some e) := by
  obtain ⟨q, hplace, hentry⟩ := FileTree.place_of_look hlook
  have hwalk := (FileTree.place_eq_ok.1 hplace).2
  have hparts : ∀ {chainId : Text}, 47 ∉ chainId →
      (path d chainId).parts = d.parts ++ [chainId ++ text ".cache.json"] := by
    intro chainId hid
    rw [path_eq hid]
  rw [start_path hid, hparts hid, FileTree.walk_append] at hwalk
  obtain ⟨home, hhome, hlast⟩ := Act.except_bind_eq_ok hwalk
  have hplace' : t.place (path d other) = .ok q := by
    refine FileTree.place_eq_ok.2 ⟨hvalid, ?_⟩
    have hhome' : t.walk (path d other).toText d.start d.parts = .ok home :=
      FileTree.walk_mono (fun _ h => h) hhome
    rw [start_path hother, hparts hother, FileTree.walk_append, hhome']
    exact walk_last_of_fileName_eq hname hlast
  rw [FileTree.look, hplace']
  exact congrArg Except.ok hentry

/-- Keeping the cache of another chain id leaves what is found under the path of this one, unless
the same is found under the path of the other. -/
theorem look_save (hid : 47 ∉ chainId) (hother : 47 ∉ other) (c : Cache) {e : FileEntry}
    (hlook : t.look (path d chainId) = .ok (some e)) :
    FileTree.look ((save d other c).final t) (path d chainId) = .ok (some e) ∨
      t.look (path d other) = .ok (some e) := by
  have hensure := FileTree.keepsEntries_ensureDirectory d t
  cases hensured : FileTree.ensureDirectory d t with
  | error f u =>
    rw [Act.final_error hensured] at hensure
    rw [Act.final_error (save_of_refused hother hensured)]
    exact .inl (hensure.look hlook)
  | ok _ u =>
    rw [Act.final_ok hensured] at hensure
    have hlook' := hensure.look hlook
    rw [Act.final, Act.outcome_congr (save_of_ensured hother hensured)]
    rcases @rewrite_final d other u c with
      ⟨q, hplace, hfree, hrun⟩ | ⟨f, hrun⟩
    · rw [Act.outcome_congr hrun, Act.outcome_ofExcept]
      by_cases hname : fileName chainId = fileName other
      · exact .inr (look_of_fileName_eq hid hother hname hlook (FileTree.place_eq_ok.1 hplace).1)
      · refine .inl (FileTree.look_withEntry_of_ne hlook' hfree fun htarget => hname ?_)
        rw [FileTree.eq_target_of_place hplace, target_path hid, target_path hother] at htarget
        exact Place.child_inj htarget
    · rw [Act.outcome_error hrun]
      exact .inl hlook'

end Cache

end CrossChain
