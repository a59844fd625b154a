import CrossChain.Proofs.Cache.Loading
import CrossChain.Proofs.Files.Growth

/-!
# Caches that are kept apart

Two chains with cache files of different names keep their caches apart (`Apart`): keeping one leaves
what is found of the other (`Apart.spared_save`) and all contract files (`Apart.files_save`), and it
does not matter which of the two is kept first (`Apart.entry?_save_comm`).  So it is in a directory
that is there (`Alike`).  A directory that is missing is made by the first of the two, and then it
is there for both; this is not seen by the other where what is missing on the way goes down.
-/

namespace CrossChain

namespace Cache

/-! ## In a directory -/

/-- The directory of the caches stands at one place in two trees, and the same in the place of the
file of a chain id. -/
structure Alike (d : Path) (home : Place) (chainId : Text) (t t' : FileTree) : Prop where
  first : t.DirectoryAt d home
  second : t'.DirectoryAt d home
  entry : t'.entry? (home.child (fileName chainId)) = t.entry? (home.child (fileName chainId))

section Alike

variable {d : Path} {home : Place} {a b chainId : Text} {t t' : FileTree}

theorem Alike.place_eq (h : Alike d home chainId t t') (hid : 47 ∉ chainId) :
    t'.place (path d chainId) = t.place (path d chainId) := by
  by_cases hvalid : (path d chainId).Valid
  · rw [FileTree.place_of_valid hvalid, FileTree.place_of_valid hvalid, walk_path hid h.first,
      walk_path hid h.second]
  · obtain ⟨e, -, hplace⟩ := FileTree.place_of_invalid hvalid
    rw [hplace, hplace]

theorem eq_child_of_place (hid : 47 ∉ chainId) (h : t.DirectoryAt d home) {q : Place}
    (hplace : t.place (path d chainId) = .ok q) : q = home.child (fileName chainId) :=
  Except.ok.inj (hplace.symm.trans (place_path hid h (storable_of_place hid h hplace)))

theorem Alike.look_eq (h : Alike d home chainId t t') (hid : 47 ∉ chainId) :
    t'.look (path d chainId) = t.look (path d chainId) := by
  rw [FileTree.look, FileTree.look, h.place_eq hid]
  split
  · next q hplace =>
    rw [eq_child_of_place hid h.first hplace, h.entry]
  · rfl
  · rfl

/-- Keeping a cache in a directory comes to writing alike or fails alike. -/
theorem save_alike (hid : 47 ∉ chainId) (h : t.DirectoryAt d home) :
    (t.entry? (home.child (fileName chainId)) ≠ some .directory ∧
      ∀ t', Alike d home chainId t t' → ∀ c,
        save d chainId c t' = Act.ofExcept (written d chainId c) (stored t' home chainId c)) ∨
    ∃ e, ∀ t', Alike d home chainId t t' → ∀ c, save d chainId c t' = .error e t' := by
  have hsave : ∀ {t'}, Alike d home chainId t t' → ∀ c,
      save d chainId c t' = rewrite d chainId c t' := fun h c =>
    save_of_ensured hid h.second.ensureDirectory_run
  cases hplace : t.place (path d chainId) with
  | error e =>
    refine .inr ⟨e, fun t' halike c => ?_⟩
    rw [hsave halike c, rewrite]
    exact Act.bind_run_error (FileTree.write_of_error ((halike.place_eq hid).trans hplace) [])
  | ok q =>
    obtain rfl := eq_child_of_place hid h hplace
    by_cases hfree : t.entry? (home.child (fileName chainId)) = some .directory
    · refine .inr ⟨.file (.isDirectory (path d chainId).toText), fun t' halike c => ?_⟩
      rw [hsave halike c, rewrite]
      exact Act.bind_run_error (FileTree.write_of_directory ((halike.place_eq hid).trans hplace)
        (halike.entry.trans hfree) [])
    · refine .inl ⟨hfree, fun t' halike c => ?_⟩
      rw [hsave halike c]
      exact rewrite_run ((halike.place_eq hid).trans hplace) (by rwa [halike.entry]) c

theorem alike_refl (h : t.DirectoryAt d home) (chainId : Text) : Alike d home chainId t t :=
  ⟨h, h, rfl⟩

theorem ended_save_alike (hid : 47 ∉ chainId) (h : Alike d home chainId t t') (c : Cache) :
    ((save d chainId c).outcome t').1 = ((save d chainId c).outcome t).1 := by
  rcases save_alike hid h.first with ⟨-, hsave⟩ | ⟨e, hsave⟩
  · rw [Act.outcome_congr (hsave t' h c), Act.outcome_congr (hsave t (alike_refl h.first _) c),
      Act.outcome_ofExcept, Act.outcome_ofExcept]
  · rw [Act.outcome_error (hsave t' h c), Act.outcome_error (hsave t (alike_refl h.first _) c)]

/-- A cache is written alike or not at all. -/
theorem final_save_alike (hid : 47 ∉ chainId) (h : t.DirectoryAt d home) (c : Cache) :
    (t.entry? (home.child (fileName chainId)) ≠ some .directory ∧
      ∀ t', Alike d home chainId t t' → (save d chainId c).final t' = stored t' home chainId c) ∨
    ∀ t', Alike d home chainId t t' → (save d chainId c).final t' = t' := by
  rcases save_alike hid h with ⟨hfree, hsave⟩ | ⟨e, hsave⟩
  · refine .inl ⟨hfree, fun t' halike => ?_⟩
    rw [Act.final, Act.outcome_congr (hsave t' halike c), Act.outcome_ofExcept]
  · exact .inr fun t' halike => Act.final_error (hsave t' halike c)

/-- Keeping the cache of one chain leaves the directory and the files of others. -/
theorem alike_save (hid : 47 ∉ a) (h : t.DirectoryAt d home) (hne : fileName b ≠ fileName a)
    (c : Cache) : Alike d home b t ((save d a c).final t) := by
  rcases final_save_alike hid h c with ⟨hfree, hsave⟩ | hsave
  · rw [hsave t (alike_refl h a)]
    refine ⟨h, ?_, entry?_stored_of_ne hne⟩
    exact h.mono (FileTree.keepsDirectories_withEntry hfree (.file c.content))
  · rw [hsave t (alike_refl h a)]
    exact alike_refl h b

/-- The file of a cache is no contract file. -/
theorem not_ending_fileName (chainId : Text) :
    Wasm.ending.isSuffixOf (fileName chainId).toText = false := by
  have hlast : (fileName chainId).getLast? = some 110 := by
    rw [fileName, FileName.ofText, List.flatMap_append]
    exact List.getLast?_append_of_ne_nil _ (by decide)
  refine Bool.eq_false_iff.2 fun hsuffix => ?_
  obtain ⟨before, hbefore⟩ := List.isSuffixOf_iff_suffix.1 hsuffix
  have hshown := FileName.getLast?_toText hlast (by decide)
  rw [← hbefore, List.getLast?_append_of_ne_nil _ (by decide)] at hshown
  exact absurd hshown (by decide)

theorem files_save_of_directory (hid : 47 ∉ a) (h : t.DirectoryAt d home) (c : Cache)
    (dir : Path) : Wasm.files ((save d a c).final t) dir = Wasm.files t dir := by
  rcases final_save_alike hid h c with ⟨hfree, hsave⟩ | hsave
  · rw [hsave t (alike_refl h a)]
    refine FileTree.files_congr (FileTree.sameDirectories_withEntry_file hfree c.content)
      (FileTree.filter_namesIn_withEntry (fun name hname => ?_) _) dir
    rw [Place.child, List.getLast?_concat] at hname
    cases hname
    exact not_ending_fileName a
  · rw [hsave t (alike_refl h a)]

theorem entry?_stored_comm (hne : fileName a ≠ fileName b) (ca cb : Cache) (q : Place) :
    FileTree.entry? (stored (stored t home a ca) home b cb) q =
      FileTree.entry? (stored (stored t home b cb) home a ca) q := by
  have hplaces : home.child (fileName a) ≠ home.child (fileName b) := fun h =>
    hne (Place.child_inj h)
  by_cases ha : q = home.child (fileName a)
  · subst ha
    rw [entry?_stored_of_ne hne, entry?_stored_self, entry?_stored_self]
  · by_cases hb : q = home.child (fileName b)
    · subst hb
      rw [entry?_stored_of_ne hne.symm, entry?_stored_self, entry?_stored_self]
    · rw [stored, stored, stored, stored, FileTree.entry?_withEntry_of_ne hb,
        FileTree.entry?_withEntry_of_ne ha, FileTree.entry?_withEntry_of_ne ha,
        FileTree.entry?_withEntry_of_ne hb]

/-- It does not matter which of two caches is kept first. -/
theorem entry?_save_comm_of_directory (ha : 47 ∉ a) (hb : 47 ∉ b)
    (hne : fileName a ≠ fileName b) (h : t.DirectoryAt d home) (ca cb : Cache) (q : Place) :
    FileTree.entry? ((save d b cb).final ((save d a ca).final t)) q =
      FileTree.entry? ((save d a ca).final ((save d b cb).final t)) q := by
  have hseen := alike_save ha h hne.symm ca
  have hseen' := alike_save hb h hne cb
  rcases final_save_alike ha h ca with ⟨-, hsave⟩ | hsave <;>
    rcases final_save_alike hb h cb with ⟨-, hsave'⟩ | hsave'
  all_goals
    rw [hsave' _ hseen, hsave _ hseen', hsave t (alike_refl h a), hsave' t (alike_refl h b)]
  exact entry?_stored_comm hne ca cb q

end Alike

/-! ## In any tree -/

/-- Two chains whose cache files in a directory do not get in each other's way: they have different
names, and what is missing on the way to each of them goes down. -/
structure Apart (t : FileTree) (d : Path) (a b : Text) : Prop where
  rooted : t.Rooted
  first : 47 ∉ a
  second : 47 ∉ b
  distinct : fileName a ≠ fileName b
  firstDown : Downward (t.missing (path d a))
  secondDown : Downward (t.missing (path d b))

theorem Apart.symm {t : FileTree} {d : Path} {a b : Text} (h : Apart t d a b) : Apart t d b a :=
  ⟨h.rooted, h.second, h.first, h.distinct.symm, h.secondDown, h.firstDown⟩

/-- Making the directory of the caches does not change what contract files a directory has: nothing
is missing of it, or what is missing on the way to the contracts goes down and no name that is made
is that of a contract file. -/
def Unlisted (t : FileTree) (d contracts : Path) : Prop :=
  t.missing d = [] ∨ Downward (t.missing contracts) ∧
    ∀ name ∈ t.missing d, Wasm.ending.isSuffixOf (FileName.ofText name).toText = false

section Standing

variable {t : FileTree} {d : Path} {home : Place} {a b chainId : Text}

theorem missing_of_directory (h : t.DirectoryAt d home) : t.missing d = [] := by
  have hmissing := FileTree.missingFrom_append (FileTree.place_eq_ok.1 h.place).2 h.directory []
  rwa [List.append_nil] at hmissing

theorem downward_of_directory (hid : 47 ∉ chainId) (h : t.DirectoryAt d home) :
    Downward (t.missing (path d chainId)) := by
  have hmissing := FileTree.missingFrom_append (FileTree.place_eq_ok.1 h.place).2 h.directory
    [chainId ++ text ".cache.json"]
  rw [FileTree.missing, start_path hid, path_eq hid, hmissing, FileTree.missingFrom]
  split
  · next hleads =>
    split
    · have hshort := hleads.2.resolve_left ne_up
      exact List.forall_mem_singleton.2 ⟨ne_up, hshort⟩
    · exact List.forall_mem_nil _
  · exact List.forall_mem_nil _

/-- In a directory that is there different names are enough. -/
theorem apart_of_directory (hrooted : t.Rooted) (ha : 47 ∉ a) (hb : 47 ∉ b)
    (hne : fileName a ≠ fileName b) (h : t.DirectoryAt d home) : Apart t d a b :=
  ⟨hrooted, ha, hb, hne, downward_of_directory ha h, downward_of_directory hb h⟩

/-- Of a directory that is there nothing is made. -/
theorem unlisted_of_directory (h : t.DirectoryAt d home) (contracts : Path) :
    Unlisted t d contracts := .inl (missing_of_directory h)

end Standing

/-- What a chain finds in its cache file, and how keeping a cache ends for it, is the same in two
trees. -/
structure Spared (d : Path) (chainId : Text) (t t' : FileTree) : Prop where
  look : t'.look (path d chainId) = t.look (path d chainId)
  ended : ∀ c, ((save d chainId c).outcome t').1 = ((save d chainId c).outcome t).1

/-- What is loaded of a chain. -/
def loaded [Json.Limits] (d : Path) (chainId : Text) (t : FileTree) :
    Except Failure (Option Cache) :=
  ((load d chainId).outcome t).1

section Apart

variable {t t' : FileTree} {d : Path} {a b chainId : Text}

/-- What is loaded depends on what is found under the path of the file. -/
theorem loaded_of_look [Json.Limits] (h : t'.look (path d chainId) = t.look (path d chainId)) :
    loaded d chainId t' = loaded d chainId t := by
  rw [loaded, loaded, Act.outcome, Act.outcome]
  cases hlook : t.look (path d chainId) with
  | error e => rw [load_of_look_error hlook, load_of_look_error (h.trans hlook)]
  | ok found =>
    cases found with
    | none => rw [load_of_look_none hlook, load_of_look_none (h.trans hlook)]
    | some e =>
      cases e with
      | directory => rw [load_of_look_directory hlook, load_of_look_directory (h.trans hlook)]
      | file content =>
        rw [load_of_look_file hlook, load_of_look_file (h.trans hlook)]
        cases ofContent content <;> rfl

theorem downward_directory (hid : 47 ∉ chainId) (h : Downward (t.missing (path d chainId))) :
    Downward (t.missing d) := by
  intro name hname
  refine h name ?_
  rw [FileTree.missing, start_path hid, path_eq hid]
  exact t.missingFrom_subset d.start d.parts _ hname

/-- The directory of the caches can be made, or nothing is changed by trying to keep a cache. -/
theorem ensured_or_refused (hrooted : t.Rooted) (hid : 47 ∉ chainId)
    (hdown : Downward (t.missing (path d chainId))) :
    (∃ made home, FileTree.Made t d made ∧ (t.grown made).DirectoryAt d home ∧
      ∀ other, 47 ∉ other → ∀ c,
        (save d other c).outcome t = (save d other c).outcome (t.grown made)) ∨
    ∃ e, ∀ other, 47 ∉ other → ∀ c, save d other c t = .error e t := by
  rcases FileTree.makeDirectories_of_downward hrooted (downward_directory hid hdown)
    d.parts.length with ⟨made, hrun, hmade⟩ | ⟨e, hrun⟩
  · obtain ⟨home, hhome⟩ := hmade.directory
    refine .inl ⟨made, home, hmade, hhome, fun other hother c => Act.outcome_congr ?_⟩
    rw [save_of_ensured hother hrun, save_of_ensured hother hhome.ensureDirectory_run]
  · exact .inr ⟨e, fun other hother c => save_of_refused hother hrun⟩

theorem look_made {made : List Place} (hmade : FileTree.Made t d made) (hrooted : t.Rooted)
    (hid : 47 ∉ chainId) (hdown : Downward (t.missing (path d chainId))) :
    (t.grown made).look (path d chainId) = t.look (path d chainId) := by
  refine hmade.look hrooted hdown ?_
  rw [target_path hid]
  exact Place.not_child_reaches _ _

/-- Keeping the cache of one chain spares the other. -/
theorem Apart.spared_save (h : Apart t d a b) (c : Cache) :
    Spared d b t ((save d a c).final t) := by
  rcases ensured_or_refused h.rooted h.first h.firstDown with
    ⟨made, home, hmade, hhome, hsave⟩ | ⟨e, hsave⟩
  · have hfinal : (save d a c).final t = (save d a c).final (t.grown made) :=
      congrArg Prod.snd (hsave a h.first c)
    have halike := alike_save h.first hhome h.distinct.symm c
    rw [hfinal]
    constructor
    · rw [halike.look_eq h.second, look_made hmade h.rooted h.second h.secondDown]
    · intro c'
      rw [ended_save_alike h.second halike, hsave b h.second c']
  · rw [Act.final_error (hsave a h.first c)]
    exact ⟨rfl, fun _ => rfl⟩

/-- Keeping a cache leaves the contract files of a directory. -/
theorem Apart.files_save (h : Apart t d a b) {contracts : Path} (hunlisted : Unlisted t d contracts)
    (c : Cache) : Wasm.files ((save d a c).final t) contracts = Wasm.files t contracts := by
  rcases ensured_or_refused h.rooted h.first h.firstDown with
    ⟨made, home, hmade, hhome, hsave⟩ | ⟨e, hsave⟩
  · have hfinal : (save d a c).final t = (save d a c).final (t.grown made) :=
      congrArg Prod.snd (hsave a h.first c)
    rw [hfinal, files_save_of_directory h.first hhome]
    rcases hunlisted with hmissing | ⟨hdown, hhidden⟩
    · rw [hmade.grown_eq hmissing]
    · exact hmade.files h.rooted hdown hhidden
  · rw [Act.final_error (hsave a h.first c)]

/-- It does not matter which of two caches is kept first. -/
theorem Apart.entry?_save_comm (h : Apart t d a b) (ca cb : Cache) (q : Place) :
    FileTree.entry? ((save d b cb).final ((save d a ca).final t)) q =
      FileTree.entry? ((save d a ca).final ((save d b cb).final t)) q := by
  rcases ensured_or_refused h.rooted h.first h.firstDown with
    ⟨made, home, hmade, hhome, hsave⟩ | ⟨e, hsave⟩
  · have hfinal : ∀ {chainId}, 47 ∉ chainId → ∀ c,
        (save d chainId c).final t = (save d chainId c).final (t.grown made) := fun hid c =>
      congrArg Prod.snd (hsave _ hid c)
    rw [hfinal h.first, hfinal h.second]
    exact entry?_save_comm_of_directory h.first h.second h.distinct hhome ca cb q
  · rw [Act.final_error (hsave a h.first ca), Act.final_error (hsave b h.second cb),
      Act.final_error (hsave a h.first ca)]

end Apart

end Cache

end CrossChain
