import CrossChain.Proofs.Cache.Apart

/-!
# Kept and loaded again

A cache that can be written is kept where its directory can be made, its path can be used and no
directory stands in the place of its file (`save_ok_iff`).  It is then loaded as it is.  For other
files the directory is all that keeping a cache changes, and what is loaded from them is what was
loaded before unless making the directory brings something to light (`loaded_ensured_iff`);
`load_after_save` puts this together.
-/

namespace CrossChain

namespace FileTree

variable {t u : FileTree} {d : Path}

/-- Where nothing stands no way goes on. -/
theorem walk_of_none {place : Place} (h : t.entry? place = none) (path : Text) {names : List Text}
    (hnames : names ≠ []) : t.walk path place names = .error (.file (.notFound path)) := by
  cases names with
  | nil => exact absurd rfl hnames
  | cons name rest => rw [walk, h]

/-- Below a directory that was yet to be made nothing was found. -/
theorem look_below_unmade (hensured : ensureDirectory d t = .ok () u)
    (hunmade : ∀ home, ¬ t.DirectoryAt d home) {p : Path} (hvalid : p.Valid)
    (hstart : p.start = d.start) (more : List Text) (hparts : p.parts = d.parts ++ more)
    (hmore : more ≠ []) : t.look p = .ok none := by
  have hkeeps : KeepsEntries t u := (keepsEntries_ensureDirectory d).ok hensured
  obtain ⟨home, hplace, hdirectory⟩ := directoryAt_of_ensureDirectory hensured
  obtain ⟨hdvalid, hreached⟩ := place_eq_ok.1 hplace
  rw [look_of_valid hvalid, hstart, hparts]
  have hway := t.way_start d
  have hthere : ∀ q, t.walk d.toText d.start d.parts = .ok q → t.entry? q ≠ some .directory :=
    fun q hwalk hq => hunmade q ⟨place_eq_ok.2 ⟨hdvalid, hwalk⟩, hq⟩
  generalize d.parts = names at hway hreached hthere
  cases hway with
  | @stands _ q e walk entry =>
    have hsame : home = q := Except.ok.inj
      (hreached.symm.trans (walk_mono hkeeps.keepsDirectories (walk d.toText)))
    have he : e = .directory := by
      have hkept := hkeeps q e entry
      rw [← hsame, hdirectory] at hkept
      exact (Option.some.inj hkept).symm
    exact absurd (he ▸ entry) (hthere q (walk _))
  | blocked fault found walk =>
    rw [walk u hkeeps] at hreached
    cases hreached
  | @missing above name below place walk directory leads none =>
    have hrest : below ++ more ≠ [] := List.append_ne_nil_of_right_ne_nil _ hmore
    rw [List.append_assoc, lookFrom_append (walk _), List.cons_append, lookFrom,
      walk_of_directory directory, if_pos leads, walk_of_none none _ hrest]
    rfl

end FileTree

namespace Cache

variable {d : Path} {a b : Text} {t u : FileTree} {c : Cache} {home : Place}

/-! ## How keeping a cache ends -/

/-- A cache can be kept: its directory can be made, the path of its file can be used, and no
directory stands in the place of the file. -/
def Keepable (t : FileTree) (d : Path) (a : Text) : Prop :=
  ∃ u, FileTree.ensureDirectory d t = .ok () u ∧ Storable d a ∧
    u.entry? (path d a).target ≠ some .directory

theorem target_eq_child (hid : 47 ∉ a) (hhome : u.DirectoryAt d home) :
    (path d a).target = home.child (fileName a) := by
  rw [target_path hid, FileTree.eq_target_of_place hhome.place]

theorem save_ok_iff (hid : 47 ∉ a) (hcan : c.isWritable = true) :
    (∃ p t', save d a c t = .ok p t') ↔ Keepable t d a := by
  constructor
  · rintro ⟨p, t', hsave⟩
    obtain ⟨u, home, hensured, hhome, hwritable, -, -, -⟩ := save_eq_ok hid hsave
    refine ⟨u, hensured, hwritable.storable, ?_⟩
    rw [target_eq_child hid hhome]
    exact hwritable.free
  · rintro ⟨u, hensured, hstorable, hfree⟩
    obtain ⟨home, hhome⟩ := FileTree.directoryAt_of_ensureDirectory hensured
    rw [target_eq_child hid hhome] at hfree
    have hrun := save_run hid hensured hhome ⟨hstorable, hfree⟩ c
    rw [written_of_isWritable hcan] at hrun
    exact ⟨_, _, hrun⟩

/-! ## What is loaded after that -/

/-- What an entry in the place of a cache file says. -/
def said [Json.Limits] : Option FileEntry → Except Failure (Option Cache)
  | some (.file content) => ofContent content
  | _ => .ok none

theorem loaded_of_directory [Json.Limits] (hid : 47 ∉ b) (hhome : u.DirectoryAt d home)
    (hvalid : (path d b).Valid) :
    loaded d b u = if FileTree.maxName < (fileName b).length then
        .error (.file (.nameTooLong (path d b).toText))
      else said (u.entry? (home.child (fileName b))) := by
  have hplace := (FileTree.place_of_valid hvalid).trans (walk_path hid hhome)
  split
  · next hlong =>
    rw [if_pos hlong] at hplace
    have hlook := FileTree.look_of_tooLong hplace
    rw [loaded, Act.outcome, load_of_look_error hlook]
  · next hshort =>
    rw [if_neg hshort] at hplace
    have hlook : u.look (path d b) = .ok (u.entry? (home.child (fileName b))) := by
      rw [FileTree.look, hplace]
    rw [loaded, Act.outcome]
    generalize u.entry? (home.child (fileName b)) = entry at hlook
    cases entry with
    | none =>
      rw [load_of_look_none hlook]
      rfl
    | some e =>
      cases e with
      | directory =>
        rw [load_of_look_directory hlook]
        rfl
      | file content =>
        rw [load_of_look_file hlook, said]
        cases ofContent content <;> rfl

/-- Making the directory of the caches brings nothing to light under the path of a chain id: the
directory is there, or the path cannot be used, or its last name is not too long and no file that
would be read stands where it leads. -/
def Unrevealed [Json.Limits] (t : FileTree) (d : Path) (b : Text) : Prop :=
  (∃ home, t.DirectoryAt d home) ∨ ¬ (path d b).Valid ∨
    (fileName b).length ≤ FileTree.maxName ∧ ∀ content,
      t.entry? (path d b).target = some (.file content) → ofContent content = .ok none

theorem loaded_ensured_iff [Json.Limits] (hid : 47 ∉ b)
    (hensured : FileTree.ensureDirectory d t = .ok () u) :
    loaded d b u = loaded d b t ↔ Unrevealed t d b := by
  by_cases hstands : ∃ home, t.DirectoryAt d home
  · refine iff_of_true ?_ (.inl hstands)
    obtain ⟨home, hhome⟩ := hstands
    obtain rfl : u = t := by
      rw [hhome.ensureDirectory_run] at hensured
      cases hensured
      rfl
    rfl
  by_cases hvalid : (path d b).Valid
  · have hunmade : loaded d b t = .ok none := by
      have hlook := FileTree.look_below_unmade hensured (not_exists.1 hstands) hvalid
        (start_path hid) [b ++ text ".cache.json"] (by rw [path_eq hid])
        (List.cons_ne_nil _ _)
      rw [loaded, Act.outcome, load_of_look_none hlook]
    have hkeeps : FileTree.KeepsEntries t u :=
      (FileTree.keepsEntries_ensureDirectory d).ok hensured
    have hnoNew : FileTree.NoNewFile t u := (FileTree.within_ensureDirectory d).ok hensured
    obtain ⟨home, hhome⟩ := FileTree.directoryAt_of_ensureDirectory hensured
    rw [hunmade, loaded_of_directory hid hhome hvalid, Unrevealed, or_iff_right hstands,
      or_iff_right (not_not.2 hvalid), target_eq_child hid hhome]
    split
    · next hlong =>
      refine iff_of_false (fun h => ?_) fun h => Nat.not_le.2 hlong h.1
      cases h
    · next hshort =>
      rw [and_iff_right (Nat.not_lt.1 hshort)]
      constructor
      · intro hsaid content hfile
        rwa [hkeeps _ _ hfile] at hsaid
      · intro hread
        cases hentry : u.entry? (home.child (fileName b)) with
        | none => rfl
        | some e =>
          cases e with
          | directory => rfl
          | file content => exact hread content (hnoNew _ _ hentry)
  · exact iff_of_true (loaded_of_look (FileTree.look_of_invalid hvalid t u)) (.inr (.inl hvalid))

/-- A cache is kept exactly where it can be, and is then loaded as it is.  What is loaded of a chain
id with a file of another name is what was loaded before where making the directory brings nothing
to light, and for file names that are not too long only there. -/
theorem load_after_save [Json.Limits] (hid : 47 ∉ a) (hplain : Plain c) :
    ((∃ p t', save d a c t = .ok p t') ↔ Keepable t d a) ∧
    ∀ p t', save d a c t = .ok p t' → p = path d a ∧ load d a t' = .ok (some c) t' ∧
      ∀ b, 47 ∉ b → fileName b ≠ fileName a →
        (Unrevealed t d b → loaded d b t' = loaded d b t) ∧
        ((fileName b).length ≤ FileTree.maxName →
          loaded d b t' = loaded d b t → Unrevealed t d b) := by
  refine ⟨save_ok_iff hid hplain.sound.isWritable, fun p t' hsave => ?_⟩
  obtain ⟨u, home, hensured, hhome, hwritable, -, rfl, rfl⟩ := save_eq_ok hid hsave
  have hhome' : (stored u home a c).DirectoryAt d home := hhome.mono (hwritable.keepsDirectories c)
  refine ⟨rfl, ?_, fun b hb hne => ?_⟩
  · have hload := load_of_content hid hhome' hwritable.storable hplain.sound entry?_stored_self
    rwa [hplain.reloaded_eq] at hload
  · have halike : Alike d home b u (stored u home a c) :=
      ⟨hhome, hhome', entry?_stored_of_ne hne⟩
    have hsame : loaded d b (stored u home a c) = loaded d b t ↔ Unrevealed t d b := by
      rw [loaded_of_look (halike.look_eq hb)]
      exact loaded_ensured_iff hb hensured
    exact ⟨hsame.2, fun _ => hsame.1⟩

/-! ### Caches of two chains -/

/-- A cache with something in each of its parts. -/
def keptSample : Cache where
  contracts := [("kernel", .str "andr1kernel"), ("vfs", .str "andr1vfs")]
  codeIds := [("splitter", .int 9)]
  client := .str "andr1sender"

theorem plain_keptSample : Plain keptSample := by
  have haddress : ∀ {s : Text}, s.Unpaired → IsAddress (.str s) := fun h => ⟨_, rfl, h⟩
  refine ⟨⟨by decide, by decide, ?_⟩, ⟨by decide, by decide, ?_⟩, haddress (by decide)⟩
  · exact List.forall_mem_cons.2
      ⟨haddress (by decide), List.forall_mem_singleton.2 (haddress (by decide))⟩
  · exact List.forall_mem_singleton.2 ⟨9, rfl, by decide⟩

/-- A directory of caches with a file for each of two chains, both of which are no text. -/
def unreadableTwo : FileTree where
  entries := [(Place.here.child (FileName.ofText "cache"), .directory),
    ((Place.here.child (FileName.ofText "cache")).child (fileName "galileo-4"), .file [0xFF]),
    ((Place.here.child (FileName.ofText "cache")).child (fileName "elgafar-1"), .file [0xFF])]

/-- The cache of the first chain takes the place of what was no text, and that of the second chain
is loaded as before. -/
theorem load_after_save_galileo :
    ∃ p t', save (Path.ofText "cache") "galileo-4" keptSample unreadableTwo = .ok p t' ∧
      load (Path.ofText "cache") "galileo-4" t' = .ok (some keptSample) t' ∧
      loaded (Path.ofText "cache") "elgafar-1" t' =
        loaded (Path.ofText "cache") "elgafar-1" unreadableTwo := by
  have hhome : unreadableTwo.DirectoryAt (Path.ofText "cache")
      (Place.here.child (FileName.ofText "cache")) := ⟨rfl, rfl⟩
  have hkept := load_after_save (d := Path.ofText "cache") (a := "galileo-4") (t := unreadableTwo)
    (by decide) plain_keptSample
  have hkeepable : Keepable unreadableTwo (Path.ofText "cache") "galileo-4" :=
    ⟨unreadableTwo, hhome.ensureDirectory_run, ⟨by decide, by decide⟩, by decide⟩
  obtain ⟨p, t', hsave⟩ := hkept.1.2 hkeepable
  obtain ⟨-, hload, hother⟩ := hkept.2 p t' hsave
  exact ⟨p, t', hsave, hload, (hother "elgafar-1" (by decide) (by decide)).1 (.inl ⟨_, hhome⟩)⟩

/-- Keeping the cache of one chain id changes what is loaded of another. -/
def Disturbs (t : FileTree) (d : Path) (a b : Text) : Prop :=
  a ≠ b ∧ 47 ∉ a ∧ 47 ∉ b ∧ ∃ p t', save d a keptSample t = .ok p t' ∧ loaded d b t' ≠ loaded d b t

/-- Whether a cache is loaded, if nothing fails. -/
def loadedSome (d : Path) (b : Text) (t : FileTree) : Option Bool :=
  (loaded d b t).toOption.map Option.isSome

theorem disturbs_of_run {t : FileTree} {d : Path} {a b : Text} (hids : a ≠ b ∧ 47 ∉ a ∧ 47 ∉ b)
    (hsaved : ((save d a keptSample).outcome t).1.toBool = true)
    (hdiffers : loadedSome d b ((save d a keptSample).final t) ≠ loadedSome d b t) :
    Disturbs t d a b := by
  refine ⟨hids.1, hids.2.1, hids.2.2, ?_⟩
  cases hsave : save d a keptSample t with
  | error e t' =>
    rw [Act.outcome_error hsave] at hsaved
    cases hsaved
  | ok p t' =>
    rw [Act.final_ok hsave] at hdiffers
    exact ⟨p, t', rfl, fun h => hdiffers (by rw [loadedSome, loadedSome, h])⟩

/-- Chain ids of one file name share a cache; where the directory of the caches has yet to be made,
a name that is too long is only found out then, and a file is only found then that the path of the
directory leads to through what was missing. -/
theorem save_disturbs_other :
    Disturbs {} (Path.ofText "cache") [0xE9] [0xDCC3, 0xDCA9] ∧
      Disturbs {} (Path.ofText "cache") "galileo-4" (List.replicate 256 120) ∧
      Disturbs unreadableTwo (Path.ofText "missing/../cache") "galileo-4" "elgafar-1" :=
  ⟨disturbs_of_run (by decide) (by decide +kernel) (by decide +kernel),
    disturbs_of_run (by decide +kernel) (by decide +kernel) (by decide +kernel),
    disturbs_of_run (by decide) (by decide +kernel) (by decide +kernel)⟩

end Cache

end CrossChain
