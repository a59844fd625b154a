import CrossChain.Files.Tree
import CrossChain.Proofs.Act
import CrossChain.Proofs.Text.Cutting

/-!
# Laws of file trees

What stands where after an entry is made (`entry?_withEntry_self`, `entry?_withEntry_of_ne`), that
a path leads on to the same place while the directories on its way stay (`place_mono`) and to no
other place ever (`eq_target_of_place`), and that making sure of a directory leaves one where the
path leads (`directoryAt_of_ensureDirectory`), no new file (`within_ensureDirectory`), and whatever
stood anywhere (`keepsEntries_ensureDirectory`).
-/

namespace CrossChain

/-! ## Paths -/

theorem Path.ofText_of_name {s : Text} (hslash : 47 ∉ s) (hempty : s ≠ []) (hdot : s ≠ text ".") :
    Path.ofText s = ⟨[], [s]⟩ := by
  have hroot : rootOf s = [] := by
    cases s with
    | nil => rfl
    | cons c s =>
      have hc : (c == 47) = false := by
        simpa using fun h : c = 47 => hslash (h ▸ List.mem_cons_self)
      rw [rootOf, List.takeWhile_cons, hc]
      rfl
  rw [ofText, hroot, Text.splitAt_of_not_mem hslash]
  simp [hempty, hdot]

/-- Below a directory the last name of a path is the one that follows the last slash. -/
theorem Path.name_ofText_append {parent s : Text}
    (hparent : parent = [] ∨ parent.getLast? = some 47) (hslash : 47 ∉ s) (hempty : s ≠ [])
    (hdot : s ≠ text ".") : (Path.ofText (parent ++ s)).name = s := by
  have hlast : ∃ pieces, Text.splitAt 47 (parent ++ s) = pieces ++ [s] := by
    rcases hparent with rfl | hparent
    · exact ⟨[], Text.splitAt_of_not_mem hslash⟩
    · obtain ⟨above, rfl⟩ := List.getLast?_eq_some_iff.1 hparent
      refine ⟨Text.splitAt 47 above, ?_⟩
      rw [List.append_assoc, List.singleton_append, Text.splitAt_append,
        Text.splitAt_of_not_mem hslash]
  obtain ⟨pieces, hpieces⟩ := hlast
  have hkept : [s].filter (fun part => part != [] && part != text ".") = [s] := by
    simp [hempty, hdot]
  rw [name, ofText, hpieces, List.filter_append, hkept, List.getLast?_concat, Option.getD_some]

/-- A path that gives bytes, none of them null, and not too many. -/
def Path.Valid (p : Path) : Prop :=
  FileName.fault? p.toText = none ∧ p.toText.contains 0 = false ∧
    (FileName.ofText p.toText).length ≤ FileTree.maxPath

instance Path.decidableValid (p : Path) : Decidable p.Valid :=
  inferInstanceAs (Decidable (_ ∧ _ ∧ _))

/-- The place from which a path goes down. -/
def Path.start (p : Path) : Place := if p.root.isEmpty then .here else .root

/-- The place that is one name on from a place. -/
def Place.step (place : Place) (name : Text) : Place :=
  if name = text ".." then place.parent else place.child (FileName.ofText name)

/-- The only place that a path can lead to. -/
def Path.target (p : Path) : Place := p.parts.foldl Place.step p.start

theorem Place.child_inj {p : Place} {n m : FileName} (h : p.child n = p.child m) : n = m := by
  have hnames := congrArg Place.names h
  exact List.singleton_inj.1 (List.append_cancel_left hnames)

theorem Place.child_names_ne_nil (p : Place) (n : FileName) : (p.child n).names ≠ [] :=
  List.append_ne_nil_of_right_ne_nil _ (List.cons_ne_nil _ _)

namespace FileTree

variable {t t' : FileTree}

/-! ## Entries -/

theorem entryIn_append (q : Place) (l m : List (Place × FileEntry)) :
    entryIn q (l ++ m) = (entryIn q l).or (entryIn q m) := by
  induction l with
  | nil => rfl
  | cons e l ih =>
    obtain ⟨p, entry⟩ := e
    by_cases h : p = q
    · simp only [List.cons_append, entryIn, if_pos h, Option.some_or]
    · simp only [List.cons_append, entryIn, if_neg h, ih]

theorem entryIn_filter_self (q : Place) (l : List (Place × FileEntry)) :
    entryIn q (l.filter fun p => p.1 != q) = none := by
  induction l with
  | nil => rfl
  | cons e l ih =>
    by_cases h : e.1 = q
    · rw [List.filter_cons_of_neg (by simpa using h), ih]
    · rw [List.filter_cons_of_pos (by simpa using h), entryIn, if_neg h, ih]

theorem entryIn_filter_of_ne {q place : Place} (h : q ≠ place) (l : List (Place × FileEntry)) :
    entryIn q (l.filter fun p => p.1 != place) = entryIn q l := by
  induction l with
  | nil => rfl
  | cons e l ih =>
    obtain ⟨p, entry⟩ := e
    by_cases hp : p = place
    · have hq : p ≠ q := fun hq => h (hq.symm.trans hp)
      rw [List.filter_cons_of_neg (by simpa using hp), ih, entryIn, if_neg hq]
    · rw [List.filter_cons_of_pos (by simpa using hp), entryIn, entryIn, ih]

theorem names_ne_nil {place : Place} (h : t.entry? place ≠ some .directory) :
    place.names ≠ [] := by
  intro hempty
  apply h
  rw [ entry?, hempty]
  rfl

theorem entry?_withEntry_self {place : Place} (h : place.names ≠ []) (e : FileEntry) :
    FileTree.entry? (t.withEntry place e) place = some e := by
  rw [ entry?, if_neg (by simpa using h), withEntry, entryIn_append, entryIn_filter_self,
    Option.none_or, entryIn, if_pos rfl]

theorem entry?_withEntry_of_ne {q place : Place} (h : q ≠ place) (e : FileEntry) :
    FileTree.entry? (t.withEntry place e) q = t.entry? q := by
  have hrest : entryIn q [(place, e)] = none := by
    rw [entryIn, if_neg (Ne.symm h), entryIn]
  rw [ entry?, entry?, withEntry, entryIn_append, entryIn_filter_of_ne h, hrest, Option.or_none]

theorem withEntry_withEntry (t : FileTree) (place : Place) (e e' : FileEntry) :
    (t.withEntry place e).withEntry place e' = t.withEntry place e' := by
  simp only [withEntry, List.filter_append, List.filter_filter, Bool.and_self, List.filter_cons,
    bne_self_eq_false, Bool.false_eq_true, if_false, List.filter_nil, List.append_nil]

/-! ## Paths -/

/-- All directories of a tree are directories of another. -/
def KeepsDirectories (t t' : FileTree) : Prop :=
  ∀ place, t.entry? place = some .directory → t'.entry? place = some .directory

theorem keepsDirectories_withEntry {place : Place} (h : t.entry? place ≠ some .directory)
    (e : FileEntry) : KeepsDirectories t (t.withEntry place e) := by
  intro q hq
  have hne : q ≠ place := fun he => h (he ▸ hq)
  rw [entry?_withEntry_of_ne hne, hq]

theorem walk_append (t : FileTree) (path : Text) (place : Place) (names more : List Text) :
    t.walk path place (names ++ more) =
      (t.walk path place names >>= fun q => t.walk path q more) := by
  induction names generalizing place with
  | nil => rfl
  | cons name names ih =>
    rw [List.cons_append, walk, walk]
    split
    · rfl
    · rfl
    · split
      · exact ih _
      · split
        · rfl
        · exact ih _

/-- A way stays where the directories stay; the text to blame does not matter. -/
theorem walk_mono (h : KeepsDirectories t t') {path path' : Text} {place q : Place}
    {names : List Text} (hwalk : t.walk path place names = .ok q) :
    t'.walk path' place names = .ok q := by
  induction names generalizing place with
  | nil => exact hwalk
  | cons name names ih =>
    rw [walk] at hwalk ⊢
    split at hwalk
    · cases hwalk
    · cases hwalk
    · next hdirectory =>
      rw [h place hdirectory]
      simp only
      split at hwalk
      · next hup =>
        rw [if_pos hup]
        exact ih hwalk
      · next hup =>
        rw [if_neg hup]
        split at hwalk
        · cases hwalk
        · next hshort =>
          rw [if_neg hshort]
          exact ih hwalk

theorem place_eq_ok {p : Path} {q : Place} :
    t.place p = .ok q ↔ p.Valid ∧ t.walk p.toText p.start p.parts = .ok q := by
  rw [place, Path.Valid, Path.start]
  cases hfault : FileName.fault? p.toText with
  | some fault => exact iff_of_false nofun fun h => nomatch h.1.1
  | none =>
    cases hnull : p.toText.contains 0 with
    | true => exact iff_of_false nofun fun h => nomatch h.1.2.1
    | false =>
      by_cases hlong : maxPath < (FileName.ofText p.toText).length
      · apply iff_of_false
        · intro h
          simp only [Bool.false_eq_true, if_false, if_pos hlong] at h
          cases h
        · intro h
          exact Nat.not_le.2 hlong h.1.2.2
      · simp only [Bool.false_eq_true, if_false, if_neg hlong]
        exact ⟨fun h => ⟨⟨trivial, trivial, Nat.not_lt.1 hlong⟩, h⟩, fun h => h.2⟩

theorem place_mono (h : KeepsDirectories t t') {p : Path} {q : Place} (hplace : t.place p = .ok q) :
    t'.place p = .ok q := by
  obtain ⟨hvalid, hwalk⟩ := place_eq_ok.1 hplace
  exact place_eq_ok.2 ⟨hvalid, walk_mono h hwalk⟩

theorem eq_foldl_of_walk {path : Text} {place q : Place} {names : List Text}
    (hwalk : t.walk path place names = .ok q) : q = names.foldl Place.step place := by
  induction names generalizing place with
  | nil => exact (Except.ok.inj hwalk).symm
  | cons name names ih =>
    rw [walk] at hwalk
    split at hwalk
    · cases hwalk
    · cases hwalk
    · rw [List.foldl_cons, Place.step]
      split at hwalk
      · next hup =>
        rw [if_pos hup]
        exact ih hwalk
      · next hup =>
        rw [if_neg hup]
        split at hwalk
        · cases hwalk
        · exact ih hwalk

/-- Where a path leads does not depend on what stands there. -/
theorem eq_target_of_place {p : Path} {q : Place} (hplace : t.place p = .ok q) : q = p.target :=
  eq_foldl_of_walk (place_eq_ok.1 hplace).2

theorem entry?_of_read {p : Path} {content : List UInt8} (h : t.read p = .ok content) :
    t.entry? p.target = some (.file content) := by
  obtain ⟨q, hplace, h⟩ := Act.except_bind_eq_ok h
  rw [← eq_target_of_place hplace]
  split at h
  · next hentry =>
    cases h
    exact hentry
  · cases h
  · cases h

/-! ## Writing -/

section Write

variable {p : Path} {q : Place}

theorem write_run (hplace : t.place p = .ok q)
    (hq : t.entry? q ≠ some .directory) (content : List UInt8) :
    write p content t = .ok () (t.withEntry q (.file content)) := by
  rw [write, Act.get_bind, hplace, Act.ofExcept_ok, pure_bind, if_neg hq]
  rfl

theorem write_of_error {e : Failure} (hplace : t.place p = .error e) (content : List UInt8) :
    write p content t = .error e t := by
  rw [write, Act.get_bind, hplace]
  rfl

theorem write_of_directory (hplace : t.place p = .ok q) (hq : t.entry? q = some .directory)
    (content : List UInt8) :
    write p content t = .error (.file (.isDirectory p.toText)) t := by
  rw [write, Act.get_bind, hplace, Act.ofExcept_ok, pure_bind, if_pos hq]
  rfl

end Write

/-! ## Directories -/

theorem settleDirectory_of_ok {p : Path} (h : makeDirectory p t = .ok () t') :
    settleDirectory p t = .ok () t' := by
  rw [settleDirectory, Act.bind_run_ok (Act.attempt_run_ok h)]
  rfl

theorem settleDirectory_of_error {p : Path} {f : FileFault}
    (h : makeDirectory p t = .error (.file f) t') :
    settleDirectory p t =
      (Act.ofExcept (t'.isDirectory p) >>= fun there =>
        if !there then throw (.file f) else pure ()) t' := by
  rw [settleDirectory, Act.bind_run_ok (Act.attempt_run_error h)]
  rfl

/-- A path leads to a place where a directory stands. -/
structure DirectoryAt (t : FileTree) (p : Path) (home : Place) : Prop where
  place : t.place p = .ok home
  directory : t.entry? home = some .directory

namespace DirectoryAt

variable {p : Path} {home : Place}

theorem mono (h : DirectoryAt t p home) (hkeeps : KeepsDirectories t t') : DirectoryAt t' p home :=
  ⟨place_mono hkeeps h.place, hkeeps home h.directory⟩

theorem look_eq (h : DirectoryAt t p home) : t.look p = .ok (some .directory) := by
  rw [look, h.place]
  exact congrArg Except.ok h.directory

theorem of_look (h : t.look p = .ok (some .directory)) : ∃ home, DirectoryAt t p home := by
  rw [look] at h
  split at h
  · next q hq => exact ⟨q, hq, Except.ok.inj h⟩
  · cases h
  · cases h

theorem settleDirectory_run (h : DirectoryAt t p home) : settleDirectory p t = .ok () t := by
  have hmake : makeDirectory p t = .error (.file (.alreadyExists p.toText)) t := by
    rw [makeDirectory, Act.get_bind, h.place, Act.ofExcept_ok, pure_bind, h.directory]
    rfl
  rw [settleDirectory_of_error hmake, isDirectory, h.look_eq]
  rfl

theorem ensureDirectory_run (h : DirectoryAt t p home) : ensureDirectory p t = .ok () t := by
  rw [ensureDirectory]
  cases p.parts.length with
  | zero => exact h.settleDirectory_run
  | succ depth =>
    rw [makeDirectories, Act.bind_run_ok (Act.attempt_run_ok h.settleDirectory_run)]
    rfl

end DirectoryAt

theorem directoryAt_of_makeDirectory {p : Path} (h : makeDirectory p t = .ok () t') :
    ∃ home, DirectoryAt t' p home := by
  rw [makeDirectory, Act.get_bind] at h
  obtain ⟨home, u, hplace, h⟩ := Act.bind_eq_ok h
  obtain ⟨hplace, rfl⟩ := Act.ofExcept_eq_ok hplace
  by_cases hsome : (u.entry? home).isSome = true
  · rw [if_pos hsome] at h
    cases h
  · rw [if_neg hsome] at h
    obtain rfl : u.withEntry home .directory = t' := by cases h; rfl
    have hnone : u.entry? home = none := by simpa using hsome
    have hfree : u.entry? home ≠ some .directory := by
      rw [hnone]
      exact nofun
    exact ⟨home, place_mono (keepsDirectories_withEntry hfree .directory) hplace,
      entry?_withEntry_self (names_ne_nil hfree) _⟩

theorem directoryAt_of_settleDirectory {p : Path} (h : settleDirectory p t = .ok () t') :
    ∃ home, DirectoryAt t' p home := by
  cases hmake : makeDirectory p t with
  | ok _ u =>
    rw [settleDirectory_of_ok hmake] at h
    cases h
    exact directoryAt_of_makeDirectory hmake
  | error e u =>
    cases e with
    | file f =>
      rw [settleDirectory_of_error hmake] at h
      obtain ⟨there, v, hthere, h⟩ := Act.bind_eq_ok h
      obtain ⟨hthere, rfl⟩ := Act.ofExcept_eq_ok hthere
      cases there with
      | false => cases h
      | true =>
        cases h
        obtain ⟨found, hlook, hfound⟩ := Act.except_bind_eq_ok hthere
        have hdirectory : found = some .directory := beq_iff_eq.1 (Except.ok.inj hfound)
        exact DirectoryAt.of_look (hdirectory ▸ hlook)
    | _ =>
      rw [settleDirectory, Act.bind_run_ok (Act.attempt_run_error hmake)] at h
      cases h

theorem directoryAt_of_ensureDirectory {p : Path} (h : ensureDirectory p t = .ok () t') :
    ∃ home, DirectoryAt t' p home := by
  rw [ensureDirectory] at h
  generalize p.parts.length = depth at h
  cases depth with
  | zero => exact directoryAt_of_settleDirectory h
  | succ depth =>
    cases hsettle : settleDirectory p t with
    | ok _ u =>
      rw [makeDirectories, Act.bind_run_ok (Act.attempt_run_ok hsettle)] at h
      cases h
      exact directoryAt_of_settleDirectory hsettle
    | error e u =>
      rw [makeDirectories, Act.bind_run_ok (Act.attempt_run_error hsettle)] at h
      cases e with
      | file f =>
        cases f with
        | notFound path =>
          obtain ⟨_, v, -, h⟩ := Act.bind_eq_ok h
          exact directoryAt_of_settleDirectory h
        | _ => cases h
      | _ => cases h

/-! ## What making directories changes -/

section Ensure

variable {R : FileTree → FileTree → Prop} [Std.Refl R]
  (hmade : ∀ t place, FileTree.entry? t place = none → R t (t.withEntry place .directory))

include hmade

theorem within_makeDirectory (p : Path) : Act.Within R (makeDirectory p) := by
  intro t
  cases hplace : t.place p with
  | error e =>
    have hrun : makeDirectory p t = .error e t := by
      rw [makeDirectory, Act.get_bind, hplace]
      rfl
    rw [Act.final_error hrun]
    exact Std.Refl.refl t
  | ok place =>
    cases hentry : t.entry? place with
    | some e =>
      have hrun : makeDirectory p t = .error (.file (.alreadyExists p.toText)) t := by
        rw [makeDirectory, Act.get_bind, hplace, Act.ofExcept_ok, pure_bind, hentry]
        rfl
      rw [Act.final_error hrun]
      exact Std.Refl.refl t
    | none =>
      have hrun : makeDirectory p t = .ok () (t.withEntry place .directory) := by
        rw [makeDirectory, Act.get_bind, hplace, Act.ofExcept_ok, pure_bind, hentry]
        rfl
      rw [Act.final_ok hrun]
      exact hmade t place hentry

variable [IsTrans FileTree R]

theorem within_settleDirectory (p : Path) : Act.Within R (settleDirectory p) := by
  refine (within_makeDirectory hmade p).attempt.bind fun ended => ?_
  match ended with
  | .ok () => exact Act.within_pure ()
  | .error e =>
    cases e with
    | file f =>
      refine Act.within_get.bind fun t => (Act.within_ofExcept _).bind fun there => ?_
      cases there with
      | true => exact Act.within_pure ()
      | false => exact Act.within_throw _
    | _ => exact Act.within_throw _

theorem within_makeDirectories (depth : Nat) (p : Path) :
    Act.Within R (makeDirectories depth p) := by
  induction depth generalizing p with
  | zero => exact within_settleDirectory hmade p
  | succ depth ih =>
    refine (within_settleDirectory hmade p).attempt.bind fun ended => ?_
    split
    · exact (ih p.parent).bind fun _ => within_settleDirectory hmade p
    · exact Act.within_ofExcept _

/-- Making a directory with all that is missing above it only ever puts directories where nothing
was. -/
theorem within_ensureDirectory_of (p : Path) : Act.Within R (ensureDirectory p) :=
  within_makeDirectories hmade p.parts.length p

end Ensure

/-- Every file was there before. -/
def NoNewFile (t t' : FileTree) : Prop :=
  ∀ q content, t'.entry? q = some (.file content) → t.entry? q = some (.file content)

instance noNewFile_refl : Std.Refl NoNewFile := ⟨fun _ _ _ h => h⟩

instance noNewFile_trans : IsTrans FileTree NoNewFile :=
  ⟨fun _ _ _ h h' q content hq => h q content (h' q content hq)⟩

theorem noNewFile_withEntry_directory (t : FileTree) (place : Place) :
    NoNewFile t (t.withEntry place .directory) := by
  intro q content hq
  by_cases hplace : q = place
  · subst hplace
    by_cases hnames : q.names = []
    · rw [ entry?, hnames] at hq
      cases hq
    · rw [entry?_withEntry_self hnames] at hq
      cases hq
  · rwa [entry?_withEntry_of_ne hplace] at hq

theorem within_ensureDirectory (p : Path) : Act.Within NoNewFile (ensureDirectory p) :=
  within_ensureDirectory_of (fun t place _ => noNewFile_withEntry_directory t place) p

/-- Whatever stood somewhere stands there still. -/
def KeepsEntries (t t' : FileTree) : Prop := ∀ q e, t.entry? q = some e → t'.entry? q = some e

instance keepsEntries_refl : Std.Refl KeepsEntries := ⟨fun _ _ _ h => h⟩

instance keepsEntries_trans : IsTrans FileTree KeepsEntries :=
  ⟨fun _ _ _ h h' q e hq => h' q e (h q e hq)⟩

theorem KeepsEntries.keepsDirectories (h : KeepsEntries t t') : KeepsDirectories t t' :=
  fun q hq => h q .directory hq

theorem keepsEntries_withEntry {place : Place} (h : t.entry? place = none) (e : FileEntry) :
    KeepsEntries t (t.withEntry place e) := by
  intro q e' hq
  have hne : q ≠ place := by
    rintro rfl
    rw [h] at hq
    cases hq
  rw [entry?_withEntry_of_ne hne, hq]

theorem keepsEntries_ensureDirectory (p : Path) :
    Act.Within KeepsEntries (ensureDirectory p) :=
  within_ensureDirectory_of (fun _ _ h => keepsEntries_withEntry h .directory) p

end FileTree

end CrossChain
