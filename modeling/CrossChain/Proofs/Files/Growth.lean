import CrossChain.Proofs.Files.Listing

/-!
# Trees that grow

The names of a path from the first one on where nothing stands are missing (`missing`).  Making sure
of a directory makes the missing ones (`makeDirectories_of_downward`), if they only go down and none
is too long; if it fails it makes none of them.  After that other paths find what they found before,
or what was made (`look_grown`), as long as what they miss goes down as well, and contract files are
found as before where no name that is missing is that of one (`Made.files`).
-/

namespace CrossChain

/-! ## Going down -/

/-- Names that lead down and are not too long. -/
def Downward (names : List Text) : Prop :=
  ∀ name ∈ names, name ≠ text ".." ∧ (FileName.ofText name).length ≤ FileTree.maxName

instance (names : List Text) : Decidable (Downward names) :=
  inferInstanceAs (Decidable (∀ name ∈ names, _))

namespace Place

/-- The place that is reached from a place by going down. -/
def down (place : Place) (names : List Text) : Place :=
  ⟨place.origin, place.names ++ names.map FileName.ofText⟩

theorem down_nil (place : Place) : place.down [] = place := by
  rw [down, List.map_nil, List.append_nil]

theorem down_cons (place : Place) (name : Text) (rest : List Text) :
    place.down (name :: rest) = (place.child (FileName.ofText name)).down rest := by
  rw [down, down, child, List.map_cons, List.append_cons]

theorem foldl_step {names : List Text} (h : Downward names) (place : Place) :
    names.foldl step place = place.down names := by
  induction names generalizing place with
  | nil => exact place.down_nil.symm
  | cons name rest ih =>
    obtain ⟨⟨hname, -⟩, hrest⟩ := List.forall_mem_cons.1 h
    rw [List.foldl_cons, step, if_neg hname, ih hrest, down_cons]

theorem parent_child (place : Place) (name : FileName) : (place.child name).parent = place := by
  obtain ⟨origin, names⟩ := place
  cases names with
  | nil => rfl
  | cons first rest => exact congrArg (Place.mk origin) List.dropLast_concat

theorem reaches_refl (place : Place) : place.reaches place = true := by simp [reaches]

theorem reaches_child {place q : Place} (h : place.reaches q = true) (name : FileName) :
    place.reaches (q.child name) = true := by
  simp only [reaches, Bool.and_eq_true, beq_iff_eq, List.isPrefixOf_iff_prefix] at h ⊢
  exact ⟨h.1, h.2.trans (List.prefix_append _ _)⟩

/-- A place is not reached from below. -/
theorem not_child_reaches (place : Place) (name : FileName) :
    (place.child name).reaches place = false := by
  refine Bool.eq_false_iff.2 fun h => ?_
  simp only [reaches, Bool.and_eq_true, List.isPrefixOf_iff_prefix] at h
  have hlength := h.2.length_le
  rw [child, List.length_append, List.length_singleton] at hlength
  omega

end Place

namespace FileTree

variable {t t' : FileTree} {p d : Path}

/-! ## Rooted trees -/

/-- Everything stands in a directory. -/
def Rooted (t : FileTree) : Prop :=
  ∀ place name e, t.entry? (place.child name) = some e → t.entry? place = some .directory

theorem entryIn_eq_none {q : Place} {l : List (Place × FileEntry)} :
    entryIn q l = none ↔ ∀ e ∈ l, e.1 ≠ q := by
  induction l with
  | nil => exact iff_of_true rfl (List.forall_mem_nil _)
  | cons e l ih =>
    obtain ⟨p, entry⟩ := e
    rw [entryIn, List.forall_mem_cons]
    split
    · next hp => exact iff_of_false (Option.some_ne_none _) fun h => h.1 hp
    · next hp => exact ih.trans (and_iff_right hp).symm

/-- A tree is rooted if the place above each of its entries is a directory. -/
theorem rooted_of_entries (h : ∀ e ∈ t.entries, t.entry? e.1.parent = some .directory) :
    Rooted t := by
  intro place name e hentry
  rw [ entry?, if_neg (by simp [place.child_names_ne_nil name])] at hentry
  by_contra hplace
  refine Option.some_ne_none e (hentry.symm.trans (entryIn_eq_none.2 fun p hp hchild => ?_))
  have hparent := h p hp
  rw [hchild, Place.parent_child] at hparent
  exact hplace hparent

section Rooted

variable {names : List Text} {place : Place}

/-- What something is reached from by going down is a directory. -/
theorem Rooted.directory_above (h : Rooted t) (hnames : names ≠ []) {e : FileEntry}
    (hentry : t.entry? (place.down names) = some e) : t.entry? place = some .directory := by
  induction names generalizing place with
  | nil => exact absurd rfl hnames
  | cons name rest ih =>
    rw [Place.down_cons] at hentry
    cases rest with
    | nil =>
      rw [Place.down_nil] at hentry
      exact h place _ e hentry
    | cons next rest => exact h place _ _ (ih (List.cons_ne_nil _ _) hentry)

theorem Rooted.none_below (h : Rooted t) (hplace : t.entry? place = none) (names : List Text) :
    t.entry? (place.down names) = none := by
  by_cases hnames : names = []
  · rw [hnames, Place.down_nil, hplace]
  · refine Option.eq_none_iff_forall_ne_some.2 fun e hentry => ?_
    cases hplace.symm.trans (h.directory_above hnames hentry)

theorem Rooted.withEntry_directory (h : Rooted t) (hplace : t.entry? place = some .directory)
    {name : FileName} (hfree : t.entry? (place.child name) = none) :
    Rooted (t.withEntry (place.child name) .directory) := by
  have hkeeps := keepsEntries_withEntry hfree .directory
  intro q other e hentry
  by_cases hq : q.child other = place.child name
  · have hsame : q = place := by
      obtain ⟨horigin, hnames⟩ := Place.mk.inj hq
      obtain ⟨hnames, -⟩ := List.append_inj' hnames rfl
      cases q
      cases place
      exact congr (congrArg Place.mk horigin) hnames
    exact hsame ▸ hkeeps _ _ hplace
  · rw [entry?_withEntry_of_ne hq] at hentry
    exact hkeeps _ _ (h q other e hentry)

theorem Rooted.walk_down (h : Rooted t) (hdown : Downward names) (path : Text) {e : FileEntry}
    (hentry : t.entry? (place.down names) = some e) :
    t.walk path place names = .ok (place.down names) := by
  induction names generalizing place with
  | nil => rw [FileTree.walk, Place.down_nil]
  | cons name rest ih =>
    obtain ⟨⟨hup, hshort⟩, hrest⟩ := List.forall_mem_cons.1 hdown
    have hdirectory := h.directory_above (List.cons_ne_nil _ _) hentry
    rw [Place.down_cons] at hentry ⊢
    rw [FileTree.walk, hdirectory]
    simp only [if_neg hup, if_neg (Nat.not_lt.2 hshort)]
    exact ih hrest hentry

end Rooted

/-! ## Looking from a place -/

/-- What stands where names lead. -/
def lookFrom (t : FileTree) (path : Text) (place : Place) (names : List Text) :
    Except Failure (Option FileEntry) :=
  (seen (t.walk path place names)).map fun found => found.bind t.entry?

theorem place_of_valid (h : p.Valid) : t.place p = t.walk p.toText p.start p.parts := by
  obtain ⟨hfault, hnull, hshort⟩ := h
  rw [place, hfault, hnull]
  simp only [Bool.false_eq_true, if_false, if_neg (Nat.not_lt.2 hshort)]
  rfl

/-- A path that is none is refused alike everywhere. -/
theorem place_of_invalid (h : ¬ p.Valid) :
    ∃ e, (∀ path, e ≠ .file (.notFound path)) ∧ ∀ t : FileTree, t.place p = .error e := by
  cases hfault : FileName.fault? p.toText with
  | some fault =>
    refine ⟨.value (.surrogates fault.1 fault.2), (fun _ h => by cases h), fun t => ?_⟩
    rw [place, hfault]
    rfl
  | none =>
    cases hnull : p.toText.contains 0 with
    | true =>
      refine ⟨.value .nullInPath, (fun _ h => by cases h), fun t => ?_⟩
      rw [place, hfault, hnull]
      rfl
    | false =>
      have hlong : maxPath < (FileName.ofText p.toText).length :=
        Nat.not_le.1 fun hshort => h ⟨hfault, hnull, hshort⟩
      refine ⟨.file (.nameTooLong p.toText), (fun _ h => by cases h), fun t => ?_⟩
      rw [place, hfault, hnull]
      simp only [Bool.false_eq_true, if_false, if_pos hlong]
      rfl

theorem look_of_valid (h : p.Valid) : t.look p = t.lookFrom p.toText p.start p.parts := by
  rw [look_eq_seen, place_of_valid h, lookFrom]

theorem look_of_invalid (h : ¬ p.Valid) (t t' : FileTree) : t'.look p = t.look p := by
  obtain ⟨e, -, hplace⟩ := place_of_invalid h
  rw [look_eq_seen, look_eq_seen, hplace, hplace]
  cases e with
  | file f => cases f <;> rfl
  | _ => rfl

section LookFrom

variable {path : Text} {place : Place} {names : List Text}

theorem eq_none_of_seen_error {e : Failure} {found : Option Place}
    (h : seen (.error e) = .ok found) : found = none := by
  cases e with
  | file f =>
    cases f with
    | nameTooLong path => cases h
    | _ => exact (Except.ok.inj h).symm
  | _ => exact (Except.ok.inj h).symm

/-- A way down by names that are not too long is not refused. -/
theorem seen_walk_down (h : Downward names) (path : Text) (place : Place) :
    ∃ found, seen (t.walk path place names) = .ok found := by
  induction names generalizing place with
  | nil => exact ⟨some place, rfl⟩
  | cons name rest ih =>
    obtain ⟨⟨hup, hshort⟩, hrest⟩ := List.forall_mem_cons.1 h
    rw [FileTree.walk]
    split
    · exact ⟨none, rfl⟩
    · exact ⟨none, rfl⟩
    · rw [if_neg hup, if_neg (Nat.not_lt.2 hshort)]
      exact ih hrest _

/-- Going down leads to what stands there. -/
theorem Rooted.lookFrom_down (h : Rooted t) (hdown : Downward names) (path : Text)
    (place : Place) : t.lookFrom path place names = .ok (t.entry? (place.down names)) := by
  obtain ⟨found, hfound⟩ := seen_walk_down (t := t) hdown path place
  cases hentry : t.entry? (place.down names) with
  | some e =>
    rw [lookFrom, h.walk_down hdown path hentry]
    exact congrArg Except.ok hentry
  | none =>
    rw [lookFrom, hfound]
    refine congrArg Except.ok ?_
    cases hwalk : t.walk path place names with
    | ok q =>
      rw [hwalk] at hfound
      cases hfound
      rw [eq_foldl_of_walk hwalk, Place.foldl_step hdown]
      exact hentry
    | error e =>
      rw [hwalk] at hfound
      rw [eq_none_of_seen_error hfound]
      rfl

end LookFrom

/-! ## Ways -/

section Ways

variable {path : Text} {place home q : Place} {names above : List Text} {name : Text}

/-- A name that leads on from a directory: upwards, or to a name that is not too long. -/
def LeadsOn (name : Text) : Prop := name = text ".." ∨ (FileName.ofText name).length ≤ maxName

instance (name : Text) : Decidable (LeadsOn name) := inferInstanceAs (Decidable (_ ∨ _))

theorem walk_of_directory (h : t.entry? place = some .directory) (path name : Text)
    (rest : List Text) :
    t.walk path place (name :: rest) =
      if LeadsOn name then t.walk path (place.step name) rest
      else .error (.file (.nameTooLong path)) := by
  rw [walk, h, Place.step]
  by_cases hup : name = text ".."
  · simp only [if_pos hup, if_pos (show LeadsOn name from .inl hup)]
  · by_cases hshort : (FileName.ofText name).length ≤ maxName
    · simp only [if_neg hup, if_neg (Nat.not_lt.2 hshort),
        if_pos (show LeadsOn name from .inr hshort)]
    · simp only [if_neg hup, if_pos (Nat.not_le.1 hshort),
        if_neg (show ¬ LeadsOn name from not_or.2 ⟨hup, hshort⟩)]

/-- What becomes of a way: it leads to something, it is blocked, in every tree that has what this
one has, or it comes from a directory to where nothing stands. -/
inductive Way (t : FileTree) (place : Place) : List Text → Prop
  | stands {names : List Text} {q : Place} {e : FileEntry}
    (walk : ∀ path, t.walk path place names = .ok q) (entry : t.entry? q = some e) :
    Way t place names
  | blocked {names : List Text} (fault : Text → FileFault)
    (found : ∀ path path', fault path ≠ .notFound path')
    (walk : ∀ t', KeepsEntries t t' → ∀ path,
      t'.walk path place names = .error (.file (fault path))) :
    Way t place names
  | missing (above : List Text) {name : Text} {below : List Text} {home : Place}
    (walk : ∀ path, t.walk path place above = .ok home)
    (directory : t.entry? home = some .directory) (leads : LeadsOn name)
    (none : t.entry? (home.step name) = none) :
    Way t place (above ++ name :: below)

theorem way (h : t.entry? place ≠ none) (names : List Text) : Way t place names := by
  induction names generalizing place with
  | nil =>
    obtain ⟨e, he⟩ := Option.ne_none_iff_exists'.1 h
    exact .stands (fun path => rfl) he
  | cons name rest ih =>
    obtain ⟨e, he⟩ := Option.ne_none_iff_exists'.1 h
    cases e with
    | file content =>
      refine .blocked .notDirectory (fun _ _ h => by cases h) fun t' hkeeps path => ?_
      rw [FileTree.walk, hkeeps place _ he]
    | directory =>
      by_cases hleads : LeadsOn name
      · have hstep : ∀ path rest, t.walk path place (name :: rest) =
            t.walk path (place.step name) rest := by
          intro path rest
          rw [walk_of_directory he, if_pos hleads]
        by_cases hnone : t.entry? (place.step name) = none
        · exact .missing [] (fun path => rfl) he hleads hnone
        · cases ih hnone with
          | stands walk entry => exact .stands (fun path => (hstep path _).trans (walk path)) entry
          | blocked fault found walk =>
            refine .blocked fault found fun t' hkeeps path => ?_
            rw [walk_of_directory (hkeeps place _ he), if_pos hleads]
            exact walk t' hkeeps path
          | @missing above _ _ _ walk directory leads none =>
            exact .missing (name :: above) (fun path => (hstep path _).trans (walk path)) directory
              leads none
      · refine .blocked .nameTooLong (fun _ _ h => by cases h) fun t' hkeeps path => ?_
        rw [walk_of_directory (hkeeps place _ he), if_neg hleads]

/-- The names of a way from the first one on where nothing stands. -/
def missingFrom (t : FileTree) (place : Place) : List Text → List Text
  | [] => []
  | name :: rest =>
    if t.entry? place = some .directory ∧ LeadsOn name then
      if t.entry? (place.step name) = none then name :: rest
      else missingFrom t (place.step name) rest
    else []

theorem directory_of_walk (hwalk : t.walk path place names = .ok home)
    (hhome : t.entry? home = some .directory) : t.entry? place = some .directory := by
  cases names with
  | nil =>
    obtain rfl : place = home := Except.ok.inj hwalk
    exact hhome
  | cons name rest =>
    rw [walk] at hwalk
    split at hwalk
    · cases hwalk
    · cases hwalk
    · next hdirectory => exact hdirectory

/-- Nothing is missing on the way to a directory. -/
theorem missingFrom_append (hwalk : t.walk path place above = .ok home)
    (hhome : t.entry? home = some .directory) (names : List Text) :
    t.missingFrom place (above ++ names) = t.missingFrom home names := by
  induction above generalizing place with
  | nil =>
    obtain rfl : place = home := Except.ok.inj hwalk
    rw [List.nil_append]
  | cons name rest ih =>
    have hplace := directory_of_walk hwalk hhome
    rw [walk_of_directory hplace] at hwalk
    split at hwalk
    · next hleads =>
      have hnext : t.entry? (place.step name) ≠ none := by
        rw [directory_of_walk hwalk hhome]
        exact Option.some_ne_none _
      rw [List.cons_append, missingFrom, if_pos ⟨hplace, hleads⟩, if_neg hnext]
      exact ih hwalk
    · cases hwalk

theorem missingFrom_of_none (hhome : t.entry? home = some .directory) (hleads : LeadsOn name)
    (hnone : t.entry? (home.step name) = none) (below : List Text) :
    t.missingFrom home (name :: below) = name :: below := by
  rw [missingFrom, if_pos ⟨hhome, hleads⟩, if_pos hnone]

theorem lookFrom_append (hwalk : t.walk path place above = .ok home) (names : List Text) :
    t.lookFrom path place (above ++ names) = t.lookFrom path home names := by
  rw [lookFrom, walk_append, hwalk]
  rfl

/-- What is missing of a way is missing of every longer one. -/
theorem missingFrom_subset (t : FileTree) (place : Place) (names more : List Text) :
    t.missingFrom place names ⊆ t.missingFrom place (names ++ more) := by
  induction names generalizing place with
  | nil => exact List.nil_subset _
  | cons name rest ih =>
    rw [List.cons_append, missingFrom, missingFrom]
    split
    · split
      · exact List.cons_subset_cons _ (List.subset_append_left rest more)
      · exact ih _
    · exact List.Subset.refl _

theorem foldl_step_append (hwalk : t.walk path place above = .ok home) (hdown : Downward names) :
    (above ++ names).foldl Place.step place = home.down names := by
  rw [List.foldl_append, ← eq_foldl_of_walk hwalk, Place.foldl_step hdown]

theorem Rooted.none_down (h : Rooted t) {below : List Text} (hdown : Downward (name :: below))
    (hnone : t.entry? (home.step name) = none) : t.entry? (home.down (name :: below)) = none := by
  have hname : name ≠ text ".." := (hdown name List.mem_cons_self).1
  rw [Place.step, if_neg hname] at hnone
  rw [Place.down_cons]
  exact h.none_below hnone below

end Ways

/-! ## What is missing -/

/-- The names of a path from the first one on where nothing stands. -/
def missing (t : FileTree) (p : Path) : List Text := t.missingFrom p.start p.parts

theorem entry?_start (t : FileTree) (p : Path) : t.entry? p.start = some .directory := by
  rw [Path.start]
  split <;> rfl

theorem way_start (t : FileTree) (p : Path) : Way t p.start p.parts :=
  way (by rw [entry?_start]; exact Option.some_ne_none _) _

/-- A tree with what another one has, everything in a directory. -/
structure Grows (t t' : FileTree) : Prop where
  rooted : Rooted t'
  keeps : KeepsEntries t t'

/-- Where what a path misses goes down, it leads in a tree that has grown to what it led to before,
or to what stands in its place where nothing stood. -/
theorem look_grown (h : Rooted t) (hgrows : Grows t t') (hdown : Downward (t.missing p)) :
    t'.look p = t.look p ∨
      t.entry? p.target = none ∧ t.look p = .ok none ∧ t'.look p = .ok (t'.entry? p.target) := by
  by_cases hvalid : p.Valid
  · rw [look_of_valid hvalid, look_of_valid hvalid, Path.target]
    rw [missing] at hdown
    have hway := t.way_start p
    generalize p.parts = names at hway hdown
    cases hway with
    | @stands _ q e walk entry =>
      refine .inl ?_
      rw [lookFrom, lookFrom, walk, walk_mono hgrows.keeps.keepsDirectories (walk p.toText)]
      exact congrArg Except.ok ((hgrows.keeps q e entry).trans entry.symm)
    | blocked fault found walk =>
      refine .inl ?_
      rw [lookFrom, lookFrom, walk t' hgrows.keeps, walk t (Std.Refl.refl t)]
      cases fault p.toText <;> rfl
    | @missing above name below home walk directory leads none =>
      rw [missingFrom_append (walk []) directory,
        missingFrom_of_none directory leads none] at hdown
      have hwalk' : t'.walk p.toText p.start above = .ok home :=
        walk_mono hgrows.keeps.keepsDirectories (walk [])
      have hnone := h.none_down hdown none
      rw [foldl_step_append (walk []) hdown, lookFrom_append (walk _), lookFrom_append hwalk',
        h.lookFrom_down hdown, hgrows.rooted.lookFrom_down hdown, hnone]
      exact .inr ⟨rfl, rfl, rfl⟩
  · exact .inl (look_of_invalid hvalid t t')

/-! ## Making directories -/

/-- The tree with directories at further places. -/
def grown (t : FileTree) (made : List Place) : FileTree :=
  ⟨t.entries ++ made.map fun place => (place, .directory)⟩

/-- Places on the way to that of a path where nothing stood, with names that were missing. -/
def Lacks (t : FileTree) (p : Path) (q : Place) : Prop :=
  q.reaches p.target = true ∧ t.entry? q = none ∧
    ∃ name ∈ t.missing p, q.names.getLast? = some (FileName.ofText name)

theorem withEntry_of_none {q : Place} (h : t.entry? q = none) :
    t.withEntry q .directory = t.grown [q] := by
  rw [ entry?] at h
  split at h
  · cases h
  · have hall : t.entries.filter (fun e => e.1 != q) = t.entries :=
      List.filter_eq_self.2 fun e he => bne_iff_ne.2 (entryIn_eq_none.1 h e he)
    rw [withEntry, hall]
    rfl

theorem grown_grown (t : FileTree) (made more : List Place) :
    (t.grown made).grown more = t.grown (made ++ more) := by
  simp only [grown, List.append_assoc, List.map_append]

theorem grown_nil (t : FileTree) : t.grown [] = t := by
  rw [grown, List.map_nil, List.append_nil]

theorem entry?_grown_of_not_mem {made : List Place} {q : Place} (h : q ∉ made) :
    FileTree.entry? (t.grown made) q = t.entry? q := by
  have hnone : entryIn q (made.map fun place => (place, FileEntry.directory)) = none := by
    refine entryIn_eq_none.2 fun e he => ?_
    obtain ⟨place, hplace, rfl⟩ := List.mem_map.1 he
    exact fun hq => h (hq ▸ hplace)
  rw [ entry?, entry?, grown, entryIn_append, hnone, Option.or_none]

theorem Grows.withEntry_directory (h : Grows t t') {place : Place}
    (hplace : t'.entry? place = some .directory) {name : FileName}
    (hfree : t'.entry? (place.child name) = none) :
    Grows t (t'.withEntry (place.child name) .directory) :=
  ⟨h.rooted.withEntry_directory hplace hfree,
    IsTrans.trans _ _ _ h.keeps (keepsEntries_withEntry hfree .directory)⟩

/-- Directories were made that a path lacked, and it leads to a directory now. -/
structure Made (t : FileTree) (p : Path) (made : List Place) : Prop where
  directory : ∃ home, DirectoryAt (t.grown made) p home
  grows : Grows t (t.grown made)
  lacks : ∀ q ∈ made, t.Lacks p q

section Settle

variable {q : Place}

theorem settleDirectory_of_none (hplace : t.place p = .ok q) (hnone : t.entry? q = none) :
    settleDirectory p t = .ok () (t.withEntry q .directory) := by
  refine settleDirectory_of_ok ?_
  rw [makeDirectory, Act.get_bind, hplace, Act.ofExcept_ok, pure_bind, hnone]
  rfl

theorem settleDirectory_of_place_error {e : Failure} (hplace : t.place p = .error e) :
    settleDirectory p t = .error e t := by
  have hmake : makeDirectory p t = .error e t := by
    rw [makeDirectory, Act.get_bind, hplace]
    rfl
  cases e with
  | file f =>
    rw [settleDirectory_of_error hmake, isDirectory, look, hplace]
    cases f <;> rfl
  | _ =>
    rw [settleDirectory, Act.bind_run_ok (Act.attempt_run_error hmake)]
    rfl

theorem settleDirectory_of_file {content : List UInt8} (hplace : t.place p = .ok q)
    (hfile : t.entry? q = some (.file content)) :
    settleDirectory p t = .error (.file (.alreadyExists p.toText)) t := by
  have hmake : makeDirectory p t = .error (.file (.alreadyExists p.toText)) t := by
    rw [makeDirectory, Act.get_bind, hplace, Act.ofExcept_ok, pure_bind, hfile]
    rfl
  rw [settleDirectory_of_error hmake, isDirectory, look, hplace]
  simp only [hfile]
  rfl

/-- A path to where nothing stands comes from a directory by its last name, which is all that it
misses. -/
theorem missing_of_place (hplace : t.place p = .ok q) (hnone : t.entry? q = none) :
    ∃ home name, t.entry? home = some .directory ∧ t.missing p = [name] ∧ q = home.step name := by
  have hwalk := (place_eq_ok.1 hplace).2
  rw [missing]
  have hway := t.way_start p
  generalize p.parts = names at hwalk hway
  cases hway with
  | stands walk entry =>
    rw [walk] at hwalk
    cases hwalk
    cases hnone.symm.trans entry
  | blocked fault found walk =>
    rw [walk t (Std.Refl.refl t)] at hwalk
    cases hwalk
  | @missing above name below home walk directory leads none =>
    have hlast : t.walk p.toText home (name :: below) = .ok q := by
      rw [walk_append, walk] at hwalk
      exact hwalk
    rw [walk_of_directory directory, if_pos leads] at hlast
    cases below with
    | cons next rest =>
      rw [FileTree.walk, none] at hlast
      cases hlast
    | nil =>
      refine ⟨home, name, directory, ?_, (Except.ok.inj hlast).symm⟩
      rw [missingFrom_append (walk []) directory, missingFrom_of_none directory leads none]

theorem Rooted.made_last (h : Rooted t) (hdown : Downward (t.missing p))
    (hplace : t.place p = .ok q) (hnone : t.entry? q = none) : Made t p [q] := by
  obtain ⟨home, name, hhome, hmissing, rfl⟩ := missing_of_place hplace hnone
  have hname : name ∈ t.missing p := hmissing ▸ List.mem_cons_self
  have hstep : home.step name = home.child (FileName.ofText name) := if_neg (hdown name hname).1
  have hmade := withEntry_of_none hnone
  refine ⟨?_, ?_, fun q hq => ?_⟩
  · rw [← hmade]
    exact directoryAt_of_settleDirectory (settleDirectory_of_none hplace hnone)
  · rw [← hmade]
    rw [hstep] at hnone ⊢
    exact Grows.withEntry_directory ⟨h, Std.Refl.refl t⟩ hhome hnone
  · obtain rfl := List.mem_singleton.1 hq
    refine ⟨?_, hnone, name, hname, ?_⟩
    · rw [← eq_target_of_place hplace]
      exact Place.reaches_refl _
    · rw [hstep]
      exact List.getLast?_concat

/-- Where a path is not found, more than its last name is missing. -/
theorem Rooted.missing_of_notFound (h : Rooted t) (hdown : Downward (t.missing p)) {path : Text}
    (hplace : t.place p = .error (.file (.notFound path))) :
    p.Valid ∧ ∃ name, p.parts = p.parent.parts ++ [name] ∧
      t.missing p = t.missing p.parent ++ [name] ∧ t.entry? p.target = none := by
  have hvalid : p.Valid := by
    by_contra hinvalid
    obtain ⟨e, he, hall⟩ := place_of_invalid hinvalid
    exact he path (Except.error.inj ((hall t).symm.trans hplace))
  refine ⟨hvalid, ?_⟩
  have hwalk := hplace
  rw [place_of_valid hvalid] at hwalk
  have hway := t.way_start p
  generalize hparts : p.parts = names at hway
  cases hway with
  | stands walk entry =>
    rw [hparts, walk] at hwalk
    cases hwalk
  | blocked fault found walk =>
    rw [hparts, walk t (Std.Refl.refl t)] at hwalk
    cases found p.toText path (Failure.file.inj (Except.error.inj hwalk))
  | @missing above name below home walk directory leads none =>
    have hmissing : ∀ below, t.missingFrom p.start (above ++ name :: below) = name :: below := by
      intro below
      rw [missingFrom_append (walk []) directory, missingFrom_of_none directory leads none]
    rcases List.eq_nil_or_concat' below with rfl | ⟨between, last, rfl⟩
    · rw [hparts, walk_append, walk] at hwalk
      have hlast : t.walk p.toText home [name] = .error (.file (.notFound path)) := hwalk
      rw [walk_of_directory directory, if_pos leads] at hlast
      cases hlast
    · have hconcat : p.parts = (above ++ name :: between) ++ [last] := by
        rw [hparts, List.append_assoc, List.cons_append]
      have hparent : p.parent.parts = above ++ name :: between := by
        rw [Path.parent, hconcat, List.dropLast_concat]
      have hmissed : t.missing p = name :: (between ++ [last]) := by
        rw [missing, hparts, hmissing]
      refine ⟨last, by rw [hparent, List.append_assoc, List.cons_append], ?_, ?_⟩
      · rw [hmissed, missing, hparent]
        exact congrArg (· ++ [last]) (hmissing between).symm
      · rw [hmissed] at hdown
        rw [Path.target, hparts, foldl_step_append (walk []) hdown]
        exact h.none_down hdown none

/-- Whether a directory can be made at a path where what is missing of it goes down. -/
theorem settleDirectory_of_downward (h : Rooted t) (hdown : Downward (t.missing p)) :
    (∃ made, settleDirectory p t = .ok () (t.grown made) ∧ Made t p made) ∨
      ∃ e, settleDirectory p t = .error e t ∧
        ∀ path, e = .file (.notFound path) → t.place p = .error (.file (.notFound path)) := by
  cases hplace : t.place p with
  | error e =>
    refine .inr ⟨e, settleDirectory_of_place_error hplace, ?_⟩
    rintro path rfl
    rfl
  | ok q =>
    cases hentry : t.entry? q with
    | none =>
      refine .inl ⟨[q], ?_, h.made_last hdown hplace hentry⟩
      rw [settleDirectory_of_none hplace hentry, withEntry_of_none hentry]
    | some e =>
      cases e with
      | file content =>
        exact .inr ⟨_, settleDirectory_of_file hplace hentry, fun path h => by cases h⟩
      | directory =>
        have hhome : DirectoryAt t p q := ⟨hplace, hentry⟩
        refine .inl ⟨[], by rw [grown_nil, hhome.settleDirectory_run], ?_⟩
        refine ⟨⟨q, ?_⟩, ?_, List.forall_mem_nil _⟩
        · rwa [grown_nil]
        · rw [grown_nil]
          exact ⟨h, Std.Refl.refl t⟩

end Settle

/-- Once the directory above was made, that of a path is made as well. -/
theorem Made.concat {made : List Place} {name : Text} (h : Made t p.parent made) (hvalid : p.Valid)
    (hparts : p.parts = p.parent.parts ++ [name])
    (hmissing : t.missing p = t.missing p.parent ++ [name]) (hdown : Downward (t.missing p))
    (hnone : t.entry? p.target = none) :
    settleDirectory p (t.grown made) = .ok () (t.grown (made ++ [p.target])) ∧
      Made t p (made ++ [p.target]) := by
  obtain ⟨home, hhome⟩ := h.directory
  have hname : name ∈ t.missing p := hmissing ▸ List.mem_append_right _ List.mem_cons_self
  obtain ⟨hup, hshort⟩ := hdown name hname
  have hparent := eq_target_of_place hhome.place
  have htarget : p.target = home.child (FileName.ofText name) := by
    rw [Path.target, hparts, List.foldl_append, hparent]
    exact if_neg hup
  have hplace : (t.grown made).place p = .ok p.target := by
    refine place_eq_ok.2 ⟨hvalid, ?_⟩
    have hwalk : (t.grown made).walk p.toText p.start p.parent.parts = .ok home :=
      walk_mono (fun _ h => h) (place_eq_ok.1 hhome.place).2
    rw [hparts, walk_append, hwalk, htarget]
    show FileTree.walk _ _ home [name] = _
    rw [walk_of_directory hhome.directory, if_pos (.inr hshort), walk, Place.step, if_neg hup]
  have hnew : p.target ∉ made := by
    intro hmem
    have hreaches := (h.lacks _ hmem).1
    rw [htarget, ← hparent, Place.not_child_reaches] at hreaches
    cases hreaches
  have hfree : FileTree.entry? (t.grown made) p.target = none := by
    rw [entry?_grown_of_not_mem hnew, hnone]
  have hrun := settleDirectory_of_none hplace hfree
  have hgrows : Grows t ((t.grown made).withEntry p.target .directory) := by
    rw [htarget] at hfree ⊢
    exact h.grows.withEntry_directory hhome.directory hfree
  rw [withEntry_of_none hfree, grown_grown] at hrun hgrows
  refine ⟨hrun, directoryAt_of_settleDirectory hrun, hgrows, fun q hq => ?_⟩
  rcases List.mem_append.1 hq with hq | hq
  · obtain ⟨hreaches, hmissed, other, hother, hlast⟩ := h.lacks q hq
    refine ⟨?_, hmissed, other, hmissing ▸ List.mem_append_left _ hother, hlast⟩
    rw [htarget, hparent]
    exact Place.reaches_child hreaches _
  · obtain rfl := List.mem_singleton.1 hq
    refine ⟨Place.reaches_refl _, hnone, name, hname, ?_⟩
    rw [htarget]
    exact List.getLast?_concat

/-- Making a directory and those above it, where what is missing of the path goes down: nothing is
made if it fails. -/
theorem makeDirectories_of_downward (h : Rooted t) (hdown : Downward (t.missing p)) (depth : Nat) :
    (∃ made, makeDirectories depth p t = .ok () (t.grown made) ∧ Made t p made) ∨
      ∃ e, makeDirectories depth p t = .error e t := by
  induction depth generalizing p with
  | zero => exact (settleDirectory_of_downward h hdown).imp_right (Exists.imp fun _ h => h.1)
  | succ depth ih =>
    rcases settleDirectory_of_downward h hdown with ⟨made, hrun, hmade⟩ | ⟨e, hrun, hplace⟩
    · refine .inl ⟨made, ?_, hmade⟩
      rw [makeDirectories, Act.bind_run_ok (Act.attempt_run_ok hrun)]
      rfl
    · have hended := Act.attempt_run_error hrun
      rw [makeDirectories, Act.bind_run_ok hended]
      by_cases hnotFound : ∃ path, e = .file (.notFound path)
      · obtain ⟨path, rfl⟩ := hnotFound
        obtain ⟨hvalid, name, hparts, hmissing, hnone⟩ :=
          h.missing_of_notFound hdown (hplace path rfl)
        have hdown' : Downward (t.missing p.parent) := fun part hpart =>
          hdown part (hmissing ▸ List.mem_append_left _ hpart)
        rcases ih hdown' with ⟨made, habove, hmade⟩ | ⟨e, habove⟩
        · obtain ⟨hlast, hmade⟩ := hmade.concat hvalid hparts hmissing hdown hnone
          exact .inl ⟨_, (Act.bind_run_ok habove).trans hlast, hmade⟩
        · exact .inr ⟨e, Act.bind_run_error habove⟩
      · refine .inr ⟨e, ?_⟩
        cases e with
        | file f =>
          cases f with
          | notFound path => exact absurd ⟨path, rfl⟩ hnotFound
          | _ => rfl
        | _ => rfl

/-! ## What is found in a tree that has grown -/

section Found

variable {made : List Place}

/-- Nothing was made where nothing was missing. -/
theorem Made.grown_eq (h : Made t d made) (hmissing : t.missing d = []) : t.grown made = t := by
  have hnone : made = [] := by
    refine List.eq_nil_iff_forall_not_mem.2 fun q hq => ?_
    obtain ⟨-, -, name, hname, -⟩ := h.lacks q hq
    rw [hmissing] at hname
    cases hname
  rw [hnone, grown_nil]

theorem entry?_ne_none_of_mem {q : Place} {e : FileEntry} (h : (q, e) ∈ t.entries) :
    t.entry? q ≠ none := by
  rw [ entry?]
  split
  · exact Option.some_ne_none _
  · exact fun hnone => entryIn_eq_none.1 hnone _ h rfl

/-- Nothing is in what is not there. -/
theorem Rooted.namesIn_of_none (h : Rooted t) {place : Place} (hnone : t.entry? place = none) :
    t.namesIn place = [] := by
  refine List.filterMap_eq_nil_iff.2 fun e he => ?_
  obtain ⟨⟨origin, names⟩, entry⟩ := e
  split
  · next hparent =>
    rcases List.eq_nil_or_concat' names with rfl | ⟨above, name, rfl⟩
    · rfl
    · have hchild : (⟨origin, above ++ [name]⟩ : Place) = place.child name := by
        rw [← hparent]
        exact congrArg (Place.child · name) (Place.parent_child ⟨origin, above⟩ name).symm
      obtain ⟨e, he⟩ := Option.ne_none_iff_exists'.1 (entry?_ne_none_of_mem he)
      rw [hchild] at he
      cases hnone.symm.trans (h place name e he)
  · rfl

/-- What was made does not show in a listing that leaves out the names that were missing. -/
theorem Made.sameListings (h : Made t d made) {isListed : Text → Bool}
    (hhidden : ∀ name ∈ t.missing d, isListed (FileName.ofText name).toText = false) :
    SameListings isListed t (t.grown made) := by
  intro place
  have hnew : (made.map fun q => (q, FileEntry.directory)).filterMap (fun p =>
      (if p.1.parent = place then p.1.names.getLast?.map FileName.toText else none).filter
        isListed) = [] := by
    refine List.filterMap_eq_nil_iff.2 fun p hp => ?_
    obtain ⟨q, hq, rfl⟩ := List.mem_map.1 hp
    obtain ⟨-, -, name, hname, hlast⟩ := h.lacks q hq
    split
    · rw [hlast]
      exact Option.filter_some_neg (by simpa using hhidden name hname)
    · rfl
  rw [filter_namesIn, filter_namesIn, grown, List.filterMap_append, hnew, List.append_nil]

/-- What a path finds that does not lead to the directory that was made, nor to one above it. -/
theorem Made.look (h : Made t d made) (hrooted : Rooted t) (hdown : Downward (t.missing p))
    (hreaches : p.target.reaches d.target = false) : (t.grown made).look p = t.look p := by
  rcases look_grown hrooted h.grows hdown with hsame | ⟨hnone, hlook, hlook'⟩
  · exact hsame
  · have hnew : p.target ∉ made := by
      intro hmem
      cases hreaches.symm.trans (h.lacks _ hmem).1
    rw [hlook, hlook', entry?_grown_of_not_mem hnew, hnone]

/-- Contract files are found as before, if no name that was missing is that of one. -/
theorem Made.files (h : Made t d made) (hrooted : Rooted t) {dir : Path}
    (hdown : Downward (t.missing dir))
    (hhidden : ∀ name ∈ t.missing d,
      Wasm.ending.isSuffixOf (FileName.ofText name).toText = false) :
    Wasm.files (t.grown made) dir = Wasm.files t dir := by
  have hlists := h.sameListings hhidden
  rcases look_grown hrooted h.grows hdown with hsame | ⟨hnone, hlook, hlook'⟩
  · refine files_of_isDirectory ?_ h.grows.keeps.keepsDirectories hlists
    rw [isDirectory, isDirectory, hsame]
  · -- A directory that was not there lists nothing but what was made.
    have hold : t.isDirectory dir = .ok false := by
      rw [isDirectory, hlook]
      rfl
    apply files_of_names
    rw [names_of_not_directory hold]
    cases hnew : (t.grown made).isDirectory dir with
    | error e =>
      rw [isDirectory, hlook'] at hnew
      cases hnew
    | ok there =>
      cases there with
      | false => rw [names_of_not_directory hnew]
      | true =>
        obtain ⟨place, hplace⟩ := place_of_isDirectory hnew
        rw [names_of_directory hplace, eq_target_of_place hplace.place]
        refine congrArg Except.ok ((hlists _).trans ?_)
        rw [hrooted.namesIn_of_none hnone]

end Found

end FileTree

end CrossChain
