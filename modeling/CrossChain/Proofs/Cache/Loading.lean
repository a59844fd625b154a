import CrossChain.Proofs.Cache.Directory
import CrossChain.Proofs.Outcome.Acknowledgement

/-!
# What is loaded from any files

Loading looks at one file, whatever stands in its place.  Nothing there, or a directory, is no
cache; the bytes of a file are read as text and the text as JSON, and whatever is not an object is
no cache either (`reads_ofContent`).  Two things are not passed over in this way: bytes that are no
UTF-8, and a text in which a limit of the JSON reader is exceeded.  These, and a path that is too
long, are all the failures of loading (`Loads.error_iff`).
-/

namespace CrossChain

namespace Cache

variable [Json.Limits]

open AckBody (IsLimit)

/-! ## Contents -/

/-- Bytes that are no text, or whose text exceeds a limit of the JSON reader. -/
def Unreadable (content : List UInt8) : Prop :=
  (∀ s, Utf8.encode s ≠ .ok content) ∨
    ∃ s, Utf8.encode s = .ok content ∧ Json.ExceedsLimit (unifyLineBreaks s)

/-- What the content of a file is read as: the cache that the members of an object say, no cache
where the text spells no object, and a failure where the bytes cannot be read at all. -/
inductive Reads (content : List UInt8) : Except Failure (Option Cache) → Prop
  | object {s : Text} {members : Table Json} (spells : Utf8.encode s = .ok content)
      (within : ¬ Json.ExceedsLimit (unifyLineBreaks s))
      (spelled : Json.Spelled (unifyLineBreaks s) (.obj members)) :
      Reads content (.ok (some (ofMembers members)))
  | noObject {s : Text} (spells : Utf8.encode s = .ok content)
      (within : ¬ Json.ExceedsLimit (unifyLineBreaks s))
      (noMembers : ∀ members, ¬ Json.Spelled (unifyLineBreaks s) (.obj members)) :
      Reads content (.ok none)
  | notUtf8 {fault : Utf8Fault} (noText : ∀ s, Utf8.encode s ≠ .ok content) :
      Reads content (.error (.value (.utf8 fault)))
  | limit {s : Text} {e : Failure} (spells : Utf8.encode s = .ok content)
      (exceeds : Json.ExceedsLimit (unifyLineBreaks s)) (limit : IsLimit e) :
      Reads content (.error e)

theorem ofContent_of_notUtf8 {content : List UInt8} {fault : Utf8Fault}
    (h : Utf8.decode content = .error fault) :
    ofContent content = .error (.value (.utf8 fault)) := by
  rw [ofContent, Text.ofUtf8, h]
  rfl

/-- The cache that a value says, if it is an object. -/
def ofValue? : Json → Option Cache
  | .obj members => some (ofMembers members)
  | _ => none

theorem ofContent_of_value {content : List UInt8} {s : Text} {v : Json}
    (htext : Utf8.decode content = .ok s) (hread : Json.read (unifyLineBreaks s) = .ok v) :
    ofContent content = .ok (ofValue? v) := by
  have hparse : Json.parse (unifyLineBreaks s) = .ok v := by
    rw [Json.parse, hread]
    rfl
  rw [ofContent, Text.ofUtf8, htext]
  simp only [bind, Except.bind, Except.mapError, hparse]
  cases v <;> rfl

theorem ofContent_of_fault {content : List UInt8} {s : Text} {fault : Json.ReadFault}
    (htext : Utf8.decode content = .ok s)
    (hread : Json.read (unifyLineBreaks s) = .error (.fault fault)) :
    ofContent content = .ok none := by
  have hparse : Json.parse (unifyLineBreaks s) = .error (.value (.json fault)) := by
    rw [Json.parse, hread]
    rfl
  rw [ofContent, Text.ofUtf8, htext]
  simp only [bind, Except.bind, Except.mapError, hparse]
  rfl

theorem ofContent_of_limit {content : List UInt8} {s : Text} {stop : Json.ReadError}
    (htext : Utf8.decode content = .ok s) (hread : Json.read (unifyLineBreaks s) = .error stop)
    (hstop : stop.IsLimit) : ∃ e, IsLimit e ∧ ofContent content = .error e := by
  rw [ofContent, Text.ofUtf8, htext]
  cases stop with
  | fault f => exact hstop.elim
  | tooLong digits =>
    refine ⟨.value (.tooManyDigits digits), trivial, ?_⟩
    simp only [bind, Except.bind, Except.mapError, Json.parse, hread]
    rfl
  | tooDeep container =>
    refine ⟨.tooDeep container, trivial, ?_⟩
    simp only [bind, Except.bind, Except.mapError, Json.parse, hread]
    rfl

/-- Every content is read in one of the four ways. -/
theorem reads_ofContent (content : List UInt8) : Reads content (ofContent content) := by
  cases hdecode : Utf8.decode content with
  | error fault =>
    rw [ofContent_of_notUtf8 hdecode]
    refine .notUtf8 fun s hs => ?_
    rw [Utf8.decode_eq_ok.2 hs] at hdecode
    cases hdecode
  | ok s =>
    have htext := Utf8.decode_eq_ok.1 hdecode
    have hreads := Json.reads (unifyLineBreaks s)
    generalize hread : Json.read (unifyLineBreaks s) = r at hreads
    cases hreads with
    | @value v within spelled =>
      rw [ofContent_of_value hdecode hread]
      -- Within the limits a text spells one value at most.
      have hunique : ∀ w, Json.Spelled (unifyLineBreaks s) w → v = w := fun w hw =>
        Except.ok.inj (hread.symm.trans (Json.read_of_spelled hw within))
      cases v with
      | obj members => exact .object htext within spelled
      | _ => exact .noObject htext within fun members h => nomatch hunique _ h
    | fault within none =>
      rw [ofContent_of_fault hdecode hread]
      exact .noObject htext within fun members => none _
    | limit exceeds limit =>
      obtain ⟨e, he, hcontent⟩ := ofContent_of_limit hdecode hread limit
      rw [hcontent]
      exact .limit htext exceeds he

theorem Reads.error_iff {content : List UInt8} {r : Except Failure (Option Cache)}
    (h : Reads content r) : (∃ e, r = .error e) ↔ Unreadable content := by
  have hsame : ∀ {s t : Text}, Utf8.encode s = .ok content → Utf8.encode t = .ok content → s = t :=
    fun hs ht => Except.ok.inj
      ((Utf8.decode_eq_ok.2 hs).symm.trans (Utf8.decode_eq_ok.2 ht))
  have hreadable : ∀ {s : Text}, Utf8.encode s = .ok content →
      ¬ Json.ExceedsLimit (unifyLineBreaks s) → ¬ Unreadable content := by
    rintro s hs hwithin (hnone | ⟨t, ht, hexceeds⟩)
    · exact hnone s hs
    · exact hwithin (hsame hs ht ▸ hexceeds)
  cases h with
  | object spells within spelled => exact iff_of_false nofun (hreadable spells within)
  | noObject spells within noMembers => exact iff_of_false nofun (hreadable spells within)
  | notUtf8 noText => exact iff_of_true ⟨_, rfl⟩ (.inl noText)
  | limit spells exceeds limit => exact iff_of_true ⟨_, rfl⟩ (.inr ⟨_, spells, exceeds⟩)

/-! ## Files -/

/-- What is loaded where this or that stands at the path of a chain id. -/
inductive Loads (d : Path) (chainId : Text) (t : FileTree) :
    Except Failure (Option Cache) → Prop
  | tooLong {path : Text}
      (h : t.place (Cache.path d chainId) = .error (.file (.nameTooLong path))) :
      Loads d chainId t (.error (.file (.nameTooLong path)))
  | absent (h : t.look (path d chainId) = .ok none) : Loads d chainId t (.ok none)
  | directory (h : t.look (path d chainId) = .ok (some .directory)) : Loads d chainId t (.ok none)
  | file {content : List UInt8} {r : Except Failure (Option Cache)}
      (h : t.look (path d chainId) = .ok (some (.file content))) (reads : Reads content r) :
      Loads d chainId t r

end Cache

namespace FileTree

variable {t : FileTree} {p : Path}

theorem place_of_look_error {e : Failure} (h : t.look p = .error e) :
    ∃ path, e = .file (.nameTooLong path) ∧ t.place p = .error (.file (.nameTooLong path)) := by
  unfold look at h
  split at h
  · cases h
  · next path hplace =>
    cases h
    exact ⟨path, rfl, hplace⟩
  · cases h

theorem look_of_tooLong {path : Text} (h : t.place p = .error (.file (.nameTooLong path))) :
    t.look p = .error (.file (.nameTooLong path)) := by rw [look, h]

theorem place_of_look {entry : FileEntry} (h : t.look p = .ok (some entry)) :
    ∃ q, t.place p = .ok q ∧ t.entry? q = some entry := by
  unfold look at h
  split at h
  · next q hplace => exact ⟨q, hplace, Except.ok.inj h⟩
  · cases h
  · cases h

theorem read_of_look_file {content : List UInt8} (h : t.look p = .ok (some (.file content))) :
    t.read p = .ok content := by
  obtain ⟨q, hplace, hentry⟩ := place_of_look h
  rw [read, hplace]
  simp only [bind, Except.bind, hentry]
  rfl

theorem read_of_look_directory (h : t.look p = .ok (some .directory)) :
    t.read p = .error (.file (.isDirectory p.toText)) := by
  obtain ⟨q, hplace, hentry⟩ := place_of_look h
  rw [read, hplace]
  simp only [bind, Except.bind, hentry]
  rfl

end FileTree

namespace Cache

variable [Json.Limits]

section Load

variable {d : Path} {chainId : Text} {t : FileTree}

theorem load_of_look_error {e : Failure} (h : t.look (path d chainId) = .error e) :
    load d chainId t = .error e t := by
  rw [load, Act.get_bind, h]
  rfl

theorem load_of_look_none (h : t.look (path d chainId) = .ok none) :
    load d chainId t = .ok none t := by
  rw [load, Act.get_bind, h]
  rfl

theorem load_of_look_directory (h : t.look (path d chainId) = .ok (some .directory)) :
    load d chainId t = .ok none t := by
  rw [load, Act.get_bind, h, FileTree.read_of_look_directory h]
  rfl

theorem load_of_look_file {content : List UInt8}
    (h : t.look (path d chainId) = .ok (some (.file content))) :
    load d chainId t = Act.ofExcept (ofContent content) t := by
  rw [load, Act.get_bind, h, FileTree.read_of_look_file h]
  rfl

end Load

/-- Whatever stands at its path, loading ends in one of these ways and leaves the files alone. -/
theorem loads (d : Path) (chainId : Text) (t : FileTree) :
    ∃ found, Act.outcome (load d chainId) t = (found, t) ∧ Loads d chainId t found := by
  cases hlook : t.look (path d chainId) with
  | error e =>
    obtain ⟨path, rfl, hplace⟩ := FileTree.place_of_look_error hlook
    exact ⟨_, by rw [Act.outcome, load_of_look_error hlook], .tooLong hplace⟩
  | ok found =>
    cases found with
    | none => exact ⟨_, by rw [Act.outcome, load_of_look_none hlook], .absent hlook⟩
    | some entry =>
      cases entry with
      | directory =>
        exact ⟨_, by rw [Act.outcome, load_of_look_directory hlook], .directory hlook⟩
      | file content =>
        refine ⟨ofContent content, ?_, .file hlook (reads_ofContent content)⟩
        rw [Act.outcome, load_of_look_file hlook]
        cases ofContent content <;> rfl

/-- Loading fails where the path is too long, and where the file cannot be read as text or its text
exceeds a limit; nowhere else. -/
theorem Loads.error_iff {d : Path} {chainId : Text} {t : FileTree}
    {found : Except Failure (Option Cache)} (h : Loads d chainId t found) :
    (∃ e, found = .error e) ↔
      (∃ path, t.place (Cache.path d chainId) = .error (.file (.nameTooLong path))) ∨
        ∃ content, t.look (Cache.path d chainId) = .ok (some (.file content)) ∧
          Unreadable content := by
  have hshort : ∀ {found : Option FileEntry}, t.look (Cache.path d chainId) = .ok found →
      ¬ ∃ path, t.place (Cache.path d chainId) = .error (.file (.nameTooLong path)) := by
    rintro found hlook ⟨path, hplace⟩
    rw [FileTree.look_of_tooLong hplace] at hlook
    cases hlook
  cases h with
  | tooLong hplace => exact iff_of_true ⟨_, rfl⟩ (.inl ⟨_, hplace⟩)
  | absent hlook =>
    refine iff_of_false nofun (not_or.2 ⟨hshort hlook, ?_⟩)
    rintro ⟨content, hfile, -⟩
    cases hlook.symm.trans hfile
  | directory hlook =>
    refine iff_of_false nofun (not_or.2 ⟨hshort hlook, ?_⟩)
    rintro ⟨content, hfile, -⟩
    cases hlook.symm.trans hfile
  | @file content r hlook reads =>
    rw [reads.error_iff, or_iff_right (hshort hlook)]
    constructor
    · exact fun h => ⟨content, hlook, h⟩
    · rintro ⟨content', hfile, h⟩
      cases hlook.symm.trans hfile
      exact h

end Cache

end CrossChain
