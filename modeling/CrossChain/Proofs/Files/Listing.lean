import CrossChain.Proofs.Files.Tree
import CrossChain.Proofs.Text.Utf8
import CrossChain.Wasm
import Mathlib.Data.List.Basic

/-!
# What is listed

The last byte of a name is the last code point that is shown of it, if it is one by itself
(`getLast?_toText`).  Trees with the same directories are gone through alike (`isDirectory_congr`),
and an entry that is made or replaced does not show in a listing that leaves out its name
(`filter_namesIn_withEntry`); so contract files are found alike in trees that differ in no
directory and no contract file (`files_congr`).
-/

namespace CrossChain

/-! ## Names as they are shown -/

namespace Utf8

theorem tail_encodePoint (c : CodePoint) : ∀ x ∈ (encodePoint c).tail, 0x80 ≤ x.toNat := by
  have hbyte : ∀ n : Nat, 0x80 ≤ (0x80 + n % 0x40).toUInt8.toNat := by
    intro n
    rw [toNat_toUInt8 (by omega)]
    omega
  intro x hx
  unfold encodePoint at hx
  dsimp only at hx
  split at hx
  · cases hx
  split at hx
  · obtain rfl := List.mem_singleton.1 hx
    exact hbyte _
  split at hx
  · simp only [List.tail_cons, List.mem_cons, List.not_mem_nil, or_false] at hx
    rcases hx with rfl | rfl <;> exact hbyte _
  · simp only [List.tail_cons, List.mem_cons, List.not_mem_nil, or_false] at hx
    rcases hx with rfl | rfl | rfl <;> exact hbyte _

/-- The bytes that belong to a code point after its first are no code points by themselves. -/
theorem continues_of_first? {b : UInt8} {rest : List UInt8} {c : CodePoint} {size : Nat}
    (h : first? (b :: rest) = some (c, size)) : ∀ x ∈ rest.take (size - 1), 0x80 ≤ x.toNat := by
  rw [first?] at h
  obtain ⟨more, -, h⟩ := Option.bind_eq_some_iff.1 h
  split at h
  · next c' hdecode =>
    cases h
    obtain ⟨-, hbytes⟩ := encode_eq_ok.1 (decode_eq_ok.1 hdecode)
    rw [List.flatMap_singleton] at hbytes
    have htail := tail_encodePoint c
    rwa [← hbytes, List.tail_cons] at htail
  · cases h

theorem first?_ascii {b : UInt8} (hb : b.toNat < 0x80) :
    first? [b] = some (CodePoint.ofNat b.toNat, 1) := by
  have hfollowing : following? b = some 0 := by rw [following?, if_pos hb]
  have hdecode : decode [b] = .ok [CodePoint.ofNat b.toNat] := by
    rw [decode, decodeFrom_ascii_cons hb]
    rfl
  simp only [first?, hfollowing, bind, Option.bind, List.take_nil, hdecode]

end Utf8

namespace FileName

theorem getLast?_showFrom {name : FileName} {b : UInt8} (hlast : name.getLast? = some b)
    (hb : b.toNat < 0x80) {known : Nat} (hknown : ∀ x ∈ name.take known, 0x80 ≤ x.toNat) :
    (showFrom known name).getLast? = some (CodePoint.ofNat b.toNat) := by
  induction name generalizing known with
  | nil => cases hlast
  | cons x rest ih =>
    have hcons : ∀ (c : CodePoint) {s : Text}, s.getLast? = some (CodePoint.ofNat b.toNat) →
        (c :: s).getLast? = some (CodePoint.ofNat b.toNat) := by
      intro c s hs
      rw [List.getLast?_cons, hs, Option.getD_some]
    cases rest with
    | nil =>
      obtain rfl : x = b := Option.some.inj hlast
      have hnone : ¬ 0 < known := by
        intro hpos
        obtain ⟨k, rfl⟩ := Nat.exists_eq_succ_of_ne_zero (Nat.ne_of_gt hpos)
        have := hknown x List.mem_cons_self
        omega
      rw [showFrom, if_neg hnone, Utf8.first?_ascii hb]
      rfl
    | cons y rest =>
      have hlast' : (y :: rest).getLast? = some b := by
        rwa [List.getLast?_cons_cons] at hlast
      rw [showFrom]
      split
      · next hpos =>
        refine ih hlast' fun z hz => hknown z ?_
        obtain ⟨k, rfl⟩ := Nat.exists_eq_succ_of_ne_zero (Nat.ne_of_gt hpos)
        exact List.mem_cons_of_mem x hz
      · split
        · next hfirst => exact hcons _ (ih hlast' (Utf8.continues_of_first? hfirst))
        · exact hcons _ (ih hlast' nofun)

theorem getLast?_toText {name : FileName} {b : UInt8} (hlast : name.getLast? = some b)
    (hb : b.toNat < 0x80) : (toText name).getLast? = some (CodePoint.ofNat b.toNat) :=
  getLast?_showFrom hlast hb nofun

end FileName

/-! ## Trees with the same directories -/

namespace FileTree

variable {t t' : FileTree}

/-- Directories stand at the same places. -/
def SameDirectories (t t' : FileTree) : Prop :=
  ∀ place, t'.entry? place = some .directory ↔ t.entry? place = some .directory

theorem SameDirectories.keeps (h : SameDirectories t t') : KeepsDirectories t t' :=
  fun place => (h place).2

theorem sameDirectories_withEntry_file {place : Place} (h : t.entry? place ≠ some .directory)
    (content : List UInt8) : SameDirectories t (t.withEntry place (.file content)) := by
  intro q
  by_cases hq : q = place
  · subst hq
    rw [entry?_withEntry_self (names_ne_nil h)]
    exact iff_of_false nofun h
  · rw [entry?_withEntry_of_ne hq]

/-- Where a way ends, as far as it can be seen: a way that is blocked leads nowhere, but one with a
name that is too long is refused. -/
def seen : Except Failure Place → Except Failure (Option Place)
  | .ok place => .ok (some place)
  | .error (.file (.nameTooLong path)) => .error (.file (.nameTooLong path))
  | .error _ => .ok none

theorem look_eq_seen (t : FileTree) (p : Path) :
    t.look p = (seen (t.place p)).map fun found => found.bind t.entry? := by
  rw [look]
  cases t.place p with
  | ok place => rfl
  | error e =>
    cases e with
    | file f => cases f <;> rfl
    | _ => rfl

theorem seen_walk_congr (h : SameDirectories t t') (path : Text) (place : Place)
    (names : List Text) : seen (t'.walk path place names) = seen (t.walk path place names) := by
  induction names generalizing place with
  | nil => rfl
  | cons name rest ih =>
    by_cases hdirectory : t.entry? place = some .directory
    · rw [walk, walk, hdirectory, (h place).2 hdirectory]
      simp only
      split
      · exact ih _
      · split
        · rfl
        · exact ih _
    · -- Whatever blocks the way, it leads nowhere.
      have hblocked : ∀ {u : FileTree}, u.entry? place ≠ some .directory →
          seen (u.walk path place (name :: rest)) = .ok none := by
        intro u hu
        rw [walk]
        split
        · rfl
        · rfl
        · next hentry => exact absurd hentry hu
      rw [hblocked hdirectory, hblocked (mt (h place).1 hdirectory)]

theorem seen_place_congr (h : SameDirectories t t') (p : Path) :
    seen (t'.place p) = seen (t.place p) := by
  rw [place, place]
  cases FileName.fault? p.toText with
  | some fault => rfl
  | none =>
    cases p.toText.contains 0 with
    | true => rfl
    | false =>
      by_cases hlong : maxPath < (FileName.ofText p.toText).length
      · simp only [Bool.false_eq_true, if_false, if_pos hlong]
        rfl
      · simp only [Bool.false_eq_true, if_false, if_neg hlong]
        exact seen_walk_congr h _ _ _

theorem isDirectory_eq_seen (t : FileTree) (p : Path) :
    t.isDirectory p =
      (seen (t.place p)).map fun found => found.bind t.entry? == some .directory := by
  rw [isDirectory, look_eq_seen]
  cases seen (t.place p) <;> rfl

theorem isDirectory_congr (h : SameDirectories t t') (p : Path) :
    t'.isDirectory p = t.isDirectory p := by
  rw [isDirectory_eq_seen, isDirectory_eq_seen, seen_place_congr h]
  cases seen (t.place p) with
  | error e => rfl
  | ok found =>
    cases found with
    | none => rfl
    | some place =>
      refine congrArg Except.ok (Bool.eq_iff_iff.2 ?_)
      rw [beq_iff_eq, beq_iff_eq]
      exact h place

theorem place_of_isDirectory {p : Path} (h : t.isDirectory p = .ok true) :
    ∃ place, DirectoryAt t p place := by
  obtain ⟨found, hlook, hfound⟩ := Act.except_bind_eq_ok h
  have hdirectory : found = some .directory := beq_iff_eq.1 (Except.ok.inj hfound)
  exact DirectoryAt.of_look (hdirectory ▸ hlook)

theorem DirectoryAt.isDirectory {p : Path} {place : Place} (h : DirectoryAt t p place) :
    t.isDirectory p = .ok true := by
  rw [FileTree.isDirectory, h.look_eq]
  rfl

/-! ## Listings -/

theorem names_of_directory {p : Path} {place : Place} (h : DirectoryAt t p place) :
    t.names p = .ok (t.namesIn place) := by
  rw [names, h.isDirectory, h.place]
  rfl

theorem names_of_not_directory {p : Path} (h : t.isDirectory p = .ok false) :
    t.names p = .ok [] := by
  rw [names, h]
  rfl

theorem names_of_error {p : Path} {e : Failure} (h : t.isDirectory p = .error e) :
    t.names p = .error e := by
  rw [names, h]
  rfl

/-- Two trees list the same where names that are of no interest are left out. -/
def SameListings (isListed : Text → Bool) (t t' : FileTree) : Prop :=
  ∀ place, (t'.namesIn place).filter isListed = (t.namesIn place).filter isListed

theorem filter_namesIn (isListed : Text → Bool) (t : FileTree) (place : Place) :
    (t.namesIn place).filter isListed = t.entries.filterMap fun p =>
      (if p.1.parent = place then p.1.names.getLast?.map FileName.toText else none).filter
        isListed := by
  rw [namesIn, List.filter_filterMap]

theorem filter_namesIn_withEntry {isListed : Text → Bool} {place : Place}
    (h : ∀ name, place.names.getLast? = some name → isListed name.toText = false)
    (e : FileEntry) : SameListings isListed t (t.withEntry place e) := by
  intro q
  have hhidden : ∀ p : Place × FileEntry, p.1 = place →
      (if p.1.parent = q then p.1.names.getLast?.map FileName.toText else none).filter
        isListed = none := by
    rintro p rfl
    split
    · cases hlast : p.1.names.getLast? with
      | none => rfl
      | some name => exact Option.filter_some_neg (by simpa using h name hlast)
    · rfl
  have hlast : [(place, e)].filterMap (fun p =>
      (if p.1.parent = q then p.1.names.getLast?.map FileName.toText else none).filter
        isListed) = [] := List.filterMap_cons_none (hhidden _ rfl)
  rw [filter_namesIn, filter_namesIn, withEntry, List.filterMap_append, hlast, List.append_nil,
    List.filterMap_filter]
  apply List.filterMap_congr
  intro p _
  by_cases hp : p.1 = place
  · rw [hhidden p hp]
    split <;> rfl
  · rw [if_pos (by simpa using hp)]

/-! ## Contract files -/

theorem files_of_names {dir : Path} (h : (t'.names dir).map (List.filter Wasm.ending.isSuffixOf) =
    (t.names dir).map (List.filter Wasm.ending.isSuffixOf)) :
    Wasm.files t' dir = Wasm.files t dir := by
  have hfiles : ∀ u : FileTree, Wasm.files u dir =
      ((u.names dir).map (List.filter Wasm.ending.isSuffixOf)).map fun names =>
        (names.mergeSort Text.le).map fun name => ⟨dir.root, dir.parts ++ [name]⟩ := by
    intro u
    rw [Wasm.files]
    cases u.names dir <;> rfl
  rw [hfiles, hfiles, h]

theorem files_of_isDirectory {dir : Path} (hdirectory : t'.isDirectory dir = t.isDirectory dir)
    (hkeeps : KeepsDirectories t t') (hlists : SameListings Wasm.ending.isSuffixOf t t') :
    Wasm.files t' dir = Wasm.files t dir := by
  apply files_of_names
  cases h : t.isDirectory dir with
  | error e => rw [names_of_error h, names_of_error (hdirectory.trans h)]
  | ok there =>
    cases there with
    | false => rw [names_of_not_directory h, names_of_not_directory (hdirectory.trans h)]
    | true =>
      obtain ⟨place, hplace⟩ := place_of_isDirectory h
      rw [names_of_directory hplace, names_of_directory (hplace.mono hkeeps)]
      exact congrArg Except.ok (hlists place)

theorem files_congr (hsame : SameDirectories t t')
    (hlists : SameListings Wasm.ending.isSuffixOf t t') (dir : Path) :
    Wasm.files t' dir = Wasm.files t dir :=
  files_of_isDirectory (isDirectory_congr hsame dir) hsame.keeps hlists

end FileTree

end CrossChain
