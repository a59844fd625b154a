import CrossChain.Json.Display
import CrossChain.Proofs.Json.Layout
import CrossChain.Proofs.Text.Cutting
import CrossChain.Proofs.Text.Phrases

/-!
# Phrases in displayed values

A value that is displayed shows every string that it mentions, as a value or as a name, in quotes
(`Mentions.infix_quoted`).  A phrase of several words is found in what is displayed only within one
of these strings as it is shown, for nothing else that is displayed has a space in it but what
separates items and members (`infix_quoted_iff`).
-/

namespace CrossChain

namespace Text

variable {pat piece : Text} {pieces : List Text}

theorem infix_join_of_mem (h : piece ∈ pieces) (sep : Text) : piece <:+: join sep pieces := by
  induction pieces with
  | nil => cases h
  | cons first rest ih =>
    cases rest with
    | nil => rw [List.mem_singleton.1 h]; exact List.infix_rfl
    | cons second rest =>
      rw [join_cons_cons]
      rcases List.mem_cons.1 h with rfl | h
      · exact (List.prefix_append _ _).isInfix
      · exact (ih h).trans ((List.suffix_append sep _).trans (List.suffix_append first _)).isInfix

/-- Several words, the first of which comes first, without what separates items, members and names
from each other. -/
structure Words (pat : Text) : Prop where
  spaced : 32 ∈ pat
  starts : pat.head? ≠ some 32
  unseparated : ∀ c ∈ [44, 58, 91, 93, 123, 125], c ∉ pat

theorem Words.not_infix (hpat : Words pat) {s : Text} (hs : 32 ∉ s) : ¬ pat <:+: s := fun h =>
  hs (h.subset hpat.spaced)

/-- Words are not found across a separator with a space after it. -/
theorem Words.of_separated (hpat : Words pat) {a b : Text} {c : CodePoint} (hc : c ∉ pat)
    (h : pat <:+: a ++ c :: 32 :: b) : pat <:+: a ∨ pat <:+: b := by
  refine ((infix_append_cons hc).1 h).imp_right fun h => ?_
  rcases List.infix_cons_iff.1 h with hprefix | h
  · rcases List.prefix_cons_iff.1 hprefix with rfl | ⟨rest, rfl, -⟩
    · exact List.nil_infix
    · exact absurd rfl hpat.starts
  · exact h

theorem Words.of_join (hpat : Words pat) (h : pat <:+: join ", " pieces) :
    ∃ piece ∈ pieces, pat <:+: piece := by
  induction pieces with
  | nil => exact absurd h (hpat.not_infix List.not_mem_nil)
  | cons first rest ih =>
    cases rest with
    | nil => exact ⟨first, List.mem_cons_self, h⟩
    | cons second rest =>
      rw [join_cons_cons] at h
      rcases hpat.of_separated (hpat.unseparated 44 (by decide)) h with h | h
      · exact ⟨first, List.mem_cons_self, h⟩
      · obtain ⟨piece, hpiece, h⟩ := ih h
        exact ⟨piece, List.mem_cons_of_mem _ hpiece, h⟩

/-- Words are not found around what is between brackets. -/
theorem Words.of_enclosed (hpat : Words pat) {a : Text} {c d : CodePoint} (hc : c ∉ pat)
    (hd : d ∉ pat) (h : pat <:+: c :: (a ++ [d])) : pat <:+: a := by
  have hnil : ¬ pat <:+: [] := hpat.not_infix List.not_mem_nil
  have ha := ((infix_append_cons (a := []) hc).1 h).resolve_left hnil
  exact ((infix_append_cons hd).1 ha).resolve_right hnil

end Text

namespace Json

/-- A string stands in a value, as a value or as a name, at any depth. -/
inductive Mentions : Json → Text → Prop
  | self (s : Text) : Mentions (.str s) s
  | item {items : List Json} {item : Json} {s : Text} (hitem : item ∈ items)
      (h : Mentions item s) : Mentions (.arr items) s
  | value {members : List (Text × Json)} {member : Text × Json} {s : Text}
      (hmember : member ∈ members) (h : Mentions member.2 s) : Mentions (.obj members) s
  | name {members : List (Text × Json)} {member : Text × Json} (hmember : member ∈ members) :
      Mentions (.obj members) member.1

/-! ## What is displayed -/

/-- A member as it is displayed. -/
def quotedMember (member : Text × Json) : Text := member.1.quoted ++ 58 :: 32 :: quoted member.2

theorem quotedItems_eq (items : List Json) :
    quotedItems items = Text.join ", " (items.map quoted) := by
  induction items with
  | nil => rfl
  | cons x items ih =>
    cases items with
    | nil => rfl
    | cons y items =>
      rw [List.map_cons, List.map_cons, Text.join_cons_cons, ← List.map_cons, ← ih, quotedItems,
        List.append_assoc]
      exact List.cons_ne_nil y items

theorem quotedMembers_eq (members : List (Text × Json)) :
    quotedMembers members = Text.join ", " (members.map quotedMember) := by
  have hone : ∀ k v, k.quoted ++ text ": " ++ quoted v = quotedMember (k, v) := fun k v =>
    List.append_assoc ..
  induction members with
  | nil => rfl
  | cons m members ih =>
    obtain ⟨k, v⟩ := m
    cases members with
    | nil => exact hone k v
    | cons n members =>
      rw [List.map_cons, List.map_cons, Text.join_cons_cons, ← List.map_cons, ← ih, quotedMembers,
        List.append_assoc, hone]
      exact List.cons_ne_nil n members

theorem quoted_arr (items : List Json) :
    quoted (.arr items) = 91 :: (Text.join ", " (items.map quoted) ++ [93]) := by
  rw [quoted, quotedItems_eq]
  rfl

theorem quoted_obj (members : List (Text × Json)) :
    quoted (.obj members) = 123 :: (Text.join ", " (members.map quotedMember) ++ [125]) := by
  rw [quoted, quotedMembers_eq]
  rfl

/-- What a value mentions is shown in quotes. -/
theorem Mentions.infix_quoted {v : Json} {s : Text} (h : v.Mentions s) :
    s.quoted <:+: v.quoted := by
  have henclosed : ∀ {a b : Text} (c d : CodePoint), a <:+: b → a <:+: c :: (b ++ [d]) :=
    fun c d h => h.trans ⟨[c], [d], rfl⟩
  induction h with
  | self s => exact List.infix_rfl
  | item hitem _ ih =>
    rw [quoted_arr]
    exact henclosed 91 93 (ih.trans (Text.infix_join_of_mem (List.mem_map_of_mem hitem) _))
  | @value members member s hmember _ ih =>
    have hsuffix : member.2.quoted <:+: quotedMember member :=
      ((List.suffix_append [58, 32] _).trans (List.suffix_append member.1.quoted _)).isInfix
    rw [quoted_obj]
    exact henclosed 123 125 ((ih.trans hsuffix).trans
      (Text.infix_join_of_mem (List.mem_map_of_mem hmember) _))
  | @name members member hmember =>
    have hstarts : member.1.quoted <:+: quotedMember member := (List.prefix_append _ _).isInfix
    rw [quoted_obj]
    exact henclosed 123 125 (hstarts.trans
      (Text.infix_join_of_mem (List.mem_map_of_mem hmember) _))

/-! ## Numbers -/

theorem space_not_mem_ofNat (n : Nat) : 32 ∉ Text.ofNat n := fun h =>
  absurd (Text.isAsciiDigit_of_mem_ofNat h) (by decide)

theorem space_not_mem_ofInt (n : Int) : 32 ∉ Text.ofInt n := by
  cases n with
  | ofNat n => exact space_not_mem_ofNat n
  | negSucc n =>
    exact List.mem_cons.not.2 (not_or.2 ⟨by decide, space_not_mem_ofNat (n + 1)⟩)

theorem space_not_mem_layout {digits : Text} (h : 32 ∉ digits) (point : Int) :
    32 ∉ Binary64.layout digits point := by
  have htake : ∀ n, 32 ∉ digits.take n := fun n hmem => h (List.mem_of_mem_take hmem)
  have hdrop : ∀ n, 32 ∉ digits.drop n := fun n hmem => h (List.mem_of_mem_drop hmem)
  have hzeros : ∀ n, (32 : CodePoint) ∉ List.replicate n 48 := fun n hmem =>
    absurd (List.eq_of_mem_replicate hmem) (by decide)
  have hpoint : 32 ∉ text "." := by decide
  have hleading : 32 ∉ text "0." := by decide
  have htrailing : 32 ∉ text ".0" := by decide
  have he : 32 ∉ text "e" := by decide
  have hminus : 32 ∉ text "-" := by decide
  have hplus : 32 ∉ text "+" := by decide
  rw [Binary64.layout]
  split
  · split
    · simp only [List.mem_append, not_or]
      exact ⟨⟨hleading, hzeros _⟩, h⟩
    · split
      · simp only [List.mem_append, not_or]
        exact ⟨⟨htake _, hpoint⟩, hdrop _⟩
      · simp only [List.mem_append, not_or]
        exact ⟨⟨h, hzeros _⟩, htrailing⟩
  · simp only [List.mem_append, not_or]
    refine ⟨⟨⟨⟨⟨htake _, ?_⟩, he⟩, ?_⟩, hzeros _⟩, space_not_mem_ofNat _⟩
    · split
      · exact List.not_mem_nil
      · exact List.mem_append.not.2 (not_or.2 ⟨hpoint, hdrop _⟩)
    · split
      · exact hminus
      · exact hplus

theorem space_not_mem_toText (x : Binary64) : 32 ∉ x.toText := by
  have hmagnitude : ∀ m e, 32 ∉ Binary64.magnitudeText m e := by
    intro m e
    rw [Binary64.magnitudeText]
    split
    · decide
    · refine space_not_mem_layout (fun hmem => ?_) _
      rw [Text.stripRight, List.mem_reverse] at hmem
      have hdigits := (List.dropWhile_suffix _).subset hmem
      exact space_not_mem_ofNat _ (List.mem_reverse.1 hdigits)
  cases x with
  | nan => decide
  | infinite negative => cases negative <;> decide
  | finite negative m e =>
    rw [Binary64.toText]
    split
    · exact List.mem_append.not.2 (not_or.2 ⟨by decide, hmagnitude m e⟩)
    · exact hmagnitude m e

/-- Words are found in what is displayed of a value exactly where they are found in what is shown of
a string that it mentions. -/
theorem infix_quoted_iff {pat : Text} (hpat : Text.Words pat) (v : Json) :
    pat <:+: v.quoted ↔ ∃ s, v.Mentions s ∧ pat <:+: s.quoted := by
  refine ⟨?_, fun ⟨s, hs, h⟩ => h.trans hs.infix_quoted⟩
  induction v using induct with
  | null => exact fun h => absurd h (hpat.not_infix (by decide))
  | bool b =>
    have hb : 32 ∉ quoted (.bool b) := by cases b <;> decide
    exact fun h => absurd h (hpat.not_infix hb)
  | int n => exact fun h => absurd h (hpat.not_infix (space_not_mem_ofInt n))
  | float x => exact fun h => absurd h (hpat.not_infix (space_not_mem_toText x))
  | str s => exact fun h => ⟨s, .self s, h⟩
  | arr items ih =>
    intro h
    rw [quoted_arr] at h
    obtain ⟨piece, hpiece, h⟩ := hpat.of_join
      (hpat.of_enclosed (hpat.unseparated 91 (by decide)) (hpat.unseparated 93 (by decide)) h)
    obtain ⟨item, hitem, rfl⟩ := List.mem_map.1 hpiece
    obtain ⟨s, hs, h⟩ := ih item hitem h
    exact ⟨s, .item hitem hs, h⟩
  | obj members ih =>
    intro h
    rw [quoted_obj] at h
    obtain ⟨piece, hpiece, h⟩ := hpat.of_join
      (hpat.of_enclosed (hpat.unseparated 123 (by decide)) (hpat.unseparated 125 (by decide)) h)
    obtain ⟨member, hmember, rfl⟩ := List.mem_map.1 hpiece
    rcases hpat.of_separated (hpat.unseparated 58 (by decide)) h with h | h
    · exact ⟨member.1, .name hmember, h⟩
    · obtain ⟨s, hs, h⟩ := ih member hmember h
      exact ⟨s, .value hmember hs, h⟩

/-! ## Values that are not empty -/

/-- A value that mentions something is not empty. -/
theorem Mentions.isEmpty_eq_false {v : Json} {s : Text} (h : v.Mentions s) (hs : s ≠ []) :
    v.isEmpty = false := by
  cases h with
  | self s => exact List.isEmpty_eq_false_iff.2 hs
  | item hitem _ => exact List.isEmpty_eq_false_iff.2 (List.ne_nil_of_mem hitem)
  | value hmember _ | name hmember =>
    exact List.isEmpty_eq_false_iff.2 (List.ne_nil_of_mem hmember)

theorem layout_ne_nil (digits : Text) (point : Int) : Binary64.layout digits point ≠ [] := by
  have hleading : text "0." ≠ [] := by decide
  have hpoint : text "." ≠ [] := by decide
  have htrailing : text ".0" ≠ [] := by decide
  have he : text "e" ≠ [] := by decide
  rw [Binary64.layout]
  split
  · split
    · simp only [ne_eq, List.append_eq_nil_iff, hleading, false_and, not_false_iff]
    · split
      · simp only [ne_eq, List.append_eq_nil_iff, hpoint, and_false, false_and, not_false_iff]
      · simp only [ne_eq, List.append_eq_nil_iff, htrailing, and_false, not_false_iff]
  · simp only [ne_eq, List.append_eq_nil_iff, he, and_false, false_and, not_false_iff]

theorem toText_ne_nil (x : Binary64) : x.toText ≠ [] := by
  have hmagnitude : ∀ m e, Binary64.magnitudeText m e ≠ [] := by
    intro m e
    rw [Binary64.magnitudeText]
    split
    · decide
    · exact layout_ne_nil _ _
  cases x with
  | nan => decide
  | infinite negative => cases negative <;> decide
  | finite negative m e =>
    rw [Binary64.toText]
    split
    · exact List.append_ne_nil_of_right_ne_nil _ (hmagnitude m e)
    · exact hmagnitude m e

/-- Something is displayed of a value that is not empty. -/
theorem display_ne_nil {v : Json} (h : v.isEmpty = false) : v.display ≠ [] := by
  cases v with
  | null => cases h
  | bool b => cases b <;> decide
  | int n =>
    obtain ⟨c, t, hn, -⟩ := ofInt_cons n
    show Text.ofInt n ≠ []
    rw [hn]
    exact List.cons_ne_nil c t
  | float x => exact toText_ne_nil x
  | str s => exact List.isEmpty_eq_false_iff.1 h
  | arr items =>
    show quoted (.arr items) ≠ []
    rw [quoted_arr]
    exact List.cons_ne_nil _ _
  | obj members =>
    show quoted (.obj members) ≠ []
    rw [quoted_obj]
    exact List.cons_ne_nil _ _

theorem display_of_not_str {v : Json} (h : ∀ s, v ≠ .str s) : v.display = v.quoted := by
  cases v with
  | str s => exact absurd rfl (h s)
  | _ => rfl

end Json

end CrossChain
