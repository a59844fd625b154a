import CrossChain.Proofs.Json.Numbers
import CrossChain.Proofs.Json.Strings

/-!
# Layouts

The two ways to write a value differ only in the blanks between its parts: each is the notation in a
layout of its own (`Layout.print_lines`, `Layout.print_tight`).  What is written is printable ASCII
with line feeds (`visible_print`).
-/

namespace CrossChain

namespace Json

/-! ## Induction over values -/

/-- A property of all values, shown for a list from its items and for an object from its
members. -/
@[elab_as_elim]
theorem induct {P : Json → Prop} (null : P .null) (bool : ∀ b, P (.bool b)) (int : ∀ n, P (.int n))
    (float : ∀ x, P (.float x)) (str : ∀ s, P (.str s))
    (arr : ∀ items : List Json, (∀ x ∈ items, P x) → P (.arr items))
    (obj : ∀ members : List (Text × Json), (∀ m ∈ members, P m.2) → P (.obj members)) : ∀ v, P v
  | .null => null
  | .bool b => bool b
  | .int n => int n
  | .float x => float x
  | .str s => str s
  | .arr items => arr items fun x _ => induct null bool int float str arr obj x
  | .obj members => obj members fun m _ => induct null bool int float str arr obj m.2
termination_by v => sizeOf v
decreasing_by
  · have hx := List.sizeOf_lt_of_mem ‹x ∈ items›
    simp only [Json.arr.sizeOf_spec]
    omega
  · have hm := List.sizeOf_lt_of_mem ‹m ∈ members›
    have hvalue : sizeOf m.2 < sizeOf m := by
      cases m
      simp only [Prod.mk.sizeOf_spec]
      omega
    simp only [Json.obj.sizeOf_spec]
    omega

/-! ## Values that can be read -/

mutual

/-- A value that the reader takes where containers may still stand inside each other `room` deep: it
has no binary64 number and no integer of too many digits. -/
def Readable : Nat → Json → Prop
  | _, null => True
  | _, bool _ => True
  | _, int n => Short n
  | _, float _ => False
  | _, str _ => True
  | room, arr items => 0 < room ∧ ReadableItems (room - 1) items
  | room, obj members => 0 < room ∧ ReadableMembers (room - 1) members

/-- Items that can be read. -/
def ReadableItems : Nat → List Json → Prop
  | _, [] => True
  | room, x :: xs => Readable room x ∧ ReadableItems room xs

/-- Members that can be read. -/
def ReadableMembers : Nat → List (Text × Json) → Prop
  | _, [] => True
  | room, (_, v) :: ms => Readable room v ∧ ReadableMembers room ms

end

mutual

/-- The value with the surrogate pairs of its strings joined. -/
def joined : Json → Json
  | null => .null
  | bool b => .bool b
  | int n => .int n
  | float x => .float x
  | str s => .str s.joined
  | arr items => .arr (joinedItems items)
  | obj members => ofPairs (joinedMembers members)

/-- The items with the surrogate pairs of their strings joined. -/
def joinedItems : List Json → List Json
  | [] => []
  | x :: xs => joined x :: joinedItems xs

/-- The members with the surrogate pairs of their strings joined. -/
def joinedMembers : List (Text × Json) → List (Text × Json)
  | [] => []
  | (k, v) :: ms => (k.joined, joined v) :: joinedMembers ms

end

theorem readableItems_iff {room : Nat} {items : List Json} :
    ReadableItems room items ↔ ∀ x ∈ items, Readable room x := by
  induction items with
  | nil => exact iff_of_true trivial fun _ h => absurd h List.not_mem_nil
  | cons x xs ih => rw [ReadableItems, ih, List.forall_mem_cons]

theorem readableMembers_iff {room : Nat} {members : List (Text × Json)} :
    ReadableMembers room members ↔ ∀ m ∈ members, Readable room m.2 := by
  induction members with
  | nil => exact iff_of_true trivial fun _ h => absurd h List.not_mem_nil
  | cons m ms ih => rw [ReadableMembers, ih, List.forall_mem_cons]

/-! ## Layouts -/

/-- The blanks in front of an item or a closing bracket at each level, and after a colon. -/
structure Layout where
  gap : Nat → Text
  colonGap : Text
  blank_gap : ∀ level, ∀ c ∈ gap level, c = 32 ∨ c = 10
  blank_colonGap : ∀ c ∈ colonGap, c = 32 ∨ c = 10

namespace Layout

/-- Every item on a line of its own. -/
def lines : Layout where
  gap := newLine
  colonGap := [32]
  blank_gap level c hc := by
    rcases List.mem_cons.1 hc with h | h
    · exact .inr h
    · exact .inl (List.eq_of_mem_replicate h)
  blank_colonGap c hc := .inl (List.mem_singleton.1 hc)

/-- No blanks. -/
def tight : Layout where
  gap _ := []
  colonGap := []
  blank_gap _ _ hc := absurd hc List.not_mem_nil
  blank_colonGap _ hc := absurd hc List.not_mem_nil

variable (L : Layout)

mutual

/-- A value in a layout. -/
def print (level : Nat) : Json → Text
  | null => "null"
  | bool b => if b then "true" else "false"
  | int n => Text.ofInt n
  | float x => floatText x
  | str s => stringText s
  | arr [] => "[]"
  | arr (x :: xs) =>
    91 :: L.gap (level + 1) ++ print (level + 1) x ++ printItems (level + 1) xs ++ L.gap level ++
      [93]
  | obj [] => "\x7b\x7d"
  | obj ((k, v) :: ms) =>
    123 :: L.gap (level + 1) ++ stringText k ++ (58 :: L.colonGap) ++ print (level + 1) v ++
      printMembers (level + 1) ms ++ L.gap level ++ [125]

/-- The further items of a list. -/
def printItems (level : Nat) : List Json → Text
  | [] => []
  | x :: xs => 44 :: L.gap level ++ print level x ++ printItems level xs

/-- The further members of an object. -/
def printMembers (level : Nat) : List (Text × Json) → Text
  | [] => []
  | (k, v) :: ms =>
    44 :: L.gap level ++ stringText k ++ (58 :: L.colonGap) ++ print level v ++
      printMembers level ms

end

/-! ### The two ways to write -/

theorem printItems_lines {level : Nat} {xs : List Json}
    (h : ∀ x ∈ xs, ∀ level, lines.print level x = indentedAt level x) :
    lines.printItems level xs = indentedItems level xs := by
  induction xs with
  | nil => rfl
  | cons x xs ih =>
    obtain ⟨hx, hxs⟩ := List.forall_mem_cons.1 h
    rw [printItems, indentedItems, hx, ih hxs]
    rfl

theorem printMembers_lines {level : Nat} {ms : List (Text × Json)}
    (h : ∀ m ∈ ms, ∀ level, lines.print level m.2 = indentedAt level m.2) :
    lines.printMembers level ms = indentedMembers level ms := by
  induction ms with
  | nil => rfl
  | cons m ms ih =>
    obtain ⟨hm, hms⟩ := List.forall_mem_cons.1 h
    rw [printMembers, indentedMembers, hm, ih hms]
    rfl

theorem print_lines (v : Json) : ∀ level, lines.print level v = indentedAt level v := by
  induction v using induct with
  | null | bool | int | float | str => exact fun _ => rfl
  | arr items ih =>
    intro level
    cases items with
    | nil => rfl
    | cons x xs =>
      obtain ⟨hx, hxs⟩ := List.forall_mem_cons.1 ih
      rw [print, indentedAt, hx, printItems_lines hxs]
      rfl
  | obj members ih =>
    intro level
    cases members with
    | nil => rfl
    | cons m ms =>
      obtain ⟨hm, hms⟩ := List.forall_mem_cons.1 ih
      rw [print, indentedAt, hm, printMembers_lines hms]
      rfl

theorem gap_tight (level : Nat) : tight.gap level = [] := rfl

theorem colonGap_tight : tight.colonGap = [] := rfl

theorem printItems_tight (level : Nat) {x : Json} {xs : List Json}
    (h : ∀ y ∈ x :: xs, ∀ level, tight.print level y = compact y) :
    tight.print level x ++ tight.printItems level xs = compactItems (x :: xs) := by
  induction xs generalizing x with
  | nil => rw [printItems, List.append_nil, compactItems, h x List.mem_cons_self]
  | cons y ys ih =>
    obtain ⟨hx, hys⟩ := List.forall_mem_cons.1 h
    rw [printItems, compactItems, ← ih hys, hx]
    · rfl
    · exact nofun

theorem printMembers_tight (level : Nat) {k : Text} {v : Json} {ms : List (Text × Json)}
    (h : ∀ m ∈ (k, v) :: ms, ∀ level, tight.print level m.2 = compact m.2) :
    stringText k ++ 58 :: (tight.print level v ++ tight.printMembers level ms) =
      compactMembers ((k, v) :: ms) := by
  induction ms generalizing k v with
  | nil => rw [printMembers, List.append_nil, compactMembers, h (k, v) List.mem_cons_self]
  | cons m ms ih =>
    obtain ⟨hv, hms⟩ := List.forall_mem_cons.1 h
    rw [printMembers, compactMembers, ← ih hms, hv]
    · simp only [List.append_assoc]
      rfl
    · exact nofun

theorem print_tight (v : Json) : ∀ level, tight.print level v = compact v := by
  induction v using induct with
  | null | bool | int | float | str => exact fun _ => rfl
  | arr items ih =>
    intro level
    cases items with
    | nil => rfl
    | cons x xs =>
      rw [print, compact, ← printItems_tight (level + 1) ih]
      simp only [gap_tight, List.append_nil, List.append_assoc, List.cons_append, List.nil_append]
  | obj members ih =>
    intro level
    cases members with
    | nil => rfl
    | cons m ms =>
      rw [print, compact, ← printMembers_tight (level + 1) ih]
      simp only [gap_tight, colonGap_tight, List.append_nil, List.append_assoc, List.cons_append,
        List.nil_append]

end Layout

/-! ## What is written is visible -/

/-- A text of printable ASCII and line feeds. -/
def Visible (s : Text) : Prop := ∀ c ∈ s, c.val = 10 ∨ 32 ≤ c.val ∧ c.val ≤ 126

-- Instance search would go through all code points instead of those of the text.
instance (s : Text) : Decidable (Visible s) :=
  List.decidableBAll (fun c : CodePoint => c.val = 10 ∨ 32 ≤ c.val ∧ c.val ≤ 126) s

theorem visible_nil : Visible [] := fun _ h => absurd h List.not_mem_nil

theorem visible_append {s t : Text} (hs : Visible s) (ht : Visible t) : Visible (s ++ t) :=
  fun c hc => (List.mem_append.1 hc).elim (hs c) (ht c)

theorem visible_cons {c : CodePoint} {s : Text} (hc : 32 ≤ c.val ∧ c.val ≤ 126) (hs : Visible s) :
    Visible (c :: s) := fun _ hd => (List.mem_cons.1 hd).elim (fun h => h ▸ .inr hc) (hs _)

theorem visible_of_blank {s : Text} (h : ∀ c ∈ s, c = 32 ∨ c = 10) : Visible s := fun c hc =>
  (h c hc).elim (fun h => h ▸ .inr (by decide)) fun h => h ▸ .inl rfl

theorem visible_hexDigit (n : Nat) :
    32 ≤ (Text.hexDigit n).val ∧ (Text.hexDigit n).val ≤ 126 := by
  have h : ∀ k < 16, 32 ≤ (CodePoint.ofChar (Nat.digitChar k)).val ∧
      (CodePoint.ofChar (Nat.digitChar k)).val ≤ 126 := by decide
  exact h (n % 16) (Nat.mod_lt _ (by decide))

theorem visible_unicodeEscape (n : Nat) : Visible (unicodeEscape n) := by
  rw [unicodeEscape_eq]
  apply visible_cons (by decide)
  apply visible_cons (by decide)
  exact visible_cons (visible_hexDigit _) (visible_cons (visible_hexDigit _)
    (visible_cons (visible_hexDigit _) (visible_cons (visible_hexDigit _) visible_nil)))

theorem visible_escape (c : CodePoint) : Visible (escape c) := by
  generalize htext : escape c = text
  cases htext ▸ escape_spec c with
  | letter e notUnicode short visible low =>
    exact visible_cons (by decide) (visible_cons visible visible_nil)
  | plain notQuote notSlash visible => exact visible_cons visible visible_nil
  | unicode small => exact visible_unicodeEscape _
  | pair large => exact visible_append (visible_unicodeEscape _) (visible_unicodeEscape _)

theorem visible_stringText (s : Text) : Visible (stringText s) := by
  have hescaped : Visible (s.flatMap escape) := by
    intro c hc
    obtain ⟨d, -, hd⟩ := List.mem_flatMap.1 hc
    exact visible_escape d c hd
  apply visible_append
  · exact visible_cons (by decide) hescaped
  · exact visible_cons (by decide) visible_nil

theorem visible_ofNat (n : Nat) : Visible (Text.ofNat n) := by
  intro c hc
  have hdigit := Text.isAsciiDigit_of_mem_ofNat hc
  simp only [CodePoint.isAsciiDigit, Bool.and_eq_true, decide_eq_true_eq] at hdigit
  omega

theorem visible_ofInt : ∀ n : Int, Visible (Text.ofInt n)
  | .ofNat n => visible_ofNat n
  | .negSucc n => visible_cons (by decide) (visible_ofNat (n + 1))

section Print

variable (L : Layout)

theorem visible_gap {c : CodePoint} (hc : 32 ≤ c.val ∧ c.val ≤ 126) (level : Nat) :
    Visible (c :: L.gap level) :=
  visible_cons hc (visible_of_blank (L.blank_gap level))

/-- What stands before the value of a member. -/
theorem visible_name {c : CodePoint} (hc : 32 ≤ c.val ∧ c.val ≤ 126) (level : Nat) (k : Text) :
    Visible (c :: L.gap level ++ stringText k ++ (58 :: L.colonGap)) := by
  apply visible_append
  · exact visible_append (visible_gap L hc level) (visible_stringText k)
  · exact visible_cons (by decide) (visible_of_blank L.blank_colonGap)

/-- What stands after the last item or member. -/
theorem visible_closing {c : CodePoint} (hc : 32 ≤ c.val ∧ c.val ≤ 126) {s : Text}
    (hs : Visible s) (level : Nat) : Visible (s ++ L.gap level ++ [c]) := by
  apply visible_append
  · exact visible_append hs (visible_of_blank (L.blank_gap level))
  · exact visible_cons hc visible_nil

theorem visible_printItems {level : Nat} {xs : List Json}
    (h : ∀ x ∈ xs, ∀ level, Visible (L.print level x)) : Visible (L.printItems level xs) := by
  induction xs with
  | nil => exact visible_nil
  | cons x xs ih =>
    obtain ⟨hx, hxs⟩ := List.forall_mem_cons.1 h
    apply visible_append
    · exact visible_append (visible_gap L (by decide) level) (hx level)
    · exact ih hxs

theorem visible_printMembers {level : Nat} {ms : List (Text × Json)}
    (h : ∀ m ∈ ms, ∀ level, Visible (L.print level m.2)) : Visible (L.printMembers level ms) := by
  induction ms with
  | nil => exact visible_nil
  | cons m ms ih =>
    obtain ⟨hm, hms⟩ := List.forall_mem_cons.1 h
    apply visible_append
    · exact visible_append (visible_name L (by decide) level m.1) (hm level)
    · exact ih hms

/-- What is written of a value without binary64 numbers is visible. -/
theorem visible_print (v : Json) : ∀ room level, Readable room v → Visible (L.print level v) := by
  induction v using induct with
  | null => exact fun _ _ _ => (by decide : Visible "null")
  | bool b =>
    intro _ _ _
    cases b with
    | true => exact (by decide : Visible "true")
    | false => exact (by decide : Visible "false")
  | int n => exact fun _ _ _ => visible_ofInt n
  | float x => exact fun _ _ h => h.elim
  | str s => exact fun _ _ _ => visible_stringText s
  | arr items ih =>
    intro room level h
    have hitems : ∀ x ∈ items, ∀ level, Visible (L.print level x) := fun x hx level =>
      ih x hx (room - 1) level (readableItems_iff.1 h.2 x hx)
    cases items with
    | nil => exact (by decide : Visible "[]")
    | cons x xs =>
      obtain ⟨hx, hxs⟩ := List.forall_mem_cons.1 hitems
      apply visible_closing L (by decide)
      apply visible_append
      · exact visible_append (visible_gap L (by decide) (level + 1)) (hx (level + 1))
      · exact visible_printItems L hxs
  | obj members ih =>
    intro room level h
    have hmembers : ∀ m ∈ members, ∀ level, Visible (L.print level m.2) := fun m hm level =>
      ih m hm (room - 1) level (readableMembers_iff.1 h.2 m hm)
    cases members with
    | nil => exact (by decide : Visible "\x7b\x7d")
    | cons m ms =>
      obtain ⟨hm, hms⟩ := List.forall_mem_cons.1 hmembers
      apply visible_closing L (by decide)
      apply visible_append
      · exact visible_append (visible_name L (by decide) (level + 1) m.1) (hm (level + 1))
      · exact visible_printMembers L hms

end Print

end Json

end CrossChain
