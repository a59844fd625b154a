import CrossChain.Failure
import CrossChain.Proofs.Json.Layout
import CrossChain.Proofs.Table
import CrossChain.Proofs.Text.Utf8

/-!
# Values that are written and read back

A value that was written is read back with the surrogate pairs of its strings joined, in either
layout (`read_compact`, `read_indented`), if the reader takes it at all.  For a value without such
pairs and with every name once in an object that is the value itself (`joined_of_plain`).
-/

namespace CrossChain

namespace Json

/-! ## Blanks -/

theorem skipSpace_blank {b : Text} (h : ∀ c ∈ b, c = 32 ∨ c = 10) (s : Text) :
    skipSpace (b ++ s) = skipSpace s := by
  apply List.dropWhile_append_of_pos
  intro c hc
  rcases h c hc with rfl | rfl <;> rfl

theorem skipSpace_cons {c : CodePoint} (h : isSpace c = false) (s : Text) :
    skipSpace (c :: s) = c :: s :=
  List.dropWhile_cons_of_neg (by rw [h]; exact Bool.false_ne_true)

theorem ends_blank {b : Text} (h : ∀ c ∈ b, c = 32 ∨ c = 10) {s : Text} (hs : Ends s) :
    Ends (b ++ s) := by
  cases b with
  | nil => exact hs
  | cons c b =>
    intro d hd
    cases hd
    exact .inl (by rcases h c List.mem_cons_self with rfl | rfl <;> rfl)

theorem ends_cons {c : CodePoint} (h : c = 44 ∨ c = 93 ∨ c = 125) (s : Text) : Ends (c :: s) := by
  intro d hd
  cases hd
  exact .inr h

theorem ends_nil : Ends [] := nofun

/-! ## Values -/

section Reading

variable (L : Layout)

/-- In a layout a value is read back with its pairs joined, whatever follows it. -/
def ReadsBack (v : Json) : Prop :=
  ∀ level fuel room rest, Readable room v → (L.print level v).length ≤ fuel → Ends rest →
    readValue fuel room (L.print level v ++ rest) = .ok (v.joined, rest)

theorem print_head {room : Nat} {v : Json} (h : Readable room v) (level : Nat) :
    ∃ c t, L.print level v = c :: t ∧ isSpace c = false ∧ c ≠ 93 := by
  cases v with
  | null => exact ⟨_, _, rfl, rfl, by decide⟩
  | bool b => cases b <;> exact ⟨_, _, rfl, rfl, by decide⟩
  | int n =>
    obtain ⟨c, t, hint, hne⟩ := ofInt_cons n
    refine ⟨c, t, hint, ?_, hne 93 (by decide) (by decide)⟩
    simp only [isSpace, Bool.or_eq_false_iff, beq_eq_false_iff_ne]
    exact ⟨⟨⟨hne 32 (by decide) (by decide), hne 9 (by decide) (by decide)⟩,
      hne 10 (by decide) (by decide)⟩, hne 13 (by decide) (by decide)⟩
  | float x => exact h.elim
  | str s => exact ⟨_, _, rfl, rfl, by decide⟩
  | arr items => cases items <;> exact ⟨_, _, rfl, rfl, by decide⟩
  | obj members => cases members <;> exact ⟨_, _, rfl, rfl, by decide⟩

theorem skipSpace_print {room : Nat} {v : Json} (h : Readable room v) (level : Nat) (s : Text) :
    skipSpace (L.print level v ++ s) = L.print level v ++ s := by
  obtain ⟨c, t, hprint, hspace, -⟩ := print_head L h level
  rw [hprint]
  exact skipSpace_cons hspace _

theorem print_pos {room : Nat} {v : Json} (h : Readable room v) (level : Nat) :
    0 < (L.print level v).length := by
  obtain ⟨c, t, hprint, -⟩ := print_head L h level
  rw [hprint]
  exact Nat.succ_pos _

/-! ### Lists -/

theorem readItems_item {x : Json} (hx : ReadsBack L x) {room : Nat} (hx' : Readable room x)
    {level fuel : Nat} (hfuel : (L.print level x).length ≤ fuel) {s : Text} (hs : Ends s) :
    readItems (fuel + 1) room (L.print level x ++ s) =
      match skipSpace s with
      | 93 :: tail => .ok ([x.joined], tail)
      | 44 :: tail => (readItems fuel room (skipSpace tail)).map fun p => (x.joined :: p.1, p.2)
      | tail => .error (.fault .comma tail.length) := by
  simp only [readItems, hx level fuel room s hx' hfuel hs, bind, Except.bind]
  rfl

theorem readItems_print {room : Nat} {x : Json} {xs : List Json} {level fuel : Nat} {b : Text}
    (hreads : ∀ y ∈ x :: xs, ReadsBack L y) (hreadable : ∀ y ∈ x :: xs, Readable room y)
    (hfuel : (L.print level x).length + (L.printItems level xs).length < fuel)
    (hb : ∀ c ∈ b, c = 32 ∨ c = 10) (rest : Text) :
    readItems fuel room (L.print level x ++ (L.printItems level xs ++ (b ++ 93 :: rest))) =
      .ok (joinedItems (x :: xs), rest) := by
  induction xs generalizing x fuel with
  | nil =>
    cases fuel with
    | zero => exact absurd hfuel (Nat.not_lt_zero _)
    | succ fuel =>
      have hend : Ends (b ++ 93 :: rest) := ends_blank hb (ends_cons (.inr (.inl rfl)) rest)
      have hlength : (L.print level x).length ≤ fuel := by omega
      rw [Layout.printItems, List.nil_append, readItems_item L (hreads x List.mem_cons_self)
        (hreadable x List.mem_cons_self) hlength hend, skipSpace_blank hb]
      rfl
  | cons y ys ih =>
    cases fuel with
    | zero => exact absurd hfuel (Nat.not_lt_zero _)
    | succ fuel =>
      obtain ⟨hx, hys⟩ := List.forall_mem_cons.1 hreads
      obtain ⟨hx', hys'⟩ := List.forall_mem_cons.1 hreadable
      have hpos := print_pos L hx' level
      simp only [Layout.printItems, List.length_append, List.length_cons] at hfuel
      have hfuel' : (L.print level y).length + (L.printItems level ys).length < fuel := by omega
      have hrest := ih hys hys' hfuel'
      have hskip : ∀ s, skipSpace (L.gap level ++ (L.print level y ++ s)) =
          L.print level y ++ s := fun s => by
        rw [skipSpace_blank (L.blank_gap level), skipSpace_print L (hys' y List.mem_cons_self)]
      have hlength : (L.print level x).length ≤ fuel := by omega
      have hend : Ends (L.printItems level (y :: ys) ++ (b ++ 93 :: rest)) := ends_cons (.inl rfl) _
      rw [readItems_item L hx hx' hlength hend]
      simp only [Layout.printItems, List.append_assoc, List.cons_append,
        skipSpace_cons (c := 44) rfl, hskip, hrest]
      rfl

/-! ### Objects -/

theorem stringText_append (k s : Text) :
    stringText k ++ s = 34 :: (k.flatMap escape ++ 34 :: s) := by
  simp only [stringText, List.cons_append, List.append_assoc, List.nil_append]

theorem readMembers_member {v : Json} (hv : ReadsBack L v) {room : Nat} (hv' : Readable room v)
    (k : Text) {level fuel : Nat} (hfuel : (L.print level v).length ≤ fuel) {s : Text}
    (hs : Ends s) :
    readMembers (fuel + 1) room (stringText k ++ (58 :: L.colonGap ++ (L.print level v ++ s))) =
      match skipSpace s with
      | 125 :: tail => .ok ([(k.joined, v.joined)], tail)
      | 44 :: tail =>
        (readMembers fuel room (skipSpace tail)).map fun p => ((k.joined, v.joined) :: p.1, p.2)
      | tail => .error (.fault .comma tail.length) := by
  have hcolon : ∀ t, skipSpace (58 :: L.colonGap ++ t) = 58 :: (L.colonGap ++ t) := fun t =>
    skipSpace_cons rfl _
  have hskip : skipSpace (L.colonGap ++ (L.print level v ++ s)) = L.print level v ++ s := by
    rw [skipSpace_blank L.blank_colonGap, skipSpace_print L hv']
  rw [stringText_append]
  simp only [readMembers, readString_printed, bind, Except.bind, hcolon, hskip,
    hv level fuel room s hv' hfuel hs]
  rfl

theorem readMembers_print {room : Nat} {k : Text} {v : Json} {ms : List (Text × Json)}
    {level fuel : Nat} {b : Text} (hreads : ∀ m ∈ (k, v) :: ms, ReadsBack L m.2)
    (hreadable : ∀ m ∈ (k, v) :: ms, Readable room m.2)
    (hfuel : (L.print level v).length + (L.printMembers level ms).length < fuel)
    (hb : ∀ c ∈ b, c = 32 ∨ c = 10) (rest : Text) :
    readMembers fuel room (stringText k ++ (58 :: L.colonGap ++ (L.print level v ++
        (L.printMembers level ms ++ (b ++ 125 :: rest))))) =
      .ok (joinedMembers ((k, v) :: ms), rest) := by
  induction ms generalizing k v fuel with
  | nil =>
    cases fuel with
    | zero => exact absurd hfuel (Nat.not_lt_zero _)
    | succ fuel =>
      have hv : ReadsBack L v := hreads (k, v) List.mem_cons_self
      have hend : Ends (b ++ 125 :: rest) := ends_blank hb (ends_cons (.inr (.inr rfl)) rest)
      have hlength : (L.print level v).length ≤ fuel := by omega
      rw [Layout.printMembers, List.nil_append, readMembers_member L hv
        (hreadable (k, v) List.mem_cons_self) k hlength hend, skipSpace_blank hb]
      rfl
  | cons m ms ih =>
    cases fuel with
    | zero => exact absurd hfuel (Nat.not_lt_zero _)
    | succ fuel =>
      obtain ⟨k', v'⟩ := m
      have hv : ReadsBack L v := hreads (k, v) List.mem_cons_self
      have hv' : Readable room v := hreadable (k, v) List.mem_cons_self
      have hpos := print_pos L hv' level
      simp only [Layout.printMembers, List.length_append, List.length_cons] at hfuel
      have hfuel' : (L.print level v').length + (L.printMembers level ms).length < fuel := by omega
      have hrest := ih (List.forall_mem_cons.1 hreads).2 (List.forall_mem_cons.1 hreadable).2 hfuel'
      have hskip : ∀ s, skipSpace (L.gap level ++ (stringText k' ++ s)) = stringText k' ++ s :=
        fun s => by
          rw [skipSpace_blank (L.blank_gap level), stringText_append]
          exact skipSpace_cons rfl _
      have hlength : (L.print level v).length ≤ fuel := by omega
      have hend : Ends (L.printMembers level ((k', v') :: ms) ++ (b ++ 125 :: rest)) :=
        ends_cons (.inl rfl) _
      rw [readMembers_member L hv hv' k hlength hend]
      simp only [List.cons_append] at hrest
      simp only [Layout.printMembers, List.append_assoc, List.cons_append,
        skipSpace_cons (c := 44) rfl, hskip, hrest]
      rfl

/-! ### All values -/

theorem readValue_atom {c : CodePoint} (hquote : c ≠ 34) (hbrace : c ≠ 123) (hbracket : c ≠ 91)
    (fuel room : Nat) (s : Text) : readValue (fuel + 1) room (c :: s) = readAtom (c :: s) := by
  simp only [readValue, if_neg hquote, if_neg hbrace, if_neg hbracket]

theorem readValue_string (fuel room : Nat) (s rest : Text) :
    readValue (fuel + 1) room (stringText s ++ rest) = .ok (.str s.joined, rest) := by
  rw [stringText_append]
  simp only [readValue, if_true, readString_printed, bind, Except.bind]
  rfl

theorem readValue_items {fuel room : Nat} (hroom : 0 < room) {s : Text} {c : CodePoint} {t : Text}
    (hskip : skipSpace s = c :: t) (hc : c ≠ 93) :
    readValue (fuel + 1) room (91 :: s) =
      (readItems fuel (room - 1) (c :: t)).map fun p => (.arr p.1, p.2) := by
  have hquote : (91 : CodePoint) ≠ 34 := by decide
  have hbrace : (91 : CodePoint) ≠ 123 := by decide
  simp only [readValue, if_neg hquote, if_neg hbrace, if_true, if_neg (Nat.pos_iff_ne_zero.1 hroom),
    hskip]
  split
  · next hsame => exact absurd (List.cons.inj hsame).1 hc
  · cases readItems fuel (room - 1) (c :: t) <;> rfl

theorem readValue_members {fuel room : Nat} (hroom : 0 < room) {s t : Text}
    (hskip : skipSpace s = 34 :: t) :
    readValue (fuel + 1) room (123 :: s) =
      (readMembers fuel (room - 1) (34 :: t)).map fun p => (ofPairs p.1, p.2) := by
  have hquote : (123 : CodePoint) ≠ 34 := by decide
  simp only [readValue, if_neg hquote, if_true, if_neg (Nat.pos_iff_ne_zero.1 hroom), hskip]
  cases readMembers fuel (room - 1) (34 :: t) <;> rfl

theorem exists_fuel {room : Nat} {v : Json} (h : Readable room v) {level fuel : Nat}
    (hfuel : (L.print level v).length ≤ fuel) : ∃ n, fuel = n + 1 :=
  Nat.exists_eq_add_one.2 (Nat.lt_of_lt_of_le (print_pos L h level) hfuel)

theorem readsBack_items {items : List Json} (h : ∀ x ∈ items, ReadsBack L x) :
    ReadsBack L (.arr items) := by
  intro level fuel room rest hreadable hfuel hends
  obtain ⟨fuel, rfl⟩ := exists_fuel L hreadable hfuel
  obtain ⟨hroom, hitems⟩ := hreadable
  have hitems' := readableItems_iff.1 hitems
  cases items with
  | nil =>
    have hquote : (91 : CodePoint) ≠ 34 := by decide
    have hbrace : (91 : CodePoint) ≠ 123 := by decide
    show readValue (fuel + 1) room (91 :: 93 :: rest) = _
    simp only [readValue, if_neg hquote, if_neg hbrace, if_true,
      if_neg (Nat.pos_iff_ne_zero.1 hroom), skipSpace_cons (c := 93) rfl]
    rfl
  | cons x xs =>
    obtain ⟨c, t, hprint, -, hc⟩ := print_head L (hitems' x List.mem_cons_self) (level + 1)
    simp only [Layout.print, List.length_append, List.length_cons] at hfuel
    have hlength :
        (L.print (level + 1) x).length + (L.printItems (level + 1) xs).length < fuel := by
      omega
    have hread := readItems_print L h hitems' hlength (L.blank_gap level) rest
    have hskip : skipSpace (L.gap (level + 1) ++ (L.print (level + 1) x ++
        (L.printItems (level + 1) xs ++ (L.gap level ++ 93 :: rest)))) =
          c :: (t ++ (L.printItems (level + 1) xs ++ (L.gap level ++ 93 :: rest))) := by
      rw [skipSpace_blank (L.blank_gap (level + 1)),
        skipSpace_print L (hitems' x List.mem_cons_self), hprint, List.cons_append]
    rw [hprint, List.cons_append] at hread
    simp only [Layout.print, List.append_assoc, List.cons_append, List.nil_append]
    rw [readValue_items hroom hskip hc, hread]
    rfl

theorem readsBack_members {members : List (Text × Json)} (h : ∀ m ∈ members, ReadsBack L m.2) :
    ReadsBack L (.obj members) := by
  intro level fuel room rest hreadable hfuel hends
  obtain ⟨fuel, rfl⟩ := exists_fuel L hreadable hfuel
  obtain ⟨hroom, hmembers⟩ := hreadable
  have hmembers' := readableMembers_iff.1 hmembers
  cases members with
  | nil =>
    have hquote : (123 : CodePoint) ≠ 34 := by decide
    show readValue (fuel + 1) room (123 :: 125 :: rest) = _
    simp only [readValue, if_neg hquote, if_true, if_neg (Nat.pos_iff_ne_zero.1 hroom),
      skipSpace_cons (c := 125) rfl]
    rfl
  | cons m ms =>
    obtain ⟨k, v⟩ := m
    simp only [Layout.print, List.length_append, List.length_cons] at hfuel
    have hlength : (L.print (level + 1) v).length + (L.printMembers (level + 1) ms).length <
        fuel := by omega
    have hread := readMembers_print L h hmembers' hlength (L.blank_gap level) rest
    have hskip : ∀ s, skipSpace (L.gap (level + 1) ++ (stringText k ++ s)) =
        34 :: (k.flatMap escape ++ 34 :: s) := fun s => by
      rw [skipSpace_blank (L.blank_gap (level + 1)), stringText_append]
      exact skipSpace_cons rfl _
    rw [stringText_append] at hread
    simp only [Layout.print, List.append_assoc, List.cons_append, List.nil_append] at hread ⊢
    rw [readValue_members hroom (hskip _), hread]
    rfl

/-- A value that was written is read back with its pairs joined. -/
theorem readsBack (v : Json) : ReadsBack L v := by
  induction v using induct with
  | null =>
    intro level fuel room rest hreadable hfuel hends
    obtain ⟨fuel, rfl⟩ := exists_fuel L hreadable hfuel
    exact readValue_atom (by decide) (by decide) (by decide) fuel room _
  | bool b =>
    intro level fuel room rest hreadable hfuel hends
    obtain ⟨fuel, rfl⟩ := exists_fuel L hreadable hfuel
    cases b <;> exact readValue_atom (by decide) (by decide) (by decide) fuel room _
  | int n =>
    intro level fuel room rest hreadable hfuel hends
    obtain ⟨fuel, rfl⟩ := exists_fuel L hreadable hfuel
    have hread := readAtom_ofInt hreadable hends
    obtain ⟨c, t, hint, hne⟩ := ofInt_cons n
    rw [Layout.print, hint, List.cons_append]
    rw [hint, List.cons_append] at hread
    rw [readValue_atom (hne 34 (by decide) (by decide)) (hne 123 (by decide) (by decide))
      (hne 91 (by decide) (by decide)), hread]
    rfl
  | float x => exact fun _ _ _ _ h => h.elim
  | str s =>
    intro level fuel room rest hreadable hfuel hends
    obtain ⟨fuel, rfl⟩ := exists_fuel L hreadable hfuel
    exact readValue_string fuel room s rest
  | arr items ih => exact readsBack_items L ih
  | obj members ih => exact readsBack_members L ih

theorem readWhole_print [Json.Limits] {v : Json} (h : Readable maxDepth v) :
    readWhole (L.print 0 v) = .ok v.joined := by
  obtain ⟨c, t, hprint, hspace, -⟩ := print_head L h 0
  have hmark : (L.print 0 v).head? ≠ some 0xFEFF := by
    have hc := visible_print L v maxDepth 0 h c (hprint ▸ List.mem_cons_self)
    rw [hprint]
    intro hhead
    obtain rfl := Option.some.inj hhead
    exact absurd hc (by decide)
  have hskip : skipSpace (L.print 0 v) = L.print 0 v := by rw [hprint, skipSpace_cons hspace]
  have hread := readsBack L v 0 (2 * (L.print 0 v).length + 2) maxDepth [] h (by omega) ends_nil
  rw [List.append_nil] at hread
  rw [readWhole, if_neg hmark, hskip, hread]
  rfl

theorem read_print [Json.Limits] {v : Json} (h : Readable maxDepth v) :
    read (L.print 0 v) = .ok v.joined := by
  rw [read, readWhole_print L h]
  rfl

end Reading

/-! ## The two ways to write -/

theorem read_compact [Json.Limits] {v : Json} (h : Readable maxDepth v) :
    read v.compact = .ok v.joined := by
  rw [← Layout.print_tight v 0]
  exact read_print .tight h

theorem read_indented [Json.Limits] {v : Json} (h : Readable maxDepth v) :
    read v.indented = .ok v.joined := by
  rw [indented, ← Layout.print_lines v 0]
  exact read_print .lines h

theorem visible_indented {room : Nat} {v : Json} (h : Readable room v) : Visible v.indented := by
  rw [indented, ← Layout.print_lines v 0]
  exact visible_print .lines v room 0 h

theorem visible_compact {room : Nat} {v : Json} (h : Readable room v) : Visible v.compact := by
  rw [← Layout.print_tight v 0]
  exact visible_print .tight v room 0 h

/-- What is visible is read back from its bytes. -/
theorem ofUtf8_visible {s : Text} (h : Visible s) :
    Text.ofUtf8 (s.flatMap Utf8.encodePoint) = .ok s := by
  have hscalars : ∀ c ∈ s, c.isSurrogate = false := by
    intro c hc
    have hvisible := h c hc
    exact Utf8.isSurrogate_of_ascii (by omega)
  have hencode := Utf8.encode_eq_ok.2 ⟨hscalars, rfl⟩
  rw [Text.ofUtf8, Utf8.decode_eq_ok.2 hencode]
  rfl

/-! ## Plain values -/

mutual

/-- A value without surrogate pairs in its strings, and with every name once in an object. -/
def Plain : Json → Prop
  | null => True
  | bool _ => True
  | int _ => True
  | float _ => True
  | str s => s.Unpaired
  | arr items => PlainItems items
  | obj members => (Table.names members).Nodup ∧ PlainMembers members

/-- Plain items. -/
def PlainItems : List Json → Prop
  | [] => True
  | x :: xs => Plain x ∧ PlainItems xs

/-- Plain members with plain names. -/
def PlainMembers : List (Text × Json) → Prop
  | [] => True
  | (k, v) :: ms => k.Unpaired ∧ Plain v ∧ PlainMembers ms

end

theorem joinedItems_of_plain {items : List Json} (h : ∀ x ∈ items, Plain x → x.joined = x)
    (hplain : PlainItems items) : joinedItems items = items := by
  induction items with
  | nil => rfl
  | cons x xs ih =>
    obtain ⟨hx, hxs⟩ := List.forall_mem_cons.1 h
    rw [joinedItems, hx hplain.1, ih hxs hplain.2]

theorem joinedMembers_of_plain {members : List (Text × Json)}
    (h : ∀ m ∈ members, Plain m.2 → m.2.joined = m.2) (hplain : PlainMembers members) :
    joinedMembers members = members := by
  induction members with
  | nil => rfl
  | cons m ms ih =>
    obtain ⟨hm, hms⟩ := List.forall_mem_cons.1 h
    rw [joinedMembers, Text.joined_of_unpaired hplain.1, hm hplain.2.1, ih hms hplain.2.2]

theorem joined_of_plain (v : Json) : Plain v → v.joined = v := by
  induction v using induct with
  | null | bool | int | float => exact fun _ => rfl
  | str s => exact fun h => congrArg Json.str (Text.joined_of_unpaired h)
  | arr items ih => exact fun h => congrArg Json.arr (joinedItems_of_plain ih h)
  | obj members ih =>
    intro h
    rw [joined, joinedMembers_of_plain ih h.2, ofPairs, Table.ofPairs_of_nodup h.1]

end Json

end CrossChain
