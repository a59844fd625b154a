import CrossChain.Proofs.Json.NumberSyntax
import CrossChain.Proofs.Json.RoundTrip

/-!
# What is read is spelled

Whatever the reader reads is what the grammar says that the text spells (`soundAt`), and a limit
stops the reader only where the text exceeds one (`exceedsAt`).  Both go by the fuel, through the
reader's three functions at once.  Items and members are read by one scheme, a part and then what
follows it (`goOn`), and so are lists and objects, a bracket and then what it encloses (`enclosed`).
-/

namespace CrossChain

namespace Json

/-! ## Blanks -/

theorem skipSpace_of_blank {b : Text} (hb : Blank b) (s : Text) :
    skipSpace (b ++ s) = skipSpace s :=
  List.dropWhile_append_of_pos hb

theorem exists_blank (s : Text) : ∃ b, Blank b ∧ s = b ++ skipSpace s :=
  ⟨s.takeWhile isSpace, List.all_eq_true.1 List.all_takeWhile,
    List.takeWhile_append_dropWhile.symm⟩

theorem Ends.blank {b rest : Text} (hb : Blank b) (h : Ends rest) : Ends (b ++ rest) := by
  cases b with
  | nil => exact h
  | cons c b =>
    intro d hd
    cases hd
    exact .inl (hb c List.mem_cons_self)

theorem blank_nil : Blank [] := nofun

/-! ## One part of a series after the other -/

section Series

variable {α : Type} {close : CodePoint} {x : α} {more : Text → Except Stop (List α × Text)}
  {rest rest' : Text} {xs : List α}

/-- What follows a part of a series: its end, or a comma with the next part. -/
def goOn (close : CodePoint) (x : α) (more : Text → Except Stop (List α × Text)) (rest : Text) :
    Except Stop (List α × Text) :=
  match skipSpace rest with
  | [] => .error (.fault .comma 0)
  | c :: tail =>
    if c = close then .ok ([x], tail)
    else if c = 44 then do
      let (xs, rest) ← more (skipSpace tail)
      return (x :: xs, rest)
    else .error (.fault .comma (tail.length + 1))

theorem goOn_close (h : skipSpace rest = close :: rest') :
    goOn close x more rest = .ok ([x], rest') := by
  simp only [goOn, h, if_true]

theorem goOn_comma (hclose : close ≠ 44) (h : skipSpace rest = 44 :: rest') :
    goOn close x more rest = (more (skipSpace rest')).map fun p => (x :: p.1, p.2) := by
  simp only [goOn, h, if_neg hclose.symm, if_true]
  cases more (skipSpace rest') <;> rfl

theorem goOn_eq_ok (h : goOn close x more rest = .ok (xs, rest')) :
    skipSpace rest = close :: rest' ∧ xs = [x] ∨
      ∃ tail ys, skipSpace rest = 44 :: tail ∧ more (skipSpace tail) = .ok (ys, rest') ∧
        xs = x :: ys := by
  rw [goOn] at h
  cases hrest : skipSpace rest with
  | nil =>
    rw [hrest] at h
    cases h
  | cons c tail =>
    simp only [hrest] at h
    by_cases hclose : c = close
    · rw [if_pos hclose] at h
      cases h
      exact .inl ⟨by rw [hclose], rfl⟩
    · rw [if_neg hclose] at h
      by_cases hcomma : c = 44
      · rw [if_pos hcomma] at h
        obtain ⟨⟨ys, rest''⟩, hmore, hend⟩ := bind_ok h
        cases hend
        exact .inr ⟨tail, ys, by rw [hcomma], hmore, rfl⟩
      · rw [if_neg hcomma] at h
        cases h

theorem goOn_stopped (hclose : close ≠ 44) : Stopped (goOn close x more rest) ↔
    ∃ tail, skipSpace rest = 44 :: tail ∧ Stopped (more (skipSpace tail)) := by
  cases hrest : skipSpace rest with
  | nil =>
    simp only [goOn, hrest]
    exact ⟨fun h => absurd h (not_stopped_fault _ _), nofun⟩
  | cons c tail =>
    simp only [goOn, hrest]
    by_cases hc : c = close
    · rw [if_pos hc]
      refine ⟨fun h => absurd h (not_stopped_ok _), ?_⟩
      rintro ⟨tail', htail, -⟩
      exact absurd (hc.symm.trans (List.cons.inj htail).1) hclose
    · rw [if_neg hc]
      by_cases hcomma : c = 44
      · rw [if_pos hcomma, stopped_bind]
        constructor
        · rintro (h | ⟨p, -, h⟩)
          · exact ⟨tail, by rw [hcomma], h⟩
          · exact absurd h (not_stopped_ok _)
        · rintro ⟨tail', htail, h⟩
          cases htail
          exact .inl h
      · rw [if_neg hcomma]
        refine ⟨fun h => absurd h (not_stopped_fault _ _), ?_⟩
        rintro ⟨tail', htail, -⟩
        exact absurd (List.cons.inj htail).1 hcomma

end Series

/-- Reads one member of an object. -/
def readMember (fuel room : Nat) (s : Text) : Except Stop ((Text × Json) × Text) :=
  match s with
  | 34 :: rest => do
    let (name, rest) ← readString s.length rest
    match skipSpace rest with
    | 58 :: tail => do
      let (value, rest) ← readValue fuel room (skipSpace tail)
      return ((name, value), rest)
    | tail => throw (.fault .colon tail.length)
  | s => .error (.fault .propertyName s.length)

theorem readItems_succ (fuel room : Nat) (s : Text) :
    readItems (fuel + 1) room s =
      readValue fuel room s >>= fun p => goOn 93 p.1 (readItems fuel room) p.2 := by
  rw [readItems]
  congr 1
  funext p
  obtain ⟨x, rest⟩ := p
  simp only [goOn]
  cases hrest : skipSpace rest with
  | nil => rfl
  | cons c tail =>
    simp only
    split
    · next h =>
      cases h
      rw [if_pos rfl]
      rfl
    · next h =>
      cases h
      rw [if_neg (by decide), if_pos rfl]
    · next hclose hcomma =>
      rw [if_neg fun h => hclose tail (by rw [h]), if_neg fun h => hcomma tail (by rw [h])]
      rfl

theorem readMembers_succ (fuel room : Nat) (s : Text) :
    readMembers (fuel + 1) room s =
      readMember fuel room s >>= fun p => goOn 125 p.1 (readMembers fuel room) p.2 := by
  by_cases hquote : ∃ rest, s = 34 :: rest
  · obtain ⟨rest, rfl⟩ := hquote
    simp only [readMembers, readMember]
    cases readString (34 :: rest).length rest with
    | error stop => rfl
    | ok p =>
      obtain ⟨name, rest⟩ := p
      simp only [bind, Except.bind]
      cases hcolon : skipSpace rest with
      | nil => rfl
      | cons c tail =>
        by_cases hc : c = 58
        · subst hc
          simp only
          cases readValue fuel room (skipSpace tail) with
          | error stop => rfl
          | ok q =>
            obtain ⟨v, rest⟩ := q
            simp only [goOn, pure, Except.pure]
            cases hrest : skipSpace rest with
            | nil => rfl
            | cons c tail =>
              simp only
              split
              · next h =>
                cases h
                rw [if_pos rfl]
              · next h =>
                cases h
                rw [if_neg (by decide), if_pos rfl]
                rfl
              · next hclose hcomma =>
                rw [if_neg fun h => hclose tail (by rw [h]),
                  if_neg fun h => hcomma tail (by rw [h])]
                rfl
        · simp [hc, throw, throwThe, MonadExceptOf.throw]
  · rw [readMembers, readMember]
    · rfl
    · exact fun rest h => hquote ⟨rest, h⟩
    · exact fun rest h => hquote ⟨rest, h⟩

/-- A member is read by its name and its value. -/
theorem readMember_append {fuel room : Nat} {k name b s : Text} (hk : Chars k name)
    (hb : Blank b) :
    readMember fuel room (34 :: (k ++ 34 :: (b ++ 58 :: s))) =
      (readValue fuel room (skipSpace s)).map fun p => ((name, p.1), p.2) := by
  have hcolon : skipSpace (b ++ 58 :: s) = 58 :: s := by
    rw [skipSpace_of_blank hb, skipSpace_cons rfl]
  simp only [readMember, complete_readString hk, bind, Except.bind, hcolon]
  cases readValue fuel room (skipSpace s) <;> rfl

/-- Where no member starts, the reader finds a fault. -/
theorem readMember_cases (fuel room : Nat) (s : Text) :
    (∃ reason left, readMember fuel room s = .error (.fault reason left)) ∨
      ∃ k name b t, s = 34 :: (k ++ 34 :: (b ++ 58 :: t)) ∧ Chars k name ∧ Blank b := by
  by_cases hquote : ∃ rest, s = 34 :: rest
  · obtain ⟨rest, rfl⟩ := hquote
    simp only [readMember]
    cases hread : readString (34 :: rest).length rest with
    | error stop =>
      cases stop with
      | fault reason left => exact .inl ⟨reason, left, rfl⟩
      | tooLong digits => exact absurd ⟨_, hread, trivial⟩ (not_stopped_readString _ _)
      | tooDeep container => exact absurd ⟨_, hread, trivial⟩ (not_stopped_readString _ _)
    | ok p =>
      obtain ⟨name, rest'⟩ := p
      obtain ⟨k, rfl, hk⟩ := sound_readString _ _ hread
      obtain ⟨b, hb, hrest⟩ := exists_blank rest'
      simp only [bind, Except.bind]
      by_cases hcolon : ∃ t, skipSpace rest' = 58 :: t
      · obtain ⟨t, ht⟩ := hcolon
        exact .inr ⟨k, name, b, t, by rw [← ht, ← hrest], hk, hb⟩
      · left
        split
        · next t ht => exact absurd ⟨t, ht⟩ hcolon
        · exact ⟨_, _, rfl⟩
  · left
    rw [readMember]
    · exact ⟨_, _, rfl⟩
    · exact fun rest h => hquote ⟨rest, h⟩

/-! ## What is read is spelled -/

/-- With this fuel nothing is read but what is spelled.  Items and members may have blanks in
front. -/
structure SoundAt (fuel : Nat) : Prop where
  value : ∀ {room s v rest}, readValue fuel room s = .ok (v, rest) →
    ∃ t, s = t ++ rest ∧ Spells (.value v) t
  items : ∀ {room b s xs rest}, Blank b → readItems fuel room s = .ok (xs, rest) →
    ∃ t, b ++ s = t ++ 93 :: rest ∧ Spells (.elements xs) t
  members : ∀ {room b s ms rest}, Blank b → readMembers fuel room s = .ok (ms, rest) →
    ∃ t, b ++ s = t ++ 125 :: rest ∧ Spells (.members ms) t

namespace SoundAt

variable {fuel room : Nat} {b s rest : Text} {v : Json} {m : Text × Json}

theorem element (h : SoundAt fuel) (hb : Blank b) (hread : readValue fuel room s = .ok (v, rest)) :
    ∃ t, b ++ s = t ++ skipSpace rest ∧ Spells (.element v) t := by
  obtain ⟨t, rfl, ht⟩ := h.value hread
  obtain ⟨b', hb', hrest⟩ := exists_blank rest
  refine ⟨b ++ (t ++ b'), ?_, .element hb ht hb'⟩
  simp only [List.append_assoc, ← hrest]

theorem member (h : SoundAt fuel) (hb : Blank b) (hread : readMember fuel room s = .ok (m, rest)) :
    ∃ t, b ++ s = t ++ skipSpace rest ∧ Spells (.member m) t := by
  rcases readMember_cases fuel room s with ⟨_, _, herror⟩ | ⟨k, name, b', s', rfl, hk, hb'⟩
  · rw [herror] at hread
    cases hread
  rw [readMember_append hk hb'] at hread
  obtain ⟨⟨v, rest'⟩, hvalue, hend⟩ := map_eq_ok hread
  cases hend
  obtain ⟨b'', hb'', hs'⟩ := exists_blank s'
  obtain ⟨t, ht, hspells⟩ := h.element hb'' hvalue
  refine ⟨b ++ 34 :: (k ++ 34 :: (b' ++ 58 :: t)), ?_, .member hb hk hb' hspells⟩
  simp only [List.append_assoc, List.cons_append, ← ht, ← hs']

theorem readItems_step (h : SoundAt fuel) {xs : List Json} (hb : Blank b)
    (hread : readItems (fuel + 1) room s = .ok (xs, rest)) :
    ∃ t, b ++ s = t ++ 93 :: rest ∧ Spells (.elements xs) t := by
  rw [readItems_succ] at hread
  obtain ⟨⟨x, rest'⟩, hvalue, hend⟩ := bind_ok hread
  obtain ⟨t, ht, hx⟩ := h.element hb hvalue
  rcases goOn_eq_ok hend with ⟨hclose, rfl⟩ | ⟨tail, ys, hcomma, hmore, rfl⟩
  · exact ⟨t, by rw [ht, hclose], .lastElement hx⟩
  · obtain ⟨b', hb', htail⟩ := exists_blank tail
    obtain ⟨t', ht', hys⟩ := h.items hb' hmore
    refine ⟨t ++ 44 :: t', ?_, .moreElements hx hys⟩
    rw [ht, hcomma, htail, ht', List.append_assoc, List.cons_append]

theorem readMembers_step (h : SoundAt fuel) {ms : List (Text × Json)} (hb : Blank b)
    (hread : readMembers (fuel + 1) room s = .ok (ms, rest)) :
    ∃ t, b ++ s = t ++ 125 :: rest ∧ Spells (.members ms) t := by
  rw [readMembers_succ] at hread
  obtain ⟨⟨m, rest'⟩, hmember, hend⟩ := bind_ok hread
  obtain ⟨t, ht, hm⟩ := h.member hb hmember
  rcases goOn_eq_ok hend with ⟨hclose, rfl⟩ | ⟨tail, ms', hcomma, hmore, rfl⟩
  · exact ⟨t, by rw [ht, hclose], .lastMember hm⟩
  · obtain ⟨b', hb', htail⟩ := exists_blank tail
    obtain ⟨t', ht', hms⟩ := h.members hb' hmore
    refine ⟨t ++ 44 :: t', ?_, .moreMembers hm hms⟩
    rw [ht, hcomma, htail, ht', List.append_assoc, List.cons_append]

end SoundAt

/-! ### Brackets -/

section Enclosed

variable {α : Type} {container : Container} {close : CodePoint} {empty : Json} {wrap : α → Json}
  {all : Text → Except Stop (α × Text)} {room : Nat} {s rest : Text} {v : Json}

/-- Reads what an opening bracket encloses: there may be no room for it, it may be empty, or it is
read as a whole. -/
def enclosed (container : Container) (close : CodePoint) (empty : Json) (wrap : α → Json)
    (all : Text → Except Stop (α × Text)) (room : Nat) (s : Text) : Except Stop (Json × Text) :=
  if room = 0 then .error (.tooDeep container)
  else if (skipSpace s).head? = some close then .ok (empty, (skipSpace s).tail)
  else (all (skipSpace s)).map fun p => (wrap p.1, p.2)

theorem enclosed_eq_ok (h : enclosed container close empty wrap all room s = .ok (v, rest)) :
    v = empty ∧ (∃ b, Blank b ∧ s = b ++ close :: rest) ∨
      ∃ a, v = wrap a ∧ all (skipSpace s) = .ok (a, rest) := by
  rw [enclosed] at h
  by_cases hroom : room = 0
  · rw [if_pos hroom] at h
    cases h
  rw [if_neg hroom] at h
  by_cases hclose : (skipSpace s).head? = some close
  · rw [if_pos hclose] at h
    cases h
    obtain ⟨t, ht⟩ := List.head?_eq_some_iff.1 hclose
    obtain ⟨b, hb, hs⟩ := exists_blank s
    rw [ht] at hs
    exact .inl ⟨rfl, b, hb, by rw [ht]; exact hs⟩
  · rw [if_neg hclose] at h
    obtain ⟨⟨a, rest'⟩, hall, hend⟩ := map_eq_ok h
    cases hend
    exact .inr ⟨a, rfl, hall⟩

theorem enclosed_empty {b : Text} (hb : Blank b) (hclose : isSpace close = false) :
    Reaches (enclosed container close empty wrap all room (b ++ close :: rest)) (empty, rest) := by
  have hskip : skipSpace (b ++ close :: rest) = close :: rest := by
    rw [skipSpace_of_blank hb, skipSpace_cons hclose]
  rw [enclosed, hskip]
  by_cases hroom : room = 0
  · rw [if_pos hroom]
    exact .inr ⟨_, rfl, trivial⟩
  · rw [if_neg hroom, if_pos List.head?_cons]
    exact .inl rfl

theorem enclosed_all {a : α} (hclose : (skipSpace s).head? ≠ some close)
    (hall : room ≠ 0 → Reaches (all (skipSpace s)) (a, rest)) :
    Reaches (enclosed container close empty wrap all room s) (wrap a, rest) := by
  rw [enclosed]
  by_cases hroom : room = 0
  · rw [if_pos hroom]
    exact .inr ⟨_, rfl, trivial⟩
  · rw [if_neg hroom, if_neg hclose]
    exact (hall hroom).map fun p => (wrap p.1, p.2)

theorem enclosed_stopped : Stopped (enclosed container close empty wrap all room s) ↔
    room = 0 ∨ (skipSpace s).head? ≠ some close ∧ Stopped (all (skipSpace s)) := by
  rw [enclosed]
  by_cases hroom : room = 0
  · rw [if_pos hroom]
    exact ⟨fun _ => .inl hroom, fun _ => ⟨_, rfl, trivial⟩⟩
  rw [if_neg hroom]
  by_cases hclose : (skipSpace s).head? = some close
  · rw [if_pos hclose]
    exact ⟨fun h => absurd h (not_stopped_ok _), fun h => h.elim (absurd · hroom) fun h =>
      absurd hclose h.1⟩
  · rw [if_neg hclose, stopped_map]
    exact ⟨fun h => .inr ⟨hclose, h⟩, fun h => h.elim (absurd · hroom) And.right⟩

end Enclosed

section Brackets

variable (fuel room : Nat) (s : Text)

theorem readValue_quote : readValue (fuel + 1) room (34 :: s) =
    (readString (34 :: s).length s).map fun p => (.str p.1, p.2) := by
  simp only [readValue, if_true]
  cases readString (34 :: s).length s <;> rfl

theorem readValue_bracket : readValue (fuel + 1) room (91 :: s) =
    enclosed .array 93 (.arr []) .arr (readItems fuel (room - 1)) room s := by
  have hquote : (91 : CodePoint) ≠ 34 := by decide
  have hbrace : (91 : CodePoint) ≠ 123 := by decide
  simp only [readValue, if_neg hquote, if_neg hbrace, if_true, enclosed]
  by_cases hroom : room = 0
  · rw [if_pos hroom, if_pos hroom]
  rw [if_neg hroom, if_neg hroom]
  by_cases hclose : ∃ t, skipSpace s = 93 :: t
  · obtain ⟨t, ht⟩ := hclose
    rw [ht]
    rfl
  · rw [if_neg fun h => hclose (List.head?_eq_some_iff.1 h)]
    split
    · next t ht => exact absurd ⟨t, ht⟩ hclose
    · cases readItems fuel (room - 1) (skipSpace s) <;> rfl

theorem readValue_brace : readValue (fuel + 1) room (123 :: s) =
    enclosed .object 125 (.obj []) ofPairs (readMembers fuel (room - 1)) room s := by
  have hquote : (123 : CodePoint) ≠ 34 := by decide
  simp only [readValue, if_neg hquote, if_true, enclosed]
  by_cases hroom : room = 0
  · rw [if_pos hroom, if_pos hroom]
  rw [if_neg hroom, if_neg hroom]
  by_cases hclose : ∃ t, skipSpace s = 125 :: t
  · obtain ⟨t, ht⟩ := hclose
    rw [ht]
    rfl
  · rw [if_neg fun h => hclose (List.head?_eq_some_iff.1 h)]
    split
    · next t ht => exact absurd ⟨t, ht⟩ hclose
    · cases readMembers fuel (room - 1) (skipSpace s) <;> rfl

end Brackets

theorem SoundAt.readValue_step {fuel room : Nat} {s rest : Text} {v : Json} (h : SoundAt fuel)
    (hread : readValue (fuel + 1) room s = .ok (v, rest)) :
    ∃ t, s = t ++ rest ∧ Spells (.value v) t := by
  cases s with
  | nil => cases hread
  | cons c s =>
    obtain ⟨b, hb, hs⟩ := exists_blank s
    by_cases hquote : c = 34
    · subst hquote
      rw [readValue_quote] at hread
      obtain ⟨⟨t, rest'⟩, hstring, hend⟩ := map_eq_ok hread
      cases hend
      obtain ⟨k, rfl, hk⟩ := sound_readString _ _ hstring
      exact ⟨34 :: (k ++ [34]), by simp, .string hk⟩
    by_cases hbrace : c = 123
    · subst hbrace
      rw [readValue_brace] at hread
      rcases enclosed_eq_ok hread with ⟨rfl, b', hb', rfl⟩ | ⟨ms, rfl, hmembers⟩
      · exact ⟨123 :: (b' ++ [125]), by simp, .emptyObject hb'⟩
      · obtain ⟨t, ht, hms⟩ := h.members hb hmembers
        exact ⟨123 :: (t ++ [125]), by rw [hs, ht]; simp, .object hms⟩
    by_cases hbracket : c = 91
    · subst hbracket
      rw [readValue_bracket] at hread
      rcases enclosed_eq_ok hread with ⟨rfl, b', hb', rfl⟩ | ⟨xs, rfl, hitems⟩
      · exact ⟨91 :: (b' ++ [93]), by simp, .emptyArray hb'⟩
      · obtain ⟨t, ht, hxs⟩ := h.items hb hitems
        exact ⟨91 :: (t ++ [93]), by rw [hs, ht]; simp, .array hxs⟩
    · rw [readValue_atom hquote hbrace hbracket] at hread
      exact sound_readAtom hread

/-- What is read is spelled. -/
theorem soundAt (fuel : Nat) : SoundAt fuel := by
  induction fuel with
  | zero => exact ⟨nofun, nofun, nofun⟩
  | succ fuel ih => exact ⟨ih.readValue_step, ih.readItems_step, ih.readMembers_step⟩

/-! ## Where a limit stops the reader, it is exceeded -/

/-- With this fuel a limit stops the reader only where it is exceeded.  Items and members may have
blanks in front. -/
structure ExceedsAt (fuel : Nat) : Prop where
  value : ∀ {room s}, Stopped (readValue fuel room s) → Exceeds .value room s
  items : ∀ {room b s}, Blank b → Stopped (readItems fuel room s) →
    Exceeds .elements room (b ++ s)
  members : ∀ {room b s}, Blank b → Stopped (readMembers fuel room s) →
    Exceeds .members room (b ++ s)

namespace ExceedsAt

variable {fuel room : Nat} {b s : Text}

theorem member (h : ExceedsAt fuel) (hb : Blank b) (hstop : Stopped (readMember fuel room s)) :
    Exceeds .member room (b ++ s) := by
  rcases readMember_cases fuel room s with ⟨_, _, herror⟩ | ⟨k, name, b', s', rfl, hk, hb'⟩
  · rw [herror] at hstop
    exact absurd hstop (not_stopped_fault _ _)
  · rw [readMember_append hk hb', stopped_map] at hstop
    obtain ⟨b'', hb'', hs'⟩ := exists_blank s'
    rw [hs']
    exact .member hb hk hb' (.element hb'' (h.value hstop))

theorem readItems_step (h : ExceedsAt fuel) (hb : Blank b)
    (hstop : Stopped (readItems (fuel + 1) room s)) : Exceeds .elements room (b ++ s) := by
  rw [readItems_succ, stopped_bind] at hstop
  rcases hstop with hvalue | ⟨⟨x, rest⟩, hvalue, hend⟩
  · exact .firstElement (.element hb (h.value hvalue))
  · obtain ⟨tail, hcomma, hmore⟩ := (goOn_stopped (by decide)).1 hend
    obtain ⟨t, ht, hx⟩ := (soundAt fuel).element hb hvalue
    obtain ⟨b', hb', htail⟩ := exists_blank tail
    rw [ht, hcomma, htail]
    exact .laterElement hx (h.items hb' hmore)

theorem readMembers_step (h : ExceedsAt fuel) (hb : Blank b)
    (hstop : Stopped (readMembers (fuel + 1) room s)) : Exceeds .members room (b ++ s) := by
  rw [readMembers_succ, stopped_bind] at hstop
  rcases hstop with hmember | ⟨⟨m, rest⟩, hmember, hend⟩
  · exact .firstMember (h.member hb hmember)
  · obtain ⟨tail, hcomma, hmore⟩ := (goOn_stopped (by decide)).1 hend
    obtain ⟨t, ht, hm⟩ := (soundAt fuel).member hb hmember
    obtain ⟨b', hb', htail⟩ := exists_blank tail
    rw [ht, hcomma, htail]
    exact .laterMember hm (h.members hb' hmore)

theorem readValue_step (h : ExceedsAt fuel) (hstop : Stopped (readValue (fuel + 1) room s)) :
    Exceeds .value room s := by
  cases s with
  | nil => exact absurd hstop (not_stopped_fault _ _)
  | cons c s =>
    obtain ⟨b, hb, hs⟩ := exists_blank s
    by_cases hquote : c = 34
    · subst hquote
      rw [readValue_quote, stopped_map] at hstop
      exact absurd hstop (not_stopped_readString _ _)
    by_cases hbrace : c = 123
    · subst hbrace
      rw [readValue_brace, enclosed_stopped] at hstop
      cases room with
      | zero => exact .object
      | succ room =>
        obtain ⟨-, hmembers⟩ := hstop.resolve_left (Nat.succ_ne_zero room)
        rw [hs]
        exact .inObject (h.members hb hmembers)
    by_cases hbracket : c = 91
    · subst hbracket
      rw [readValue_bracket, enclosed_stopped] at hstop
      cases room with
      | zero => exact .array
      | succ room =>
        obtain ⟨-, hitems⟩ := hstop.resolve_left (Nat.succ_ne_zero room)
        rw [hs]
        exact .inArray (h.items hb hitems)
    · rw [readValue_atom hquote hbrace hbracket, readAtom_stopped] at hstop
      obtain ⟨negative, whole, rest, hcut, hwhole, hlong, hrest⟩ := hstop
      rw [hcut]
      exact .integer negative hwhole hlong hrest

end ExceedsAt

theorem exceedsAt (fuel : Nat) : ExceedsAt fuel := by
  induction fuel with
  | zero =>
    exact ⟨fun h => absurd h (not_stopped_fault _ _), fun _ h => absurd h (not_stopped_fault _ _),
      fun _ h => absurd h (not_stopped_fault _ _)⟩
  | succ fuel ih => exact ⟨ih.readValue_step, ih.readItems_step, ih.readMembers_step⟩

end Json

end CrossChain
