import CrossChain.Json.Reader

/-!
# The grammar of JSON

What a text spells, said without the reader: strings and numbers as relations between a spelling
and its value (`Chars`, `Number`), and values with what is around them as one relation over the
parts of a text (`Spells`).  No limit on digits or depth is part of the grammar; a text in which an
integer with too many digits, or one container too many, is reached is described by `Exceeds`.
-/

namespace CrossChain

namespace Json

/-! ## Tokens -/

/-- Nothing but the four blanks. -/
def Blank (s : Text) : Prop := ∀ c ∈ s, isSpace c = true

/-- The low half of a surrogate pair, written as an escape, comes first. -/
def LowEscape (s : Text) : Prop :=
  ∃ a b c d n rest, s = 92 :: 117 :: a :: b :: c :: d :: rest ∧ hex4? a b c d = some n ∧
    (CodePoint.ofNat n).isLowSurrogate = true

/-- What stands between the quotes of a string, and the string.  A high half is joined to the low
half that follows it if both are escapes. -/
inductive Chars : Text → Text → Prop
  | nil : Chars [] []
  | plain {c : CodePoint} {s t : Text} (notQuote : c ≠ 34) (notSlash : c ≠ 92)
      (visible : 32 ≤ c.val) (rest : Chars s t) : Chars (c :: s) (c :: t)
  | short {e c : CodePoint} {s t : Text} (escape : shortEscape? e = some c) (rest : Chars s t) :
      Chars (92 :: e :: s) (c :: t)
  | unicode {a b c d : CodePoint} {n : Nat} {s t : Text} (escape : hex4? a b c d = some n)
      (notHigh : (CodePoint.ofNat n).isHighSurrogate = false) (rest : Chars s t) :
      Chars (92 :: 117 :: a :: b :: c :: d :: s) (.ofNat n :: t)
  | pair {a b c d a' b' c' d' : CodePoint} {n m : Nat} {s t : Text}
      (escape : hex4? a b c d = some n) (high : (CodePoint.ofNat n).isHighSurrogate = true)
      (escape' : hex4? a' b' c' d' = some m) (low : (CodePoint.ofNat m).isLowSurrogate = true)
      (rest : Chars s t) :
      Chars (92 :: 117 :: a :: b :: c :: d :: 92 :: 117 :: a' :: b' :: c' :: d' :: s)
        (.ofPair (.ofNat n) (.ofNat m) :: t)
  | lone {a b c d : CodePoint} {n : Nat} {s t : Text} (escape : hex4? a b c d = some n)
      (high : (CodePoint.ofNat n).isHighSurrogate = true) (alone : ¬ LowEscape s)
      (rest : Chars s t) : Chars (92 :: 117 :: a :: b :: c :: d :: s) (.ofNat n :: t)

/-- Decimal digits, one at least. -/
def Digits (s : Text) : Prop := s ≠ [] ∧ ∀ c ∈ s, c.isAsciiDigit = true

/-- A zero alone, or digits that do not start with one. -/
def Whole (s : Text) : Prop := Digits s ∧ (s.head? = some 48 → s = [48])

/-- A point with digits, or nothing; the digits alone come second. -/
inductive Fraction : Text → Text → Prop
  | none : Fraction [] []
  | some {digits : Text} (h : Digits digits) : Fraction (46 :: digits) digits

/-- A sign, or nothing. -/
inductive Sign : Text → Bool → Prop
  | none : Sign [] false
  | plus : Sign [43] false
  | minus : Sign [45] true

/-- The integer of a sign and digits. -/
def signedValue (negative : Bool) (digits : Text) : Int :=
  if negative then -(Text.digitsValue digits : Nat) else (Text.digitsValue digits : Nat)

/-- An exponent with its value, or nothing. -/
inductive Exponent : Text → Int → Prop
  | none : Exponent [] 0
  | some {mark : CodePoint} {sign digits : Text} {negative : Bool}
      (hmark : mark = 101 ∨ mark = 69) (hsign : Sign sign negative) (h : Digits digits) :
      Exponent (mark :: (sign ++ digits)) (signedValue negative digits)

/-- The minus sign of a negative number. -/
def minus (negative : Bool) : Text := if negative then [45] else []

/-- A number: an integer, or a binary64 number where a fraction or an exponent is written. -/
inductive Number : Text → Json → Prop
  | int (negative : Bool) {whole : Text} (hwhole : Whole whole) :
      Number (minus negative ++ whole) (.int (signedValue negative whole))
  | float (negative : Bool) {whole fraction digits exponent : Text} {n : Int}
      (hwhole : Whole whole) (hfraction : Fraction fraction digits)
      (hexponent : Exponent exponent n) (hsome : fraction ++ exponent ≠ []) :
      Number (minus negative ++ (whole ++ (fraction ++ exponent)))
        (.float (.ofDecimal negative (Text.digitsValue (whole ++ digits)) (n - digits.length)))

/-! ## Values -/

/-- The parts of a text, with what they spell. -/
inductive Part
  | value (v : Json)
  | element (v : Json)
  | elements (xs : List Json)
  | member (m : Text × Json)
  | members (ms : List (Text × Json))

/-- What spells a part.  A value starts and ends without a blank; the other parts may have blanks
around them. -/
inductive Spells : Part → Text → Prop
  | word {s : Text} {v : Json} (h : (s, v) ∈ words) : Spells (.value v) s
  | number {s : Text} {v : Json} (h : Number s v) : Spells (.value v) s
  | string {s t : Text} (h : Chars s t) : Spells (.value (.str t)) (34 :: (s ++ [34]))
  | emptyArray {b : Text} (hb : Blank b) : Spells (.value (.arr [])) (91 :: (b ++ [93]))
  | array {s : Text} {xs : List Json} (h : Spells (.elements xs) s) :
      Spells (.value (.arr xs)) (91 :: (s ++ [93]))
  | emptyObject {b : Text} (hb : Blank b) : Spells (.value (.obj [])) (123 :: (b ++ [125]))
  | object {s : Text} {ms : List (Text × Json)} (h : Spells (.members ms) s) :
      Spells (.value (ofPairs ms)) (123 :: (s ++ [125]))
  | element {b s b' : Text} {v : Json} (hb : Blank b) (h : Spells (.value v) s) (hb' : Blank b') :
      Spells (.element v) (b ++ (s ++ b'))
  | lastElement {s : Text} {x : Json} (h : Spells (.element x) s) : Spells (.elements [x]) s
  | moreElements {s t : Text} {x : Json} {xs : List Json} (h : Spells (.element x) s)
      (rest : Spells (.elements xs) t) : Spells (.elements (x :: xs)) (s ++ 44 :: t)
  | member {b k b' s : Text} {name : Text} {v : Json} (hb : Blank b) (hk : Chars k name)
      (hb' : Blank b') (h : Spells (.element v) s) :
      Spells (.member (name, v)) (b ++ 34 :: (k ++ 34 :: (b' ++ 58 :: s)))
  | lastMember {s : Text} {m : Text × Json} (h : Spells (.member m) s) : Spells (.members [m]) s
  | moreMembers {s t : Text} {m : Text × Json} {ms : List (Text × Json)} (h : Spells (.member m) s)
      (rest : Spells (.members ms) t) : Spells (.members (m :: ms)) (s ++ 44 :: t)

/-- The text is JSON and spells the value. -/
def Spelled (s : Text) (v : Json) : Prop := Spells (.element v) s

/-- The text spells an object whose members, in the order in which they are written, are these; a
name may be among them more than once. -/
def ObjectText (s : Text) (members : List (Text × Json)) : Prop :=
  ∃ b t b', s = b ++ 123 :: (t ++ 125 :: b') ∧ Blank b ∧ Blank b' ∧
    (members = [] ∧ Blank t ∨ Spells (.members members) t)

/-! ## Limits -/

/-- An integer ends here: no digit, no fraction and no exponent comes next. -/
structure IntegerEnds (s : Text) : Prop where
  digit : ∀ c ∈ s.head?, c.isAsciiDigit = false
  fraction : ∀ {f digits t : Text}, Fraction f digits → s = f ++ t → f = []
  exponent : ∀ {e t : Text} {n : Int}, Exponent e n → s = e ++ t → e = []

/-- The kinds of parts. -/
inductive Kind
  | value
  | element
  | elements
  | member
  | members

/-- In a text that starts as a part of this kind does, an integer of too many digits is reached, or
a container for which there is no room any more.  What comes after that may be anything. -/
inductive Exceeds : Kind → Nat → Text → Prop
  | integer {room : Nat} (negative : Bool) {whole rest : Text} (hwhole : Whole whole)
      (hlong : Numeral.maxDigits < whole.length) (hrest : IntegerEnds rest) :
      Exceeds .value room (minus negative ++ (whole ++ rest))
  | array {rest : Text} : Exceeds .value 0 (91 :: rest)
  | object {rest : Text} : Exceeds .value 0 (123 :: rest)
  | inArray {room : Nat} {s : Text} (h : Exceeds .elements room s) :
      Exceeds .value (room + 1) (91 :: s)
  | inObject {room : Nat} {s : Text} (h : Exceeds .members room s) :
      Exceeds .value (room + 1) (123 :: s)
  | element {room : Nat} {b s : Text} (hb : Blank b) (h : Exceeds .value room s) :
      Exceeds .element room (b ++ s)
  | firstElement {room : Nat} {s : Text} (h : Exceeds .element room s) : Exceeds .elements room s
  | laterElement {room : Nat} {s t : Text} {x : Json} (hx : Spells (.element x) s)
      (h : Exceeds .elements room t) : Exceeds .elements room (s ++ 44 :: t)
  | member {room : Nat} {b k b' s : Text} {name : Text} (hb : Blank b) (hk : Chars k name)
      (hb' : Blank b') (h : Exceeds .element room s) :
      Exceeds .member room (b ++ 34 :: (k ++ 34 :: (b' ++ 58 :: s)))
  | firstMember {room : Nat} {s : Text} (h : Exceeds .member room s) : Exceeds .members room s
  | laterMember {room : Nat} {s t : Text} {m : Text × Json} (hm : Spells (.member m) s)
      (h : Exceeds .members room t) : Exceeds .members room (s ++ 44 :: t)

/-- The text exceeds a limit of the reader. -/
def ExceedsLimit [Json.Limits] (s : Text) : Prop := Exceeds .element maxDepth s

/-- Where a limit is exceeded there are more containers opened than there is room for, or a run of
too many digits. -/
theorem Exceeds.cause {kind : Kind} {room : Nat} {s : Text} (h : Exceeds kind room s) :
    room < s.count 91 + s.count 123 ∨
      ∃ digits, digits <:+: s ∧ Digits digits ∧ Numeral.maxDigits < digits.length := by
  induction h with
  | @integer room negative whole rest hwhole hlong hrest =>
    exact .inr ⟨whole, ⟨minus negative, rest, List.append_assoc ..⟩, hwhole.1, hlong⟩
  | array | object =>
    refine .inl ?_
    simp only [List.count_cons_self]
    omega
  | @inArray room s _ ih =>
    refine ih.imp (fun h => ?_) fun ⟨digits, hinfix, h⟩ => ⟨digits, hinfix.trans ?_, h⟩
    · have hself : (91 :: s).count 91 = s.count 91 + 1 := List.count_cons_self
      have hother : (91 :: s).count 123 = s.count 123 := List.count_cons_of_ne (by decide)
      omega
    · exact (List.suffix_cons 91 s).isInfix
  | @inObject room s _ ih =>
    refine ih.imp (fun h => ?_) fun ⟨digits, hinfix, h⟩ => ⟨digits, hinfix.trans ?_, h⟩
    · have hself : (123 :: s).count 123 = s.count 123 + 1 := List.count_cons_self
      have hother : (123 :: s).count 91 = s.count 91 := List.count_cons_of_ne (by decide)
      omega
    · exact (List.suffix_cons 123 s).isInfix
  | @element room b s hb _ ih =>
    refine ih.imp (fun h => ?_) fun ⟨digits, hinfix, h⟩ => ⟨digits, hinfix.trans ?_, h⟩
    · simp only [List.count_append]
      omega
    · exact (List.suffix_append b s).isInfix
  | firstElement _ ih | firstMember _ ih => exact ih
  | @laterElement room s t x _ _ ih | @laterMember room s t m _ _ ih =>
    have hsuffix : t <:+ s ++ 44 :: t := (List.suffix_cons 44 t).trans (List.suffix_append s _)
    refine ih.imp (fun h => ?_) fun ⟨digits, hinfix, h⟩ => ⟨digits, hinfix.trans hsuffix.isInfix, h⟩
    have h91 := hsuffix.sublist.count_le 91
    have h123 := hsuffix.sublist.count_le 123
    omega
  | @member room b k b' s name _ _ _ _ ih =>
    have hsuffix : s <:+ b ++ 34 :: (k ++ 34 :: (b' ++ 58 :: s)) :=
      ⟨b ++ 34 :: (k ++ 34 :: (b' ++ [58])), by simp⟩
    refine ih.imp (fun h => ?_) fun ⟨digits, hinfix, h⟩ => ⟨digits, hinfix.trans hsuffix.isInfix, h⟩
    have h91 := hsuffix.sublist.count_le 91
    have h123 := hsuffix.sublist.count_le 123
    omega

/-- A short text that opens few containers exceeds no limit. -/
theorem not_exceedsLimit_of_count_le [Json.Limits] {s : Text}
    (hopen : s.count 91 + s.count 123 ≤ maxDepth) (hshort : s.length ≤ Numeral.maxDigits) :
    ¬ ExceedsLimit s := by
  intro hexceeds
  rcases Exceeds.cause hexceeds with hdeep | ⟨digits, hinfix, -, hlong⟩
  · omega
  · have hlength := hinfix.length_le
    omega

end Json

end CrossChain
