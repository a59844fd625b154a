import CrossChain.Acknowledgement
import CrossChain.Proofs.Json.Recognition
import CrossChain.Proofs.Text.Utf8
import Mathlib.Data.List.Permutation

/-!
# What acknowledgements are read

An acknowledgement is read as a result exactly where its text, of its bytes in strict UTF-8, spells
an object with a member `result` that is not null and without a member `error`; as an error exactly
where the two names are exchanged; and every other one is a violation (`decode_iff`).  Where a
limit of the JSON reader is exceeded reading fails otherwise (`decodes`).
-/

namespace CrossChain

/-! ## Objects as they are written -/

namespace Table

variable {α : Type}

/-- The last value that pairs have for a name. -/
def last? (key : Text) (pairs : List (Text × α)) : Option α := get? key pairs.reverse

theorem get?_append (key : Text) (t u : Table α) :
    get? key (t ++ u) = (get? key t).or (get? key u) := by
  induction t with
  | nil => rfl
  | cons p t ih =>
    obtain ⟨k, v⟩ := p
    by_cases hk : k = key
    · simp [get?, hk]
    · simp [get?, hk, ih]

theorem get?_insertAll (key : Text) (t : Table α) (pairs : List (Text × α)) :
    get? key (insertAll t pairs) = (last? key pairs).or (get? key t) := by
  induction pairs generalizing t with
  | nil => rfl
  | cons p pairs ih =>
    obtain ⟨k, v⟩ := p
    have hstep : insertAll t ((k, v) :: pairs) = insertAll (insert k v t) pairs := rfl
    rw [hstep, ih, last?, last?, List.reverse_cons, get?_append, get?_insert, Option.or_assoc]
    congr 1
    by_cases hk : key = k
    · simp [get?, hk]
    · simp [get?, hk, Ne.symm hk]

theorem get?_insertAll_of_mem {t : Table α} {pairs : List (Text × α)} (h : (names pairs).Nodup)
    {p : Text × α} (hp : p ∈ pairs) : get? p.1 (insertAll t pairs) = some p.2 := by
  have hnodup : (names pairs.reverse).Nodup := by
    rw [names, List.map_reverse]
    exact List.nodup_reverse.2 h
  rw [get?_insertAll, last?, get?_of_mem hnodup (List.mem_reverse.2 hp), Option.some_or]

/-- Of the values of a name the last wins. -/
theorem get?_ofPairs (key : Text) (pairs : List (Text × α)) :
    get? key (ofPairs pairs) = last? key pairs := by
  rw [ofPairs, get?_insertAll, get?, Option.or_none]

theorem last?_eq_none {key : Text} {pairs : List (Text × α)} :
    last? key pairs = none ↔ key ∉ names pairs := by
  rw [last?, ← Option.not_isSome_iff_eq_none, isSome_get?, names, List.map_reverse,
    List.mem_reverse]
  rfl

end Table

namespace Json

theorem not_word_obj {s : Text} {ms : List (Text × Json)} : (s, Json.obj ms) ∉ words := by
  simp [words_eq]

/-- A text spells an object where it has the object's members, of which the last wins. -/
theorem spelled_obj {s : Text} {t : Table Json} :
    Spelled s (.obj t) ↔ ∃ members, ObjectText s members ∧ t = Table.ofPairs members := by
  constructor
  · intro h
    cases h with
    | @element b s b' _ hb h hb' =>
      generalize hv : Json.obj t = v at h
      cases h with
      | word h => exact absurd (hv ▸ h) not_word_obj
      | number h => cases h <;> cases hv
      | string | emptyArray | array => cases hv
      | @emptyObject b'' hb'' =>
        cases hv
        exact ⟨[], ⟨b, b'', b', by simp, hb, hb', .inl ⟨rfl, hb''⟩⟩, rfl⟩
      | @object s ms h =>
        cases hv
        exact ⟨ms, ⟨b, s, b', by simp, hb, hb', .inr h⟩, rfl⟩
  · rintro ⟨members, ⟨b, s, b', rfl, hb, hb', ⟨rfl, hs⟩ | hs⟩, rfl⟩
    · have h := Spells.element hb (.emptyObject hs) hb'
      simpa [Spelled, Table.ofPairs, Table.insertAll] using h
    · have h := Spells.element hb (.object hs) hb'
      simpa [Spelled, ofPairs] using h

/-- What is read as an object is the text of one, with the same last member of every name. -/
theorem objectText_of_read [Json.Limits] {s : Text} {t : Table Json} (h : read s = .ok (.obj t)) :
    ∃ members, ObjectText s members ∧ ¬ ExceedsLimit s ∧
      ∀ name, Table.last? name members = Table.get? name t := by
  obtain ⟨hspelled, hwithin⟩ := read_eq_ok.1 h
  obtain ⟨members, hobject, rfl⟩ := spelled_obj.1 hspelled
  exact ⟨members, hobject, hwithin, fun name => (Table.get?_ofPairs name members).symm⟩

end Json

namespace AckBody

/-! ## The text of an acknowledgement -/

/-- The acknowledgement is this text, or its bytes in UTF-8. -/
def Says : AckBody → Text → Prop
  | bytes b, s => Utf8.encode s = .ok b
  | text t, s => t = s

/-- The name of what a good acknowledgement carries, and of what a bad one carries. -/
def member (good : Bool) : Text := if good then "result" else "error"

/-- The acknowledgement carries a value under one of the two names: it spells an object that has
the name, with this value as the last one and not null, and has not the other name. -/
def Carries (ack : AckBody) (key other : Text) (v : Json) : Prop :=
  ∃ s members, ack.Says s ∧ Json.ObjectText s members ∧ Table.last? key members = some v ∧
    v ≠ .null ∧ other ∉ Table.names members

/-- The acknowledgement is a text that exceeds a limit of the JSON reader. -/
def Exceeds [Json.Limits] (ack : AckBody) : Prop := ∃ s, ack.Says s ∧ Json.ExceedsLimit s

theorem toText_eq_ok {ack : AckBody} {s : Text} : ack.toText = .ok s ↔ ack.Says s := by
  cases ack with
  | text t => exact ⟨fun h => Except.ok.inj h, fun h => congrArg Except.ok h⟩
  | bytes b =>
    rw [Says, ← Utf8.decode_eq_ok, toText]
    cases Utf8.decode b with
    | error f => exact ⟨nofun, nofun⟩
    | ok t => exact ⟨fun h => congrArg Except.ok (Except.ok.inj h),
        fun h => congrArg Except.ok (Except.ok.inj h)⟩

theorem Says.unique {ack : AckBody} {s t : Text} (hs : ack.Says s) (ht : ack.Says t) : s = t := by
  rw [← toText_eq_ok] at hs ht
  exact Except.ok.inj (hs.symm.trans ht)

/-! ## What is read -/

/-- The failures at a limit of the reader. -/
def IsLimit : Failure → Prop
  | .value (.tooManyDigits _) => True
  | .tooDeep _ => True
  | _ => False

/-- The value is the last one under a name and not null, and the other name is missing. -/
def Alone (members : List (Text × Json)) (key other : Text) (v : Json) : Prop :=
  Table.last? key members = some v ∧ v ≠ .null ∧ other ∉ Table.names members

theorem ofMembers_of_alone {s : Text} {members : List (Text × Json)} {good : Bool} {v : Json}
    (h : Alone members (member good) (member !good) v) :
    ofMembers s (Table.ofPairs members) = .ok ⟨good, v⟩ := by
  obtain ⟨hlast, hv, hother⟩ := h
  rw [ofMembers, Table.get?_ofPairs, Table.get?_ofPairs]
  have hnone := Table.last?_eq_none.2 hother
  cases good with
  | true =>
    have hresult : Table.last? "result" members = some v := hlast
    have herror : Table.last? "error" members = none := hnone
    rw [hresult, herror]
    cases v <;> first | rfl | exact absurd rfl hv
  | false =>
    have hresult : Table.last? "result" members = none := hnone
    have herror : Table.last? "error" members = some v := hlast
    rw [hresult, herror]
    cases v <;> first | rfl | exact absurd rfl hv

/-- Members say a result, an error, or nothing that is allowed. -/
theorem ofMembers_cases (s : Text) (members : List (Text × Json)) :
    (∃ good v, Alone members (member good) (member !good) v) ∨
      ∃ violation, ofMembers s (Table.ofPairs members) = .error (.violation violation) := by
  rw [ofMembers, Table.get?_ofPairs, Table.get?_ofPairs]
  cases hresult : Table.last? "result" members with
  | none =>
    cases herror : Table.last? "error" members with
    | none => exact .inr ⟨_, rfl⟩
    | some v =>
      by_cases hv : v = .null
      · subst hv
        exact .inr ⟨_, rfl⟩
      · exact .inl ⟨false, v, herror, hv, Table.last?_eq_none.1 hresult⟩
  | some v =>
    cases herror : Table.last? "error" members with
    | some w => cases v <;> exact .inr ⟨_, rfl⟩
    | none =>
      by_cases hv : v = .null
      · subst hv
        exact .inr ⟨_, rfl⟩
      · exact .inl ⟨true, v, hresult, hv, Table.last?_eq_none.1 herror⟩

/-- What comes of reading an acknowledgement. -/
inductive Decodes [Json.Limits] (ack : AckBody) : Except Failure AckResult → Prop
  | said {good : Bool} {v : Json} (within : ¬ ack.Exceeds)
      (carries : ack.Carries (member good) (member !good) v) : Decodes ack (.ok ⟨good, v⟩)
  | violation {violation : Violation} (within : ¬ ack.Exceeds) :
      Decodes ack (.error (.violation violation))
  | limit {e : Failure} (exceeds : ack.Exceeds) (limit : IsLimit e) : Decodes ack (.error e)

/-- What is said by a text within the limits. -/
theorem not_exceeds [Json.Limits] {ack : AckBody} {s : Text} (hs : ack.Says s)
    (h : ¬ Json.ExceedsLimit s) : ¬ ack.Exceeds := by
  rintro ⟨t, ht, hexceeds⟩
  rw [ht.unique hs] at hexceeds
  exact h hexceeds

theorem decodes [Json.Limits] (ack : AckBody) : Decodes ack ack.decode := by
  rw [decode]
  cases htext : ack.toText with
  | error e =>
    have hnone : ∀ s, ¬ ack.Says s := fun s hs => by
      rw [← toText_eq_ok, htext] at hs
      cases hs
    cases ack with
    | text t => cases htext
    | bytes b =>
      rw [toText] at htext
      cases hdecode : Utf8.decode b with
      | ok t =>
        rw [hdecode] at htext
        cases htext
      | error f =>
        rw [hdecode] at htext
        cases htext
        exact .violation fun ⟨s, hs, _⟩ => hnone s hs
  | ok s =>
    have hs := toText_eq_ok.1 htext
    simp only [bind, Except.bind, parse]
    have hread := Json.reads s
    generalize Json.read s = r at hread
    cases hread with
    | fault within none => exact .violation (not_exceeds hs within)
    | @limit e exceeds limit =>
      cases e with
      | fault f => exact limit.elim
      | tooLong digits => exact .limit ⟨s, hs, exceeds⟩ trivial
      | tooDeep container => exact .limit ⟨s, hs, exceeds⟩ trivial
    | @value v within spelled =>
      have hwithin := not_exceeds hs within
      cases v with
      | null | bool | int | float | str | arr => exact .violation hwithin
      | obj t =>
        obtain ⟨members, hmembers, rfl⟩ := Json.spelled_obj.1 spelled
        simp only [Except.mapError]
        rcases ofMembers_cases s members with ⟨good, v, h⟩ | ⟨violation, hviolation⟩
        · rw [ofMembers_of_alone h]
          exact .said hwithin ⟨s, members, hs, hmembers, h⟩
        · rw [hviolation]
          exact .violation hwithin

/-- Within the limits the members decide what is read. -/
theorem decode_of_object [Json.Limits] {ack : AckBody} {s : Text} {members : List (Text × Json)}
    (hwithin : ¬ ack.Exceeds) (hs : ack.Says s) (hmembers : Json.ObjectText s members) :
    ack.decode = ofMembers s (Table.ofPairs members) := by
  have hspelled := Json.spelled_obj.2 ⟨members, hmembers, rfl⟩
  have hread := Json.read_of_spelled hspelled fun h => hwithin ⟨s, hs, h⟩
  rw [decode, toText_eq_ok.2 hs]
  simp only [bind, Except.bind, parse, hread, Except.mapError]

theorem Carries.decode_eq [Json.Limits] {ack : AckBody} {good : Bool} {v : Json}
    (h : ack.Carries (member good) (member !good) v) (hwithin : ¬ ack.Exceeds) :
    ack.decode = .ok ⟨good, v⟩ := by
  obtain ⟨s, members, hs, hmembers, halone⟩ := h
  rw [decode_of_object hwithin hs hmembers]
  exact ofMembers_of_alone halone

theorem decode_ok_iff [Json.Limits] {ack : AckBody} (hwithin : ¬ ack.Exceeds) (good : Bool)
    (v : Json) :
    ack.decode = .ok ⟨good, v⟩ ↔ ack.Carries (member good) (member !good) v := by
  constructor
  · intro h
    have hdecodes := decodes ack
    rw [h] at hdecodes
    cases hdecodes with
    | said _ carries => exact carries
  · exact fun h => h.decode_eq hwithin

theorem decode_violation_iff [Json.Limits] {ack : AckBody} (hwithin : ¬ ack.Exceeds) :
    (∃ violation, ack.decode = .error (.violation violation)) ↔
      ∀ v, ¬ ack.Carries "result" "error" v ∧ ¬ ack.Carries "error" "result" v := by
  constructor
  · rintro ⟨violation, h⟩ v
    have hnone : ∀ good, ¬ ack.Carries (member good) (member !good) v := by
      intro good
      rw [← decode_ok_iff hwithin, h]
      exact nofun
    exact ⟨hnone true, hnone false⟩
  · intro hnone
    have hdecodes := decodes ack
    generalize ack.decode = r at hdecodes
    cases hdecodes with
    | @said good v _ carries =>
      cases good with
      | true => exact absurd carries (hnone v).1
      | false => exact absurd carries (hnone v).2
    | violation => exact ⟨_, rfl⟩
    | limit exceeds _ => exact absurd exceeds hwithin

/-- Within the limits of the JSON reader, an acknowledgement is read as a result where it carries
one, as an error where it carries one, and every other one is a violation. -/
theorem decode_iff [Json.Limits] (ack : AckBody) (hwithin : ¬ ack.Exceeds) :
    (∀ v, ack.decode = .ok ⟨true, v⟩ ↔ ack.Carries "result" "error" v) ∧
      (∀ v, ack.decode = .ok ⟨false, v⟩ ↔ ack.Carries "error" "result" v) ∧
      ((∃ violation, ack.decode = .error (.violation violation)) ↔
        ∀ v, ¬ ack.Carries "result" "error" v ∧ ¬ ack.Carries "error" "result" v) :=
  ⟨decode_ok_iff hwithin true, decode_ok_iff hwithin false, decode_violation_iff hwithin⟩

/-- A short acknowledgement that opens few containers exceeds no limit. -/
theorem not_exceeds_of_count_le [Json.Limits] {ack : AckBody} {s : Text} (h : ack.toText = .ok s)
    (hopen : s.count 91 + s.count 123 ≤ Json.maxDepth) (hshort : s.length ≤ Numeral.maxDigits) :
    ¬ ack.Exceeds :=
  not_exceeds (toText_eq_ok.1 h) (Json.not_exceedsLimit_of_count_le hopen hshort)

/-- The bytes of an acknowledgement with two results, of which the second counts. -/
def twoResults : AckBody :=
  .bytes ((CrossChain.text "\x7b\"result\":null, \"result\":\"b2s=\"\x7d").flatMap Utf8.encodePoint)

theorem decode_iff_twoResults :
    ¬ twoResults.Exceeds ∧ twoResults.Carries "result" "error" (.str "b2s=") := by
  have htext : twoResults.toText =
      .ok (CrossChain.text "\x7b\"result\":null, \"result\":\"b2s=\"\x7d") := by cbv
  have hwithin : ¬ twoResults.Exceeds := not_exceeds_of_count_le htext (by decide) (by decide)
  exact ⟨hwithin, ((decode_iff twoResults hwithin).1 _).1 (by cbv)⟩

end AckBody

end CrossChain
