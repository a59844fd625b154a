import CrossChain.Proofs.Act
import CrossChain.Readiness

/-!
# What a status tells

A request for the status of a chain ends with an answer or fails.  It tells a height if the status
passes the check and the body is a value in which a path of names leads to a number or a numeral
(`Tells`).  Of all else, most only says that the chain is not ready.  As long as the library fails
as it documents (`AsDocumented`), what says more is a value that is no object where a name is to be
looked up, a height of the wrong kind, and an infinite one (`Escapes`).
-/

namespace CrossChain

/-! ## Paths -/

namespace Json

/-- A value is an object. -/
def IsObject : Json → Prop
  | obj _ => True
  | _ => False

/-- A value is neither a number nor a truth value nor a text. -/
def IsUnnumbered : Json → Prop
  | null | arr _ | obj _ => True
  | _ => False

/-- The value to which a path of names leads. -/
def follow (path : List Text) (v : Json) : Except Failure Json :=
  path.foldlM (fun v key => v.member key) v

/-- A path of names leads from one value to another. -/
inductive Leads : List Text → Json → Json → Prop
  | here (v : Json) : Leads [] v v
  | member {key : Text} {path : List Text} {members : List (Text × Json)} {v w : Json}
    (hget : Table.get? key members = some v) (h : Leads path v w) :
    Leads (key :: path) (.obj members) w

/-- How a path ends: at a value, at an object in which a name is missing, or at something else in
which a name was to be looked up. -/
inductive Follows (path : List Text) (v : Json) : Except Failure Json → Prop
  | found (w : Json) (h : Leads path v w) : Follows path v (.ok w)
  | missing (before : List Text) (key : Text) (after : List Text) (members : List (Text × Json))
    (split : path = before ++ key :: after) (h : Leads before v (.obj members))
    (hget : Table.get? key members = none) : Follows path v (.error (.missingKey key))
  | blocked (before : List Text) (key : Text) (after : List Text) (w : Json)
    (split : path = before ++ key :: after) (h : Leads before v w) (hw : ¬ w.IsObject) :
    Follows path v (.error .wrongKind)

theorem Follows.member {key : Text} {path : List Text} {members : List (Text × Json)} {v : Json}
    {r : Except Failure Json} (hget : Table.get? key members = some v) (h : Follows path v r) :
    Follows (key :: path) (.obj members) r := by
  cases h with
  | found w h => exact .found w (.member hget h)
  | missing before k after members' split h hnone =>
    have hsplit := congrArg (key :: ·) split
    exact .missing (key :: before) k after members' hsplit (.member hget h) hnone
  | blocked before k after w split h hw =>
    exact .blocked (key :: before) k after w (congrArg (key :: ·) split) (.member hget h) hw

theorem follow_cons (key : Text) (path : List Text) (v : Json) :
    follow (key :: path) v = v.member key >>= follow path := List.foldlM_cons

theorem follows_follow (path : List Text) (v : Json) : Follows path v (follow path v) := by
  induction path generalizing v with
  | nil => exact .found v (.here v)
  | cons key path ih =>
    rw [follow_cons]
    cases v with
    | obj members =>
      rw [member]
      cases hget : Table.get? key members with
      | some v => exact (ih v).member hget
      | none => exact .missing [] key path members rfl (.here _) hget
    | _ => exact .blocked [] key path _ rfl (.here _) nofun

theorem follow_of_leads {path : List Text} {v w : Json} (h : Leads path v w) :
    follow path v = .ok w := by
  induction h with
  | here v => rfl
  | member hget _ ih =>
    rw [follow_cons, member, hget]
    exact ih

theorem follow_eq_ok_iff {path : List Text} {v w : Json} :
    follow path v = .ok w ↔ Leads path v w := by
  refine ⟨fun h => ?_, follow_of_leads⟩
  have hfollows := follows_follow path v
  rw [h] at hfollows
  cases hfollows with
  | found _ h => exact h

theorem follow_of_blocked {before : List Text} {v w : Json} (h : Leads before v w)
    (hw : ¬ w.IsObject) (key : Text) (after : List Text) :
    follow (before ++ key :: after) v = .error .wrongKind := by
  rw [follow, List.foldlM_append, ← follow, follow_of_leads h]
  cases w with
  | obj members => exact absurd trivial hw
  | _ => rfl

/-- How a value is taken for an integer: it is one, or it is no numeral or not a number, or it is of
the wrong kind, or it is infinite. -/
inductive Counts : Json → Except Failure Int → Prop
  | number (v : Json) (n : Int) (h : v.toInt = .ok n) : Counts v (.ok n)
  | unread (v : Json) (fault : ValueFault) (h : v.toInt = .error (.value fault)) :
    Counts v (.error (.value fault))
  | unnumbered (v : Json) (h : v.IsUnnumbered) : Counts v (.error .wrongKind)
  | infinite (negative : Bool) : Counts (.float (.infinite negative)) (.error .infinite)

theorem counts (v : Json) : Counts v v.toInt := by
  cases v with
  | null | arr | obj => exact .unnumbered _ trivial
  | bool b => exact .number _ _ rfl
  | int n => exact .number _ _ rfl
  | float x =>
    cases x with
    | nan => exact .unread _ _ rfl
    | infinite negative => exact .infinite negative
    | _ => exact .number _ _ rfl
  | str s =>
    cases hread : Numeral.readInt s with
    | ok n =>
      have hn : (str s).toInt = .ok n := by rw [toInt, Text.toInt, hread]; rfl
      exact hn ▸ .number _ n hn
    | error fault =>
      cases fault with
      | malformed =>
        have hn : (str s).toInt = .error (.value (.notInteger s)) := by
          rw [toInt, Text.toInt, hread]
          rfl
        exact hn ▸ .unread _ _ hn
      | tooLong digits =>
        have hn : (str s).toInt = .error (.value (.tooManyDigits digits)) := by
          rw [toInt, Text.toInt, hread]
          rfl
        exact hn ▸ .unread _ _ hn

end Json

/-! ## Heights -/

namespace Readiness

/-- The names under which a status has the height of the latest block. -/
def heightPath : List Text := ["result", "sync_info", "latest_block_height"]

theorem heightOf_eq (v : Json) : heightOf v = v.follow heightPath >>= Json.toInt := by
  simp only [heightOf, heightPath, Json.follow_cons, bind_assoc]
  rfl

/-- A status breaks the look at it with a failure. -/
inductive Breaks (v : Json) : Failure → Prop
  | blocked (before : List Text) (key : Text) (after : List Text) (w : Json)
    (split : heightPath = before ++ key :: after) (h : Json.Leads before v w)
    (hw : ¬ w.IsObject) : Breaks v .wrongKind
  | unnumbered (w : Json) (h : Json.Leads heightPath v w) (hw : w.IsUnnumbered) :
    Breaks v .wrongKind
  | infinite (negative : Bool) (h : Json.Leads heightPath v (.float (.infinite negative))) :
    Breaks v .infinite

theorem heightOf_eq_ok_iff {v : Json} {height : Int} :
    heightOf v = .ok height ↔ ∃ w, Json.Leads heightPath v w ∧ w.toInt = .ok height := by
  rw [heightOf_eq]
  constructor
  · intro h
    obtain ⟨w, hw, hheight⟩ := Act.except_bind_eq_ok h
    exact ⟨w, Json.follow_eq_ok_iff.1 hw, hheight⟩
  · rintro ⟨w, hw, hheight⟩
    rw [Json.follow_of_leads hw]
    exact hheight

theorem breaks_iff {v : Json} {e : Failure} :
    Breaks v e ↔ heightOf v = .error e ∧ isNotReady e = false := by
  rw [heightOf_eq]
  constructor
  · intro h
    cases h with
    | blocked before key after w split h hw =>
      rw [split, Json.follow_of_blocked h hw]
      exact ⟨rfl, rfl⟩
    | unnumbered w h hw =>
      rw [Json.follow_of_leads h]
      cases w with
      | null | arr | obj => exact ⟨rfl, rfl⟩
      | _ => exact hw.elim
    | infinite negative h =>
      rw [Json.follow_of_leads h]
      exact ⟨rfl, rfl⟩
  · rintro ⟨h, he⟩
    have hfollows := Json.follows_follow heightPath v
    generalize v.follow heightPath = r at h hfollows
    cases hfollows with
    | missing => cases h; cases he
    | blocked before key after w split hleads hw =>
      cases h
      exact .blocked before key after w split hleads hw
    | found w hleads =>
      have hcounts := Json.counts w
      have hw : w.toInt = .error e := h
      rw [hw] at hcounts
      cases hcounts with
      | unread => cases he
      | unnumbered _ hkind => exact .unnumbered w hleads hkind
      | infinite negative => exact .infinite negative hleads

/-! ## Answers -/

/-- A request for a status ended with an answer that tells a height. -/
def Tells (ended : Except Failure HttpAnswer) (height : Int) : Prop :=
  ∃ answer v w, ended = .ok answer ∧ answer.checked = .ok () ∧ answer.json = .ok v ∧
    Json.Leads heightPath v w ∧ w.toInt = .ok height

/-- A request for a status ended in a way that says more than that the chain is not ready. -/
inductive Escapes : Except Failure HttpAnswer → Failure → Prop
  | failed (e : Failure) (h : isNotReady e = false) : Escapes (.error e) e
  | refused (answer : HttpAnswer) (e : Failure) (hchecked : answer.checked = .error e)
    (h : isNotReady e = false) : Escapes (.ok answer) e
  | unread (answer : HttpAnswer) (e : Failure) (hchecked : answer.checked = .ok ())
    (hjson : answer.json = .error e) (h : isNotReady e = false) : Escapes (.ok answer) e
  | broken (answer : HttpAnswer) (v : Json) (e : Failure) (hchecked : answer.checked = .ok ())
    (hjson : answer.json = .ok v) (hv : Breaks v e) : Escapes (.ok answer) e

/-- A request for a status says no more than that the chain is not ready: it tells no positive
height. -/
def IsDull (ended : Except Failure HttpAnswer) : Prop :=
  (∀ height, Tells ended height → height < 1) ∧ ∀ e, ¬ Escapes ended e

/-- What the library documents of its failures: a request that fails, or is answered with a faulty
status, fails as a request, and a body that is no JSON is besides a wrong value. -/
inductive AsDocumented : Except Failure HttpAnswer → Prop
  | failed (e : Failure) (h : e.isRequest = true) : AsDocumented (.error e)
  | answered (answer : HttpAnswer) (hchecked : ∀ e, answer.checked = .error e → e.isRequest = true)
    (hjson : ∀ e, answer.json = .error e → e.isRequest = true ∨ e.isValue = true) :
    AsDocumented (.ok answer)

/-- The height that is read off the end of a request. -/
def heightIn (ended : Except Failure HttpAnswer) : Except Failure Int := do
  heightOf (← (← ended).read)

section Answers

variable {ended : Except Failure HttpAnswer} {answer : HttpAnswer} {v : Json} {e : Failure}

theorem read_eq_ok_iff : answer.read = .ok v ↔ answer.checked = .ok () ∧ answer.json = .ok v := by
  unfold HttpAnswer.read
  cases answer.checked with
  | error e => exact ⟨nofun, nofun⟩
  | ok _ => exact ⟨fun h => ⟨rfl, h⟩, And.right⟩

theorem read_eq_error_iff : answer.read = .error e ↔
    answer.checked = .error e ∨ answer.checked = .ok () ∧ answer.json = .error e := by
  unfold HttpAnswer.read
  cases answer.checked with
  | error e' =>
    show (Except.error e' : Except Failure Json) = .error e ↔ _
    simp
  | ok _ => exact ⟨fun h => .inr ⟨rfl, h⟩, fun h => (h.resolve_left nofun).2⟩

theorem isNotReady_of_isRequest (h : e.isRequest = true) : isNotReady e = true := by
  simp [isNotReady, h]

theorem isNotReady_of_isValue (h : e.isValue = true) : isNotReady e = true := by
  simp [isNotReady, h]

/-- As long as the library fails as it documents, only a status itself can break the look at it. -/
theorem Escapes.broken_of_asDocumented (h : Escapes ended e) (hended : AsDocumented ended) :
    ∃ answer v, ended = .ok answer ∧ answer.checked = .ok () ∧ answer.json = .ok v ∧
      Breaks v e := by
  cases h with
  | broken answer v _ hchecked hjson hv => exact ⟨answer, v, rfl, hchecked, hjson, hv⟩
  | failed _ he =>
    cases hended with
    | failed _ hrequest =>
      rw [isNotReady_of_isRequest hrequest] at he
      cases he
  | refused answer _ hchecked he =>
    cases hended with
    | answered _ hdocumented =>
      rw [isNotReady_of_isRequest (hdocumented e hchecked)] at he
      cases he
  | unread answer _ _ hjson he =>
    cases hended with
    | answered _ _ hdocumented =>
      rcases hdocumented e hjson with hrequest | hvalue
      · rw [isNotReady_of_isRequest hrequest] at he
        cases he
      · rw [isNotReady_of_isValue hvalue] at he
        cases he

theorem tells_iff {height : Int} : Tells ended height ↔ heightIn ended = .ok height := by
  constructor
  · rintro ⟨answer, v, w, rfl, hchecked, hjson, hleads, hheight⟩
    show (answer.read >>= heightOf) = _
    rw [read_eq_ok_iff.2 ⟨hchecked, hjson⟩]
    exact heightOf_eq_ok_iff.2 ⟨w, hleads, hheight⟩
  · intro h
    change (ended >>= fun answer => answer.read >>= heightOf) = .ok height at h
    obtain ⟨answer, rfl, hanswer⟩ := Act.except_bind_eq_ok h
    obtain ⟨v, hread, hv⟩ := Act.except_bind_eq_ok hanswer
    obtain ⟨w, hleads, hheight⟩ := heightOf_eq_ok_iff.1 hv
    obtain ⟨hchecked, hjson⟩ := read_eq_ok_iff.1 hread
    exact ⟨answer, v, w, rfl, hchecked, hjson, hleads, hheight⟩

theorem escapes_iff : Escapes ended e ↔ heightIn ended = .error e ∧ isNotReady e = false := by
  constructor
  · intro h
    cases h with
    | failed _ h => exact ⟨rfl, h⟩
    | refused answer _ hchecked h =>
      refine ⟨?_, h⟩
      show (answer.read >>= heightOf) = _
      rw [read_eq_error_iff.2 (.inl hchecked)]
      rfl
    | unread answer _ hchecked hjson h =>
      refine ⟨?_, h⟩
      show (answer.read >>= heightOf) = _
      rw [read_eq_error_iff.2 (.inr ⟨hchecked, hjson⟩)]
      rfl
    | broken answer v _ hchecked hjson hv =>
      obtain ⟨hheight, he⟩ := breaks_iff.1 hv
      refine ⟨?_, he⟩
      show (answer.read >>= heightOf) = _
      rw [read_eq_ok_iff.2 ⟨hchecked, hjson⟩]
      exact hheight
  · rintro ⟨h, he⟩
    cases ended with
    | error e' =>
      cases h
      exact .failed e he
    | ok answer =>
      change (answer.read >>= heightOf) = .error e at h
      cases hread : answer.read with
      | ok v =>
        rw [hread] at h
        obtain ⟨hchecked, hjson⟩ := read_eq_ok_iff.1 hread
        exact .broken answer v e hchecked hjson (breaks_iff.2 ⟨h, he⟩)
      | error e' =>
        rw [hread] at h
        cases h
        rcases read_eq_error_iff.1 hread with hchecked | ⟨hchecked, hjson⟩
        · exact .refused answer e hchecked he
        · exact .unread answer e hchecked hjson he

end Answers

/-- What becomes of the end of a request: a positive height, nothing, or a failure. -/
inductive Sees (ended : Except Failure HttpAnswer) : Except Failure (Option Int) → Prop
  | ready (height : Int) (h : Tells ended height) (hheight : 1 ≤ height) :
    Sees ended (.ok (some height))
  | dull (h : IsDull ended) : Sees ended (.ok none)
  | escaped (e : Failure) (h : Escapes ended e) : Sees ended (.error e)

/-- What a look makes of the height that it read. -/
def seen : Except Failure Int → Except Failure (Option Int)
  | .ok height => .ok (if 1 ≤ height then some height else none)
  | .error e => if isNotReady e then .ok none else .error e

theorem sees (ended : Except Failure HttpAnswer) :
    Sees ended (seen (heightIn ended)) := by
  cases h : heightIn ended with
  | ok height =>
    have htells : Tells ended height := tells_iff.2 h
    rw [seen]
    split
    · next hheight => exact .ready height htells hheight
    · next hheight =>
      refine .dull ⟨fun height' htells' => ?_, fun e hescapes => ?_⟩
      · have hsame := tells_iff.1 htells'
        rw [h] at hsame
        cases hsame
        omega
      · have hnot := (escapes_iff.1 hescapes).1
        rw [h] at hnot
        cases hnot
  | error e =>
    cases he : isNotReady e with
    | false =>
      rw [seen, he]
      exact .escaped e (escapes_iff.2 ⟨h, he⟩)
    | true =>
      rw [seen, he]
      refine .dull ⟨fun height htells => ?_, fun e' hescapes => ?_⟩
      · have hnot := tells_iff.1 htells
        rw [h] at hnot
        cases hnot
      · obtain ⟨hsame, he'⟩ := escapes_iff.1 hescapes
        rw [h] at hsame
        cases hsame
        rw [he] at he'
        cases he'

end Readiness

end CrossChain
