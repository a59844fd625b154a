import CrossChain.Failure
import CrossChain.Json.Printer
import CrossChain.Proofs.Json.Layout

/-!
# Values that can be written

A value can be written just when every value in it can, and then all of it is written: its pieces
one after the other are its text over several lines (`make_piecesAt`), and none of them is held
back (`started_of_isWritable`).  Whatever can be read can be written (`isWritable_of_readable`).
-/

namespace CrossChain

namespace Json

theorem itemsWritable_iff {items : List Json} :
    itemsWritable items = true ↔ ∀ x ∈ items, x.isWritable = true := by
  induction items with
  | nil => exact iff_of_true rfl nofun
  | cons x xs ih => rw [itemsWritable, Bool.and_eq_true, ih, List.forall_mem_cons]

theorem membersWritable_iff {members : List (Text × Json)} :
    membersWritable members = true ↔ ∀ m ∈ members, m.2.isWritable = true := by
  induction members with
  | nil => exact iff_of_true rfl nofun
  | cons m ms ih => rw [membersWritable, Bool.and_eq_true, ih, List.forall_mem_cons]

theorem shown_eq_ok {v : Json} {s : Text} :
    v.shown = .ok s ↔ v.isWritable = true ∧ v.display = s := by
  rw [shown]
  cases v.isWritable with
  | true => exact ⟨fun h => ⟨rfl, Except.ok.inj h⟩, fun h => congrArg Except.ok h.2⟩
  | false => exact ⟨nofun, fun h => nomatch h.1⟩

theorem isWritable_int {n : Int} : (int n).isWritable = true ↔ Short n := by
  rw [isWritable, decide_eq_true_eq]

/-- The reader takes no integer that cannot be written. -/
theorem isWritable_of_readable (v : Json) :
    ∀ {room : Nat}, Readable room v → v.isWritable = true := by
  induction v using induct with
  | int n => exact fun h => isWritable_int.2 h
  | arr items ih =>
    intro room h
    exact itemsWritable_iff.2 fun x hx => ih x hx (readableItems_iff.1 h.2 x hx)
  | obj members ih =>
    intro room h
    exact membersWritable_iff.2 fun m hm => ih m hm (readableMembers_iff.1 h.2 m hm)
  | _ => exact fun _ => rfl

/-! ## Pieces -/

/-- Pieces that come to a text; whether they can all be written is said as well. -/
structure Piece.Make (pieces : List Piece) (s : Text) (can : Bool) : Prop where
  text : pieces.flatMap Piece.toText = s
  writable : pieces.all Piece.isWritable = can

namespace Piece

variable {pieces more : List Piece} {s t : Text} {can also : Bool}

theorem make_text (s : Text) : Make [⟨s, none⟩] s true :=
  ⟨(List.append_nil _).trans (List.append_nil s), rfl⟩

theorem make_int (lead : Text) (n : Int) :
    Make [⟨lead, some n⟩] (lead ++ Text.ofInt n) (int n).isWritable :=
  ⟨List.append_nil _, Bool.and_true _⟩

theorem Make.append (h : Make pieces s can) (h' : Make more t also) :
    Make (pieces ++ more) (s ++ t) (can && also) :=
  ⟨by rw [List.flatMap_append, h.text, h'.text], by rw [List.all_append, h.writable, h'.writable]⟩

theorem Make.led (h : Make pieces s can) (lead : Text) :
    Make (⟨lead, none⟩ :: pieces) (lead ++ s) can := by
  have hled := (make_text lead).append h
  rwa [Bool.true_and] at hled

theorem Make.closed (h : Make pieces s can) (h' : Make more t also) (line mark : Text) :
    Make (pieces ++ more ++ [⟨line ++ mark, none⟩]) (s ++ t ++ line ++ mark) (can && also) := by
  have hall := (h.append h').append (make_text (line ++ mark))
  rwa [Bool.and_true, ← List.append_assoc] at hall

theorem make_ledBy {v : Json} (h : Make pieces s v.isWritable) (lead : Text)
    (hint : ∀ n, v = int n → s = Text.ofInt n) :
    Make (ledBy lead v pieces) (lead ++ s) v.isWritable := by
  cases v with
  | int n =>
    rw [hint n rfl]
    exact make_int lead n
  | _ => exact h.led lead

end Piece

open Piece (Make make_text make_int make_ledBy)

theorem make_itemPieces (level : Nat) {items : List Json}
    (h : ∀ x ∈ items, ∀ level, Make (piecesAt level x) (indentedAt level x) x.isWritable) :
    Make (itemPieces level items) (indentedItems level items) (itemsWritable items) := by
  induction items with
  | nil => exact ⟨rfl, rfl⟩
  | cons x xs ih =>
    obtain ⟨hx, hxs⟩ := List.forall_mem_cons.1 h
    exact (make_ledBy (hx level) (44 :: newLine level) (by rintro n rfl; rfl)).append (ih hxs)

theorem make_memberPieces (level : Nat) {members : List (Text × Json)}
    (h : ∀ m ∈ members, ∀ level,
      Make (piecesAt level m.2) (indentedAt level m.2) m.2.isWritable) :
    Make (memberPieces level members) (indentedMembers level members)
      (membersWritable members) := by
  induction members with
  | nil => exact ⟨rfl, rfl⟩
  | cons m ms ih =>
    obtain ⟨hm, hms⟩ := List.forall_mem_cons.1 h
    exact ((hm level).led (44 :: newLine level ++ stringText m.1 ++ text ": ")).append (ih hms)

/-- The pieces of a value come to its text, and can be written just if the value can. -/
theorem make_piecesAt (v : Json) :
    ∀ level, Make (piecesAt level v) (indentedAt level v) v.isWritable := by
  induction v using induct with
  | int n => exact fun level => make_int [] n
  | arr items ih =>
    intro level
    cases items with
    | nil => exact make_text (text "[]")
    | cons x xs =>
      obtain ⟨hx, hxs⟩ := List.forall_mem_cons.1 ih
      have hfirst := make_ledBy (hx (level + 1)) (91 :: newLine (level + 1)) (by rintro n rfl; rfl)
      exact hfirst.closed (make_itemPieces (level + 1) hxs) (newLine level) [93]
  | obj members ih =>
    intro level
    cases members with
    | nil => exact make_text (text "\x7b\x7d")
    | cons m ms =>
      obtain ⟨hm, hms⟩ := List.forall_mem_cons.1 ih
      have hfirst := (hm (level + 1)).led
        (123 :: newLine (level + 1) ++ stringText m.1 ++ text ": ")
      exact hfirst.closed (make_memberPieces (level + 1) hms) (newLine level) [125]
  | _ => exact fun level => make_text _

/-- Of a value that can be written everything is. -/
theorem started_of_isWritable {v : Json} (h : v.isWritable = true) : v.started = v.indented := by
  have hmake := make_piecesAt v 0
  have hall : ∀ p ∈ piecesAt 0 v, p.isWritable = true :=
    List.all_eq_true.1 (hmake.writable.trans h)
  rw [started, List.takeWhile_eq_self_iff.2 hall, hmake.text, indented]

end Json

end CrossChain
