import CrossChain.Text.Basic
import Mathlib.Data.List.TakeWhile

/-!
# Stripping and cutting

A text that was put together around a code point comes apart there again, as long as the code point
stands in the part before it (`cutAt_append`, `before_append`), or in the part after it
(`afterLast_append`), for no second time.  Pieces without it that were joined with it come apart
again, all of them (`splitAt_join`).
-/

namespace CrossChain

namespace Text

variable {c sep : CodePoint} {s t : Text}

/-! ## Runs -/

section Runs

variable {p : CodePoint → Bool} (hs : ∀ c ∈ s, p c = true) (ht : ∀ c ∈ t.head?, p c = false)

include hs ht

/-- A run of code points ends where what follows does not go on with it. -/
theorem takeWhile_append_of_head : (s ++ t).takeWhile p = s := by
  rw [List.takeWhile_append_of_pos hs]
  cases t with
  | nil => exact List.append_nil s
  | cons c t => rw [List.takeWhile_cons_of_neg (by rw [ht c rfl]; decide), List.append_nil]

theorem dropWhile_append_of_head : (s ++ t).dropWhile p = t := by
  rw [List.dropWhile_append_of_pos hs]
  cases t with
  | nil => rfl
  | cons c t => exact List.dropWhile_cons_of_neg (by rw [ht c rfl]; decide)

end Runs

/-! ## Stripping -/

theorem dropWhile_eq_self {p : CodePoint → Bool} :
    s.dropWhile p = s ↔ ∀ c ∈ s.head?, p c = false := by
  cases s with
  | nil => exact iff_of_true rfl nofun
  | cons c s => simp [List.dropWhile_eq_self_iff]

/-- A text that neither starts nor ends with what is stripped stays as it is. -/
theorem strip_of_ends {p : CodePoint → Bool} (hfirst : ∀ c ∈ s.head?, p c = false)
    (hlast : ∀ c ∈ s.getLast?, p c = false) : s.strip p = s := by
  have hreverse : ∀ c ∈ s.reverse.head?, p c = false := by rwa [List.head?_reverse]
  rw [strip, stripLeft, dropWhile_eq_self.2 hfirst, stripRight, dropWhile_eq_self.2 hreverse,
    List.reverse_reverse]

/-! ## Cutting -/

/-- Where a code point stands for the first time is no matter of choice. -/
theorem append_cons_inj {s' t' : Text} (hs : c ∉ s) (hs' : c ∉ s')
    (h : s ++ c :: t = s' ++ c :: t') : s = s' ∧ t = t' := by
  induction s generalizing s' with
  | nil =>
    cases s' with
    | nil => exact ⟨rfl, (List.cons.inj h).2⟩
    | cons d s' => exact absurd ((List.cons.inj h).1 ▸ List.mem_cons_self) hs'
  | cons d s ih =>
    cases s' with
    | nil => exact absurd ((List.cons.inj h).1 ▸ List.mem_cons_self) hs
    | cons d' s' =>
      obtain ⟨rfl, hrest⟩ := List.cons.inj h
      obtain ⟨rfl, rfl⟩ := ih (List.not_mem_of_not_mem_cons hs) (List.not_mem_of_not_mem_cons hs')
        hrest
      exact ⟨rfl, rfl⟩

theorem bne_of_not_mem (h : sep ∉ s) : ∀ c ∈ s, (c != sep) = true := fun _ hc =>
  bne_iff_ne.2 (ne_of_mem_of_not_mem hc h)

theorem takeWhile_append_sep (h : sep ∉ s) (t : Text) :
    (s ++ sep :: t).takeWhile (· != sep) = s :=
  takeWhile_append_of_head (bne_of_not_mem h) (by simp)

theorem before_append (h : sep ∉ s) (t : Text) : before sep (s ++ sep :: t) = s :=
  takeWhile_append_sep h t

theorem afterLast_append (h : sep ∉ t) (s : Text) : afterLast sep (s ++ sep :: t) = t := by
  have hreverse : (s ++ sep :: t).reverse = t.reverse ++ sep :: s.reverse := by simp
  rw [afterLast, hreverse, takeWhile_append_sep (mt List.mem_reverse.1 h), List.reverse_reverse]

theorem cutAt_append (h : sep ∉ s) (t : Text) : cutAt sep (s ++ sep :: t) = (s, t) := by
  rw [cutAt, takeWhile_append_sep h, dropWhile_append_of_head (bne_of_not_mem h) (by simp),
    List.drop_one, List.tail_cons]

/-! ## Splitting -/

theorem splitAt_cons_self (s : Text) : splitAt sep (sep :: s) = [] :: splitAt sep s := if_pos rfl

theorem splitAt_ne_nil (sep : CodePoint) (s : Text) : splitAt sep s ≠ [] := by
  cases s with
  | nil => exact List.cons_ne_nil _ _
  | cons c s =>
    rw [splitAt]
    split
    · exact List.cons_ne_nil _ _
    · split <;> exact List.cons_ne_nil _ _

theorem splitAt_of_not_mem (h : sep ∉ s) : splitAt sep s = [s] := by
  induction s with
  | nil => rfl
  | cons c s ih =>
    obtain ⟨hc, hs⟩ := not_or.1 (mt List.mem_cons.2 h)
    rw [splitAt, if_neg (Ne.symm hc), ih hs]

/-- The pieces of a text stand before those of what follows a separator. -/
theorem splitAt_append (s t : Text) :
    splitAt sep (s ++ sep :: t) = splitAt sep s ++ splitAt sep t := by
  induction s with
  | nil => exact splitAt_cons_self t
  | cons c s ih =>
    obtain ⟨piece, pieces, hs⟩ := List.exists_cons_of_ne_nil (splitAt_ne_nil sep s)
    rw [List.cons_append, splitAt, splitAt, ih, hs]
    split <;> rfl

/-! ## Joining -/

theorem join_cons_cons (sep a b : Text) (rest : List Text) :
    join sep (a :: b :: rest) = a ++ (sep ++ join sep (b :: rest)) := by
  rw [join, List.append_assoc]
  exact List.cons_ne_nil b rest

/-- Pieces that were joined are found again, unless there were none. -/
theorem splitAt_join {pieces : List Text} (hne : pieces ≠ [])
    (h : ∀ piece ∈ pieces, sep ∉ piece) : splitAt sep (join [sep] pieces) = pieces := by
  induction pieces with
  | nil => exact absurd rfl hne
  | cons piece rest ih =>
    obtain ⟨hpiece, hrest⟩ := List.forall_mem_cons.1 h
    cases rest with
    | nil => exact splitAt_of_not_mem hpiece
    | cons next rest =>
      rw [join_cons_cons, List.singleton_append, splitAt_append, splitAt_of_not_mem hpiece,
        ih (List.cons_ne_nil next rest) hrest, List.singleton_append]

end Text

end CrossChain
