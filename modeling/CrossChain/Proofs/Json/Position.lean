import CrossChain.Json.Basic
import Mathlib.Data.List.Sort

/-!
# Positions in values

A place in a value is named by how to go down to it: at every level the position among the
children.  Document order is the lexicographic order of these lists.
-/

namespace CrossChain

namespace Json

/-- A value with the name that it is a member under, if it is a member. -/
abbrev Node := Option Text × Json

/-- The values one level down in order. -/
def children : Json → List Node
  | arr items => items.map fun item => (none, item)
  | obj members => members.map fun member => (some member.1, member.2)
  | _ => []

/-- The way down to a value. -/
abbrev Position := List Nat

/-- What stands at a position below a node. -/
def nodeAt (node : Node) : Position → Option Node
  | [] => some node
  | i :: p => (children node.2)[i]?.bind fun child => nodeAt child p

/-- Things that stand at the positions of which `P` holds, in document order; `at?` says what stands
where. -/
def Listed {α : Type} (P : Position → Prop) (at? : Position → Option α) (l : List α) : Prop :=
  ∃ ps : List Position, ps.Pairwise (· < ·) ∧ (∀ p, p ∈ ps ↔ P p) ∧ ps.map at? = l.map some

namespace Listed

variable {α : Type} {P Q : Position → Prop} {at? found? : Position → Option α} {l m : List α}

/-- There is one list of what stands at given positions. -/
theorem unique (h : Listed P at? l) (h' : Listed P at? m) : l = m := by
  obtain ⟨ps, hps, hmem, hmap⟩ := h
  obtain ⟨qs, hqs, hmem', hmap'⟩ := h'
  obtain rfl : ps = qs := hps.eq_of_mem_iff hqs fun p => (hmem p).trans (hmem' p).symm
  exact List.map_injective_iff.2 (Option.some_injective α) (hmap.symm.trans hmap')

theorem congr (h : Listed P at? l) (hP : ∀ p, P p ↔ Q p) (hat : ∀ p, at? p = found? p) :
    Listed Q found? l := by
  obtain ⟨ps, hps, hmem, hmap⟩ := h
  refine ⟨ps, hps, fun p => (hmem p).trans (hP p), ?_⟩
  rw [← hmap]
  exact List.map_congr_left fun p _ => (hat p).symm

theorem nil (h : ∀ p, ¬ P p) : Listed P at? [] :=
  ⟨[], .nil, fun p => ⟨fun hp => absurd hp List.not_mem_nil, fun hp => absurd hp (h p)⟩, rfl⟩

theorem root {a : α} (h : ∀ p, P p ↔ p = []) (hat : at? [] = some a) : Listed P at? [a] := by
  refine ⟨[[]], List.pairwise_singleton _ _, fun p => ?_, ?_⟩
  · rw [List.mem_singleton, h p]
  · rw [List.map_singleton, hat, List.map_singleton]

/-- The position that stands in the first of several values becomes that of a later one when a value
comes in front. -/
def later : Position → Position
  | [] => []
  | i :: p => (i + 1) :: p

/-- What stands in a first value and in values after it, in this order. -/
theorem append {R : Position → Prop} {all? : Position → Option α} (hl : Listed P at? l)
    (hm : Listed Q found? m) (hQ : ¬ Q [])
    (hR : ∀ p, R p ↔ (∃ q, P q ∧ p = 0 :: q) ∨ ∃ q, Q q ∧ p = later q)
    (hfirst : ∀ p, all? (0 :: p) = at? p) (hlater : ∀ i p, all? ((i + 1) :: p) = found? (i :: p)) :
    Listed R all? (l ++ m) := by
  obtain ⟨ps, hps, hmem, hmap⟩ := hl
  obtain ⟨qs, hqs, hmem', hmap'⟩ := hm
  have hne : ∀ q ∈ qs, q ≠ [] := fun q hq h => hQ (h ▸ (hmem' q).1 hq)
  refine ⟨ps.map (0 :: ·) ++ qs.map later, ?_, fun p => ?_, ?_⟩
  · rw [List.pairwise_append, List.pairwise_map, List.pairwise_map]
    refine ⟨hps.imp fun h => List.cons_lt_cons_iff.2 (.inr ⟨rfl, h⟩), ?_, ?_⟩
    · refine List.Pairwise.imp_of_mem ?_ hqs
      intro p q hp hq h
      cases p with
      | nil => exact absurd rfl (hne _ hp)
      | cons i p =>
        cases q with
        | nil => exact absurd rfl (hne _ hq)
        | cons j q =>
          rw [later, later, List.cons_lt_cons_iff]
          exact (List.cons_lt_cons_iff.1 h).imp Nat.succ_lt_succ (And.imp_left (congrArg _))
    · intro p hp q hq
      obtain ⟨p, -, rfl⟩ := List.mem_map.1 hp
      obtain ⟨q, hmemq, rfl⟩ := List.mem_map.1 hq
      cases q with
      | nil => exact absurd rfl (hne _ hmemq)
      | cons j q => exact List.cons_lt_cons_iff.2 (.inl j.succ_pos)
  · rw [hR, List.mem_append, List.mem_map, List.mem_map]
    apply or_congr
    · exact exists_congr fun q => and_congr (hmem q) eq_comm
    · exact exists_congr fun q => and_congr (hmem' q) eq_comm
  · rw [List.map_append, List.map_append, List.map_map, List.map_map, ← hmap, ← hmap']
    congr 1
    · exact List.map_congr_left fun p _ => hfirst p
    · apply List.map_congr_left
      intro q hq
      cases q with
      | nil => exact absurd rfl (hne _ hq)
      | cons j q => exact hlater j q

end Listed

end Json

end CrossChain
