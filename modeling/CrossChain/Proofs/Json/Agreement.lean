import CrossChain.Json.Basic
import CrossChain.Proofs.Table
import Mathlib.Data.List.Forall2
import Mathlib.Data.List.Perm.Subperm

/-!
# Values that agree

What it comes to that two values agree, where values are made of what is told apart: texts,
integers and booleans by themselves, lists item by item (`agrees_arr_map`), and objects name by
name, where a member that one has and the other has not keeps them apart (`agrees_obj_present`).
-/

namespace CrossChain

namespace Json

/-! ## Values without parts -/

theorem agrees_str {s t : Text} : agrees (.str s) (.str t) = true ↔ s = t := by
  rw [agrees, beq_iff_eq]

theorem agrees_int {m n : Int} : agrees (.int m) (.int n) = true ↔ m = n := by
  rw [agrees, asInt?, beq_iff_eq, Option.some.injEq, eq_comm]
  exact nofun

theorem agrees_bool {a b : Bool} : agrees (.bool a) (.bool b) = true ↔ a = b := by
  cases a <;> cases b <;> decide

theorem agrees_ofText? {s t : Option Text} :
    agrees (.ofText? s) (.ofText? t) = true ↔ s = t := by
  cases s <;> cases t <;> simp [ofText?, agrees]

theorem ofText?_inj {s t : Option Text} : ofText? s = ofText? t ↔ s = t := by
  cases s <;> cases t <;> simp [ofText?]

/-! ## Lists -/

/-- Lists are told apart where their items are. -/
theorem agrees_arr_map {α : Type} {f : α → Json} {as bs : List α}
    (h : ∀ a ∈ as, ∀ b ∈ bs, agrees (f a) (f b) = true ↔ a = b) :
    agrees (.arr (as.map f)) (.arr (bs.map f)) = true ↔ as = bs := by
  rw [agrees]
  induction as generalizing bs with
  | nil => cases bs <;> simp [agreeItems]
  | cons a as ih =>
    cases bs with
    | nil => simp [agreeItems]
    | cons b bs =>
      have hhead := h a List.mem_cons_self b List.mem_cons_self
      have htail := ih fun x hx y hy =>
        h x (List.mem_cons_of_mem a hx) y (List.mem_cons_of_mem b hy)
      rw [List.map_cons, List.map_cons, agreeItems, Bool.and_eq_true, hhead, htail, List.cons.injEq]

/-! ## Objects -/

/-- Values that may be absent agree: both are, or both are there and agree. -/
def Agreeing : Option Json → Option Json → Prop
  | none, none => True
  | some v, some w => agrees v w = true
  | _, _ => False

@[simp] theorem agreeing_some {v w : Json} : Agreeing (some v) (some w) ↔ agrees v w = true :=
  Iff.rfl

theorem agreeing_map {α : Type} {f : α → Json} {o o' : Option α}
    (h : ∀ a ∈ o, ∀ b ∈ o', agrees (f a) (f b) = true ↔ a = b) :
    Agreeing (o.map f) (o'.map f) ↔ o = o' := by
  cases o with
  | none => cases o' <;> simp [Agreeing]
  | some a =>
    cases o' with
    | none => simp [Agreeing]
    | some b => exact (h a rfl b rfl).trans Option.some_inj.symm

/-- The members of fields with the given names, of which some may be absent. -/
def present : List Text → List (Option Json) → List (Text × Json)
  | k :: names, o :: os => member? k o ++ present names os
  | _, _ => []

theorem names_present_subset (names : List Text) (os : List (Option Json)) :
    Table.names (present names os) ⊆ names := by
  induction names, os using present.induct with
  | case1 k names o os ih =>
    rw [present]
    cases o with
    | none => exact List.subset_cons_of_subset k ih
    | some v => exact List.cons_subset_cons k ih
  | case2 names os h =>
    rw [present.eq_2 _ _ h]
    exact List.nil_subset _

theorem nodup_names_present {names : List Text} (h : names.Nodup) (os : List (Option Json)) :
    (Table.names (present names os)).Nodup := by
  induction names, os using present.induct with
  | case1 k names o os ih =>
    obtain ⟨hk, hnames⟩ := List.nodup_cons.1 h
    rw [present]
    cases o with
    | none => exact ih hnames
    | some v =>
      exact List.nodup_cons.2 ⟨fun hmem => hk (names_present_subset names os hmem), ih hnames⟩
  | case2 names os hend =>
    rw [present.eq_2 _ _ hend]
    exact List.nodup_nil

theorem agreeMembers_cons_right {k : Text} {w : Json} {ms ns : List (Text × Json)}
    (h : k ∉ Table.names ms) : agreeMembers ms ((k, w) :: ns) = agreeMembers ms ns := by
  induction ms with
  | nil => rfl
  | cons m ms ih =>
    obtain ⟨hm, hms⟩ := not_or.1 (mt List.mem_cons.2 h)
    rw [agreeMembers, agreeMembers, ih hms, Table.get?, if_neg hm]

/-- No name of the first members is missing among the second. -/
theorem names_subset_of_agreeMembers {ms ns : List (Text × Json)}
    (h : agreeMembers ms ns = true) : Table.names ms ⊆ Table.names ns := by
  induction ms with
  | nil => exact List.nil_subset _
  | cons m ms ih =>
    rw [agreeMembers, Bool.and_eq_true] at h
    refine List.cons_subset.2 ⟨Table.isSome_get?.1 ?_, ih h.2⟩
    cases hm : Table.get? m.1 ns with
    | none =>
      rw [hm] at h
      cases h.1
    | some w => rfl

/-- Objects with the same fields, of which some may be absent, agree where they do so field by
field. -/
theorem agrees_obj_present {names : List Text} {os os' : List (Option Json)}
    (hnodup : names.Nodup) (hos : names.length = os.length) (hos' : names.length = os'.length) :
    agrees (.obj (present names os)) (.obj (present names os')) = true ↔
      List.Forall₂ Agreeing os os' := by
  rw [agrees, Bool.and_eq_true, beq_iff_eq]
  induction names generalizing os os' with
  | nil =>
    rw [List.length_eq_zero_iff.1 hos.symm, List.length_eq_zero_iff.1 hos'.symm]
    simp [present, agreeMembers]
  | cons k names ih =>
    obtain ⟨o, os, rfl⟩ := List.exists_cons_of_length_eq_add_one hos.symm
    obtain ⟨o', os', rfl⟩ := List.exists_cons_of_length_eq_add_one hos'.symm
    obtain ⟨hk, hnames⟩ := List.nodup_cons.1 hnodup
    have hms : k ∉ Table.names (present names os) := mt (names_present_subset names os ·) hk
    have hns : k ∉ Table.names (present names os') := mt (names_present_subset names os' ·) hk
    rw [List.forall₂_cons, ← ih hnames (Nat.succ_inj.1 hos) (Nat.succ_inj.1 hos'), present, present]
    cases o with
    | none =>
      cases o' with
      | none =>
        rw [Agreeing, true_and]
        rfl
      | some w =>
        -- a name more on the right: those on the left are too few to match it
        refine iff_of_false ?_ And.left
        rintro ⟨hlength, hmembers⟩
        have hsubset := names_subset_of_agreeMembers
          ((agreeMembers_cons_right hms).symm.trans hmembers)
        have hfew := (List.subperm_of_subset (nodup_names_present hnames os) hsubset).length_le
        rw [Table.names, Table.names, List.length_map, List.length_map] at hfew
        exact absurd hfew (Nat.not_le.2 (hlength ▸ Nat.lt_succ_self _))
    | some v =>
      cases o' with
      | none =>
        refine iff_of_false ?_ And.left
        rintro ⟨-, hmembers⟩
        exact hns (names_subset_of_agreeMembers hmembers List.mem_cons_self)
      | some w =>
        rw [member?, member?, List.singleton_append, List.singleton_append, agreeMembers,
          agreeMembers_cons_right hms, Table.get?, if_pos rfl, Bool.and_eq_true,
          List.length_cons, List.length_cons, Nat.succ_inj, and_left_comm]
        rfl

theorem agrees_single {k l : Text} {v w : Json} :
    agrees (.single k v) (.single l w) = true ↔ k = l ∧ agrees v w = true := by
  rw [single, single, agrees, Bool.and_eq_true, beq_iff_eq, agreeMembers, agreeMembers,
    Bool.and_true, Table.get?, Table.get?, List.length_cons, List.length_cons]
  by_cases hkey : l = k
  · simp [hkey]
  · simp [hkey, Ne.symm hkey]

end Json

end CrossChain
