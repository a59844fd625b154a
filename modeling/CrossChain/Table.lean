import CrossChain.Text.Basic

/-!
# Tables

A table is a list of names with values, in the order in which the names first came in.  A name that
is given a new value keeps its place.  Main statements: what is found after an insertion
(`get?_insert`), and that an insertion adds a new name at the end and moves no other
(`names_insert_of_mem`, `names_insert_of_not_mem`).
-/

namespace CrossChain

/-- Names with values in order. -/
abbrev Table (α : Type) := List (Text × α)

namespace Table

variable {α : Type}

/-- The names of a table in order. -/
def names (t : Table α) : List Text := t.map (·.1)

/-- The value that a table has for a name. -/
def get? (key : Text) : Table α → Option α
  | [] => none
  | (k, v) :: rest => if k = key then some v else get? key rest

/-- The table with the value of a name replaced where the name stands, or added at the end. -/
def insert (key : Text) (value : α) : Table α → Table α
  | [] => [(key, value)]
  | (k, v) :: rest => if k = key then (k, value) :: rest else (k, v) :: insert key value rest

/-- The table with all pairs inserted, in order. -/
def insertAll (t : Table α) (pairs : List (Text × α)) : Table α :=
  pairs.foldl (fun t p => insert p.1 p.2 t) t

/-- The table of a list of pairs: of a name's values the last wins, at the place of the first. -/
def ofPairs (pairs : List (Text × α)) : Table α := insertAll [] pairs

/-! ### Laws -/

theorem get?_insert (k key : Text) (v : α) (t : Table α) :
    get? k (insert key v t) = if k = key then some v else get? k t := by
  induction t with
  | nil => simp only [insert, get?, eq_comm]
  | cons p rest ih =>
    obtain ⟨k', v'⟩ := p
    by_cases h : k' = key
    · subst h
      by_cases hk : k' = k
      · simp [insert, get?, hk]
      · simp [insert, get?, hk, Ne.symm hk]
    · by_cases hk : k' = k
      · subst hk
        simp [insert, get?, h]
      · simp [insert, get?, h, hk, ih]

theorem names_insert_of_mem {key : Text} (v : α) {t : Table α} (h : key ∈ names t) :
    names (insert key v t) = names t := by
  induction t with
  | nil => simp [names] at h
  | cons p rest ih =>
    obtain ⟨k, w⟩ := p
    by_cases hk : k = key
    · simp [insert, names, hk]
    · have hr : key ∈ names rest := (List.mem_cons.1 h).resolve_left (Ne.symm hk)
      have ih' : (insert key v rest).map (·.1) = rest.map (·.1) := ih hr
      simp only [insert, names, if_neg hk, List.map_cons, ih']

theorem names_insert_of_not_mem {key : Text} (v : α) {t : Table α} (h : key ∉ names t) :
    names (insert key v t) = names t ++ [key] := by
  induction t with
  | nil => rfl
  | cons p rest ih =>
    obtain ⟨k, w⟩ := p
    have hk : k ≠ key := fun e => h (List.mem_cons.2 (.inl e.symm))
    have ih' : (insert key v rest).map (·.1) = rest.map (·.1) ++ [key] :=
      ih fun hr => h (List.mem_cons.2 (.inr hr))
    simp only [insert, names, if_neg hk, List.map_cons, ih', List.cons_append]

theorem nodup_names_insert (key : Text) (v : α) {t : Table α} (h : (names t).Nodup) :
    (names (insert key v t)).Nodup := by
  by_cases hk : key ∈ names t
  · rw [names_insert_of_mem v hk]
    exact h
  · rw [names_insert_of_not_mem v hk, List.nodup_append]
    refine ⟨h, by simp, fun a ha b hb hab => hk ?_⟩
    rw [← List.mem_singleton.1 hb, ← hab]
    exact ha

end Table

end CrossChain
