import CrossChain.Table

/-!
# Laws of tables

What is found in tables that are made from lists (`get?_map`), and that inserting pairs keeps the
names of a table apart (`nodup_names_insertAll`) and adds nothing to a list whose names are apart
(`ofPairs_of_nodup`).
-/

namespace CrossChain

namespace Table

variable {α β : Type}

/-! ## Names -/

@[simp] theorem names_nil : names ([] : Table α) = [] := rfl

@[simp] theorem names_cons (p : Text × α) (t : Table α) : names (p :: t) = p.1 :: names t := rfl

@[simp] theorem names_append (t u : Table α) : names (t ++ u) = names t ++ names u :=
  List.map_append

theorem names_mapValues (f : Text × α → β) (t : Table α) :
    names (t.map fun p => (p.1, f p)) = names t := by
  rw [names, List.map_map]
  rfl

/-! ## What is found -/

theorem isSome_get? {key : Text} {t : Table α} : (get? key t).isSome ↔ key ∈ names t := by
  induction t with
  | nil => simp [get?]
  | cons p rest ih =>
    obtain ⟨k, v⟩ := p
    by_cases h : k = key
    · simp [get?, h]
    · simp [get?, h, ih, Ne.symm h]

theorem mem_of_get? {key : Text} {v : α} {t : Table α} (h : get? key t = some v) :
    (key, v) ∈ t := by
  induction t with
  | nil => cases h
  | cons p rest ih =>
    obtain ⟨k, w⟩ := p
    by_cases hk : k = key
    · simp only [get?, hk, if_true, Option.some.injEq] at h
      rw [hk, h]
      exact List.mem_cons_self
    · rw [get?, if_neg hk] at h
      exact List.mem_cons_of_mem _ (ih h)

theorem get?_of_mem {t : Table α} (h : (names t).Nodup) {p : Text × α} (hp : p ∈ t) :
    get? p.1 t = some p.2 := by
  induction t with
  | nil => cases hp
  | cons q rest ih =>
    obtain ⟨hq, hrest⟩ := List.nodup_cons.1 h
    rcases List.mem_cons.1 hp with rfl | hp
    · rw [get?, if_pos rfl]
    · have hne : q.1 ≠ p.1 := by
        intro he
        exact hq (List.mem_map.2 ⟨p, hp, he.symm⟩)
      rw [get?, if_neg hne, ih hrest hp]

theorem get?_map {key : Text} {l : List Text} (f : Text → α) (h : key ∈ l) :
    get? key (l.map fun name => (name, f name)) = some (f key) := by
  induction l with
  | nil => cases h
  | cons k rest ih =>
    by_cases hk : k = key
    · simp only [List.map_cons, get?, hk, if_true]
    · have hrest := (List.mem_cons.1 h).resolve_left (Ne.symm hk)
      simp only [List.map_cons, get?, if_neg hk, ih hrest]

/-! ## Restrictions -/

/-- What a table has for names, in the order of the names. -/
def restrict (keys : List Text) (t : Table α) : Table α :=
  keys.filterMap fun key => (get? key t).map (key, ·)

theorem restrict_cons (key : Text) (keys : List Text) (t : Table α) :
    restrict (key :: keys) t = ((get? key t).map (key, ·)).toList ++ restrict keys t := by
  rw [restrict, List.filterMap_cons]
  cases get? key t <;> rfl

theorem names_restrict {keys : List Text} {t : Table α} (h : ∀ key ∈ keys, key ∈ names t) :
    names (restrict keys t) = keys := by
  induction keys with
  | nil => rfl
  | cons key keys ih =>
    obtain ⟨hkey, hkeys⟩ := List.forall_mem_cons.1 h
    obtain ⟨v, hv⟩ := Option.isSome_iff_exists.1 (isSome_get?.2 hkey)
    rw [restrict_cons, hv, names_append, ih hkeys]
    rfl

theorem get?_restrict {keys : List Text} {t : Table α} {key : Text} (hkey : key ∈ keys)
    (h : key ∈ names t) : get? key (restrict keys t) = get? key t := by
  obtain ⟨v, hv⟩ := Option.isSome_iff_exists.1 (isSome_get?.2 h)
  induction keys with
  | nil => cases hkey
  | cons k keys ih =>
    rw [restrict_cons, hv]
    by_cases hk : k = key
    · rw [hk, hv]
      simp [get?]
    · have hrest := ih ((List.mem_cons.1 hkey).resolve_left (Ne.symm hk))
      rw [hv] at hrest
      cases get? k t with
      | none => exact hrest
      | some w => simpa [get?, hk] using hrest

/-! ## Insertions -/

theorem mem_insert {key : Text} {v : α} {t : Table α} {p : Text × α} (h : p ∈ insert key v t) :
    p = (key, v) ∨ p ∈ t := by
  induction t with
  | nil => exact .inl (List.mem_singleton.1 h)
  | cons q rest ih =>
    obtain ⟨k, w⟩ := q
    by_cases hk : k = key
    · rw [insert, if_pos hk] at h
      rcases List.mem_cons.1 h with rfl | h
      · exact .inl (by rw [hk])
      · exact .inr (List.mem_cons_of_mem _ h)
    · rw [insert, if_neg hk] at h
      rcases List.mem_cons.1 h with rfl | h
      · exact .inr List.mem_cons_self
      · exact (ih h).imp_right (List.mem_cons_of_mem _)

theorem mem_insertAll {t : Table α} {pairs : List (Text × α)} {p : Text × α}
    (h : p ∈ insertAll t pairs) : p ∈ t ∨ p ∈ pairs := by
  induction pairs generalizing t with
  | nil => exact .inl h
  | cons q rest ih =>
    rcases ih h with ht | hrest
    · exact (mem_insert ht).symm.imp_right fun hq => List.mem_cons.2 (.inl hq)
    · exact .inr (List.mem_cons_of_mem _ hrest)

theorem insert_of_not_mem {key : Text} (v : α) {t : Table α} (h : key ∉ names t) :
    insert key v t = t ++ [(key, v)] := by
  induction t with
  | nil => rfl
  | cons p rest ih =>
    obtain ⟨k, w⟩ := p
    have hk : k ≠ key := fun e => h (List.mem_cons.2 (.inl e.symm))
    have hrest : key ∉ names rest := fun hr => h (List.mem_cons_of_mem _ hr)
    rw [insert, if_neg hk, ih hrest, List.cons_append]

theorem nodup_names_insertAll {t : Table α} (h : (names t).Nodup) (pairs : List (Text × α)) :
    (names (insertAll t pairs)).Nodup := by
  induction pairs generalizing t with
  | nil => exact h
  | cons p rest ih => exact ih (nodup_names_insert p.1 p.2 h)

theorem insertAll_of_nodup {t : Table α} {pairs : List (Text × α)}
    (h : (names (t ++ pairs)).Nodup) : insertAll t pairs = t ++ pairs := by
  induction pairs generalizing t with
  | nil => exact (List.append_nil t).symm
  | cons p rest ih =>
    have happend : t ++ p :: rest = (t ++ [p]) ++ rest := by
      rw [List.append_assoc, List.singleton_append]
    have hp : p.1 ∉ names t := by
      rw [names_append, names_cons, List.nodup_append] at h
      exact fun hm => h.2.2 p.1 hm p.1 List.mem_cons_self rfl
    rw [happend] at h ⊢
    rw [← ih h]
    exact congrArg (fun t => rest.foldl (fun t p => insert p.1 p.2 t) t) (insert_of_not_mem p.2 hp)

theorem ofPairs_of_nodup {pairs : List (Text × α)} (h : (names pairs).Nodup) :
    ofPairs pairs = pairs := by
  rw [ofPairs, insertAll_of_nodup (t := []) h, List.nil_append]

end Table

end CrossChain
