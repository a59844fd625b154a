import CrossChain.Cache
import CrossChain.Proofs.Act
import CrossChain.Proofs.Json.RoundTrip
import CrossChain.Proofs.Json.Writing
import CrossChain.Proofs.Table

/-!
# What is kept of a cache

The content of the file of a cache says that cache again, with the surrogate pairs of the account
joined (`ofContent_content`), where names and addresses have no such pairs and code ids are no
longer than the reader takes (`Cache.Sound`).
-/

namespace CrossChain

/-! ## Line breaks -/

theorem unifyLineBreaks_visible (s : Text) (h : Json.Visible s) :
    Cache.unifyLineBreaks s = s := by
  induction s with
  | nil => rfl
  | cons c s ih =>
    have hc : c ≠ 13 := by
      rintro rfl
      exact absurd (h 13 List.mem_cons_self) (by decide)
    have hrest := ih fun d hd => h d (List.mem_cons_of_mem _ hd)
    cases s with
    | nil => rw [Cache.unifyLineBreaks, if_neg hc]
    | cons d s =>
      rw [Cache.unifyLineBreaks, if_neg fun hboth => hc hboth.1, if_neg hc, hrest]

namespace Cache

/-! ## Sound caches -/

/-- Every name once and without surrogate pairs, with values of which `P` holds. -/
structure SoundTable (P : Json → Prop) (t : Table Json) : Prop where
  nodup : (Table.names t).Nodup
  names : ∀ p ∈ t, p.1.Unpaired
  values : ∀ p ∈ t, P p.2

/-- A text without surrogate pairs. -/
def IsAddress (v : Json) : Prop := ∃ s : Text, v = .str s ∧ s.Unpaired

/-- An integer of no more digits than the reader takes. -/
def IsCode (v : Json) : Prop := ∃ n : Int, v = .int n ∧ Json.Short n

/-- A cache whose tables are read back as they are. -/
structure Sound (c : Cache) : Prop where
  contracts : SoundTable IsAddress c.contracts
  codeIds : SoundTable IsCode c.codeIds
  client : ∃ s, c.client = .str s

section Sound

variable {P : Json → Prop} {t : Table Json}

theorem SoundTable.plain (h : SoundTable P t) (hP : ∀ v, P v → Json.Plain v) :
    Json.Plain (.obj t) := by
  refine ⟨h.nodup, ?_⟩
  have hmembers : ∀ p ∈ t, p.1.Unpaired ∧ Json.Plain p.2 := fun p hp =>
    ⟨h.names p hp, hP _ (h.values p hp)⟩
  clear h
  induction t with
  | nil => trivial
  | cons p t ih =>
    obtain ⟨hp, ht⟩ := List.forall_mem_cons.1 hmembers
    exact ⟨hp.1, hp.2, ih ht⟩

theorem plain_of_isAddress {v : Json} : IsAddress v → Json.Plain v := by
  rintro ⟨s, rfl, hs⟩
  exact hs

theorem plain_of_isCode {v : Json} : IsCode v → Json.Plain v := by
  rintro ⟨n, rfl, -⟩
  trivial

theorem readable_of_isAddress {room : Nat} {v : Json} : IsAddress v → Json.Readable room v := by
  rintro ⟨s, rfl, -⟩
  trivial

theorem readable_of_isCode {room : Nat} {v : Json} : IsCode v → Json.Readable room v := by
  rintro ⟨n, rfl, hn⟩
  exact hn

theorem SoundTable.readable (h : SoundTable P t) {room : Nat} (hroom : 0 < room)
    (hP : ∀ v, P v → Json.Readable (room - 1) v) : Json.Readable room (.obj t) :=
  ⟨hroom, Json.readableMembers_iff.2 fun p hp => hP _ (h.values p hp)⟩

end Sound

/-- The cache as it is read back. -/
def reloaded (c : Cache) : Cache := { c with client := c.client.joined }

theorem Sound.reloaded {c : Cache} (h : Sound c) : Sound c.reloaded := by
  refine ⟨h.contracts, h.codeIds, ?_⟩
  obtain ⟨s, hs⟩ := h.client
  exact ⟨s.joined, by rw [Cache.reloaded, hs, Json.joined]⟩

/-- A cache that is read back as it is. -/
structure Plain (c : Cache) : Prop where
  contracts : SoundTable IsAddress c.contracts
  codeIds : SoundTable IsCode c.codeIds
  client : IsAddress c.client

theorem Plain.sound {c : Cache} (h : Plain c) : Sound c :=
  ⟨h.contracts, h.codeIds, h.client.imp fun _ hs => hs.1⟩

theorem Plain.reloaded_eq {c : Cache} (h : Plain c) : c.reloaded = c := by
  obtain ⟨s, hclient, hs⟩ := h.client
  rw [reloaded, hclient, Json.joined, Text.joined_of_unpaired hs, ← hclient]

/-! ## Tables that grow -/

theorem SoundTable.nil (P : Json → Prop) : SoundTable P [] :=
  ⟨List.nodup_nil, nofun, nofun⟩

theorem SoundTable.insertAll {P : Json → Prop} {t : Table Json} (h : SoundTable P t)
    {pairs : Table Json} (hpairs : ∀ p ∈ pairs, p.1.Unpaired ∧ P p.2) :
    SoundTable P (Table.insertAll t pairs) where
  nodup := Table.nodup_names_insertAll h.nodup pairs
  names p hp := (Table.mem_insertAll hp).elim (h.names p) fun hp => (hpairs p hp).1
  values p hp := (Table.mem_insertAll hp).elim (h.values p) fun hp => (hpairs p hp).2

/-! ## Caches that can be written -/

theorem isWritable_iff {c : Cache} : c.isWritable = true ↔
    (∀ p ∈ c.contracts, p.2.isWritable = true) ∧ (∀ p ∈ c.codeIds, p.2.isWritable = true) ∧
      c.client.isWritable = true := by
  rw [isWritable, toJson, Json.isWritable, Json.membersWritable_iff]
  simp only [List.forall_mem_cons, List.not_mem_nil, false_implies, implies_true, and_true,
    Json.isWritable, Json.membersWritable_iff]

/-! ## Complete caches -/

theorem isComplete_some {c : Cache} {names : List Text} :
    isComplete (some c) names = true ↔
      ∀ name ∈ names, ∃ v, Table.get? name c.contracts = some v ∧ v.isEmpty = false := by
  rw [isComplete, List.all_eq_true]
  apply forall₂_congr
  intro name _
  cases Table.get? name c.contracts <;> simp

theorem isComplete_of_full {c : Cache} {names : List Text}
    (hfull : ∀ p ∈ c.contracts, p.2.isEmpty = false)
    (hnames : ∀ name ∈ names, name ∈ Table.names c.contracts) :
    isComplete (some c) names = true := by
  apply isComplete_some.2
  intro name hname
  obtain ⟨v, hv⟩ := Option.isSome_iff_exists.1 (Table.isSome_get?.2 (hnames name hname))
  exact ⟨v, hv, hfull _ (Table.mem_of_get? hv)⟩

theorem mem_names_of_isComplete {c : Cache} {names : List Text}
    (h : isComplete (some c) names = true) : ∀ name ∈ names, name ∈ Table.names c.contracts := by
  intro name hname
  obtain ⟨v, hv, -⟩ := isComplete_some.1 h name hname
  exact Table.isSome_get?.1 (Option.isSome_iff_exists.2 ⟨v, hv⟩)

/-! ## Contents -/

theorem joined_toJson {c : Cache} (h : Sound c) : c.toJson.joined = c.reloaded.toJson := by
  have hcontracts := Json.joined_of_plain _ (h.contracts.plain fun _ => plain_of_isAddress)
  have hcodeIds := Json.joined_of_plain _ (h.codeIds.plain fun _ => plain_of_isCode)
  rw [toJson, Json.joined, Json.joinedMembers, Json.joinedMembers, Json.joinedMembers,
    Json.joinedMembers, hcontracts, hcodeIds]
  rfl

theorem ofMembers_toJson {c : Cache} {s : Text} (hs : c.client = .str s) :
    ofMembers [("OS", .obj c.contracts), ("ALL_ADO", .obj c.codeIds), ("client", c.client)] =
      c := by
  obtain ⟨contracts, codeIds, client⟩ := c
  obtain rfl : client = .str s := hs
  have hcontracts : Table.get? "OS" [("OS", .obj contracts), ("ALL_ADO", .obj codeIds),
      ("client", .str s)] = some (Json.obj contracts) := rfl
  have hcodeIds : Table.get? "ALL_ADO" [("OS", .obj contracts), ("ALL_ADO", .obj codeIds),
      ("client", .str s)] = some (Json.obj codeIds) := rfl
  have hclient : Table.get? "client" [("OS", .obj contracts), ("ALL_ADO", .obj codeIds),
      ("client", .str s)] = some (Json.str s) := rfl
  rw [ofMembers, hcontracts, hcodeIds, hclient]
  cases s <;> rfl

/-- In a cache containers stand inside one other at most. -/
theorem Sound.readable {c : Cache} (h : Sound c) {room : Nat} (hroom : 2 ≤ room) :
    Json.Readable room c.toJson := by
  obtain ⟨s, hs⟩ := h.client
  refine ⟨by omega, h.contracts.readable (by omega) fun _ => readable_of_isAddress,
    h.codeIds.readable (by omega) fun _ => readable_of_isCode, ?_, trivial⟩
  rw [hs]
  trivial

theorem Sound.isWritable {c : Cache} (h : Sound c) : c.isWritable = true :=
  Json.isWritable_of_readable c.toJson (h.readable le_rfl)

/-- The content of the file of a cache says the cache. -/
theorem ofContent_content [Json.Limits] {c : Cache} (h : Sound c) :
    ofContent c.content = .ok (some c.reloaded) := by
  have hreadable := h.readable Json.two_le_maxDepth
  have hparse : Json.parse c.toJson.indented = .ok c.toJson.joined := by
    rw [Json.parse, Json.read_indented hreadable]
    rfl
  have hvisible := Json.visible_indented hreadable
  rw [ofContent, content, Json.started_of_isWritable h.isWritable, Json.ofUtf8_visible hvisible]
  simp only [bind, Except.bind]
  rw [unifyLineBreaks_visible _ hvisible, hparse, joined_toJson h]
  obtain ⟨s, hs⟩ := h.client
  have hclient : c.reloaded.client = .str s.joined := by
    rw [reloaded, hs]
    rfl
  exact congrArg (fun c => Except.ok (some c)) (ofMembers_toJson hclient)

end Cache

end CrossChain
