import CrossChain.Proofs.Bootstrap.AllOrNothing
import CrossChain.Proofs.Bootstrap.Operations
import Mathlib.Logic.Function.Basic

/-!
# The cache directory as a table

Whatever operations are performed one after the other, the files of the cache directory hold a table
that each operation changes in one place at most (`holds_performAll`).  So every load finds what the
table has, and the addresses it finds are those of one bootstrap (`load_performAll`).
-/

namespace CrossChain

namespace Bootstrap

open Cache (fileName)

/-! ## The table -/

/-- What is remembered of chains, by the names of their files. -/
abbrev Entries := FileName → Option Cache

/-- Names and addresses without surrogate pairs. -/
def PlainAddresses (addresses : Table Json) : Prop :=
  ∀ p ∈ addresses, p.1.Unpaired ∧ Cache.IsAddress p.2

/-- Names without surrogate pairs, and code ids that are not too long. -/
def PlainCodes (codes : Table Int) : Prop := ∀ p ∈ codes, p.1.Unpaired ∧ Json.Short p.2

namespace Performed

variable {σ : Type}

/-- What is remembered of a chain after an operation on it. -/
def entry : Performed σ → Option Cache → Option Cache
  | ⟨.setUp client _ set useCache, .ok addresses⟩, old =>
    if useCache && Cache.isComplete old set.names then old
    else some ⟨addresses, [], .str client.sender⟩
  | ⟨.publishAll client _ _, .ok codes⟩, old => some (.published old client.sender codes)
  | ⟨_, .error _⟩, old => old

/-- The table after an operation. -/
def update (x : Performed σ) (entries : Entries) : Entries :=
  Function.update entries (fileName x.op.chainId) (x.entry (entries (fileName x.op.chainId)))

theorem update_eq {x : Performed σ} {entries : Entries} (chainId : Text) {c : Option Cache}
    (hid : x.op.chainId = chainId) (h : x.entry (entries (fileName chainId)) = c) :
    x.update entries = Function.update entries (fileName chainId) c := by rw [update, hid, h]

/-- The account and what was gained are plain.  A publication that failed for what cannot be written
is one on a chain that gives short code ids. -/
def Plain : Performed σ → Prop
  | ⟨.setUp client _ _ _, .ok addresses⟩ => client.sender.Unpaired ∧ PlainAddresses addresses
  | ⟨.publishAll client _ _, .ok codes⟩ => client.sender.Unpaired ∧ PlainCodes codes
  | ⟨.publishAll client _ _, .error e⟩ => e = .value .unwritable → client.ShortCodes
  | ⟨.setUp .., .error _⟩ => True

end Performed

/-- What is remembered once operations were performed, where nothing was before. -/
def remembered {σ : Type} (xs : List (Performed σ)) : Entries :=
  xs.foldl (fun entries x => x.update entries) fun _ => none

theorem remembered_concat {σ : Type} (xs : List (Performed σ)) (x : Performed σ) :
    remembered (xs ++ [x]) = x.update (remembered xs) := by
  rw [remembered, List.foldl_append]
  rfl

/-! ## Files that hold the table -/

/-- The files of the cache directory are those of a table. -/
structure Holds (files : FileTree) (d : Path) (home : Place) (entries : Entries) : Prop where
  directoryAt : files.DirectoryAt d home
  entry : ∀ name, files.entry? (home.child name) = (entries name).map fun c => .file c.content
  plain : ∀ name c, entries name = some c → c.Plain

section Holds

variable {σ : Type} {d : Path} {home : Place} {files files' : FileTree} {entries : Entries}
  {chainId : Text} {c : Cache}

theorem Holds.load [Json.Limits] (h : Holds files d home entries) (hid : 47 ∉ chainId)
    (hstorable : Cache.Storable d chainId) :
    Cache.load d chainId files = .ok (entries (fileName chainId)) files := by
  have hentry := h.entry (fileName chainId)
  cases hc : entries (fileName chainId) with
  | none =>
    rw [hc] at hentry
    exact Cache.load_of_none hid h.directoryAt hstorable hentry
  | some c =>
    rw [hc] at hentry
    have hplain := h.plain _ c hc
    rw [Cache.load_of_content hid h.directoryAt hstorable hplain.sound hentry, hplain.reloaded_eq]

theorem Holds.eq_of_load [Json.Limits] (h : Holds files d home entries) (hid : 47 ∉ chainId)
    (hstorable : Cache.Storable d chainId) {old : Option Cache}
    (hload : Cache.load d chainId files = .ok old files') : entries (fileName chainId) = old := by
  rw [h.load hid hstorable] at hload
  cases hload
  rfl

theorem Holds.stored (h : Holds files d home entries)
    (hwritable : Cache.Writable files d home chainId) (hc : c.Plain) :
    Holds (Cache.stored files home chainId c) d home
      (Function.update entries (fileName chainId) (some c)) where
  directoryAt := h.directoryAt.mono (hwritable.keepsDirectories c)
  entry name := by
    by_cases hname : name = fileName chainId
    · subst hname
      rw [Function.update_self, Cache.entry?_stored_self]
      rfl
    · rw [Function.update_of_ne hname, Cache.entry?_stored_of_ne hname, h.entry]
  plain name c' hc' := by
    by_cases hname : name = fileName chainId
    · subst hname
      rw [Function.update_self] at hc'
      cases hc'
      exact hc
    · rw [Function.update_of_ne hname] at hc'
      exact h.plain name c' hc'

theorem soundTable_addresses {addresses : Table Json} {set : ContractSet}
    (hnames : (Table.names addresses).Perm set.names) (haddresses : PlainAddresses addresses) :
    Cache.SoundTable Cache.IsAddress addresses where
  nodup := hnames.nodup_iff.2 set.nodup
  names p hp := (haddresses p hp).1
  values p hp := (haddresses p hp).2

theorem isCode_of_plainCodes {codes : Table Int} (h : PlainCodes codes) :
    ∀ p ∈ codes.map fun p => (p.1, Json.int p.2), p.1.Unpaired ∧ Cache.IsCode p.2 := by
  intro p hp
  obtain ⟨q, hq, rfl⟩ := List.mem_map.1 hp
  obtain ⟨hname, hshort⟩ := h q hq
  exact ⟨hname, q.2, rfl, hshort⟩

theorem sound_published {c : Cache} {sender : Text} {codes : Table Int} (hc : c.Sound)
    (hcodes : PlainCodes codes) : (Cache.published (some c) sender codes).Sound :=
  ⟨hc.contracts, hc.codeIds.insertAll (isCode_of_plainCodes hcodes), hc.client⟩

theorem plain_published {old : Option Cache} {sender : Text} {codes : Table Int}
    (hold : ∀ c, old = some c → c.Plain) (hsender : sender.Unpaired)
    (hcodes : PlainCodes codes) :
    (Cache.published old sender codes).Plain := by
  have hpairs := isCode_of_plainCodes hcodes
  cases old with
  | none =>
    exact ⟨.nil _, (Cache.SoundTable.nil _).insertAll hpairs, sender, rfl, hsender⟩
  | some c =>
    obtain ⟨hcontracts, hcodeIds, hclient⟩ := hold c rfl
    exact ⟨hcontracts, hcodeIds.insertAll hpairs, hclient⟩

theorem plain_installed {addresses : Table Json} {set : ContractSet} {sender : Text}
    (hnames : (Table.names addresses).Perm set.names) (hsender : sender.Unpaired)
    (haddresses : PlainAddresses addresses) :
    Cache.Plain ⟨addresses, [], .str sender⟩ where
  contracts := soundTable_addresses hnames haddresses
  codeIds := .nil _
  client := ⟨sender, rfl, hsender⟩

/-- An operation changes the files as it changes the table. -/
theorem Holds.effect [Json.Limits] {x : Performed σ} (h : Holds files d home entries)
    (hid : 47 ∉ x.op.chainId) (hplain : x.Plain) (heffect : Effect d home files x files') :
    Holds files' d home (x.update entries) := by
  cases heffect with
  | failed op e =>
    have hentry : Performed.entry ⟨op, .error e⟩ (entries (fileName op.chainId)) =
        entries (fileName op.chainId) := by cases op <;> rfl
    rwa [Performed.update_eq op.chainId rfl hentry, Function.update_eq_self]
  | found client chainName set cache hload hcomplete =>
    have hold : entries (fileName client.chainId) = some cache :=
      h.eq_of_load hid (Cache.storable_of_load hid h.directoryAt hload) hload
    have hentry : Performed.entry ⟨.setUp client chainName set true,
        .ok (Table.restrict set.names cache.contracts)⟩ (entries (fileName client.chainId)) =
        entries (fileName client.chainId) := by
      rw [hold]
      exact if_pos hcomplete
    rwa [Performed.update_eq client.chainId rfl hentry, Function.update_eq_self]
  | installed client chainName set useCache addresses hcold hnames hwritable =>
    change 47 ∉ client.chainId at hid
    obtain ⟨hsender, haddresses⟩ := hplain
    -- What the bootstrap found incomplete in its file is what the table has for it.
    have hincomplete : ¬ (useCache && Cache.isComplete (entries (fileName client.chainId))
        set.names) = true := by
      intro hboth
      obtain ⟨huse, hcomplete⟩ := Bool.and_eq_true_iff.1 hboth
      obtain ⟨cache, hload, hnot⟩ := hcold d rfl huse
      rw [h.eq_of_load hid hwritable.storable hload, hnot] at hcomplete
      cases hcomplete
    have hentry : Performed.entry ⟨.setUp client chainName set useCache, .ok addresses⟩
        (entries (fileName client.chainId)) = some ⟨addresses, [], .str client.sender⟩ :=
      if_neg hincomplete
    rw [Performed.update_eq client.chainId rfl hentry]
    exact h.stored hwritable (plain_installed hnames hsender haddresses)
  | published client registry directory codes old hload hwritable =>
    obtain ⟨hsender, hcodes⟩ := hplain
    obtain rfl := h.eq_of_load hid hwritable.storable hload
    exact h.stored hwritable (plain_published (h.plain _) hsender hcodes)
  | torn client registry directory codes old hload hwritable hlong hcodes =>
    obtain rfl := h.eq_of_load hid hwritable.storable hload
    have hold := fun c hc => (h.plain (fileName client.chainId) c hc).sound.isWritable
    have hcan := Cache.isWritable_published client.sender hold (hcodes (hplain rfl))
    exact absurd hcan (Bool.eq_false_iff.1 hlong)

end Holds

/-! ## Where addresses come from -/

section Whole

variable {σ : Type} {d : Path} {home : Place} {files files' : FileTree} {xs : List (Performed σ)}
  {x : Performed σ} {name : FileName} {addresses : Table Json}

/-- Addresses are those of all contracts of one bootstrap of a chain, which the table did not
answer. -/
def Installed (xs : List (Performed σ)) (name : FileName) (addresses : Table Json) : Prop :=
  ∃ before client chainName set useCache after,
    xs = before ++ ⟨.setUp client chainName set useCache, .ok addresses⟩ :: after ∧
      fileName client.chainId = name ∧ (Table.names addresses).Perm set.names ∧
      (useCache && Cache.isComplete (remembered before name) set.names) = false

/-- All addresses that are remembered of a chain are those of one bootstrap. -/
def Whole (xs : List (Performed σ)) : Prop :=
  ∀ name c, remembered xs name = some c → c.contracts = [] ∨ Installed xs name c.contracts

theorem Installed.concat (h : Installed xs name addresses) (x : Performed σ) :
    Installed (xs ++ [x]) name addresses := by
  obtain ⟨before, client, chainName, set, useCache, after, rfl, hrest⟩ := h
  refine ⟨before, client, chainName, set, useCache, after ++ [x], ?_, hrest⟩
  rw [List.append_assoc, List.cons_append]

theorem whole_nil : Whole ([] : List (Performed σ)) := nofun

theorem Whole.concat [Json.Limits] (h : Whole xs) (heffect : Effect d home files x files') :
    Whole (xs ++ [x]) := by
  intro name c hc
  have hkept : ∀ c, remembered xs name = some c → c.contracts = [] ∨
      Installed (xs ++ [x]) name c.contracts := fun c hold =>
    (h name c hold).imp_right fun hinstalled => hinstalled.concat x
  rw [remembered_concat, Performed.update] at hc
  -- Only the entry of the operation's own file may have changed.
  by_cases hname : name = fileName x.op.chainId
  · subst hname
    rw [Function.update_self] at hc
    obtain ⟨op, ended⟩ := x
    match op, ended, heffect, hkept, hc with
    | .setUp .., .error _, _, hkept, hc => exact hkept c hc
    | .publishAll .., .error _, _, hkept, hc => exact hkept c hc
    | .setUp client chainName set useCache, .ok addresses, heffect, hkept, hc =>
      by_cases hhit : (useCache && Cache.isComplete (remembered xs (fileName client.chainId))
          set.names) = true
      · exact hkept c ((if_pos hhit).symm.trans hc)
      · cases (if_neg hhit).symm.trans hc
        exact .inr ⟨xs, client, chainName, set, useCache, [], rfl, rfl, heffect.perm_names,
          Bool.eq_false_iff.2 hhit⟩
    | .publishAll client registry directory, .ok codes, _, hkept, hc =>
      change some (Cache.published (remembered xs (fileName client.chainId)) _ _) = some c at hc
      cases hold : remembered xs (fileName client.chainId) with
      | none =>
        rw [hold] at hc
        cases hc
        exact .inl rfl
      | some old =>
        rw [hold] at hc
        cases hc
        exact hkept old hold
  · rw [Function.update_of_ne hname] at hc
    exact hkept c hc

end Whole

/-! ## Runs -/

section Run

variable {σ : Type} {d : Path} {home : Place}

/-- The files hold the table after any operations, and its addresses are whole. -/
theorem holds_performAll [Json.Limits] (ops : List (Operation σ)) (xs : List (Performed σ))
    {s : Site σ} (hids : ∀ op ∈ ops, 47 ∉ op.chainId)
    (hplain : ∀ x ∈ (performAll d ops s).1, x.Plain) (hholds : Holds s.files d home (remembered xs))
    (hwhole : Whole xs) :
    Holds (performAll d ops s).2.files d home (remembered (xs ++ (performAll d ops s).1)) ∧
      Whole (xs ++ (performAll d ops s).1) := by
  -- The operations that were performed before go along, since the table is that of all of them.
  induction ops generalizing xs s with
  | nil =>
    rw [performAll, List.append_nil]
    exact ⟨hholds, hwhole⟩
  | cons op ops ih =>
    obtain ⟨hid, hids⟩ := List.forall_mem_cons.1 hids
    obtain ⟨hfirst, hrest⟩ := List.forall_mem_cons.1 hplain
    have heffect := perform_effect op hid hholds.directoryAt
    have hholds' := hholds.effect hid hfirst heffect
    rw [← remembered_concat] at hholds'
    have h := ih (xs ++ [_]) hids hrest hholds' (hwhole.concat heffect)
    rwa [List.append_assoc] at h

theorem holds_of_empty {files : FileTree} (hhome : files.DirectoryAt d home)
    (hempty : ∀ name, files.entry? (home.child name) = none) :
    Holds files d home (remembered ([] : List (Performed σ))) where
  directoryAt := hhome
  entry name := hempty name
  plain := nofun

/-- From an empty directory on, whatever operations are performed and however each of them ends,
every load finds what the table has for the file of its chain, and the addresses that it finds are
none or those of all contracts of one bootstrap. -/
theorem load_performAll [Json.Limits] (ops : List (Operation σ)) (s : Site σ)
    (hhome : s.files.DirectoryAt d home) (hempty : ∀ name, s.files.entry? (home.child name) = none)
    (hids : ∀ op ∈ ops, 47 ∉ op.chainId) (hplain : ∀ x ∈ (performAll d ops s).1, x.Plain) :
    (∀ chainId, 47 ∉ chainId → Cache.Storable d chainId →
      Cache.load d chainId (performAll d ops s).2.files =
        .ok (remembered (performAll d ops s).1 (fileName chainId))
          (performAll d ops s).2.files) ∧
      Whole (performAll d ops s).1 := by
  obtain ⟨hholds, hwhole⟩ :=
    holds_performAll ops [] hids hplain (holds_of_empty hhome hempty) whole_nil
  exact ⟨fun chainId hid hstorable => hholds.load hid hstorable, hwhole⟩

end Run

/-! ## Runs of a chain that only makes kernels -/

/-- The kernel alone. -/
def justKernel : ContractSet where
  files := [(kernelName, Path.ofText "kernel.wasm")]
  nodup := by decide
  hasKernel := by decide

/-- Where the caches of the runs stand. -/
def cacheHome : Place := Place.here.child (FileName.ofText "cache")

/-- The directory of the caches with nothing in it. -/
def noCaches : FileTree := ⟨[(cacheHome, .directory)]⟩

theorem directoryAt_noCaches : noCaches.DirectoryAt (Path.ofText "cache") cacheHome :=
  ⟨rfl, rfl⟩

theorem entry?_noCaches (name : FileName) : noCaches.entry? (cacheHome.child name) = none := by
  have hne : cacheHome ≠ cacheHome.child name := by
    intro h
    have hlength := congrArg (fun place => place.names.length) h
    simp [Place.child] at hlength
  rw [FileTree.entry?, if_neg (by simpa using cacheHome.child_names_ne_nil name)]
  exact if_neg hne

/-- An install, and a fresh one that the chain refuses. -/
def installThenFail : List (Operation Unit) :=
  [.setUp kernelOnly "andromeda" justKernel true,
    .setUp kernelOnly "andromeda" kernelAndRegistry false]

theorem storable_galileo : Cache.Storable (Path.ofText "cache") "galileo-4" :=
  ⟨by decide, by decide⟩

theorem plain_kernel {address : Text} (h : address.Unpaired) :
    PlainAddresses [(kernelName, .str address)] := by
  have hname : kernelName.Unpaired := by decide
  exact List.forall_mem_singleton.2 ⟨hname, address, rfl, h⟩

theorem plain_kernelOnly :
    ∀ x ∈ (performAll (Path.ofText "cache") installThenFail ⟨noCaches, ()⟩).1, x.Plain := by
  have hended : (performAll (Path.ofText "cache") installThenFail ⟨noCaches, ()⟩).1 =
      [⟨.setUp kernelOnly "andromeda" justKernel true, .ok [(kernelName, .str "andr1kernel")]⟩,
        ⟨.setUp kernelOnly "andromeda" kernelAndRegistry false,
          .error (.bootstrap "galileo-4" (.contract registryName "refused"))⟩] := rfl
  rw [hended]
  exact List.forall_mem_cons.2
    ⟨⟨by decide, plain_kernel (by decide)⟩, List.forall_mem_singleton.2 trivial⟩

/-- The first install is found, and the failed one has changed nothing. -/
theorem load_performAll_installThenFail :
    (∀ op ∈ installThenFail, 47 ∉ op.chainId) ∧
      Cache.load (Path.ofText "cache") "galileo-4"
          (performAll (Path.ofText "cache") installThenFail ⟨noCaches, ()⟩).2.files =
        .ok (some ⟨[(kernelName, .str "andr1kernel")], [], .str "andr1sender"⟩)
          (performAll (Path.ofText "cache") installThenFail ⟨noCaches, ()⟩).2.files := by
  have hids : ∀ op ∈ installThenFail, 47 ∉ op.chainId :=
    List.forall_mem_cons.2 ⟨by decide, List.forall_mem_singleton.2 (by decide)⟩
  refine ⟨hids, ?_⟩
  exact (load_performAll installThenFail ⟨noCaches, ()⟩ directoryAt_noCaches entry?_noCaches hids
    plain_kernelOnly).1 "galileo-4" (by decide) storable_galileo

/-! ## Chain ids whose files have one name -/

/-- A chain that makes its kernel at a given address. -/
def kernelAt (chainId address : Text) : ChainClient Unit where
  chainId := chainId
  sender := "andr1sender"
  answer
    | .upload _ _ => return (7 : Int)
    | .instantiate _ _ _ => return address
    | .execute _ _ _ => return text "0F"
    | _ => throw (.contract .null "refused")

/-- A chain id of one letter outside ASCII. -/
def accented : Text := [0xE9]

/-- The chain id of the two surrogates that give the bytes of that letter. -/
def bytewise : Text := [0xDCC3, 0xDCA9]

/-- A fresh install of the kernel on a chain. -/
def freshInstall (chainId address : Text) : Operation Unit :=
  .setUp (kernelAt chainId address) "andromeda" justKernel false

/-- The cache of a chain after that. -/
def kernelCache (address : Text) : Cache := ⟨[(kernelName, .str address)], [], .str "andr1sender"⟩

/-- The files after that, where there were no caches. -/
def installedFiles (chainId address : Text) : FileTree :=
  (performAll (Path.ofText "cache") [freshInstall chainId address] ⟨noCaches, ()⟩).2.files

theorem holds_noCaches :
    Holds noCaches (Path.ofText "cache") cacheHome (remembered ([] : List (Performed Unit))) :=
  holds_of_empty directoryAt_noCaches entry?_noCaches

/-- A bootstrap of one chain changes what is found for another chain, where there was nothing. -/
theorem load_changes_for_other_chain :
    accented ≠ bytewise ∧ 47 ∉ accented ∧ 47 ∉ bytewise ∧
      Cache.load (Path.ofText "cache") bytewise noCaches = .ok none noCaches ∧
      Cache.load (Path.ofText "cache") bytewise (installedFiles accented "andr1kernel") =
        .ok (some (kernelCache "andr1kernel")) (installedFiles accented "andr1kernel") := by
  have hstorable : Cache.Storable (Path.ofText "cache") bytewise := ⟨by decide, by decide⟩
  have hended : (performAll (Path.ofText "cache") [freshInstall accented "andr1kernel"]
      ⟨noCaches, ()⟩).1 =
      [⟨freshInstall accented "andr1kernel", .ok [(kernelName, .str "andr1kernel")]⟩] := rfl
  have hplain : ∀ x ∈ (performAll (Path.ofText "cache") [freshInstall accented "andr1kernel"]
      ⟨noCaches, ()⟩).1, x.Plain := by
    rw [hended]
    exact List.forall_mem_singleton.2 ⟨by decide, plain_kernel (by decide)⟩
  refine ⟨by decide, by decide, by decide, holds_noCaches.load (by decide) hstorable, ?_⟩
  exact (holds_performAll _ [] (by decide) hplain holds_noCaches whole_nil).1.load (by decide)
    hstorable

end Bootstrap

end CrossChain
