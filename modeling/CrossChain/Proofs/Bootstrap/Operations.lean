import CrossChain.Proofs.Bootstrap.Setup
import CrossChain.Proofs.Cache.Directory

/-!
# Operations on the caches

Bootstraps and publications on any chains share the files of one directory.  Each of them fails and
leaves the files alone, finds its answer in the cache of its chain, or writes that cache
(`perform_effect`).  Only where a code id has too many digits a publication fails over the cache
that it is writing, and leaves a part of it.
-/

namespace CrossChain

/-- What is remembered of a chain once applications were published on it. -/
def Cache.published (old : Option Cache) (sender : Text) (codes : Table Int) : Cache :=
  let c := old.getD { client := .str sender }
  { c with codeIds := Table.insertAll c.codeIds (codes.map fun p => (p.1, .int p.2)) }

/-- The chain gives code ids that have few enough digits to be written. -/
def ChainClient.ShortCodes {σ : Type} (client : ChainClient σ) : Prop :=
  ∀ file label s code t, client.upload file label s = .ok code t → Json.Short code

theorem Cache.isWritable_published {old : Option Cache} (sender : Text) {codes : Table Int}
    (hold : ∀ c, old = some c → c.isWritable = true) (hcodes : ∀ p ∈ codes, Json.Short p.2) :
    (Cache.published old sender codes).isWritable = true := by
  have hstart : (old.getD { client := .str sender }).isWritable = true := by
    cases old with
    | none => rfl
    | some c => exact hold c rfl
  obtain ⟨hcontracts, hcodeIds, hclient⟩ := isWritable_iff.1 hstart
  refine isWritable_iff.2 ⟨hcontracts, fun p hp => ?_, hclient⟩
  rcases Table.mem_insertAll hp with hp | hp
  · exact hcodeIds p hp
  · obtain ⟨q, hq, rfl⟩ := List.mem_map.1 hp
    exact Json.isWritable_int.2 (hcodes q hq)

namespace Bootstrap

/-! ## Operations -/

/-- An operation that may read or write the cache of a chain. -/
inductive Operation (σ : Type)
  | setUp (client : ChainClient σ) (chainName : Text) (set : ContractSet) (useCache : Bool)
  | publishAll (client : ChainClient σ) (registry : Contract) (directory : Path)

namespace Operation

variable {σ : Type}

/-- The chain of an operation. -/
def chainId : Operation σ → Text
  | setUp client .. => client.chainId
  | publishAll client .. => client.chainId

/-- What an operation gives: addresses, or code ids. -/
abbrev Gain : Operation σ → Type
  | setUp .. => Table Json
  | publishAll .. => Table Int

/-- Performs an operation with the caches in a directory. -/
def perform [Json.Limits] (d : Path) : (op : Operation σ) → Act (Site σ) op.Gain
  | setUp client chainName set useCache =>
    Bootstrap.setUp client chainName set.files (some d) useCache
  | publishAll client registry directory =>
    Bootstrap.publishAll client registry directory (some d)

end Operation

/-- An operation, and how it ended. -/
structure Performed (σ : Type) where
  op : Operation σ
  ended : Except Failure op.Gain

/-- What an operation does to files whose caches stand at `home`. -/
inductive Effect [Json.Limits] {σ : Type} (d : Path) (home : Place) (files : FileTree) :
    Performed σ → FileTree → Prop
  | failed (op : Operation σ) (e : Failure) : Effect d home files ⟨op, .error e⟩ files
  | found (client : ChainClient σ) (chainName : Text) (set : ContractSet) (cache : Cache)
    (hload : Cache.load d client.chainId files = .ok (some cache) files)
    (hcomplete : Cache.isComplete (some cache) set.names = true) :
    Effect d home files
      ⟨.setUp client chainName set true, .ok (Table.restrict set.names cache.contracts)⟩ files
  | installed (client : ChainClient σ) (chainName : Text) (set : ContractSet) (useCache : Bool)
    (addresses : Table Json) (hcold : Cold (some d) useCache client.chainId set.names files)
    (hnames : (Table.names addresses).Perm set.names)
    (hwritable : Cache.Writable files d home client.chainId) :
    Effect d home files ⟨.setUp client chainName set useCache, .ok addresses⟩
      (Cache.stored files home client.chainId ⟨addresses, [], .str client.sender⟩)
  | published (client : ChainClient σ) (registry : Contract) (directory : Path)
    (codes : Table Int) (old : Option Cache)
    (hload : Cache.load d client.chainId files = .ok old files)
    (hwritable : Cache.Writable files d home client.chainId) :
    Effect d home files ⟨.publishAll client registry directory, .ok codes⟩
      (Cache.stored files home client.chainId (.published old client.sender codes))
  | torn (client : ChainClient σ) (registry : Contract) (directory : Path)
    (codes : Table Int) (old : Option Cache)
    (hload : Cache.load d client.chainId files = .ok old files)
    (hwritable : Cache.Writable files d home client.chainId)
    (hlong : (Cache.published old client.sender codes).isWritable = false)
    (hcodes : client.ShortCodes → ∀ p ∈ codes, Json.Short p.2) :
    Effect d home files
      ⟨.publishAll client registry directory, .error (.value .unwritable)⟩
      (Cache.stored files home client.chainId (.published old client.sender codes))

/-! ## Bootstraps -/

section SetUp

variable {σ : Type} (client : ChainClient σ) (chainName : Text) {d : Path} {home : Place}

theorem isWritable_of_install {client : ChainClient σ} {chainName : Text} {contracts : Table Path}
    {addresses : Table Json} {s t : σ}
    (h : install client chainName contracts s = .ok addresses t) :
    Cache.isWritable ⟨addresses, [], .str client.sender⟩ = true := by
  refine Cache.isWritable_iff.2 ⟨fun p hp => ?_, nofun, rfl⟩
  obtain ⟨address, haddress⟩ := texts_of_install h p hp
  rw [haddress]
  rfl

theorem deploy_effect [Json.Limits] (set : ContractSet) (useCache : Bool)
    (hid : 47 ∉ client.chainId) {s : Site σ} (hhome : s.files.DirectoryAt d home)
    (hcold : Cold (some d) useCache client.chainId set.names s.files) :
    Effect d home s.files
      ⟨.setUp client chainName set useCache,
        (Act.outcome (deploy client chainName set.files (some d)) s).1⟩
      (Act.outcome (deploy client chainName set.files (some d)) s).2.files := by
  cases hinstall : install client chainName set.files s.outside with
  | error e o =>
    obtain ⟨e', hrun⟩ := deploy_of_failed client chainName set.files (some d) hinstall
    rw [Act.outcome, hrun]
    exact .failed _ _
  | ok addresses o =>
    rw [deploy_of_ok client chainName set.files (some d) hinstall]
    rcases Cache.save_cases hid hhome ⟨addresses, [], .str client.sender⟩ with
      ⟨hwritable, -, hsave⟩ | ⟨-, hlong, -⟩ | ⟨e, hsave⟩
    · rw [keep_of_ok hsave]
      refine .installed client chainName set useCache addresses hcold ?_ hwritable
      rw [names_of_install hinstall]
      exact perm_siblingNames set.hasKernel set.nodup
    · rw [isWritable_of_install hinstall] at hlong
      cases hlong
    · rw [keep_of_error hsave]
      exact .failed _ _

/-- A bootstrap fails at once, finds all addresses in the cache, or is an install. -/
theorem setUp_ways [Json.Limits] (set : ContractSet) (useCache : Bool) (s : Site σ) :
    (∃ e, setUp client chainName set.files (some d) useCache s = .error e s) ∨
    (∃ cache, useCache = true ∧ Cache.load d client.chainId s.files = .ok (some cache) s.files ∧
      Cache.isComplete (some cache) set.names = true ∧
      setUp client chainName set.files (some d) useCache s =
        .ok (Table.restrict set.names cache.contracts) s) ∨
    Cold (some d) useCache client.chainId set.names s.files ∧
      setUp client chainName set.files (some d) useCache s =
        deploy client chainName set.files (some d) s := by
  have hkernel : (Table.get? kernelName set.files).isSome := Table.isSome_get?.2 set.hasKernel
  cases useCache with
  | false => exact .inr (.inr ⟨cold_of_fresh, setUp_of_cold client chainName hkernel cold_of_fresh⟩)
  | true =>
    cases hload : Cache.load d client.chainId s.files with
    | error e t =>
      obtain rfl := (Cache.within_load d client.chainId).error hload
      exact .inl ⟨e, setUp_of_unreadable client chainName hkernel hload⟩
    | ok cache t =>
      obtain rfl := (Cache.within_load d client.chainId).ok hload
      cases hcomplete : Cache.isComplete cache set.names with
      | false =>
        have hcold : Cold (some d) true client.chainId set.names s.files := by
          intro d' hd _
          cases hd
          exact ⟨cache, hload, hcomplete⟩
        exact .inr (.inr ⟨hcold, setUp_of_cold client chainName hkernel hcold⟩)
      | true =>
        cases cache with
        | none => cases hcomplete
        | some cache =>
          exact .inr (.inl ⟨cache, rfl, rfl, hcomplete,
            setUp_of_cached client chainName hkernel hload hcomplete⟩)

theorem setUp_effect [Json.Limits] (set : ContractSet) (useCache : Bool) (hid : 47 ∉ client.chainId)
    {s : Site σ} (hhome : s.files.DirectoryAt d home) :
    Effect d home s.files
      ⟨.setUp client chainName set useCache,
        (Act.outcome (setUp client chainName set.files (some d) useCache) s).1⟩
      (Act.outcome (setUp client chainName set.files (some d) useCache) s).2.files := by
  rcases setUp_ways client chainName set useCache s with
    ⟨e, hrun⟩ | ⟨cache, rfl, hload, hcomplete, hrun⟩ | ⟨hcold, hrun⟩
  · rw [Act.outcome, hrun]
    exact .failed _ _
  · rw [Act.outcome, hrun]
    exact .found client chainName set cache hload hcomplete
  · rw [Act.outcome, hrun, ← Act.outcome]
    exact deploy_effect client chainName set useCache hid hhome hcold

end SetUp

/-! ## Publications -/

section Publish

variable {σ : Type} (client : ChainClient σ) (registry : Contract) (directory : Path)

/-- Stores and publishes every application of a directory. -/
def publishEach : Act (Site σ) (Table Int) := do
  let names ← Site.ofFiles fun t => Wasm.applicationNames t directory
  let codes ← names.mapM fun name => return (name, ← publish client registry directory name)
  return Table.ofPairs codes

theorem publishAll_eq [Json.Limits] (d : Path) :
    publishAll client registry directory (some d) = do
      let codes ← publishEach client registry directory
      Site.onFiles (remember client d codes)
      return codes := by
  simp only [publishEach, bind_assoc, pure_bind]
  rfl

/-- The files are the same. -/
def SameFiles (s t : Site σ) : Prop := t.files = s.files

instance sameFiles_refl : Std.Refl (SameFiles : Site σ → Site σ → Prop) := ⟨fun _ => rfl⟩

instance sameFiles_trans : IsTrans (Site σ) SameFiles := ⟨fun _ _ _ h h' => h'.trans h⟩

theorem within_onOutside {α : Type} (x : Act σ α) : Act.Within SameFiles (Site.onOutside x) := by
  intro s
  cases h : x s.outside with
  | ok a t => exact Act.final_ok (Site.onOutside_run_ok h) ▸ rfl
  | error e t => exact Act.final_error (Site.onOutside_run_error h) ▸ rfl

/-- The outside world moves along a relation. -/
def OutsideMoves (R : σ → σ → Prop) (s t : Site σ) : Prop := R s.outside t.outside

instance outsideMoves_refl (R : σ → σ → Prop) [Std.Refl R] : Std.Refl (OutsideMoves R) :=
  ⟨fun s => Std.Refl.refl s.outside⟩

instance outsideMoves_trans (R : σ → σ → Prop) [IsTrans σ R] :
    IsTrans (Site σ) (OutsideMoves R) :=
  ⟨fun s t u h h' => IsTrans.trans s.outside t.outside u.outside h h'⟩

theorem outsideMoves_onOutside {R : σ → σ → Prop} {α : Type} {x : Act σ α}
    (hx : Act.Within R x) : Act.Within (OutsideMoves R) (Site.onOutside x) := by
  intro s
  cases h : x s.outside with
  | ok a t => exact Act.final_ok (Site.onOutside_run_ok h) ▸ hx.ok h
  | error e t => exact Act.final_error (Site.onOutside_run_error h) ▸ hx.error h

/-- Publishing stays in a relation that the publication of every single file stays in. -/
theorem within_publishEach_of_files {R : Site σ → Site σ → Prop} [Std.Refl R] [IsTrans (Site σ) R]
    (hfile : ∀ name file, Act.Within R (Site.onOutside (publishFile client registry name file))) :
    Act.Within R (publishEach client registry directory) := by
  have hfiles : ∀ {α : Type} (f : FileTree → Except Failure α),
      Act.Within R (Site.ofFiles f : Act (Site σ) α) := fun f =>
    Act.within_get.bind fun s => Act.within_ofExcept _
  have hpublish : ∀ name, Act.Within R (publish client registry directory name) :=
    fun name => (hfiles _).bind fun file => hfile name file
  refine (hfiles _).bind fun names => ?_
  refine (Act.within_mapM (fun name => ?_) names).bind fun codes => Act.within_pure _
  exact (hpublish name).bind fun code => Act.within_pure _

theorem within_publishEach : Act.Within SameFiles (publishEach client registry directory) :=
  within_publishEach_of_files client registry directory fun _ _ => within_onOutside _

theorem short_of_publish {client : ChainClient σ} {registry : Contract} {directory : Path}
    (hshort : client.ShortCodes) {name : Text} {s t : Site σ} {code : Int}
    (h : publish client registry directory name s = .ok code t) : Json.Short code := by
  obtain ⟨file, u, -, h⟩ := Act.bind_eq_ok h
  obtain ⟨o, h, -⟩ := Act.on_eq_ok h
  obtain ⟨given, v, hgiven, h⟩ := Act.bind_eq_ok h
  obtain ⟨hash, w, -, h⟩ := Act.bind_eq_ok h
  cases h
  exact hshort file name _ _ _ hgiven

/-- A chain that gives short code ids leads to no others. -/
theorem short_of_publishEach {client : ChainClient σ} {registry : Contract} {directory : Path}
    (hshort : client.ShortCodes) {s t : Site σ} {codes : Table Int}
    (h : publishEach client registry directory s = .ok codes t) :
    ∀ p ∈ codes, Json.Short p.2 := by
  obtain ⟨names, u, -, h⟩ := Act.bind_eq_ok h
  obtain ⟨given, v, hgiven, h⟩ := Act.bind_eq_ok h
  cases h
  have heach : ∀ p ∈ given, Json.Short p.2 := by
    refine Act.forall_of_mapM (fun name s p t hp => ?_) hgiven
    obtain ⟨code, w, hcode, hpair⟩ := Act.bind_eq_ok hp
    cases hpair
    exact short_of_publish hshort hcode
  exact fun p hp => heach p ((Table.mem_insertAll hp).resolve_left nofun)

section Remember

variable [Json.Limits] {d p : Path} {files files' : FileTree} {old : Option Cache}
  {codes : Table Int}

theorem remember_of_saved (hload : Cache.load d client.chainId files = .ok old files)
    (hsave : Cache.save d client.chainId (.published old client.sender codes) files =
      .ok p files') :
    remember client d codes files = .ok () files' := by
  rw [remember, Act.bind_run_ok hload]
  exact Act.bind_run_ok hsave

theorem remember_of_error {e : Failure} (hload : Cache.load d client.chainId files = .ok old files)
    (hsave : Cache.save d client.chainId (.published old client.sender codes) files =
      .error e files') :
    remember client d codes files = .error e files' := by
  rw [remember, Act.bind_run_ok hload]
  exact Act.bind_run_error hsave

end Remember

theorem publishAll_effect [Json.Limits] {d : Path} {home : Place} (hid : 47 ∉ client.chainId)
    {s : Site σ} (hhome : s.files.DirectoryAt d home) :
    Effect d home s.files
      ⟨.publishAll client registry directory,
        (Act.outcome (publishAll client registry directory (some d)) s).1⟩
      (Act.outcome (publishAll client registry directory (some d)) s).2.files := by
  rw [publishAll_eq]
  cases heach : publishEach client registry directory s with
  | error e t =>
    have hsame : t.files = s.files := (within_publishEach client registry directory).error heach
    rw [Act.outcome, Act.bind_run_error heach, ← hsame]
    exact .failed _ _
  | ok codes t =>
    -- Publishing has not touched the files, so the cache is that of the start.
    have hsame : t.files = s.files := (within_publishEach client registry directory).ok heach
    rw [Act.outcome, Act.bind_run_ok heach]
    rw [← hsame] at hhome ⊢
    cases hload : Cache.load d client.chainId t.files with
    | error e u =>
      obtain rfl := (Cache.within_load d client.chainId).error hload
      have hremember : remember client d codes t.files = .error e t.files :=
        Act.bind_run_error hload
      rw [Act.bind_run_error (Site.onFiles_run_error hremember)]
      exact .failed _ _
    | ok old u =>
      obtain rfl := (Cache.within_load d client.chainId).ok hload
      rcases Cache.save_cases hid hhome (.published old client.sender codes) with
        ⟨hwritable, -, hsave⟩ | ⟨hwritable, hlong, hsave⟩ | ⟨e, hsave⟩
      · have hremember := remember_of_saved client hload hsave
        rw [Act.bind_run_ok (Site.onFiles_run_ok hremember)]
        exact .published client registry directory codes old hload hwritable
      · have hremember := remember_of_error client hload hsave
        rw [Act.bind_run_error (Site.onFiles_run_error hremember)]
        exact .torn client registry directory codes old hload hwritable hlong
          fun hshort => short_of_publishEach hshort heach
      · have hremember := remember_of_error client hload hsave
        rw [Act.bind_run_error (Site.onFiles_run_error hremember)]
        exact .failed _ _

end Publish

/-! ## Any operations -/

section Perform

variable [Json.Limits] {σ : Type} {d : Path} {home : Place}

theorem perform_effect (op : Operation σ) (hid : 47 ∉ op.chainId) {s : Site σ}
    (hhome : s.files.DirectoryAt d home) :
    Effect d home s.files ⟨op, ((op.perform d).outcome s).1⟩
      ((op.perform d).outcome s).2.files := by
  cases op with
  | setUp client chainName set useCache =>
    exact setUp_effect client chainName set useCache hid hhome
  | publishAll client registry directory =>
    exact publishAll_effect client registry directory hid hhome

/-- Performs operations one after the other, whatever fails on the way: how each of them ended, and
the site afterwards. -/
def performAll (d : Path) : List (Operation σ) → Site σ → List (Performed σ) × Site σ
  | [], s => ([], s)
  | op :: ops, s =>
    let first := (op.perform d).outcome s
    let rest := performAll d ops first.2
    (⟨op, first.1⟩ :: rest.1, rest.2)

/-- A bootstrap gives an address for every name. -/
theorem Effect.perm_names {client : ChainClient σ} {chainName : Text} {set : ContractSet}
    {useCache : Bool} {addresses : Table Json} {files files' : FileTree}
    (h : Effect d home files ⟨.setUp client chainName set useCache, .ok addresses⟩ files') :
    (Table.names addresses).Perm set.names := by
  cases h with
  | found client chainName set cache hload hcomplete =>
    rw [Table.names_restrict (Cache.mem_names_of_isComplete hcomplete)]
  | installed client chainName set useCache addresses hcold hnames hwritable => exact hnames

end Perform

end Bootstrap

end CrossChain
