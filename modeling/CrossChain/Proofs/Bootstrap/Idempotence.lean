import CrossChain.Proofs.Bootstrap.Refinement

/-!
# Bootstraps are idempotent

The addresses that a bootstrap kept stay in the file of its chain while applications are published
there, while fresh bootstraps of the chain fail, and whatever is done to chains with other files
(`keeps_performAll`).  So a later bootstrap of no more contracts finds them all and asks the chain
nothing, and one of more contracts starts anew (`setUp_idempotent`).
-/

namespace CrossChain

namespace Bootstrap

open Cache (fileName)

/-! ## What a bootstrap leaves -/

/-- Addresses are kept in a file of the caches. -/
structure Keeps (files : FileTree) (d : Path) (home : Place) (name : FileName)
    (addresses : Table Json) : Prop where
  directoryAt : files.DirectoryAt d home
  file : ∃ c : Cache, c.Sound ∧ c.contracts = addresses ∧
    files.entry? (home.child name) = some (.file c.content)

section Keeps

variable [Json.Limits] {σ : Type} {d : Path} {home : Place} {files files' : FileTree}
  {name : FileName} {chainId : Text} {addresses : Table Json}

theorem keeps_of_setUp {client : ChainClient σ} {chainName : Text} {set : ContractSet}
    {useCache : Bool} {s t : Site σ} (hid : 47 ∉ client.chainId)
    (hcold : Cold (some d) useCache client.chainId set.names s.files)
    (hplain : PlainAddresses addresses)
    (h : setUp client chainName set.files (some d) useCache s = .ok addresses t) :
    (Table.names addresses).Perm set.names ∧ Cache.Storable d client.chainId ∧
      ∃ home, Keeps t.files d home (fileName client.chainId) addresses := by
  rw [setUp_of_cold client chainName (Table.isSome_get?.2 set.hasKernel) hcold] at h
  obtain ⟨o, p, hinstall, hsave⟩ := deploy_eq_ok h
  have hnames : (Table.names addresses).Perm set.names := by
    rw [names_of_install hinstall]
    exact perm_siblingNames set.hasKernel set.nodup
  obtain ⟨home, hhome, hstorable, hentry⟩ := Cache.stands_of_save hid hsave
  have hsound : Cache.Sound ⟨addresses, [], .str client.sender⟩ :=
    ⟨soundTable_addresses hnames hplain, .nil _, client.sender, rfl⟩
  exact ⟨hnames, hstorable, home, hhome, _, hsound, rfl, hentry⟩

theorem Keeps.load (h : Keeps files d home (fileName chainId) addresses) (hid : 47 ∉ chainId)
    (hstorable : Cache.Storable d chainId) :
    ∃ c : Cache, c.Sound ∧ c.contracts = addresses ∧
      Cache.load d chainId files = .ok (some c) files := by
  obtain ⟨c, hsound, hcontracts, hentry⟩ := h.file
  exact ⟨c.reloaded, hsound.reloaded, hcontracts,
    Cache.load_of_content hid h.directoryAt hstorable hsound hentry⟩

omit [Json.Limits] in
theorem Keeps.stored_of_ne (h : Keeps files d home name addresses)
    (hwritable : Cache.Writable files d home chainId) (hname : fileName chainId ≠ name)
    (c : Cache) :
    Keeps (Cache.stored files home chainId c) d home name addresses where
  directoryAt := h.directoryAt.mono (hwritable.keepsDirectories c)
  file := by
    rw [Cache.entry?_stored_of_ne (Ne.symm hname)]
    exact h.file

/-! ## What operations spare -/

/-- An operation that does not replace the addresses in a file: one that fails, one on a chain with
another file, or a publication whose code ids are not too long.  The last may have failed for what
cannot be written only where the chain gives short code ids. -/
def Performed.Spares (name : FileName) : Performed σ → Prop
  | ⟨.setUp client _ _ _, .ok _⟩ => fileName client.chainId ≠ name
  | ⟨.publishAll client _ _, .ok codes⟩ => fileName client.chainId = name → PlainCodes codes
  | ⟨.publishAll client _ _, .error e⟩ =>
    fileName client.chainId = name → e = .value .unwritable → client.ShortCodes
  | ⟨.setUp .., .error _⟩ => True

theorem Keeps.effect {x : Performed σ} (h : Keeps files d home name addresses)
    (hid : 47 ∉ x.op.chainId) (hspares : x.Spares name) (heffect : Effect d home files x files') :
    Keeps files' d home name addresses := by
  cases heffect with
  | failed op e => exact h
  | found client chainName set cache hload hcomplete => exact h
  | installed client chainName set useCache made hcold hnames hwritable =>
    exact h.stored_of_ne hwritable hspares _
  | published client registry directory codes old hload hwritable =>
    by_cases hname : fileName client.chainId = name
    · subst hname
      -- A publication on the chain itself writes back the addresses that it loaded.
      obtain ⟨c, hsound, hcontracts, hloaded⟩ := h.load hid hwritable.storable
      cases hload.symm.trans hloaded
      refine ⟨h.directoryAt.mono (hwritable.keepsDirectories _), _, ?_, ?_,
        Cache.entry?_stored_self⟩
      · exact sound_published hsound (hspares rfl)
      · exact hcontracts
    · exact h.stored_of_ne hwritable hname _
  | torn client registry directory codes old hload hwritable hlong hcodes =>
    by_cases hname : fileName client.chainId = name
    · subst hname
      -- What was loaded can be written, so that no publication on the chain itself is torn.
      obtain ⟨c, hsound, -, hloaded⟩ := h.load hid hwritable.storable
      cases hload.symm.trans hloaded
      have hold : ∀ c', some c = some c' → c'.isWritable = true := by
        rintro _ ⟨⟩
        exact hsound.isWritable
      have hcan := Cache.isWritable_published client.sender hold (hcodes (hspares rfl rfl))
      exact absurd hcan (Bool.eq_false_iff.1 hlong)
    · exact h.stored_of_ne hwritable hname _

theorem keeps_performAll (ops : List (Operation σ)) {s : Site σ}
    (hids : ∀ op ∈ ops, 47 ∉ op.chainId) (hspares : ∀ x ∈ (performAll d ops s).1, x.Spares name)
    (h : Keeps s.files d home name addresses) :
    Keeps (performAll d ops s).2.files d home name addresses := by
  induction ops generalizing s with
  | nil => exact h
  | cons op ops ih =>
    obtain ⟨hid, hids⟩ := List.forall_mem_cons.1 hids
    obtain ⟨hfirst, hrest⟩ := List.forall_mem_cons.1 hspares
    exact ih hids hrest (h.effect hid hfirst (perform_effect op hid h.directoryAt))

end Keeps

/-! ## The later bootstrap -/

section Later

variable [Json.Limits] {σ τ : Type} {d : Path} {home : Place} {addresses : Table Json}

theorem setUp_of_keeps (client : ChainClient τ) (chainName : Text) (set : ContractSet)
    {s : Site (Logged Asked τ)} (h : Keeps s.files d home (fileName client.chainId) addresses)
    (hid : 47 ∉ client.chainId) (hstorable : Cache.Storable d client.chainId)
    (hfull : ∀ p ∈ addresses, p.2.isEmpty = false)
    (hnames : ∀ name ∈ set.names, name ∈ Table.names addresses) :
    setUp client.noted chainName set.files (some d) true s =
      .ok (Table.restrict set.names addresses) s := by
  obtain ⟨c, -, rfl, hload⟩ := h.load hid hstorable
  exact setUp_of_cached client.noted chainName (Table.isSome_get?.2 set.hasKernel) hload
    (Cache.isComplete_of_full hfull hnames)

theorem cold_of_keeps {chainId : Text} {names : List Text} {files : FileTree}
    (h : Keeps files d home (fileName chainId) addresses) (hid : 47 ∉ chainId)
    (hstorable : Cache.Storable d chainId) {name : Text} (hname : name ∈ names)
    (hnew : name ∉ Table.names addresses) : Cold (some d) true chainId names files := by
  intro d' hd _
  cases hd
  obtain ⟨c, -, rfl, hload⟩ := h.load hid hstorable
  refine ⟨some c, hload, Bool.eq_false_iff.2 fun hcomplete => hnew ?_⟩
  exact Cache.mem_names_of_isComplete hcomplete name hname

/-- What a bootstrap kept answers a later one of the same chain, if that has no further contracts:
it gives the same addresses, asks the chain nothing and leaves the files alone, whatever was done
between the two but for another success on a chain with that file.  One with a further contract is a
bootstrap in full, whose addresses are all answers of the chain. -/
theorem setUp_idempotent (client : ChainClient σ) (chainName : Text) (set : ContractSet)
    (useCache : Bool) (s t : Site σ) (hid : 47 ∉ client.chainId)
    (hcold : Cold (some d) useCache client.chainId set.names s.files)
    (hfirst : setUp client chainName set.files (some d) useCache s = .ok addresses t)
    (hplain : PlainAddresses addresses) (hfull : ∀ p ∈ addresses, p.2.isEmpty = false)
    (ops : List (Operation σ)) (hids : ∀ op ∈ ops, 47 ∉ op.chainId)
    (hspares : ∀ x ∈ (performAll d ops t).1, x.Spares (fileName client.chainId))
    (client' : ChainClient τ) (hsame : client'.chainId = client.chainId) (chainName' : Text)
    (set' : ContractSet) (u : Site (Logged Asked τ))
    (hfiles : u.files = (performAll d ops t).2.files) :
    ((∀ name ∈ set'.names, name ∈ set.names) →
      setUp client'.noted chainName' set'.files (some d) true u =
          .ok (Table.restrict set'.names addresses) u ∧
        Table.names (Table.restrict set'.names addresses) = set'.names ∧
        ∀ name ∈ set'.names,
          Table.get? name (Table.restrict set'.names addresses) = Table.get? name addresses) ∧
      ∀ name ∈ set'.names, name ∉ set.names →
        ∃ calls result files v,
          Act.outcome (setUp client'.noted chainName' set'.files (some d) true) u =
            (result, ⟨files, ⟨u.outside.log ++ calls, v⟩⟩) ∧
          Bootstraps client' chainName' set' (some d) u.files calls result files ∧
          ∀ m, result = .ok m → ∀ name ∈ set'.names, ∃ code body address,
            (⟨.instantiate code body name, .ok address⟩ : Asked) ∈ calls ∧
              Table.get? name m = some (.str address) := by
  obtain ⟨hnames, hstorable, home, hkept⟩ := keeps_of_setUp hid hcold hplain hfirst
  have hkeeps := keeps_performAll ops hids hspares hkept
  rw [← hfiles, ← hsame] at hkeeps
  rw [← hsame] at hid hstorable
  constructor
  · intro hsub
    have hfound : ∀ name ∈ set'.names, name ∈ Table.names addresses := fun name hname =>
      hnames.mem_iff.2 (hsub name hname)
    refine ⟨setUp_of_keeps client' chainName' set' hkeeps hid hstorable hfull hfound,
      Table.names_restrict hfound, fun name hname => ?_⟩
    exact Table.get?_restrict hname (hfound name hname)
  · intro name hname hnew
    have hcold' := cold_of_keeps hkeeps hid hstorable hname fun h => hnew (hnames.mem_iff.1 h)
    obtain ⟨calls, result, files, v, hrun, -, hbootstraps⟩ :=
      deploy_noted client' chainName' set' (some d) u
    refine ⟨calls, result, files, v, ?_, hbootstraps, ?_⟩
    · rw [Act.outcome, setUp_of_cold client'.noted chainName'
        (Table.isSome_get?.2 set'.hasKernel) hcold']
      exact hrun
    · rintro m rfl
      exact hbootstraps.made

end Later

/-! ## Runs -/

/-- The directory of the caches beside one with an application. -/
def withApplication : FileTree where
  entries := [(cacheHome, .directory),
    (Place.here.child (FileName.ofText "contracts"), .directory),
    (⟨.above 0, ["contracts", "andromeda_cw20@1.0.0.wasm"].map FileName.ofText⟩, .file [])]

/-- The site after the kernel was installed on a chain. -/
def afterInstall (chainId : Text) (files : FileTree) : Site Unit :=
  (((freshInstall chainId "andr1kernel").perform (Path.ofText "cache")).outcome ⟨files, ()⟩).2

theorem setUp_afterInstall :
    setUp (kernelAt "galileo-4" "andr1kernel") "andromeda" justKernel.files
        (some (Path.ofText "cache")) false ⟨withApplication, ()⟩ =
      .ok [(kernelName, .str "andr1kernel")] (afterInstall "galileo-4" withApplication) := rfl

/-- A publication on the chain of the install, an install on another chain, and one on the first
chain that is refused. -/
def between : List (Operation Unit) :=
  [.publishAll (kernelAt "galileo-4" "andr1kernel") ⟨.str "andr1adodb"⟩ (Path.ofText "contracts"),
    freshInstall "elgafar-1" "andr1other",
    .setUp kernelOnly "andromeda" kernelAndRegistry false]

theorem spares_publication {client : ChainClient Unit} {registry : Contract} {directory : Path}
    {name : FileName} {ended : Except Failure (Table Int)} {codes : Table Int}
    (h : ended.toOption = some codes) (hcodes : PlainCodes codes) :
    Performed.Spares name ⟨.publishAll client registry directory, ended⟩ := by
  cases ended with
  | error e => cases h
  | ok c =>
    cases h
    exact fun _ => hcodes

theorem spares_install {client : ChainClient Unit} {chainName : Text} {set : ContractSet}
    {useCache : Bool} {name : FileName} {ended : Except Failure (Table Json)}
    (h : ended.toBool = true → fileName client.chainId ≠ name) :
    Performed.Spares name ⟨.setUp client chainName set useCache, ended⟩ := by
  cases ended with
  | error e => trivial
  | ok c => exact h rfl

theorem spares_between :
    ∀ x ∈ (performAll (Path.ofText "cache") between (afterInstall "galileo-4" withApplication)).1,
      x.Spares (fileName "galileo-4") := by
  have hcodes : PlainCodes [("cw20", 7)] := List.forall_mem_singleton.2 ⟨by decide, by decide⟩
  refine List.forall_mem_cons.2 ⟨?_, List.forall_mem_cons.2 ⟨?_, List.forall_mem_singleton.2 ?_⟩⟩
  · exact spares_publication (by decide +kernel) hcodes
  · exact spares_install fun _ => by decide
  · exact spares_install (absurd · (by decide +kernel))

/-- The files after all that. -/
def filesBetween : FileTree :=
  (performAll (Path.ofText "cache") between (afterInstall "galileo-4" withApplication)).2.files

/-- The kernel is found where it was, and the chain is asked nothing. -/
theorem setUp_idempotent_galileo :
    setUp (kernelAt "galileo-4" "andr1later").noted "andromeda" justKernel.files
        (some (Path.ofText "cache")) true ⟨filesBetween, ⟨[], ()⟩⟩ =
      .ok [(kernelName, .str "andr1kernel")] ⟨filesBetween, ⟨[], ()⟩⟩ := by
  have hfull : ∀ p ∈ [(kernelName, Json.str "andr1kernel")], p.2.isEmpty = false :=
    List.forall_mem_singleton.2 rfl
  exact ((setUp_idempotent (kernelAt "galileo-4" "andr1kernel") "andromeda" justKernel false
    ⟨withApplication, ()⟩ (afterInstall "galileo-4" withApplication) (by decide) cold_of_fresh
    setUp_afterInstall (plain_kernel (by decide)) hfull between (by decide) spares_between
    (kernelAt "galileo-4" "andr1later") rfl "andromeda" justKernel ⟨filesBetween, ⟨[], ()⟩⟩ rfl).1
    fun _ h => h).1

/-! ## Chain ids whose files have one name -/

/-- The files after an install on the accented chain and one on the other chain. -/
def filesReplaced : FileTree :=
  (performAll (Path.ofText "cache") [freshInstall bytewise "andr1other"]
    (afterInstall accented noCaches)).2.files

theorem remembered_replaced :
    remembered [⟨freshInstall accented "andr1kernel", .ok [(kernelName, .str "andr1kernel")]⟩,
      ⟨freshInstall bytewise "andr1other", .ok [(kernelName, .str "andr1other")]⟩]
      (fileName accented) = some (kernelCache "andr1other") := rfl

/-- A later bootstrap of the accented chain finds the kernel of the other one. -/
theorem setUp_finds_other_chain :
    accented ≠ bytewise ∧ 47 ∉ accented ∧ 47 ∉ bytewise ∧
      setUp (kernelAt accented "andr1kernel") "andromeda" justKernel.files
          (some (Path.ofText "cache")) false ⟨noCaches, ()⟩ =
        .ok [(kernelName, .str "andr1kernel")] (afterInstall accented noCaches) ∧
      setUp (kernelAt accented "andr1kernel").noted "andromeda" justKernel.files
          (some (Path.ofText "cache")) true ⟨filesReplaced, ⟨[], ()⟩⟩ =
        .ok [(kernelName, .str "andr1other")] ⟨filesReplaced, ⟨[], ()⟩⟩ := by
  refine ⟨by decide, by decide, by decide, rfl, ?_⟩
  have hended : (performAll (Path.ofText "cache")
      [freshInstall accented "andr1kernel", freshInstall bytewise "andr1other"] ⟨noCaches, ()⟩).1 =
      [⟨freshInstall accented "andr1kernel", .ok [(kernelName, .str "andr1kernel")]⟩,
        ⟨freshInstall bytewise "andr1other", .ok [(kernelName, .str "andr1other")]⟩] := rfl
  have hplain : ∀ x ∈ (performAll (Path.ofText "cache")
      [freshInstall accented "andr1kernel", freshInstall bytewise "andr1other"] ⟨noCaches, ()⟩).1,
      x.Plain := by
    rw [hended]
    exact List.forall_mem_cons.2 ⟨⟨by decide, plain_kernel (by decide)⟩,
      List.forall_mem_singleton.2 ⟨by decide, plain_kernel (by decide)⟩⟩
  have hholds := (holds_performAll _ [] (by decide) hplain holds_noCaches whole_nil).1
  rw [List.nil_append, hended] at hholds
  have hstorable : Cache.Storable (Path.ofText "cache") accented := ⟨by decide, by decide⟩
  have hload := hholds.load (by decide) hstorable
  have hfiles : filesReplaced = (performAll (Path.ofText "cache")
      [freshInstall accented "andr1kernel", freshInstall bytewise "andr1other"]
      ⟨noCaches, ()⟩).2.files := by simp only [filesReplaced, afterInstall, performAll]
  rw [← hfiles, remembered_replaced] at hload
  have hkernel : (Table.get? kernelName justKernel.files).isSome := rfl
  have hcomplete : Cache.isComplete (some (kernelCache "andr1other"))
      (Table.names justKernel.files) = true := rfl
  exact setUp_of_cached (s := ⟨filesReplaced, ⟨[], ()⟩⟩) (kernelAt accented "andr1kernel").noted
    "andromeda" hkernel hload hcomplete

end Bootstrap

end CrossChain
