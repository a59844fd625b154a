import CrossChain.Proofs.Bootstrap.Calls
import CrossChain.Proofs.Command

/-!
# Bootstraps

What a bootstrap does to a site: one that finds all addresses in the cache gives those and does
nothing else (`setUp_of_cached`), every other one installs (`setUp_of_cold`), and an install that
fails leaves the files alone while one that succeeds is kept in the cache (`deploy_of_error`,
`deploy_of_ok`).
-/

namespace CrossChain

namespace Bootstrap

/-! ## Installs within a relation -/

section Within

variable {σ : Type} {R : σ → σ → Prop} [Std.Refl R] [IsTrans σ R] {client : ChainClient σ}

theorem within_uploadAll (hupload : ∀ file label, Act.Within R (client.upload file label))
    (contracts : Table Path) : Act.Within R (uploadAll client contracts) := by
  refine Act.within_mapM (fun c => ?_) contracts
  exact (hupload c.2 c.1).bind fun code => Act.within_pure _

theorem within_makeSiblings
    (hmake : ∀ code body label, Act.Within R (client.instantiate code body label)) (kernel : Text)
    (siblings : Table Int) : Act.Within R (makeSiblings client kernel siblings) := by
  refine Act.within_mapM (fun c => ?_) siblings
  exact (hmake _ _ c.1).bind fun address => Act.within_pure _

theorem within_register {kernel : Text}
    (hregister : ∀ address name, Act.Within R (client.answer (registering kernel address name)))
    (siblings : Table Text) : Act.Within R (register client kernel siblings) := by
  refine Act.within_forM (fun c => ?_) siblings
  exact (hregister c.2 c.1).bind fun hash => Act.within_pure _

/-- What an install does once its kernel is made. -/
def installSiblings (client : ChainClient σ) (codes : Table Int) (kernel : Text) :
    Act σ (Table Json) := do
  let siblings ← makeSiblings client kernel (codes.filter fun p => p.1 != kernelName)
  register client kernel siblings
  return (kernelName, .str kernel) :: siblings.map fun p => (p.1, .str p.2)

theorem install_eq (client : ChainClient σ) (chainName : Text) (contracts : Table Path) :
    install client chainName contracts = (do
      let codes ← uploadAll client contracts
      match Table.get? kernelName codes with
      | none => throw (.value .kernelNotInSet)
      | some code =>
        let kernel ← client.instantiate (.int code) (Instantiation.kernel chainName none).toJson
          kernelName
        installSiblings client codes kernel) := rfl

theorem within_installSiblings
    (hmake : ∀ code body label, Act.Within R (client.instantiate code body label)) {kernel : Text}
    (hregister : ∀ address name, Act.Within R (client.answer (registering kernel address name)))
    (codes : Table Int) : Act.Within R (installSiblings client codes kernel) :=
  (within_makeSiblings hmake kernel _).bind fun siblings =>
    (within_register hregister siblings).bind fun _ => Act.within_pure _

/-- An install stays in a relation that the calls it makes stay in. -/
theorem within_install_of_calls (hupload : ∀ file label, Act.Within R (client.upload file label))
    (hmake : ∀ code body label, Act.Within R (client.instantiate code body label))
    (hregister : ∀ kernel address name,
      Act.Within R (client.answer (registering kernel address name)))
    (chainName : Text) (contracts : Table Path) :
    Act.Within R (install client chainName contracts) := by
  rw [install_eq]
  refine (within_uploadAll hupload contracts).bind fun codes => ?_
  cases Table.get? kernelName codes with
  | none => exact Act.within_throw _
  | some code =>
    exact (hmake _ _ _).bind fun kernel => within_installSiblings hmake (hregister kernel) codes

end Within

/-! ## Deployments -/

/-- Keeps addresses in the cache of a chain, if there is a cache. -/
def keep (directory : Option Path) (chainId sender : Text) (addresses : Table Json) :
    Act FileTree Unit :=
  match directory with
  | none => pure ()
  | some d => discard (Cache.save d chainId { contracts := addresses, client := .str sender })

section Keep

variable {d : Path} {chainId sender : Text} {addresses : Table Json} {p : Path} {e : Failure}
  {t t' : FileTree}

theorem keep_of_ok (h : Cache.save d chainId ⟨addresses, [], .str sender⟩ t = .ok p t') :
    Act.outcome (keep (some d) chainId sender addresses) t = (.ok (), t') := by
  have hkept : keep (some d) chainId sender addresses t = .ok () t' := Act.bind_run_ok h
  rw [Act.outcome, hkept]

theorem keep_of_error (h : Cache.save d chainId ⟨addresses, [], .str sender⟩ t = .error e t') :
    Act.outcome (keep (some d) chainId sender addresses) t = (.error e, t') := by
  have hkept : keep (some d) chainId sender addresses t = .error e t' := Act.bind_run_error h
  rw [Act.outcome, hkept]

theorem final_keep :
    (keep (some d) chainId sender addresses).final t =
      (Cache.save d chainId ⟨addresses, [], .str sender⟩).final t := by
  cases hsave : Cache.save d chainId ⟨addresses, [], .str sender⟩ t with
  | ok p u => rw [Act.final, keep_of_ok hsave, Act.final_ok hsave]
  | error e u => rw [Act.final, keep_of_error hsave, Act.final_error hsave]

end Keep

section Deploy

variable {σ : Type} (client : ChainClient σ) (chainName : Text) (contracts : Table Path)
  (directory : Option Path) {s : Site σ} {o : σ}

theorem deploy_of_refused {target : Json} {detail : Text}
    (h : install client chainName contracts s.outside = .error (.contract target detail) o) :
    deploy client chainName contracts directory s =
      .error (.bootstrap client.chainId (.contract target detail)) ⟨s.files, o⟩ := by
  rw [deploy, Act.bind_run_ok (Act.attempt_run_error (Site.onOutside_run_error h))]
  rfl

theorem deploy_of_error {e : Failure}
    (h : install client chainName contracts s.outside = .error e o)
    (he : ∀ target detail, e ≠ .contract target detail) :
    deploy client chainName contracts directory s = .error e ⟨s.files, o⟩ := by
  rw [deploy, Act.bind_run_ok (Act.attempt_run_error (Site.onOutside_run_error h))]
  cases e with
  | contract target detail => exact absurd rfl (he target detail)
  | _ => rfl

/-- An install that fails leaves the files alone. -/
theorem deploy_of_failed {e : Failure}
    (h : install client chainName contracts s.outside = .error e o) :
    ∃ e', deploy client chainName contracts directory s = .error e' ⟨s.files, o⟩ := by
  by_cases he : ∃ target detail, e = .contract target detail
  · obtain ⟨target, detail, rfl⟩ := he
    exact ⟨_, deploy_of_refused client chainName contracts directory h⟩
  · exact ⟨e, deploy_of_error client chainName contracts directory h fun target detail h =>
      he ⟨target, detail, h⟩⟩

theorem deploy_of_ok {addresses : Table Json}
    (h : install client chainName contracts s.outside = .ok addresses o) :
    Act.outcome (deploy client chainName contracts directory) s =
      (((keep directory client.chainId client.sender addresses).outcome s.files).1.map
          fun _ => addresses,
        ⟨((keep directory client.chainId client.sender addresses).outcome s.files).2, o⟩) := by
  rw [Act.outcome, deploy, Act.bind_run_ok (Act.attempt_run_ok (Site.onOutside_run_ok h))]
  cases directory with
  | none => rfl
  | some d =>
    show Act.outcome (Site.onFiles (Cache.save d client.chainId
      ⟨addresses, [], .str client.sender⟩) >>= fun _ => pure addresses) ⟨s.files, o⟩ = _
    cases hsave : Cache.save d client.chainId ⟨addresses, [], .str client.sender⟩ s.files with
    | ok p t =>
      have hsite : (Site.onFiles (Cache.save d client.chainId ⟨addresses, [], .str client.sender⟩) :
          Act (Site σ) Path) ⟨s.files, o⟩ = .ok p ⟨t, o⟩ := Site.onFiles_run_ok hsave
      rw [keep_of_ok hsave, Act.outcome, Act.bind_run_ok hsite]
      rfl
    | error e t =>
      have hsite : (Site.onFiles (Cache.save d client.chainId ⟨addresses, [], .str client.sender⟩) :
          Act (Site σ) Path) ⟨s.files, o⟩ = .error e ⟨t, o⟩ := Site.onFiles_run_error hsave
      rw [keep_of_error hsave, Act.outcome, Act.bind_run_error hsite]
      rfl

theorem deploy_eq_ok {client : ChainClient σ} {chainName : Text} {contracts : Table Path} {d : Path}
    {s t : Site σ} {addresses : Table Json}
    (h : deploy client chainName contracts (some d) s = .ok addresses t) :
    ∃ o p, install client chainName contracts s.outside = .ok addresses o ∧
      Cache.save d client.chainId ⟨addresses, [], .str client.sender⟩ s.files = .ok p t.files := by
  cases hinstall : install client chainName contracts s.outside with
  | error e o =>
    obtain ⟨e', hrun⟩ := deploy_of_failed client chainName contracts (some d) hinstall
    rw [hrun] at h
    cases h
  | ok made o =>
    have houtcome := deploy_of_ok client chainName contracts (some d) hinstall
    rw [Act.outcome, h] at houtcome
    cases hsave : Cache.save d client.chainId ⟨made, [], .str client.sender⟩ s.files with
    | error e u =>
      rw [keep_of_error hsave] at houtcome
      cases houtcome
    | ok p u =>
      rw [keep_of_ok hsave] at houtcome
      cases houtcome
      exact ⟨o, p, rfl, hsave⟩

end Deploy

/-! ## The cache first -/

/-- A bootstrap that is not answered from the cache: it may not look there, or it looks and there is
not an address for every name.  One that cannot read the file as text is over before any call. -/
def Cold [Json.Limits] (directory : Option Path) (useCache : Bool) (chainId : Text)
    (names : List Text) (files : FileTree) : Prop :=
  ∀ d, directory = some d → useCache = true →
    ∃ cache, Cache.load d chainId files = .ok cache files ∧ Cache.isComplete cache names = false

theorem cold_of_fresh [Json.Limits] {directory : Option Path} {chainId : Text} {names : List Text}
    {files : FileTree} : Cold directory false chainId names files :=
  fun _ _ h => absurd h Bool.false_ne_true

section Setup

variable [Json.Limits] {σ : Type} (client : ChainClient σ) (chainName : Text)
  {contracts : Table Path} {s : Site σ}

theorem cachedAddresses?_of_incomplete {d : Path} {chainId : Text} {names : List Text}
    {files : FileTree} {cache : Option Cache} (hload : Cache.load d chainId files = .ok cache files)
    (hcache : Cache.isComplete cache names = false) :
    cachedAddresses? d chainId names files = .ok none files := by
  rw [cachedAddresses?, Act.bind_run_ok hload, hcache]
  rfl

theorem cachedAddresses?_of_complete {d : Path} {chainId : Text} {names : List Text}
    {files : FileTree} {cache : Cache} (hload : Cache.load d chainId files = .ok (some cache) files)
    (hcache : Cache.isComplete (some cache) names = true) :
    cachedAddresses? d chainId names files = .ok
      (some (Table.restrict names cache.contracts)) files := by
  rw [cachedAddresses?, Act.bind_run_ok hload, hcache]
  rfl

theorem setUp_of_cold {directory : Option Path} {useCache : Bool}
    (hkernel : (Table.get? kernelName contracts).isSome)
    (hcold : Cold directory useCache client.chainId (Table.names contracts) s.files) :
    setUp client chainName contracts directory useCache s =
      deploy client chainName contracts directory s := by
  rw [setUp, Option.isNone_eq_false_iff.2 hkernel]
  match directory, useCache, hcold with
  | none, _, _ => rfl
  | some _, false, _ => rfl
  | some d, true, hcold =>
    obtain ⟨cache, hload, hcache⟩ := hcold d rfl rfl
    have hsite : (liftM (cachedAddresses? d client.chainId (contracts.map (·.1))) :
        Act (Site σ) (Option (Table Json))) s = .ok none s :=
      Site.onFiles_run_ok (cachedAddresses?_of_incomplete hload hcache)
    exact Act.bind_run_ok hsite

theorem setUp_of_cached {d : Path} {cache : Cache}
    (hkernel : (Table.get? kernelName contracts).isSome)
    (hload : Cache.load d client.chainId s.files = .ok (some cache) s.files)
    (hcache : Cache.isComplete (some cache) (Table.names contracts) = true) :
    setUp client chainName contracts (some d) true s =
      .ok (Table.restrict (Table.names contracts) cache.contracts) s := by
  rw [setUp, Option.isNone_eq_false_iff.2 hkernel]
  have hsite : (liftM (cachedAddresses? d client.chainId (contracts.map (·.1))) :
      Act (Site σ) (Option (Table Json))) s = .ok (some _) s :=
    Site.onFiles_run_ok (cachedAddresses?_of_complete hload hcache)
  exact Act.bind_run_ok hsite

theorem setUp_of_unreadable {d : Path} {e : Failure}
    (hkernel : (Table.get? kernelName contracts).isSome)
    (hload : Cache.load d client.chainId s.files = .error e s.files) :
    setUp client chainName contracts (some d) true s = .error e s := by
  rw [setUp, Option.isNone_eq_false_iff.2 hkernel]
  have hcached : cachedAddresses? d client.chainId (contracts.map (·.1)) s.files =
      .error e s.files := Act.bind_run_error hload
  have hsite : (liftM (cachedAddresses? d client.chainId (contracts.map (·.1))) :
      Act (Site σ) (Option (Table Json))) s = .error e s := Site.onFiles_run_error hcached
  exact Act.bind_run_error hsite

end Setup

end Bootstrap

end CrossChain
