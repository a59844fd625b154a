import CrossChain.Proofs.Bootstrap.Operations
import CrossChain.Proofs.Bootstrap.Faithful
import CrossChain.Proofs.Cache.Apart

/-!
# Bootstraps in two steps

A bootstrap looks at the files, deals with its chain, and keeps a cache or not: it carries out a
plan for the chain that the files decide, and settles what that came to (`setUp_eq_carryOut`,
`publishAll_eq_carryOut`).  The plan depends on no more of the files than the cache of the chain and
the contract files (`setUpPlan_congr`, `publishPlan_congr`), and for a client of a part of the world
it stays in that part (`setUpPlan_part`, `publishPlan_part`).
-/

namespace CrossChain

/-! ## Acts on one of several parts -/

section Part

variable {ι τ : Type} [DecidableEq ι] {α : Type}

/-- An act on one part of a state. -/
def Act.part (i : ι) (x : Act τ α) : Act (ι → τ) α :=
  Act.on (fun s => s i) (fun t s => Function.update s i t) x

theorem isPart_part (i : ι) :
    Act.IsPart (fun s : ι → τ => s i) fun t s => Function.update s i t where
  get_set s t := Function.update_self i s t
  set_set s s' t := Function.update_idem s s' t
  set_get t := Function.update_eq_self i t

end Part

theorem isPart_outside {σ : Type} :
    Act.IsPart (Site.outside (σ := σ)) fun outside s => { s with outside } :=
  ⟨fun _ _ => rfl, fun _ _ _ => rfl, fun _ => rfl⟩

namespace Bootstrap

/-! ## Plans -/

/-- What a plan came to: an answer, and a cache that is still to be kept, if any. -/
structure Draft (α : Type) where
  answer : α
  kept : Option Cache := none

section Draft

variable {α : Type} {d : Path} {chainId : Text}

/-- Keeps the cache of a draft and gives its answer; a plan that failed keeps nothing. -/
def settle (d : Path) (chainId : Text) (ended : Except Failure (Draft α)) : Act FileTree α := do
  let draft ← Act.ofExcept ended
  if let some c := draft.kept then
    let _ ← Cache.save d chainId c
  return draft.answer

theorem outcome_settle_kept (a : α) (c : Cache) (t : FileTree) :
    (settle d chainId (.ok ⟨a, some c⟩)).outcome t =
      (((Cache.save d chainId c).outcome t).1.map fun _ => a,
        ((Cache.save d chainId c).outcome t).2) := by
  cases hsave : Cache.save d chainId c t with
  | ok p u =>
    have hrun : settle d chainId (.ok ⟨a, some c⟩) t = .ok a u := Act.bind_run_ok hsave
    rw [Act.outcome_ok hrun, Act.outcome_ok hsave]
    rfl
  | error e u =>
    have hrun : settle d chainId (.ok ⟨a, some c⟩) t = .error e u :=
      Act.bind_run_error (f := fun _ => pure a) hsave
    rw [Act.outcome_error hrun, Act.outcome_error hsave]
    rfl

/-- Carries out a plan that the files decide, and settles what it came to. -/
def carryOut {σ : Type} (d : Path) (chainId : Text) (plan : FileTree → Act σ (Draft α)) :
    Act (Site σ) α := do
  let ended ← Act.attempt (Site.onOutside (plan (← get).files))
  Site.onFiles (settle d chainId ended)

theorem outcome_carryOut {σ : Type} (plan : FileTree → Act σ (Draft α)) (s : Site σ) :
    (carryOut d chainId plan).outcome s =
      let ended := (plan s.files).outcome s.outside
      let settled := (settle d chainId ended.1).outcome s.files
      (settled.1, ⟨settled.2, ended.2⟩) := by
  have hrun : carryOut d chainId plan s =
      Site.onFiles (settle d chainId ((plan s.files).outcome s.outside).1)
        ⟨s.files, ((plan s.files).outcome s.outside).2⟩ := by
    rw [carryOut, Act.get_bind, Act.bind_run_ok (Act.attempt_run _ s), Site.onOutside,
      Act.outcome_on]
  rw [Act.outcome_congr hrun, Site.onFiles, Act.outcome_on]

end Draft

/-! ## Installs -/

section Install

variable {σ : Type} (client : ChainClient σ) (chainName : Text) (contracts : Table Path)

/-- The plan of an install: the addresses are the answer, and the cache that is kept. -/
def installPlan : Act σ (Draft (Table Json)) := do
  match ← Act.attempt (install client chainName contracts) with
  | .error (.contract target detail) =>
    throw (.bootstrap client.chainId (.contract target detail))
  | .error e => throw e
  | .ok addresses =>
    return { answer := addresses, kept := some ⟨addresses, [], .str client.sender⟩ }

theorem deploy_eq_carryOut (d : Path) :
    deploy client chainName contracts (some d) =
      carryOut d client.chainId fun _ => installPlan client chainName contracts := by
  refine Act.ext_outcome fun s => ?_
  rw [outcome_carryOut]
  cases hinstall : install client chainName contracts s.outside with
  | error e o =>
    have hattempt := Act.attempt_run_error hinstall
    by_cases he : ∃ target detail, e = .contract target detail
    · obtain ⟨target, detail, rfl⟩ := he
      rw [Act.outcome_error (deploy_of_refused client chainName contracts (some d) hinstall),
        installPlan, Act.outcome_congr (Act.bind_run_ok hattempt)]
      rfl
    · have hne : ∀ target detail, e ≠ .contract target detail := fun target detail h =>
        he ⟨target, detail, h⟩
      rw [Act.outcome_error (deploy_of_error client chainName contracts (some d) hinstall hne),
        installPlan, Act.outcome_congr (Act.bind_run_ok hattempt)]
      cases e with
      | contract target detail => exact absurd rfl (hne target detail)
      | _ => rfl
  | ok addresses o =>
    have hplan : installPlan client chainName contracts s.outside =
        .ok ⟨addresses, some ⟨addresses, [], .str client.sender⟩⟩ o :=
      Act.bind_run_ok (Act.attempt_run_ok hinstall)
    rw [deploy_of_ok client chainName contracts (some d) hinstall, Act.outcome_ok hplan]
    dsimp only
    rw [outcome_settle_kept]
    cases hsave : Cache.save d client.chainId ⟨addresses, [], .str client.sender⟩ s.files with
    | ok p t =>
      rw [keep_of_ok hsave, Act.outcome_ok hsave]
      rfl
    | error e t =>
      rw [keep_of_error hsave, Act.outcome_error hsave]
      rfl

section Part

variable {ι : Type} [DecidableEq ι] (i : ι)

theorem uploadAll_part :
    uploadAll (client.part i) contracts = Act.part i (uploadAll client contracts) := by
  rw [uploadAll, uploadAll, Act.part, (isPart_part i).on_mapM]
  refine congrArg (contracts.mapM ·) (funext fun entry => ?_)
  obtain ⟨name, wasm⟩ := entry
  simp only [(isPart_part i).on_bind, (isPart_part i).on_pure]
  rfl

theorem makeSiblings_part (kernel : Text) (siblings : Table Int) :
    makeSiblings (client.part i) kernel siblings =
      Act.part i (makeSiblings client kernel siblings) := by
  rw [makeSiblings, makeSiblings, Act.part, (isPart_part i).on_mapM]
  refine congrArg (siblings.mapM ·) (funext fun entry => ?_)
  obtain ⟨name, code⟩ := entry
  simp only [(isPart_part i).on_bind, (isPart_part i).on_pure]
  rfl

theorem register_part (kernel : Text) (siblings : Table Text) :
    register (client.part i) kernel siblings = Act.part i (register client kernel siblings) := by
  rw [register, register, Act.part, (isPart_part i).on_forM]
  refine congrArg (siblings.forM ·) (funext fun entry => ?_)
  obtain ⟨name, address⟩ := entry
  refine Eq.symm (((isPart_part i).on_bind (client.answer (registering kernel address name))
    fun _ => pure ()).trans ?_)
  simp only [(isPart_part i).on_pure]
  rfl

theorem install_part :
    install (client.part i) chainName contracts =
      Act.part i (install client chainName contracts) := by
  rw [install, install, uploadAll_part, Act.part, Act.part, (isPart_part i).on_bind]
  refine congrArg _ (funext fun codes => ?_)
  split
  · exact ((isPart_part i).on_throw _).symm
  · simp only [makeSiblings_part, register_part, Act.part, (isPart_part i).on_bind,
      (isPart_part i).on_pure]
    rfl

theorem installPlan_part :
    installPlan (client.part i) chainName contracts =
      Act.part i (installPlan client chainName contracts) := by
  rw [installPlan, installPlan, install_part, Act.part, Act.part, (isPart_part i).on_bind,
    Act.on_attempt]
  refine congrArg _ (funext fun ended => ?_)
  split
  · exact ((isPart_part i).on_throw _).symm
  · exact ((isPart_part i).on_throw _).symm
  · exact ((isPart_part i).on_pure _).symm

end Part

end Install

/-! ## Bootstraps -/

section SetUp

variable [Json.Limits] {σ : Type} (client : ChainClient σ) (chainName : Text)
  (contracts : Table Path) (d : Path)

/-- What a bootstrap sees of the cache, if it may look there. -/
def seenCache (d : Path) (chainId : Text) (useCache : Bool) (t : FileTree) :
    Except Failure (Option Cache) :=
  if useCache then Cache.loaded d chainId t else .ok none

/-- The plan of a bootstrap: what the cache has, if it may be read and has everything, and an
install otherwise. -/
def setUpPlan (useCache : Bool) (t : FileTree) : Act σ (Draft (Table Json)) :=
  match Table.get? kernelName contracts with
  | none => throw (.value .kernelNotInSet)
  | some _ => do
    let cache ← Act.ofExcept (seenCache d client.chainId useCache t)
    match cache, Cache.isComplete cache (Table.names contracts) with
    | some c, true => return { answer := Table.restrict (Table.names contracts) c.contracts }
    | _, _ => installPlan client chainName contracts

variable {useCache : Bool} {contracts}

theorem setUpPlan_of_cold {t : FileTree} (hkernel : (Table.get? kernelName contracts).isSome)
    (hcold : Cold (some d) useCache client.chainId (Table.names contracts) t) :
    setUpPlan client chainName contracts d useCache t =
      installPlan client chainName contracts := by
  obtain ⟨file, hfile⟩ := Option.isSome_iff_exists.1 hkernel
  rw [setUpPlan, hfile]
  cases useCache with
  | false => rfl
  | true =>
    obtain ⟨cache, hload, hcache⟩ := hcold d rfl rfl
    have hseen : seenCache d client.chainId true t = .ok cache :=
      congrArg Prod.fst (Act.outcome_ok hload)
    simp only [hseen, Act.ofExcept_ok, pure_bind, hcache]

theorem setUpPlan_of_cached {t : FileTree} {cache : Cache}
    (hkernel : (Table.get? kernelName contracts).isSome)
    (hload : Cache.load d client.chainId t = .ok (some cache) t)
    (hcache : Cache.isComplete (some cache) (Table.names contracts) = true) :
    setUpPlan client chainName contracts d true t =
      pure { answer := Table.restrict (Table.names contracts) cache.contracts } := by
  obtain ⟨file, hfile⟩ := Option.isSome_iff_exists.1 hkernel
  have hseen : seenCache d client.chainId true t = .ok (some cache) :=
    congrArg Prod.fst (Act.outcome_ok hload)
  simp only [setUpPlan, hfile, hseen, Act.ofExcept_ok, pure_bind, hcache]

theorem setUpPlan_of_unreadable {t : FileTree} {e : Failure}
    (hkernel : (Table.get? kernelName contracts).isSome)
    (hload : Cache.load d client.chainId t = .error e t) :
    setUpPlan client chainName contracts d true t = throw e := by
  obtain ⟨file, hfile⟩ := Option.isSome_iff_exists.1 hkernel
  have hseen : seenCache d client.chainId true t = .error e :=
    congrArg Prod.fst (Act.outcome_error hload)
  rw [setUpPlan, hfile]
  simp only [hseen]
  rfl

theorem setUp_eq_carryOut :
    setUp client chainName contracts (some d) useCache =
      carryOut d client.chainId (setUpPlan client chainName contracts d useCache) := by
  refine Act.ext_outcome fun s => ?_
  rw [outcome_carryOut]
  have hinstalls : ∀ (_ : (Table.get? kernelName contracts).isSome),
      Cold (some d) useCache client.chainId (Table.names contracts) s.files →
      (setUp client chainName contracts (some d) useCache).outcome s =
        let ended := (setUpPlan client chainName contracts d useCache s.files).outcome s.outside
        let settled := (settle d client.chainId ended.1).outcome s.files
        (settled.1, ⟨settled.2, ended.2⟩) := by
    intro hkernel hcold
    rw [Act.outcome_congr (setUp_of_cold client chainName hkernel hcold), deploy_eq_carryOut,
      outcome_carryOut, setUpPlan_of_cold client chainName d hkernel hcold]
  cases hkernel : Table.get? kernelName contracts with
  | none =>
    rw [setUp, setUpPlan, hkernel]
    rfl
  | some file =>
    have hkernel : (Table.get? kernelName contracts).isSome :=
      Option.isSome_iff_exists.2 ⟨_, hkernel⟩
    cases useCache with
    | false => exact hinstalls hkernel cold_of_fresh
    | true =>
      cases hload : Cache.load d client.chainId s.files with
      | error e t =>
        obtain rfl := (Cache.within_load d client.chainId).error hload
        rw [Act.outcome_congr (setUp_of_unreadable client chainName hkernel hload),
          setUpPlan_of_unreadable client chainName d hkernel hload]
        rfl
      | ok cache t =>
        obtain rfl := (Cache.within_load d client.chainId).ok hload
        cases hcomplete : Cache.isComplete cache (Table.names contracts) with
        | false =>
          refine hinstalls hkernel fun d' hd _ => ?_
          cases hd
          exact ⟨cache, hload, hcomplete⟩
        | true =>
          cases cache with
          | none => cases hcomplete
          | some cache =>
            rw [Act.outcome_congr (setUp_of_cached client chainName hkernel hload hcomplete),
              setUpPlan_of_cached client chainName d hkernel hload hcomplete]
            rfl

/-- The plan of a bootstrap depends on what is found in the place of its cache. -/
theorem setUpPlan_congr {t t' : FileTree}
    (h : t'.look (Cache.path d client.chainId) = t.look (Cache.path d client.chainId)) :
    setUpPlan client chainName contracts d useCache t' =
      setUpPlan client chainName contracts d useCache t := by
  have hseen : seenCache d client.chainId useCache t' = seenCache d client.chainId useCache t := by
    rw [seenCache, seenCache, Cache.loaded_of_look h]
  rw [setUpPlan, setUpPlan, hseen]

theorem setUpPlan_part {ι : Type} [DecidableEq ι] (i : ι) (t : FileTree) :
    setUpPlan (client.part i) chainName contracts d useCache t =
      Act.part i (setUpPlan client chainName contracts d useCache t) := by
  rw [setUpPlan, setUpPlan]
  split
  · exact ((isPart_part i).on_throw _).symm
  · rw [Act.part, (isPart_part i).on_bind, (isPart_part i).on_ofExcept]
    refine congrArg _ (funext fun cache => ?_)
    split
    · exact ((isPart_part i).on_pure _).symm
    · exact installPlan_part client chainName contracts i

/-- A bootstrap by a client of one part of the world. -/
theorem setUp_part {ι : Type} [DecidableEq ι] (i : ι) :
    setUp (client.part i) chainName contracts (some d) useCache =
      carryOut d client.chainId fun t =>
        Act.part i (setUpPlan client chainName contracts d useCache t) := by
  rw [setUp_eq_carryOut]
  exact congrArg _ (funext fun t => setUpPlan_part client chainName d i t)

end SetUp

/-! ## Publications -/

/-- Acts on the outside world may look at the files as these were at the start. -/
theorem mapM_onOutside {σ α β : Type} {f : α → Act (Site σ) β} {g : α → Act σ β} {t : FileTree}
    (h : ∀ a (s : Site σ), s.files = t → f a s = Site.onOutside (g a) s) (l : List α)
    {s : Site σ} (hs : s.files = t) : l.mapM f s = Site.onOutside (l.mapM g) s := by
  induction l generalizing s with
  | nil =>
    rw [List.mapM_nil, List.mapM_nil]
    rfl
  | cons a l ih =>
    rw [List.mapM_cons, List.mapM_cons, Site.onOutside, isPart_outside.on_bind]
    refine Act.bind_run_congr (h a s hs) fun b u hu => ?_
    have hfiles : u.files = t := ((within_onOutside (g a)).ok hu).trans hs
    rw [isPart_outside.on_bind]
    refine Act.bind_run_congr (ih hfiles) fun bs v _ => ?_
    rw [isPart_outside.on_pure]

section Publish

variable {σ : Type} (client : ChainClient σ) (registry : Contract) (directory : Path)

/-- Stores and publishes every application of a directory. -/
def publishEachPlan (t : FileTree) : Act σ (Table Int) := do
  let names ← Act.ofExcept (Wasm.applicationNames t directory)
  let codes ← names.mapM fun name => do
    let file ← Act.ofExcept (Wasm.find t directory name)
    return (name, ← publishFile client registry name file)
  return Table.ofPairs codes

/-- The plan of a publication of everything: the code ids are the answer, and they are added to the
cache of the chain. -/
def publishPlan [Json.Limits] (d : Path) (t : FileTree) : Act σ (Draft (Table Int)) := do
  let codes ← publishEachPlan client registry directory t
  let old ← Act.ofExcept (Cache.loaded d client.chainId t)
  return { answer := codes, kept := some (.published old client.sender codes) }

section Part

variable {ι : Type} [DecidableEq ι] (i : ι)

theorem publishFile_part (name : Text) (file : Path) :
    publishFile (client.part i) registry name file =
      Act.part i (publishFile client registry name file) := by
  rw [publishFile, publishFile, Act.part, (isPart_part i).on_bind]
  simp only [(isPart_part i).on_bind, (isPart_part i).on_pure]
  rfl

theorem publishEachPlan_part (t : FileTree) :
    publishEachPlan (client.part i) registry directory t =
      Act.part i (publishEachPlan client registry directory t) := by
  simp only [publishEachPlan, publishFile_part, Act.part, (isPart_part i).on_bind,
    (isPart_part i).on_mapM, (isPart_part i).on_ofExcept, (isPart_part i).on_pure]

theorem publishPlan_part [Json.Limits] (d : Path) (t : FileTree) :
    publishPlan (client.part i) registry directory d t =
      Act.part i (publishPlan client registry directory d t) := by
  simp only [publishPlan, publishEachPlan_part, Act.part, (isPart_part i).on_bind,
    (isPart_part i).on_ofExcept, (isPart_part i).on_pure]
  rfl

end Part

/-- The plan of publications depends on the contract files and what is found in the place of the
cache. -/
theorem publishPlan_congr [Json.Limits] {d : Path} {t t' : FileTree}
    (hfiles : Wasm.files t' directory = Wasm.files t directory)
    (hlook : t'.look (Cache.path d client.chainId) = t.look (Cache.path d client.chainId)) :
    publishPlan client registry directory d t' = publishPlan client registry directory d t := by
  simp only [publishPlan, publishEachPlan, Wasm.applicationNames, Wasm.namesBut, Wasm.find, hfiles,
    Cache.loaded_of_look hlook]

theorem publishEach_run (s : Site σ) :
    publishEach client registry directory s =
      Site.onOutside (publishEachPlan client registry directory s.files) s := by
  have hread : ∀ {α : Type} (f : FileTree → Except Failure α) {t : Site σ}, t.files = s.files →
      (Site.ofFiles f : Act (Site σ) α) t = Site.onOutside (Act.ofExcept (f s.files)) t := by
    intro α f t ht
    rw [Site.onOutside, isPart_outside.on_ofExcept, Site.ofFiles, Act.get_bind, ht]
  rw [publishEach, publishEachPlan, Site.onOutside, isPart_outside.on_bind]
  refine Act.bind_run_congr (hread _ rfl) fun names t ht => ?_
  have hfiles : t.files = s.files := (within_onOutside _).ok ht
  rw [isPart_outside.on_bind]
  refine Act.bind_run_congr (mapM_onOutside (fun name u hu => ?_) names hfiles) fun codes u _ => ?_
  · rw [publish, bind_assoc, Site.onOutside, isPart_outside.on_bind]
    refine Act.bind_run_congr (hread _ hu) fun file v _ => ?_
    rw [isPart_outside.on_bind]
    refine Act.bind_run_congr rfl fun code w _ => ?_
    rw [isPart_outside.on_pure]
  · rw [isPart_outside.on_pure]

theorem publishAll_eq_carryOut [Json.Limits] (d : Path) :
    publishAll client registry directory (some d) =
      carryOut d client.chainId (publishPlan client registry directory d) := by
  refine Act.ext_outcome fun s => ?_
  rw [publishAll_eq, outcome_carryOut, publishPlan]
  have heach := publishEach_run client registry directory s
  cases hplan : publishEachPlan client registry directory s.files s.outside with
  | error e o =>
    rw [Site.onOutside_run_error hplan] at heach
    rw [Act.outcome_error (Act.bind_run_error heach), Act.outcome_error (Act.bind_run_error hplan)]
    rfl
  | ok codes o =>
    rw [Site.onOutside_run_ok hplan] at heach
    rw [Act.outcome_congr (Act.bind_run_ok heach), Act.outcome_congr (Act.bind_run_ok hplan)]
    cases hload : Cache.load d client.chainId s.files with
    | error e t =>
      obtain rfl := (Cache.within_load d client.chainId).error hload
      have hloaded : Cache.loaded d client.chainId s.files = .error e :=
        congrArg Prod.fst (Act.outcome_error hload)
      have hremember : remember client d codes s.files = .error e s.files :=
        Act.bind_run_error hload
      rw [hloaded]
      exact Act.outcome_error (Act.bind_run_error (Site.onFiles_run_error hremember))
    | ok old t =>
      obtain rfl := (Cache.within_load d client.chainId).ok hload
      have hloaded : Cache.loaded d client.chainId s.files = .ok old :=
        congrArg Prod.fst (Act.outcome_ok hload)
      rw [hloaded]
      refine Eq.trans ?_ (congrArg (fun settled : Except Failure (Table Int) × FileTree =>
        (settled.1, (⟨settled.2, o⟩ : Site σ))) (outcome_settle_kept _ _ _).symm)
      cases hsave : Cache.save d client.chainId (.published old client.sender codes) s.files with
      | ok p t =>
        have hremember := remember_of_saved client hload hsave
        rw [Act.outcome_ok hsave]
        exact Act.outcome_ok (Act.bind_run_ok (Site.onFiles_run_ok hremember))
      | error e t =>
        have hremember := remember_of_error client hload hsave
        rw [Act.outcome_error hsave]
        exact Act.outcome_error (Act.bind_run_error (Site.onFiles_run_error hremember))

/-- Publications by a client of one part of the world. -/
theorem publishAll_part [Json.Limits] {ι : Type} [DecidableEq ι] (i : ι) (d : Path) :
    publishAll (client.part i) registry directory (some d) =
      carryOut d client.chainId fun t =>
        Act.part i (publishPlan client registry directory d t) := by
  rw [publishAll_eq_carryOut]
  exact congrArg _ (funext fun t => publishPlan_part client registry directory i d t)

end Publish

end Bootstrap

end CrossChain
