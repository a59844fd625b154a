import CrossChain.Proofs.Bootstrap.Plans
import CrossChain.Proofs.Bootstrap.Publications
import CrossChain.Proofs.Bootstrap.Verification

/-!
# Bootstraps of different chains commute

Two bootstraps of different chains do the same in either order, and so do two publications
(`bootstraps_commute`): each ends as it does alone, each chain is asked the same in the same order,
and what stands anywhere is the same after both.  The plans of the two stay in parts of the world of
their own, and the caches they keep are apart.  That different chain ids have no slash is not enough
for it (`bootstraps_not_commute`).
-/

namespace CrossChain

namespace Bootstrap

/-- Two acts on a site do the same in either order: each of them ends as if it came first, and after
both the outside world is the same and the same stands everywhere. -/
structure EitherOrder {σ α β : Type} (x : Act (Site σ) α) (y : Act (Site σ) β) (s : Site σ) :
    Prop where
  first : (x.outcome (y.final s)).1 = (x.outcome s).1
  second : (y.outcome (x.final s)).1 = (y.outcome s).1
  outside : (y.final (x.final s)).outside = (x.final (y.final s)).outside
  files : ∀ place,
    (y.final (x.final s)).files.entry? place = (x.final (y.final s)).files.entry? place

/-! ## What is settled -/

section Settle

variable {α : Type} {d : Path} {a b chainId : Text} {t t' : FileTree}

/-- What a plan came to leaves the files alone or keeps a cache. -/
theorem final_settle (d : Path) (chainId : Text) (ended : Except Failure (Draft α)) :
    (∀ t, (settle d chainId ended).final t = t) ∨
      ∃ c, ∀ t, (settle d chainId ended).final t = (Cache.save d chainId c).final t := by
  match ended with
  | .error e => exact .inl fun t => rfl
  | .ok ⟨answer, none⟩ => exact .inl fun t => rfl
  | .ok ⟨answer, some c⟩ =>
    exact .inr ⟨c, fun t => congrArg Prod.snd (outcome_settle_kept answer c t)⟩

theorem ended_settle_spared (h : Cache.Spared d chainId t t') (ended : Except Failure (Draft α)) :
    ((settle d chainId ended).outcome t').1 = ((settle d chainId ended).outcome t).1 := by
  match ended with
  | .error e => rfl
  | .ok ⟨answer, none⟩ => rfl
  | .ok ⟨answer, some c⟩ => rw [outcome_settle_kept, outcome_settle_kept, h.ended c]

theorem spared_settle (h : Cache.Apart t d a b) (ended : Except Failure (Draft α)) :
    Cache.Spared d b t ((settle d a ended).final t) := by
  rcases final_settle d a ended with hnone | ⟨c, hkept⟩
  · rw [hnone]
    exact ⟨rfl, fun _ => rfl⟩
  · rw [hkept]
    exact h.spared_save c

theorem entry?_settle_comm {β : Type} (h : Cache.Apart t d a b) (ended : Except Failure (Draft α))
    (ended' : Except Failure (Draft β)) (place : Place) :
    FileTree.entry? ((settle d b ended').final ((settle d a ended).final t)) place =
      FileTree.entry? ((settle d a ended).final ((settle d b ended').final t)) place := by
  rcases final_settle d a ended with hnone | ⟨c, hkept⟩
  · rw [hnone, hnone]
  · rcases final_settle d b ended' with hnone' | ⟨c', hkept'⟩
    · rw [hnone', hnone']
    · rw [hkept, hkept, hkept', hkept']
      exact h.entry?_save_comm c c' place

end Settle

/-! ## What is carried out on different parts -/

section CarryOut

variable {ι τ α β : Type} [DecidableEq ι] {i j : ι} {d : Path} {a b : Text}

theorem outcome_carryOut_part (chainId : Text) (p : FileTree → Act τ (Draft α))
    (s : Site (ι → τ)) :
    (carryOut d chainId fun t => Act.part i (p t)).outcome s =
      let ended := (p s.files).outcome (s.outside i)
      let settled := (settle d chainId ended.1).outcome s.files
      (settled.1, ⟨settled.2, Function.update s.outside i ended.2⟩) := by
  rw [outcome_carryOut, Act.part, Act.outcome_on]

/-- A plan that does not depend on what another one keeps is carried out after it as before it. -/
theorem outcome_carryOut_after {p : FileTree → Act τ (Draft α)} {q : FileTree → Act τ (Draft β)}
    {s : Site (ι → τ)} (hij : i ≠ j) (h : Cache.Apart s.files d a b)
    (hq : ∀ c, q ((Cache.save d a c).final s.files) = q s.files) :
    (carryOut d b fun t => Act.part j (q t)).outcome
        ((carryOut d a fun t => Act.part i (p t)).final s) =
      let first := (p s.files).outcome (s.outside i)
      let second := (q s.files).outcome (s.outside j)
      (((settle d b second.1).outcome s.files).1,
        ⟨(settle d b second.1).final ((settle d a first.1).final s.files),
          Function.update (Function.update s.outside i first.2) j second.2⟩) := by
  have hfinal : (carryOut d a fun t => Act.part i (p t)).final s =
      ⟨(settle d a ((p s.files).outcome (s.outside i)).1).final s.files,
        Function.update s.outside i ((p s.files).outcome (s.outside i)).2⟩ := by
    rw [Act.final, outcome_carryOut_part]
    rfl
  have hplan : ∀ ended : Except Failure (Draft α),
      q ((settle d a ended).final s.files) = q s.files := by
    intro ended
    rcases final_settle d a ended with hnone | ⟨c, hkept⟩
    · rw [hnone]
    · rw [hkept, hq]
  rw [hfinal, outcome_carryOut_part]
  simp only [hplan, Function.update_of_ne hij.symm]
  rw [ended_settle_spared (spared_settle h _)]
  rfl

theorem eitherOrder_carryOut {p : FileTree → Act τ (Draft α)} {q : FileTree → Act τ (Draft β)}
    {s : Site (ι → τ)} (hij : i ≠ j) (h : Cache.Apart s.files d a b)
    (hp : ∀ c, p ((Cache.save d b c).final s.files) = p s.files)
    (hq : ∀ c, q ((Cache.save d a c).final s.files) = q s.files) :
    EitherOrder (carryOut d a fun t => Act.part i (p t)) (carryOut d b fun t => Act.part j (q t))
      s := by
  have hafter := outcome_carryOut_after (p := p) hij h hq
  have hafter' := outcome_carryOut_after (p := q) hij.symm h.symm hp
  constructor
  · rw [hafter', outcome_carryOut_part]
  · rw [hafter, outcome_carryOut_part]
  · rw [Act.final, hafter, Act.final, hafter']
    exact Function.update_comm hij _ _ _
  · intro place
    rw [Act.final, hafter, Act.final, hafter']
    exact entry?_settle_comm h _ _ place

end CarryOut

/-! ## The law -/

/-- Bootstraps of two chains that keep their caches apart do the same in either order, whatever
their clients answer, which contracts they install and whether they may look into the cache; and so
do publications on two such chains, where making the directory of the caches does not change what
contract files there are.  Where that directory is there already nothing is asked of its path: the
caches are apart if their files have different names, and no contract files change. -/
theorem bootstraps_commute [Json.Limits] {ι τ : Type} [DecidableEq ι] (clients : ι → ChainClient τ)
    {i j : ι} (hij : i ≠ j) (d : Path) (s : Site (ι → Logged Asked τ)) :
    (Cache.Apart s.files d (clients i).chainId (clients j).chainId →
      (∀ (chainName chainName' : Text) (contracts contracts' : Table Path)
          (useCache useCache' : Bool),
        EitherOrder (setUp ((clients i).noted.part i) chainName contracts (some d) useCache)
          (setUp ((clients j).noted.part j) chainName' contracts' (some d) useCache') s) ∧
      ∀ (registry registry' : Contract) (directory directory' : Path),
        Cache.Unlisted s.files d directory → Cache.Unlisted s.files d directory' →
        EitherOrder (publishAll ((clients i).noted.part i) registry directory (some d))
          (publishAll ((clients j).noted.part j) registry' directory' (some d)) s) ∧
    ∀ home, s.files.Rooted → s.files.DirectoryAt d home →
      47 ∉ (clients i).chainId → 47 ∉ (clients j).chainId →
      Cache.fileName (clients i).chainId ≠ Cache.fileName (clients j).chainId →
      Cache.Apart s.files d (clients i).chainId (clients j).chainId ∧
        ∀ directory, Cache.Unlisted s.files d directory := by
  refine ⟨fun hapart => ⟨?_, ?_⟩, fun home hrooted hhome hfirst hsecond hdistinct => ?_⟩
  · intro chainName chainName' contracts contracts' useCache useCache'
    rw [setUp_part, setUp_part]
    exact eitherOrder_carryOut hij hapart
      (fun c => setUpPlan_congr (clients i).noted chainName d (hapart.symm.spared_save c).look)
      (fun c => setUpPlan_congr (clients j).noted chainName' d (hapart.spared_save c).look)
  · intro registry registry' directory directory' hunlisted hunlisted'
    rw [publishAll_part, publishAll_part]
    exact eitherOrder_carryOut hij hapart
      (fun c => publishPlan_congr (clients i).noted registry directory
        (hapart.symm.files_save hunlisted c) (hapart.symm.spared_save c).look)
      (fun c => publishPlan_congr (clients j).noted registry' directory'
        (hapart.files_save hunlisted' c) (hapart.spared_save c).look)
  · exact ⟨Cache.apart_of_directory hrooted hfirst hsecond hdistinct hhome,
      Cache.unlisted_of_directory hhome⟩

/-! ### Two chains -/

/-- Two chains, each with a kernel of its own. -/
def kernels (ids : Bool → Text) (side : Bool) : ChainClient Unit :=
  kernelAt (ids side) (if side then "andr1other" else "andr1kernel")

/-- A bootstrap of one of two chains. -/
def installOf (ids : Bool → Text) (d : Path) (useCache side : Bool) :
    Act (Site (Bool → Logged Asked Unit)) (Table Json) :=
  setUp ((kernels ids side).noted.part side) "andromeda" justKernel.files (some d) useCache

/-- Publications on one of two chains. -/
def publicationOf (ids : Bool → Text) (d directory : Path) (side : Bool) :
    Act (Site (Bool → Logged Asked Unit)) (Table Int) :=
  publishAll ((kernels ids side).noted.part side) ⟨.str "andr1adodb"⟩ directory (some d)

/-- The site of two chains that were asked nothing. -/
def unasked (files : FileTree) : Site (Bool → Logged Asked Unit) := ⟨files, fun _ => ⟨[], ()⟩⟩

/-- A directory of contracts with an application. -/
def oneContract : FileTree := contractsOf [text "andromeda_cw20@1.0.0.wasm"]

/-- Two chains without caches, not even a directory of them, beside an application. -/
theorem bootstraps_commute_twoIds :
    EitherOrder (installOf twoIds (Path.ofText "cache") true false)
        (installOf twoIds (Path.ofText "cache") true true) (unasked oneContract) ∧
      EitherOrder
        (publicationOf twoIds (Path.ofText "cache") (Path.ofText "contracts") false)
        (publicationOf twoIds (Path.ofText "cache") (Path.ofText "contracts") true)
        (unasked oneContract) := by
  have hapart : Cache.Apart oneContract (Path.ofText "cache") (twoIds false) (twoIds true) :=
    ⟨FileTree.rooted_of_entries (by decide +kernel), by decide, by decide, by decide,
      by decide +kernel, by decide +kernel⟩
  have hunlisted : Cache.Unlisted oneContract (Path.ofText "cache") (Path.ofText "contracts") :=
    .inr ⟨by decide +kernel, by decide +kernel⟩
  obtain ⟨hinstalls, hpublications⟩ := (bootstraps_commute (kernels twoIds) Bool.false_ne_true
    (Path.ofText "cache") (unasked oneContract)).1 hapart
  exact ⟨hinstalls _ _ _ _ _ _, hpublications _ _ _ _ hunlisted hunlisted⟩

/-! ### Chains that are not kept apart -/

section NotApart

variable {α β : Type} {x : Act (Site (Bool → Logged Asked Unit)) α}
  {y : Act (Site (Bool → Logged Asked Unit)) β} {s : Site (Bool → Logged Asked Unit)}

theorem not_eitherOrder_of_log
    (h : ((y.final (x.final s)).outside true).log.length ≠
      ((x.final (y.final s)).outside true).log.length) : ¬ EitherOrder x y s :=
  fun horder => h (by rw [horder.outside])

theorem not_eitherOrder_of_ended
    (h : (y.outcome (x.final s)).1.toBool ≠ (y.outcome s).1.toBool) : ¬ EitherOrder x y s :=
  fun horder => h (by rw [horder.second])

end NotApart

/-- Two chain ids whose files have one name: the cache is that of the last chain. -/
theorem not_eitherOrder_oneFile :
    ¬ EitherOrder (installOf oneFile (Path.ofText "cache") false false)
      (installOf oneFile (Path.ofText "cache") false true) (unasked {}) := by
  intro h
  have hplace := h.files (cacheHome.child (Cache.fileName accented))
  have hfirst : ((installOf oneFile (Path.ofText "cache") false true).final
      ((installOf oneFile (Path.ofText "cache") false false).final (unasked {}))).files.entry?
        (cacheHome.child (Cache.fileName accented)) =
      some (.file (kernelCache "andr1other").content) := rfl
  have hsecond : ((installOf oneFile (Path.ofText "cache") false false).final
      ((installOf oneFile (Path.ofText "cache") false true).final (unasked {}))).files.entry?
        (cacheHome.child (Cache.fileName accented)) =
      some (.file (kernelCache "andr1kernel").content) := rfl
  rw [hfirst, hsecond] at hplace
  exact absurd hplace (by decide +kernel)

/-- A directory of caches with a file for the second chain that is no text. -/
def unreadableSecond : FileTree where
  entries := [(cacheHome, .directory),
    (cacheHome.child (Cache.fileName (twoIds true)), .file [0xFF])]

/-- A directory that is missing and left again on the way to the caches: once the first chain has
made it, the second finds its file, and is not asked. -/
theorem not_eitherOrder_upwards :
    ¬ EitherOrder (installOf twoIds (Path.ofText "missing/../cache") true false)
      (installOf twoIds (Path.ofText "missing/../cache") true true) (unasked unreadableSecond) :=
  not_eitherOrder_of_log (by decide +kernel)

/-- Two chain ids, the second with a file whose name is too long. -/
def oneTooLong (side : Bool) : Text := if side then List.replicate 256 120 else "galileo-4"

/-- A name that is too long in a directory that is missing: once the first chain has made that, the
second is refused before it asks anything. -/
theorem not_eitherOrder_tooLong :
    ¬ EitherOrder (installOf oneTooLong (Path.ofText "cache") true false)
      (installOf oneTooLong (Path.ofText "cache") true true) (unasked {}) :=
  not_eitherOrder_of_log (by decide +kernel)

/-- A directory of caches among the contracts that has the name of one: once the first chain has
made it, the second stores it. -/
theorem not_eitherOrder_listed :
    ¬ EitherOrder
      (publicationOf twoIds (Path.ofText "contracts/cache.wasm") (Path.ofText "contracts") false)
      (publicationOf twoIds (Path.ofText "contracts/cache.wasm") (Path.ofText "contracts") true)
      (unasked (contractsOf [])) :=
  not_eitherOrder_of_log (by decide +kernel)

/-- Contracts whose path leads through the directory of caches, which is missing: once the first
chain has made it, the second finds an application. -/
theorem not_eitherOrder_through :
    ¬ EitherOrder
      (publicationOf twoIds (Path.ofText "cache") (Path.ofText "cache/../contracts") false)
      (publicationOf twoIds (Path.ofText "cache") (Path.ofText "cache/../contracts") true)
      (unasked oneContract) :=
  not_eitherOrder_of_log (by decide +kernel)

/-- Contracts whose path goes on from there with a name that is too long: once the first chain has
made the directory, the second fails. -/
theorem not_eitherOrder_beyond :
    ¬ EitherOrder
      (publicationOf twoIds (Path.ofText "cache") ⟨[], ["cache", List.replicate 256 120]⟩ false)
      (publicationOf twoIds (Path.ofText "cache") ⟨[], ["cache", List.replicate 256 120]⟩ true)
      (unasked {}) :=
  not_eitherOrder_of_ended (by decide +kernel)

/-- Different chain ids without slashes are not enough for either order to do the same: their files
may have one name, and a directory of caches that is missing may change what is found through it. -/
theorem bootstraps_not_commute :
    (oneFile false ≠ oneFile true ∧ (∀ i, 47 ∉ oneFile i) ∧
        ¬ EitherOrder (installOf oneFile (Path.ofText "cache") false false)
          (installOf oneFile (Path.ofText "cache") false true) (unasked {})) ∧
      (oneTooLong false ≠ oneTooLong true ∧ (∀ i, 47 ∉ oneTooLong i) ∧
        ¬ EitherOrder (installOf oneTooLong (Path.ofText "cache") true false)
          (installOf oneTooLong (Path.ofText "cache") true true) (unasked {})) ∧
      twoIds false ≠ twoIds true ∧ (∀ i, 47 ∉ twoIds i) ∧
        ¬ EitherOrder (installOf twoIds (Path.ofText "missing/../cache") true false)
          (installOf twoIds (Path.ofText "missing/../cache") true true)
          (unasked unreadableSecond) ∧
        ¬ EitherOrder
          (publicationOf twoIds (Path.ofText "contracts/cache.wasm") (Path.ofText "contracts")
            false)
          (publicationOf twoIds (Path.ofText "contracts/cache.wasm") (Path.ofText "contracts") true)
          (unasked (contractsOf [])) ∧
        ¬ EitherOrder
          (publicationOf twoIds (Path.ofText "cache") (Path.ofText "cache/../contracts") false)
          (publicationOf twoIds (Path.ofText "cache") (Path.ofText "cache/../contracts") true)
          (unasked oneContract) ∧
        ¬ EitherOrder
          (publicationOf twoIds (Path.ofText "cache") ⟨[], ["cache", List.replicate 256 120]⟩ false)
          (publicationOf twoIds (Path.ofText "cache") ⟨[], ["cache", List.replicate 256 120]⟩ true)
          (unasked {}) :=
  ⟨⟨by decide, by decide, not_eitherOrder_oneFile⟩,
    ⟨by decide, by decide +kernel, not_eitherOrder_tooLong⟩, by decide, by decide,
    not_eitherOrder_upwards, not_eitherOrder_listed, not_eitherOrder_through,
    not_eitherOrder_beyond⟩

end Bootstrap

end CrossChain
