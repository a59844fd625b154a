import CrossChain.Proofs.Bootstrap.AllOrNothing
import CrossChain.Proofs.Cache.Loading

/-!
# Bootstraps over any cache file

Whatever stands where the cache file of a chain should be, a bootstrap that may look there ends at
once, is answered from the cache or installs in full (`setUp_over_any_file`).  It ends at once only
where loading fails: for a path that is too long, for bytes that are no UTF-8, and for a text beyond
the limits of the JSON reader.
-/

namespace CrossChain

namespace Bootstrap

/-- How a bootstrap goes on from what it found in the cache. -/
inductive GoesOn {σ : Type} (client : ChainClient σ) (chainName : Text) (set : ContractSet)
    (d : Path) (s : Site (Logged Asked σ)) :
    Except Failure (Option Cache) → Except Failure (Table Json) × Site (Logged Asked σ) → Prop
  /-- The cache could not be loaded; nothing else was done. -/
  | stopped (e : Failure) : GoesOn client chainName set d s (.error e) (.error e, s)
  /-- The cache has every address; nothing else was done. -/
  | answered (cache : Cache) (complete : Cache.isComplete (some cache) set.names = true) :
    GoesOn client chainName set d s (.ok (some cache))
      (.ok (Table.restrict set.names cache.contracts), s)
  /-- The cache has not every address; the calls of an install were made. -/
  | installed (cache : Option Cache) (calls : List Asked) (ended : Except Failure (Table Json))
    (files : FileTree) (t : σ) (incomplete : Cache.isComplete cache set.names = false)
    (bootstraps : Bootstraps client chainName set (some d) s.files calls ended files) :
    GoesOn client chainName set d s (.ok cache) (ended, ⟨files, ⟨s.outside.log ++ calls, t⟩⟩)

section Lookup

variable [Json.Limits] {σ : Type} (client : ChainClient σ) (chainName : Text) (set : ContractSet)
  (d : Path) (s : Site (Logged Asked σ))

theorem goesOn_setUp {found : Except Failure (Option Cache)}
    (hload : Act.outcome (Cache.load d client.chainId) s.files = (found, s.files)) :
    GoesOn client chainName set d s found
      (Act.outcome (setUp client.noted chainName set.files (some d) true) s) := by
  have hkernel : (Table.get? kernelName set.files).isSome := Table.isSome_get?.2 set.hasKernel
  cases found with
  | error e =>
    have hrun := setUp_of_unreadable client.noted chainName hkernel (Act.run_of_outcome_error hload)
    rw [Act.outcome, hrun]
    exact .stopped e
  | ok cache =>
    have hload := Act.run_of_outcome_ok hload
    cases hcomplete : Cache.isComplete cache set.names with
    | false =>
      have hcold : Cold (some d) true client.chainId set.names s.files := by
        intro d' hd _
        cases hd
        exact ⟨cache, hload, hcomplete⟩
      obtain ⟨calls, ended, files, t, hrun, -, hbootstraps⟩ :=
        deploy_noted client chainName set (some d) s
      rw [Act.outcome] at hrun ⊢
      rw [setUp_of_cold client.noted chainName hkernel hcold, hrun]
      exact .installed cache calls ended files t hcomplete hbootstraps
    | true =>
      cases cache with
      | none => cases hcomplete
      | some cache =>
        rw [Act.outcome, setUp_of_cached client.noted chainName hkernel hload hcomplete]
        exact .answered cache hcomplete

/-- Whatever the files are: what is loaded of a chain id is the cache that an object in its file
says, or no cache; loading fails exactly where the path is too long or the file holds bytes that are
no UTF-8 or a text beyond the limits of the JSON reader.  A bootstrap that may look into the cache
fails with that failure before any call, is answered from the cache, or installs in full. -/
theorem setUp_over_any_file :
    ∃ found, Act.outcome (Cache.load d client.chainId) s.files = (found, s.files) ∧
      Cache.Loads d client.chainId s.files found ∧
      ((∃ e, found = .error e) ↔
        (∃ path, s.files.place (Cache.path d client.chainId) =
          .error (.file (.nameTooLong path))) ∨
        ∃ content, s.files.look (Cache.path d client.chainId) = .ok (some (.file content)) ∧
          Cache.Unreadable content) ∧
      GoesOn client chainName set d s found
        (Act.outcome (setUp client.noted chainName set.files (some d) true) s) := by
  obtain ⟨found, hload, hloads⟩ := Cache.loads d client.chainId s.files
  exact ⟨found, hload, hloads, hloads.error_iff, goesOn_setUp client chainName set d s hload⟩

end Lookup

/-! ## Bytes that are no text -/

/-- A directory of caches with one byte that is no UTF-8 as the file of a chain. -/
def oneByte : FileTree where
  entries := [(Place.here.child (FileName.ofText ".cache"), .directory),
    ((Place.here.child (FileName.ofText ".cache")).child (Cache.fileName "localosmosis-1"),
      .file [0xFF])]

/-- A chain that answers every bootstrap of a kernel. -/
def localOsmosis : ChainClient Unit := { kernelOnly with chainId := "localosmosis-1" }

/-- A file of one byte that is no UTF-8 is not taken for no cache: loading it fails, and so does a
bootstrap, which asks the chain nothing. -/
theorem setUp_fails_on_oneByte :
    Cache.load (Path.ofText ".cache") "localosmosis-1" oneByte =
        .error (.value (.utf8 ⟨0, 1, 0xFF, .invalidStart⟩)) oneByte ∧
      setUp localOsmosis.noted "osmosis" [(kernelName, Path.ofText "kernel.wasm")]
          (some (Path.ofText ".cache")) true ⟨oneByte, ⟨[], ()⟩⟩ =
        .error (.value (.utf8 ⟨0, 1, 0xFF, .invalidStart⟩)) ⟨oneByte, ⟨[], ()⟩⟩ :=
  ⟨rfl, rfl⟩

end Bootstrap

end CrossChain
