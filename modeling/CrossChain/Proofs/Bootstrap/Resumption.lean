import CrossChain.Proofs.Bootstrap.Idempotence
import CrossChain.Proofs.Cache.Sharing

/-!
# Bootstraps beside each other

What a bootstrap left in the cache of its chain is still there after any bootstrap of another chain
with the same contracts, however that one ends (`Remembers.setUp`): the other chain writes another
file, or it would have found its own addresses in this one.
-/

namespace CrossChain

namespace Bootstrap

variable [Json.Limits]

/-- The cache that is loaded of a chain id has an address for every name. -/
structure Remembers (files : FileTree) (d : Path) (chainId : Text) (names : List Text)
    (cache : Cache) : Prop where
  load : Cache.load d chainId files = .ok (some cache) files
  complete : Cache.isComplete (some cache) names = true

/-- Addresses that a cache gives back as they are: none is empty, and no name and no text among them
has a surrogate pair. -/
structure Lasting (addresses : Table Json) : Prop where
  full : ∀ p ∈ addresses, p.2.isEmpty = false
  names : ∀ p ∈ addresses, p.1.Unpaired
  texts : ∀ p ∈ addresses, ∀ s, p.2 = .str s → s.Unpaired

theorem kernel_of_setUp {σ : Type} {client : ChainClient σ} {chainName : Text}
    {contracts : Table Path} {directory : Option Path} {useCache : Bool} {s t : Site σ}
    {addresses : Table Json}
    (h : setUp client chainName contracts directory useCache s = .ok addresses t) :
    kernelName ∈ Table.names contracts := by
  cases hkernel : Table.get? kernelName contracts with
  | none =>
    rw [setUp, hkernel] at h
    cases h
  | some file => exact Table.isSome_get?.1 (Option.isSome_iff_exists.2 ⟨file, hkernel⟩)

section Remembers

variable {σ : Type} {client : ChainClient σ} {chainName : Text} {set : ContractSet} {d : Path}
  {chainId : Text} {cache : Cache} {addresses : Table Json} {s t : Site σ}

/-- A bootstrap of a chain that is remembered is answered from the cache. -/
theorem Remembers.setUp_run (h : Remembers s.files d client.chainId set.names cache) :
    setUp client chainName set.files (some d) true s =
      .ok (Table.restrict set.names cache.contracts) s :=
  setUp_of_cached client chainName (Table.isSome_get?.2 set.hasKernel) h.load h.complete

/-- The outside world moves in a bootstrap as it moves in an install. -/
theorem outsideMoves_setUp {R : σ → σ → Prop} [Std.Refl R] {useCache : Bool}
    (hinstall : Act.Within R (install client chainName set.files)) :
    Act.Within (OutsideMoves R) (setUp client chainName set.files (some d) useCache) := by
  intro s
  rcases setUp_ways client chainName set useCache s with
    ⟨e, hrun⟩ | ⟨cache', -, -, -, hrun⟩ | ⟨-, hrun⟩
  · rw [Act.final_error hrun]
    exact Std.Refl.refl s
  · rw [Act.final_ok hrun]
    exact Std.Refl.refl s
  · rw [Act.final, Act.outcome, hrun, ← Act.outcome]
    cases hmade : install client chainName set.files s.outside with
    | error e o =>
      obtain ⟨e', hdeploy⟩ := deploy_of_failed client chainName set.files (some d) hmade
      rw [Act.outcome, hdeploy]
      exact hinstall.error hmade
    | ok made o =>
      rw [deploy_of_ok client chainName set.files (some d) hmade]
      exact hinstall.ok hmade

/-- A chain that is remembered is remembered as before after a bootstrap of any chain. -/
theorem Remembers.setUp (h : Remembers s.files d chainId set.names cache) (hid : 47 ∉ chainId)
    (hother : 47 ∉ client.chainId) :
    Remembers (Act.final (setUp client chainName set.files (some d) true) s).files d chainId
      set.names cache := by
  obtain ⟨content, hlook, hcontent⟩ := Cache.look_of_load h.load
  refine ⟨Cache.load_of_look ?_ hcontent, h.complete⟩
  rcases setUp_ways client chainName set true s with
    ⟨e, hrun⟩ | ⟨cache', -, -, -, hrun⟩ | ⟨hcold, hrun⟩
  · rwa [Act.final_error hrun]
  · rwa [Act.final_ok hrun]
  · rw [Act.final, Act.outcome, hrun, ← Act.outcome]
    cases hinstall : install client chainName set.files s.outside with
    | error e o =>
      obtain ⟨e', hdeploy⟩ := deploy_of_failed client chainName set.files (some d) hinstall
      rwa [Act.outcome, hdeploy]
    | ok made o =>
      rw [deploy_of_ok client chainName set.files (some d) hinstall]
      show FileTree.look ((keep _ _ _ _).final s.files) _ = _
      rw [final_keep]
      rcases Cache.look_save hid hother ⟨made, [], .str client.sender⟩ hlook with hkept | hsame
      · exact hkept
      · -- With one file for both chains, the bootstrap would have been answered from it.
        obtain ⟨found, hload, hincomplete⟩ := hcold d rfl rfl
        cases hload.symm.trans (Cache.load_of_look hsame hcontent)
        cases h.complete.symm.trans hincomplete

/-- A chain is remembered after a bootstrap of it, with the addresses that the bootstrap gave. -/
theorem remembers_of_setUp (hid : 47 ∉ client.chainId) (hlasting : Lasting addresses)
    (h : setUp client chainName set.files (some d) true s = .ok addresses t) :
    (Table.names addresses).Perm set.names ∧
      ∃ cache, Remembers t.files d client.chainId set.names cache ∧
        ∀ name ∈ set.names, Table.get? name cache.contracts = Table.get? name addresses := by
  rcases setUp_ways client chainName set true s with
    ⟨e, hrun⟩ | ⟨cache, -, hload, hcomplete, hrun⟩ | ⟨hcold, hrun⟩
  · cases hrun.symm.trans h
  · cases hrun.symm.trans h
    have hnames := Cache.mem_names_of_isComplete hcomplete
    refine ⟨by rw [Table.names_restrict hnames], cache, ⟨hload, hcomplete⟩, fun name hname => ?_⟩
    exact (Table.get?_restrict hname (hnames name hname)).symm
  · obtain ⟨o, p, hinstall, -⟩ := deploy_eq_ok (hrun.symm.trans h)
    have hplain : PlainAddresses addresses := by
      intro q hq
      obtain ⟨a, ha⟩ := texts_of_install hinstall q hq
      exact ⟨hlasting.names q hq, a, ha, hlasting.texts q hq a ha⟩
    obtain ⟨hnames, hstorable, home, hkeeps⟩ := keeps_of_setUp hid hcold hplain h
    obtain ⟨cache, -, rfl, hload⟩ := hkeeps.load hid hstorable
    refine ⟨hnames, cache, ⟨hload, ?_⟩, fun name _ => rfl⟩
    exact Cache.isComplete_of_full hlasting.full fun name hname => hnames.mem_iff.2 hname

end Remembers

end Bootstrap

end CrossChain
