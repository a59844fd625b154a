import CrossChain.Proofs.Bootstrap.Faithful
import CrossChain.Proofs.Bootstrap.Idempotence
import Mathlib.Data.Bool.Basic
import Mathlib.Data.List.Sort

/-!
# Checks after bootstraps

The checks of the addresses pass on an endpoint whose kernel knows them (`checkAddresses_ok`), and
those of two endpoints pass when both have contracts of the same names (`checkConsistency_ok`).  So
they pass after any operations on chains with files of their own, whichever bootstrap the addresses
came from and whatever failed on the way (`checks_performAll`); of two chains with one file the
second may find the addresses of the first, and the checks fail.
-/

namespace CrossChain

open Bootstrap

/-! ## Names in order -/

namespace Text

theorem le_total (s t : Text) : (s.le t || t.le s) = true := by
  induction s generalizing t with
  | nil => rfl
  | cons a s ih =>
    cases t with
    | nil => rfl
    | cons b t =>
      by_cases h : a = b
      · subst h
        simpa only [le, if_true] using ih t
      · have hne : a.val ≠ b.val := fun hval => h (Fin.ext hval)
        simp only [le, if_neg h, if_neg (Ne.symm h), Bool.or_eq_true, decide_eq_true_eq]
        omega

theorem le_antisymm {s t : Text} (h : s.le t = true) (h' : t.le s = true) : s = t := by
  induction s generalizing t with
  | nil =>
    cases t with
    | nil => rfl
    | cons b t => cases h'
  | cons a s ih =>
    cases t with
    | nil => cases h
    | cons b t =>
      by_cases hab : a = b
      · subst hab
        simp only [le, if_true] at h h'
        rw [ih h h']
      · simp only [le, if_neg hab, if_neg (Ne.symm hab), decide_eq_true_eq] at h h'
        omega

theorem le_trans (s t u : Text) (h : s.le t = true) (h' : t.le u = true) : s.le u = true := by
  induction s generalizing t u with
  | nil => rfl
  | cons a s ih =>
    cases t with
    | nil => cases h
    | cons b t =>
      cases u with
      | nil => cases h'
      | cons c u =>
        rw [le] at h h' ⊢
        by_cases hab : a = b
        · subst hab
          by_cases hac : a = c
          · subst hac
            simp only [if_true] at h h' ⊢
            exact ih t u h h'
          · simpa only [if_neg hac] using h'
        · simp only [if_neg hab, decide_eq_true_eq] at h
          by_cases hbc : b = c
          · subst hbc
            simpa only [if_neg hab, decide_eq_true_eq] using h
          · simp only [if_neg hbc, decide_eq_true_eq] at h'
            have hac : a ≠ c := by
              rintro rfl
              omega
            simp only [if_neg hac, decide_eq_true_eq]
            omega

theorem mergeSort_eq_of_perm {l m : List Text} (h : l.Perm m) :
    l.mergeSort le = m.mergeSort le := by
  have hperm : (l.mergeSort le).Perm (m.mergeSort le) :=
    (List.mergeSort_perm l le).trans (h.trans (List.mergeSort_perm m le).symm)
  exact hperm.eq_of_pairwise (fun _ _ _ _ => le_antisymm)
    (List.pairwise_mergeSort le_trans le_total l) (List.pairwise_mergeSort le_trans le_total m)

end Text

/-! ## Checks of one endpoint -/

section Checks

variable {ι σ : Type} {view : ChainView σ} {e : Endpoint σ} {m : Table Json} {s : σ}

/-- Checks contracts against what a kernel knows. -/
def Endpoint.checkEach (e : Endpoint σ) (kernel : Contract) (contracts : Table Contract) :
    Act σ Unit :=
  contracts.forM fun (name, contract) => do
    if name != kernelName then
      let registered ← kernel.query e.client (.keyAddress name)
      if !registered.equals contract.address then
        throw (.mismatch (.keyAddress e.name name registered contract.address))

theorem checkEach_ok (hserves : view.Serves e.client) {kernel : Contract}
    {contracts : Table Contract}
    (h : ∀ p ∈ contracts, p.1 ≠ kernelName → ∃ k a, kernel.address = .str k ∧ view.Taken s k ∧
      p.2.address = .str a ∧ view.registered s k p.1 = some a) :
    ∃ t, e.checkEach kernel contracts s = .ok () t := by
  induction contracts generalizing s with
  | nil => exact ⟨s, rfl⟩
  | cons p contracts ih =>
    obtain ⟨hp, hrest⟩ := List.forall_mem_cons.1 h
    by_cases hname : p.1 = kernelName
    · obtain ⟨t, ht⟩ := ih hrest
      refine ⟨t, (Act.bind_run_ok (a := ()) (t := s) ?_).trans ht⟩
      simp [hname]
    · obtain ⟨k, a, hk, -, ha, hknown⟩ := hp hname
      obtain ⟨u, hanswer⟩ := hserves.answers hknown
      -- The kernel is asked and answers with the address, and then it still knows the others.
      have hext := (hserves.within (asking k p.1) id).ok hanswer
      have hrest' : ∀ q ∈ contracts, q.1 ≠ kernelName → ∃ k a, kernel.address = .str k ∧
          view.Taken u k ∧ q.2.address = .str a ∧ view.registered u k q.1 = some a := by
        intro q hq hne
        obtain ⟨k', a', hk', htaken, ha', hknown'⟩ := hrest q hq hne
        exact ⟨k', a', hk', hext.taken k' htaken, ha',
          (congrFun (hext.registered k' htaken) q.1).trans hknown'⟩
      obtain ⟨t, ht⟩ := ih hrest'
      have hquery : kernel.query e.client (.keyAddress p.1) s = .ok (.str a) u := by
        rw [Contract.query, hk]
        exact hanswer
      have hequal : (Json.str a).equals p.2.address = true := by
        rw [ha]
        simp [Json.equals, Json.agrees]
      refine ⟨t, (Act.bind_run_ok (a := ()) (t := u) ?_).trans ht⟩
      have hne : (p.1 != kernelName) = true := by simpa using hname
      simp only [hne, if_true]
      rw [Act.bind_run_ok hquery, hequal]
      rfl

theorem within_checkEach {R : σ → σ → Prop} [Std.Refl R] [IsTrans σ R]
    (h : ∀ address message, Act.Within R (e.client.query address message)) (kernel : Contract)
    (contracts : Table Contract) : Act.Within R (e.checkEach kernel contracts) := by
  refine Act.within_forM (fun p => ?_) contracts
  by_cases hname : (p.1 != kernelName) = true
  · simp only [hname, if_true]
    refine (h _ _).bind fun registered => ?_
    split
    · exact Act.within_throw _
    · exact Act.within_pure _
  · simp only [hname]
    exact Act.within_pure _

/-- The checks of two endpoints stay in a relation that queries of both stay in. -/
theorem within_checkConsistency {R : σ → σ → Prop} [Std.Refl R] [IsTrans σ R] {e' : Endpoint σ}
    (h : ∀ address message, Act.Within R (e.client.query address message))
    (h' : ∀ address message, Act.Within R (e'.client.query address message)) :
    Act.Within R (e.checkConsistency e') := by
  have hcheck : Act.Within R (do e.checkAddresses; e'.checkAddresses) :=
    ((Act.within_ofExcept _).bind fun kernel => within_checkEach h kernel _).bind fun _ =>
      (Act.within_ofExcept _).bind fun kernel => within_checkEach h' kernel _
  rw [Endpoint.checkConsistency]
  split
  · exact (Act.within_throw _).bind fun _ => hcheck
  · exact hcheck

theorem contracts_withAddresses (hempty : e.contracts = []) (hnames : (Table.names m).Nodup) :
    (e.withAddresses m).contracts = m.map fun p => (p.1, ⟨p.2⟩) := by
  show Table.insertAll e.contracts _ = _
  rw [hempty]
  exact Table.ofPairs_of_nodup (by rwa [Table.names_mapValues])

theorem sortedNames_withAddresses (hempty : e.contracts = []) (hnames : (Table.names m).Nodup) :
    (e.withAddresses m).sortedNames = (Table.names m).mergeSort Text.le := by
  have hsame : Table.names (e.withAddresses m).contracts = Table.names m := by
    rw [contracts_withAddresses hempty hnames, Table.names_mapValues]
  exact congrArg (List.mergeSort · Text.le) hsame

/-- Checking an endpoint that was given addresses is asking the kernel among them for each. -/
theorem checkAddresses_withAddresses (hempty : e.contracts = []) (hnames : (Table.names m).Nodup)
    (hkernel : kernelName ∈ Table.names m) :
    ∃ address, Table.get? kernelName m = some address ∧
      (e.withAddresses m).checkAddresses =
        (e.withAddresses m).checkEach ⟨address⟩ (m.map fun p => (p.1, ⟨p.2⟩)) := by
  obtain ⟨address, haddress⟩ := Option.isSome_iff_exists.1 (Table.isSome_get?.2 hkernel)
  have hnames' : (Table.names (m.map fun p => (p.1, Contract.mk p.2))).Nodup := by
    rwa [Table.names_mapValues]
  have hget : Table.get? kernelName (m.map fun p => (p.1, Contract.mk p.2)) = some ⟨address⟩ :=
    Table.get?_of_mem hnames' (List.mem_map_of_mem (Table.mem_of_get? haddress))
  have hcontract : (e.withAddresses m).kernel = .ok ⟨address⟩ := by
    rw [Endpoint.kernel, Endpoint.contract, contracts_withAddresses hempty hnames, hget]
  refine ⟨address, haddress, ?_⟩
  rw [Endpoint.checkAddresses, hcontract, contracts_withAddresses hempty hnames]
  rfl

theorem checkAddresses_ok (hserves : view.Serves e.client) (hempty : e.contracts = [])
    (hnames : (Table.names m).Nodup) (hkernel : kernelName ∈ Table.names m)
    (hknows : view.Knows s m) : ∃ t, (e.withAddresses m).checkAddresses s = .ok () t := by
  obtain ⟨address, haddress, hcheck⟩ := checkAddresses_withAddresses hempty hnames hkernel
  rw [hcheck]
  refine checkEach_ok (e := e.withAddresses m) hserves fun q hq hne => ?_
  obtain ⟨p, hp, rfl⟩ := List.mem_map.1 hq
  obtain ⟨k, a, hk, htaken, ha, hknown⟩ := hknows p hp hne
  rw [haddress] at hk
  exact ⟨k, a, Option.some.inj hk, htaken, ha, hknown⟩

/-- The checks of two endpoints pass if they have contracts of the same names and each kernel knows
those of its own. -/
theorem checkConsistency_ok {views : ι → ChainView σ} {i j : ι} {e' : Endpoint σ} {m' : Table Json}
    (hosts : Hosts views i e.client) (hosts' : Hosts views j e'.client)
    (hempty : e.contracts = []) (hempty' : e'.contracts = [])
    (hnames : (Table.names m).Nodup) (hsame : (Table.names m).Perm (Table.names m'))
    (hkernel : kernelName ∈ Table.names m) (hknows : (views i).Knows s m)
    (hknows' : (views j).Knows s m') :
    ∃ t, (e.withAddresses m).checkConsistency (e'.withAddresses m') s = .ok () t := by
  have hnames' : (Table.names m').Nodup := hsame.nodup_iff.1 hnames
  have hsorted : (e.withAddresses m).sortedNames = (e'.withAddresses m').sortedNames := by
    rw [sortedNames_withAddresses hempty hnames, sortedNames_withAddresses hempty' hnames',
      Text.mergeSort_eq_of_perm hsame]
  obtain ⟨t, ht⟩ := checkAddresses_ok hosts.serves hempty hnames hkernel hknows
  -- Checking the first endpoint leaves what the other kernel knows.
  have hext : (views j).Extends s t := by
    obtain ⟨address, -, hcheck⟩ := checkAddresses_withAddresses (e := e) hempty hnames hkernel
    rw [hcheck] at ht
    have hquery : ∀ address message, Act.Within (views j).Extends
        ((e.withAddresses m).client.query address message) := fun address message =>
      hosts.within (.query address message) id j
    exact (within_checkEach hquery _ _).ok ht
  obtain ⟨u, hu⟩ := checkAddresses_ok hosts'.serves hempty' hnames' (hsame.mem_iff.1 hkernel)
    (hknows'.mono hext)
  refine ⟨u, ?_⟩
  rw [Endpoint.checkConsistency, hsorted, bne_self_eq_false]
  exact (Act.bind_run_ok ht).trans hu

end Checks

/-! ## Checks after operations -/

section Run

variable {ι σ : Type} {views : ι → ChainView σ} {d : Path}

/-- An endpoint of a chain that knew no contracts, and the addresses that one of several operations,
a bootstrap of that chain, gave for the contracts of a set. -/
structure Deployed (views : ι → ChainView σ) (xs : List (Performed σ)) (i : ι) (e : Endpoint σ)
    (set : ContractSet) (m : Table Json) : Prop where
  hosts : Hosts views i e.client
  empty : e.contracts = []
  given : ∃ client chainName useCache, client.chainId = (views i).chainId ∧
    ⟨.setUp client chainName set useCache, .ok m⟩ ∈ xs

/-- From no caches on, after any operations on chains with files of their own, however each of them
ended, the checks pass on every endpoint that is given the addresses of a bootstrap of its chain,
and on every two of them that are given addresses for the same names. -/
theorem checks_performAll [Json.Limits] (hown : OwnFiles views d) (ops : List (Operation σ))
    (s : Site σ)
    (hempty : ∀ i content,
      s.files.entry? (Cache.path d (views i).chainId).target ≠ some (.file content))
    (hops : ∀ op ∈ ops, ∃ i, op.On views i) (hcodes : ∀ x ∈ (performAll d ops s).1, x.PlainIds) :
    (∀ i e set m, Deployed views (performAll d ops s).1 i e set m →
      ∃ o, (e.withAddresses m).checkAddresses (performAll d ops s).2.outside = .ok () o) ∧
    ∀ i j e e' set set' m m', Deployed views (performAll d ops s).1 i e set m →
      Deployed views (performAll d ops s).1 j e' set' m' →
      (∀ name, name ∈ set.names ↔ name ∈ set'.names) →
      ∃ o, (e.withAddresses m).checkConsistency (e'.withAddresses m')
        (performAll d ops s).2.outside = .ok () o := by
  have hfaithful : ∀ j, (views j).Faithful d s := fun j content h => absurd h (hempty j content)
  obtain ⟨-, hknown⟩ := known_performAll hown ops hops hcodes hfaithful
  have hdeployed : ∀ {i e set m}, Deployed views (performAll d ops s).1 i e set m →
      (Table.names m).Perm set.names ∧ (views i).Knows (performAll d ops s).2.outside m := by
    rintro i e set m ⟨-, -, client, chainName, useCache, hid, hgiven⟩
    obtain ⟨hnames, hknows⟩ := hknown _ hgiven
    exact ⟨hnames, hknows i hid⟩
  constructor
  · intro i e set m h
    obtain ⟨hnames, hknows⟩ := hdeployed h
    exact checkAddresses_ok h.hosts.serves h.empty (hnames.nodup_iff.2 set.nodup)
      (hnames.mem_iff.2 set.hasKernel) hknows
  · intro i j e e' set set' m m' h h' hsame
    obtain ⟨hnames, hknows⟩ := hdeployed h
    obtain ⟨hnames', hknows'⟩ := hdeployed h'
    have hsets : set.names.Perm set'.names :=
      (List.perm_ext_iff_of_nodup set.nodup set'.nodup).2 hsame
    exact checkConsistency_ok h.hosts h'.hosts h.empty h'.empty (hnames.nodup_iff.2 set.nodup)
      (hnames.trans (hsets.trans hnames'.symm)) (hnames.mem_iff.2 set.hasKernel) hknows hknows'

end Run

/-! ## Runs of two chains -/

section Books

variable (ids : Bool → Text)

/-- Two chains with books. -/
def bookViews (i : Bool) : ChainView (Bool → Book) := (Book.view (ids i)).part i

/-- Their clients. -/
def bookClients (i : Bool) : ChainClient (Bool → Book) := (Book.client (ids i)).part i

theorem hosts_books (i : Bool) : Hosts (bookViews ids) i (bookClients ids i) :=
  hosts_part (fun j => Book.view (ids j)) (Book.serves (ids i))

/-- No caches, and no contracts on either chain. -/
def noBooks : Site (Bool → Book) := ⟨noCaches, fun _ => {}⟩

/-- The kernel and the registry are installed on the one chain, then on the other, if the caches do
not have them. -/
def bothInstalls : List (Operation (Bool → Book)) :=
  [.setUp (bookClients ids false) "andromeda" kernelAndRegistry true,
    .setUp (bookClients ids true) "andromeda" kernelAndRegistry true]

/-- An endpoint of one of the chains. -/
def bookEndpoint (i : Bool) : Endpoint (Bool → Book) where
  name := "osmo-a"
  definition := Settings.localChain (fun _ => none) "localhost" "a" (ids i) "A" "1" "2"
  client := bookClients ids i

/-- The addresses of the first contracts of a chain. -/
def firstAddresses : Table Json := [(kernelName, .str "andr1"), (registryName, .str "andr1q")]

theorem on_bothInstalls : ∀ op ∈ bothInstalls ids, ∃ i, op.On (bookViews ids) i := by
  have hset : ∀ name ∈ kernelAndRegistry.names, name.Unpaired :=
    List.forall_mem_cons.2 ⟨by decide, List.forall_mem_singleton.2 (by decide)⟩
  exact List.forall_mem_cons.2 ⟨⟨false, hosts_books ids false, hset⟩,
    List.forall_mem_singleton.2 ⟨true, hosts_books ids true, hset⟩⟩

variable {ids}

theorem noCaches_books (hids : ∀ i, 47 ∉ ids i) (i : Bool) (content : List UInt8) :
    noBooks.files.entry? (Cache.path (Path.ofText "cache") (bookViews ids i).chainId).target ≠
      some (.file content) := by
  have hplace : (Cache.path (Path.ofText "cache") (bookViews ids i).chainId).target =
      cacheHome.child (Cache.fileName (ids i)) := Cache.target_path (hids i)
  rw [hplace, noBooks, entry?_noCaches]
  exact nofun

end Books

/-- The ids of two chains. -/
def twoIds (i : Bool) : Text := if i then "elgafar-1" else "galileo-4"

theorem performed_twoIds :
    (performAll (Path.ofText "cache") (bothInstalls twoIds) noBooks).1 =
      [⟨.setUp (bookClients twoIds false) "andromeda" kernelAndRegistry true, .ok firstAddresses⟩,
        ⟨.setUp (bookClients twoIds true) "andromeda" kernelAndRegistry true,
          .ok firstAddresses⟩] := rfl

/-- After both installs the checks of the two chains pass. -/
theorem checks_performAll_twoChains :
    ∃ o, ((bookEndpoint twoIds false).withAddresses firstAddresses).checkConsistency
      ((bookEndpoint twoIds true).withAddresses firstAddresses)
      (performAll (Path.ofText "cache") (bothInstalls twoIds) noBooks).2.outside =
        .ok () o := by
  have hids : ∀ i, 47 ∉ twoIds i := by decide
  have hscalars : ∀ i, ∀ c ∈ twoIds i, c.isSurrogate = false := by
    have hall : ∀ i, (twoIds i).all (fun c => !c.isSurrogate) = true := by decide
    exact fun i c hc => by simpa using List.all_eq_true.1 (hall i) c hc
  have hown : OwnFiles (bookViews twoIds) (Path.ofText "cache") := by
    have hdistinct : twoIds false ≠ twoIds true := by decide
    exact ownFiles_of_ids hids hscalars (Bool.injective_iff.2 hdistinct) _
  have hcodes : ∀ x ∈ (performAll (Path.ofText "cache") (bothInstalls twoIds)
      noBooks).1, x.PlainIds := by
    rw [performed_twoIds]
    exact List.forall_mem_cons.2 ⟨trivial, List.forall_mem_singleton.2 trivial⟩
  have hdeployed : ∀ i, Deployed (bookViews twoIds) (performAll (Path.ofText "cache")
      (bothInstalls twoIds) noBooks).1 i (bookEndpoint twoIds i) kernelAndRegistry
      firstAddresses := by
    intro i
    refine ⟨hosts_books twoIds i, rfl, bookClients twoIds i, "andromeda", true, rfl, ?_⟩
    rw [performed_twoIds]
    cases i
    · exact List.mem_cons_self
    · exact List.mem_cons_of_mem _ List.mem_cons_self
  exact (checks_performAll hown (bothInstalls twoIds) noBooks (noCaches_books hids)
    (on_bothInstalls twoIds) hcodes).2 false true _ _ _ _ _ _ (hdeployed false) (hdeployed true)
    fun _ => Iff.rfl

/-- The ids of two chains that keep their caches in one file. -/
def oneFile (i : Bool) : Text := if i then bytewise else accented

/-- The site after the install on the first of them. -/
def afterFirst : Site (Bool → Book) :=
  ((setUp (bookClients oneFile false) "andromeda" kernelAndRegistry.files
    (some (Path.ofText "cache")) true).outcome noBooks).2

theorem setUp_first :
    setUp (bookClients oneFile false) "andromeda" kernelAndRegistry.files
      (some (Path.ofText "cache")) true noBooks = .ok firstAddresses afterFirst := rfl

theorem cold_first : Cold (some (Path.ofText "cache")) true (bookClients oneFile false).chainId
    kernelAndRegistry.names noBooks.files := by
  intro d hd _
  cases hd
  exact ⟨none, rfl, rfl⟩

theorem plain_firstAddresses : PlainAddresses firstAddresses :=
  List.forall_mem_cons.2 ⟨⟨by decide, "andr1", rfl, by decide⟩,
    List.forall_mem_singleton.2 ⟨by decide, "andr1q", rfl, by decide⟩⟩

/-- The second chain finds the addresses of the first. -/
theorem setUp_second :
    setUp (bookClients oneFile true) "andromeda" kernelAndRegistry.files
        (some (Path.ofText "cache")) true afterFirst = .ok firstAddresses afterFirst := by
  have hid : 47 ∉ (bookClients oneFile false).chainId := by decide
  obtain ⟨-, -, home, hkeeps⟩ := keeps_of_setUp hid cold_first plain_firstAddresses setUp_first
  have hfile : Cache.fileName (bookClients oneFile false).chainId =
      Cache.fileName (bookClients oneFile true).chainId := by decide
  rw [hfile] at hkeeps
  have hstorable : Cache.Storable (Path.ofText "cache") (bookClients oneFile true).chainId :=
    ⟨by decide, by decide⟩
  have hid' : 47 ∉ (bookClients oneFile true).chainId := by decide
  obtain ⟨c, -, hcontracts, hload⟩ := hkeeps.load hid' hstorable
  have hcomplete : Cache.isComplete (some c) (Table.names kernelAndRegistry.files) = true := by
    rw [Cache.isComplete, hcontracts]
    rfl
  have hfound := setUp_of_cached (bookClients oneFile true) "andromeda" rfl hload hcomplete
  rw [hcontracts] at hfound
  exact hfound

theorem performAll_oneFile :
    performAll (Path.ofText "cache") (bothInstalls oneFile) noBooks =
      ([⟨.setUp (bookClients oneFile false) "andromeda" kernelAndRegistry true,
          .ok firstAddresses⟩,
        ⟨.setUp (bookClients oneFile true) "andromeda" kernelAndRegistry true,
          .ok firstAddresses⟩], afterFirst) := by
  simp only [bothInstalls, performAll, Operation.perform, Act.outcome, setUp_first, setUp_second]

/-- Of two chains whose ids have no slash and give one file name the second finds the addresses of
the first, which its own kernels do not know. -/
theorem not_checkConsistency_of_oneFile :
    oneFile false ≠ oneFile true ∧ (∀ i, 47 ∉ oneFile i) ∧
      (∀ i content, noBooks.files.entry?
        (Cache.path (Path.ofText "cache") (bookViews oneFile i).chainId).target ≠
          some (.file content)) ∧
      (∀ op ∈ bothInstalls oneFile, ∃ i, op.On (bookViews oneFile) i) ∧
      (∀ i, Deployed (bookViews oneFile)
        (performAll (Path.ofText "cache") (bothInstalls oneFile) noBooks).1 i
        (bookEndpoint oneFile i) kernelAndRegistry firstAddresses) ∧
      ¬ ∃ o, ((bookEndpoint oneFile false).withAddresses firstAddresses).checkConsistency
        ((bookEndpoint oneFile true).withAddresses firstAddresses)
        (performAll (Path.ofText "cache") (bothInstalls oneFile) noBooks).2.outside =
          .ok () o := by
  rw [performAll_oneFile]
  refine ⟨by decide, by decide, noCaches_books (by decide), on_bothInstalls oneFile, fun i => ?_,
    ?_⟩
  · refine ⟨hosts_books oneFile i, rfl, bookClients oneFile i, "andromeda", true, rfl, ?_⟩
    cases i
    · exact List.mem_cons_self
    · exact List.mem_cons_of_mem _ List.mem_cons_self
  · rintro ⟨o, hpassed⟩
    have hfirst : ((bookEndpoint oneFile false).withAddresses firstAddresses).checkAddresses
        afterFirst.outside = .ok () (Function.update afterFirst.outside false
          (afterFirst.outside false)) := rfl
    rw [Function.update_eq_self] at hfirst
    have hsecond : ((bookEndpoint oneFile true).withAddresses firstAddresses).checkAddresses
        afterFirst.outside = .error (.contract (.str "andr1") "unknown")
          (Function.update afterFirst.outside true (afterFirst.outside true)) := rfl
    have hsorted : ((bookEndpoint oneFile false).withAddresses firstAddresses).sortedNames =
        ((bookEndpoint oneFile true).withAddresses firstAddresses).sortedNames := rfl
    rw [Endpoint.checkConsistency, hsorted, bne_self_eq_false] at hpassed
    have hrest := (Act.bind_run_ok hfirst).symm.trans hpassed
    rw [hsecond] at hrest
    cases hrest

end CrossChain
