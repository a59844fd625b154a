import CrossChain.Proofs.Bootstrap.Refinement
import CrossChain.Proofs.Bootstrap.Registration

/-!
# Caches that agree with their chains

A cache is faithful to its chain when the kernel that it has knows all other addresses that it has.
Operations on any chains keep the caches of all of them faithful, however they end, as long as each
chain has a file of its own (`advances_perform`), and the addresses that a bootstrap gives are known
to their kernel from then on (`known_performAll`).
-/

namespace CrossChain

open Bootstrap

variable {ι σ : Type}

namespace ChainView

/-- What the file of a chain says, if there is one, is known to the kernel that it names. -/
def Faithful (view : ChainView σ) (d : Path) (s : Site σ) : Prop :=
  ∀ content, s.files.entry? (Cache.path d view.chainId).target = some (.file content) →
    ∃ c : Cache, c.Sound ∧ content = c.content ∧ view.Knows s.outside c.contracts

section Faithful

variable {view : ChainView σ} {d : Path} {s : Site σ}

theorem Faithful.load [Json.Limits] (h : view.Faithful d s) {c : Cache} {t : FileTree}
    (hload : Cache.load d view.chainId s.files = .ok (some c) t) :
    c.Sound ∧ view.Knows s.outside c.contracts := by
  obtain ⟨content, hentry, hcontent⟩ := Cache.content_of_load hload
  obtain ⟨kept, hsound, rfl, hknows⟩ := h content hentry
  rw [Cache.ofContent_content hsound] at hcontent
  cases hcontent
  exact ⟨hsound.reloaded, hknows⟩

theorem Faithful.mono (h : view.Faithful d s) {t : Site σ} (hfiles : SameFiles s t)
    (hext : view.Extends s.outside t.outside) : view.Faithful d t := by
  intro content hentry
  rw [hfiles] at hentry
  obtain ⟨c, hsound, hcontent, hknows⟩ := h content hentry
  exact ⟨c, hsound, hcontent, hknows.mono hext⟩

end Faithful

end ChainView

/-! ## Clients of several chains -/

/-- A client of one of several chains that leaves the others alone. -/
structure Hosts (views : ι → ChainView σ) (i : ι) (client : ChainClient σ) : Prop where
  serves : (views i).Serves client
  spares : ∀ j, j ≠ i → ∀ call, Act.Within (views j).Extends (client.answer call)

section Parts

variable {τ : Type} [DecidableEq ι]

/-- A chain on a part of the states. -/
def ChainView.part (view : ChainView τ) (i : ι) : ChainView (ι → τ) where
  chainId := view.chainId
  Taken s := view.Taken (s i)
  registered s := view.registered (s i)

/-- A client on a part of the states. -/
def ChainClient.part (client : ChainClient τ) (i : ι) : ChainClient (ι → τ) where
  chainId := client.chainId
  sender := client.sender
  answer call := Act.on (fun s => s i) (fun t s => Function.update s i t) (client.answer call)

theorem ChainClient.final_part (client : ChainClient τ) (i : ι) (call : ChainCall) (s : ι → τ) :
    ((client.part i).answer call).final s =
      Function.update s i ((client.answer call).final (s i)) := Act.final_on _ _ _ _

theorem ChainClient.part_eq_ok {client : ChainClient τ} {i : ι} {call : ChainCall}
    {a : call.Answer} {s t : ι → τ} (h : (client.part i).answer call s = .ok a t) :
    ∃ u, client.answer call (s i) = .ok a u ∧ t = Function.update s i u := by
  have hon : Act.on (fun s => s i) (fun t s => Function.update s i t) (client.answer call) s =
      .ok a t := h
  exact Act.on_eq_ok hon

theorem ChainClient.part_run_ok {client : ChainClient τ} {i : ι} {call : ChainCall}
    {a : call.Answer} {s : ι → τ} {u : τ} (h : client.answer call (s i) = .ok a u) :
    (client.part i).answer call s = .ok a (Function.update s i u) := by
  have hon : (client.part i).answer call s =
      Act.on (fun s => s i) (fun t s => Function.update s i t) (client.answer call) s := rfl
  rw [hon, Act.on, h]

theorem ChainView.taken_part (view : ChainView τ) (i : ι) (s : ι → τ) (u : τ) :
    (view.part i).Taken (Function.update s i u) = view.Taken u :=
  congrArg view.Taken (Function.update_self i u s)

theorem ChainView.registered_part (view : ChainView τ) (i : ι) (s : ι → τ) (u : τ) :
    (view.part i).registered (Function.update s i u) = view.registered u :=
  congrArg view.registered (Function.update_self i u s)

theorem ChainView.Serves.part {view : ChainView τ} {client : ChainClient τ}
    (h : view.Serves client) (i : ι) : (view.part i).Serves (client.part i) where
  chainId := h.chainId
  within call hcall s := by
    have hmoved := h.within call hcall (s i)
    rw [client.final_part]
    refine ⟨fun a ha => ?_, fun a ha => ?_⟩
    · rw [taken_part]
      exact hmoved.taken a ha
    · rw [registered_part]
      exact hmoved.registered a ha
  fresh := by
    intro code body label a s t hrun
    obtain ⟨u, hu, rfl⟩ := ChainClient.part_eq_ok hrun
    rw [taken_part]
    exact h.fresh hu
  within_registering kernel address name s := by
    have hmoved := h.within_registering kernel address name (s i)
    rw [client.final_part]
    refine ⟨fun a ha => ?_, fun a ha hne => ?_⟩
    · rw [taken_part]
      exact hmoved.taken a ha
    · rw [registered_part]
      exact hmoved.registered a ha hne
  registers := by
    intro kernel address name hash s t hrun
    obtain ⟨u, hu, rfl⟩ := ChainClient.part_eq_ok hrun
    rw [registered_part]
    exact h.registers hu
  answers := by
    intro kernel name a s hknown
    obtain ⟨u, hu⟩ := h.answers hknown
    exact ⟨_, ChainClient.part_run_ok hu⟩

/-- Clients of chains on different parts leave each other's chains alone. -/
theorem hosts_part (views : ι → ChainView τ) {i : ι} {client : ChainClient τ}
    (h : (views i).Serves client) : Hosts (fun j => (views j).part j) i (client.part i) where
  serves := h.part i
  spares j hj call s := by
    have hsame : ((client.part i).answer call).final s j = s j := by
      rw [client.final_part, Function.update_of_ne hj]
    refine ⟨fun a ha => ?_, fun a _ => ?_⟩
    · show (views j).Taken _ a
      rwa [hsame]
    · show (views j).registered _ a = (views j).registered (s j) a
      rw [hsame]

end Parts

/-- Every chain keeps its cache in a file of its own. -/
def OwnFiles (views : ι → ChainView σ) (d : Path) : Prop :=
  Function.Injective fun i => (Cache.path d (views i).chainId).target

/-- Chains whose ids have no slash, and whose files have different names, keep their caches in files
of their own. -/
theorem ownFiles_of_fileNames {views : ι → ChainView σ} (hids : ∀ i, 47 ∉ (views i).chainId)
    (hnames : Function.Injective fun i => Cache.fileName (views i).chainId) (d : Path) :
    OwnFiles views d := by
  intro i j hij
  simp only [Cache.target_path (hids _)] at hij
  exact hnames (Place.child_inj hij)

/-- Files of their own come from different chain ids where these have no surrogates. -/
theorem ownFiles_of_ids {views : ι → ChainView σ} (hids : ∀ i, 47 ∉ (views i).chainId)
    (hscalars : ∀ i, ∀ c ∈ (views i).chainId, c.isSurrogate = false)
    (hdistinct : Function.Injective fun i => (views i).chainId) (d : Path) : OwnFiles views d :=
  ownFiles_of_fileNames hids
    (fun i j h => hdistinct (Cache.fileName_inj (hscalars i) (hscalars j) h)) d

/-- All chains have grown, and all caches are faithful. -/
structure Advances (views : ι → ChainView σ) (d : Path) (s t : Site σ) : Prop where
  grows : ∀ j, (views j).Extends s.outside t.outside
  faithful : ∀ j, (views j).Faithful d t

section Advances

variable {views : ι → ChainView σ} {i : ι} {client : ChainClient σ} {d : Path} {s t u : Site σ}

theorem Hosts.within (hosts : Hosts views i client) (call : ChainCall) (hcall : ¬ call.Registers)
    (j : ι) : Act.Within (views j).Extends (client.answer call) := by
  by_cases hj : j = i
  · subst hj
    exact hosts.serves.within call hcall
  · exact hosts.spares j hj call

theorem Hosts.within_install (hosts : Hosts views i client) (chainName : Text)
    (contracts : Table Path) (j : ι) :
    Act.Within (views j).Extends (install client chainName contracts) := by
  by_cases hj : j = i
  · subst hj
    exact hosts.serves.within_install chainName contracts
  · have hspares := hosts.spares j hj
    exact within_install_of_calls (fun _ _ => hspares _) (fun _ _ _ => hspares _)
      (fun _ _ _ => hspares _) chainName contracts

theorem advances_refl (h : ∀ j, (views j).Faithful d s) : Advances views d s s :=
  ⟨fun _ => Std.Refl.refl _, h⟩

theorem Advances.trans (h : Advances views d s t) (h' : Advances views d t u) :
    Advances views d s u :=
  ⟨fun j => IsTrans.trans _ _ _ (h.grows j) (h'.grows j), h'.faithful⟩

theorem advances_of_sameFiles (h : ∀ j, (views j).Faithful d s) (hfiles : SameFiles s t)
    (hgrows : ∀ j, (views j).Extends s.outside t.outside) : Advances views d s t :=
  ⟨hgrows, fun j => (h j).mono hfiles (hgrows j)⟩

theorem advances_of_save_error {files : FileTree} {e : Failure} {c : Cache}
    (h : ∀ j, (views j).Faithful d s)
    (hsave : Cache.save d client.chainId c s.files = .error e files)
    (hcan : e = .value .unwritable → c.isWritable = true) :
    Advances views d s ⟨files, s.outside⟩ where
  grows _ := Std.Refl.refl _
  faithful j content hentry := by
    rcases Cache.noNewFile_of_save_error hsave with hnone | ⟨hlong, he⟩
    · exact h j content (hnone _ content hentry)
    · exact absurd (hcan he) (Bool.eq_false_iff.1 hlong)

/-- Keeping a cache whose addresses its kernel knows. -/
theorem advances_of_save (hown : OwnFiles views d) (hosts : Hosts views i client)
    {files : FileTree} {p : Path} {c : Cache} (h : ∀ j, (views j).Faithful d s) (hsound : c.Sound)
    (hknows : (views i).Knows s.outside c.contracts)
    (hsave : Cache.save d client.chainId c s.files = .ok p files) :
    Advances views d s ⟨files, s.outside⟩ where
  grows _ := Std.Refl.refl _
  faithful j content hentry := by
    rcases Cache.file_of_save hsave hentry with hold | ⟨hplace, rfl⟩
    · exact h j content hold
    · rw [hosts.serves.chainId] at hplace
      obtain rfl : j = i := hown hplace
      exact ⟨c, hsound, rfl, hknows⟩

end Advances

/-! ## Bootstraps -/

/-- A bootstrap of a chain: whatever it does, all chains have grown and all caches are faithful, and
the addresses that it gives are those of the set and known to their kernel. -/
structure Brings (views : ι → ChainView σ) (i : ι) (d : Path) (set : ContractSet)
    (x : Act (Site σ) (Table Json)) (s : Site σ) : Prop where
  advances : Advances views d s (x.final s)
  names : ∀ m t, x s = .ok m t → (Table.names m).Perm set.names
  knows : ∀ m t, x s = .ok m t → (views i).Knows t.outside m

section SetUp

variable {views : ι → ChainView σ} {i : ι} {client : ChainClient σ} {d : Path} {s : Site σ}
  {set : ContractSet} {x : Act (Site σ) (Table Json)}

theorem brings_of_error {e : Failure} {t : Site σ} (hrun : x s = .error e t)
    (hadvances : Advances views d s t) : Brings views i d set x s where
  advances := Act.final_error hrun ▸ hadvances
  names m u h := by
    rw [hrun] at h
    cases h
  knows m u h := by
    rw [hrun] at h
    cases h

theorem brings_of_ok {m : Table Json} {t : Site σ} (hrun : x s = .ok m t)
    (hadvances : Advances views d s t) (hnames : (Table.names m).Perm set.names)
    (hknows : (views i).Knows t.outside m) : Brings views i d set x s where
  advances := Act.final_ok hrun ▸ hadvances
  names m' u h := by
    rw [hrun] at h
    cases h
    exact hnames
  knows m' u h := by
    rw [hrun] at h
    cases h
    exact hknows

theorem brings_deploy (hosts : Hosts views i client) (hown : OwnFiles views d)
    (hset : ∀ name ∈ set.names, name.Unpaired) (h : ∀ j, (views j).Faithful d s)
    (chainName : Text) :
    Brings views i d set (deploy client chainName set.files (some d)) s := by
  have hgrows := fun j => hosts.within_install chainName set.files j
  cases hinstall : install client chainName set.files s.outside with
  | error e o =>
    have hadvances : Advances views d s ⟨s.files, o⟩ :=
      advances_of_sameFiles h rfl fun j => (hgrows j).error hinstall
    by_cases he : ∃ target detail, e = .contract target detail
    · obtain ⟨target, detail, rfl⟩ := he
      exact brings_of_error (deploy_of_refused client chainName set.files (some d) hinstall)
        hadvances
    · have hne : ∀ target detail, e ≠ .contract target detail := fun target detail h =>
        he ⟨target, detail, h⟩
      exact brings_of_error (deploy_of_error client chainName set.files (some d) hinstall hne)
        hadvances
  | ok m o =>
    have hadvances : Advances views d s ⟨s.files, o⟩ :=
      advances_of_sameFiles h rfl fun j => (hgrows j).ok hinstall
    obtain ⟨hknows, haddresses⟩ := hosts.serves.knows_of_install set.nodup hinstall
    have hnames : (Table.names m).Perm set.names := by
      rw [names_of_install hinstall]
      exact perm_siblingNames set.hasKernel set.nodup
    have hplain : PlainAddresses m := fun p hp =>
      ⟨hset p.1 (hnames.mem_iff.1 (List.mem_map_of_mem hp)), haddresses p hp⟩
    have hsound : Cache.Sound ⟨m, [], .str client.sender⟩ :=
      ⟨soundTable_addresses hnames hplain, .nil _, client.sender, rfl⟩
    have houtcome := deploy_of_ok client chainName set.files (some d) hinstall
    cases hsave : Cache.save d client.chainId ⟨m, [], .str client.sender⟩ s.files with
    | error e files =>
      rw [keep_of_error hsave] at houtcome
      exact brings_of_error (Act.run_of_outcome_error houtcome)
        (hadvances.trans (advances_of_save_error hadvances.faithful hsave fun _ =>
          hsound.isWritable))
    | ok p files =>
      rw [keep_of_ok hsave] at houtcome
      have hkept := advances_of_save hown hosts hadvances.faithful hsound hknows hsave
      exact brings_of_ok (Act.run_of_outcome_ok houtcome) (hadvances.trans hkept) hnames hknows

theorem brings_setUp [Json.Limits] (hosts : Hosts views i client) (hown : OwnFiles views d)
    (hset : ∀ name ∈ set.names, name.Unpaired) (h : ∀ j, (views j).Faithful d s)
    (chainName : Text) (useCache : Bool) :
    Brings views i d set (setUp client chainName set.files (some d) useCache) s := by
  rcases setUp_ways client chainName set useCache s with
    ⟨e, hrun⟩ | ⟨cache, -, hload, hcomplete, hrun⟩ | ⟨-, hrun⟩
  · exact brings_of_error hrun (advances_refl h)
  · -- The addresses come from a faithful cache.
    rw [hosts.serves.chainId] at hload
    have hknows := ((h i).load hload).2
    refine brings_of_ok hrun (advances_refl h) ?_ (hknows.restrict set.hasKernel)
    rw [Table.names_restrict (Cache.mem_names_of_isComplete hcomplete)]
  · have hdeploy := brings_deploy hosts hown hset h chainName
    exact ⟨by rw [Act.final, Act.outcome, hrun]; exact hdeploy.advances,
      fun m t hm => hdeploy.names m t (hrun ▸ hm), fun m t hm => hdeploy.knows m t (hrun ▸ hm)⟩

end SetUp

/-! ## Publications -/

section Publish

variable {views : ι → ChainView σ} {i : ι} {client : ChainClient σ} {d : Path} {s : Site σ}

theorem not_registers_publish (address : Json) (code : Int) (name version : Text)
    (funds : List Coin) : ¬ ChainCall.Registers
      (.execute address (ContractMessage.publish code name version).toJson funds) := by
  rintro ⟨key, value, h⟩
  cases h

theorem Hosts.within_publishEach (hosts : Hosts views i client) (registry : Contract)
    (directory : Path) (j : ι) :
    Act.Within (OutsideMoves (views j).Extends) (publishEach client registry directory) := by
  apply within_publishEach_of_files
  intro name file
  have hupload := hosts.within (.upload file name) id j
  have hpublish := fun code => hosts.within (.execute registry.address _ [])
    (not_registers_publish _ code name (Wasm.versionOf file) _) j
  exact outsideMoves_onOutside
    (hupload.bind fun code => (hpublish code).bind fun hash => Act.within_pure code)

/-- Code ids that are added to a faithful cache leave its addresses. -/
theorem ChainView.Faithful.published [Json.Limits] {view : ChainView σ} (h : view.Faithful d s)
    {old : Option Cache} {t : FileTree}
    (hload : Cache.load d view.chainId s.files = .ok old t) (sender : Text) {codes : Table Int}
    (hcodes : PlainCodes codes) :
    (Cache.published old sender codes).Sound ∧
      view.Knows s.outside (Cache.published old sender codes).contracts := by
  cases old with
  | none =>
    have hcodeIds := (Cache.SoundTable.nil _).insertAll (isCode_of_plainCodes hcodes)
    exact ⟨⟨.nil _, hcodeIds, sender, rfl⟩, view.knows_nil s.outside⟩
  | some c =>
    obtain ⟨hsound, hknows⟩ := h.load hload
    exact ⟨sound_published hsound hcodes, hknows⟩

/-- However publishing ends, all chains have grown and all caches are faithful, if the code ids that
it may have given can be kept, and it did not fail for code ids that cannot be written. -/
theorem advances_publishAll [Json.Limits] (hosts : Hosts views i client) (hown : OwnFiles views d)
    (registry : Contract) (directory : Path) (h : ∀ j, (views j).Faithful d s)
    (hcodes : ∀ codes t, publishAll client registry directory (some d) s = .ok codes t →
      PlainCodes codes)
    (hshort : ∀ t, publishAll client registry directory (some d) s =
      .error (.value .unwritable) t → client.ShortCodes) :
    Advances views d s ((publishAll client registry directory (some d)).final s) := by
  have hsame := within_publishEach client registry directory
  have hgrows := hosts.within_publishEach registry directory
  rw [publishAll_eq] at hcodes hshort ⊢
  cases heach : publishEach client registry directory s with
  | error e t =>
    rw [Act.final_error (Act.bind_run_error heach)]
    exact advances_of_sameFiles h (hsame.error heach) fun j => (hgrows j).error heach
  | ok codes t =>
    have hadvances := advances_of_sameFiles h (hsame.ok heach) fun j => (hgrows j).ok heach
    rw [Act.bind_run_ok heach] at hcodes hshort
    rw [Act.final_bind_ok heach]
    -- What was kept before is known, and the code ids are added to it.
    cases hload : Cache.load d client.chainId t.files with
    | error e files =>
      obtain rfl := (Cache.within_load d client.chainId).error hload
      have hremember : remember client d codes t.files = .error e t.files :=
        Act.bind_run_error hload
      rw [Act.final_error (Act.bind_run_error (Site.onFiles_run_error hremember))]
      exact hadvances
    | ok old files =>
      obtain rfl := (Cache.within_load d client.chainId).ok hload
      cases hsave : Cache.save d client.chainId (.published old client.sender codes) t.files with
      | error e files =>
        have hremember := remember_of_error client hload hsave
        have hended := Act.bind_run_error
          (f := fun _ => (pure codes : Act (Site σ) (Table Int)))
          (Site.onFiles_run_error (s := t) hremember)
        rw [Act.final_error hended]
        refine hadvances.trans (advances_of_save_error hadvances.faithful hsave ?_)
        rintro rfl
        have hgiven := short_of_publishEach (hshort _ hended) heach
        have hold : ∀ c, old = some c → c.isWritable = true := by
          rintro c rfl
          rw [hosts.serves.chainId] at hload
          exact ((hadvances.faithful i).load hload).1.isWritable
        exact Cache.isWritable_published client.sender hold hgiven
      | ok p files =>
        have hremember := remember_of_saved client hload hsave
        have hended := Act.bind_run_ok (f := fun _ => (pure codes : Act (Site σ) (Table Int)))
          (Site.onFiles_run_ok (s := t) hremember)
        rw [hended] at hcodes
        rw [Act.final_ok hended]
        have hload' := hosts.serves.chainId ▸ hload
        obtain ⟨hsound, hknows⟩ :=
          (hadvances.faithful i).published hload' client.sender (hcodes codes _ rfl)
        exact hadvances.trans (advances_of_save hown hosts hadvances.faithful hsound hknows hsave)

end Publish

/-! ## Runs -/

namespace Bootstrap

/-- An operation on one of several chains; the names of its contracts can be kept. -/
def Operation.On (views : ι → ChainView σ) (i : ι) : Operation σ → Prop
  | .setUp client _ set _ => Hosts views i client ∧ ∀ name ∈ set.names, name.Unpaired
  | .publishAll client _ _ => Hosts views i client

namespace Performed

/-- The code ids that were given can be kept; a publication that failed for what cannot be written
is one on a chain that gives short code ids. -/
def PlainIds : Performed σ → Prop
  | ⟨.publishAll .., .ok codes⟩ => PlainCodes codes
  | ⟨.publishAll client .., .error e⟩ => e = .value .unwritable → client.ShortCodes
  | ⟨.setUp .., _⟩ => True

/-- The addresses that a bootstrap gave are those of its contracts, and known to their kernel. -/
def Known (views : ι → ChainView σ) (s : σ) : Performed σ → Prop
  | ⟨.setUp client _ set _, .ok m⟩ =>
    (Table.names m).Perm set.names ∧ ∀ i, client.chainId = (views i).chainId → (views i).Knows s m
  | _ => True

end Performed

section Run

variable {views : ι → ChainView σ} {i : ι} {d : Path} {s : Site σ}

theorem Performed.Known.mono {x : Performed σ} {o o' : σ} (h : x.Known views o)
    (hgrows : ∀ j, (views j).Extends o o') : x.Known views o' := by
  obtain ⟨op, ended⟩ := x
  match op, ended, h with
  | .setUp .., .ok m, h => exact ⟨h.1, fun j hj => (h.2 j hj).mono (hgrows j)⟩
  | .setUp .., .error _, _ => trivial
  | .publishAll .., _, _ => trivial

theorem advances_perform [Json.Limits] {op : Operation σ} (hon : op.On views i)
    (hown : OwnFiles views d) (h : ∀ j, (views j).Faithful d s)
    (hcodes : Performed.PlainIds ⟨op, ((op.perform d).outcome s).1⟩) :
    Advances views d s ((op.perform d).outcome s).2 ∧
      Performed.Known views ((op.perform d).outcome s).2.outside
        ⟨op, ((op.perform d).outcome s).1⟩ := by
  cases op with
  | setUp client chainName set useCache =>
    obtain ⟨hosts, hset⟩ := hon
    have hbrings := brings_setUp hosts hown hset h chainName useCache
    refine ⟨hbrings.advances, ?_⟩
    rw [Operation.perform, Act.outcome]
    cases hrun : setUp client chainName set.files (some d) useCache s with
    | error e t => trivial
    | ok m t =>
      refine ⟨hbrings.names m t hrun, fun j hj => ?_⟩
      rw [hosts.serves.chainId] at hj
      obtain rfl : i = j := hown (congrArg (fun id => (Cache.path d id).target) hj)
      exact hbrings.knows m t hrun
  | publishAll client registry directory =>
    refine ⟨advances_publishAll hon hown registry directory h (fun codes t hrun => ?_)
      fun t hrun => ?_, trivial⟩
    · rw [Operation.perform, Act.outcome, hrun] at hcodes
      exact hcodes
    · rw [Operation.perform, Act.outcome, hrun] at hcodes
      exact hcodes rfl

/-- After any operations on chains with files of their own, whatever failed on the way, all caches
are faithful, and all addresses that bootstraps gave are known to their kernels. -/
theorem known_performAll [Json.Limits] (hown : OwnFiles views d) (ops : List (Operation σ))
    (hops : ∀ op ∈ ops, ∃ i, op.On views i) (hcodes : ∀ x ∈ (performAll d ops s).1, x.PlainIds)
    (h : ∀ j, (views j).Faithful d s) :
    Advances views d s (performAll d ops s).2 ∧
      ∀ x ∈ (performAll d ops s).1, x.Known views (performAll d ops s).2.outside := by
  induction ops generalizing s with
  | nil => exact ⟨advances_refl h, nofun⟩
  | cons op ops ih =>
    obtain ⟨⟨i, hon⟩, hops⟩ := List.forall_mem_cons.1 hops
    obtain ⟨hfirst, hrest⟩ := List.forall_mem_cons.1 hcodes
    obtain ⟨hadvances, hknown⟩ := advances_perform hon hown h hfirst
    obtain ⟨hadvances', hknown'⟩ := ih hops hrest hadvances.faithful
    refine ⟨hadvances.trans hadvances', List.forall_mem_cons.2 ⟨?_, hknown'⟩⟩
    exact hknown.mono hadvances'.grows

end Run

end Bootstrap

end CrossChain
