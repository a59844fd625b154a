import CrossChain.Proofs.Bootstrap.Setup

/-!
# Bootstraps are all or nothing

A bootstrap that the cache does not answer makes the calls of an install.  When one of them fails it
was the last, the files are as before, and a refusal of the chain is told as one of the bootstrap;
when none fails the addresses of all contracts are kept and given (`setUp_all_or_nothing`).
-/

namespace CrossChain

namespace Bootstrap

/-! ## What a bootstrap comes to -/

/-- The calls of a bootstrap over files, how it ends, and the files afterwards. -/
inductive Bootstraps {σ : Type} (client : ChainClient σ) (chainName : Text) (set : ContractSet)
    (directory : Option Path) (files : FileTree) :
    List Asked → Except Failure (Table Json) → FileTree → Prop
  /-- The chain refused the last call. -/
  | refused (calls : List Asked) (target : Json) (detail : Text)
    (installs : Installs chainName set.files calls (.error (.contract target detail))) :
    Bootstraps client chainName set directory files calls
      (.error (.bootstrap client.chainId (.contract target detail))) files
  /-- The last call failed in another way. -/
  | broken (calls : List Asked) (e : Failure)
    (installs : Installs chainName set.files calls (.error e))
    (notRefused : ∀ target detail, e ≠ .contract target detail) :
    Bootstraps client chainName set directory files calls (.error e) files
  /-- No call failed, and the addresses are kept in the cache. -/
  | kept (a : InstallAnswers) (ended : Except Failure Unit) (files' : FileTree)
    (keeps : Act.outcome (keep directory client.chainId client.sender (a.addresses set.files))
      files = (ended, files')) :
    Bootstraps client chainName set directory files (a.calls chainName set.files)
      (ended.map fun _ => a.addresses set.files) files'

section Outcome

variable {σ : Type} (client : ChainClient σ) (chainName : Text) (set : ContractSet)
  (directory : Option Path)

theorem deploy_noted (s : Site (Logged Asked σ)) :
    ∃ calls result files t,
      Act.outcome (deploy client.noted chainName set.files directory) s =
        (result, ⟨files, ⟨s.outside.log ++ calls, t⟩⟩) ∧
      Act.final (install client.noted chainName set.files) s.outside =
        ⟨s.outside.log ++ calls, t⟩ ∧
      Bootstraps client chainName set directory s.files calls result files := by
  obtain ⟨calls, ended, t, hinstalls, hrun⟩ :=
    install_noted client chainName set.hasKernel set.nodup s.outside
  have hfinal : Act.final (install client.noted chainName set.files) s.outside =
      ⟨s.outside.log ++ calls, t⟩ := congrArg Prod.snd hrun
  cases hx : install client.noted chainName set.files s.outside with
  | ok addresses o =>
    rw [Act.outcome, hx] at hrun
    obtain ⟨rfl, rfl⟩ := Prod.mk.inj hrun
    cases hinstalls with
    | all a =>
      refine ⟨_, _, _, t, deploy_of_ok client.noted chainName set.files directory hx, hfinal, ?_⟩
      exact .kept a _ _ rfl
  | error e o =>
    rw [Act.outcome, hx] at hrun
    obtain ⟨rfl, rfl⟩ := Prod.mk.inj hrun
    by_cases he : ∃ target detail, e = .contract target detail
    · obtain ⟨target, detail, rfl⟩ := he
      refine ⟨calls, _, s.files, t, ?_, hfinal, .refused calls target detail hinstalls⟩
      rw [Act.outcome, deploy_of_refused client.noted chainName set.files directory hx]
      rfl
    · have hne : ∀ target detail, e ≠ .contract target detail := fun target detail h =>
        he ⟨target, detail, h⟩
      refine ⟨calls, _, s.files, t, ?_, hfinal, .broken calls e hinstalls hne⟩
      rw [Act.outcome, deploy_of_error client.noted chainName set.files directory hx hne]

end Outcome

/-! ## The addresses -/

namespace InstallAnswers

variable (a : InstallAnswers)

/-- The address that the chain answered for a name. -/
def addressOf (name : Text) : Text := if name = kernelName then a.kernel else a.address name

theorem get?_addresses {contracts : Table Path} {name : Text} (h : name ∈ Table.names contracts) :
    Table.get? name (a.addresses contracts) = some (.str (a.addressOf name)) := by
  unfold addresses addressOf
  by_cases hk : name = kernelName
  · simp only [hk, Table.get?, if_true]
  · have hsibling : name ∈ siblingNames contracts :=
      List.mem_filter.2 ⟨h, by simpa using hk⟩
    rw [Table.get?, if_neg (Ne.symm hk), if_neg hk]
    exact Table.get?_map (fun name => Json.str (a.address name)) hsibling

theorem names_addresses {contracts : Table Path} (hkernel : kernelName ∈ Table.names contracts)
    (hnames : (Table.names contracts).Nodup) :
    (Table.names (a.addresses contracts)).Perm (Table.names contracts) := by
  have hnames' : Table.names (a.addresses contracts) = kernelName :: siblingNames contracts := by
    rw [addresses, Table.names_cons, Table.names, List.map_map]
    exact congrArg _ (List.map_id _)
  rw [hnames']
  exact perm_siblingNames hkernel hnames

theorem made_mem_calls (chainName : Text) {contracts : Table Path} {name : Text}
    (h : name ∈ Table.names contracts) :
    ∃ body, (⟨.instantiate (.int (a.code name)) body name, .ok (a.addressOf name)⟩ : Asked) ∈
      a.calls chainName contracts := by
  unfold addressOf
  by_cases hk : name = kernelName
  · have hmade : a.kernelMade chainName ∈ a.calls chainName contracts :=
      List.mem_append_right _ List.mem_cons_self
    rw [if_pos hk, hk]
    exact ⟨_, hmade⟩
  · have hsibling : name ∈ siblingNames contracts :=
      List.mem_filter.2 ⟨h, by simpa using hk⟩
    have hmade : ⟨makingSibling a.kernel (a.code name) name, .ok (a.address name)⟩ ∈
        a.siblingsMade (siblingNames contracts) := List.mem_map_of_mem hsibling
    rw [if_neg hk]
    exact ⟨_, List.mem_append_right _ (List.mem_cons_of_mem _ (List.mem_append_left _ hmade))⟩

theorem ended_of_mem_calls {chainName : Text} {contracts : Table Path} {x : Asked}
    (h : x ∈ a.calls chainName contracts) (e : Failure) : x.ended ≠ .error e := by
  simp only [calls, uploads, kernelMade, siblingsMade, registrations, List.mem_append,
    List.mem_cons, List.mem_map] at h
  intro he
  rcases h with ⟨_, _, rfl⟩ | rfl | ⟨_, _, rfl⟩ | ⟨_, _, rfl⟩ <;> cases he

end InstallAnswers

theorem Installs.ended_of_mem {chainName : Text} {contracts : Table Path} {calls : List Asked}
    {ended : Except Failure (Table Json)} (h : Installs chainName contracts calls ended) {x : Asked}
    (hx : x ∈ calls) {e : Failure} (he : x.ended = .error e) : ended = .error e := by
  cases h with
  | all a => exact absurd he (a.ended_of_mem_calls hx e)
  | upTo a done next e' isPrefix =>
    rcases List.mem_append.1 hx with hdone | hlast
    · exact absurd he (a.ended_of_mem_calls (isPrefix.subset (List.mem_append_left _ hdone)) e)
    · obtain rfl := List.mem_singleton.1 hlast
      cases he
      rfl

namespace Bootstraps

variable {σ : Type} {client : ChainClient σ} {chainName : Text} {set : ContractSet}
  {directory : Option Path} {files files' : FileTree} {calls : List Asked} {m : Table Json}

theorem eq_kept (h : Bootstraps client chainName set directory files calls (.ok m) files') :
    ∃ a : InstallAnswers, calls = a.calls chainName set.files ∧ m = a.addresses set.files := by
  generalize hresult : (Except.ok m : Except Failure (Table Json)) = result at h
  cases h with
  | refused => cases hresult
  | broken => cases hresult
  | kept a ended files' keeps =>
    cases ended with
    | error e => cases hresult
    | ok u =>
      cases hresult
      exact ⟨a, rfl, rfl⟩

theorem perm_names (h : Bootstraps client chainName set directory files calls (.ok m) files') :
    (Table.names m).Perm set.names := by
  obtain ⟨a, -, rfl⟩ := h.eq_kept
  exact a.names_addresses set.hasKernel set.nodup

/-- The address of every contract is what a call to make it was answered with. -/
theorem made (h : Bootstraps client chainName set directory files calls (.ok m) files')
    (name : Text) (hname : name ∈ set.names) :
    ∃ code body address,
      (⟨.instantiate code body name, .ok address⟩ : Asked) ∈ calls ∧
        Table.get? name m = some (.str address) := by
  obtain ⟨a, rfl, rfl⟩ := h.eq_kept
  obtain ⟨body, hmade⟩ := a.made_mem_calls chainName hname
  exact ⟨_, body, _, hmade, a.get?_addresses hname⟩

end Bootstraps

end Bootstrap

/-! ## Ledgers -/

namespace Ledger

variable {σ α : Type}

theorem refusing_error {target : Json} {about : Except Failure Text} {verb : Text}
    (htarget : target.isWritable = true) (habout : about = .ok verb) {act : Act σ α} {s t : σ}
    {e : Failure} (h : refusing target about act s = .error e t) :
    ∃ detail, e = .contract target detail := by
  rw [refusing, habout] at h
  cases hact : act s with
  | ok a u =>
    rw [Act.bind_run_ok (Act.attempt_run_ok hact)] at h
    cases h
  | error e' u =>
    rw [Act.bind_run_ok (Act.attempt_run_error hact)] at h
    cases h
    exact ⟨_, if_pos htarget⟩

end Ledger

namespace Bootstrap

/-- A call that ends with a failure was refused by the chain. -/
def Asked.Refused (x : Asked) : Prop :=
  ∀ e, x.ended = .error e → ∃ target detail, e = .contract target detail

section Ledger

variable {σ : Type} (node : Node σ) (d : ChainDefinition) (wallet : Text)

theorem within_noted_ledger (call : ChainCall)
    (h : ∀ s e t, (Ledger.client node d wallet).answer call s = .error e t →
      ∃ target detail, e = .contract target detail) :
    Act.Within (Logged.Adds Asked.Refused) ((Ledger.client node d wallet).noted.answer call) := by
  apply Logged.within_adds_noting
  intro s e he
  cases hx : (Ledger.client node d wallet).answer call s with
  | ok a t =>
    rw [Act.outcome, hx] at he
    cases he
  | error e' t =>
    rw [Act.outcome, hx] at he
    cases he
    exact h s e t hx

theorem within_upload (file : Path) (label : Text) :
    Act.Within (Logged.Adds Asked.Refused)
      ((Ledger.client node d wallet).noted.upload file label) :=
  within_noted_ledger node d wallet (.upload file label) fun _ _ _ h =>
    ⟨_, Ledger.refusing_error rfl rfl h⟩

theorem within_instantiate (code body : Json) (label : Text) :
    Act.Within (Logged.Adds Asked.Refused)
      ((Ledger.client node d wallet).noted.instantiate code body label) :=
  within_noted_ledger node d wallet (.instantiate code body label) fun _ _ _ h =>
    ⟨_, Ledger.refusing_error rfl rfl h⟩

theorem within_execute (target : Text) (members : Table Json) (funds : List Coin) :
    Act.Within (Logged.Adds Asked.Refused)
      ((Ledger.client node d wallet).noted.execute (.str target) (.obj members) funds) :=
  within_noted_ledger node d wallet (.execute (.str target) (.obj members) funds) fun _ _ _ h =>
    ⟨_, Ledger.refusing_error rfl rfl h⟩

theorem within_install (chainName : Text) (contracts : Table Path) :
    Act.Within (Logged.Adds Asked.Refused)
      (install (Ledger.client node d wallet).noted chainName contracts) := by
  apply within_install_of_calls (within_upload node d wallet) (within_instantiate node d wallet)
  intro kernel address name
  exact within_execute node d wallet _ _ _

end Ledger

/-! ## The law -/

/-- A bootstrap that the cache does not answer is all or nothing.  Its calls are those of an
install, all of them or those up to the first that fails; a failure leaves the files as before, and
one that the chain refused is told as a refused bootstrap; a success gives every contract the
address that making it was answered with.  A client of a ledger tells all failures of its calls as
refusals. -/
theorem setUp_all_or_nothing [Json.Limits] {σ : Type} (client : ChainClient σ) (chainName : Text)
    (set : ContractSet) (directory : Option Path) (useCache : Bool) (s : Site (Logged Asked σ))
    (hcold : Cold directory useCache client.chainId set.names s.files) :
    ∃ calls result files t,
      Act.outcome (setUp client.noted chainName set.files directory useCache) s =
        (result, ⟨files, ⟨s.outside.log ++ calls, t⟩⟩) ∧
      Bootstraps client chainName set directory s.files calls result files ∧
      (∀ m, result = .ok m → (Table.names m).Perm set.names ∧
        ∀ name ∈ set.names, ∃ code body address,
          (⟨.instantiate code body name, .ok address⟩ : Asked) ∈ calls ∧
            Table.get? name m = some (.str address)) ∧
      (∀ node d wallet, client = Ledger.client node d wallet → ∀ x ∈ calls, ∀ e,
        x.ended = .error e →
          (∃ target detail, e = .contract target detail) ∧
            result = .error (.bootstrap client.chainId e)) := by
  have hkernel : (Table.get? kernelName set.files).isSome := Table.isSome_get?.2 set.hasKernel
  obtain ⟨calls, result, files, t, hrun, hfinal, hbootstraps⟩ :=
    deploy_noted client chainName set directory s
  have hsetUp : Act.outcome (setUp client.noted chainName set.files directory useCache) s =
      Act.outcome (deploy client.noted chainName set.files directory) s := by
    rw [Act.outcome, Act.outcome, setUp_of_cold client.noted chainName hkernel hcold]
  refine ⟨calls, result, files, t, hsetUp.trans hrun, hbootstraps, ?_, ?_⟩
  · rintro m rfl
    exact ⟨hbootstraps.perm_names, hbootstraps.made⟩
  · rintro node d wallet rfl x hx e he
    obtain ⟨l, hl, hrefused⟩ := within_install node d wallet chainName set.files s.outside
    rw [hfinal] at hl
    obtain rfl := List.append_cancel_left hl
    obtain ⟨target, detail, rfl⟩ := hrefused x hx e he
    refine ⟨⟨target, detail, rfl⟩, ?_⟩
    cases hbootstraps with
    | refused calls target' detail' installs =>
      cases installs.ended_of_mem hx he
      rfl
    | broken calls e' installs notRefused =>
      cases installs.ended_of_mem hx he
      exact absurd rfl (notRefused target detail)
    | kept a ended files' keeps => exact absurd he (a.ended_of_mem_calls hx _)

/-- A chain that stores code and makes kernels, and refuses everything else. -/
def kernelOnly : ChainClient Unit where
  chainId := "galileo-4"
  sender := "andr1sender"
  answer
    | .upload _ _ => return (7 : Int)
    | .instantiate _ _ label =>
      if label = kernelName then return text "andr1kernel" else throw (.contract label "refused")
    | _ => throw (.contract .null "refused")

/-- The kernel with the registry of applications. -/
def kernelAndRegistry : ContractSet where
  files := [(kernelName, Path.ofText "kernel.wasm"), (registryName, Path.ofText "adodb.wasm")]
  nodup := by decide
  hasKernel := by decide

theorem cold_of_no_files : Cold (some (Path.ofText "cache")) true kernelOnly.chainId
    kernelAndRegistry.names {} := by
  intro d hd _
  cases hd
  exact ⟨none, rfl, rfl⟩

/-- Where the registry is refused the bootstrap fails after its fourth call, and no file is
made. -/
theorem setUp_all_or_nothing_kernelOnly :
    Cold (some (Path.ofText "cache")) true kernelOnly.chainId kernelAndRegistry.names {} ∧
      ∃ calls t,
        Act.outcome (setUp kernelOnly.noted "andromeda" kernelAndRegistry.files
            (some (Path.ofText "cache")) true) ⟨{}, ⟨[], ()⟩⟩ =
          (.error (.bootstrap "galileo-4" (.contract registryName "refused")), ⟨{}, ⟨calls, t⟩⟩) ∧
        calls.length = 4 ∧
        Bootstraps kernelOnly "andromeda" kernelAndRegistry (some (Path.ofText "cache")) {} calls
          (.error (.bootstrap "galileo-4" (.contract registryName "refused"))) {} := by
  refine ⟨cold_of_no_files, ?_⟩
  obtain ⟨calls, result, files, t, hrun, hbootstraps, -, -⟩ :=
    setUp_all_or_nothing kernelOnly "andromeda" kernelAndRegistry (some (Path.ofText "cache")) true
      ⟨{}, ⟨[], ()⟩⟩ cold_of_no_files
  have heval : ∃ made : List Asked, made.length = 4 ∧
      Act.outcome (setUp kernelOnly.noted "andromeda" kernelAndRegistry.files
          (some (Path.ofText "cache")) true) ⟨{}, ⟨[], ()⟩⟩ =
        (.error (.bootstrap "galileo-4" (.contract registryName "refused")), ⟨{}, ⟨made, ()⟩⟩) :=
    ⟨_, rfl, rfl⟩
  obtain ⟨made, hlength, heval⟩ := heval
  rw [heval] at hrun
  cases hrun
  exact ⟨_, _, heval, hlength, hbootstraps⟩

end Bootstrap

end CrossChain
