import CrossChain.Bootstrap
import CrossChain.Ledger
import CrossChain.Proofs.Log
import CrossChain.Proofs.Table

/-!
# The calls of an install

The calls that an install makes to a chain stand in a fixed order, and what each of them says
depends on what the earlier ones were answered: `InstallAnswers.calls` is their list for given
answers.  An install makes all of them, or those up to the first that fails (`install_noted`).
-/

namespace CrossChain

/-! ## Noted clients -/

/-- A call to a chain, and how it ended. -/
structure Asked where
  call : ChainCall
  ended : Except Failure call.Answer

/-- The client that notes every call. -/
def ChainClient.noted {σ : Type} (client : ChainClient σ) : ChainClient (Logged Asked σ) where
  chainId := client.chainId
  sender := client.sender
  answer call := Logged.noting (fun ended => ⟨call, ended⟩) (client.answer call)

/-! ## Contract sets -/

/-- Contracts by name with the files of their code: no name twice, and the kernel among them. -/
structure ContractSet where
  files : Table Path
  nodup : (Table.names files).Nodup
  hasKernel : kernelName ∈ Table.names files

/-- The names of a set in order. -/
def ContractSet.names (set : ContractSet) : List Text := Table.names set.files

namespace Bootstrap

/-! ## The calls in order -/

/-- Storing the code of a contract. -/
def uploading (file : Path) (name : Text) : ChainCall := .upload file name

/-- Making the kernel of stored code. -/
def makingKernel (chainName : Text) (code : Int) : ChainCall :=
  .instantiate (.int code) (Instantiation.kernel chainName none).toJson kernelName

/-- Making a sibling of stored code against a kernel. -/
def makingSibling (kernel : Text) (code : Int) (name : Text) : ChainCall :=
  .instantiate (.int code) (Instantiation.sibling (.str kernel) none).toJson name

/-- Telling a kernel the address of a sibling. -/
def registering (kernel address name : Text) : ChainCall :=
  .execute (.str kernel) (ContractMessage.upsertKeyAddress name (.str address)).toJson []

/-- The names of all contracts but the kernel. -/
def siblingNames (contracts : Table Path) : List Text :=
  (Table.names contracts).filter (· != kernelName)

/-- What a chain answers while contracts are installed: the address of the kernel and, by name, the
id of the code that is stored, the address of the sibling that is made, and the hash of its
registration. -/
structure InstallAnswers where
  code : Text → Int
  kernel : Text
  address : Text → Text
  hash : Text → Text

namespace InstallAnswers

variable (a : InstallAnswers)

/-- Storing the code of contracts. -/
def uploads (contracts : Table Path) : List Asked :=
  contracts.map fun c => ⟨uploading c.2 c.1, .ok (a.code c.1)⟩

/-- Making the kernel. -/
def kernelMade (chainName : Text) : Asked :=
  ⟨makingKernel chainName (a.code kernelName), .ok a.kernel⟩

/-- Making siblings against the kernel. -/
def siblingsMade (names : List Text) : List Asked :=
  names.map fun name => ⟨makingSibling a.kernel (a.code name) name, .ok (a.address name)⟩

/-- Telling the kernel the addresses of siblings. -/
def registrations (names : List Text) : List Asked :=
  names.map fun name => ⟨registering a.kernel (a.address name) name, .ok (a.hash name)⟩

/-- The calls of an install that succeeds: all code is stored, the kernel is made, then every
sibling, and then every sibling is registered. -/
def calls (chainName : Text) (contracts : Table Path) : List Asked :=
  a.uploads contracts ++ a.kernelMade chainName ::
    (a.siblingsMade (siblingNames contracts) ++ a.registrations (siblingNames contracts))

/-- The address of every contract, the kernel first. -/
def addresses (contracts : Table Path) : Table Json :=
  (kernelName, .str a.kernel) ::
    (siblingNames contracts).map fun name => (name, .str (a.address name))

end InstallAnswers

/-- The calls that an install makes, and how it ends: it makes all calls and gives the addresses, or
some call fails, which is the last one, and the install fails with that. -/
inductive Installs (chainName : Text) (contracts : Table Path) :
    List Asked → Except Failure (Table Json) → Prop
  | all (a : InstallAnswers) :
    Installs chainName contracts (a.calls chainName contracts) (.ok (a.addresses contracts))
  | upTo (a : InstallAnswers) (done : List Asked) (next : Asked) (e : Failure)
    (isPrefix : done ++ [next] <+: a.calls chainName contracts) :
    Installs chainName contracts (done ++ [⟨next.call, .error e⟩]) (.error e)

namespace Installs

variable {chainName : Text} {contracts : Table Path} (a : InstallAnswers) (e : Failure)

/-- The calls before one of a list and that one are a prefix of the list. -/
theorem prefix_of_split {done l : List Asked} {next : Asked} (rest : List Asked)
    (h : l = done ++ next :: rest) : done ++ [next] <+: l :=
  ⟨rest, by rw [h, List.append_assoc, List.singleton_append]⟩

theorem upTo_upload {done : Table Path} {c : Text × Path} {rest : Table Path}
    (split : contracts = done ++ c :: rest) :
    Installs chainName contracts (a.uploads done ++ [⟨uploading c.2 c.1, .error e⟩])
      (.error e) := by
  refine .upTo a _ ⟨uploading c.2 c.1, .ok (a.code c.1)⟩ e (prefix_of_split
    (a.uploads rest ++ a.kernelMade chainName ::
      (a.siblingsMade (siblingNames contracts) ++ a.registrations (siblingNames contracts))) ?_)
  have huploads : a.uploads contracts = a.uploads done ++
      ⟨uploading c.2 c.1, .ok (a.code c.1)⟩ :: a.uploads rest := by
    rw [split]
    exact List.map_append
  rw [InstallAnswers.calls, huploads, List.append_assoc, List.cons_append]

theorem upTo_kernel :
    Installs chainName contracts
      (a.uploads contracts ++ [⟨makingKernel chainName (a.code kernelName), .error e⟩])
      (.error e) :=
  .upTo a _ (a.kernelMade chainName) e (prefix_of_split _ rfl)

theorem upTo_sibling {done : List Text} {name : Text} {rest : List Text}
    (split : siblingNames contracts = done ++ name :: rest) :
    Installs chainName contracts
      (a.uploads contracts ++ a.kernelMade chainName :: a.siblingsMade done ++
        [⟨makingSibling a.kernel (a.code name) name, .error e⟩]) (.error e) := by
  refine .upTo a _ ⟨makingSibling a.kernel (a.code name) name, .ok (a.address name)⟩ e
    (prefix_of_split (a.siblingsMade rest ++ a.registrations (siblingNames contracts)) ?_)
  have hmade : a.siblingsMade (siblingNames contracts) = a.siblingsMade done ++
      ⟨makingSibling a.kernel (a.code name) name, .ok (a.address name)⟩ :: a.siblingsMade rest := by
    rw [split]
    exact List.map_append
  rw [InstallAnswers.calls, hmade]
  simp only [List.append_assoc, List.cons_append]

theorem upTo_registration {done : List Text} {name : Text} {rest : List Text}
    (split : siblingNames contracts = done ++ name :: rest) :
    Installs chainName contracts
      (a.uploads contracts ++ a.kernelMade chainName ::
        (a.siblingsMade (siblingNames contracts) ++ a.registrations done) ++
        [⟨registering a.kernel (a.address name) name, .error e⟩]) (.error e) := by
  refine .upTo a _ ⟨registering a.kernel (a.address name) name, .ok (a.hash name)⟩ e
    (prefix_of_split (a.registrations rest) ?_)
  have hregistered : a.registrations (siblingNames contracts) = a.registrations done ++
      ⟨registering a.kernel (a.address name) name, .ok (a.hash name)⟩ :: a.registrations rest := by
    rw [split]
    exact List.map_append
  rw [InstallAnswers.calls, hregistered]
  simp only [List.append_assoc, List.cons_append]

end Installs

/-! ## Installs -/

section Names

variable {contracts : Table Path}

theorem nodup_siblingNames (h : (Table.names contracts).Nodup) : (siblingNames contracts).Nodup :=
  h.filter _

theorem get?_codes (code : Text → Int) (h : kernelName ∈ Table.names contracts) :
    Table.get? kernelName (contracts.map fun c => (c.1, code c.1)) = some (code kernelName) := by
  have hcodes : (contracts.map fun c => (c.1, code c.1)) =
      (Table.names contracts).map fun name => (name, code name) := by
    rw [Table.names, List.map_map]
    rfl
  rw [hcodes, Table.get?_map code h]

theorem filter_codes (code : Text → Int) :
    (contracts.map fun c => (c.1, code c.1)).filter (fun p => p.1 != kernelName) =
      (siblingNames contracts).map fun name => (name, code name) := by
  simp only [siblingNames, Table.names, List.filter_map, List.map_map, Function.comp_def]

theorem perm_siblingNames (hkernel : kernelName ∈ Table.names contracts)
    (hnames : (Table.names contracts).Nodup) :
    (kernelName :: siblingNames contracts).Perm (Table.names contracts) := by
  have hsiblings : siblingNames contracts = (Table.names contracts).erase kernelName :=
    (hnames.erase_eq_filter _).symm
  rw [hsiblings]
  exact (List.perm_cons_erase hkernel).symm

theorem names_of_mapM {α β τ : Type} {key : α → Text} {f : α → Act τ β} {l : List α}
    {r : Table β} {s t : τ} (h : (l.mapM fun a => return (key a, ← f a)) s = .ok r t) :
    Table.names r = l.map key := by
  induction l generalizing r s with
  | nil =>
    rw [List.mapM_nil] at h
    cases h
    rfl
  | cons a l ih =>
    rw [List.mapM_cons] at h
    obtain ⟨p, u, hp, h⟩ := Act.bind_eq_ok h
    obtain ⟨rest, v, hrest, h⟩ := Act.bind_eq_ok h
    obtain ⟨b, w, -, hpair⟩ := Act.bind_eq_ok hp
    cases h
    cases hpair
    rw [Table.names_cons, ih hrest, List.map_cons]

/-- An install that succeeds gives the address of the kernel and those of the siblings in order. -/
theorem shape_of_install {σ : Type} {client : ChainClient σ} {chainName : Text}
    {addresses : Table Json} {o o' : σ}
    (h : install client chainName contracts o = .ok addresses o') :
    ∃ (kernel : Text) (siblings : Table Text), Table.names siblings = siblingNames contracts ∧
      addresses = (kernelName, .str kernel) :: siblings.map fun p => (p.1, .str p.2) := by
  rw [install] at h
  obtain ⟨codes, u, hcodes, h⟩ := Act.bind_eq_ok h
  cases hkernel : Table.get? kernelName codes with
  | none =>
    rw [hkernel] at h
    cases h
  | some code =>
    rw [hkernel] at h
    obtain ⟨kernel, v, -, h⟩ := Act.bind_eq_ok h
    obtain ⟨siblings, w, hsiblings, h⟩ := Act.bind_eq_ok h
    obtain ⟨_, x, -, h⟩ := Act.bind_eq_ok h
    cases h
    have hnames : Table.names siblings =
        (codes.filter fun p => p.1 != kernelName).map (·.1) := names_of_mapM hsiblings
    have hstored : Table.names codes = Table.names contracts := names_of_mapM hcodes
    refine ⟨kernel, siblings, ?_, rfl⟩
    rw [hnames, siblingNames, ← hstored, Table.names, List.filter_map]
    rfl

theorem names_of_install {σ : Type} {client : ChainClient σ} {chainName : Text}
    {addresses : Table Json} {o o' : σ}
    (h : install client chainName contracts o = .ok addresses o') :
    Table.names addresses = kernelName :: siblingNames contracts := by
  obtain ⟨kernel, siblings, hsiblings, rfl⟩ := shape_of_install h
  rw [Table.names_cons, Table.names_mapValues, hsiblings]

theorem texts_of_install {σ : Type} {client : ChainClient σ} {chainName : Text}
    {addresses : Table Json} {o o' : σ}
    (h : install client chainName contracts o = .ok addresses o') :
    ∀ p ∈ addresses, ∃ s, p.2 = .str s := by
  obtain ⟨kernel, siblings, -, rfl⟩ := shape_of_install h
  refine List.forall_mem_cons.2 ⟨⟨kernel, rfl⟩, fun p hp => ?_⟩
  obtain ⟨q, -, rfl⟩ := List.mem_map.1 hp
  exact ⟨q.2, rfl⟩

end Names

section Install

variable {σ : Type} (client : ChainClient σ) {contracts : Table Path} (code : Text → Int)
  (kernel : Text) (address : Text → Text)

theorem notes_noted (call : ChainCall) :
    Logged.Notes (fun ended => Asked.mk call ended) (client.noted.answer call) :=
  Logged.notes_noting _ _

/-! ### The three loops -/

theorem uploadAll_noted (h : (Table.names contracts).Nodup) (s : Logged Asked σ) :
    Logged.Looped (β := Int) Prod.fst (fun c ended => Asked.mk (uploading c.2 c.1) ended) contracts
      (fun code => contracts.map fun c => (c.1, code c.1)) s
      (uploadAll client.noted contracts s) :=
  Logged.mapM_of_notes Prod.fst (fun c => notes_noted client (uploading c.2 c.1)) contracts h s

theorem makeSiblings_noted {names : List Text} (h : names.Nodup) (s : Logged Asked σ) :
    Logged.Looped (β := Text) id
      (fun name ended => Asked.mk (makingSibling kernel (code name) name) ended) names
      (fun address => names.map fun name => (name, address name)) s
      (makeSiblings client.noted kernel (names.map fun name => (name, code name)) s) := by
  rw [makeSiblings, List.mapM_map]
  exact Logged.mapM_of_notes id
    (fun name => notes_noted client (makingSibling kernel (code name) name)) names
    (by rwa [List.map_id]) s

theorem register_noted {names : List Text} (h : names.Nodup) (s : Logged Asked σ) :
    Logged.Looped (β := Text) id
      (fun name ended => Asked.mk (registering kernel (address name) name) ended) names
      (fun _ => ()) s
      (register client.noted kernel (names.map fun name => (name, address name)) s) := by
  rw [register, List.forM_eq_forM, List.forM_map]
  exact Logged.forM_of_notes id
    (fun name => notes_noted client (registering kernel (address name) name)) names
    (by rwa [List.map_id]) s

/-! ### All phases -/

/-- An act is what remains of an install after the calls `made`: with the calls that it makes these
are the calls of the install. -/
def Completes (chainName : Text) (contracts : Table Path) (made : List Asked)
    (x : Act (Logged Asked σ) (Table Json)) (s : Logged Asked σ) : Prop :=
  ∃ calls ended t, Installs chainName contracts (made ++ calls) ended ∧
    Act.outcome x s = (ended, ⟨s.log ++ calls, t⟩)

section Completes

variable {chainName : Text} {made l : List Asked} {α : Type} {x : Act (Logged Asked σ) α}
  {f : α → Act (Logged Asked σ) (Table Json)} {s : Logged Asked σ} {t : σ}

theorem completes_of_ok {a : α} (hx : x s = .ok a ⟨s.log ++ l, t⟩)
    (hf : Completes chainName contracts (made ++ l) (f a) ⟨s.log ++ l, t⟩) :
    Completes chainName contracts made (x >>= f) s := by
  obtain ⟨calls, ended, u, hinstalls, hrun⟩ := hf
  refine ⟨l ++ calls, ended, u, by rwa [← List.append_assoc], ?_⟩
  rw [Act.outcome, Act.bind_run_ok hx, ← List.append_assoc]
  exact hrun

theorem completes_of_error {e : Failure} (hx : x s = .error e ⟨s.log ++ l, t⟩)
    (hl : Installs chainName contracts (made ++ l) (.error e)) :
    Completes chainName contracts made (x >>= f) s :=
  ⟨l, .error e, t, hl, by rw [Act.outcome, Act.bind_run_error hx]⟩

end Completes

/-- The siblings are told to the kernel, and the addresses are given. -/
theorem completes_register (chainName : Text) (hnames : (Table.names contracts).Nodup)
    (a : InstallAnswers) (s : Logged Asked σ) :
    Completes chainName contracts
      (a.uploads contracts ++ a.kernelMade chainName :: a.siblingsMade (siblingNames contracts))
      (register client.noted a.kernel
          ((siblingNames contracts).map fun name => (name, a.address name)) >>= fun _ =>
        return (kernelName, .str a.kernel) ::
          ((siblingNames contracts).map fun name => (name, a.address name)).map
            fun p => (p.1, .str p.2)) s := by
  generalize hrun : register client.noted a.kernel _ s = registered
  have hregistered := hrun ▸ register_noted client a.kernel a.address (nodup_siblingNames hnames) s
  cases hregistered with
  | upTo hash done name rest e t split =>
    rw [List.append_assoc] at hrun
    refine completes_of_error hrun ?_
    rw [← List.append_assoc, List.append_assoc (a.uploads contracts), List.cons_append]
    exact .upTo_registration { a with hash } e split
  | all hash t =>
    refine completes_of_ok hrun ⟨[], .ok (a.addresses contracts), t, ?_, ?_⟩
    · rw [List.append_nil, List.append_assoc, List.cons_append]
      exact .all { a with hash }
    · rw [List.append_nil, List.map_map]
      rfl

/-- The siblings are made, and what remains after that. -/
theorem completes_makeSiblings (chainName : Text) (hnames : (Table.names contracts).Nodup)
    (code : Text → Int) (kernel : Text) (s : Logged Asked σ) :
    Completes chainName contracts
      (InstallAnswers.uploads ⟨code, kernel, fun _ => [], fun _ => []⟩ contracts ++
        [InstallAnswers.kernelMade ⟨code, kernel, fun _ => [], fun _ => []⟩ chainName])
      (makeSiblings client.noted kernel
          ((siblingNames contracts).map fun name => (name, code name)) >>= fun siblings =>
        register client.noted kernel siblings >>= fun _ =>
        return (kernelName, .str kernel) :: siblings.map fun p => (p.1, .str p.2)) s := by
  generalize hrun : makeSiblings client.noted kernel _ s = made
  have hmade := hrun ▸ makeSiblings_noted client code kernel (nodup_siblingNames hnames) s
  cases hmade with
  | upTo address done name rest e t split =>
    rw [List.append_assoc] at hrun
    refine completes_of_error hrun ?_
    rw [← List.append_assoc, List.append_assoc (InstallAnswers.uploads _ contracts),
      List.singleton_append]
    exact .upTo_sibling ⟨code, kernel, address, fun _ => []⟩ e split
  | all address t =>
    refine completes_of_ok hrun ?_
    rw [List.append_assoc, List.singleton_append]
    exact completes_register client chainName hnames ⟨code, kernel, address, fun _ => []⟩ _

/-- The kernel is made, and what remains after that. -/
theorem completes_makeKernel (chainName : Text) (hnames : (Table.names contracts).Nodup)
    (code : Text → Int) (s : Logged Asked σ) :
    Completes chainName contracts
      (InstallAnswers.uploads ⟨code, [], fun _ => [], fun _ => []⟩ contracts)
      (client.noted.answer (makingKernel chainName (code kernelName)) >>= fun kernel =>
        makeSiblings client.noted kernel
            ((siblingNames contracts).map fun name => (name, code name)) >>= fun siblings =>
        register client.noted kernel siblings >>= fun _ =>
        return (kernelName, .str kernel) :: siblings.map fun p => (p.1, .str p.2)) s := by
  rcases notes_noted client (makingKernel chainName (code kernelName)) s with
    ⟨kernel, t, hrun⟩ | ⟨e, t, hrun⟩
  · exact completes_of_ok hrun (completes_makeSiblings client chainName hnames code kernel _)
  · exact completes_of_error hrun (.upTo_kernel ⟨code, [], fun _ => [], fun _ => []⟩ e)

/-- An install makes its calls in order, all of them or those up to the first that fails. -/
theorem install_noted (chainName : Text) (hkernel : kernelName ∈ Table.names contracts)
    (hnames : (Table.names contracts).Nodup) (s : Logged Asked σ) :
    Completes chainName contracts [] (install client.noted chainName contracts) s := by
  rw [install]
  generalize hrun : uploadAll client.noted contracts s = uploaded
  have huploaded := hrun ▸ uploadAll_noted client hnames s
  cases huploaded with
  | upTo code done c rest e t split =>
    rw [List.append_assoc] at hrun
    exact completes_of_error hrun (.upTo_upload ⟨code, [], fun _ => [], fun _ => []⟩ e split)
  | all code t =>
    refine completes_of_ok hrun ?_
    simp only [get?_codes code hkernel, filter_codes]
    exact completes_makeKernel client chainName hnames code _

end Install

end Bootstrap

end CrossChain
