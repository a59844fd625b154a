import CrossChain.Proofs.Bootstrap.Setup
import CrossChain.Proofs.Json.Strings
import Mathlib.Logic.Function.Basic

/-!
# What the kernels of a chain know

A chain shows in the state of the outside world as the addresses that are taken and the names that
each kernel knows.  An install makes a kernel of its own and writes nowhere else, so whatever other
kernels know stays (`ChainView.Serves.within_install`), and once it is done its kernel knows every
address that it gives (`ChainView.Serves.knows_of_install`).
-/

namespace CrossChain

/-- How a chain shows in states: which addresses are taken, and the address that each kernel has for
a name. -/
structure ChainView (σ : Type) where
  chainId : Text
  Taken : σ → Text → Prop
  registered : σ → Text → Text → Option Text

/-- A call that tells a contract an address. -/
def ChainCall.Registers : ChainCall → Prop
  | .execute _ message _ =>
    ∃ name address, message = (ContractMessage.upsertKeyAddress name address).toJson
  | _ => False

/-- Asking a kernel for the address of a name. -/
def Bootstrap.asking (kernel name : Text) : ChainCall :=
  .query (.str kernel) (ContractMessage.keyAddress name).toJson

open Bootstrap

namespace ChainView

variable {σ : Type} (view : ChainView σ)

/-! ## Chains that grow -/

/-- What is taken stays taken, and of the contracts that were there all but one know what they
knew. -/
structure ExtendsBut (kernel : Text) (s t : σ) : Prop where
  taken : ∀ a, view.Taken s a → view.Taken t a
  registered : ∀ a, view.Taken s a → a ≠ kernel → view.registered t a = view.registered s a

/-- What is taken stays taken, and all contracts that were there know what they knew. -/
structure Extends (s t : σ) : Prop where
  taken : ∀ a, view.Taken s a → view.Taken t a
  registered : ∀ a, view.Taken s a → view.registered t a = view.registered s a

instance extendsBut_refl (kernel : Text) : Std.Refl (view.ExtendsBut kernel) :=
  ⟨fun _ => ⟨fun _ h => h, fun _ _ _ => rfl⟩⟩

instance extendsBut_trans (kernel : Text) : IsTrans σ (view.ExtendsBut kernel) where
  trans _ _ _ h h' :=
    ⟨fun a ha => h'.taken a (h.taken a ha), fun a ha hne =>
      (h'.registered a (h.taken a ha) hne).trans (h.registered a ha hne)⟩

instance extends_refl : Std.Refl view.Extends := ⟨fun _ => ⟨fun _ h => h, fun _ _ => rfl⟩⟩

instance extends_trans : IsTrans σ view.Extends where
  trans _ _ _ h h' :=
    ⟨fun a ha => h'.taken a (h.taken a ha), fun a ha =>
      (h'.registered a (h.taken a ha)).trans (h.registered a ha)⟩

section Extends

variable {view} {kernel : Text} {s t u : σ}

theorem Extends.but (h : view.Extends s t) (kernel : Text) : view.ExtendsBut kernel s t :=
  ⟨h.taken, fun a ha _ => h.registered a ha⟩

/-- What was written only to a contract that was not there at first has left all others alone. -/
theorem Extends.trans_but (h : view.Extends s t) (hnew : ¬ view.Taken s kernel)
    (hbut : view.ExtendsBut kernel t u) : view.Extends s u where
  taken a ha := hbut.taken a (h.taken a ha)
  registered a ha := by
    have hne : a ≠ kernel := fun he => hnew (he ▸ ha)
    exact (hbut.registered a (h.taken a ha) hne).trans (h.registered a ha)

end Extends

/-! ## Clients -/

/-- A client of the chain.  Every contract that it makes stands at a new address; only telling a
kernel an address writes what that kernel knows, and that is what the kernel answers with. -/
structure Serves (client : ChainClient σ) : Prop where
  chainId : client.chainId = view.chainId
  within : ∀ call, ¬ call.Registers → Act.Within view.Extends (client.answer call)
  fresh : ∀ {code body : Json} {label a : Text} {s t : σ},
    client.answer (.instantiate code body label) s = .ok a t →
      ¬ view.Taken s a ∧ view.Taken t a ∧ a.Unpaired
  within_registering : ∀ kernel address name,
    Act.Within (view.ExtendsBut kernel) (client.answer (registering kernel address name))
  registers : ∀ {kernel address name hash : Text} {s t : σ},
    client.answer (registering kernel address name) s = .ok hash t →
      view.registered t kernel = Function.update (view.registered s kernel) name (some address)
  answers : ∀ {kernel name a : Text} {s : σ}, view.registered s kernel name = some a →
    ∃ t, client.answer (asking kernel name) s = .ok (.str a) t

namespace Serves

variable {view} {client : ChainClient σ} (h : view.Serves client)
include h

theorem within_but_instantiate (kernel : Text) (code body : Json) (label : Text) :
    Act.Within (view.ExtendsBut kernel) (client.instantiate code body label) := fun s =>
  (h.within (.instantiate code body label) id s).but kernel

/-- However an install ends, what was taken before stays taken, and the kernels that were there know
what they knew. -/
theorem within_install (chainName : Text) (contracts : Table Path) :
    Act.Within view.Extends (install client chainName contracts) := by
  rw [install_eq]
  refine (within_uploadAll (fun _ _ => h.within _ id) contracts).bind fun codes => ?_
  cases Table.get? kernelName codes with
  | none => exact Act.within_throw _
  | some code =>
    intro s
    have hmade : Act.Within view.Extends (client.instantiate (.int code)
        (Instantiation.kernel chainName none).toJson kernelName) := h.within _ id
    cases hrun : client.instantiate (.int code) (Instantiation.kernel chainName none).toJson
        kernelName s with
    | error e t =>
      have hended := Act.bind_run_error (f := installSiblings client codes) hrun
      exact Act.final_error hended ▸ hmade.error hrun
    | ok kernel t =>
      -- The kernel that is written to from now on is new.
      have hrest : view.ExtendsBut kernel t ((installSiblings client codes kernel).final t) :=
        within_installSiblings (h.within_but_instantiate kernel) (h.within_registering kernel)
          codes t
      have hended := Act.final_bind_ok (f := installSiblings client codes) hrun
      exact hended ▸ (hmade.ok hrun).trans_but (h.fresh hrun).1 hrest

/-- A kernel that was told addresses knows them beside what it knew. -/
theorem registered_of_register {kernel : Text} {siblings : Table Text} {s t : σ}
    (hnames : (Table.names siblings).Nodup)
    (hrun : register client kernel siblings s = .ok () t) (name : Text) :
    view.registered t kernel name =
      (Table.get? name siblings).or (view.registered s kernel name) := by
  induction siblings generalizing s with
  | nil =>
    cases hrun
    rfl
  | cons p siblings ih =>
    obtain ⟨hp, hnames⟩ := List.nodup_cons.1 hnames
    obtain ⟨_, u, hfirst, hrest⟩ := Act.bind_eq_ok hrun
    obtain ⟨hash, v, htold, hdiscard⟩ := Act.bind_eq_ok hfirst
    cases hdiscard
    rw [ih hnames hrest, h.registers htold]
    by_cases hname : p.1 = name
    · subst hname
      have hnone : Table.get? p.1 siblings = none := by
        rw [← Option.not_isSome_iff_eq_none, Table.isSome_get?]
        exact hp
      rw [hnone, Function.update_self, Table.get?, if_pos rfl]
      rfl
    · rw [Function.update_of_ne (Ne.symm hname), Table.get?, if_neg hname]

theorem unpaired_of_makeSiblings {kernel : Text} {codes : Table Int} {siblings : Table Text}
    {s t : σ} (hrun : makeSiblings client kernel codes s = .ok siblings t) :
    ∀ p ∈ siblings, p.2.Unpaired := by
  induction codes generalizing siblings s with
  | nil =>
    rw [makeSiblings, List.mapM_nil] at hrun
    cases hrun
    exact List.forall_mem_nil _
  | cons c codes ih =>
    rw [makeSiblings, List.mapM_cons] at hrun
    obtain ⟨p, u, hfirst, hrun⟩ := Act.bind_eq_ok hrun
    obtain ⟨rest, v, hrest, hrun⟩ := Act.bind_eq_ok hrun
    obtain ⟨a, w, hmade, hpair⟩ := Act.bind_eq_ok hfirst
    cases hrun
    cases hpair
    exact List.forall_mem_cons.2 ⟨(h.fresh hmade).2.2, ih hrest⟩

end Serves

/-! ## Addresses that a kernel knows -/

/-- The kernel of a table of addresses knows all the others. -/
def Knows (s : σ) (addresses : Table Json) : Prop :=
  ∀ p ∈ addresses, p.1 ≠ kernelName → ∃ kernel a,
    Table.get? kernelName addresses = some (.str kernel) ∧ view.Taken s kernel ∧
      p.2 = .str a ∧ view.registered s kernel p.1 = some a

section Knows

variable {view} {s t : σ} {addresses : Table Json}

theorem knows_nil (s : σ) : view.Knows s [] := nofun

theorem Knows.mono (h : view.Knows s addresses) (hext : view.Extends s t) :
    view.Knows t addresses := by
  intro p hp hne
  obtain ⟨kernel, a, hkernel, htaken, ha, hknown⟩ := h p hp hne
  exact ⟨kernel, a, hkernel, hext.taken kernel htaken, ha,
    (congrFun (hext.registered kernel htaken) p.1).trans hknown⟩

theorem mem_of_mem_restrict {names : List Text} {p : Text × Json}
    (hp : p ∈ Table.restrict names addresses) : p ∈ addresses := by
  obtain ⟨name, -, hfound⟩ := List.mem_filterMap.1 hp
  obtain ⟨v, hv, rfl⟩ := Option.map_eq_some_iff.1 hfound
  exact Table.mem_of_get? hv

theorem Knows.restrict (h : view.Knows s addresses) {names : List Text}
    (hkernel : kernelName ∈ names) : view.Knows s (Table.restrict names addresses) := by
  intro p hp hne
  obtain ⟨kernel, a, hfound, hrest⟩ := h p (mem_of_mem_restrict hp) hne
  have hmem : kernelName ∈ Table.names addresses :=
    Table.isSome_get?.1 (Option.isSome_iff_exists.2 ⟨_, hfound⟩)
  exact ⟨kernel, a, (Table.get?_restrict hkernel hmem).trans hfound, hrest⟩

/-- Once an install is done its kernel knows every address that it gives, and the addresses can be
kept. -/
theorem Serves.knows_of_install {client : ChainClient σ} (h : view.Serves client) {chainName : Text}
    {contracts : Table Path} (hnames : (Table.names contracts).Nodup)
    (hrun : install client chainName contracts s = .ok addresses t) :
    view.Knows t addresses ∧ ∀ p ∈ addresses, ∃ a : Text, p.2 = .str a ∧ a.Unpaired := by
  have hgiven := names_of_install hrun
  rw [install_eq] at hrun
  obtain ⟨codes, u, -, hrun⟩ := Act.bind_eq_ok hrun
  cases hcode : Table.get? kernelName codes with
  | none =>
    rw [hcode] at hrun
    cases hrun
  | some code =>
    rw [hcode] at hrun
    obtain ⟨kernel, v, hkernel, hrun⟩ := Act.bind_eq_ok hrun
    obtain ⟨siblings, w, hsiblings, hrun⟩ := Act.bind_eq_ok hrun
    obtain ⟨_, x, hregister, hrun⟩ := Act.bind_eq_ok hrun
    cases hrun
    rw [Table.names_cons, Table.names_mapValues] at hgiven
    have hdistinct : (Table.names siblings).Nodup := by
      rw [(List.cons.inj hgiven).2]
      exact nodup_siblingNames hnames
    obtain ⟨-, htaken, hplain⟩ := h.fresh hkernel
    have htaken : view.Taken t kernel := by
      have hmade := (within_makeSiblings (h.within_but_instantiate kernel) kernel _).ok hsiblings
      have htold := (within_register (h.within_registering kernel) siblings).ok hregister
      exact htold.taken kernel (hmade.taken kernel htaken)
    constructor
    · intro p hp hne
      obtain ⟨q, hq, rfl⟩ := List.mem_map.1 ((List.mem_cons.1 hp).resolve_left fun he =>
        hne (congrArg Prod.fst he))
      refine ⟨kernel, q.2, rfl, htaken, rfl, ?_⟩
      rw [h.registered_of_register hdistinct hregister, Table.get?_of_mem hdistinct hq]
      rfl
    · refine List.forall_mem_cons.2 ⟨⟨kernel, rfl, hplain⟩, fun p hp => ?_⟩
      obtain ⟨q, hq, rfl⟩ := List.mem_map.1 hp
      exact ⟨q.2, rfl, h.unpaired_of_makeSiblings hsiblings q hq⟩

end Knows

end ChainView

/-! ## A chain with a book -/

/-- How many contracts were made on a chain, and what each kernel knows. -/
structure Book where
  made : Nat := 0
  known : Text → Text → Option Text := fun _ _ => none

namespace Book

/-- The address of the contract that is made after `n` others. -/
def address (n : Nat) : Text := text "andr1" ++ List.replicate n 113

/-- The name and the address that a message tells. -/
def told? : Json → Option (Text × Text)
  | .obj [(tag, .obj [(key, .str name), (value, .str a)])] =>
    if tag = text "upsert_key_address" ∧ key = text "key" ∧ value = text "value" then
      some (name, a)
    else none
  | _ => none

/-- The name that a message asks for. -/
def asked? : Json → Option Text
  | .obj [(_, .obj [(_, .str name)])] => some name
  | _ => none

/-- The book after a kernel was told an address. -/
def tell (s : Book) (kernel name a : Text) : Book where
  made := s.made
  known := Function.update s.known kernel (Function.update (s.known kernel) name (some a))

/-- The book after a message to a kernel. -/
def hear (s : Book) (kernel : Text) (message : Json) : Book :=
  match told? message with
  | some (name, a) => s.tell kernel name a
  | none => s

/-- What a kernel answers. -/
def say (s : Book) (kernel : Text) (message : Json) : Except Failure Json :=
  match (asked? message).bind (s.known kernel) with
  | some a => .ok (.str a)
  | none => .error (.contract (.str kernel) "unknown")

/-- A client that makes contracts at one address after the other and writes the book. -/
def client (chainId : Text) : ChainClient Book where
  chainId := chainId
  sender := "andr1sender"
  answer
    | .upload _ _ => return (7 : Int)
    | .instantiate _ _ _ => do
      let s ← get
      set { s with made := s.made + 1 }
      return address s.made
    | .execute (.str kernel) message _ => do
      modify fun s => s.hear kernel message
      return text "0F"
    | .query (.str kernel) message => do
      Act.ofExcept ((← get).say kernel message)
    | _ => throw (.contract .null "refused")

/-- The chain that the book is about. -/
def view (chainId : Text) : ChainView Book where
  chainId := chainId
  Taken s a := ∃ n < s.made, a = address n
  registered := known

theorem address_inj {n m : Nat} (h : address n = address m) : n = m := by
  have hlength := congrArg List.length h
  simpa [address] using hlength

theorem unpaired_address (n : Nat) : (address n).Unpaired := by
  have hhigh : ∀ c ∈ address n, c.isHighSurrogate = false := by
    have hprefix : (text "andr1").all (fun c => !c.isHighSurrogate) = true := rfl
    intro c hc
    rcases List.mem_append.1 hc with hc | hc
    · simpa using List.all_eq_true.1 hprefix c hc
    · rw [(List.mem_replicate.1 hc).2]
      rfl
  apply List.Pairwise.isChain
  apply List.pairwise_of_forall_mem_list
  intro c hc d _ hboth
  rw [hhigh c hc] at hboth
  exact Bool.false_ne_true hboth.1

theorem registers_of_told? {message : Json} {name a : Text} (h : told? message = some (name, a)) :
    message = (ContractMessage.upsertKeyAddress name (.str a)).toJson := by
  unfold told? at h
  split at h
  · split at h
    · next hkeys =>
      obtain ⟨rfl, rfl, rfl⟩ := hkeys
      cases h
      rfl
    · cases h
  · cases h

variable (chainId : Text)

theorem within_client (call : ChainCall) (hcall : ¬ call.Registers) :
    Act.Within (view chainId).Extends ((client chainId).answer call) := by
  cases call with
  | upload file label => exact Act.within_pure _
  | instantiate code body label =>
    refine fun s => ⟨fun a ha => ?_, fun a _ => rfl⟩
    obtain ⟨n, hn, ha⟩ := ha
    exact ⟨n, Nat.lt_succ_of_lt hn, ha⟩
  | execute address message funds =>
    cases address with
    | str kernel =>
      have hsame : ∀ s : Book, s.hear kernel message = s := by
        intro s
        unfold hear
        cases htold : told? message with
        | none => rfl
        | some p => exact absurd ⟨p.1, .str p.2, registers_of_told? htold⟩ hcall
      refine fun s => ?_
      have hrun : (client chainId).answer (.execute (.str kernel) message funds) s =
          .ok (text "0F") (s.hear kernel message) := rfl
      rw [Act.final_ok hrun, hsame]
      exact Std.Refl.refl s
    | _ => exact Act.within_throw _
  | query address message =>
    cases address with
    | str kernel => exact Act.within_get.bind fun s => Act.within_ofExcept _
    | _ => exact Act.within_throw _
  | balance address denom => exact Act.within_throw _
  | sendTokens recipient funds => exact Act.within_throw _

theorem registering_run (kernel a name : Text) (s : Book) :
    (client chainId).answer (registering kernel a name) s =
      .ok (text "0F") (s.tell kernel name a) := rfl

/-- The client of a book is a client of its chain. -/
theorem serves : (view chainId).Serves (client chainId) where
  chainId := rfl
  within := within_client chainId
  fresh := by
    intro code body label a s t h
    cases h
    refine ⟨?_, ⟨s.made, Nat.lt_succ_self _, rfl⟩, unpaired_address _⟩
    rintro ⟨n, hn, ha⟩
    rw [address_inj ha] at hn
    exact Nat.lt_irrefl n hn
  within_registering kernel a name s := by
    rw [Act.final_ok (registering_run chainId kernel a name s)]
    exact ⟨fun _ h => h, fun b _ hne => Function.update_of_ne hne _ _⟩
  registers := by
    intro kernel a name hash s t h
    rw [registering_run] at h
    cases h
    exact Function.update_self _ _ _
  answers := by
    intro kernel name a s h
    have hsay : s.say kernel (ContractMessage.keyAddress name).toJson = .ok (.str a) := by
      have hknown : (asked? (ContractMessage.keyAddress name).toJson).bind (s.known kernel) =
          some a := h
      rw [say, hknown]
    refine ⟨s, ?_⟩
    show (Act.ofExcept (s.say kernel (ContractMessage.keyAddress name).toJson) : Act Book Json) s =
      .ok (.str a) s
    rw [hsay]
    rfl

end Book

end CrossChain
