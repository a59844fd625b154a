import CrossChain.Hermes.Relayer
import CrossChain.Proofs.Outcome.Exactness

/-!
# Infos that are merged

Merging infos is associative and the empty info changes nothing, so infos in their order come to the
same however they are bracketed (`Merged.eq_mergeAll`).  A check of one direction adds up over a
merge: the counts are added and the acknowledgements of both infos looked at (`check_merge_eq_ok`).
A sweep of hermes tells what each of its channels moved, merged (`Hermes.relayAll_eq`).
-/

namespace CrossChain

namespace RelayInfo

/-! ## Merging -/

theorem merge_assoc (x y z : RelayInfo) : (x.merge y).merge z = x.merge (y.merge z) := by
  simp only [merge, Int.add_assoc, List.append_assoc]

@[simp] theorem merge_empty (x : RelayInfo) : x.merge {} = x := by
  simp only [merge, Int.add_zero, List.append_nil]

@[simp] theorem empty_merge (x : RelayInfo) : merge {} x = x := by
  simp only [merge, Int.zero_add, List.nil_append]

/-- Infos merged into one. -/
def mergeAll (infos : List RelayInfo) : RelayInfo := infos.foldr merge {}

theorem mergeAll_cons (x : RelayInfo) (infos : List RelayInfo) :
    mergeAll (x :: infos) = x.merge (mergeAll infos) := rfl

theorem mergeAll_append (xs ys : List RelayInfo) :
    mergeAll (xs ++ ys) = (mergeAll xs).merge (mergeAll ys) := by
  induction xs with
  | nil => exact (empty_merge _).symm
  | cons x xs ih => rw [List.cons_append, mergeAll_cons, mergeAll_cons, ih, merge_assoc]

/-- An info comes of merging infos in their order, in some bracketing. -/
inductive Merged : List RelayInfo → RelayInfo → Prop
  | none : Merged [] {}
  | one (x : RelayInfo) : Merged [x] x
  | both {xs ys : List RelayInfo} {x y : RelayInfo} (hx : Merged xs x) (hy : Merged ys y) :
    Merged (xs ++ ys) (x.merge y)

theorem Merged.eq_mergeAll {infos : List RelayInfo} {info : RelayInfo} (h : Merged infos info) :
    info = mergeAll infos := by
  induction h with
  | none => rfl
  | one x => exact (merge_empty x).symm
  | both _ _ hx hy => rw [mergeAll_append, ← hx, ← hy]

theorem merged_mergeAll (infos : List RelayInfo) : Merged infos (mergeAll infos) := by
  induction infos with
  | nil => exact .none
  | cons x infos ih => exact .both (.one x) ih

/-! ## Checks -/

variable {x y : RelayInfo} {m n count : Int} {success : Bool} {side : Side}

theorem sentFrom_merge (x y : RelayInfo) (side : Side) :
    (x.merge y).sentFrom side = ((x.sentFrom side).1 + (y.sentFrom side).1,
      (x.sentFrom side).2 ++ (y.sentFrom side).2) := by
  cases side <;> rfl

/-- A check of merged infos adds their counts and looks at the acknowledgements of both. -/
theorem check_merge_eq_ok [Json.Limits] : (x.merge y).check count success side = .ok () ↔
    (x.sentFrom side).1 + (y.sentFrom side).1 = count ∧
      ((x.sentFrom side).2.length : Int) + (y.sentFrom side).2.length = count ∧
      (∀ ack ∈ (x.sentFrom side).2, ack.body.Answers success) ∧
      ∀ ack ∈ (y.sentFrom side).2, ack.body.Answers success := by
  rw [check_eq_ok, Counted, sentFrom_merge, List.length_append, Int.natCast_add,
    List.forall_mem_append, and_assoc]

theorem check_merge [Json.Limits] (hx : x.check m success side = .ok ())
    (hy : y.check n success side = .ok ()) :
    (x.merge y).check (m + n) success side = .ok () := by
  obtain ⟨⟨hpackets, hacks⟩, hall⟩ := check_eq_ok.1 hx
  obtain ⟨⟨hpackets', hacks'⟩, hall'⟩ := check_eq_ok.1 hy
  exact check_merge_eq_ok.2 ⟨by rw [hpackets, hpackets'], by rw [hacks, hacks'], hall, hall'⟩

end RelayInfo

/-! ## Sweeps -/

namespace Hermes

open RelayInfo (Merged mergeAll)

section Sweeps

variable {σ α : Type}

theorem foldlM_merge (f : α → Act σ RelayInfo) (l : List α) (info : RelayInfo) :
    (l.foldlM (fun info a => return info.merge (← f a)) info : Act σ RelayInfo) =
      return info.merge (mergeAll (← l.mapM f)) := by
  induction l generalizing info with
  | nil =>
    rw [List.foldlM_nil, List.mapM_nil, pure_bind]
    exact congrArg pure (RelayInfo.merge_empty info).symm
  | cons a l ih =>
    rw [List.foldlM_cons, List.mapM_cons]
    simp only [bind_assoc, pure_bind, ih, RelayInfo.mergeAll_cons, RelayInfo.merge_assoc]

variable (binary : Text) (run : List Text → Act σ ProcessResult) (link : Link)

/-- What each channel of a link moved, asked for in order. -/
def relayEach [Json.Limits] : Act σ (List RelayInfo) :=
  link.channels.mapM (relayChannel binary run link.chainA link.chainB)

theorem relayAll_eq [Json.Limits] :
    relayAll binary run link = return mergeAll (← relayEach binary run link) := by
  rw [relayAll, foldlM_merge]
  simp only [RelayInfo.empty_merge, relayEach]

variable {binary run link} {s t : σ} {info : RelayInfo}

theorem relayAll_eq_ok [Json.Limits] (h : relayAll binary run link s = .ok info t) :
    ∃ infos, relayEach binary run link s = .ok infos t ∧ info = mergeAll infos := by
  rw [relayAll_eq] at h
  obtain ⟨infos, u, hinfos, hend⟩ := Act.bind_eq_ok h
  cases hend
  exact ⟨infos, hinfos, rfl⟩

end Sweeps

/-- Infos can be merged in any bracketing, and the empty info is no part of what they come to.  If
checks of one direction pass on two infos, then one with the sum of their counts passes on both
merged; if any passes on both merged, then each acknowledgement of either answers as expected, and
their packets and their acknowledgements sum to the count.  What a sweep of hermes tells is checked
like what its channels moved, merged in whatever bracketing. -/
theorem checks_add_up [Json.Limits] :
    (∀ x y z : RelayInfo, (x.merge y).merge z = x.merge (y.merge z)) ∧
    (∀ x : RelayInfo, x.merge {} = x ∧ RelayInfo.merge {} x = x) ∧
    (∀ (x y : RelayInfo) (m n : Int) (success : Bool) (side : Side),
      x.check m success side = .ok () → y.check n success side = .ok () →
        (x.merge y).check (m + n) success side = .ok ()) ∧
    (∀ (x y : RelayInfo) (count : Int) (success : Bool) (side : Side),
      (x.merge y).check count success side = .ok () →
        (x.sentFrom side).1 + (y.sentFrom side).1 = count ∧
        ((x.sentFrom side).2.length : Int) + (y.sentFrom side).2.length = count ∧
        (∀ ack ∈ (x.sentFrom side).2, ack.body.Answers success) ∧
        ∀ ack ∈ (y.sentFrom side).2, ack.body.Answers success) ∧
    ∀ {σ : Type} (binary : Text) (run : List Text → Act σ ProcessResult) (link : Link) (s t : σ)
      (info : RelayInfo), relayAll binary run link s = .ok info t →
        ∃ infos, relayEach binary run link s = .ok infos t ∧ Merged infos info ∧
          ∀ merged, Merged infos merged → ∀ (count : Int) (success : Bool) (side : Side),
            info.check count success side = merged.check count success side := by
  refine ⟨RelayInfo.merge_assoc, fun x => ⟨x.merge_empty, x.empty_merge⟩,
    fun _ _ _ _ _ _ => RelayInfo.check_merge, fun _ _ _ _ _ => RelayInfo.check_merge_eq_ok.1, ?_⟩
  intro σ binary run link s t info h
  obtain ⟨infos, hinfos, rfl⟩ := relayAll_eq_ok h
  refine ⟨infos, hinfos, RelayInfo.merged_mergeAll infos, fun merged hmerged _ _ _ => ?_⟩
  rw [hmerged.eq_mergeAll]

/-! ### Three packets -/

/-- Packets from chain A, each answered with a result. -/
def answered (n : Nat) : RelayInfo where
  packetsFromA := n
  acksFromB := List.replicate n { body := .text "\x7b\"result\":\"AQ==\"\x7d" }

/-- A link with two channels. -/
def pairedLink : Link where
  chainA := Settings.localChain (fun _ => none) "localhost" "a" "chain-a" "A" "1" "2"
  chainB := Settings.localChain (fun _ => none) "localhost" "b" "chain-b" "B" "3" "4"
  connectionA := .str "connection-0"
  connectionB := .str "connection-0"
  channels :=
    [⟨⟨"transfer", .str "channel-0"⟩, ⟨"transfer", .str "channel-0"⟩⟩,
      ⟨⟨"transfer", .str "channel-1"⟩, ⟨"transfer", .str "channel-2"⟩⟩]

/-- Every delivery brings one packet, which nobody acknowledges. -/
def onePacketEach : List Text → Act Unit ProcessResult := fun _ =>
  return { stdout := "\x7b\"result\":[\x7b\"ReceivePacket\":\x7b\x7d\x7d]\x7d" }

theorem answers_result : (AckBody.text "\x7b\"result\":\"AQ==\"\x7d").Answers true :=
  ⟨.str "AQ==", by cbv⟩

theorem check_answered (n : Nat) : (answered n).check n true .a = .ok () := by
  refine RelayInfo.check_eq_ok.2 ⟨⟨rfl, ?_⟩, fun ack hack => ?_⟩
  · exact congrArg Nat.cast List.length_replicate
  · exact List.eq_of_mem_replicate hack ▸ answers_result

/-- One packet and two packets are three, and two channels with one packet each are two. -/
theorem checks_add_up_threePackets :
    (answered 1).check 1 true .a = .ok () ∧ (answered 2).check 2 true .a = .ok () ∧
      ((answered 1).merge (answered 2)).check 3 true .a = .ok () ∧
      ∃ info infos, relayAll "hermes" onePacketEach pairedLink () = .ok info () ∧
        info.packetsFromA = 2 ∧ relayEach "hermes" onePacketEach pairedLink () = .ok infos () ∧
        Merged infos info := by
  obtain ⟨-, -, hadds, -, hsweeps⟩ := checks_add_up
  have hone := check_answered 1
  have htwo := check_answered 2
  have hends : Act.endsWell (relayAll "hermes" onePacketEach pairedLink) ()
      (fun info _ => info.packetsFromA == 2) = true := by decide +kernel
  obtain ⟨info, t, hrun, hpackets⟩ := Act.exists_of_endsWell hends
  obtain ⟨infos, hinfos, hmerged, -⟩ := hsweeps _ _ _ _ _ _ hrun
  exact ⟨hone, htwo, hadds _ _ 1 2 true .a hone htwo, info, infos, hrun, beq_iff_eq.1 hpackets,
    hinfos, hmerged⟩

end Hermes

end CrossChain
