import CrossChain.Envelope
import CrossChain.Proofs.Act
import CrossChain.Proofs.Text.Cutting

/-!
# Recipients

The recipient that is made for a path on another chain is split into that chain and the path without
the slashes in front of it (`split_remote`).  A recipient that names a chain is made again from its
two parts exactly if the chain is followed by a single slash (`remote_split_iff`).
-/

namespace CrossChain

namespace Recipient

variable {chain path rest r : Text}

theorem isRemote_iff : isRemote r = true ↔ ∃ rest, r = scheme ++ rest := by
  rw [isRemote, List.isPrefixOf_iff_prefix]
  exact ⟨fun ⟨rest, h⟩ => ⟨rest, h.symm⟩, fun ⟨rest, h⟩ => ⟨rest, h.symm⟩⟩

theorem isRemote_scheme (rest : Text) : isRemote (scheme ++ rest) = true :=
  isRemote_iff.2 ⟨rest, rfl⟩

theorem split_scheme (rest : Text) :
    split (scheme ++ rest) = (some (Text.cutAt 47 rest).1, (Text.cutAt 47 rest).2) := by
  rw [split, if_pos (isRemote_scheme rest), List.drop_left]

theorem split_of_local (h : isRemote r = false) : split r = (none, r) := by
  rw [split, h, if_neg Bool.false_ne_true]

theorem remote_eq (chain path : Text) :
    remote chain path = scheme ++ (chain ++ 47 :: path.dropWhile (· == 47)) := by
  simp only [remote, Text.stripLeft, text, List.append_assoc]
  rfl

/-! ## Made and split -/

theorem split_remote (h : 47 ∉ chain) (path : Text) :
    split (remote chain path) = (some chain, path.dropWhile (· == 47)) := by
  rw [remote_eq, split_scheme, Text.cutAt_append h]

/-! ## Split and made -/

/-- A chain is named exactly by what starts with the scheme. -/
theorem isSome_split : (split r).1.isSome = true ↔ isRemote r = true := by
  cases h : isRemote r with
  | true =>
    obtain ⟨rest, rfl⟩ := isRemote_iff.1 h
    rw [split_scheme]
    exact iff_of_true rfl rfl
  | false =>
    rw [split_of_local h]
    exact iff_of_false Bool.false_ne_true Bool.false_ne_true

/-- Slashes in front of a path are lost, and a slash is put where there was none. -/
theorem remote_cutAt_iff : remote (Text.cutAt 47 rest).1 (Text.cutAt 47 rest).2 = scheme ++ rest ↔
    ∃ before after, rest = before ++ 47 :: after ∧ 47 ∉ before ∧ after.head? ≠ some 47 := by
  have hkept : ∀ after : Text, after.dropWhile (· == 47) = after ↔ after.head? ≠ some 47 := by
    intro after
    rw [Text.dropWhile_eq_self]
    cases after <;> simp
  rw [remote_eq, List.append_cancel_left_eq]
  constructor
  · intro h
    have hslash : 47 ∈ rest := h ▸ List.mem_append_right _ List.mem_cons_self
    obtain ⟨before, after, rfl, hbefore⟩ := List.eq_append_cons_of_mem hslash
    rw [Text.cutAt_append hbefore, List.append_cancel_left_eq, List.cons.injEq] at h
    exact ⟨before, after, rfl, hbefore, (hkept after).1 h.2⟩
  · rintro ⟨before, after, rfl, hbefore, hafter⟩
    rw [Text.cutAt_append hbefore, (hkept after).2 hafter]

theorem remote_split_iff {name onward : Text} (h : split r = (some name, onward)) :
    remote name onward = r ↔ ∃ before after, r = scheme ++ (before ++ 47 :: after) ∧
      47 ∉ before ∧ after.head? ≠ some 47 := by
  have hremote : isRemote r = true := isSome_split.1 (by rw [h]; rfl)
  obtain ⟨rest, rfl⟩ := isRemote_iff.1 hremote
  rw [split_scheme, Prod.mk.injEq, Option.some.injEq] at h
  obtain ⟨rfl, rfl⟩ := h
  simp only [remote_cutAt_iff, List.append_cancel_left_eq]

theorem recipient_of_routed {body : Json} {funds : List GivenCoin}
    {recovery : Option RecoveryConfig} {m : RoutedMessage}
    (h : RoutedMessage.routed r body funds recovery = .ok m) : m.recipient = r := by
  obtain ⟨call, -, hrest⟩ := Act.except_bind_eq_ok h
  obtain ⟨coins, -, ⟨⟩⟩ := Act.except_bind_eq_ok hrest
  rfl

/-- The recipient of a path on another chain leaves for that chain, and is split into the chain and
the path without the slashes in front of it.  Of all recipients exactly those leave that name a
chain; the others are their own path.  A recipient that names a chain is made again from its parts
exactly if there is a slash after the scheme and the first one is not followed by another. -/
theorem addresses_roundTrip (chain path : Text) (hchain : 47 ∉ chain) (r : Text) (body : Json)
    (funds : List GivenCoin) (recovery : Option RecoveryConfig) :
    split (remote chain path) = (some chain, path.dropWhile (· == 47)) ∧
      (∀ m, RoutedMessage.routed (remote chain path) body funds recovery = .ok m →
        m.isRemote = true) ∧
      (∃ m, RoutedMessage.routed r .null [] none = .ok m) ∧
      (∀ m, RoutedMessage.routed r body funds recovery = .ok m →
        (m.isRemote = true ↔ (split r).1.isSome = true)) ∧
      ((split r).1 = none → (split r).2 = r) ∧
      ∀ name onward, split r = (some name, onward) →
        (remote name onward = r ↔ ∃ before after, r = scheme ++ (before ++ 47 :: after) ∧
          47 ∉ before ∧ after.head? ≠ some 47) := by
  have hsplit := split_remote hchain path
  have hmade : isRemote (remote chain path) = true := isSome_split.1 (by rw [hsplit]; rfl)
  refine ⟨hsplit, fun m hm => ?_, ⟨_, rfl⟩, fun m hm => ?_, fun hnone => ?_,
    fun _ _ => remote_split_iff⟩
  · rwa [RoutedMessage.isRemote, recipient_of_routed hm]
  · rw [RoutedMessage.isRemote, recipient_of_routed hm, isSome_split]
  · cases hremote : isRemote r with
    | true =>
      rw [← isSome_split, hnone] at hremote
      cases hremote
    | false => rw [split_of_local hremote]

/-- Both slashes in front of a path are lost on the way out, and one of two on the way back. -/
theorem addresses_roundTrip_doubledSlash :
    (47 : CodePoint) ∉ text "osmo-b" ∧
      split (remote "osmo-b" "//osmo1abc") = (some (text "osmo-b"), text "osmo1abc") ∧
      split "ibc://osmo-b//home" = (some (text "osmo-b"), text "/home") ∧
      remote "osmo-b" "/home" ≠ "ibc://osmo-b//home" := by
  have hchain : (47 : CodePoint) ∉ text "osmo-b" := by decide
  obtain ⟨hsplit, -, -, -, -, hmade⟩ :=
    addresses_roundTrip "osmo-b" "//osmo1abc" hchain "ibc://osmo-b//home" .null [] none
  have hname : split "ibc://osmo-b//home" = (some (text "osmo-b"), text "/home") := by decide
  refine ⟨hchain, hsplit, hname, fun h => ?_⟩
  obtain ⟨before, after, hr, hbefore, hafter⟩ := (hmade _ _ hname).1 h
  have hcut : scheme ++ (text "osmo-b" ++ 47 :: text "/home") = scheme ++ (before ++ 47 :: after) :=
    hr
  obtain ⟨-, rfl⟩ := Text.append_cons_inj hchain hbefore (List.append_cancel_left hcut)
  exact hafter rfl

end Recipient

end CrossChain
