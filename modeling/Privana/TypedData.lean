import Mathlib.Data.Set.Function
import Privana.EIP712SignatureVerifier

/-! The typed-data digests tell messages apart: on any set of byte strings that
hash without collision, equal digests mean equal kinds and equal parameters. -/

namespace Privana
open BigEndian

theorem SignedKind.typeString_injective {k k' : SignedKind}
    (h : utf8 k.typeString = utf8 k'.typeString) : k = k' := by
  cases k <;> cases k' <;> first | rfl | exact absurd h (by decide +kernel)

theorem Message.words_injective {msg msg' : Message} (hk : msg.kind = msg'.kind)
    (hw : msg.words = msg'.words) : msg = msg' := by
  cases msg <;> cases msg' <;> simp only [Message.kind, reduceCtorEq] at hk <;>
    simp only [Message.words, List.cons.injEq, and_true] at hw
  · obtain ⟨rfl, rfl, rfl⟩ := hw
    rfl
  · obtain ⟨h, rfl, rfl, rfl, rfl⟩ := hw
    rw [addressWord_injective h]
  · obtain ⟨h, rfl, rfl, rfl⟩ := hw
    rw [addressWord_injective h]
  · obtain ⟨h, h', rfl, rfl, rfl, h''⟩ := hw
    rw [addressWord_injective h, addressWord_injective h', addressWord_injective h'']
  · obtain ⟨h, rfl, rfl, rfl⟩ := hw
    rw [addressWord_injective h]
  · obtain ⟨rfl, rfl, rfl, rfl⟩ := hw
    rfl
  · obtain ⟨h, h', rfl, rfl, rfl⟩ := hw
    rw [addressWord_injective h, addressWord_injective h']

/-- The byte strings that are hashed to get the digests of the messages in `M`. -/
def hashInputs (P : Platform) (M : Set Message) : Set Bytes :=
  Set.range (fun k : SignedKind => utf8 k.typeString) ∪ structEncoding P '' M ∪
    typedDataEncoding P '' M

variable {P : Platform} {M : Set Message}

theorem structEncoding_injOn (h : Set.InjOn P.keccak256 (hashInputs P M)) :
    Set.InjOn (structEncoding P) M := by
  intro msg _ msg' _ he
  obtain ⟨ht, hw⟩ := List.cons.inj (abiEncode_injective he)
  have hk := SignedKind.typeString_injective
    (h (.inl (.inl ⟨msg.kind, rfl⟩)) (.inl (.inl ⟨msg'.kind, rfl⟩)) ht)
  exact Message.words_injective hk hw

/-- The digest binds the kind and every parameter of a message. -/
theorem hashTypedDataV4_injOn (h : Set.InjOn P.keccak256 (hashInputs P M)) :
    Set.InjOn (hashTypedDataV4 P) M := by
  intro msg hm msg' hm' he
  have henc := h (.inr ⟨msg, hm, rfl⟩) (.inr ⟨msg', hm', rfl⟩) he
  have hstruct : structHash P msg = structHash P msg' := by
    rw [typedDataEncoding, typedDataEncoding, List.append_assoc, List.append_assoc] at henc
    have hw := (word_append_inj (List.append_cancel_left henc)).2
    exact word_injective hw
  exact structEncoding_injOn h hm hm'
    (h (.inl (.inr ⟨msg, hm, rfl⟩)) (.inl (.inr ⟨msg', hm', rfl⟩)) hstruct)

end Privana
