import Mathlib.Data.BitVec
import Privana.BigEndian

/-! The contract ABI, as codecs that can be put together. A component is static, and stands where
it is, or dynamic, and stands behind the heads of all components with its offset in its head. A
codec carries the proof that it reads what it lays out, wherever that stands in a message. -/

namespace Privana.AbiLayout
open BigEndian

section Positions

/-- The bytes stand in the message from the position on. -/
def At (msg : Bytes) (pos : ℕ) (bs : Bytes) : Prop :=
  ∃ before after, msg = before ++ (bs ++ after) ∧ before.length = pos

variable {msg as bs : Bytes} {pos n : ℕ}

theorem At.whole (msg : Bytes) : At msg 0 msg := ⟨[], [], by simp, rfl⟩

theorem At.left (h : At msg pos (as ++ bs)) : At msg pos as := by
  obtain ⟨before, after, rfl, length⟩ := h
  exact ⟨before, bs ++ after, by simp, length⟩

theorem At.right (h : At msg pos (as ++ bs)) : At msg (pos + as.length) bs := by
  obtain ⟨before, after, rfl, rfl⟩ := h
  exact ⟨before ++ as, after, by simp, by simp⟩

theorem At.length_le (h : At msg pos bs) : pos + bs.length ≤ msg.length := by
  obtain ⟨before, after, rfl, rfl⟩ := h
  simp

theorem At.slice (h : At msg pos bs) : (msg.drop pos).take bs.length = bs := by
  obtain ⟨before, after, rfl, rfl⟩ := h
  simp

def wordAt (msg : Bytes) (pos : ℕ) : ℕ := decode ((msg.drop pos).take 32)

theorem At.word (h : At msg pos (encode 32 n)) (lt : n < 2 ^ 256) : wordAt msg pos = n := by
  have slice := h.slice
  rw [encode_length] at slice
  rw [wordAt, slice, decode_encode_of_lt (by rwa [word_width])]

end Positions

section Parts

inductive Part where
  | static (bs : Bytes)
  | dynamic (bs : Bytes)

namespace Part

def headSize : Part → ℕ
  | static bs => bs.length
  | dynamic _ => 32

def tail : Part → Bytes
  | static _ => []
  | dynamic bs => bs

end Part

def headsSize (parts : List Part) : ℕ := (parts.map Part.headSize).sum

/-- The heads of components whose next tail stands at an offset. -/
def heads : ℕ → List Part → Bytes
  | _, [] => []
  | next, .static bs :: parts => bs ++ heads next parts
  | next, .dynamic bs :: parts => encode 32 next ++ heads (next + bs.length) parts

def layout (parts : List Part) : Bytes :=
  heads (headsSize parts) parts ++ parts.flatMap Part.tail

variable {msg : Bytes} {base head : ℕ}

/-- A component of the data that starts at `base`, with its head at `head`. -/
def Located (msg : Bytes) (base head : ℕ) : Part → Prop
  | .static bs => At msg head bs
  | .dynamic bs => ∃ offset, At msg head (encode 32 offset) ∧ At msg (base + offset) bs

def AllLocated (msg : Bytes) (base : ℕ) : ℕ → List Part → Prop
  | _, [] => True
  | head, part :: parts =>
    Located msg base head part ∧ AllLocated msg base (head + part.headSize) parts

theorem heads_length (next : ℕ) (parts : List Part) :
    (heads next parts).length = headsSize parts := by
  induction parts generalizing next with
  | nil => rfl
  | cons part parts ih =>
    cases part <;> simp [heads, headsSize, Part.headSize, ih]

theorem allLocated {parts : List Part} {next : ℕ} (atHeads : At msg head (heads next parts))
    (tails : At msg (base + next) (parts.flatMap Part.tail)) :
    AllLocated msg base head parts := by
  induction parts generalizing head next with
  | nil => trivial
  | cons part parts ih =>
    cases part with
    | static bs => exact ⟨atHeads.left, ih atHeads.right tails⟩
    | dynamic bs =>
      have rest := atHeads.right
      rw [encode_length] at rest
      have after := tails.right
      rw [Nat.add_assoc] at after
      exact ⟨⟨next, atHeads.left, tails.left⟩, ih rest after⟩

/-- What is laid out is found: every head in its place, and every tail behind its offset. -/
theorem allLocated_layout {parts : List Part} (h : At msg base (layout parts)) :
    AllLocated msg base base parts := by
  have tails := h.right
  rw [heads_length] at tails
  exact allLocated h.left tails

theorem headsSize_le {parts : List Part} (h : At msg base (layout parts)) :
    base + headsSize parts ≤ msg.length := by
  have le := h.left.length_le
  rwa [heads_length] at le

end Parts

/-- The longest offset and the longest length that a decoder takes. -/
def maxLength : ℕ := 2 ^ 64 - 1

/-- A component type: how a value is laid out, and how one is read whose head stands at `head` in
the data from `base` on. -/
structure AbiType (α : Type) where
  part : α → Part
  headSize : ℕ
  read (msg : Bytes) (base head : ℕ) : Option α
  headSize_part : ∀ a, (part a).headSize = headSize
  read_part : ∀ {msg base head a}, msg.length ≤ maxLength → Located msg base head (part a) →
    read msg base head = some a

/-- The components of a tuple. -/
structure AbiFields (α : Type) where
  parts : α → List Part
  size : ℕ
  read (msg : Bytes) (base head : ℕ) : Option α
  size_parts : ∀ a, headsSize (parts a) = size
  read_parts : ∀ {msg base head a}, msg.length ≤ maxLength →
    AllLocated msg base head (parts a) → read msg base head = some a

section Types
variable {α β : Type} {msg : Bytes}

/-- Where a dynamic component stands. -/
def follow (msg : Bytes) (base head : ℕ) : Option ℕ :=
  if wordAt msg head ≤ maxLength then some (base + wordAt msg head) else none

theorem follow_eq {base head : ℕ} {bs : Bytes} (short : msg.length ≤ maxLength)
    (h : Located msg base head (.dynamic bs)) :
    ∃ pos, follow msg base head = some pos ∧ At msg pos bs := by
  obtain ⟨offset, atHead, atTail⟩ := h
  have bound : offset ≤ maxLength := by
    have le := atTail.length_le
    omega
  have lt : offset < 2 ^ 256 := by
    unfold maxLength at bound
    omega
  refine ⟨base + offset, ?_, atTail⟩
  rw [follow, atHead.word lt, if_pos bound]

/-- The length that stands before the items of a dynamic component. -/
def lengthAt (msg : Bytes) (pos : ℕ) : Option ℕ :=
  if pos + 31 < msg.length ∧ wordAt msg pos ≤ maxLength then some (wordAt msg pos) else none

theorem lengthAt_eq {pos n : ℕ} (h : At msg pos (encode 32 n)) (bound : n ≤ maxLength) :
    lengthAt msg pos = some n := by
  have lt : n < 2 ^ 256 := by
    unfold maxLength at bound
    omega
  have le := h.length_le
  rw [encode_length] at le
  rw [lengthAt, h.word lt, if_pos ⟨by omega, bound⟩]

/-- `uint<w>`, and `address` for 160 bits. -/
def uint (w : ℕ) (narrow : w ≤ 256) : AbiType (BitVec w) where
  part x := .static (encode 32 x.toNat)
  headSize := 32
  read msg _ head :=
    if wordAt msg head < 2 ^ w then some (BitVec.ofNat w (wordAt msg head)) else none
  headSize_part x := encode_length 32 x.toNat
  read_part {msg base head x} _ h := by
    have lt : x.toNat < 2 ^ 256 := x.isLt.trans_le (Nat.pow_le_pow_right (by decide) narrow)
    rw [At.word h lt, if_pos x.isLt, BitVec.ofNat_toNat, BitVec.setWidth_eq]

def zeroPadded (bs : Bytes) : Bytes := bs ++ List.replicate ((32 - bs.length % 32) % 32) 0

/-- `bytes` and `string`. -/
def bytes : AbiType Bytes where
  part bs := .dynamic (encode 32 bs.length ++ zeroPadded bs)
  headSize := 32
  read msg base head := do
    let pos ← follow msg base head
    let length ← lengthAt msg pos
    if pos + 32 + length ≤ msg.length then some ((msg.drop (pos + 32)).take length) else none
  headSize_part _ := rfl
  read_part {msg base head bs} short h := by
    obtain ⟨pos, followed, found⟩ := follow_eq short h
    have content := found.right
    rw [encode_length, zeroPadded] at content
    have le := content.left.length_le
    have length := lengthAt_eq found.left (by omega)
    simp only [followed, length, Option.bind_eq_bind, Option.bind_some, if_pos le,
      content.left.slice]

/-- `n` items, the head of the first at `head`. -/
def readItems (T : AbiType α) (msg : Bytes) (base : ℕ) : ℕ → ℕ → Option (List α)
  | 0, _ => some []
  | n + 1, head => do
    let a ← T.read msg base head
    let as ← readItems T msg base n (head + T.headSize)
    some (a :: as)

theorem readItems_eq {T : AbiType α} {base head : ℕ} {as : List α}
    (short : msg.length ≤ maxLength) (h : AllLocated msg base head (as.map T.part)) :
    readItems T msg base as.length head = some as := by
  induction as generalizing head with
  | nil => rfl
  | cons a as ih =>
    obtain ⟨first, rest⟩ := h
    rw [T.headSize_part] at rest
    simp only [List.length_cons, readItems, T.read_part short first, ih rest,
      Option.bind_eq_bind, Option.bind_some]

theorem headsSize_map (T : AbiType α) (as : List α) :
    headsSize (as.map T.part) = as.length * T.headSize := by
  induction as with
  | nil => simp [headsSize]
  | cons a as ih =>
    rw [List.map_cons, headsSize, List.map_cons, List.sum_cons, T.headSize_part, List.length_cons,
      Nat.succ_mul, Nat.add_comm, ← ih]
    rfl

/-- `T[]`, for items that take room. -/
def array (T : AbiType α) (room : 0 < T.headSize) : AbiType (List α) where
  part as := .dynamic (encode 32 as.length ++ layout (as.map T.part))
  headSize := 32
  read msg base head := do
    let pos ← follow msg base head
    let length ← lengthAt msg pos
    if pos + 32 + length * T.headSize ≤ msg.length then
      readItems T msg (pos + 32) length (pos + 32)
    else none
  headSize_part _ := rfl
  read_part {msg base head as} short h := by
    obtain ⟨pos, followed, found⟩ := follow_eq short h
    have content := found.right
    rw [encode_length] at content
    have le := headsSize_le content
    rw [headsSize_map] at le
    have few : as.length ≤ as.length * T.headSize := Nat.le_mul_of_pos_right _ room
    have length := lengthAt_eq found.left (by omega)
    simp only [followed, length, Option.bind_eq_bind, Option.bind_some, if_pos le,
      readItems_eq short (allLocated_layout content)]

def noFields : AbiFields Unit where
  parts _ := []
  size := 0
  read _ _ _ := some ()
  size_parts _ := rfl
  read_parts _ _ := rfl

def field (T : AbiType α) (F : AbiFields β) : AbiFields (α × β) where
  parts p := T.part p.1 :: F.parts p.2
  size := T.headSize + F.size
  read msg base head := do
    let a ← T.read msg base head
    let b ← F.read msg base (head + T.headSize)
    some (a, b)
  size_parts p := by
    rw [← T.headSize_part p.1, ← F.size_parts p.2]
    rfl
  read_parts {msg base head p} short h := by
    obtain ⟨first, rest⟩ := h
    rw [T.headSize_part] at rest
    simp only [T.read_part short first, F.read_parts short rest, Option.bind_eq_bind,
      Option.bind_some]

/-- A tuple with a dynamic component. -/
def tuple (F : AbiFields α) : AbiType α where
  part a := .dynamic (layout (F.parts a))
  headSize := 32
  read msg base head := do
    let pos ← follow msg base head
    if pos + F.size ≤ msg.length then F.read msg pos pos else none
  headSize_part _ := rfl
  read_part {msg base head a} short h := by
    obtain ⟨pos, followed, found⟩ := follow_eq short h
    have le := headsSize_le found
    rw [F.size_parts] at le
    simp only [followed, Option.bind_eq_bind, Option.bind_some, if_pos le,
      F.read_parts short (allLocated_layout found)]

end Types

section Codec
variable {α : Type}

/-- `abi.encode` of a single value. -/
def encodeValue (T : AbiType α) (a : α) : Bytes := layout [T.part a]

/-- `abi.decode` of a single value. -/
def decodeValue (T : AbiType α) (msg : Bytes) : Option α :=
  if T.headSize ≤ msg.length then T.read msg 0 0 else none

theorem decodeValue_encodeValue (T : AbiType α) (a : α)
    (short : (encodeValue T a).length ≤ maxLength) :
    decodeValue T (encodeValue T a) = some a := by
  have found : At (encodeValue T a) 0 (layout [T.part a]) := .whole _
  have le := headsSize_le found
  have size : headsSize [T.part a] = T.headSize := by
    rw [← T.headSize_part a]
    simp [headsSize]
  rw [size, Nat.zero_add] at le
  rw [decodeValue, if_pos le]
  exact T.read_part short (allLocated_layout found).1

end Codec

end Privana.AbiLayout
