import CrossChainPingPong.Library.Codec
import CrossChainPingPong.Library.Guard

namespace CrossChainPingPong
open Guard

abbrev Bytes := List UInt8
abbrev Uint256 := BitVec 256
abbrev U128 := BitVec 128
abbrev U64 := BitVec 64
abbrev Bytes32 := BitVec 256

def abiEncode (a b : Uint256) : Bytes := BigEndian.write 32 a.toNat ++ BigEndian.write 32 b.toNat

def abiDecode (data : Bytes) : Option (Uint256 × Uint256) :=
  if data.length < 64 then none
  else some (BitVec.ofNat 256 (BigEndian.read (data.take 32)),
    BitVec.ofNat 256 (BigEndian.read ((data.drop 32).take 32)))

inductive ProgramError where
  | invalidInstructionData
  | custom (code : Nat)
  deriving DecidableEq, Repr

structure PingPongMessage where
  ballValue : U128
  rallyCount : U64
  deriving DecidableEq, Repr

namespace PingPongMessage

def encode (m : PingPongMessage) : Bytes :=
  List.replicate 16 0 ++ BigEndian.write 16 m.ballValue.toNat ++
    (List.replicate 24 0 ++ BigEndian.write 8 m.rallyCount.toNat)

def slice (data : Bytes) (start stop : Nat) : Bytes := (data.take stop).drop start

def tryInto (k : Nat) (bs : Bytes) : Option Bytes := if bs.length = k then some bs else none

def decode (data : Bytes) : Except ProgramError PingPongMessage := do
  revertIf (data.length ≠ 64) .invalidInstructionData
  let ballValueBytes ← okOr (tryInto 16 (slice data 16 32)) .invalidInstructionData
  let ballValue : U128 := BitVec.ofNat 128 (BigEndian.read ballValueBytes)
  let rallyCountBytes ← okOr (tryInto 8 (slice data 56 64)) .invalidInstructionData
  let rallyCount : U64 := BitVec.ofNat 64 (BigEndian.read rallyCountBytes)
  pure { ballValue, rallyCount }

end PingPongMessage

theorem toNat_sub_one {v : Uint256} (hv : v ≠ 0) : (v - 1).toNat + 1 = v.toNat := by
  have hpos : 0 < v.toNat := Nat.pos_of_ne_zero fun h0 => hv (BitVec.eq_of_toNat_eq h0)
  have hle : (1 : Uint256) ≤ v := BitVec.le_def.mpr hpos
  rw [BitVec.toNat_sub_of_le hle]
  exact Nat.sub_add_cancel hpos

@[simp] theorem length_abiEncode (a b : Uint256) : (abiEncode a b).length = 64 := by
  simp [abiEncode]

@[simp] theorem abiDecode_abiEncode (a b : Uint256) : abiDecode (abiEncode a b) = some (a, b) := by
  have ha : (abiEncode a b).take 32 = BigEndian.write 32 a.toNat := List.take_left' (by simp)
  have hb : (abiEncode a b).drop 32 = BigEndian.write 32 b.toNat := List.drop_left' (by simp)
  have hw (c : Uint256) : BitVec.ofNat 256 (BigEndian.read (BigEndian.write 32 c.toNat)) = c := by
    have hc : c.toNat < 256 ^ 32 := c.isLt
    rw [BigEndian.read_write, Nat.mod_eq_of_lt hc, BitVec.ofNat_toNat, BitVec.setWidth_eq]
  simp [abiDecode, ha, hb, hw, List.take_of_length_le]

theorem abiEncode_injective {a b c d : Uint256} (h : abiEncode a b = abiEncode c d) :
    a = c ∧ b = d := by
  have hd := congrArg abiDecode h
  simpa using hd

namespace PingPongMessage

theorem encode_eq_abiEncode (m : PingPongMessage) :
    m.encode = abiEncode (m.ballValue.setWidth 256) (m.rallyCount.setWidth 256) := by
  have hv : (m.ballValue.setWidth 256).toNat = m.ballValue.toNat :=
    BitVec.toNat_setWidth_of_le (by decide)
  have hr : (m.rallyCount.setWidth 256).toNat = m.rallyCount.toNat :=
    BitVec.toNat_setWidth_of_le (by decide)
  have hv' := BigEndian.write_of_lt 16 (k := 16) (n := m.ballValue.toNat) m.ballValue.isLt
  have hr' := BigEndian.write_of_lt 24 (k := 8) (n := m.rallyCount.toNat) m.rallyCount.isLt
  simp only [encode, abiEncode, hv, hr]
  rw [hv', hr']

theorem decode_abiEncode (a b : Uint256) :
    decode (abiEncode a b) = .ok ⟨a.setWidth 128, b.setWidth 64⟩ := by
  have ha := BigEndian.write_add 16 16 a.toNat
  have hb := BigEndian.write_add 24 8 b.toNat
  have hv : slice (abiEncode a b) 16 32 = BigEndian.write 16 a.toNat := by
    have ht : (abiEncode a b).take 32 = BigEndian.write 32 a.toNat := List.take_left' (by simp)
    rw [slice, ht, ha]
    exact List.drop_left' (by simp)
  have hr : slice (abiEncode a b) 56 64 = BigEndian.write 8 b.toNat := by
    rw [slice, List.take_of_length_le (by simp), abiEncode, hb, ← List.append_assoc]
    exact List.drop_left' (by simp)
  have hlen : ¬ (abiEncode a b).length ≠ 64 := by simp
  simp only [decode, revertIf, if_neg hlen, hv, hr, tryInto, BigEndian.length_write, if_true, okOr]
  refine congrArg Except.ok ?_
  rw [PingPongMessage.mk.injEq]
  constructor <;> apply BitVec.eq_of_toNat_eq <;> simp [BigEndian.read_write]

theorem decode_abiEncode_of_lt {a b : Uint256} (ha : a.toNat < 2 ^ 128) (hb : b.toNat < 2 ^ 64) :
    ∃ m, decode (abiEncode a b) = .ok m ∧ m.ballValue.toNat = a.toNat ∧
      m.rallyCount.toNat = b.toNat := by
  refine ⟨_, decode_abiEncode a b, ?_, ?_⟩
  · rw [BitVec.toNat_setWidth, Nat.mod_eq_of_lt ha]
  · rw [BitVec.toNat_setWidth, Nat.mod_eq_of_lt hb]

@[simp] theorem decode_encode (m : PingPongMessage) : decode m.encode = .ok m := by
  rw [encode_eq_abiEncode, decode_abiEncode]
  simp

@[simp] theorem abiDecode_encode (m : PingPongMessage) :
    abiDecode m.encode = some (m.ballValue.setWidth 256, m.rallyCount.setWidth 256) := by
  rw [encode_eq_abiEncode, abiDecode_abiEncode]

end PingPongMessage

end CrossChainPingPong
