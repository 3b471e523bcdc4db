import CrossChainPingPong.Evm.Contract

namespace CrossChainPingPong.PingPongMessage
open Guard

theorem one_wire_format (b : U128) (r : U64) :
    encode ⟨b, r⟩ = Evm.encodeMessage (b.setWidth 256) (r.setWidth 256) ∧
      (encode ⟨b, r⟩).length = 64 ∧ decode (encode ⟨b, r⟩) = .ok ⟨b, r⟩ ∧
      abiDecode (encode ⟨b, r⟩) = some (b.setWidth 256, r.setWidth 256) := by
  have hsame := encode_eq_abiEncode ⟨b, r⟩
  refine ⟨hsame, ?_, decode_encode ⟨b, r⟩, abiDecode_encode ⟨b, r⟩⟩
  rw [hsame, length_abiEncode]

def codec : Codec ProgramError PingPongMessage Bytes where
  encode := encode
  decode := decode
  decode_encode := decode_encode

def ZeroPads (data : Bytes) : Prop :=
  slice data 0 16 = List.replicate 16 0 ∧ slice data 32 56 = List.replicate 24 0

structure DecodesExactly (D : Set Bytes) : Prop where
  accepts : ∀ d ∈ D, Succeeds (decode d) ↔ ∃ b r, d = encode ⟨b, r⟩
  returns : ∀ d ∈ D, ∀ m, decode d = .ok m → encode m = d
  distinct : ∀ d ∈ D, ∀ e ∈ D, ∀ m, decode d = .ok m → decode e = .ok m → d = e
  rejects : ∀ v r : Uint256, Evm.encodeMessage v r ∈ D → 2 ^ 128 ≤ v.toNat ∨ 2 ^ 64 ≤ r.toNat →
    decode (Evm.encodeMessage v r) = .error .invalidInstructionData

variable {d : Bytes} {m : PingPongMessage} {D : Set Bytes}

theorem slice_append {i j k : Nat} (hij : i ≤ j) (hjk : j ≤ k) (hd : k ≤ d.length) :
    slice d i j ++ slice d j k = slice d i k := by
  have hprefix : d.take j = (d.take k).take j := by rw [List.take_take, Nat.min_eq_left hjk]
  have hlen : i ≤ ((d.take k).take j).length := by
    rw [List.length_take, List.length_take]
    omega
  rw [slice, slice, slice, hprefix, ← List.drop_append_of_le_length hlen, List.take_append_drop]

theorem length_slice {i j : Nat} (hd : j ≤ d.length) : (slice d i j).length = j - i := by
  rw [slice, List.length_drop, List.length_take, Nat.min_eq_left hd]

theorem slices (h : d.length = 64) :
    slice d 0 16 ++ slice d 16 32 ++ (slice d 32 56 ++ slice d 56 64) = d := by
  rw [slice_append (by decide) (by decide) (by omega),
    slice_append (by decide) (by decide) (by omega),
    slice_append (by decide) (by decide) (by omega), slice, List.drop_zero,
    List.take_of_length_le h.le]

theorem decode_eq_ok : decode d = .ok m ↔ d.length = 64 ∧
    m = ⟨BitVec.ofNat 128 (BigEndian.read (slice d 16 32)),
      BitVec.ofNat 64 (BigEndian.read (slice d 56 64))⟩ := by
  simp only [decode, tryInto, bind_eq_ok, revertIf_eq_ok, okOr_eq_ok, pure_eq_ok, exists_const,
    not_not, Option.ite_none_right_eq_some, Option.some.injEq]
  constructor
  · rintro ⟨hlen, _, ⟨-, rfl⟩, _, ⟨-, rfl⟩, rfl⟩
    exact ⟨hlen, rfl⟩
  · rintro ⟨hlen, rfl⟩
    exact ⟨hlen, _, ⟨length_slice (by omega), rfl⟩, _, ⟨length_slice (by omega), rfl⟩, rfl⟩

theorem encode_decode_iff (h : decode d = .ok m) : encode m = d ↔ ZeroPads d := by
  obtain ⟨hlen, rfl⟩ := decode_eq_ok.mp h
  have hball : BigEndian.write 16 (BitVec.ofNat 128 (BigEndian.read (slice d 16 32))).toNat =
      slice d 16 32 := BigEndian.write_ofNat_read (length_slice (by omega))
  have hcount : BigEndian.write 8 (BitVec.ofNat 64 (BigEndian.read (slice d 56 64))).toNat =
      slice d 56 64 := BigEndian.write_ofNat_read (length_slice (by omega))
  have hlow : (List.replicate 16 (0 : UInt8)).length = (slice d 0 16).length := by
    rw [List.length_replicate, length_slice (by omega)]
  have hhigh : (List.replicate 24 (0 : UInt8)).length = (slice d 32 56).length := by
    rw [List.length_replicate, length_slice (by omega)]
  rw [encode, hball, hcount]
  constructor
  · intro hsame
    have hparts := hsame.trans (slices hlen).symm
    obtain ⟨hv, hr⟩ := List.append_inj hparts (by rw [List.length_append, List.length_append, hlow])
    exact ⟨(List.append_inj_left hv hlow).symm, (List.append_inj_left hr hhigh).symm⟩
  · rintro ⟨hv, hr⟩
    rw [← hv, ← hr, slices hlen]

theorem canonicalOn_iff :
    codec.CanonicalOn D ↔ ∀ d ∈ D, d.length = 64 → ZeroPads d := by
  constructor
  · intro hcanon d hd hlen
    have hok := decode_eq_ok.mpr ⟨hlen, rfl⟩
    exact (encode_decode_iff hok).mp (hcanon d hd _ hok)
  · intro hpads d hd m hok
    exact (encode_decode_iff hok).mpr (hpads d hd (decode_eq_ok.mp hok).1)

theorem fits_of_encode {v r : Uint256} (h : encode m = Evm.encodeMessage v r) :
    v.toNat < 2 ^ 128 ∧ r.toNat < 2 ^ 64 := by
  obtain ⟨rfl, rfl⟩ := abiEncode_injective ((encode_eq_abiEncode m).symm.trans h)
  rw [BitVec.toNat_setWidth_of_le (by decide), BitVec.toNat_setWidth_of_le (by decide)]
  exact ⟨m.ballValue.isLt, m.rallyCount.isLt⟩

theorem decodes_exactly_iff (D : Set Bytes) :
    DecodesExactly D ↔ ∀ d ∈ D, d.length = 64 → ZeroPads d := by
  rw [← canonicalOn_iff]
  constructor
  · intro hexact
    exact hexact.returns
  · intro hcanon
    refine ⟨?_, hcanon, ?_, ?_⟩
    · intro d hd
      refine (hcanon.succeeds_iff hd).trans ⟨?_, ?_⟩
      · rintro ⟨m, hm⟩
        exact ⟨m.ballValue, m.rallyCount, hm⟩
      · rintro ⟨b, r, hd⟩
        exact ⟨⟨b, r⟩, hd⟩
    · intro d hd e he m hdm hem
      exact hcanon.eq_of_decode hd he hdm hem
    · intro v r hd hbig
      have hok : decode (Evm.encodeMessage v r) = .ok _ := decode_abiEncode v r
      have hfits := fits_of_encode (hcanon _ hd _ hok)
      omega

theorem not_decodes_exactly : ¬ DecodesExactly Set.univ := by
  intro hexact
  have hreject := hexact.rejects (2 ^ 128 + 5) 0 (Set.mem_univ _) (.inl (by decide +kernel))
  have hok : decode (Evm.encodeMessage (2 ^ 128 + 5) 0) = .ok _ := decode_abiEncode _ _
  rw [hok] at hreject
  cases hreject

end CrossChainPingPong.PingPongMessage
