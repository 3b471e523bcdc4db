import CrossChainPingPong.Library.Guard
import Mathlib.Data.List.Induction
import Mathlib.Data.Nat.Basic
import Mathlib.Data.Set.Basic
import Mathlib.Tactic.Ring

namespace BigEndian

-- the k low bytes of n, most significant byte first
def write : Nat → Nat → List UInt8
  | 0, _ => []
  | k + 1, n => write k (n / 256) ++ [UInt8.ofNat n]

def read (bs : List UInt8) : Nat := bs.foldl (fun n b => n * 256 + b.toNat) 0

@[simp] theorem length_write (k n : Nat) : (write k n).length = k := by
  induction k generalizing n with
  | zero => rfl
  | succ k ih => simp [write, ih]

theorem read_concat (bs : List UInt8) (b : UInt8) : read (bs ++ [b]) = read bs * 256 + b.toNat := by
  simp [read]

theorem read_write (k n : Nat) : read (write k n) = n % 256 ^ k := by
  induction k generalizing n with
  | zero => simp [write, read, Nat.mod_one]
  | succ k ih =>
    have hb : (UInt8.ofNat n).toNat = n % 256 := by simp
    rw [write, read_concat, ih, hb, pow_succ, Nat.mul_comm (256 ^ k) 256, Nat.mod_mul]
    omega

theorem read_lt (bs : List UInt8) : read bs < 256 ^ bs.length := by
  induction bs using List.reverseRecOn with
  | nil => simp [read]
  | append_singleton bs b ih =>
    have hb : b.toNat < 256 := b.toNat_lt
    rw [read_concat, List.length_append, List.length_singleton, pow_succ]
    omega

theorem write_read (bs : List UInt8) : write bs.length (read bs) = bs := by
  induction bs using List.reverseRecOn with
  | nil => rfl
  | append_singleton bs b ih =>
    have hb : b.toNat < 256 := b.toNat_lt
    have hdiv : (read bs * 256 + b.toNat) / 256 = read bs := by omega
    have hmod : UInt8.ofNat (read bs * 256 + b.toNat) = b := by
      apply UInt8.toNat_inj.mp
      rw [UInt8.toNat_ofNat']
      omega
    rw [read_concat, List.length_append, List.length_singleton, write, hdiv, hmod, ih]

theorem write_ofNat_read {k : Nat} {bs : List UInt8} (h : bs.length = k) :
    write k (BitVec.ofNat (8 * k) (read bs)).toNat = bs := by
  have hlt := read_lt bs
  have hbyte : (256 : Nat) = 2 ^ 8 := rfl
  have hpow : 256 ^ bs.length = 2 ^ (8 * k) := by rw [h, hbyte, pow_mul]
  rw [BitVec.toNat_ofNat, Nat.mod_eq_of_lt (hpow ▸ hlt), ← h, write_read]

theorem write_add (j k n : Nat) : write (j + k) n = write j (n / 256 ^ k) ++ write k n := by
  induction k generalizing n with
  | zero => simp [write]
  | succ k ih =>
    have hd : n / 256 / 256 ^ k = n / 256 ^ (k + 1) := by
      rw [Nat.div_div_eq_div_mul, pow_succ, Nat.mul_comm]
    rw [← Nat.add_assoc, write, ih, hd, write, List.append_assoc]

theorem write_zero (k : Nat) : write k 0 = List.replicate k 0 := by
  induction k with
  | zero => rfl
  | succ k ih => simp [write, ih, List.replicate_succ']

theorem write_of_lt (j : Nat) {k n : Nat} (h : n < 256 ^ k) :
    write (j + k) n = List.replicate j 0 ++ write k n := by
  rw [write_add, Nat.div_eq_of_lt h, write_zero]

end BigEndian

structure Codec (E α β : Type) where
  encode : α → β
  decode : β → Except E α
  decode_encode : ∀ a, decode (encode a) = .ok a

namespace Codec
open Guard
variable {E α β : Type} (C : Codec E α β) {D : Set β} {a b : α} {d e : β}

def CanonicalOn (D : Set β) : Prop := ∀ d ∈ D, ∀ a, C.decode d = .ok a → C.encode a = d

variable {C}

theorem CanonicalOn.succeeds_iff (h : C.CanonicalOn D) (hd : d ∈ D) :
    Succeeds (C.decode d) ↔ ∃ a, d = C.encode a := by
  constructor
  · rintro ⟨a, ha⟩
    exact ⟨a, (h d hd a ha).symm⟩
  · rintro ⟨a, rfl⟩
    exact ⟨a, C.decode_encode a⟩

theorem CanonicalOn.eq_of_decode (h : C.CanonicalOn D) (hd : d ∈ D) (he : e ∈ D)
    (hda : C.decode d = .ok a) (hea : C.decode e = .ok a) : d = e :=
  (h d hd a hda).symm.trans (h e he a hea)

end Codec
