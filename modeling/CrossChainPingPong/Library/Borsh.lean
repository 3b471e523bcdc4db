import CrossChainPingPong.Library.Codec
import Mathlib.Logic.Equiv.Defs

-- a way to write values as bytes in which every value has one image and no image ends early
structure Format (α : Type) where
  write : α → Option (List UInt8)
  read : List UInt8 → Option (α × List UInt8)
  read_write : ∀ {a image}, write a = some image → ∀ rest, read (image ++ rest) = some (a, rest)
  write_read : ∀ {a bs rest}, read bs = some (a, rest) →
    ∃ image, write a = some image ∧ bs = image ++ rest

namespace Format
variable {α β : Type}

def Sized (f : Format α) (size : α → Nat) : Prop :=
  ∀ a image, f.write a = some image → image.length = size a

def Total (f : Format α) : Prop := ∀ a, ∃ image, f.write a = some image

def fixed (k : Nat) (order : List UInt8 → List UInt8) (twice : ∀ bs, order (order bs) = bs)
    (length : ∀ bs, (order bs).length = bs.length) : Format (BitVec (8 * k)) where
  write a := some (order (BigEndian.write k a.toNat))
  read bs :=
    if k ≤ bs.length then
      some (BitVec.ofNat (8 * k) (BigEndian.read (order (bs.take k))), bs.drop k)
    else none
  read_write {a image} h rest := by
    obtain rfl := Option.some.inj h
    have hlen : (order (BigEndian.write k a.toNat)).length = k := by
      rw [length, BigEndian.length_write]
    have hle : k ≤ (order (BigEndian.write k a.toNat) ++ rest).length := by
      rw [List.length_append, hlen]
      exact Nat.le_add_right k rest.length
    have hbyte : (256 : Nat) = 2 ^ 8 := rfl
    have hlt : a.toNat < 256 ^ k := by
      rw [hbyte, ← pow_mul]
      exact a.isLt
    rw [if_pos hle, List.take_left' hlen, List.drop_left' hlen, twice, BigEndian.read_write,
      Nat.mod_eq_of_lt hlt, BitVec.ofNat_toNat, BitVec.setWidth_eq]
  write_read {_ bs rest} h := by
    split at h
    case isTrue hk =>
      obtain ⟨rfl, rfl⟩ := Prod.mk.inj (Option.some.inj h)
      have hlen : (order (bs.take k)).length = k := by rw [length, List.length_take_of_le hk]
      refine ⟨bs.take k, ?_, (List.take_append_drop k bs).symm⟩
      rw [BigEndian.write_ofNat_read hlen, twice]
    case isFalse => cases h

def array (k : Nat) : Format (BitVec (8 * k)) := fixed k id (fun _ => rfl) fun _ => rfl

def word (k : Nat) : Format (BitVec (8 * k)) :=
  fixed k List.reverse List.reverse_reverse fun _ => List.length_reverse

theorem array_sized (k : Nat) : (array k).Sized fun _ => k := by
  intro a image h
  obtain rfl := Option.some.inj h
  exact BigEndian.length_write k a.toNat

theorem array_total (k : Nat) : (array k).Total := fun _ => ⟨_, rfl⟩

theorem word_sized (k : Nat) : (word k).Sized fun _ => k := by
  intro a image h
  obtain rfl := Option.some.inj h
  rw [List.length_reverse, BigEndian.length_write]

theorem word_total (k : Nat) : (word k).Total := fun _ => ⟨_, rfl⟩

def bool : Format Bool where
  write b := some [if b = true then 1 else 0]
  read
    | [] => none
    | b :: rest => if b = 0 then some (false, rest) else if b = 1 then some (true, rest) else none
  read_write {b image} h rest := by
    obtain rfl := Option.some.inj h
    cases b <;> rfl
  write_read {a bs rest} h := by
    cases bs with
    | nil => cases h
    | cons b bs =>
      dsimp only at h
      split at h
      case isTrue hb =>
        cases h
        exact ⟨[0], rfl, by rw [hb, List.singleton_append]⟩
      case isFalse =>
        split at h
        case isTrue hb =>
          cases h
          exact ⟨[1], rfl, by rw [hb, List.singleton_append]⟩
        case isFalse => cases h

theorem bool_sized : bool.Sized fun _ => 1 := by
  intro b image h
  obtain rfl := Option.some.inj h
  rfl

theorem bool_total : bool.Total := fun _ => ⟨_, rfl⟩

def pair (f : Format α) (g : Format β) : Format (α × β) where
  write p := do
    let first ← f.write p.1
    let second ← g.write p.2
    some (first ++ second)
  read bs := do
    let (a, bs) ← f.read bs
    let (b, bs) ← g.read bs
    some ((a, b), bs)
  read_write {p image} h rest := by
    simp only [Option.bind_eq_bind, Option.bind_eq_some_iff, Option.some.injEq] at h
    obtain ⟨first, hf, second, hg, rfl⟩ := h
    rw [List.append_assoc, f.read_write hf]
    simp only [Option.bind_eq_bind, Option.bind_some, g.read_write hg]
  write_read {p bs rest} h := by
    simp only [Option.bind_eq_bind, Option.bind_eq_some_iff, Prod.exists, Option.some.injEq,
      Prod.mk.injEq] at h
    obtain ⟨a, bs', hf, b, bs'', hg, rfl, rfl⟩ := h
    obtain ⟨first, hfirst, rfl⟩ := f.write_read hf
    obtain ⟨second, hsecond, rfl⟩ := g.write_read hg
    refine ⟨first ++ second, ?_, (List.append_assoc _ _ _).symm⟩
    simp only [hfirst, hsecond, Option.bind_eq_bind, Option.bind_some]

variable {f : Format α} {g : Format β}

theorem Sized.pair {m : α → Nat} {n : β → Nat} (hf : f.Sized m) (hg : g.Sized n) :
    (f.pair g).Sized fun p => m p.1 + n p.2 := by
  intro p image h
  simp only [Format.pair, Option.bind_eq_bind, Option.bind_eq_some_iff, Option.some.injEq] at h
  obtain ⟨first, hfirst, second, hsecond, rfl⟩ := h
  rw [List.length_append, hf _ _ hfirst, hg _ _ hsecond]

theorem Total.pair (hf : f.Total) (hg : g.Total) : (f.pair g).Total := by
  rintro ⟨a, b⟩
  obtain ⟨first, hfirst⟩ := hf a
  obtain ⟨second, hsecond⟩ := hg b
  exact ⟨first ++ second, by simp [Format.pair, hfirst, hsecond]⟩

def iso (f : Format α) (e : α ≃ β) : Format β where
  write b := f.write (e.symm b)
  read bs := (f.read bs).map fun r => (e r.1, r.2)
  read_write {b image} h rest := by
    simp only [f.read_write h rest, Option.map_some, Equiv.apply_symm_apply]
  write_read {b bs rest} h := by
    obtain ⟨⟨a, rest'⟩, hf, hr⟩ := Option.map_eq_some_iff.mp h
    obtain ⟨rfl, rfl⟩ := Prod.mk.inj hr
    obtain ⟨image, himage, hbs⟩ := f.write_read hf
    exact ⟨image, by rw [Equiv.symm_apply_apply, himage], hbs⟩

theorem Sized.iso {m : α → Nat} (hf : f.Sized m) (e : α ≃ β) :
    (f.iso e).Sized fun b => m (e.symm b) := fun b => hf (e.symm b)

theorem Total.iso (hf : f.Total) (e : α ≃ β) : (f.iso e).Total := fun b => hf (e.symm b)

def vec : Format (List UInt8) where
  write bs :=
    if bs.length < 2 ^ 32 then
      ((word 4).write (BitVec.ofNat (8 * 4) bs.length)).map fun header => header ++ bs
    else none
  read bs := do
    let (len, rest) ← (word 4).read bs
    if len.toNat ≤ rest.length then some (rest.take len.toNat, rest.drop len.toNat) else none
  read_write {bs image} h rest := by
    split at h
    case isTrue hlt =>
      obtain ⟨header, hheader, rfl⟩ := Option.map_eq_some_iff.mp h
      have hlen : (BitVec.ofNat (8 * 4) bs.length).toNat = bs.length := by
        rw [BitVec.toNat_ofNat, Nat.mod_eq_of_lt hlt]
      rw [List.append_assoc, (word 4).read_write hheader]
      simp only [Option.bind_eq_bind, Option.bind_some, hlen, List.length_append,
        Nat.le_add_right, if_true, List.take_left, List.drop_left]
    case isFalse => cases h
  write_read {bs ds rest} h := by
    simp only [Option.bind_eq_bind, Option.bind_eq_some_iff, Prod.exists] at h
    obtain ⟨len, body, hread, h⟩ := h
    split at h
    case isTrue hle =>
      obtain ⟨rfl, rfl⟩ := Prod.mk.inj (Option.some.inj h)
      obtain ⟨header, hheader, rfl⟩ := (word 4).write_read hread
      have hlen : (body.take len.toNat).length = len.toNat := List.length_take_of_le hle
      refine ⟨header ++ body.take len.toNat, ?_, ?_⟩
      · rw [if_pos (hlen.trans_lt len.isLt), hlen, BitVec.ofNat_toNat, BitVec.setWidth_eq, hheader]
        rfl
      · rw [List.append_assoc, List.take_append_drop]
    case isFalse => cases h

theorem vec_sized : vec.Sized fun bs => 4 + bs.length := by
  intro bs image h
  unfold vec at h
  dsimp only at h
  split at h
  case isTrue =>
    obtain ⟨header, hheader, rfl⟩ := Option.map_eq_some_iff.mp h
    rw [List.length_append, word_sized 4 _ _ hheader]
  case isFalse => cases h

theorem vec_write {bs : List UInt8} (h : bs.length < 2 ^ 32) : ∃ image, vec.write bs = some image :=
  ⟨_, if_pos h⟩

end Format
