import CrossChainPingPong.Library.Borsh
import CrossChainPingPong.Svm.Program

namespace CrossChainPingPong.Svm
open Guard

inductive AccountError where
  | handler (e : Error)
  | accountDiscriminatorNotFound | accountDiscriminatorMismatch
  | accountDidNotDeserialize | accountDidNotSerialize
  deriving DecidableEq, Repr

def GameState.fields :
    Pubkey × U8 × Pubkey × U128 × U64 × U64 × Bool × Bool × Bool × U32 × U64 ≃ GameState where
  toFun
    | (admin, bump, endpointProgram, ballValue, rallyCount, maxRallies, hasBall, gameActive, paused,
        remoteEid, lastReceivedNonce) =>
      { admin, bump, endpointProgram, ballValue, rallyCount, maxRallies, hasBall, gameActive, paused,
        remoteEid, lastReceivedNonce }
  invFun g := (g.admin, g.bump, g.endpointProgram, g.ballValue, g.rallyCount, g.maxRallies, g.hasBall,
    g.gameActive, g.paused, g.remoteEid, g.lastReceivedNonce)
  left_inv _ := rfl
  right_inv _ := rfl

def LzReceiveTypesAccounts.fields : Pubkey ≃ LzReceiveTypesAccounts where
  toFun := LzReceiveTypesAccounts.mk
  invFun := LzReceiveTypesAccounts.game
  left_inv _ := rfl
  right_inv _ := rfl

def PeerConfig.fields : Bytes32 × Bytes × U8 ≃ PeerConfig where
  toFun | (peerAddress, send, bump) => ⟨peerAddress, ⟨send⟩, bump⟩
  invFun p := (p.peerAddress, p.enforcedOptions.send, p.bump)
  left_inv _ := rfl
  right_inv _ := rfl

def pubkeyFormat : Format Pubkey := Format.array 32

def GameState.format : Format GameState :=
  (pubkeyFormat.pair ((Format.word 1).pair (pubkeyFormat.pair ((Format.word 16).pair
    ((Format.word 8).pair ((Format.word 8).pair (Format.bool.pair (Format.bool.pair (Format.bool.pair
      ((Format.word 4).pair (Format.word 8)))))))))))
    |>.iso GameState.fields

def LzReceiveTypesAccounts.format : Format LzReceiveTypesAccounts :=
  pubkeyFormat.iso LzReceiveTypesAccounts.fields

def PeerConfig.format : Format PeerConfig :=
  ((Format.array 32).pair (Format.vec.pair (Format.word 1))).iso PeerConfig.fields

def enforcedOptionsSendMaxLen : Nat := 512
def GameState.size : Nat := 8 + 120
def LzReceiveTypesAccounts.size : Nat := 8 + 32
def EnforcedOptions.initSpace : Nat := 4 + enforcedOptionsSendMaxLen
def PeerConfig.size : Nat := 8 + 32 + EnforcedOptions.initSpace + 1

structure AccountType (α : Type) where
  discriminator : Bytes
  format : Format α
  space : Nat
  tagged : discriminator.length = 8

structure Discriminators where
  gameState : Bytes
  lzReceiveTypesAccounts : Bytes
  peerConfig : Bytes
  lengths : gameState.length = 8 ∧ lzReceiveTypesAccounts.length = 8 ∧ peerConfig.length = 8

namespace Discriminators
variable (d : Discriminators)

def game : AccountType GameState := ⟨d.gameState, GameState.format, GameState.size, d.lengths.1⟩

def lzTypes : AccountType LzReceiveTypesAccounts :=
  ⟨d.lzReceiveTypesAccounts, LzReceiveTypesAccounts.format, LzReceiveTypesAccounts.size,
    d.lengths.2.1⟩

def peer : AccountType PeerConfig := ⟨d.peerConfig, PeerConfig.format, PeerConfig.size, d.lengths.2.2⟩

end Discriminators

namespace AccountType
variable {α : Type} (t : AccountType α)

-- bytes after the value are not looked at
def load (data : Bytes) : Except AccountError α := do
  require (8 ≤ data.length) .accountDiscriminatorNotFound
  require (data.take 8 = t.discriminator) .accountDiscriminatorMismatch
  let (a, _) ← okOr (t.format.read (data.drop 8)) .accountDidNotDeserialize
  pure a

-- bytes after the value stay what they were
def store (data : Bytes) (a : α) : Except AccountError Bytes := do
  let body ← okOr (t.format.write a) .accountDidNotSerialize
  let image := t.discriminator ++ body
  require (image.length ≤ data.length) .accountDidNotSerialize
  pure (image ++ data.drop image.length)

def created : Bytes := List.replicate t.space 0

def loadAll : Option Bytes → Except AccountError (Option α)
  | none => pure none
  | some data => do
      let a ← t.load data
      pure (some a)

def storeAll (data : Option Bytes) : Option α → Except AccountError (Option Bytes)
  | none => pure none
  | some a => do
      let data ← t.store (data.getD t.created) a
      pure (some data)

structure Holds (data : Bytes) (a : α) : Prop where
  space : data.length = t.space
  image : ∃ body rest, t.format.write a = some body ∧ data = t.discriminator ++ (body ++ rest)

variable {t} {data data' : Bytes} {a b : α}

theorem load_of_holds (h : t.Holds data a) : t.load data = .ok a := by
  obtain ⟨-, body, rest, hbody, rfl⟩ := h
  have hlen : 8 ≤ (t.discriminator ++ (body ++ rest)).length := by
    rw [List.length_append, t.tagged]
    exact Nat.le_add_right 8 _
  have htake : (t.discriminator ++ (body ++ rest)).take 8 = t.discriminator :=
    List.take_left' t.tagged
  have hdrop : (t.discriminator ++ (body ++ rest)).drop 8 = body ++ rest := List.drop_left' t.tagged
  simp only [load, bind_eq_ok, require_eq_ok, okOr_eq_ok, pure_eq_ok, hlen, htake, hdrop,
    exists_const, true_and, t.format.read_write hbody rest, Prod.exists, Option.some.injEq,
    Prod.mk.injEq]
  exact ⟨a, rest, ⟨rfl, rfl⟩, rfl⟩

theorem holds_of_store (space : data.length = t.space) (h : t.store data a = .ok data') :
    t.Holds data' a := by
  simp only [store, bind_eq_ok, require_eq_ok, okOr_eq_ok, pure_eq_ok, exists_const] at h
  obtain ⟨body, hbody, hfits, rfl⟩ := h
  refine ⟨?_, body, data.drop (t.discriminator ++ body).length, hbody, List.append_assoc _ _ _⟩
  rw [List.length_append, List.length_drop, Nat.add_sub_cancel' hfits, space]

theorem store_succeeds {body : Bytes} (space : data.length = t.space)
    (written : t.format.write a = some body) (fits : 8 + body.length ≤ t.space) :
    ∃ data', t.store data a = .ok data' ∧ t.Holds data' a := by
  have hfits : (t.discriminator ++ body).length ≤ data.length := by
    rw [List.length_append, t.tagged, space]
    exact fits
  have hstore : t.store data a =
      .ok (t.discriminator ++ body ++ data.drop (t.discriminator ++ body).length) := by
    simp only [store, bind_eq_ok, require_eq_ok, okOr_eq_ok, pure_eq_ok, exists_const]
    exact ⟨body, written, hfits, rfl⟩
  exact ⟨_, hstore, holds_of_store space hstore⟩

theorem fits_of_holds (h : t.Holds data a) :
    ∃ body, t.format.write a = some body ∧ 8 + body.length ≤ t.space := by
  obtain ⟨hspace, body, rest, hbody, rfl⟩ := h
  refine ⟨body, hbody, ?_⟩
  rw [← hspace, List.length_append, List.length_append, t.tagged]
  omega

def Kept (t : AccountType α) : Option Bytes → Option α → Prop
  | none, none => True
  | some data, some a => t.Holds data a
  | _, _ => False

theorem kept_none_iff {data : Option Bytes} {a : Option α} (h : t.Kept data a) :
    data = none ↔ a = none := by
  cases data with
  | none =>
    cases a with
    | none => exact ⟨fun _ => rfl, fun _ => rfl⟩
    | some a => cases h
  | some data =>
    cases a with
    | none => cases h
    | some a => exact ⟨nofun, nofun⟩

theorem loadAll_of_kept {data : Option Bytes} {a : Option α} (h : t.Kept data a) :
    t.loadAll data = .ok a := by
  cases data with
  | none =>
    cases a with
    | none => rfl
    | some a => cases h
  | some data =>
    cases a with
    | none => cases h
    | some a => simp only [loadAll, load_of_holds h, bind_eq_ok, pure_eq_ok, Except.ok.injEq,
        exists_eq_left']

theorem space_of_kept {data : Option Bytes} {a : Option α} (h : t.Kept data a) :
    (data.getD t.created).length = t.space := by
  cases data with
  | none => exact List.length_replicate
  | some data =>
    cases a with
    | none => cases h
    | some a => exact h.space

theorem kept_of_storeAll {data data' : Option Bytes} {a b : Option α} (h : t.Kept data a)
    (hstore : t.storeAll data b = .ok data') : t.Kept data' b := by
  cases b with
  | none =>
    cases hstore
    trivial
  | some b =>
    simp only [storeAll, bind_eq_ok, pure_eq_ok] at hstore
    obtain ⟨image, himage, rfl⟩ := hstore
    exact holds_of_store (space_of_kept h) himage

theorem storeAll_succeeds {data : Option Bytes} {a : Option α} {body : Bytes} (h : t.Kept data a)
    (written : t.format.write b = some body) (fits : 8 + body.length ≤ t.space) :
    ∃ data', t.storeAll data (some b) = .ok data' := by
  obtain ⟨image, himage, -⟩ := store_succeeds (space_of_kept h) written fits
  exact ⟨some image, by simp only [storeAll, bind_eq_ok, pure_eq_ok, himage, Except.ok.injEq,
    exists_eq_left']⟩

end AccountType

end CrossChainPingPong.Svm
