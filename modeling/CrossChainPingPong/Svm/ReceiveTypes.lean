import CrossChainPingPong.Svm.Outcome

namespace CrossChainPingPong.Svm
open Guard

structure Endpoint where
  id : Pubkey
  settings : Pubkey
  accountsForClear : Pubkey → Pubkey → U32 → Bytes32 → U64 → List LzAccount

def LzReceiveTypes.apply (rt : Runtime) (endpoint : Endpoint) (game : Pubkey)
    (params : LzReceiveParams) : List LzAccount :=
  let peer := (rt.findProgramAddress
    [peerSeed, BigEndian.write 32 game.toNat, BigEndian.write 4 params.srcEid.toNat]).1
  let accounts : List LzAccount := [⟨game, false, true⟩, ⟨peer, false, false⟩]
  let accountsForClear :=
    endpoint.accountsForClear endpoint.id game params.srcEid params.sender params.nonce
  accounts ++ accountsForClear

structure LzReceiveAccounts where
  game : LzAccount
  peer : LzAccount
  endpoint : LzAccount
  remainingAccounts : List LzAccount

def LzReceiveAccounts.read : List LzAccount → Option LzReceiveAccounts
  | game :: peer :: endpoint :: remainingAccounts => some ⟨game, peer, endpoint, remainingAccounts⟩
  | _ => none

structure LzReceiveAccounts.Constraints (rt : Runtime) (endpoint : Endpoint)
    (params : LzReceiveParams) (accounts : LzReceiveAccounts) : Prop where
  game : accounts.game.pubkey = rt.gameAddress.1
  gameIsMut : accounts.game.isWritable = true
  peer : accounts.peer.pubkey = (rt.peerAddress params.srcEid).1
  endpoint : accounts.endpoint.pubkey = endpoint.settings

def FitsReceiver (rt : Runtime) (endpoint : Endpoint) (oapp : Oapp) (params : LzReceiveParams)
    (list : List LzAccount) : Prop :=
  ∃ accounts, LzReceiveAccounts.read list = some accounts ∧
    accounts.Constraints rt endpoint params ∧
    oapp.clearMinAccountsLen ≤ accounts.remainingAccounts.length ∧
    accounts.remainingAccounts.head?.map LzAccount.pubkey = some endpoint.id

structure ClearAccounts (endpoint : Endpoint) (oapp : Oapp) (game : Pubkey)
    (params : LzReceiveParams) (list : List LzAccount) : Prop where
  eq : list = endpoint.accountsForClear endpoint.id game params.srcEid params.sender params.nonce
  length : list.length = oapp.clearMinAccountsLen
  first : list.head?.map LzAccount.pubkey = some endpoint.id

variable {rt : Runtime} {endpoint : Endpoint} {oapp : Oapp} {params : LzReceiveParams}
  {game : Pubkey} {list : List LzAccount}

-- the endpoint program takes the place of its settings, so the rest is one account short
theorem read_receiveTypes (rt : Runtime) (clear : ClearAccounts endpoint oapp game params list) :
    ∃ accounts, LzReceiveAccounts.read (LzReceiveTypes.apply rt endpoint game params) =
      some accounts ∧ accounts.endpoint.pubkey = endpoint.id ∧
      accounts.remainingAccounts.length + 1 = oapp.clearMinAccountsLen := by
  obtain ⟨heq, hlength, hfirst⟩ := clear
  cases list with
  | nil => cases hfirst
  | cons first rest =>
    rw [LzReceiveTypes.apply, ← heq]
    exact ⟨_, rfl, Option.some.inj hfirst, hlength⟩

theorem fits_with_settings (clear : ClearAccounts endpoint oapp rt.gameAddress.1 params list)
    (settings : LzAccount) (key : settings.pubkey = endpoint.settings) :
    FitsReceiver rt endpoint oapp params
      ((LzReceiveTypes.apply rt endpoint rt.gameAddress.1 params).take 2 ++ settings :: list) := by
  obtain ⟨heq, hlength, hfirst⟩ := clear
  exact ⟨_, rfl, ⟨rfl, rfl, rfl, key⟩, hlength.ge, hfirst⟩

theorem receiver_accounts_never_fit (rt : Runtime) (endpoint : Endpoint) (oapp : Oapp)
    (game : Pubkey) (params : LzReceiveParams)
    (length : (endpoint.accountsForClear endpoint.id game params.srcEid params.sender
      params.nonce).length = oapp.clearMinAccountsLen)
    (first : (endpoint.accountsForClear endpoint.id game params.srcEid params.sender
      params.nonce).head?.map LzAccount.pubkey = some endpoint.id) :
    ¬ FitsReceiver rt endpoint oapp params (LzReceiveTypes.apply rt endpoint game params) ∧
      ∀ accounts l, LzReceiveAccounts.read (LzReceiveTypes.apply rt endpoint game params) =
        some accounts → ¬ Succeeds (apply rt (.lzReceive oapp accounts.remainingAccounts params) l) := by
  obtain ⟨found, hread, -, hshort⟩ := read_receiveTypes rt ⟨rfl, length, first⟩
  constructor
  · rintro ⟨accounts, hread', -, henough, -⟩
    obtain rfl := Option.some.inj (hread.symm.trans hread')
    omega
  · intro accounts l hread' hok
    obtain rfl := Option.some.inj (hread.symm.trans hread')
    simp only [apply, LzReceive.apply, succeeds_bind, require_eq_ok, exists_const] at hok
    obtain ⟨g, -, peer, -, -, -, henough, -⟩ := hok
    omega

def sampleEndpoint : Endpoint where
  id := 76
  settings := 77
  accountsForClear id receiver srcEid _ nonce :=
    [⟨id, false, false⟩, ⟨receiver, false, false⟩, ⟨78, false, false⟩,
      ⟨(79 + nonce).setWidth 256, false, true⟩, ⟨srcEid.setWidth 256, false, true⟩,
      ⟨77, false, true⟩, ⟨80, false, false⟩, ⟨id, false, false⟩]

def sampleClear : Oapp := { obligingOapp 0 with clearMinAccountsLen := 8 }

def sampleParams : LzReceiveParams := ⟨40161, 6, 1, 8, PingPongMessage.encode ⟨5, 0⟩, []⟩

theorem sampleParams_never_fits : ¬ FitsReceiver sampleRuntime sampleEndpoint sampleClear sampleParams
    (LzReceiveTypes.apply sampleRuntime sampleEndpoint sampleRuntime.gameAddress.1 sampleParams) :=
  (receiver_accounts_never_fit sampleRuntime sampleEndpoint sampleClear
    sampleRuntime.gameAddress.1 sampleParams rfl rfl).1

theorem receiver_accounts_not_always_fit : ¬ ∀ (rt : Runtime) (endpoint : Endpoint) (oapp : Oapp)
    (params : LzReceiveParams),
    (endpoint.accountsForClear endpoint.id rt.gameAddress.1 params.srcEid params.sender
      params.nonce).length = oapp.clearMinAccountsLen →
    (endpoint.accountsForClear endpoint.id rt.gameAddress.1 params.srcEid params.sender
      params.nonce).head?.map LzAccount.pubkey = some endpoint.id →
    FitsReceiver rt endpoint oapp params
      (LzReceiveTypes.apply rt endpoint rt.gameAddress.1 params) := by
  intro h
  obtain ⟨accounts, hread, -, henough, -⟩ :=
    h sampleRuntime sampleEndpoint sampleClear sampleParams rfl rfl
  obtain rfl := Option.some.inj hread
  exact absurd henough (by decide)

end CrossChainPingPong.Svm
