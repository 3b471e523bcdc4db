import CrossChainPingPong.Svm.Outcome

namespace CrossChainPingPong.Svm
open Guard

structure QuoteSendParams where
  dstEid : U32
  ballValue : U128
  options : Bytes

structure QuoteParams where
  sender : Pubkey
  dstEid : U32
  receiver : Bytes32
  message : Bytes
  payInLzToken : Bool
  options : Bytes

structure MessagingFee where
  nativeFee : U64
  lzTokenFee : U64

abbrev EndpointQuote := List LzAccount → QuoteParams → Option MessagingFee

def QuoteSend.apply (rt : Runtime) (oapp : Oapp) (quote : EndpointQuote) (endpoint : Pubkey)
    (remainingAccounts : List LzAccount) (params : QuoteSendParams) (l : Ledger) :
    Except Error MessagingFee := do
  let game ← okOr l.game .accountNotInitialized
  let peer ← okOr (l.peer params.dstEid) .accountNotInitialized
  require (endpoint = rt.endpointSettings) .notEndpointSettings
  let msg : PingPongMessage := ⟨params.ballValue, game.rallyCount⟩
  let options ← okOr (oapp.combineOptions peer.enforcedOptions.send params.options) .constraintRaw
  let quoteParams : QuoteParams :=
    { sender := rt.gameAddress.1
      dstEid := params.dstEid
      receiver := peer.peerAddress
      message := msg.encode
      payInLzToken := false
      options }
  okOr (quote remainingAccounts quoteParams) .oapp

def SendBallParams.quoted (params : SendBallParams) : QuoteSendParams :=
  ⟨params.dstEid, params.ballValue, params.options⟩

def SendParams.quoted (sender : Pubkey) (p : SendParams) : QuoteParams :=
  ⟨sender, p.dstEid, p.receiver, p.message, false, p.options⟩

variable {rt : Runtime} {oapp : Oapp} {l l' : Ledger} {out : List Sent}

theorem sendBall_quoted {accounts : List LzAccount} {params : SendBallParams}
    (h : SendBall.apply rt oapp accounts params l = .ok (l', out)) (quote : EndpointQuote) :
    ∃ p, out = [p] ∧
      QuoteSend.apply rt oapp quote rt.endpointSettings accounts params.quoted l =
        okOr (quote accounts (p.params.quoted rt.gameAddress.1)) .oapp := by
  simp only [SendBall.apply, bind_eq_ok, okOr_eq_ok, require_eq_ok, pure_eq_ok, exists_const,
    Prod.mk.injEq] at h
  obtain ⟨g, hgame, peer, hpeer, -, -, -, options, hoptions, guid, -, -, rfl⟩ := h
  refine ⟨_, rfl, ?_⟩
  simp only [QuoteSend.apply, SendBallParams.quoted, SendParams.quoted, hgame, hpeer, hoptions,
    okOr_some_bind, require_bind, if_true]

theorem quote_send_prices_the_message_sent (rt : Runtime) (ixs : List Ix) :
    ∀ c ∈ (machine rt).history Ledger.empty ixs, ∀ p ∈ c.out, ∃ oapp accounts params,
      c.action = .sendBall oapp accounts params ∧
        ∀ quote, QuoteSend.apply rt oapp quote rt.endpointSettings accounts params.quoted c.before =
          okOr (quote accounts (p.params.quoted rt.gameAddress.1)) .oapp := by
  intro c hmem p hp
  have hc : (machine rt).Commits c := (machine rt).commits_of_mem hmem
  obtain ⟨l, ix, l', out⟩ := c
  have ho : Outcome rt l ix l' out := apply_outcome hc
  obtain ⟨oapp, accounts, params, -, rfl, -⟩ := ho.sends_built p hp
  refine ⟨oapp, accounts, params, rfl, fun quote => ?_⟩
  obtain ⟨q, rfl, hquote⟩ := sendBall_quoted hc quote
  obtain rfl := List.mem_singleton.mp hp
  exact hquote

end CrossChainPingPong.Svm
