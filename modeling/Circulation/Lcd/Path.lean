import Circulation.Chain.Query
import Circulation.Text.Percent

/-!
# Request paths

Every query has a path of the light client daemon's REST interface. The arguments of the query are
percent-encoded, so they stay within their place in the path.

## Main definitions

* `Circulation.Lcd.PathPart`, `Circulation.Lcd.pathParts` — fixed texts and arguments of a path.
* `Circulation.Lcd.path` — the path of a query.
-/

namespace Circulation.Lcd

/-- A part of a path: a fixed text, or an argument that is encoded. -/
inductive PathPart where
  | fixed (text : String)
  | argument (text : String)
  deriving DecidableEq, Repr

/-- The written form of a part. -/
def PathPart.text : PathPart → String
  | .fixed s => s
  | .argument s => Text.percentEncode s

/-- The parts of the path of a query. -/
def pathParts : Query → List PathPart
  | .height => [.fixed "/cosmos/base/tendermint/v1beta1/blocks/latest"]
  | .totalSupply denom => [.fixed "/cosmos/bank/v1beta1/supply/by_denom?denom=", .argument denom]
  | .escrow denom =>
    [.fixed "/ibc/apps/transfer/v1/denoms/", .argument denom, .fixed "/total_escrow"]
  | .communityPool _ => [.fixed "/cosmos/distribution/v1beta1/community_pool"]
  | .balance address denom =>
    [.fixed "/cosmos/bank/v1beta1/balances/", .argument address, .fixed "/by_denom?denom=",
      .argument denom]
  | .moduleAddress name => [.fixed "/cosmos/auth/v1beta1/module_accounts/", .argument name]
  | .account address => [.fixed "/cosmos/auth/v1beta1/accounts/", .argument address]
  | .claims tier _ =>
    [.fixed "/LumeraProtocol/lumera/claim/list_claimed/", .fixed (toString tier.number)]

/-- The path of a query. -/
def path (q : Query) : String :=
  String.join ((pathParts q).map PathPart.text)

end Circulation.Lcd
