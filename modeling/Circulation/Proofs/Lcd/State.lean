import Circulation.Lcd.Client
import Circulation.Proofs.Instant.Rendering
import Circulation.Proofs.Json.Envelope
import Circulation.Proofs.Lcd.Target

/-!
# Chain states behind a server

A state of the chain and a server that serves it: whatever a documented target asks for, as far as the
state has it, the server answers with success and with a body that states it in the documented
envelope. The server chooses the layout of the body, the order of members and any further fields.

## Main definitions

* `Circulation.Lcd.ChainState` — states of the chain.
* `Circulation.Lcd.ChainState.answer?` — what a query is worth in a state.
* `Circulation.Lcd.ChainState.Documents` — the bodies that state what a resource is worth.
* `Circulation.Lcd.ChainState.IsServedBy` — a server serves a state.
* `Circulation.Lcd.ChainState.server` — a server that writes without blanks and further fields.

## Main results

* `Circulation.Lcd.ChainState.isServedBy_server` — every state whose accounts have integers only is
  served.
-/

namespace Circulation.Lcd

open Json

/-- A state of the chain. Accounts are JSON values, whose objects have no order of their own and stand
here in the order of their keys. -/
structure ChainState where
  block : Block
  supply : String → Nat
  escrow : String → Nat
  pool : List Coin
  balance : String → String → Nat
  moduleAddress? : String → Option String
  account? : String → Option Json
  /-- The text of the claim list of a tier. -/
  claims : ClaimTier → String
  fitsInt64_height : Numeral.FitsInt64 block.height
  isWritable_time : block.time.IsWritable
  moduleAddress_ne : ∀ name address, moduleAddress? name = some address → address ≠ ""
  hasIncreasingKeys : ∀ address v, account? address = some v → v.HasIncreasingKeys

namespace ChainState

/-- What a query is worth in a state. There is nothing for modules and accounts that do not exist. -/
def answer? (s : ChainState) : (q : Query) → Option q.Outcome
  | .height => some (.ok s.block)
  | .totalSupply denom => some (.ok (s.supply denom))
  | .escrow denom => some (.ok (s.escrow denom))
  | .communityPool denom => some (.ok ((Coin.amountTextOf? s.pool denom).getD "0"))
  | .balance address denom => some (.ok (s.balance address denom))
  | .moduleAddress name => (s.moduleAddress? name).map .ok
  | .account address => (s.account? address).map AccountLock.ofJson
  | .claims tier denom => some ((ClaimRecord.listOfText denom (s.claims tier)).mapError .decode)

/-! ### Bodies -/

/-- An object with an amount. -/
def StatesAmount (n : Nat) : Tree → Prop :=
  HasField "amount" (· = .string (toString n))

/-- An object with the denomination and the amount of a coin. -/
def StatesCoin (c : Coin) (t : Tree) : Prop :=
  HasField "denom" (· = .string c.denom) t ∧ HasField "amount" (· = .string c.amount) t

/-- The header of a block with a height and the text of a time. -/
def StatesHeader (height : Int) (time : String) (t : Tree) : Prop :=
  HasField "height" (· = .string (toString height)) t ∧ HasField "time" (· = .string time) t

/-- The trees that state what a resource is worth, apart from claims, each in its envelope. Any text
that shows the time of the block states it. -/
inductive States (s : ChainState) : Resource → Tree → Prop
  | latestBlock {time : String} {t : Tree} (htime : s.block.time.IsShownBy time.toList)
      (h : HasField "block" (HasField "header" (StatesHeader s.block.height time)) t) :
      States s .latestBlock t
  | supply {denom : String} {t : Tree} (h : HasField "amount" (StatesAmount (s.supply denom)) t) :
      States s (.supply denom) t
  | escrow {denom : String} {t : Tree} (h : HasField "amount" (StatesAmount (s.escrow denom)) t) :
      States s (.escrow denom) t
  | communityPool {t : Tree} {items : List Tree} (hitems : List.Forall₂ StatesCoin s.pool items)
      (h : HasField "pool" (· = .array items) t) : States s .communityPool t
  | balance {address denom : String} {t : Tree}
      (h : HasField "balance" (StatesAmount (s.balance address denom)) t) :
      States s (.balance address denom) t
  | moduleAccount {name address : String} {t : Tree} (haddress : s.moduleAddress? name = some address)
      (h : HasField "account" (HasField "base_account" (HasField "address" (· = .string address))) t) :
      States s (.moduleAccount name) t
  | account {address : String} {v w : Json} {t : Tree} (hv : s.account? address = some v)
      (hw : v.Reorders w) (h : HasField "account" (· = .ofJson w) t) : States s (.account address) t

/-- The bodies that state what a resource is worth. A claim list is a body already. -/
inductive Documents (s : ChainState) : Resource → String → Prop
  | text {r : Resource} {t : Tree} {body : String} (h : s.States r t) (htext : t.IsText body) :
      Documents s r body
  | claims {tier : ClaimTier} : Documents s (.claims tier) (s.claims tier)

/-- Whether a state has what a resource asks for. -/
def Knows (s : ChainState) : Resource → Prop
  | .moduleAccount name => (s.moduleAddress? name).isSome
  | .account address => (s.account? address).isSome
  | _ => True

/-- A server answers every target that asks for something that the state has with success and with a
body that states it. -/
def IsServedBy (s : ChainState) (server : String → Delivery) : Prop :=
  ∀ target r, Resource.ofText? target = some r → s.Knows r →
    ∃ body, server target = .response 200 body ∧ s.Documents r body

/-! ### A server -/

/-- An object with a single field. -/
def wrapped (key : String) (v : Json) : Json :=
  .object [(key, v)]

/-- A coin as an object. -/
def coinJson (denom amount : String) : Json :=
  .object [("denom", .string denom), ("amount", .string amount)]

/-- A text of what a resource is worth, in its envelope. -/
def body? (s : ChainState) : Resource → Option String
  | .latestBlock => s.block.time.toRfc3339?.map fun time =>
    compact (wrapped "block" (wrapped "header"
      (.object [("height", .string (toString s.block.height)), ("time", .string time)])))
  | .supply denom => some (compact (wrapped "amount" (coinJson denom (toString (s.supply denom)))))
  | .escrow denom => some (compact (wrapped "amount" (coinJson denom (toString (s.escrow denom)))))
  | .communityPool =>
    some (compact (wrapped "pool" (.array (s.pool.map fun c => coinJson c.denom c.amount))))
  | .balance address denom =>
    some (compact (wrapped "balance" (coinJson denom (toString (s.balance address denom)))))
  | .moduleAccount name => (s.moduleAddress? name).map fun address =>
    compact (wrapped "account" (wrapped "base_account" (wrapped "address" (.string address))))
  | .account address => (s.account? address).map fun v => compact (wrapped "account" v)
  | .claims tier => some (s.claims tier)

/-- A server that writes its answers without blanks and without further fields. -/
def server (s : ChainState) (target : String) : Delivery :=
  match (Resource.ofText? target).bind s.body? with
  | some body => .response 200 body
  | none => .response 404 ""

theorem hasField_wrapped {key : String} {p : Tree → Prop} {v : Json} (h : p (.ofJson v)) :
    HasField key p (.ofJson (wrapped key v)) :=
  .of_has (by simp [Has]) h

theorem hasIntegers_wrapped {key : String} {v : Json} (h : v.HasIntegers) :
    (wrapped key v).HasIntegers :=
  ⟨h, trivial⟩

theorem statesCoin_coinJson (c : Coin) : StatesCoin c (.ofJson (coinJson c.denom c.amount)) :=
  ⟨.of_has (show Has _ "denom" (some (.string c.denom)) by simp [Has]) rfl,
    .of_has (show Has _ "amount" (some (.string c.amount)) by simp [Has]) rfl⟩

theorem statesAmount_coinJson (denom : String) (n : Nat) :
    StatesAmount n (.ofJson (coinJson denom (toString n))) :=
  (statesCoin_coinJson ⟨denom, toString n⟩).2

theorem hasIntegers_coinJson (denom amount : String) : (coinJson denom amount).HasIntegers :=
  ⟨trivial, trivial, trivial⟩

variable {s : ChainState}

theorem documents_compact {r : Resource} {v : Json} (h : s.States r (.ofJson v))
    (hv : v.HasIntegers) : s.Documents r (compact v) :=
  .text h (isText_compact hv)

theorem documents_amount {r : Resource} {key denom : String} {n : Nat}
    (h : ∀ {t : Tree}, HasField key (StatesAmount n) t → s.States r t) :
    s.Documents r (compact (wrapped key (coinJson denom (toString n)))) :=
  documents_compact (h (hasField_wrapped (statesAmount_coinJson denom n)))
    (hasIntegers_wrapped (hasIntegers_coinJson _ _))

/-- Whatever the state has, its body states. -/
theorem exists_body? (hintegers : ∀ address v, s.account? address = some v → v.HasIntegers)
    {r : Resource} (hr : s.Knows r) : ∃ body, s.body? r = some body ∧ s.Documents r body := by
  cases r with
  | latestBlock =>
    obtain ⟨time, htime⟩ := Instant.exists_toRfc3339?_iff.mpr s.isWritable_time
    let header : Json :=
      .object [("height", .string (toString s.block.height)), ("time", .string time)]
    have hheader : StatesHeader s.block.height time (.ofJson header) :=
      ⟨.of_has (show Has _ "height" (some (.string (toString s.block.height))) by simp [Has]) rfl,
        .of_has (show Has _ "time" (some (.string time)) by simp [Has]) rfl⟩
    have hintegers : header.HasIntegers := ⟨trivial, trivial, trivial⟩
    exact ⟨_, by rw [body?, htime, Option.map_some],
      documents_compact (.latestBlock (Instant.isShownBy_of_toRfc3339? htime)
        (hasField_wrapped (hasField_wrapped hheader)))
        (hasIntegers_wrapped (hasIntegers_wrapped hintegers))⟩
  | supply denom => exact ⟨_, rfl, documents_amount .supply⟩
  | escrow denom => exact ⟨_, rfl, documents_amount .escrow⟩
  | communityPool =>
    have hitems : List.Forall₂ StatesCoin s.pool
        (Tree.ofItems (s.pool.map fun c => coinJson c.denom c.amount)) := by
      rw [Tree.ofItems_eq_map, List.map_map]
      exact List.forall₂_map_right_iff.mpr (List.forall₂_same.mpr fun c _ => statesCoin_coinJson c)
    have hintegers : (Json.array (s.pool.map fun c => coinJson c.denom c.amount)).HasIntegers :=
      haveIntegers_iff.mpr (List.forall_mem_map.mpr fun _ _ => hasIntegers_coinJson _ _)
    exact ⟨_, rfl, documents_compact (.communityPool hitems (hasField_wrapped rfl))
      (hasIntegers_wrapped hintegers)⟩
  | balance address denom => exact ⟨_, rfl, documents_amount .balance⟩
  | moduleAccount name =>
    obtain ⟨address, haddress⟩ := Option.isSome_iff_exists.mp hr
    have hbase : HasField "base_account" (HasField "address" (· = .string address))
        (.ofJson (wrapped "base_account" (wrapped "address" (.string address)))) :=
      hasField_wrapped (hasField_wrapped rfl)
    exact ⟨_, by rw [body?, haddress, Option.map_some],
      documents_compact (.moduleAccount haddress (hasField_wrapped hbase))
        (hasIntegers_wrapped (hasIntegers_wrapped ⟨trivial, trivial⟩))⟩
  | account address =>
    obtain ⟨v, hv⟩ := Option.isSome_iff_exists.mp hr
    exact ⟨_, by rw [body?, hv, Option.map_some],
      documents_compact (.account hv .refl (hasField_wrapped rfl))
        (hasIntegers_wrapped (hintegers address v hv))⟩
  | claims tier => exact ⟨_, rfl, .claims⟩

/-- **Every state is served**, if the numbers in its accounts are integers. -/
theorem isServedBy_server (s : ChainState)
    (hintegers : ∀ address v, s.account? address = some v → v.HasIntegers) :
    s.IsServedBy s.server := by
  intro target r htarget hr
  obtain ⟨body, hbody, hdocuments⟩ := exists_body? hintegers hr
  exact ⟨body, by rw [server, htarget, Option.bind_some, hbody], hdocuments⟩

end ChainState

end Circulation.Lcd
