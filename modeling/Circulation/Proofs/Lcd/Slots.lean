import Circulation.Lcd.Offline
import Circulation.Proofs.Lcd.Target
import Circulation.Proofs.Program.Run

/-!
# Arguments in their slots

The path of a query is a row of fixed texts, which are those of its operation, with the encoded
arguments in the slots between them. An encoded argument consists of unreserved characters and of
triples of a percent sign and two digits, and it stands for the bytes of the argument. So no argument
leaves its slot: two queries with one path are one operation on the same arguments. The statements
are about the text that is sent, before anybody resolves the dot segments in it.

## Main definitions

* `Circulation.Text.IsSlotText` — the texts that a slot may hold.
* `Circulation.Lcd.Operation`, `Circulation.Lcd.operation`, `Circulation.Lcd.arguments` — a query by
  what is asked and what for.
* `Circulation.Lcd.fill` — fixed texts with other texts in the slots between them.

## Main results

* `Circulation.Text.isSlotText_percentEncode` — an encoded text fits in a slot.
* `Circulation.Lcd.path_eq_fill` — a path is made of fixed texts and encoded arguments.
* `Circulation.Lcd.path_keeps_slots` — arguments stay in their slots, and paths are not confused.
-/

namespace Circulation

namespace Text

/-- The digits of base 16 in upper case. -/
def upperHexDigits : List Char :=
  ['0', '1', '2', '3', '4', '5', '6', '7', '8', '9', 'A', 'B', 'C', 'D', 'E', 'F']

/-- The texts that a slot may hold: ASCII letters and digits, `-`, `.`, `_` and `~`, and triples of a
percent sign and two digits of base 16. -/
inductive IsSlotText : List Char → Prop
  | nil : IsSlotText []
  | unreserved {c : Char} {cs : List Char}
      (hc : c.isAlphanum = true ∨ c ∈ ['-', '.', '_', '~']) (h : IsSlotText cs) :
      IsSlotText (c :: cs)
  | triple {a b : Char} {cs : List Char} (ha : a ∈ upperHexDigits) (hb : b ∈ upperHexDigits)
      (h : IsSlotText cs) : IsSlotText ('%' :: a :: b :: cs)

theorem isSlotText_percentByte (b : UInt8) {cs : List Char} (h : IsSlotText cs) :
    IsSlotText (percentByte b ++ cs) := by
  have hb := b.toNat_lt
  unfold percentByte
  split_ifs with hplain
  · have hall : ∀ n : Fin 128, isUnreserved (UInt8.ofNat n.val) = true →
        (Char.ofNat n.val).isAlphanum = true ∨ Char.ofNat n.val ∈ ['-', '.', '_', '~'] := by
      decide
    have hascii := (isUnreserved_toNat hplain).1
    exact .unreserved (hall ⟨b.toNat, hascii⟩ (by rwa [UInt8.ofNat_toNat])) h
  · have hall : ∀ n : Fin 16, upperHexDigit n.val ∈ upperHexDigits := by decide
    exact .triple (hall ⟨b.toNat / 16, by omega⟩) (hall ⟨b.toNat % 16, by omega⟩) h

/-- An encoded text fits in a slot. -/
theorem isSlotText_percentEncode (s : String) : IsSlotText (percentEncode s).toList := by
  rw [percentEncode, String.toList_ofList]
  induction s.toUTF8.toList with
  | nil => exact .nil
  | cons b bytes ih =>
    rw [List.flatMap_cons]
    exact isSlotText_percentByte b ih

/-- An encoded text stands for the bytes of the text. -/
theorem percentDecode_percentEncode (s : String) :
    percentDecode (percentEncode s).toList = some s.toUTF8.toList := by
  rw [percentEncode, String.toList_ofList, percentDecode_flatMap]

end Text

namespace Lcd

/-- What is asked, without the arguments. -/
inductive Operation where
  | latestBlock
  | supply
  | escrow
  | communityPool
  | balance
  | moduleAccount
  | account
  | claims (tier : ClaimTier)
  deriving DecidableEq, Repr

/-- What a query asks. -/
def operation : Query → Operation
  | .height => .latestBlock
  | .totalSupply _ => .supply
  | .escrow _ => .escrow
  | .communityPool _ => .communityPool
  | .balance _ _ => .balance
  | .moduleAddress _ => .moduleAccount
  | .account _ => .account
  | .claims tier _ => .claims tier

/-- What the server is to know of the arguments of a query. The listings of the community pool and of
the claims hold all denominations, so that theirs is not among it. -/
def arguments : Query → List String
  | .height | .communityPool _ | .claims _ _ => []
  | .totalSupply denom | .escrow denom => [denom]
  | .balance address denom => [address, denom]
  | .moduleAddress name => [name]
  | .account address => [address]

/-- The fixed texts of the paths of an operation, with a slot between each two of them. -/
def Operation.fixedTexts : Operation → List String
  | latestBlock => ["/cosmos/base/tendermint/v1beta1/blocks/latest"]
  | supply => ["/cosmos/bank/v1beta1/supply/by_denom?denom=", ""]
  | escrow => ["/ibc/apps/transfer/v1/denoms/", "/total_escrow"]
  | communityPool => ["/cosmos/distribution/v1beta1/community_pool"]
  | balance => ["/cosmos/bank/v1beta1/balances/", "/by_denom?denom=", ""]
  | moduleAccount => ["/cosmos/auth/v1beta1/module_accounts/", ""]
  | account => ["/cosmos/auth/v1beta1/accounts/", ""]
  | claims tier => ["/LumeraProtocol/lumera/claim/list_claimed/" ++ toString tier.number]

/-- Fixed texts with other texts in the slots between them. -/
def fill : List String → List (List Char) → List Char
  | [], _ => []
  | text :: texts, [] => text.toList ++ fill texts []
  | text :: texts, slot :: slots => text.toList ++ slot ++ fill texts slots

/-- An operation has one slot for every argument. -/
theorem length_fixedTexts (q : Query) :
    (operation q).fixedTexts.length = (arguments q).length + 1 := by
  cases q <;> rfl

/-- A path is made of the fixed texts of the operation and of the encoded arguments. -/
theorem path_eq_fill (q : Query) :
    (path q).toList =
      fill (operation q).fixedTexts ((arguments q).map fun a => (Text.percentEncode a).toList) := by
  rw [path, String.toList_join]
  cases q <;>
    simp [pathParts, PathPart.text, operation, arguments, Operation.fixedTexts, fill]

/-- What a query asks for is determined by the operation and its arguments. -/
theorem resource_eq_iff {q q' : Query} :
    resource q = resource q' ↔ operation q = operation q' ∧ arguments q = arguments q' := by
  cases q <;> cases q' <;> simp [resource, operation, arguments]

/-- Two queries have one path exactly if they are one operation on the same arguments: a server that
takes the path apart finds both. -/
theorem path_eq_path_iff {q q' : Query} :
    path q = path q' ↔ operation q = operation q' ∧ arguments q = arguments q' := by
  constructor
  · rintro h
    have hresource := ofText?_path q
    rw [h, ofText?_path q'] at hresource
    exact resource_eq_iff.mp (Option.some.inj hresource).symm
  · rintro ⟨hoperation, harguments⟩
    rw [← String.toList_inj, path_eq_fill, path_eq_fill, hoperation, harguments]

/-! ### Requests -/

namespace Client

open Program

/-- The requests that are for one URL, and the pauses. -/
def IsFor (url : String) (n : Network) : Prop :=
  ∀ url', n = .send url' → url' = url

variable {url : String}

theorem isFor_send : IsFor url (.send url) :=
  fun _ h => (Network.send.inj h).symm

theorem isFor_pause (milliseconds : Nat) : IsFor url (.pause milliseconds) :=
  fun _ h => absurd h Network.noConfusion

theorem ensures_settle (delivery : Delivery) :
    (settle url delivery).Ensures (IsFor url) fun _ => True := by
  unfold settle mentionIf
  split_ifs <;> trivial

/-- Fetching a URL sends requests for no other, whatever comes of them. -/
theorem ensures_fetchFrom (base attempt left : Nat) :
    (fetchFrom base url attempt left).Ensures (IsFor url) fun _ => True := by
  induction left generalizing attempt with
  | zero => exact ⟨isFor_send, ensures_settle⟩
  | succ left ih =>
    refine ⟨isFor_send, fun delivery => ?_⟩
    show (if delivery.isRetryable then _ else settle url delivery : Requesting _).Ensures _ _
    split_ifs
    · exact ⟨isFor_pause _, fun _ => ih (attempt + 1)⟩
    · exact ensures_settle delivery

theorem ensures_mentionListing (q : Query) (outcome : q.Outcome) :
    (mentionListing q outcome).Ensures (IsFor url) fun _ => True := by
  unfold mentionListing
  split <;> trivial

/-- Whatever comes of it, a query sends requests for its path only. -/
theorem ensures_answer (c : Client) (q : Query) :
    (c.answer q).Ensures (IsFor (c.baseUrl ++ path q)) fun _ => True := by
  refine (ensures_fetchFrom _ _ _).bind fun body? _ => ?_
  cases body? with
  | error why => trivial
  | ok body => exact (ensures_mentionListing q _).bind fun _ _ => trivial

end Client

/-- **Arguments stay in their slots.** The path of a query consists of the fixed texts of its
operation and, in each slot between them, unreserved characters and triples which stand for the bytes
of the argument that belongs there. Two paths are the same exactly if they are of one operation and of
the same arguments, and every request that is made for a query is for its path. -/
theorem path_keeps_slots (q : Query) :
    (∃ slots : List (List Char),
      (path q).toList = fill (operation q).fixedTexts slots ∧
        (operation q).fixedTexts.length = slots.length + 1 ∧
        List.Forall₂
          (fun slot a => Text.IsSlotText slot ∧ Text.percentDecode slot = some a.toUTF8.toList)
          slots (arguments q)) ∧
      (∀ q' : Query,
        path q = path q' ↔ operation q = operation q' ∧ arguments q = arguments q') ∧
      ∀ (c : Client) (log : List (Sigma Network.Answer)) (outcome : q.Outcome),
        (c.answer q).Run log outcome → ∀ url, .send url ∈ log.map Sigma.fst →
          url = c.baseUrl ++ path q := by
  refine ⟨⟨(arguments q).map fun a => (Text.percentEncode a).toList, path_eq_fill q, ?_, ?_⟩,
    fun q' => path_eq_path_iff, ?_⟩
  · rw [List.length_map, length_fixedTexts]
  · rw [List.forall₂_map_left_iff, List.forall₂_same]
    exact fun a _ => ⟨Text.isSlotText_percentEncode a, Text.percentDecode_percentEncode a⟩
  · rintro c log outcome hrun url hurl
    obtain ⟨entry, hentry, hsent⟩ := List.mem_map.mp hurl
    exact ((Client.ensures_answer c q).of_run hrun).2 entry hentry url hsent

/-- A slash in an address stays in its slot, and the request is for that path. -/
theorem path_keeps_slots_slash :
    let q : Query := .balance "a/b" "ulume"
    let c : Client := ⟨{}, "http://host"⟩
    let url := "http://host/cosmos/bank/v1beta1/balances/a%2Fb/by_denom?denom=ulume"
    ∃ (log : List (Sigma Network.Answer)) (outcome : q.Outcome), (c.answer q).Run log outcome ∧
      .send url ∈ log.map Sigma.fst ∧ url = c.baseUrl ++ path q := by
  intro q c url
  have hsent : .send url ∈ (c.answer q).questions offline := by decide +kernel
  have hurl : .send url ∈ (((c.answer q).questions offline).map fun n =>
      (⟨n, offline n⟩ : Sigma Network.Answer)).map Sigma.fst := by
    rw [List.map_map]
    exact List.mem_map.mpr ⟨_, hsent, rfl⟩
  have hrun := Program.run_eval offline (c.answer q)
  exact ⟨_, _, hrun, hurl, (path_keeps_slots q).2.2 c _ _ hrun url hurl⟩

end Lcd

end Circulation
