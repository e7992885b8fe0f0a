import Circulation.Proofs.Claim.Forms
import Circulation.Proofs.Lcd.State

/-!
# The client answers what the chain says

Over a network that delivers requests and responses as they are, a client of a server that serves a
state of the chain answers every query with what the query is worth in the state. The target of the
request comes apart into the arguments of the query whatever characters they hold, and the envelope is
read whatever else the server puts into it.

The containers of an account count from the envelope: an account that fills the depth to which texts
are read does not fit into its envelope, and the client reports a text that it cannot decode.

## Main definitions

* `Circulation.Lcd.Delivers` — a network delivers requests to a server.
* `Circulation.Lcd.ChainState.HasShallowAccounts` — the accounts of a state fit into their envelopes.

## Main results

* `Circulation.Lcd.ChainState.answerOf_of_documents` — a body is read as what it states.
* `Circulation.Lcd.Client.eval_answer_of_isServedBy` — the client answers what the chain says.
-/

namespace Circulation.Lcd

open Json

/-! ### Requests -/

/-- Requests reach a server with their targets as they are written, and its responses come back as they
are. -/
def Delivers (network : (q : Network) → q.Answer) (baseUrl : String) (server : String → Delivery) :
    Prop :=
  ∀ target, network (.send (baseUrl ++ target)) = server target

namespace Client

variable {network : (q : Network) → q.Answer} {c : Client} {body : String}

/-- A response with success is final: nothing is sent again, whatever the limit. -/
theorem eval_fetchFrom {url : String} (h : network (.send url) = .response 200 body)
    (base attempt left : Nat) : (fetchFrom base url attempt left).eval network = .ok body := by
  have hsettle : (settle url (.response 200 body)).eval network = .ok body := rfl
  have hfinal : (Delivery.response 200 body).isRetryable = false := rfl
  cases left with
  | zero =>
    rw [fetchFrom, Program.bind_eq_bind, Requesting.send, Program.ask_bind, Program.eval_ask, h]
    exact hsettle
  | succ left =>
    rw [fetchFrom, Program.bind_eq_bind, Requesting.send, Program.ask_bind, Program.eval_ask, h,
      Program.done_bind, hfinal]
    exact hsettle

theorem eval_answer {q : Query} (h : network (.send (c.baseUrl ++ path q)) = .response 200 body) :
    (c.answer q).eval network = answerOf q body := by
  have hfetch : (c.fetch (path q)).eval network = .ok body := eval_fetchFrom h _ _ _
  rw [answer, Program.bind_eq_bind, Program.eval_bind, hfetch]
  exact Program.eval_bind _ _ _

end Client

/-! ### Bodies -/

/-- What an envelope denotes is what its tree denotes. -/
theorem open?_eq_ok {α : Type} {d : Decoder α} {depth : Nat} (hd : d.Sees depth)
    (hdepth : depth < depthLimit) {t : Tree} {body : String} (htext : t.IsText body) {a : α}
    (h : d t.node = .ok a) : open? d body = .ok a := by
  have hread := hd.ofText hdepth htext
  rw [h] at hread
  rw [open?, toOption_eq_some_iff.mp hread]
  rfl

namespace ChainState

variable {s : ChainState} {t : Tree} {body : String}

theorem sees_amountDecoder : amountDecoder.Sees 1 :=
  (Record.sees_field Decoder.sees_string _).decoder _

theorem parse_toString (n : Nat) : Amount.parse (toString n) = .ok n := by
  obtain ⟨hne, hdigits, -⟩ := Numeral.isCanonical_toString n
  rw [ClaimRecord.parse_of_digits hne hdigits, ofDigits_toString]

/-- An amount is read from its envelope. -/
theorem amountOf_of_hasField {field : String} {n : Nat} (htext : t.IsText body)
    (h : HasField field (StatesAmount n) t) (name : String) : amountOf field name body = .ok n := by
  have hamount : ∀ u, StatesAmount n u → Decoder.optional amountDecoder u.node = .ok (some (toString n)) :=
    fun u hu => hu.optional (hu.decoder_field (fun _ => Decoder.string_of_eq) _ _)
  have hsees : (single (Record.nullable field amountDecoder) name).Sees 2 :=
    (Record.sees_field sees_amountDecoder.optional _).decoder name
  rw [amountOf, open?_eq_ok hsees (by decide) htext (h.decoder_field hamount _ name), ok_bind, present,
    ok_bind, parse_toString]
  rfl

theorem sees_blockDecoder : blockDecoder.Sees 3 :=
  (Record.sees_field ((Record.sees_field ((((Record.sees_field Decoder.sees_string _).map _).seq
    (Record.sees_field Decoder.sees_string _)).decoder _) _).decoder _) _).decoder _

/-- A block is read from its envelope. -/
theorem blockOf_of_hasField {b : Block} {time : String} (hfits : Numeral.FitsInt64 b.height)
    (htime : b.time.IsShownBy time.toList) (htext : t.IsText body)
    (h : HasField "block" (HasField "header" (StatesHeader b.height time)) t) :
    blockOf body = .ok b := by
  have hheader : ∀ u, StatesHeader b.height time u →
      (Prod.mk <$> Record.required "height" Decoder.string
        <*> Record.required "time" Decoder.string).decoder "Header" u.node =
          .ok (toString b.height, time) :=
    fun u hu => hu.1.decoder_pair hu.2 (by decide) (fun _ => Decoder.string_of_eq)
      (fun _ => Decoder.string_of_eq) _ _
  have hopen : open? blockDecoder body = .ok (toString b.height, time) :=
    open?_eq_ok sees_blockDecoder (by decide) htext
      (h.decoder_field (fun u hu => hu.decoder_field hheader _ _) _ _)
  have hheight : Numeral.int64? (Text.trimChars (toString b.height).toList) = some b.height := by
    have hnumeral := Numeral.isIntegerText_text b.height
    exact hnumeral.trimChars_eq.symm ▸ hnumeral.int64? hfits
  rw [blockOf, hopen]
  simp only [ok_bind, hheight, htime.parse]
  rfl

theorem sees_poolDecoder : poolDecoder.Sees 3 :=
  (Record.sees_field ((((Record.sees_field Decoder.sees_string _).map _).seq
    (Record.sees_field Decoder.sees_string _)).decoder _).list _).decoder _

/-- The first coin of a denomination is read from the pool. -/
theorem poolOf_of_hasField {coins : List Coin} {items : List Tree} (denom : String)
    (htext : t.IsText body) (hitems : List.Forall₂ StatesCoin coins items)
    (h : HasField "pool" (· = .array items) t) :
    poolOf denom body = .ok ((Coin.amountTextOf? coins denom).getD "0") := by
  have hcoin : ∀ c u, StatesCoin c u →
      (Coin.mk <$> Record.required "denom" Decoder.string
        <*> Record.required "amount" Decoder.string).decoder "DecCoin" u.node = .ok c :=
    fun c u hu => hu.1.decoder_pair hu.2 (by decide) (fun _ => Decoder.string_of_eq)
      (fun _ => Decoder.string_of_eq) Coin.mk "DecCoin"
  have hcoins := Decoder.list_of_forall₂ (hitems.imp hcoin)
  have hopen : open? poolDecoder body = .ok coins :=
    open?_eq_ok sees_poolDecoder (by decide) htext
      (h.decoder_field (fun _ hu => hu ▸ hcoins) _ _)
  rw [poolOf, hopen]
  rfl

theorem sees_moduleDecoder : moduleDecoder.Sees 3 :=
  (Record.sees_field ((Record.sees_field ((Record.sees_field Decoder.sees_string _).decoder _).optional
    _).decoder _) _).decoder _

theorem moduleOf_of_hasField {address : String} (hne : address ≠ "") (htext : t.IsText body)
    (h : HasField "account" (HasField "base_account" (HasField "address" (· = .string address))) t) :
    moduleOf body = .ok address := by
  have hbase : ∀ u, HasField "address" (· = .string address) u →
      Decoder.optional (single (Record.required "address" Decoder.string) "BaseAccount") u.node =
        .ok (some address) :=
    fun u hu => hu.optional (hu.decoder_field (fun _ => Decoder.string_of_eq) _ _)
  have hopen : open? moduleDecoder body = .ok (some address) :=
    open?_eq_ok sees_moduleDecoder (by decide) htext
      (h.decoder_field (fun u hu => hu.decoder_field hbase _ _) _ _)
  have hfilter : (some address).filter (· ≠ "") = some address := if_pos (decide_eq_true hne)
  rw [moduleOf, hopen, ok_bind, hfilter]
  rfl

theorem accountOf_of_hasField {v : Json} (hdepth : (Tree.ofJson v).depth + 1 < depthLimit)
    (htext : t.IsText body) (h : HasField "account" (· = .ofJson v) t) :
    accountOf body = AccountLock.ofJson v.sorted := by
  rw [accountOf, single, open?, h.ofText_value htext hdepth]
  rfl

/-! ### Answers -/

/-- The accounts of a state fit into their envelopes: their containers are nested less deeply, by one
level, than texts are read. -/
def HasShallowAccounts (s : ChainState) : Prop :=
  ∀ address v, s.account? address = some v → (Tree.ofJson v).depth + 1 < depthLimit

theorem knows_of_answer? {q : Query} {o : q.Outcome} (h : s.answer? q = some o) :
    s.Knows (resource q) := by
  cases q with
  | moduleAddress name =>
    obtain ⟨address, haddress, -⟩ := Option.map_eq_some_iff.mp h
    exact Option.isSome_iff_exists.mpr ⟨address, haddress⟩
  | account address =>
    obtain ⟨v, hv, -⟩ := Option.map_eq_some_iff.mp h
    exact Option.isSome_iff_exists.mpr ⟨v, hv⟩
  | _ => trivial

/-- A text of what a resource is worth is read as the answer to the query for the resource. -/
theorem answerOf_of_states (hshallow : s.HasShallowAccounts) {q : Query} {o : q.Outcome}
    (ho : s.answer? q = some o) (hstates : s.States (resource q) t) (htext : t.IsText body) :
    answerOf q body = o := by
  cases q with
  | height =>
    obtain rfl := Option.some.inj ho
    cases hstates with
    | latestBlock htime h => exact blockOf_of_hasField s.fitsInt64_height htime htext h
  | totalSupply denom =>
    obtain rfl := Option.some.inj ho
    cases hstates with
    | supply h => exact amountOf_of_hasField htext h _
  | escrow denom =>
    obtain rfl := Option.some.inj ho
    cases hstates with
    | escrow h => exact amountOf_of_hasField htext h _
  | communityPool denom =>
    obtain rfl := Option.some.inj ho
    cases hstates with
    | communityPool hitems h => exact poolOf_of_hasField denom htext hitems h
  | balance address denom =>
    obtain rfl := Option.some.inj ho
    cases hstates with
    | balance h => exact amountOf_of_hasField htext h _
  | moduleAddress name =>
    obtain ⟨address, haddress, rfl⟩ := Option.map_eq_some_iff.mp ho
    cases hstates with
    | moduleAccount haddress' h =>
      obtain rfl := Option.some.inj (haddress.symm.trans haddress')
      exact moduleOf_of_hasField (s.moduleAddress_ne name address haddress) htext h
  | account address =>
    obtain ⟨v, hv, rfl⟩ := Option.map_eq_some_iff.mp ho
    cases hstates with
    | @account _ _ w _ hv' hw h =>
      obtain rfl := Option.some.inj (hv.symm.trans hv')
      have hkeys := s.hasIncreasingKeys address v hv
      -- The server may write the members in any order, which the decoder of any value undoes.
      have hsorted : w.sorted = v := by
        rw [← hw.sorted_eq hkeys.hasDistinctKeys, sorted_of_hasIncreasingKeys hkeys]
      have hread := accountOf_of_hasField (hw.depth_eq ▸ hshallow address v hv) htext h
      rwa [hsorted] at hread
  | claims tier denom => cases hstates

/-- **A body is read as what it states.** -/
theorem answerOf_of_documents (hshallow : s.HasShallowAccounts) {q : Query} {o : q.Outcome}
    (ho : s.answer? q = some o) (h : s.Documents (resource q) body) : answerOf q body = o := by
  generalize hr : resource q = r at h
  cases h with
  | text hstates htext => exact answerOf_of_states hshallow ho (hr ▸ hstates) htext
  | claims =>
    cases q <;> cases hr
    exact Option.some.inj ho

end ChainState

namespace Client

variable {s : ChainState} {server : String → Delivery} {network : (q : Network) → q.Answer} {c : Client}

/-- **The client answers what the chain says**: over a network that delivers requests to a server of a
state whose accounts fit into their envelopes, every query is answered with what it is worth in the
state. -/
theorem eval_answer_of_isServedBy (hserver : s.IsServedBy server)
    (hnetwork : Delivers network c.baseUrl server) (hshallow : s.HasShallowAccounts) {q : Query}
    {o : q.Outcome} (ho : s.answer? q = some o) : (c.answer q).eval network = o := by
  obtain ⟨body, hresponse, hdocuments⟩ :=
    hserver (path q) (resource q) (ofText?_path q) (ChainState.knows_of_answer? ho)
  rw [eval_answer ((hnetwork (path q)).trans hresponse)]
  exact ChainState.answerOf_of_documents hshallow ho hdocuments

/-- An account that does not fit into its envelope is a text that the client cannot decode. -/
theorem eval_answer_of_deep_account (hserver : s.IsServedBy server)
    (hnetwork : Delivers network c.baseUrl server) {address : String} {v : Json}
    (hv : s.account? address = some v) (hdepth : depthLimit ≤ (Tree.ofJson v).depth + 1) :
    ∃ why, (c.answer (.account address)).eval network = .error (.decode why) := by
  obtain ⟨body, hresponse, hdocuments⟩ := hserver (path (.account address)) (.account address)
    (ofText?_path _) (Option.isSome_iff_exists.mpr ⟨v, hv⟩)
  rw [eval_answer ((hnetwork _).trans hresponse)]
  cases hdocuments with
  | text hstates htext =>
    cases hstates with
    | account hv' hw h =>
      obtain rfl := Option.some.inj (hv.symm.trans hv')
      obtain ⟨why, hwhy⟩ := h.ofText_tooDeep htext (hw.depth_eq ▸ hdepth) "AccountEnvelope"
      refine ⟨why, ?_⟩
      rw [answerOf, accountOf, single, open?, hwhy]
      rfl

end Client

/-! ### Accounts of any depth -/

/-- Arrays, each but the innermost around another. -/
def arrays : Nat → Json
  | 0 => .array []
  | n + 1 => .array [arrays n]

/-- An account without a lock, which has arrays in a further field. -/
def noted (n : Nat) : Json :=
  .object [("@type", .string "/cosmos.auth.v1beta1.BaseAccount"), ("note", arrays n)]

theorem depth_noted (n : Nat) : (Tree.ofJson (noted n)).depth = n + 2 := by
  have harrays : (Tree.ofJson (arrays n)).depth = n + 1 := by
    induction n with
    | zero => rfl
    | succ n ih => simp [arrays, Tree.ofJson, Tree.ofItems, Tree.depth, Tree.depthItems, ih]
  simp [noted, Tree.ofJson, Tree.ofMembers, Tree.depth, Tree.depthMembers, harrays]

theorem hasIntegers_noted (n : Nat) : (noted n).HasIntegers := by
  have harrays : (arrays n).HasIntegers := by
    induction n with
    | zero => trivial
    | succ n ih => exact ⟨ih, trivial⟩
  exact ⟨trivial, harrays, trivial⟩

theorem hasIncreasingKeys_noted (n : Nat) : (noted n).HasIncreasingKeys := by
  have harrays : (arrays n).HasIncreasingKeys := by
    induction n with
    | zero => trivial
    | succ n ih => exact ⟨ih, trivial⟩
  have hlt : Text.utf8 "@type" < Text.utf8 "note" := Text.utf8_lt_utf8_iff.mpr (by decide)
  exact ⟨List.pairwise_pair.mpr hlt, trivial, harrays, trivial⟩

/-- A state with some coins, a module and an account with a note. -/
def ChainState.noting (n : Nat) : ChainState where
  block := ⟨12345, ⟨0, 3600⟩⟩
  supply _ := 1000000
  escrow denom := if denom = "ibc/A 5%" then 8000 else 0
  pool := [⟨"ulume", "5000.75"⟩]
  balance _ _ := 5
  moduleAddress? name := if name = "gov" then some "b" else none
  account? address := if address = "a" then some (noted n) else none
  claims _ := "\x7b\"claims\":[]\x7d"
  fitsInt64_height := by decide
  isWritable_time := ⟨by decide, by decide, by decide⟩
  moduleAddress_ne _ address h := by
    obtain rfl := Option.some.inj (Option.ite_none_right_eq_some.mp h).2
    decide
  hasIncreasingKeys _ v h := by
    obtain rfl := Option.some.inj (Option.ite_none_right_eq_some.mp h).2
    exact hasIncreasingKeys_noted n

theorem ChainState.isServedBy_noting (n : Nat) : (noting n).IsServedBy (noting n).server := by
  refine isServedBy_server _ fun address v h => ?_
  obtain rfl := Option.some.inj (Option.ite_none_right_eq_some.mp h).2
  exact hasIntegers_noted n

/-- The network with a single server. -/
def networkOf (baseUrl : String) (server : String → Delivery) : (q : Network) → q.Answer
  | .send url => server (String.ofList (url.toList.drop baseUrl.toList.length))
  | .pause _ => ()

theorem delivers_networkOf (baseUrl : String) (server : String → Delivery) :
    Delivers (networkOf baseUrl server) baseUrl server := by
  intro target
  rw [networkOf, String.toList_append, List.drop_left, String.ofList_toList]

theorem ChainState.account?_noting (n : Nat) : (noting n).account? "a" = some (noted n) := by
  simp [noting]

namespace Client

theorem eval_answer_of_isServedBy_noting :
    (answer ⟨{}, "http://localhost:1317"⟩ (.escrow "ibc/A 5%")).eval
      (networkOf "http://localhost:1317" (ChainState.noting 0).server) = .ok 8000 := by
  have hshallow : (ChainState.noting 0).HasShallowAccounts := by
    intro address v h
    obtain rfl := Option.some.inj (Option.ite_none_right_eq_some.mp h).2
    rw [depth_noted]
    decide
  have hanswer : (ChainState.noting 0).answer? (.escrow "ibc/A 5%") = some (.ok 8000) := by
    simp [ChainState.answer?, ChainState.noting]
  let c : Client := ⟨{}, "http://localhost:1317"⟩
  have hnetwork : Delivers (networkOf c.baseUrl (ChainState.noting 0).server) c.baseUrl _ :=
    delivers_networkOf _ _
  exact eval_answer_of_isServedBy (ChainState.isServedBy_noting 0) hnetwork hshallow hanswer

theorem not_eval_answer_of_deep_account :
    ¬∀ (s : ChainState) (server : String → Delivery) (network : (q : Network) → q.Answer) (c : Client)
      (q : Query) (o : q.Outcome), s.IsServedBy server → Delivers network c.baseUrl server →
        s.answer? q = some o → (c.answer q).eval network = o := by
  intro h
  let c : Client := ⟨{}, "http://localhost:1317"⟩
  let network := networkOf c.baseUrl (ChainState.noting 125).server
  have hserver := ChainState.isServedBy_noting 125
  have hnetwork : Delivers network c.baseUrl _ := delivers_networkOf _ _
  have hlock : AccountLock.ofJson (noted 125) = .ok (.unlocked "/cosmos.auth.v1beta1.BaseAccount") := by
    decide +kernel
  have hanswer : (ChainState.noting 125).answer? (.account "a") =
      some (.ok (.unlocked "/cosmos.auth.v1beta1.BaseAccount")) := by
    rw [ChainState.answer?, ChainState.account?_noting, Option.map_some, hlock]
  have hdepth : depthLimit ≤ (Tree.ofJson (noted 125)).depth + 1 := by
    rw [depth_noted]
    decide
  obtain ⟨why, hwhy⟩ := eval_answer_of_deep_account hserver hnetwork
    (ChainState.account?_noting 125) hdepth
  have hread := h _ _ network c (.account "a") _ hserver hnetwork hanswer
  rw [hwhy] at hread
  cases hread

end Client

end Circulation.Lcd
